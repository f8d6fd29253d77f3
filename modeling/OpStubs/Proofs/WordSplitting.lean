import Mathlib.Data.List.Chain
import OpStubs.Proofs.Identifier

namespace OpStubs.Naming

open Lua.Token

/-- Whether a word is a capital with small letters and digits behind it. -/
def IsCapitalised : List Char → Prop
  | [] => False
  | c :: rest => c.isUpper = true ∧ rest ≠ [] ∧ ∀ d ∈ rest, d.isLower = true ∨ d.isDigit = true

instance : DecidablePred IsCapitalised := fun w =>
  match w with
  | [] => inferInstanceAs (Decidable False)
  | _ :: rest =>
    letI : Decidable (∀ d ∈ rest, d.isLower = true ∨ d.isDigit = true) :=
      List.decidableBAll _ rest
    inferInstanceAs (Decidable (_ ∧ _ ∧ _))

/-- Whether a word is made of capitals. One capital alone is no word. -/
def IsAcronym (w : List Char) : Prop := 2 ≤ w.length ∧ ∀ c ∈ w, c.isUpper = true

instance : DecidablePred IsAcronym := fun w =>
  letI : Decidable (∀ c ∈ w, c.isUpper = true) := List.decidableBAll _ w
  inferInstanceAs (Decidable (_ ∧ _))

/-- Whether texts are words that a name keeps apart: no acronym stands next to another. -/
structure AreWords (ws : List (List Char)) : Prop where
  word : ∀ w ∈ ws, IsCapitalised w ∨ IsAcronym w
  apart : ws.IsChain fun v w => ¬ (IsAcronym v ∧ IsAcronym w)

theorem isCapital_eq (c : Char) : isCapital c = c.isUpper :=
  (Bool.decide_and ('A' ≤ c) (c ≤ 'Z')).symm

theorem continuesWord_iff {c : Char} :
    continuesWord c = true ↔ c.isLower = true ∨ c.isDigit = true :=
  Bool.or_eq_true_iff (x := c.isLower) (y := c.isDigit)

theorem not_isCapital_of_continuesWord {c : Char} (h : continuesWord c = true) :
    isCapital c = false := by
  by_contra hc
  rw [Bool.not_eq_false] at hc
  have hall := ascii_induction (p := fun c => !isCapital c || !continuesWord c) (by decide)
    (toNat_lt_of_continuesName (continuesName_of_isCapital hc))
  simp [hc, h] at hall

theorem continuesName_of_continuesWord {c : Char} (h : continuesWord c = true) :
    continuesName c = true := by
  change (c.isUpper || c.isLower || c.isDigit || c == '_') = true
  rcases continuesWord_iff.1 h with h | h <;> simp [h]

theorem IsAcronym.isCapital {w : List Char} (h : IsAcronym w) : ∀ c ∈ w, isCapital c = true := by
  intro c hc
  rw [isCapital_eq]
  exact h.2 c hc

theorem IsAcronym.ne_nil {w : List Char} (h : IsAcronym w) : w ≠ [] := by
  rintro rfl
  exact absurd h.1 (by decide)

theorem IsAcronym.three_le {w : List Char} (h : IsAcronym w) (c : Char) :
    3 ≤ (w ++ [c]).length := by
  rw [List.length_append, List.length_singleton]
  exact Nat.succ_le_succ h.1

/-- The first letters of a capitalised word, and what all behind the first are. -/
theorem IsCapitalised.exists_cons {w : List Char} (h : IsCapitalised w) :
    ∃ c d rest, w = c :: d :: rest ∧ isCapital c = true ∧
      ∀ e ∈ d :: rest, continuesWord e = true := by
  match w, h with
  | [c], h => exact absurd rfl h.2.1
  | c :: d :: rest, ⟨hc, _, hrest⟩ =>
    refine ⟨c, d, rest, rfl, by rw [isCapital_eq, hc], ?_⟩
    intro e he
    exact continuesWord_iff.2 (hrest e he)

/-- Words of which no acronym is the last: each has a capitalised word behind it. -/
inductive Phrase : List (List Char) → Prop where
  | nil : Phrase []
  | word {w : List Char} {ws : List (List Char)} (hw : IsCapitalised w) (h : Phrase ws) :
      Phrase (w :: ws)
  | acronym {a w : List Char} {ws : List (List Char)} (ha : IsAcronym a) (hw : IsCapitalised w)
      (h : Phrase ws) : Phrase (a :: w :: ws)

/-- Words are a phrase, but for an acronym at their end. -/
theorem AreWords.phrase {ws : List (List Char)} (h : AreWords ws) :
    Phrase ws ∨ ∃ front a, ws = front ++ [a] ∧ Phrase front ∧ IsAcronym a := by
  induction ws with
  | nil => exact .inl .nil
  | cons w ws ih =>
    have hrest : AreWords ws := ⟨fun v hv => h.word v (List.mem_cons_of_mem _ hv), h.apart.tail⟩
    rcases h.word w List.mem_cons_self with hw | hw
    · rcases ih hrest with hws | ⟨front, a, rfl, hfront, ha⟩
      · exact .inl (.word hw hws)
      · exact .inr ⟨w :: front, a, rfl, .word hw hfront, ha⟩
    · have hnot {a : List Char} {rest : List (List Char)} (hws : ws = a :: rest)
          (ha : IsAcronym a) : False := by
        rw [hws] at h
        exact (List.isChain_cons_cons.1 h.apart).1 ⟨hw, ha⟩
      rcases ih hrest with hws | ⟨front, a, hws, hfront, ha⟩
      · cases hws with
        | nil => exact .inr ⟨[], w, rfl, .nil, hw⟩
        | word hv hvs => exact .inl (.acronym hw hv hvs)
        | acronym ha => exact (hnot rfl ha).elim
      · cases hfront with
        | nil => exact (hnot hws ha).elim
        | word hv hvs => exact .inr ⟨_, a, by rw [hws]; rfl, .acronym hw hv hvs, ha⟩
        | acronym ha' => exact (hnot hws ha').elim

/-- A word as it stands behind others. -/
def joined (w : List Char) : List Char := '_' :: w.map Char.toLower

/-- A text with an underscore before each capital, in lower case. -/
def spread (s : List Char) : List Char := (markCapitals s).map Char.toLower

theorem spread_append (s t : List Char) : spread (s ++ t) = spread s ++ spread t := by
  simp [spread, markCapitals]

theorem spread_of_no_capital {s : List Char} (h : ∀ c ∈ s, isCapital c = false) :
    spread s = s.map Char.toLower := by
  induction s with
  | nil => rfl
  | cons c s ih =>
    obtain ⟨hc, hs⟩ := List.forall_mem_cons.1 h
    rw [← List.singleton_append, spread_append, ih hs]
    simp [spread, markCapitals, hc]

theorem spread_cons_capital {c : Char} (h : isCapital c = true) (s : List Char) :
    spread (c :: s) = '_' :: c.toLower :: spread s := by
  simp [spread, markCapitals, h]

theorem spread_capitalised {w : List Char} (h : IsCapitalised w) : spread w = joined w := by
  obtain ⟨c, d, rest, rfl, hc, hrest⟩ := h.exists_cons
  rw [spread_cons_capital hc,
    spread_of_no_capital fun e he => not_isCapital_of_continuesWord (hrest e he)]
  rfl

/-- What a capital becomes is no capital, and stays as it is. -/
theorem toLower_of_isCapital {c : Char} (h : isCapital c = true) :
    isCapital c.toLower = false ∧ c.toLower.toLower = c.toLower := by
  have hall := ascii_induction
    (p := fun c => !isCapital c || (!isCapital c.toLower && c.toLower.toLower == c.toLower))
    (by decide) (toNat_lt_of_continuesName (continuesName_of_isCapital h))
  simpa [h] using hall

theorem not_isCapital_lowered {w : List Char} (h : ∀ c ∈ w, isCapital c = true) :
    ∀ c ∈ w.map Char.toLower, isCapital c = false := by
  intro c hc
  obtain ⟨d, hd, rfl⟩ := List.mem_map.1 hc
  exact (toLower_of_isCapital (h d hd)).1

theorem spread_lowered {w : List Char} (h : ∀ c ∈ w, isCapital c = true) :
    spread (w.map Char.toLower) = w.map Char.toLower := by
  rw [spread_of_no_capital (not_isCapital_lowered h), List.map_map]
  refine List.map_congr_left fun c hc => ?_
  exact (toLower_of_isCapital (h c hc)).2

theorem not_isCapital_joined {w : List Char} (h : IsAcronym w) :
    ∀ c ∈ joined w, isCapital c = false :=
  List.forall_mem_cons.2 ⟨by decide, not_isCapital_lowered h.isCapital⟩

theorem spread_joined {w : List Char} (h : IsAcronym w) : spread (joined w) = joined w := by
  rw [joined, ← List.singleton_append, spread_append, spread_lowered h.isCapital]
  rfl

theorem replaceFrom_of_not_infix {old new s : List Char} (h : ¬ old <:+: s) :
    replaceFrom old new 0 s = s := by
  induction s with
  | nil => rfl
  | cons c r ih =>
    rw [List.infix_cons_iff, not_or] at h
    rw [replaceFrom, if_neg (by rw [List.isPrefixOf_iff_prefix]; exact h.1), ih h.2]

theorem fixAcronyms_of_free {s : List Char} (h : ∀ a ∈ acronyms, ¬ a.1.toList <:+: s) :
    fixAcronyms s = s := by
  unfold fixAcronyms
  generalize acronyms = as at h
  induction as with
  | nil => rfl
  | cons a as ih =>
    obtain ⟨ha, has⟩ := List.forall_mem_cons.1 h
    have hkept : replaceAll a.1.toList a.2.toList s = s := replaceFrom_of_not_infix ha
    change as.foldl _ (replaceAll a.1.toList a.2.toList s) = s
    rw [hkept]
    exact ih has

theorem IsCapitalised.exists_getLast? {w : List Char} (h : IsCapitalised w) :
    ∃ c, w.getLast? = some c ∧ isCapital c = false := by
  obtain ⟨c, d, rest, rfl, -, hrest⟩ := h.exists_cons
  have hlast := List.getLast?_eq_some_getLast (List.cons_ne_nil d rest)
  exact ⟨_, by rw [List.getLast?_cons_cons, hlast],
    not_isCapital_of_continuesWord (hrest _ (List.getLast_mem _))⟩

/-- A phrase ends with a small letter or a digit. -/
theorem Phrase.not_isCapital {ws : List (List Char)} (h : Phrase ws) :
    ∀ c ∈ ws.flatten.getLast?, isCapital c = false := by
  have hword {a w s : List Char} (hw : IsCapitalised w)
      (hs : ∀ c ∈ s.getLast?, isCapital c = false) :
      ∀ c ∈ (a ++ (w ++ s)).getLast?, isCapital c = false := by
    obtain ⟨c, hlast, hc⟩ := hw.exists_getLast?
    rw [List.getLast?_append, List.getLast?_append, hlast]
    cases hs' : s.getLast? with
    | none =>
      rintro _ ⟨⟩
      exact hc
    | some d =>
      rintro _ ⟨⟩
      exact hs d hs'
  induction h with
  | nil => exact nofun
  | word hw _ ih =>
    rw [List.flatten_cons]
    exact hword (a := []) hw ih
  | acronym _ hw _ ih =>
    rw [List.flatten_cons, List.flatten_cons]
    exact hword hw ih

theorem takeWhile_reverse_of_not_isCapital {s : List Char}
    (h : ∀ c ∈ s.getLast?, isCapital c = false) : s.reverse.takeWhile isCapital = [] := by
  rw [← List.head?_reverse] at h
  cases hs : s.reverse with
  | nil => rfl
  | cons c r =>
    rw [hs] at h
    exact List.takeWhile_cons_of_neg (by simp [h c rfl])

theorem lowerTrailing_acronym {s a : List Char} (hs : ∀ c ∈ s.getLast?, isCapital c = false)
    (ha : IsAcronym a) : lowerTrailing (s ++ a) = s ++ joined a := by
  have hrun : (s ++ a).reverse.takeWhile isCapital = a.reverse := by
    rw [List.reverse_append, List.takeWhile_append_of_pos (by simpa using ha.isCapital),
      takeWhile_reverse_of_not_isCapital hs, List.append_nil]
  rw [lowerTrailing]
  simp only [hrun, List.reverse_reverse]
  rw [if_pos ha.1, List.length_append, Nat.add_sub_cancel, List.take_left]
  rfl

theorem lowerTrailing_of_not_isCapital {s : List Char}
    (hs : ∀ c ∈ s.getLast?, isCapital c = false) : lowerTrailing s = s := by
  rw [lowerTrailing]
  simp only [takeWhile_reverse_of_not_isCapital hs]
  rfl

theorem lowerRun_concat (run : List Char) (c : Char) :
    lowerRun (run ++ [c]) = run.map Char.toLower ++ [c] := by
  simp [lowerRun]

/-- Capitals at the start of a name of which the last begins a word. -/
theorem lowerLeading_run {r : List Char} (hr : ∀ c ∈ r, isCapital c = true) {d : Char}
    (hd : continuesWord d = true) (s : List Char) :
    lowerLeading (r ++ d :: s) =
      if 3 ≤ r.length then lowerRun r ++ d :: s else r ++ d :: s := by
  have hstop : ¬ isCapital d = true := by simp [not_isCapital_of_continuesWord hd]
  rw [lowerLeading]
  simp only [List.takeWhile_append_of_pos hr, List.dropWhile_append_of_pos hr,
    List.takeWhile_cons_of_neg hstop, List.dropWhile_cons_of_neg hstop, List.append_nil,
    List.head?_cons, Option.any_some, hd, Bool.and_true, decide_eq_true_eq]

theorem lowerLeading_capitalised {w : List Char} (hw : IsCapitalised w) (s : List Char) :
    lowerLeading (w ++ s) = w ++ s := by
  obtain ⟨c, d, rest, rfl, hc, hrest⟩ := hw.exists_cons
  exact lowerLeading_run (r := [c]) (by simpa using hc) (hrest d List.mem_cons_self) _

theorem lowerLeading_acronym {a w : List Char} (ha : IsAcronym a) (hw : IsCapitalised w)
    (s : List Char) : lowerLeading (a ++ (w ++ s)) = a.map Char.toLower ++ (w ++ s) := by
  obtain ⟨c, d, rest, rfl, hc, hrest⟩ := hw.exists_cons
  have hrun : ∀ e ∈ a ++ [c], isCapital e = true :=
    List.forall_mem_append.2 ⟨ha.isCapital, by simpa using hc⟩
  have hlower := lowerLeading_run hrun (hrest d List.mem_cons_self) (rest ++ s)
  rw [if_pos (ha.three_le c), lowerRun_concat] at hlower
  simpa using hlower

theorem lowerInner_run (pending : List Char) {run : List Char}
    (hrun : ∀ c ∈ run, isCapital c = true) (s : List Char) :
    lowerInner pending (run ++ s) = lowerInner (pending ++ run) s := by
  induction run generalizing pending with
  | nil => rw [List.nil_append, List.append_nil]
  | cons c run ih =>
    obtain ⟨hc, hrest⟩ := List.forall_mem_cons.1 hrun
    rw [List.cons_append, lowerInner, if_pos hc, ih _ hrest, List.append_assoc,
      List.singleton_append]

theorem lowerInner_no_capital {t : List Char} (ht : ∀ c ∈ t, isCapital c = false) (s : List Char) :
    lowerInner [] (t ++ s) = t ++ lowerInner [] s := by
  induction t with
  | nil => rfl
  | cons c t ih =>
    obtain ⟨hc, hrest⟩ := List.forall_mem_cons.1 ht
    rw [List.cons_append, lowerInner, if_neg (by simp [hc]), ih hrest]
    rfl

/-- Capitals within a name of which the last begins a word. -/
theorem lowerInner_word {run : List Char} {d : Char} (hd : continuesWord d = true)
    (s : List Char) :
    lowerInner run (d :: s) =
      if 3 ≤ run.length then '_' :: lowerRun run ++ d :: lowerInner [] s
      else run ++ d :: lowerInner [] s := by
  rw [lowerInner, if_neg (by simp [not_isCapital_of_continuesWord hd])]
  simp only [hd, Bool.and_true, decide_eq_true_eq]

/-- A capitalised word with an acronym or nothing in front of it. -/
theorem lowerInner_capitalised {a w : List Char} (ha : a = [] ∨ IsAcronym a)
    (hw : IsCapitalised w) (s : List Char) :
    lowerInner [] (a ++ (w ++ s)) =
      (if a = [] then [] else joined a) ++ (w ++ lowerInner [] s) := by
  obtain ⟨c, d, rest, rfl, hc, hrest⟩ := hw.exists_cons
  have hrun : ∀ e ∈ a ++ [c], isCapital e = true := by
    rcases ha with rfl | ha
    · simpa using hc
    · exact List.forall_mem_append.2 ⟨ha.isCapital, by simpa using hc⟩
  have htail : lowerInner [] (rest ++ s) = rest ++ lowerInner [] s :=
    lowerInner_no_capital (fun e he => not_isCapital_of_continuesWord
      (hrest e (List.mem_cons_of_mem _ he))) s
  have hsplit : a ++ (c :: d :: rest ++ s) = a ++ [c] ++ d :: (rest ++ s) := by simp
  rw [hsplit, lowerInner_run [] hrun, List.nil_append, lowerInner_word (hrest d List.mem_cons_self),
    lowerRun_concat, htail]
  rcases ha with rfl | ha
  · rfl
  · rw [if_pos (ha.three_le c), if_neg ha.ne_nil]
    simp [joined]

/-- Each word of a phrase gets an underscore in front. -/
theorem Phrase.spread_lowerInner {ws : List (List Char)} (h : Phrase ws) {t : List Char}
    (ht : ∀ c ∈ t, isCapital c = false) :
    spread (lowerInner [] (ws.flatten ++ t)) = ws.flatMap joined ++ spread t := by
  induction h with
  | nil =>
    have hkept := lowerInner_no_capital ht []
    rw [List.append_nil] at hkept
    rw [List.flatten_nil, List.nil_append, hkept, lowerInner, List.append_nil]
    rfl
  | @word w ws hw _ ih =>
    rw [List.flatten_cons, List.append_assoc]
    have hinner := lowerInner_capitalised (.inl rfl) hw (ws.flatten ++ t)
    rw [List.nil_append, if_pos rfl, List.nil_append] at hinner
    rw [hinner, spread_append, spread_capitalised hw, ih, List.flatMap_cons, List.append_assoc]
  | @acronym a w ws ha hw _ ih =>
    rw [List.flatten_cons, List.flatten_cons, List.append_assoc, List.append_assoc,
      lowerInner_capitalised (.inr ha) hw, if_neg ha.ne_nil, spread_append, spread_append,
      spread_joined ha, spread_capitalised hw, ih, List.flatMap_cons, List.flatMap_cons,
      List.append_assoc, List.append_assoc]

theorem splitWords_cons {c : Char} {r : List Char} (h : IsIdentifier (c :: r)) :
    splitWords (c :: r) = c.toLower :: spread r := by
  have hascii : ∀ d ∈ c :: markCapitals r, d.toNat < 0x80 := by
    refine List.forall_mem_cons.2 ⟨toNat_lt_of_continuesName (h.2 c List.mem_cons_self), ?_⟩
    intro d hd
    obtain ⟨e, he, hde⟩ := List.mem_flatMap.1 hd
    have hlt := toNat_lt_of_continuesName (h.2 e (List.mem_cons_of_mem c he))
    split at hde
    · simp only [List.mem_cons, List.not_mem_nil, or_false] at hde
      rcases hde with rfl | rfl
      · decide
      · exact hlt
    · obtain rfl := List.mem_singleton.1 hde
      exact hlt
  rw [splitWords, Text.lower_ascii _ hascii]
  rfl

/-- The first word of a name gets no underscore. -/
theorem splitWords_append {v : List Char} (hne : v ≠ []) (hv : ∀ c ∈ v.tail, isCapital c = false)
    {s : List Char} (h : IsIdentifier (v ++ s)) :
    splitWords (v ++ s) = v.map Char.toLower ++ spread s := by
  cases v with
  | nil => exact absurd rfl hne
  | cons c r =>
    have hr : ∀ d ∈ r, isCapital d = false := hv
    rw [List.cons_append] at h ⊢
    rw [splitWords_cons h, spread_append, spread_of_no_capital hr]
    rfl

theorem Phrase.splitWords_eq {ws : List (List Char)} (h : Phrase ws) (hne : ws ≠ [])
    {t : List Char} (ht : ∀ c ∈ t, isCapital c = false) (hid : IsIdentifier (ws.flatten ++ t)) :
    splitWords (lowerInner [] (lowerLeading (ws.flatten ++ t))) =
      (ws.flatMap joined ++ spread t).tail := by
  have hinner : IsIdentifier (lowerInner [] (lowerLeading (ws.flatten ++ t))) :=
    IsIdentifier.lowerInner hid.lowerLeading
  cases h with
  | nil => exact absurd rfl hne
  | @word w ws hw hws =>
    have hfirst := lowerInner_capitalised (.inl rfl) hw (ws.flatten ++ t)
    rw [List.nil_append, if_pos rfl, List.nil_append] at hfirst
    rw [List.flatten_cons, List.append_assoc, lowerLeading_capitalised hw, hfirst] at hinner ⊢
    obtain ⟨c, d, rest, rfl, hc, hrest⟩ := hw.exists_cons
    rw [splitWords_append (List.cons_ne_nil _ _)
      (fun e he => not_isCapital_of_continuesWord (hrest e he)) hinner, hws.spread_lowerInner ht]
    simp [joined]
  | @acronym a w ws ha hw hws =>
    have hlowered := not_isCapital_lowered ha.isCapital
    have hne : a.map Char.toLower ≠ [] := by
      rw [ne_eq, List.map_eq_nil_iff]
      exact ha.ne_nil
    have hrest := (Phrase.word hw hws).spread_lowerInner ht
    rw [List.flatten_cons, List.append_assoc] at hrest
    rw [List.flatten_cons, List.flatten_cons, List.append_assoc, List.append_assoc,
      lowerLeading_acronym ha hw, lowerInner_no_capital hlowered] at hinner ⊢
    rw [splitWords_append hne (fun c hc => hlowered c (List.mem_of_mem_tail hc)) hinner, hrest,
      ← spread_of_no_capital hlowered, spread_lowered ha.isCapital]
    simp [joined]

theorem intercalate_lowered (w : List Char) (ws : List (List Char)) :
    ['_'].intercalate ((w :: ws).map fun v => v.map Char.toLower) =
      ((w :: ws).flatMap joined).tail := by
  induction ws generalizing w with
  | nil => simp [joined]
  | cons v ws ih =>
    have hrest := ih v
    rw [List.map_cons] at hrest
    rw [List.map_cons, List.map_cons, List.intercalate_cons_cons, hrest]
    simp [joined]

/-- Words make an identifier. -/
theorem AreWords.isIdentifier {ws : List (List Char)} (h : AreWords ws) (hne : ws ≠ []) :
    IsIdentifier ws.flatten := by
  have hword {w : List Char} (hw : IsCapitalised w ∨ IsAcronym w) : IsIdentifier w := by
    rcases hw with hw | hw
    · obtain ⟨c, d, rest, rfl, hc, hrest⟩ := hw.exists_cons
      exact isIdentifier_cons.2 ⟨startsName_of_isCapital hc,
        fun e he => continuesName_of_continuesWord (hrest e he)⟩
    · cases w with
      | nil => exact absurd hw.1 (by decide)
      | cons c r =>
        obtain ⟨hc, hr⟩ := List.forall_mem_cons.1 hw.isCapital
        exact isIdentifier_cons.2 ⟨startsName_of_isCapital hc,
          fun e he => continuesName_of_isCapital (hr e he)⟩
  cases ws with
  | nil => exact absurd rfl hne
  | cons w ws =>
    obtain ⟨hw, hws⟩ := List.forall_mem_cons.1 h.word
    refine (hword hw).append fun c hc => ?_
    obtain ⟨v, hv, hcv⟩ := List.mem_flatten.1 hc
    exact (hword (hws v hv)).2 c hcv

/-- A name with a small letter is not all in upper case. -/
theorem ne_upper_of_isLower {s : List Char} (hs : ∀ c ∈ s, continuesName c = true)
    (h : ∃ c ∈ s, c.isLower = true) : s ≠ Text.upper s := by
  obtain ⟨c, hc, hlower⟩ := h
  rw [Text.upper_ascii s fun d hd => toNat_lt_of_continuesName (hs d hd)]
  intro heq
  have hsame : c = c.toUpper := List.map_inj_left.1 ((List.map_id s).trans heq) c hc
  have hall := ascii_induction (p := fun c => !c.isLower || c != c.toUpper) (by decide)
    (toNat_lt_of_continuesName (hs c hc))
  simp [hlower, ← hsame] at hall

theorem normalizeChars_words {ws : List (List Char)} (h : AreWords ws)
    (hsmall : ∃ c ∈ ws.flatten, c.isLower = true)
    (hfree : ∀ a ∈ acronyms, ¬ a.1.toList <:+: ws.flatten) :
    normalizeChars ws.flatten = (ws.flatMap joined).tail := by
  have hne : ws ≠ [] := by
    rintro rfl
    obtain ⟨c, hc, -⟩ := hsmall
    cases hc
  have hid := h.isIdentifier hne
  have htrailing := hid.lowerTrailing
  rw [normalizeChars, if_neg (ne_upper_of_isLower hid.2 hsmall), fixAcronyms_of_free hfree]
  rcases h.phrase with hws | ⟨front, a, rfl, hfront, ha⟩
  · rw [lowerTrailing_of_not_isCapital hws.not_isCapital] at htrailing ⊢
    have hsplit := hws.splitWords_eq hne (t := []) nofun (by simpa using htrailing)
    simpa [spread, markCapitals] using hsplit
  · have hlast : lowerTrailing (front ++ [a]).flatten = front.flatten ++ joined a := by
      rw [List.flatten_append, List.flatten_singleton,
        lowerTrailing_acronym hfront.not_isCapital ha]
    have hfront_ne : front ≠ [] := by
      rintro rfl
      obtain ⟨c, hc, hlower⟩ := hsmall
      have hsmallest := not_isCapital_of_continuesWord (continuesWord_iff.2 (.inl hlower))
      rw [ha.isCapital c (by simpa using hc)] at hsmallest
      cases hsmallest
    rw [hlast] at htrailing ⊢
    rw [hfront.splitWords_eq hfront_ne (not_isCapital_joined ha) htrailing, spread_joined ha,
      List.flatMap_append, List.flatMap_singleton]

/-- Capitalised words and acronyms that make a name are told apart in it, if it has a small letter
and none of the acronyms with a spelling of their own. -/
theorem normalize_words {ws : List String} (hwords : AreWords (ws.map String.toList))
    (hsmall : ∃ c ∈ (String.join ws).toList, c.isLower = true)
    (hfree : ∀ a ∈ acronyms, ¬ a.1.toList <:+: (String.join ws).toList) :
    normalize (String.join ws) = "_".intercalate (ws.map fun w => w.map Char.toLower) := by
  have hjoin : (String.join ws).toList = (ws.map String.toList).flatten := by
    rw [String.toList_join, List.flatMap_def]
  have hlowered : (ws.map fun w => w.map Char.toLower).map String.toList =
      (ws.map String.toList).map fun w => w.map Char.toLower := by
    simp
  rw [hjoin] at hsmall hfree
  rw [normalize, hjoin, normalizeChars_words hwords hsmall hfree, ← String.toList_inj,
    String.toList_ofList, String.toList_intercalate, hlowered]
  cases ws.map String.toList with
  | nil => rfl
  | cons w ws => exact (intercalate_lowered w ws).symm

/-- Acronyms at the start, within and at the end of a name. -/
theorem normalize_words_rgbToHsv :
    let ws := ["RGB", "To", "HSV", "Grad", "V2", "XYZ"]
    AreWords (ws.map String.toList) ∧ (∃ c ∈ (String.join ws).toList, c.isLower = true) ∧
      (∀ a ∈ acronyms, ¬ a.1.toList <:+: (String.join ws).toList) ∧
      normalize "RGBToHSVGradV2XYZ" = "rgb_to_hsv_grad_v2_xyz" := by
  have hwords : AreWords (["RGB", "To", "HSV", "Grad", "V2", "XYZ"].map String.toList) :=
    ⟨by decide, by decide⟩
  have hsmall : ∃ c ∈ (String.join ["RGB", "To", "HSV", "Grad", "V2", "XYZ"]).toList,
      c.isLower = true := ⟨'o', by decide, by decide⟩
  have hfree : ∀ a ∈ acronyms,
      ¬ a.1.toList <:+: (String.join ["RGB", "To", "HSV", "Grad", "V2", "XYZ"]).toList := by
    decide +kernel
  have hsplit := normalize_words hwords hsmall hfree
  have hname : String.join ["RGB", "To", "HSV", "Grad", "V2", "XYZ"] = "RGBToHSVGradV2XYZ" := by
    decide
  have hresult : "_".intercalate (["RGB", "To", "HSV", "Grad", "V2", "XYZ"].map
      fun w => w.map Char.toLower) = "rgb_to_hsv_grad_v2_xyz" := by
    decide +kernel
  rw [hname, hresult] at hsplit
  exact ⟨hwords, hsmall, hfree, hsplit⟩

end OpStubs.Naming
