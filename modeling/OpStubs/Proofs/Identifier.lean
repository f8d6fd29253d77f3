import OpStubs.Naming
import OpStubs.Proofs.Lua.Lexer

namespace OpStubs.Naming

open Lua.Token

/-- Whether a text has the shape of a name of Lua. It may be a word that Lua keeps for itself. -/
def IsIdentifier (s : List Char) : Prop :=
  s.head?.any startsName = true ∧ ∀ c ∈ s, continuesName c = true

instance (s : List Char) : Decidable (IsIdentifier s) :=
  decidable_of_iff (s.head?.any startsName && s.all continuesName) (by simp [IsIdentifier])

theorem continuesName_of_startsName {c : Char} (h : startsName c = true) :
    continuesName c = true := by
  simp only [startsName, Bool.or_eq_true] at h
  simp only [continuesName, Char.isAlphanum, Bool.or_eq_true]
  rcases h with h | h
  · exact .inl (.inl h)
  · exact .inr h

theorem toNat_lt_of_continuesName {c : Char} (h : continuesName c = true) : c.toNat < 128 := by
  simp only [continuesName, Char.isAlphanum, Bool.or_eq_true, isAlpha_iff_toNat,
    Char.isDigit_iff_toNat, beq_iff_eq] at h
  change (((65 ≤ c.toNat ∧ c.toNat ≤ 90) ∨ (97 ≤ c.toNat ∧ c.toNat ≤ 122)) ∨
    (48 ≤ c.toNat ∧ c.toNat ≤ 57)) ∨ c = '_' at h
  rcases h with h | rfl
  · omega
  · decide

/-- A property of the characters of ASCII is checked for each of them. -/
theorem ascii_induction {p : Char → Bool} (h : ∀ n < 128, p (Char.ofNat n) = true) {c : Char}
    (hc : c.toNat < 128) : p c = true := by
  have := h c.toNat hc
  rwa [Char.ofNat_toNat] at this

theorem toLower_of_continuesName {c : Char} (h : continuesName c = true) :
    continuesName c.toLower = true := by
  have hall := ascii_induction (p := fun c => !continuesName c || continuesName c.toLower)
    (by decide) (toNat_lt_of_continuesName h)
  simpa [h] using hall

theorem toLower_of_startsName {c : Char} (h : startsName c = true) :
    startsName c.toLower = true := by
  have hall := ascii_induction (p := fun c => !startsName c || startsName c.toLower)
    (by decide) (toNat_lt_of_continuesName (continuesName_of_startsName h))
  simpa [h] using hall

theorem startsName_of_isCapital {c : Char} (h : isCapital c = true) : startsName c = true := by
  have hc : c.toNat < 128 := by
    simp only [isCapital, Bool.and_eq_true, decide_eq_true_eq, Char.le_def,
      UInt32.le_iff_toNat_le] at h
    change 65 ≤ c.toNat ∧ c.toNat ≤ 90 at h
    omega
  have hall := ascii_induction (p := fun c => !isCapital c || startsName c) (by decide) hc
  simpa [h] using hall

theorem isIdentifier_cons {c : Char} {r : List Char} :
    IsIdentifier (c :: r) ↔ startsName c = true ∧ ∀ d ∈ r, continuesName d = true := by
  unfold IsIdentifier
  constructor
  · rintro ⟨hc, hr⟩
    exact ⟨by simpa using hc, fun d hd => hr d (List.mem_cons_of_mem c hd)⟩
  · rintro ⟨hc, hr⟩
    exact ⟨by simpa using hc, List.forall_mem_cons.2 ⟨continuesName_of_startsName hc, hr⟩⟩

/-- The shape depends on the first character and on what may follow it. -/
theorem IsIdentifier.append {s t : List Char} (h : IsIdentifier s)
    (ht : ∀ c ∈ t, continuesName c = true) : IsIdentifier (s ++ t) := by
  cases s with
  | nil => simp [IsIdentifier] at h
  | cons c r =>
    rw [isIdentifier_cons] at h
    rw [List.cons_append, isIdentifier_cons]
    refine ⟨h.1, ?_⟩
    intro d hd
    rcases List.mem_append.1 hd with hd | hd
    · exact h.2 d hd
    · exact ht d hd

theorem IsIdentifier.lower {s : List Char} (h : IsIdentifier s) : IsIdentifier (Text.lower s) := by
  rw [Text.lower_ascii s fun c hc => toNat_lt_of_continuesName (h.2 c hc)]
  cases s with
  | nil => exact h
  | cons c r =>
    rw [isIdentifier_cons] at h
    rw [List.map_cons, isIdentifier_cons]
    refine ⟨toLower_of_startsName h.1, ?_⟩
    intro d hd
    obtain ⟨e, he, rfl⟩ := List.mem_map.1 hd
    exact toLower_of_continuesName (h.2 e he)

theorem continuesName_replaceFrom {old new s : List Char} {skip : Nat}
    (hn : ∀ c ∈ new, continuesName c = true) (hs : ∀ c ∈ s, continuesName c = true) :
    ∀ c ∈ replaceFrom old new skip s, continuesName c = true := by
  induction s generalizing skip with
  | nil =>
    intro c hc
    cases hc
  | cons d r ih =>
    obtain ⟨hd, hr⟩ := List.forall_mem_cons.1 hs
    cases skip with
    | succ k => exact ih hr
    | zero =>
      rw [replaceFrom]
      split
      · intro c hc
        rcases List.mem_append.1 hc with hc | hc
        · exact hn c hc
        · exact ih hr c hc
      · exact List.forall_mem_cons.2 ⟨hd, ih hr⟩

theorem IsIdentifier.replaceAll {old new s : List Char} (hn : IsIdentifier new)
    (h : IsIdentifier s) : IsIdentifier (replaceAll old new s) := by
  unfold Naming.replaceAll
  cases s with
  | nil => simp [IsIdentifier] at h
  | cons c r =>
    obtain ⟨hc, hr⟩ := isIdentifier_cons.1 h
    rw [replaceFrom]
    split
    · exact hn.append (continuesName_replaceFrom hn.2 hr)
    · exact isIdentifier_cons.2 ⟨hc, continuesName_replaceFrom hn.2 hr⟩

theorem IsIdentifier.fixAcronyms {s : List Char} (h : IsIdentifier s) :
    IsIdentifier (fixAcronyms s) := by
  have hnew : ∀ a ∈ acronyms, IsIdentifier a.2.toList := by
    have hall : (acronyms.all fun a => decide (IsIdentifier a.2.toList)) = true := by decide
    exact fun a ha => of_decide_eq_true (List.all_eq_true.1 hall a ha)
  unfold Naming.fixAcronyms
  generalize acronyms = as at hnew
  induction as generalizing s with
  | nil => exact h
  | cons a as ih =>
    obtain ⟨ha, has⟩ := List.forall_mem_cons.1 hnew
    exact ih (ha.replaceAll h) has

theorem continuesName_of_isCapital {c : Char} (h : isCapital c = true) : continuesName c = true :=
  continuesName_of_startsName (startsName_of_isCapital h)

theorem IsIdentifier.lowerTrailing {s : List Char} (h : IsIdentifier s) :
    IsIdentifier (lowerTrailing s) := by
  unfold Naming.lowerTrailing
  simp only
  split
  · have htail : ∀ c ∈ '_' :: ((s.reverse.takeWhile isCapital).reverse.map Char.toLower),
        continuesName c = true := by
      refine List.forall_mem_cons.2 ⟨by decide, ?_⟩
      intro d hd
      obtain ⟨e, he, rfl⟩ := List.mem_map.1 hd
      rw [List.mem_reverse] at he
      exact toLower_of_continuesName
        (continuesName_of_isCapital (List.all_eq_true.1 List.all_takeWhile e he))
    cases ht : s.take (s.length - (s.reverse.takeWhile isCapital).reverse.length) with
    | nil => exact isIdentifier_cons.2 ⟨by decide, (List.forall_mem_cons.1 htail).2⟩
    | cons c r =>
      refine IsIdentifier.append ?_ htail
      cases s with
      | nil => simp at ht
      | cons d s =>
        obtain ⟨hd, hs⟩ := isIdentifier_cons.1 h
        have hmem : ∀ e ∈ c :: r, e ∈ d :: s := fun e he => List.mem_of_mem_take (ht ▸ he)
        have hc : c = d := by
          have := congrArg List.head? ht
          rw [List.head?_take] at this
          split at this
          · cases this
          · simpa using this.symm
        rw [hc]
        exact isIdentifier_cons.2 ⟨hd, fun e he => h.2 e (hmem e (List.mem_cons_of_mem c he))⟩
  · exact h

theorem continuesName_lowerRun {run : List Char} (h : ∀ c ∈ run, continuesName c = true) :
    ∀ c ∈ lowerRun run, continuesName c = true := by
  intro c hc
  rw [lowerRun, List.mem_append] at hc
  rcases hc with hc | hc
  · obtain ⟨d, hd, rfl⟩ := List.mem_map.1 hc
    exact toLower_of_continuesName (h d (List.dropLast_subset run hd))
  · exact h c (List.mem_of_getLast? (by simpa using hc))

theorem IsIdentifier.lowerLeading {s : List Char} (h : IsIdentifier s) :
    IsIdentifier (lowerLeading s) := by
  unfold Naming.lowerLeading
  simp only
  split
  · rename_i hcond
    have hrest : ∀ c ∈ s.dropWhile isCapital, continuesName c = true :=
      fun c hc => h.2 c (List.dropWhile_sublist _ |>.mem hc)
    refine IsIdentifier.append ?_ hrest
    have hcap : ∀ c ∈ s.takeWhile isCapital, isCapital c = true :=
      List.all_eq_true.1 List.all_takeWhile
    have hlen : 3 ≤ (s.takeWhile isCapital).length := by
      simp only [Bool.and_eq_true, decide_eq_true_eq] at hcond
      exact hcond.1
    generalize s.takeWhile isCapital = capitals at hcap hlen
    obtain ⟨c, d, r, rfl⟩ : ∃ c d r, capitals = c :: d :: r := by
      match capitals, hlen with
      | c :: d :: r, _ => exact ⟨c, d, r, rfl⟩
    have hrun := continuesName_lowerRun fun e he => continuesName_of_isCapital (hcap e he)
    have hshape : lowerRun (c :: d :: r) = c.toLower :: lowerRun (d :: r) := by
      simp [lowerRun]
    rw [hshape] at hrun ⊢
    exact isIdentifier_cons.2 ⟨toLower_of_startsName (startsName_of_isCapital
      (hcap c List.mem_cons_self)), (List.forall_mem_cons.1 hrun).2⟩
  · exact h

theorem continuesName_lowerInner {run s : List Char} (hr : ∀ c ∈ run, continuesName c = true)
    (hs : ∀ c ∈ s, continuesName c = true) : ∀ c ∈ lowerInner run s, continuesName c = true := by
  induction s generalizing run with
  | nil => exact hr
  | cons d r ih =>
    obtain ⟨hd, hrest⟩ := List.forall_mem_cons.1 hs
    have htail : ∀ c ∈ d :: lowerInner [] r, continuesName c = true :=
      List.forall_mem_cons.2 ⟨hd, ih (by simp) hrest⟩
    rw [lowerInner]
    split
    · refine ih ?_ hrest
      exact List.forall_mem_append.2 ⟨hr, by simpa using hd⟩
    · split
      · refine List.forall_mem_cons.2 ⟨by decide, ?_⟩
        exact List.forall_mem_append.2 ⟨continuesName_lowerRun hr, htail⟩
      · exact List.forall_mem_append.2 ⟨hr, htail⟩

theorem IsIdentifier.lowerInner {run s : List Char} (h : IsIdentifier (run ++ s)) :
    IsIdentifier (lowerInner run s) := by
  induction s generalizing run with
  | nil => rwa [List.append_nil] at h
  | cons d r ih =>
    obtain ⟨hrun, hs⟩ := List.forall_mem_append.1 h.2
    obtain ⟨hd, hrest⟩ := List.forall_mem_cons.1 hs
    have hinner : ∀ c ∈ Naming.lowerInner [] r, continuesName c = true :=
      continuesName_lowerInner (by simp) hrest
    rw [Naming.lowerInner]
    split
    · exact ih (by rwa [List.append_assoc, List.singleton_append])
    · split
      · refine isIdentifier_cons.2 ⟨by decide, ?_⟩
        exact List.forall_mem_append.2
          ⟨continuesName_lowerRun hrun, List.forall_mem_cons.2 ⟨hd, hinner⟩⟩
      · cases run with
        | nil => exact isIdentifier_cons.2 ⟨(isIdentifier_cons.1 h).1, hinner⟩
        | cons c run =>
          obtain ⟨hc, hcs⟩ := isIdentifier_cons.1 h
          refine isIdentifier_cons.2 ⟨hc, ?_⟩
          exact List.forall_mem_append.2
            ⟨(List.forall_mem_cons.1 hrun).2, List.forall_mem_cons.2 ⟨hd, hinner⟩⟩

theorem IsIdentifier.markCapitals {c : Char} {r : List Char} (h : IsIdentifier (c :: r)) :
    IsIdentifier (c :: markCapitals r) := by
  obtain ⟨hc, hr⟩ := isIdentifier_cons.1 h
  refine isIdentifier_cons.2 ⟨hc, ?_⟩
  intro d hd
  obtain ⟨e, he, hde⟩ := List.mem_flatMap.1 hd
  split at hde
  · simp only [List.mem_cons, List.not_mem_nil, or_false] at hde
    rcases hde with rfl | rfl
    · decide
    · exact hr d he
  · obtain rfl := List.mem_singleton.1 hde
    exact hr d he

theorem IsIdentifier.splitWords {s : List Char} (h : IsIdentifier s) :
    IsIdentifier (splitWords s) := by
  cases s with
  | nil => exact h
  | cons c r =>
    rw [Naming.splitWords]
    exact h.markCapitals.lower

theorem IsIdentifier.normalizeChars {s : List Char} (h : IsIdentifier s) :
    IsIdentifier (normalizeChars s) := by
  unfold Naming.normalizeChars
  split
  · exact h.lower
  · have hlead := h.fixAcronyms.lowerTrailing.lowerLeading
    exact IsIdentifier.splitWords (IsIdentifier.lowerInner (by rwa [List.nil_append]))

/-- An identifier becomes a name when the words that Lua keeps are escaped. -/
theorem isName_escapeReserved {s : String} (h : IsIdentifier s.toList) :
    isName (escapeReserved s) = true := by
  unfold escapeReserved
  split
  · rename_i hr
    have hall : (reservedWords.all fun k => isName (k ++ "_")) = true := by decide +kernel
    exact List.all_eq_true.1 hall s hr
  · rename_i hr
    unfold isName
    cases hs : s.toList with
    | nil => simp [hs, IsIdentifier] at h
    | cons c r =>
      rw [hs, isIdentifier_cons] at h
      have hk : keywords.contains s = false := by
        rw [← Bool.not_eq_true, List.contains_iff_mem]
        exact hr
      simp only [h.1, List.all_eq_true.2 h.2, hk]
      rfl

theorem isIdentifier_of_isName {s : String} (h : isName s = true) : IsIdentifier s.toList := by
  unfold isName at h
  cases hs : s.toList with
  | nil => simp [hs] at h
  | cons c r =>
    simp only [hs, Bool.and_eq_true, List.all_eq_true] at h
    exact isIdentifier_cons.2 h.1

theorem isName_functionName {op : String} (h : IsIdentifier op.toList) :
    isName (functionName op) = true := by
  refine isName_escapeReserved ?_
  rw [normalize, String.toList_ofList]
  exact h.normalizeChars

theorem isName_inputVar {name : String} (h : IsIdentifier name.toList) :
    isName (inputVar name) = true := by
  unfold inputVar
  split
  · decide
  · exact isName_escapeReserved h

theorem isName_attrVar {name : String} (h : IsIdentifier name.toList) :
    isName (attrVar name) = true := by
  unfold attrVar
  split
  · decide
  · exact isName_escapeReserved h

end OpStubs.Naming
