import Mathlib.Data.List.Basic
import Mathlib.Data.List.Induction
import OpStubs.Proofs.Stops
import OpStubs.Text.Blank
import OpStubs.Text.Lines

namespace OpStubs.Text

theorem mem_pieces {sep : Char} {s p : List Char} (h : p ∈ pieces sep s) :
    ∀ c ∈ p, c ∈ s ∧ c ≠ sep := by
  induction s generalizing p with
  | nil =>
    obtain rfl := List.mem_singleton.1 h
    simp
  | cons d r ih =>
    have hcons {c : Char} (hc : c ∈ r ∧ c ≠ sep) : c ∈ d :: r ∧ c ≠ sep :=
      ⟨List.mem_cons_of_mem d hc.1, hc.2⟩
    rw [pieces] at h
    split at h
    · rcases List.mem_cons.1 h with rfl | h
      · simp
      · exact fun c hc => hcons (ih h c hc)
    · rename_i hd
      cases hr : pieces sep r with
      | nil => exact absurd hr (pieces_ne_nil sep r)
      | cons q qs =>
        rw [hr] at ih h
        rcases List.mem_cons.1 h with rfl | h
        · intro c hc
          rcases List.mem_cons.1 hc with rfl | hc
          · exact ⟨List.mem_cons_self, hd⟩
          · exact hcons (ih List.mem_cons_self c hc)
        · exact fun c hc => hcons (ih (List.mem_cons_of_mem q h) c hc)

theorem pieces_of_not_mem {sep : Char} {s : List Char} (h : ∀ c ∈ s, c ≠ sep) :
    pieces sep s = [s] := by
  induction s with
  | nil => rfl
  | cons c r ih =>
    obtain ⟨hc, hr⟩ := List.forall_mem_cons.1 h
    rw [pieces, if_neg hc, ih hr]
    rfl

theorem pieces_append_cons (sep : Char) (s r : List Char) :
    pieces sep (s ++ sep :: r) = pieces sep s ++ pieces sep r := by
  induction s with
  | nil => simp [pieces]
  | cons c s ih =>
    rw [List.cons_append, pieces, pieces, ih]
    cases hs : pieces sep s with
    | nil => exact absurd hs (pieces_ne_nil sep s)
    | cons p ps =>
      split <;> rfl

theorem length_pieces (sep : Char) (s : List Char) :
    (pieces sep s).length = s.count sep + 1 := by
  induction s with
  | nil => rfl
  | cons c r ih =>
    rw [pieces]
    split
    · rename_i hc
      rw [hc, List.length_cons, ih, List.count_cons_self]
    · rename_i hc
      rw [List.count_cons_of_ne hc, ← ih]
      cases hr : pieces sep r with
      | nil => exact absurd hr (pieces_ne_nil sep r)
      | cons p ps => rfl

theorem head?_pieces (sep : Char) (s : List Char) :
    (pieces sep s).head? = some (s.takeWhile (· ≠ sep)) := by
  induction s with
  | nil => rfl
  | cons c r ih =>
    rw [pieces]
    split
    · rename_i hc
      simp [hc]
    · rename_i hc
      cases hr : pieces sep r with
      | nil => exact absurd hr (pieces_ne_nil sep r)
      | cons p ps =>
        rw [hr] at ih
        simp [consFirst, hc, Option.some.inj ih]

/-- The piece in which a text is divided: what is behind the last separator in front of the
division, and what is in front of the next one. -/
theorem getElem?_pieces (sep : Char) (front rest : List Char) :
    (pieces sep (front ++ rest))[front.count sep]? =
      some ((front.reverse.takeWhile (· ≠ sep)).reverse ++ rest.takeWhile (· ≠ sep)) := by
  induction front using List.reverseRecOn generalizing rest with
  | nil =>
    rw [List.count_nil, ← List.head?_eq_getElem?]
    exact head?_pieces sep rest
  | append_singleton front c ih =>
    by_cases hc : c = sep
    · subst hc
      have hcount : (front ++ [c]).count c = (pieces c front).length := by simp [length_pieces]
      rw [List.append_assoc, List.singleton_append, pieces_append_cons, hcount,
        List.getElem?_append_right (Nat.le_refl _), Nat.sub_self, ← List.head?_eq_getElem?,
        head?_pieces]
      simp
    · have h := ih (c :: rest)
      simpa [hc] using h

theorem length_dropReturn_le (s : List Char) : (dropReturn s).length ≤ s.length := by
  unfold dropReturn
  split <;> simp

/-- A line is no longer than the piece that it is. -/
theorem exists_piece_of_line {ps : List (List Char)} {i : Nat} {l : List Char}
    (h : (linesOfPieces ps)[i]? = some l) : ∃ p, ps[i]? = some p ∧ l.length ≤ p.length := by
  fun_induction linesOfPieces ps generalizing i with
  | case1 => cases h
  | case2 => cases h
  | case3 p => exact ⟨l, h, Nat.le_refl _⟩
  | case4 p ps _ ih =>
    cases i with
    | zero =>
      cases h
      exact ⟨p, rfl, length_dropReturn_le p⟩
    | succ i => exact ih h

/-- Texts that are joined are its pieces again. -/
theorem pieces_joinWith {sep : Char} {ls : List (List Char)} (hne : ls ≠ [])
    (h : ∀ l ∈ ls, sep ∉ l) : pieces sep (joinWith [sep] ls) = ls := by
  fun_induction joinWith [sep] ls with
  | case1 => exact absurd rfl hne
  | case2 l =>
    have hl := h l List.mem_cons_self
    exact pieces_of_not_mem fun c hc => ne_of_mem_of_not_mem hc hl
  | case3 l ls hls ih =>
    obtain ⟨hl, hrest⟩ := List.forall_mem_cons.1 h
    have hone : pieces sep l = [l] := pieces_of_not_mem fun c hc => ne_of_mem_of_not_mem hc hl
    have hne : ls ≠ [] := fun hnil => hls hnil
    rw [List.append_assoc, List.singleton_append, pieces_append_cons, hone, ih hne hrest]
    rfl

theorem mem_of_mem_pieces_joinWith {sep : Char} {ls : List (List Char)} (h : ∀ l ∈ ls, sep ∉ l)
    {p : List Char} (hp : p ∈ pieces sep (joinWith [sep] ls)) : p ∈ ls ∨ p = [] := by
  by_cases hne : ls = []
  · subst hne
    exact .inr (List.mem_singleton.1 hp)
  · rw [pieces_joinWith hne h] at hp
    exact .inl hp

theorem mem_joinWith {sep : List Char} {ps : List (List Char)} {c : Char}
    (h : c ∈ joinWith sep ps) : c ∈ sep ∨ ∃ p ∈ ps, c ∈ p := by
  fun_induction joinWith sep ps with
  | case1 => cases h
  | case2 p => exact .inr ⟨p, List.mem_singleton_self p, h⟩
  | case3 p ps _ ih =>
    rcases List.mem_append.1 h with h | h
    · rcases List.mem_append.1 h with h | h
      · exact .inr ⟨p, List.mem_cons_self, h⟩
      · exact .inl h
    · exact (ih h).imp_right fun ⟨q, hq, hc⟩ => ⟨q, List.mem_cons_of_mem p hq, hc⟩

theorem joinWith_eq (sep : List Char) (ps : List (List Char)) :
    joinWith sep ps = sep.intercalate ps := by
  induction ps with
  | nil => rfl
  | cons p ps ih =>
    cases ps with
    | nil => exact List.append_nil p |>.symm
    | cons q ps =>
      change p ++ sep ++ joinWith sep (q :: ps) = _
      rw [ih, List.intercalate_cons_cons, List.append_assoc]

theorem cut_append {sep : Char} {name : List Char} (h : sep ∉ name) (rest : List Char) :
    cut sep (name ++ sep :: rest) = some (name, rest) := by
  induction name with
  | nil => simp [cut]
  | cons c name ih =>
    rw [List.mem_cons, not_or] at h
    rw [List.cons_append, cut, if_neg (Ne.symm h.1), ih h.2]
    rfl

/-- A text is cut at its first separator. -/
theorem cut_eq_some_iff {sep : Char} {s before after : List Char} :
    cut sep s = some (before, after) ↔ s = before ++ sep :: after ∧ sep ∉ before := by
  constructor
  · intro h
    induction s generalizing before with
    | nil => cases h
    | cons c r ih =>
      rw [cut] at h
      split at h
      · rename_i hc
        cases h
        exact ⟨by rw [hc]; rfl, by simp⟩
      · rename_i hc
        obtain ⟨⟨b, a⟩, hr, heq⟩ := Option.map_eq_some_iff.1 h
        cases heq
        obtain ⟨hrest, hb⟩ := ih hr
        exact ⟨by rw [hrest]; rfl, by simp [Ne.symm hc, hb]⟩
  · rintro ⟨rfl, h⟩
    exact cut_append h after

theorem cut_subset {sep : Char} {s before after : List Char}
    (h : cut sep s = some (before, after)) : after ⊆ s := by
  rw [(cut_eq_some_iff.1 h).1]
  intro c hc
  simp [hc]

theorem trimStart_subset (s : List Char) : trimStart s ⊆ s := (List.dropWhile_sublist _).subset

theorem trimEnd_subset (s : List Char) : trimEnd s ⊆ s := by
  intro c hc
  rw [trimEnd, List.mem_reverse] at hc
  exact List.mem_reverse.1 ((List.dropWhile_sublist _).subset hc)

theorem trim_subset (s : List Char) : trim s ⊆ s :=
  fun _ hc => trimStart_subset s (trimEnd_subset _ hc)

theorem trimEnd_append (s t : List Char) :
    trimEnd (s ++ t) = if trimEnd t = [] then trimEnd s else s ++ trimEnd t := by
  simp only [trimEnd, List.reverse_append, List.dropWhile_append, List.reverse_eq_nil_iff,
    List.isEmpty_iff]
  split
  · rfl
  · rw [List.reverse_append, List.reverse_reverse]

theorem trim_subset_trimEnd (s : List Char) : trim s ⊆ trimEnd s := by
  intro c hc
  have hs : s.takeWhile isBlank ++ trimStart s = s := List.takeWhile_append_dropWhile
  rw [← hs, trimEnd_append]
  split
  · rename_i h
    rw [trim, h] at hc
    cases hc
  · exact List.mem_append_right _ hc

/-- Whether a text has no blanks at its ends. -/
structure IsTrimmed (s : List Char) : Prop where
  front : Stops isBlank s
  back : Stops isBlank s.reverse

theorem dropWhile_eq_self_of_stops {s : List Char} (h : Stops isBlank s) :
    s.dropWhile isBlank = s := by
  cases s with
  | nil => rfl
  | cons c r =>
    rw [stops_cons] at h
    rw [List.dropWhile_cons, h]
    simp

theorem stops_dropWhile (s : List Char) : Stops isBlank (s.dropWhile isBlank) := by
  induction s with
  | nil => exact stops_nil _
  | cons c r ih =>
    rw [List.dropWhile_cons]
    split
    · exact ih
    · rename_i hc
      rw [stops_cons]
      simpa using hc

/-- A text without blanks at its ends stays as it is. -/
theorem IsTrimmed.trim_eq {s : List Char} (h : IsTrimmed s) : trim s = s := by
  rw [trim, trimStart, dropWhile_eq_self_of_stops h.front, trimEnd,
    dropWhile_eq_self_of_stops h.back, List.reverse_reverse]

theorem isTrimmed_trim (s : List Char) : IsTrimmed (trim s) := by
  have hback : (trim s).reverse = (trimStart s).reverse.dropWhile isBlank := by
    rw [trim, trimEnd, List.reverse_reverse]
  constructor
  · have hprefix : trim s <+: trimStart s := by
      rw [← List.reverse_suffix, hback]
      exact List.dropWhile_suffix _
    obtain ⟨t, ht⟩ := hprefix
    cases h : trim s with
    | nil => exact stops_nil _
    | cons c r =>
      have hstart := stops_dropWhile s
      rw [h] at ht
      rw [← trimStart, ← ht, List.cons_append, stops_cons] at hstart
      exact stops_cons.2 hstart
  · rw [hback]
    exact stops_dropWhile _

theorem trim_trim (s : List Char) : trim (trim s) = trim s := (isTrimmed_trim s).trim_eq

/-- A text is trimmed where trimming leaves it as it is. -/
theorem isTrimmed_of_trim_eq {s : List Char} (h : trim s = s) : IsTrimmed s := h ▸ isTrimmed_trim s

section Indented
variable {blanks s : List Char} (hb : ∀ c ∈ blanks, isBlank c = true) (h : IsTrimmed s)
include hb

theorem dropWhile_blanks : (blanks ++ s).dropWhile isBlank = s.dropWhile isBlank := by
  induction blanks with
  | nil => rfl
  | cons c r ih =>
    obtain ⟨hc, hr⟩ := List.forall_mem_cons.1 hb
    rw [List.cons_append, List.dropWhile_cons, if_pos hc, ih hr]

theorem trim_indented : trim (blanks ++ s) = trim s := by
  rw [trim, trim, trimStart, trimStart, dropWhile_blanks hb]

include h

/-- The blanks in front of a text are its indentation. -/
theorem indent_indented : indent (blanks ++ s) = blanks.length := by
  rw [indent, takeWhile_append_of_stops hb h.front]

end Indented

end OpStubs.Text
