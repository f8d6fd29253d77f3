import OpStubs.Proofs.WordSplitting

namespace OpStubs.Naming

/-- Whether a text is another one with underscores put in. -/
inductive Underscored : List Char → List Char → Prop
  | nil : Underscored [] []
  | keep (c : Char) {s t : List Char} (h : Underscored s t) : Underscored (c :: s) (c :: t)
  | put {s t : List Char} (h : Underscored s t) : Underscored s ('_' :: t)

namespace Underscored

variable {s t u : List Char}

theorem refl (s : List Char) : Underscored s s := by
  induction s with
  | nil => exact .nil
  | cons c s ih => exact .keep c ih

theorem append {s' t' : List Char} (h : Underscored s t) (h' : Underscored s' t') :
    Underscored (s ++ s') (t ++ t') := by
  induction h with
  | nil => exact h'
  | keep c _ ih => exact .keep c ih
  | put _ ih => exact .put ih

theorem trans (h : Underscored s t) (h' : Underscored t u) : Underscored s u := by
  induction h' generalizing s with
  | nil => exact h
  | keep c h' ih =>
    cases h with
    | keep _ h => exact .keep c (ih h)
    | put h => exact .put (ih h)
  | put h' ih => exact .put (ih h)

theorem mem (h : Underscored s t) : ∀ c ∈ t, c ∈ s ∨ c = '_' := by
  induction h with
  | nil => exact nofun
  | keep c _ ih =>
    refine List.forall_mem_cons.2 ⟨.inl List.mem_cons_self, fun d hd => ?_⟩
    exact (ih d hd).imp_left (List.mem_cons_of_mem c)
  | put _ ih => exact List.forall_mem_cons.2 ⟨.inr rfl, ih⟩

end Underscored

theorem toLower_of_not_isCapital {c : Char} (h : isCapital c = false) : c.toLower = c := by
  rw [isCapital_eq] at h
  have hrange : ¬(c.val ≥ 'A'.val ∧ c.val ≤ 'Z'.val) := of_decide_eq_false h
  exact dif_neg hrange

theorem toLower_toLower (c : Char) : c.toLower.toLower = c.toLower := by
  cases h : isCapital c with
  | true => exact (toLower_of_isCapital h).2
  | false => rw [toLower_of_not_isCapital h, toLower_of_not_isCapital h]

theorem toNat_toLower_lt_iff {c : Char} : c.toLower.toNat < 128 ↔ c.toNat < 128 := by
  cases hc : isCapital c with
  | true =>
    have hascii := toNat_lt_of_continuesName (continuesName_of_isCapital hc)
    have hlower := ascii_induction (p := fun c => c.toLower.toNat < 128) (by decide) hascii
    exact iff_of_true (by simpa using hlower) hascii
  | false => rw [toLower_of_not_isCapital hc]

theorem map_toLower_map_toLower (s : List Char) :
    (s.map Char.toLower).map Char.toLower = s.map Char.toLower := by
  rw [List.map_map]
  exact List.map_congr_left fun c _ => toLower_toLower c

/-- Whether a text is another one with some letters in another case and with underscores put in. -/
def Respells (s t : List Char) : Prop := Underscored (s.map Char.toLower) (t.map Char.toLower)

namespace Respells

variable {s t u : List Char}

theorem refl (s : List Char) : Respells s s := Underscored.refl _

/-- A text in which only the case differs. -/
theorem of_lowered (h : t.map Char.toLower = s.map Char.toLower) : Respells s t := by
  rw [Respells, h]
  exact .refl _

theorem lowered (s : List Char) : Respells s (s.map Char.toLower) :=
  of_lowered (map_toLower_map_toLower s)

theorem put (h : Respells s t) : Respells s ('_' :: t) := Underscored.put h

theorem append {s' t' : List Char} (h : Respells s t) (h' : Respells s' t') :
    Respells (s ++ s') (t ++ t') := by
  rw [Respells, List.map_append, List.map_append]
  exact Underscored.append h h'

theorem trans (h : Respells s t) (h' : Respells t u) : Respells s u := Underscored.trans h h'

/-- No character beyond ASCII is put in. -/
theorem toNat_lt (h : Respells s t) (hs : ∀ c ∈ s, c.toNat < 128) : ∀ c ∈ t, c.toNat < 128 := by
  intro c hc
  rw [← toNat_toLower_lt_iff]
  rcases Underscored.mem h _ (List.mem_map_of_mem hc) with hmem | hmem
  · obtain ⟨d, hd, heq⟩ := List.mem_map.1 hmem
    rw [← heq, toNat_toLower_lt_iff]
    exact hs d hd
  · rw [hmem]
    decide

end Respells

/-- Past the characters to be skipped, a text is kept where an acronym is spelled in another case. -/
theorem lowered_replaceFrom {old new : List Char} (hold : old ≠ [])
    (hcase : new.map Char.toLower = old.map Char.toLower) (skip : Nat) (s : List Char) :
    (replaceFrom old new skip s).map Char.toLower = (s.drop skip).map Char.toLower := by
  induction s generalizing skip with
  | nil => simp [replaceFrom]
  | cons c r ih =>
    cases skip with
    | succ k => exact ih k
    | zero =>
      rw [replaceFrom]
      split
      · rename_i hprefix
        obtain ⟨rest, hrest⟩ := List.isPrefixOf_iff_prefix.1 hprefix
        obtain ⟨d, more, rfl⟩ := List.exists_cons_of_ne_nil hold
        obtain ⟨rfl, rfl⟩ := List.cons.inj hrest
        rw [List.map_append, ih, hcase, ← List.map_append]
        simp
      · rw [List.map_cons, ih]
        rfl

theorem respells_fixAcronyms (s : List Char) : Respells s (fixAcronyms s) := by
  have htable : ∀ a ∈ acronyms, a.1.toList ≠ [] ∧
      a.2.toList.map Char.toLower = a.1.toList.map Char.toLower := by decide
  unfold fixAcronyms
  generalize acronyms = as at htable
  induction as generalizing s with
  | nil => exact .refl s
  | cons a as ih =>
    obtain ⟨⟨hold, hcase⟩, has⟩ := List.forall_mem_cons.1 htable
    exact (Respells.of_lowered (lowered_replaceFrom hold hcase 0 s)).trans (ih _ has)

theorem lowered_lowerRun (run : List Char) :
    (lowerRun run).map Char.toLower = run.map Char.toLower := by
  rcases List.eq_nil_or_concat run with rfl | ⟨front, c, rfl⟩
  · rfl
  · rw [List.concat_eq_append, lowerRun_concat, List.map_append, map_toLower_map_toLower,
      List.map_append]

theorem respells_lowerTrailing (s : List Char) : Respells s (lowerTrailing s) := by
  unfold lowerTrailing
  simp only
  split
  · generalize hk : (s.reverse.takeWhile isCapital).reverse = capitals
    have hsuffix : capitals <:+ s := by
      rw [← hk, ← List.reverse_prefix, List.reverse_reverse]
      exact List.takeWhile_prefix isCapital
    obtain ⟨front, rfl⟩ := hsuffix
    rw [List.length_append, Nat.add_sub_cancel, List.take_left]
    exact (Respells.refl front).append (Respells.lowered capitals).put
  · exact .refl s

theorem respells_lowerLeading (s : List Char) : Respells s (lowerLeading s) := by
  unfold lowerLeading
  simp only
  split
  · have hrun := (Respells.of_lowered (lowered_lowerRun (s.takeWhile isCapital))).append
      (.refl (s.dropWhile isCapital))
    rwa [List.takeWhile_append_dropWhile] at hrun
  · exact .refl s

/-- The run that was read and the text behind it are kept together. -/
theorem respells_lowerInner (run s : List Char) : Respells (run ++ s) (lowerInner run s) := by
  induction s generalizing run with
  | nil =>
    rw [List.append_nil]
    exact .refl run
  | cons c r ih =>
    have hrest : Respells (c :: r) (c :: lowerInner [] r) := (Respells.refl [c]).append (ih [])
    rw [lowerInner]
    split
    · rw [List.append_cons]
      exact ih (run ++ [c])
    · split
      · exact ((Respells.of_lowered (lowered_lowerRun run)).append hrest).put
      · exact (Respells.refl run).append hrest

theorem respells_markCapitals (s : List Char) : Respells s (markCapitals s) := by
  induction s with
  | nil => exact .refl []
  | cons c s ih =>
    have hrest : Respells (c :: s) (c :: markCapitals s) := (Respells.refl [c]).append ih
    rw [markCapitals, List.flatMap_cons]
    split
    · exact hrest.put
    · exact hrest

theorem underscored_splitWords {s : List Char} (h : ∀ c ∈ s, c.toNat < 128) :
    Underscored (s.map Char.toLower) (splitWords s) := by
  cases s with
  | nil => exact .nil
  | cons c r =>
    have hmarked : Respells (c :: r) (c :: markCapitals r) :=
      (Respells.refl [c]).append (respells_markCapitals r)
    rw [splitWords, Text.lower_ascii _ (hmarked.toNat_lt h)]
    exact hmarked

/-- A name keeps its characters in their order: what it becomes is the name in lower case with
underscores put in. -/
theorem underscored_normalize {name : String} (h : ∀ c ∈ name.toList, c.toNat < 128) :
    Underscored (name.toList.map Char.toLower) (normalize name).toList := by
  rw [normalize, String.toList_ofList, normalizeChars]
  split
  · rw [Text.lower_ascii _ h]
    exact .refl _
  · have hfixed := respells_fixAcronyms name.toList
    have htrailing := hfixed.trans (respells_lowerTrailing _)
    have hleading := htrailing.trans (respells_lowerLeading _)
    have hinner := respells_lowerInner [] (lowerLeading (lowerTrailing (fixAcronyms name.toList)))
    rw [List.nil_append] at hinner
    have hpasses := hleading.trans hinner
    exact Underscored.trans hpasses (underscored_splitWords (hpasses.toNat_lt h))

/-- A name on which the table and every pass have something to do. -/
theorem underscored_normalize_allPasses :
    (∀ c ∈ "XYZGoRGBTo-FFT2D_HSV".toList, c.toNat < 128) ∧
      normalize "XYZGoRGBTo-FFT2D_HSV" = "xyz_go_rgb_to-_fft2d__hsv" ∧
      Underscored "xyzgorgbto-fft2d_hsv".toList "xyz_go_rgb_to-_fft2d__hsv".toList := by
  have hascii : ∀ c ∈ "XYZGoRGBTo-FFT2D_HSV".toList, c.toNat < 128 := by simp
  have hresult : normalize "XYZGoRGBTo-FFT2D_HSV" = "xyz_go_rgb_to-_fft2d__hsv" := by
    decide +kernel
  have hkept := underscored_normalize hascii
  rw [hresult] at hkept
  exact ⟨hascii, hresult, hkept⟩

end OpStubs.Naming
