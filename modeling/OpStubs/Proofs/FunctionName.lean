import OpStubs.Proofs.Underscores

namespace OpStubs.Naming

/-- Whether a text has no capitals. -/
def IsSmall (s : List Char) : Prop := ∀ c ∈ s, isCapital c = false

instance (s : List Char) : Decidable (IsSmall s) :=
  decidable_of_iff (s.all fun c => !isCapital c) (by simp [IsSmall])

namespace IsSmall

variable {s t : List Char}

theorem append (hs : IsSmall s) (ht : IsSmall t) : IsSmall (s ++ t) :=
  List.forall_mem_append.2 ⟨hs, ht⟩

theorem map_toLower_eq (h : IsSmall s) : s.map Char.toLower = s := by
  have hall : ∀ c ∈ s, c.toLower = id c := fun c hc => toLower_of_not_isCapital (h c hc)
  rw [List.map_congr_left hall, List.map_id]

theorem takeWhile_eq (h : IsSmall s) : s.takeWhile isCapital = [] := by
  cases s with
  | nil => rfl
  | cons c r =>
    have hc := h c List.mem_cons_self
    exact List.takeWhile_cons_of_neg (by simp [hc])

/-- Each acronym has a capital. -/
theorem fixAcronyms_eq (h : IsSmall s) : fixAcronyms s = s := by
  have hcapital : ∀ a ∈ acronyms, a.1.toList.any isCapital = true := by decide
  apply fixAcronyms_of_free
  intro a ha hwithin
  obtain ⟨c, hc, hcapital⟩ := List.any_eq_true.1 (hcapital a ha)
  have hsmall := h c (hwithin.subset hc)
  rw [hcapital] at hsmall
  cases hsmall

theorem lowerTrailing_eq (h : IsSmall s) : lowerTrailing s = s :=
  lowerTrailing_of_not_isCapital fun c hc => h c (List.mem_of_getLast? hc)

theorem lowerLeading_eq (h : IsSmall s) : lowerLeading s = s := by
  rw [lowerLeading]
  simp only [h.takeWhile_eq]
  rfl

theorem lowerInner_eq (h : IsSmall s) : lowerInner [] s = s := by
  have hinner := lowerInner_no_capital h []
  rwa [List.append_nil, lowerInner, List.append_nil] at hinner

theorem markCapitals_eq (h : IsSmall s) : markCapitals s = s := by
  induction s with
  | nil => rfl
  | cons c r ih =>
    obtain ⟨hc, hr⟩ := List.forall_mem_cons.1 h
    have hrest := ih hr
    rw [markCapitals] at hrest
    rw [markCapitals, List.flatMap_cons, hrest, hc]
    rfl

end IsSmall

section
variable {s : List Char} (h : IsIdentifier s)
include h

theorem IsIdentifier.lower_eq : Text.lower s = s.map Char.toLower :=
  Text.lower_ascii s fun c hc => toNat_lt_of_continuesName (h.2 c hc)

theorem isSmall_lower : IsSmall (Text.lower s) := by
  intro c hc
  rw [h.lower_eq] at hc
  obtain ⟨d, -, rfl⟩ := List.mem_map.1 hc
  cases hd : isCapital d with
  | true => exact (toLower_of_isCapital hd).1
  | false => rwa [toLower_of_not_isCapital hd]

theorem isSmall_splitWords : IsSmall (splitWords s) := by
  cases s with
  | nil => exact nofun
  | cons c r =>
    rw [splitWords]
    exact isSmall_lower h.markCapitals

theorem isSmall_normalizeChars : IsSmall (normalizeChars s) := by
  unfold normalizeChars
  split
  · exact isSmall_lower h
  · have hlead := h.fixAcronyms.lowerTrailing.lowerLeading
    exact isSmall_splitWords (IsIdentifier.lowerInner (by rwa [List.nil_append]))

theorem splitWords_of_isSmall (hs : IsSmall s) : splitWords s = s := by
  cases s with
  | nil => rfl
  | cons c r =>
    have hr : IsSmall r := fun d hd => hs d (List.mem_cons_of_mem c hd)
    rw [splitWords, hr.markCapitals_eq, h.lower_eq, hs.map_toLower_eq]

/-- No pass alters a name without capitals. -/
theorem normalizeChars_of_isSmall (hs : IsSmall s) : normalizeChars s = s := by
  unfold normalizeChars
  split
  · rw [h.lower_eq, hs.map_toLower_eq]
  · rw [hs.fixAcronyms_eq, hs.lowerTrailing_eq, hs.lowerLeading_eq, hs.lowerInner_eq,
      splitWords_of_isSmall h hs]

end

theorem escapeReserved_not_mem (name : String) : escapeReserved name ∉ reservedWords := by
  unfold escapeReserved
  split
  · rename_i h
    have hall : ∀ word ∈ reservedWords, word ++ "_" ∉ reservedWords := by decide +kernel
    exact hall name h
  · assumption

theorem isIdentifier_escapeReserved {name : String} (h : IsIdentifier name.toList) :
    IsIdentifier (escapeReserved name).toList := by
  unfold escapeReserved
  split
  · rw [String.toList_append]
    exact h.append (List.all_eq_true.1 rfl)
  · exact h

theorem isSmall_escapeReserved {name : String} (h : IsSmall name.toList) :
    IsSmall (escapeReserved name).toList := by
  unfold escapeReserved
  split
  · rw [String.toList_append]
    exact h.append (by decide)
  · exact h

theorem functionName_of_isSmall {name : String} (h : IsIdentifier name.toList)
    (hs : IsSmall name.toList) (hr : name ∉ reservedWords) : functionName name = name := by
  rw [functionName, normalize, normalizeChars_of_isSmall h hs, String.ofList_toList, escapeReserved,
    if_neg hr]

/-- The function of an operation that has a name of Lua, which may be reserved, has one without
capitals that is not reserved. It stands for itself. -/
theorem functionName_stable {op : String} (h : IsIdentifier op.toList) :
    IsIdentifier (functionName op).toList ∧ (∀ c ∈ (functionName op).toList, ¬ c.isUpper) ∧
      functionName op ∉ reservedWords ∧ functionName (functionName op) = functionName op := by
  have hchars : (normalize op).toList = normalizeChars op.toList := String.toList_ofList
  have hname : IsIdentifier (functionName op).toList :=
    isIdentifier_escapeReserved (hchars ▸ h.normalizeChars)
  have hsmall : IsSmall (functionName op).toList :=
    isSmall_escapeReserved (hchars ▸ isSmall_normalizeChars h)
  have hfree : functionName op ∉ reservedWords := escapeReserved_not_mem (normalize op)
  refine ⟨hname, ?_, hfree, functionName_of_isSmall hname hsmall hfree⟩
  intro c hc
  rw [← isCapital_eq, hsmall c hc]
  decide

/-- A name that is reserved only in its normal form, and one of digits behind its first letter. -/
theorem functionName_stable_while :
    IsIdentifier "While".toList ∧ functionName "While" = "while_" ∧
      functionName "while_" = "while_" ∧
      IsIdentifier "V2_10".toList ∧ functionName "V2_10" = "v2_10" ∧
      functionName "v2_10" = "v2_10" := by
  have hword : IsIdentifier "While".toList := by decide
  have hdigits : IsIdentifier "V2_10".toList := by decide
  have hwhile : functionName "While" = "while_" := by decide +kernel
  have hv2 : functionName "V2_10" = "v2_10" := by decide +kernel
  have hwhile' := (functionName_stable hword).2.2.2
  have hv2' := (functionName_stable hdigits).2.2.2
  rw [hwhile] at hwhile'
  rw [hv2] at hv2'
  exact ⟨hword, hwhile, hwhile', hdigits, hv2, hv2'⟩

end OpStubs.Naming
