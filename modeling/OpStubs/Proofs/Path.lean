import OpStubs.Path
import OpStubs.Proofs.TextParts

namespace OpStubs

/-- Whether a name can stand in a path and leads to what has it. -/
structure Path.IsPlain (name : String) : Prop where
  noSlash : ∀ c ∈ name.toList, c ≠ '/'
  notIdle : isIdle name.toList = false
  notUp : name.toList ≠ ['.', '.']

namespace Path.IsPlain

variable {name : String}

instance : Decidable (IsPlain name) :=
  decidable_of_iff (name.toList.all (· != '/') = true ∧ isIdle name.toList = false ∧
    name.toList ≠ ['.', '.'])
    ⟨fun ⟨noSlash, notIdle, notUp⟩ =>
        ⟨fun c hc => by simpa using List.all_eq_true.1 noSlash c hc, notIdle, notUp⟩,
      fun h => ⟨List.all_eq_true.2 fun c hc => by simpa using h.noSlash c hc, h.notIdle, h.notUp⟩⟩

theorem not_isAbsolute (h : IsPlain name) : isAbsolute name = false := by
  rw [isAbsolute]
  cases hname : name.toList with
  | nil => rfl
  | cons c r =>
    have hc : c ≠ '/' := h.noSlash c (by simp [hname])
    simpa using hc

/-- The last segment of a path into a folder is the name there. -/
theorem segments_join (h : IsPlain name) {path : String} (hpath : path ≠ "") :
    segments (join path name) = segments path ++ [name.toList] ∨
      ∃ outer, segments path = outer ++ [[]] ∧
        segments (join path name) = outer ++ [name.toList] := by
  have hname : Text.pieces '/' name.toList = [name.toList] := Text.pieces_of_not_mem h.noSlash
  rw [join, if_neg (by simp [h.not_isAbsolute, hpath])]
  split
  · rename_i hslash
    right
    have hlast : path.toList = path.toList.dropLast ++ ['/'] :=
      (List.dropLast_append_getLast? '/' hslash).symm
    refine ⟨Text.pieces '/' path.toList.dropLast, ?_, ?_⟩
    · rw [segments, hlast, Text.pieces_append_cons, List.dropLast_concat]
      rfl
    · rw [segments, String.toList_append, hlast, List.append_assoc, List.singleton_append,
        Text.pieces_append_cons, hname, List.dropLast_concat]
  · left
    rw [segments, String.toList_append, String.toList_append, List.append_assoc]
    change Text.pieces '/' (path.toList ++ '/' :: name.toList) = _
    rw [Text.pieces_append_cons, hname]
    rfl

/-- A path into a folder starts with the path of the folder. -/
theorem join_eq (h : IsPlain name) {path : String} (hpath : path ≠ "") :
    ∃ rest, join path name = path ++ rest := by
  rw [join, if_neg (by simp [h.not_isAbsolute, hpath])]
  split
  · exact ⟨name, rfl⟩
  · exact ⟨"/" ++ name, String.append_assoc⟩

end Path.IsPlain

end OpStubs
