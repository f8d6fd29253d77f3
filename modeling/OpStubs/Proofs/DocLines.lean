import Mathlib.Data.List.Induction
import OpStubs.Documentation
import OpStubs.Proofs.Dictionary
import OpStubs.Proofs.Lua.PrintSafe
import OpStubs.Proofs.TextParts

namespace OpStubs

open Lua (IsClean)

theorem Lua.IsClean.subset {s t : List Char} (h : IsClean s) (ht : t ⊆ s) : IsClean t :=
  fun c hc => h c (ht hc)

theorem Text.isClean_of_mem_pieces {s p : List Char} (hs : ∀ c ∈ s, c ≠ '\r')
    (h : p ∈ Text.pieces '\n' s) : IsClean p := by
  intro c hc
  obtain ⟨hm, hn⟩ := Text.mem_pieces h c hc
  simp [Lua.Token.endsLine, hn, hs c hm]

namespace Documentation

/-- Whether each body line that was read has a property, and no other one has a line end inside. -/
structure Draft.Clean (p : List Char → Prop) (d : Draft) : Prop where
  body : ∀ l ∈ d.body, p l
  entries : ∀ e ∈ d.entries, ∀ f ∈ e.fragments, IsClean f
  returns : ∀ l ∈ d.returns, IsClean l

/-- Whether a property of lines is kept, and leaves no line end, where their blanks are dropped. -/
structure Trims (p : List Char → Prop) : Prop where
  trim : ∀ l, p l → p (Text.trim l)
  isClean : ∀ l, p l → IsClean (Text.trim l)

theorem trims_isClean : Trims IsClean where
  trim _ h := h.subset (Text.trim_subset _)
  isClean _ h := h.subset (Text.trim_subset _)

theorem isClean_trim {s : List Char} (h : IsClean s) : IsClean (Text.trim s) :=
  trims_isClean.isClean s h

theorem isClean_fragments {line : List Char} (h : IsClean (Text.trim line)) {e : Entry}
    (he : entry? line = some e) : ∀ f ∈ e.fragments, IsClean f := by
  unfold entry? at he
  split at he
  · obtain ⟨⟨name, rest⟩, hcut, heq⟩ := Option.map_eq_some_iff.1 he
    cases heq
    have hrest : IsClean rest := h.subset (Text.cut_subset hcut)
    intro f hf
    change f ∈ fragment rest at hf
    rw [fragment] at hf
    split at hf
    · simp at hf
    · obtain rfl := List.mem_singleton.1 hf
      exact isClean_trim hrest
  · cases he

theorem forall_mem_append_singleton {p : List Char → Prop} {ls : List (List Char)} {l : List Char}
    (h : ∀ x ∈ ls, p x) (hl : p l) : ∀ x ∈ ls ++ [l], p x :=
  List.forall_mem_append.2 ⟨h, by simpa using hl⟩

namespace Draft.Clean

variable {p : List Char → Prop} {d : Draft} {line : List Char}

theorem addToArgs (hp : Trims p) (h : d.Clean p) (hl : p line) : (d.addToArgs line).Clean p := by
  have hclean := hp.isClean line hl
  unfold Draft.addToArgs
  cases he : entry? line with
  | some e =>
    have hfragments := isClean_fragments hclean he
    exact ⟨h.body, List.forall_mem_cons.2 ⟨hfragments, h.entries⟩, h.returns⟩
  | none =>
    cases hd : d.entries with
    | nil =>
      have hbody := forall_mem_append_singleton h.body (hp.trim line hl)
      exact ⟨hbody, by simp, h.returns⟩
    | cons e rest =>
      obtain ⟨hfirst, hrest⟩ := List.forall_mem_cons.1 (hd ▸ h.entries)
      have hfragments := forall_mem_append_singleton hfirst hclean
      exact ⟨h.body, List.forall_mem_cons.2 ⟨hfragments, hrest⟩, h.returns⟩

theorem addLine (hp : Trims p) (h : d.Clean p) (hl : p line) : (d.addLine line).Clean p := by
  unfold Draft.addLine
  split
  · exact ⟨forall_mem_append_singleton h.body hl, h.entries, h.returns⟩
  · split
    · exact h
    · exact h.addToArgs hp hl
  · split
    · exact h
    · have hreturns := forall_mem_append_singleton h.returns (hp.isClean line hl)
      exact ⟨h.body, h.entries, hreturns⟩

theorem add (hp : Trims p) (h : d.Clean p) (hl : p line) : (d.add line).Clean p := by
  unfold Draft.add
  split
  · exact ⟨h.body, h.entries, h.returns⟩
  · exact h.addLine hp hl

theorem foldl {lines : List (List Char)} (hp : Trims p) (h : d.Clean p) (hl : ∀ l ∈ lines, p l) :
    (lines.foldl Draft.add d).Clean p := by
  induction lines generalizing d with
  | nil => exact h
  | cons l lines ih =>
    obtain ⟨hfirst, hrest⟩ := List.forall_mem_cons.1 hl
    exact ih (h.add hp hfirst) hrest

end Draft.Clean

theorem Draft.clean_nil (p : List Char → Prop) : Draft.Clean p {} := ⟨by simp, by simp, by simp⟩

/-- Whether each description is one line and the body has no carriage return. -/
structure HasLines (d : Documentation) : Prop where
  body : ∀ c ∈ d.body.toList, c ≠ '\r'
  arg : ∀ name text, d.arg name = some text → Lua.IsLine text
  returns : Lua.IsLine d.returns

theorem isLine_joinWith {ls : List (List Char)} (h : ∀ l ∈ ls, IsClean l) :
    Lua.IsLine (String.ofList (Text.joinWith [' '] ls)) := by
  intro c hc
  rw [String.toList_ofList] at hc
  rcases Text.mem_joinWith hc with hc | ⟨l, hl, hc⟩
  · obtain rfl := List.mem_singleton.1 hc
    rfl
  · exact h l hl c hc

theorem Draft.Clean.arg_finish {p : List Char → Prop} {d : Draft} (h : d.Clean p)
    {name text : String} (harg : d.finish.arg name = some text) : Lua.IsLine text := by
  obtain ⟨s, hs, hif⟩ := Option.bind_eq_some_iff.1 harg
  split at hif
  · cases hif
  · cases hif
    obtain ⟨e, he, heq⟩ := List.mem_map.1 (Dictionary.mem_of_find?_ofList hs)
    cases heq
    exact isLine_joinWith (h.entries e (List.mem_reverse.1 he))

theorem Draft.Clean.finish {d : Draft} (h : d.Clean IsClean) : d.finish.HasLines where
  body := by
    intro c hc
    rw [Draft.finish, String.toList_ofList] at hc
    rcases Text.mem_joinWith hc with hc | ⟨l, hl, hc⟩
    · obtain rfl := List.mem_singleton.1 hc
      decide
    · rintro rfl
      exact absurd (h.body l hl _ hc) (by decide)
  arg _ _ := h.arg_finish
  returns := isLine_joinWith h.returns

/-- Text without carriage returns documents everything on lines of its own. -/
theorem hasLines_ofText {text : Option String} (h : ∀ s ∈ text, ∀ c ∈ s.toList, c ≠ '\r') :
    (ofText? text).HasLines := by
  cases text with
  | none => exact ⟨by simp [ofText?], (by intro name text h; cases h), by decide⟩
  | some s =>
    have hclean := Draft.clean_nil IsClean
    exact (hclean.foldl trims_isClean fun l hl => Text.isClean_of_mem_pieces (h s rfl) hl).finish

end Documentation

end OpStubs
