import Mathlib.Data.List.Forall2
import OpStubs.Proofs.Segmentation

namespace OpStubs.Documentation

/-- Whether a line is a text behind blanks, as many as allowed. -/
def Indented (allowed : Nat → Prop) (text line : List Char) : Prop :=
  ∃ blanks, line = blanks ++ text ∧ blanks.all Text.isBlank = true ∧ allowed blanks.length

/-- Whether a line is a text with so few blanks in front that it may open a part or an entry. -/
abbrev Shallow : List Char → List Char → Prop := Indented (· ≤ shallowIndent)

/-- Whether a line is a text with more blanks in front. -/
abbrev Deep : List Char → List Char → Prop := Indented (shallowIndent < ·)

/-- Whether a text opens a part where it stands alone on a line. -/
def IsMarker (text : List Char) : Prop := text = "Args:".toList ∨ text = "Returns:".toList

instance : DecidablePred IsMarker := fun text => inferInstanceAs (Decidable (text = _ ∨ text = _))

/-- Whether a text has no blanks around it and is not empty. -/
def IsFragment (text : List Char) : Prop := Text.trim text = text ∧ text ≠ []

instance : DecidablePred IsFragment := fun _ => inferInstanceAs (Decidable (_ ∧ _))

/-- An entry that can be laid out. -/
structure Item extends Entry where
  trimmed : Text.trim name = name
  noColon : ':' ∉ name
  isFragment : ∀ text ∈ fragments, IsFragment text

/-- Whether lines are those of an item: its name with a colon and its first fragment or none, then
the fragments that remain. -/
inductive Item.LaidOut (item : Item) : List (List Char) → Prop where
  | named {line : List Char} {more : List (List Char)} (hline : Shallow (item.name ++ [':']) line)
      (hmarker : ¬ IsMarker (item.name ++ [':'])) (hmore : List.Forall₂ Deep item.fragments more) :
      item.LaidOut (line :: more)
  | begun {line first : List Char} {rest more : List (List Char)}
      (hfragments : item.fragments = first :: rest)
      (hline : Shallow (item.name ++ ':' :: ' ' :: first) line)
      (hmore : List.Forall₂ Deep rest more) : item.LaidOut (line :: more)

/-- Whether lines are a text in its parts. Blank lines may stand anywhere behind the first marker. -/
inductive LaidOut (body : List (List Char)) (items : List Item) (returned : List (List Char)) :
    List (List Char) → Prop where
  | parts {argsLine returnsLine : List Char} {tail returnLines : List (List Char)}
      {groups : List (List (List Char))} (hbody : ∀ line ∈ body, marker? line = none)
      (hargs : Shallow "Args:".toList argsLine)
      (htail : tail.filter (fun line => Text.trim line ≠ []) =
        groups.flatten ++ returnsLine :: returnLines)
      (hitems : List.Forall₂ Item.LaidOut items groups)
      (hreturns : Shallow "Returns:".toList returnsLine)
      (hreturned : ∀ text ∈ returned, IsFragment text ∧ ¬ IsMarker text)
      (hlines : List.Forall₂ (Indented fun _ => True) returned returnLines) :
      LaidOut body items returned (body ++ argsLine :: tail)

section Line
variable {allowed : Nat → Prop} {text line : List Char}

theorem Indented.trim_eq (h : Indented allowed text line) (ht : Text.IsTrimmed text) :
    Text.trim line = text := by
  obtain ⟨blanks, rfl, hblanks, -⟩ := h
  rw [Text.trim_indented (List.all_eq_true.1 hblanks), ht.trim_eq]

theorem Indented.allowed_indent (h : Indented allowed text line) (ht : Text.IsTrimmed text) :
    allowed (Text.indent line) := by
  obtain ⟨blanks, rfl, hblanks, hlength⟩ := h
  rwa [Text.indent_indented (List.all_eq_true.1 hblanks) ht]

theorem marker?_eq_none (h : ¬ IsMarker (Text.trim line)) : marker? line = none := by
  rw [IsMarker, not_or] at h
  unfold marker?
  rw [if_neg h.1, if_neg h.2]
  split <;> rfl

theorem marker?_deep (h : shallowIndent < Text.indent line) : marker? line = none := by
  unfold marker?
  rw [if_neg (Nat.not_le_of_gt h)]

theorem entry?_deep (h : shallowIndent < Text.indent line) : entry? line = none := by
  unfold entry?
  rw [if_neg (Nat.not_le_of_gt h)]

theorem not_isMarker_nil : ¬ IsMarker [] := by decide

theorem marker?_ne_body {part : Part} (h : marker? line = some part) : part ≠ .body := by
  rintro rfl
  unfold marker? at h
  split at h
  · split at h
    · cases h
    · split at h <;> cases h
  · cases h

theorem marker?_args (h : Shallow "Args:".toList line) : marker? line = some .args := by
  have ht : Text.IsTrimmed "Args:".toList := Text.isTrimmed_of_trim_eq (by decide)
  unfold marker?
  rw [if_pos (h.allowed_indent ht), h.trim_eq ht, if_pos rfl]

theorem marker?_returns (h : Shallow "Returns:".toList line) : marker? line = some .returns := by
  have ht : Text.IsTrimmed "Returns:".toList := Text.isTrimmed_of_trim_eq (by decide)
  unfold marker?
  rw [if_pos (h.allowed_indent ht), h.trim_eq ht, if_neg (by decide), if_pos rfl]

theorem IsFragment.isTrimmed (h : IsFragment text) : Text.IsTrimmed text :=
  Text.isTrimmed_of_trim_eq h.1

/-- A name with a colon and a description has no blanks around it. -/
theorem isTrimmed_entry {name rest : List Char} (hname : Text.IsTrimmed name)
    (hrest : Stops Text.isBlank rest.reverse) : Text.IsTrimmed (name ++ ':' :: rest) where
  front := by
    cases name with
    | nil => exact stops_cons.2 rfl
    | cons c r => exact stops_cons.2 (stops_cons.1 hname.front)
  back := by
    rw [List.reverse_append, List.reverse_cons, List.append_assoc]
    cases hr : rest.reverse with
    | nil => exact stops_cons.2 rfl
    | cons c r =>
      rw [hr] at hrest
      exact stops_cons.2 (stops_cons.1 hrest)

/-- No marker has a blank in it. -/
theorem not_isMarker_blank {name : List Char} : ¬ IsMarker (name ++ ':' :: ' ' :: text) := by
  have hblank : ' ' ∈ name ++ ':' :: ' ' :: text := by simp
  intro h
  rcases h with h | h
  · rw [h] at hblank
    exact absurd hblank (by decide)
  · rw [h] at hblank
    exact absurd hblank (by decide)

theorem IsFragment.stops_behind (h : IsFragment text) :
    Stops Text.isBlank (' ' :: text).reverse := by
  have hback := h.isTrimmed.back
  rw [List.reverse_cons]
  cases hr : text.reverse with
  | nil => exact absurd (List.reverse_eq_nil_iff.1 hr) h.2
  | cons c r =>
    rw [hr] at hback
    exact stops_cons.2 (stops_cons.1 hback)

theorem IsFragment.fragment_eq (h : IsFragment text) : fragment (' ' :: text) = [text] := by
  have htrim : Text.trim ([' '] ++ text) = text := by
    rw [Text.trim_indented (List.all_eq_true.1 rfl), h.1]
  rw [List.singleton_append] at htrim
  rw [fragment, htrim, if_neg h.2]

end Line

namespace Draft

variable {d : Draft} {line : List Char} {body returned : List (List Char)} {e : Entry}
  {es : List Entry}

theorem add_of_marker {part : Part} (h : marker? line = some part) :
    d.add line = { d with part } := by
  rw [Draft.add, h]

theorem add_of_no_marker (h : marker? line = none) : d.add line = d.addLine line := by
  rw [Draft.add, h]

/-- Behind the first marker a blank line is passed over. -/
theorem add_blank (hd : d.part ≠ .body) (h : Text.trim line = []) : d.add line = d := by
  rw [add_of_no_marker (marker?_eq_none (h ▸ not_isMarker_nil))]
  unfold Draft.addLine
  split
  · rename_i hpart
    exact absurd hpart hd
  · rw [if_pos h]
  · rw [if_pos h]

theorem addLine_args (h : Text.trim line ≠ []) : addLine ⟨.args, body, es, returned⟩ line =
    addToArgs ⟨.args, body, es, returned⟩ line := if_neg h

theorem addLine_returns (h : Text.trim line ≠ []) : addLine ⟨.returns, body, es, returned⟩ line =
    ⟨.returns, body, es, returned ++ [Text.trim line]⟩ := if_neg h

theorem addToArgs_entry (h : entry? line = some e) :
    addToArgs ⟨.args, body, es, returned⟩ line = ⟨.args, body, e :: es, returned⟩ := by
  rw [addToArgs, h]

theorem addToArgs_more (h : entry? line = none) :
    addToArgs ⟨.args, body, e :: es, returned⟩ line =
      ⟨.args, body, ⟨e.name, e.fragments ++ [Text.trim line]⟩ :: es, returned⟩ := by
  rw [addToArgs, h]

theorem part_addToArgs : (d.addToArgs line).part = d.part := by
  unfold addToArgs
  split
  · rfl
  · split <;> rfl

theorem part_addLine : (d.addLine line).part = d.part := by
  unfold addLine
  split
  · rfl
  · split
    · rfl
    · exact part_addToArgs
  · split <;> rfl

/-- No marker leads back to the body. -/
theorem part_add_ne_body (hd : d.part ≠ .body) : (d.add line).part ≠ .body := by
  cases hm : marker? line with
  | none =>
    rw [add_of_no_marker hm, part_addLine]
    exact hd
  | some part =>
    rw [add_of_marker hm]
    exact marker?_ne_body hm

theorem foldl_add_filter (hd : d.part ≠ .body) (lines : List (List Char)) :
    lines.foldl Draft.add d =
      (lines.filter fun line => Text.trim line ≠ []).foldl Draft.add d := by
  induction lines generalizing d with
  | nil => rfl
  | cons line lines ih =>
    by_cases h : Text.trim line = []
    · rw [List.foldl_cons, add_blank hd h, List.filter_cons_of_neg (by simpa using h), ih hd]
    · rw [List.filter_cons_of_pos (by simpa using h), List.foldl_cons, List.foldl_cons,
        ih (part_add_ne_body hd)]

theorem foldl_add_body {lines : List (List Char)} (h : ∀ line ∈ lines, marker? line = none) :
    lines.foldl Draft.add ⟨.body, body, es, returned⟩ = ⟨.body, body ++ lines, es, returned⟩ := by
  induction lines generalizing body with
  | nil => simp
  | cons line lines ih =>
    obtain ⟨hline, hlines⟩ := List.forall_mem_cons.1 h
    rw [List.foldl_cons, add_of_no_marker hline, addLine, ih hlines, List.append_assoc,
      List.singleton_append]

/-- A line that starts an entry. -/
theorem add_entry {name rest : List Char} (hname : Text.IsTrimmed name) (hcolon : ':' ∉ name)
    (hrest : Stops Text.isBlank rest.reverse) (hline : Shallow (name ++ ':' :: rest) line)
    (hmarker : ¬ IsMarker (name ++ ':' :: rest)) : add ⟨.args, body, es, returned⟩ line =
      ⟨.args, body, ⟨name, fragment rest⟩ :: es, returned⟩ := by
  have htrimmed := isTrimmed_entry hname hrest
  have htrim := hline.trim_eq htrimmed
  have hindent : Text.indent line ≤ shallowIndent := hline.allowed_indent htrimmed
  have hentry : entry? line = some ⟨name, fragment rest⟩ := by
    unfold entry?
    rw [if_pos hindent, htrim, Text.cut_append hcolon, Option.map_some]
    simp only [hname.trim_eq]
  have htext : Text.trim line ≠ [] := by simp [htrim]
  rw [add_of_no_marker (marker?_eq_none (htrim ▸ hmarker)), addLine_args htext,
    addToArgs_entry hentry]

/-- Deep lines are fragments of the last entry. -/
theorem foldl_add_deep {fragments lines : List (List Char)} (h : List.Forall₂ Deep fragments lines)
    (hfragments : ∀ text ∈ fragments, IsFragment text) :
    lines.foldl Draft.add ⟨.args, body, e :: es, returned⟩ =
      ⟨.args, body, ⟨e.name, e.fragments ++ fragments⟩ :: es, returned⟩ := by
  induction h generalizing e with
  | nil => simp
  | cons hline _ ih =>
    obtain ⟨htext, hrest⟩ := List.forall_mem_cons.1 hfragments
    have hindent := hline.allowed_indent htext.isTrimmed
    have htrim := hline.trim_eq htext.isTrimmed
    rw [List.foldl_cons, add_of_no_marker (marker?_deep hindent),
      addLine_args (htrim ▸ htext.2), addToArgs_more (entry?_deep hindent), htrim, ih hrest,
      List.append_assoc, List.singleton_append]

/-- The lines of an item are its entry. -/
theorem foldl_add_item {item : Item} {lines : List (List Char)} (h : item.LaidOut lines) :
    lines.foldl Draft.add ⟨.args, body, es, returned⟩ =
      ⟨.args, body, item.toEntry :: es, returned⟩ := by
  cases h with
  | named hline hmarker hmore =>
    rw [List.foldl_cons, add_entry (Text.isTrimmed_of_trim_eq item.trimmed) item.noColon
      (stops_nil _) hline hmarker,
      foldl_add_deep hmore item.isFragment]
    rfl
  | begun hfragments hline hmore =>
    have hall := item.isFragment
    rw [hfragments] at hall
    obtain ⟨hfirst, hrest⟩ := List.forall_mem_cons.1 hall
    rw [List.foldl_cons, add_entry (Text.isTrimmed_of_trim_eq item.trimmed) item.noColon
      hfirst.stops_behind hline
      not_isMarker_blank, hfirst.fragment_eq, foldl_add_deep hmore hrest, List.singleton_append,
      ← hfragments]

theorem foldl_add_items {items : List Item} {groups : List (List (List Char))}
    (h : List.Forall₂ Item.LaidOut items groups) :
    groups.flatten.foldl Draft.add ⟨.args, body, es, returned⟩ =
      ⟨.args, body, (items.map Item.toEntry).reverse ++ es, returned⟩ := by
  induction h generalizing es with
  | nil => rfl
  | cons hitem _ ih =>
    rw [List.flatten_cons, List.foldl_append, foldl_add_item hitem, ih, List.map_cons,
      List.reverse_cons, List.append_assoc, List.singleton_append]

theorem foldl_add_returns {fragments lines : List (List Char)}
    (h : List.Forall₂ (Indented fun _ => True) fragments lines)
    (hfragments : ∀ text ∈ fragments, IsFragment text ∧ ¬ IsMarker text) :
    lines.foldl Draft.add ⟨.returns, body, es, returned⟩ =
      ⟨.returns, body, es, returned ++ fragments⟩ := by
  induction h generalizing returned with
  | nil => simp
  | cons hline _ ih =>
    obtain ⟨⟨htext, hmarker⟩, hrest⟩ := List.forall_mem_cons.1 hfragments
    have htrim := hline.trim_eq htext.isTrimmed
    rw [List.foldl_cons, add_of_no_marker (marker?_eq_none (htrim ▸ hmarker)),
      addLine_returns (htrim ▸ htext.2), htrim, ih hrest, List.append_assoc,
      List.singleton_append]

/-- What the lines of a text that is laid out make of an empty draft. -/
theorem foldl_add_laidOut {body : List (List Char)} {items : List Item}
    {returned lines : List (List Char)} (h : LaidOut body items returned lines) :
    lines.foldl Draft.add {} =
      ⟨.returns, body, (items.map Item.toEntry).reverse, returned⟩ := by
  obtain ⟨hbody, hargs, htail, hitems, hreturns, hreturned, hlines⟩ := h
  have hpart : Part.args ≠ .body := by decide
  rw [List.foldl_append, foldl_add_body hbody, List.foldl_cons,
    add_of_marker (marker?_args hargs), foldl_add_filter hpart, htail, List.foldl_append,
    foldl_add_items hitems, List.foldl_cons, add_of_marker (marker?_returns hreturns),
    foldl_add_returns hlines hreturned, List.append_nil, List.nil_append, List.nil_append]

end Draft

/-- The text of some lines. -/
def unlines (lines : List (List Char)) : String := String.ofList (['\n'].intercalate lines)

/-- A text that is laid out is read back: the lines of its body, each name with its fragments, and
the fragments of what is returned. -/
theorem parse_laidOut {body : List (List Char)} {items : List Item}
    {returned lines : List (List Char)} (h : LaidOut body items returned lines)
    (hnames : (items.map fun item => item.name).Nodup) (hfeed : ∀ line ∈ lines, '\n' ∉ line) :
    (parse (unlines lines)).body = unlines body ∧
      (items.map fun item => item.texts).Perm (parse (unlines lines)).args.entries ∧
      (parse (unlines lines)).returns = String.ofList ([' '].intercalate returned) := by
  have hne : lines ≠ [] := by
    cases h
    simp
  have hparse : parse (unlines lines) =
      Draft.finish ⟨.returns, body, (items.map Item.toEntry).reverse, returned⟩ := by
    rw [parse, unlines, String.toList_ofList, ← Text.joinWith_eq, Text.pieces_joinWith hne hfeed,
      ofLines, Draft.foldl_add_laidOut h]
  rw [hparse]
  refine ⟨?_, ?_, ?_⟩
  · simp only [Draft.finish, Text.joinWith_eq, unlines]
  · have hperm := (Draft.perm_finish_args_iff
      (d := ⟨.returns, body, (items.map Item.toEntry).reverse, returned⟩)).2
    rw [List.reverse_reverse, List.map_map, List.map_map] at hperm
    exact hperm hnames
  · simp only [Draft.finish, Text.joinWith_eq]

/-- A name whose description goes on with the words of a marker, and one with nothing behind it. -/
def sumItems : List Item :=
  [⟨⟨"x".toList, ["one".toList, "Returns:".toList]⟩, by decide, by decide, by decide⟩,
    ⟨⟨"y".toList, ["a sum: of".toList]⟩, by decide, by decide, by decide⟩]

def sumLines : List (List Char) :=
  ["Adds numbers.".toList, [], "  Args:".toList, [], " x: one".toList, "     Returns:".toList,
    "   ".toList, "    y:".toList, "      a sum: of".toList, "Returns:".toList,
    " A number.".toList, []]

theorem laidOut_sumLines :
    LaidOut ["Adds numbers.".toList, []] sumItems ["A number.".toList] sumLines := by
  have hx : Item.LaidOut sumItems[0] [" x: one".toList, "     Returns:".toList] :=
    .begun rfl ⟨" ".toList, rfl, rfl, by decide⟩
      (.cons ⟨"     ".toList, rfl, rfl, by decide⟩ .nil)
  have hy : Item.LaidOut sumItems[1] ["    y:".toList, "      a sum: of".toList] :=
    .named ⟨"    ".toList, rfl, rfl, by decide⟩ (by decide)
      (.cons ⟨"      ".toList, rfl, rfl, by decide⟩ .nil)
  exact .parts (by decide) ⟨"  ".toList, rfl, rfl, by decide⟩ (by decide)
    (.cons hx (.cons hy .nil)) ⟨[], rfl, rfl, by decide⟩ (by decide)
    (.cons ⟨" ".toList, rfl, rfl, trivial⟩ .nil)

theorem parse_laidOut_sumLines :
    LaidOut ["Adds numbers.".toList, []] sumItems ["A number.".toList] sumLines ∧
      (parse (unlines sumLines)).body = "Adds numbers.\n" ∧
      [("x", "one Returns:"), ("y", "a sum: of")].Perm (parse (unlines sumLines)).args.entries ∧
      (parse (unlines sumLines)).returns = "A number." :=
  ⟨laidOut_sumLines, parse_laidOut laidOut_sumLines (by decide) (by decide)⟩

end OpStubs.Documentation
