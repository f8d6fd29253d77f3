import OpStubs.Documentation
import OpStubs.Proofs.Dictionary
import OpStubs.Proofs.TextParts

namespace OpStubs.Documentation

/-- Where a line may be kept: in the body, in one of the entries, or in what is returned. -/
inductive Place where
  | body
  | entry (index : Nat)
  | returns
  deriving DecidableEq

/-- Lines without the blanks around them, and where each is kept. -/
abbrev Filing := List (Place × List Char)

/-- Keeps one more line. -/
def Filing.put (f : Filing) (p : Place) (line : List Char) : Filing := f ++ [(p, line)]

/-- The lines that are kept in a place. -/
def Filing.at (f : Filing) (p : Place) : List (List Char) :=
  (f.filter fun x => x.1 = p).map Prod.snd

/-- Whether a line has text and is no marker. -/
def isProse (line : List Char) : Bool := (marker? line).isNone && Text.trim line != []

/-- Whether lines make an entry: the first has a name and a colon, and what stands behind the colon
and on the other lines is the description. -/
def IsEntry (lines : List (List Char)) (e : Entry) : Prop :=
  ∃ before after more, lines = (before ++ ':' :: after) :: more ∧ ':' ∉ before ∧
    e.name = Text.trim before ∧ e.fragments = fragment after ++ more

/-- A name and its description. -/
def Entry.texts (e : Entry) : String × String :=
  (String.ofList e.name, String.ofList ([' '].intercalate e.fragments))

/-- Whether a text is kept: each line with text that is no marker has a place, in the order of the
text, and the body, the entries and what is returned are what their places hold. -/
structure Keeps (text : List Char) (d : Documentation) (f : Filing) (es : List Entry) : Prop where
  lines : f.map Prod.snd = ((Text.pieces '\n' text).filter isProse).map Text.trim
  body : ((Text.pieces '\n' d.body.toList).map Text.trim).filter (· ≠ []) = f.at .body
  returns : d.returns = String.ofList ([' '].intercalate (f.at .returns))
  entry : ∀ k e, es[k]? = some e → IsEntry (f.at (.entry k)) e
  beyond : ∀ k, es.length ≤ k → f.at (.entry k) = []

@[simp] theorem Filing.at_put (f : Filing) (p q : Place) (line : List Char) :
    (f.put q line).at p = if q = p then f.at p ++ [line] else f.at p := by
  rw [Filing.put, Filing.at, List.filter_append, List.map_append, Filing.at]
  by_cases h : q = p <;> simp [h]

theorem entry_eq_some {line : List Char} {e : Entry} (h : entry? line = some e) :
    ∃ before after, Text.trim line = before ++ ':' :: after ∧ ':' ∉ before ∧
      e = ⟨Text.trim before, fragment after⟩ := by
  unfold entry? at h
  split at h
  · obtain ⟨⟨before, after⟩, hcut, rfl⟩ := Option.map_eq_some_iff.1 h
    obtain ⟨hline, hbefore⟩ := Text.cut_eq_some_iff.1 hcut
    exact ⟨before, after, hline, hbefore, rfl⟩
  · cases h

/-- An entry goes on with a line. -/
theorem IsEntry.append {lines : List (List Char)} {e : Entry} (h : IsEntry lines e)
    (line : List Char) : IsEntry (lines ++ [line]) ⟨e.name, e.fragments ++ [line]⟩ := by
  obtain ⟨before, after, more, rfl, hbefore, hname, hfragments⟩ := h
  refine ⟨before, after, more ++ [line], rfl, hbefore, hname, ?_⟩
  rw [hfragments, List.append_assoc]

theorem getElem?_reverse_cons (e : Entry) (es : List Entry) (k : Nat) :
    (e :: es).reverse[k]? = if k = es.length then some e else es.reverse[k]? := by
  rw [List.reverse_cons]
  by_cases hk : k = es.length
  · rw [if_pos hk, hk, ← List.length_reverse, List.getElem?_concat_length]
  · rw [if_neg hk]
    by_cases hlt : k < es.length
    · rw [List.getElem?_append_left (by simpa using hlt)]
    · rw [List.getElem?_eq_none (by simp; omega), List.getElem?_eq_none (by simp; omega)]

namespace Draft

/-- Whether the lines read so far are kept. -/
structure Keeps (d : Draft) (lines : List (List Char)) (f : Filing) : Prop where
  lines : f.map Prod.snd = (lines.filter isProse).map Text.trim
  body : (d.body.map Text.trim).filter (· ≠ []) = f.at .body
  returns : d.returns = f.at .returns
  entry : ∀ k e, d.entries.reverse[k]? = some e → IsEntry (f.at (.entry k)) e
  beyond : ∀ k, d.entries.length ≤ k → f.at (.entry k) = []
  noFeed : ∀ l ∈ d.body, '\n' ∉ l

namespace Keeps

variable {d : Draft} {lines : List (List Char)} {line : List Char} {f : Filing}

/-- A line that is a marker or blank has no place. -/
theorem lines_skip (h : d.Keeps lines f) (hline : isProse line = false) :
    f.map Prod.snd = ((lines ++ [line]).filter isProse).map Text.trim := by
  rw [h.lines, List.filter_append, List.filter_cons_of_neg (by simp [hline])]
  simp

theorem lines_put (h : d.Keeps lines f) (hline : isProse line = true) (p : Place) :
    (f.put p (Text.trim line)).map Prod.snd =
      ((lines ++ [line]).filter isProse).map Text.trim := by
  rw [Filing.put, List.map_append, h.lines, List.filter_append, List.filter_cons_of_pos hline]
  simp

theorem skip (h : d.Keeps lines f) (hline : isProse line = false) :
    d.Keeps (lines ++ [line]) f :=
  ⟨h.lines_skip hline, h.body, h.returns, h.entry, h.beyond, h.noFeed⟩

/-- A line of the body is kept there with the blanks around it or without. -/
theorem addBody (h : d.Keeps lines f) (hline : isProse line = true) {kept : List Char}
    (hkept : Text.trim kept = Text.trim line) (hfeed : '\n' ∉ kept) :
    { d with body := d.body ++ [kept] }.Keeps (lines ++ [line])
      (f.put .body (Text.trim line)) where
  lines := h.lines_put hline .body
  body := by
    have htext : Text.trim line ≠ [] := by
      rw [isProse, Bool.and_eq_true] at hline
      simpa using hline.2
    have hlast : [Text.trim line].filter (· ≠ []) = [Text.trim line] := by simpa using htext
    rw [Filing.at_put, if_pos rfl, ← h.body, List.map_append, List.filter_append, List.map_cons,
      hkept, List.map_nil, hlast]
  returns := by simpa using h.returns
  entry k e he := by simpa using h.entry k e he
  beyond k hk := by simpa using h.beyond k hk
  noFeed := List.forall_mem_append.2 ⟨h.noFeed, List.forall_mem_singleton.2 hfeed⟩

theorem addBlank (h : d.Keeps lines f) (hblank : Text.trim line = []) (hfeed : '\n' ∉ line) :
    { d with body := d.body ++ [line] }.Keeps (lines ++ [line]) f where
  lines := h.lines_skip (by simp [isProse, hblank])
  body := by
    rw [← h.body, List.map_append, List.filter_append, List.map_cons, hblank]
    simp
  returns := h.returns
  entry := h.entry
  beyond := h.beyond
  noFeed := List.forall_mem_append.2 ⟨h.noFeed, List.forall_mem_singleton.2 hfeed⟩

theorem addReturns (h : d.Keeps lines f) (hline : isProse line = true) :
    { d with returns := d.returns ++ [Text.trim line] }.Keeps (lines ++ [line])
      (f.put .returns (Text.trim line)) where
  lines := h.lines_put hline .returns
  body := by simpa using h.body
  returns := by
    rw [Filing.at_put, if_pos rfl, ← h.returns]
  entry k e he := by simpa using h.entry k e he
  beyond k hk := by simpa using h.beyond k hk
  noFeed := h.noFeed

/-- A line goes to an entry that stands behind `rest`, be it a new one or the last. -/
theorem putEntry (h : d.Keeps lines f) (hline : isProse line = true) {e : Entry} {rest : List Entry}
    (hd : d.entries = rest ∨ ∃ old, d.entries = old :: rest)
    (he : IsEntry (f.at (.entry rest.length) ++ [Text.trim line]) e) :
    { d with entries := e :: rest }.Keeps (lines ++ [line])
      (f.put (.entry rest.length) (Text.trim line)) where
  lines := h.lines_put hline _
  body := by simpa using h.body
  returns := by simpa using h.returns
  entry k x hx := by
    rw [getElem?_reverse_cons] at hx
    rw [Filing.at_put]
    by_cases hk : k = rest.length
    · rw [if_pos hk] at hx
      cases hx
      rwa [if_pos (by rw [hk]), hk]
    · have hne : ¬ Place.entry rest.length = .entry k := by
        rw [Place.entry.injEq]
        exact Ne.symm hk
      rw [if_neg hk] at hx
      rw [if_neg hne]
      refine h.entry k x ?_
      rcases hd with hd | ⟨old, hd⟩
      · rw [hd, hx]
      · rw [hd, getElem?_reverse_cons, if_neg hk, hx]
  beyond k hk := by
    have hk : rest.length + 1 ≤ k := hk
    have hne : rest.length ≠ k := by omega
    have hlength : d.entries.length ≤ k := by
      rcases hd with hd | ⟨old, hd⟩
      · rw [hd]
        omega
      · rwa [hd]
    simpa [hne] using h.beyond k hlength
  noFeed := h.noFeed

theorem addToArgs (h : d.Keeps lines f) (hline : isProse line = true) (hfeed : '\n' ∉ line) :
    ∃ f', (d.addToArgs line).Keeps (lines ++ [line]) f' := by
  unfold Draft.addToArgs
  split
  · rename_i e he
    obtain ⟨before, after, htrim, hbefore, rfl⟩ := entry_eq_some he
    refine ⟨_, h.putEntry hline (.inl rfl) ?_⟩
    rw [h.beyond _ (Nat.le_refl _), htrim]
    exact ⟨before, after, [], rfl, hbefore, rfl, (List.append_nil _).symm⟩
  · split
    · have htrimmed : '\n' ∉ Text.trim line := fun hc => hfeed (Text.trim_subset line hc)
      exact ⟨_, h.addBody hline (Text.trim_trim line) htrimmed⟩
    · rename_i e rest hd
      have hlast := h.entry rest.length e (by rw [hd, getElem?_reverse_cons, if_pos rfl])
      exact ⟨_, h.putEntry hline (.inr ⟨e, hd⟩) (hlast.append _)⟩

/-- A line that is no marker is kept, if it is not blank. -/
theorem addLine (h : d.Keeps lines f) (hm : marker? line = none) (hfeed : '\n' ∉ line) :
    ∃ f', (d.addLine line).Keeps (lines ++ [line]) f' := by
  by_cases hblank : Text.trim line = []
  · have hline : isProse line = false := by simp [isProse, hblank]
    have hskip := h.skip hline
    refine ⟨f, ?_⟩
    unfold Draft.addLine
    split
    · exact h.addBlank hblank hfeed
    · rwa [if_pos hblank]
    · rwa [if_pos hblank]
  · have hline : isProse line = true := by simp [isProse, hm, hblank]
    unfold Draft.addLine
    split
    · exact ⟨_, h.addBody hline rfl hfeed⟩
    · rw [if_neg hblank]
      exact h.addToArgs hline hfeed
    · rw [if_neg hblank]
      exact ⟨_, h.addReturns hline⟩

/-- A marker is no line that is kept. -/
theorem add (h : d.Keeps lines f) (hfeed : '\n' ∉ line) :
    ∃ f', (d.add line).Keeps (lines ++ [line]) f' := by
  unfold Draft.add
  split
  · rename_i part hm
    have hline : isProse line = false := by simp [isProse, hm]
    have hskip := h.skip hline
    exact ⟨f, hskip.lines, hskip.body, hskip.returns, hskip.entry, hskip.beyond, hskip.noFeed⟩
  · rename_i hm
    exact h.addLine hm hfeed

end Keeps

theorem keeps_nil : Draft.Keeps {} [] [] where
  lines := rfl
  body := rfl
  returns := rfl
  entry k e he := by simp at he
  beyond _ _ := rfl
  noFeed := by simp

/-- All lines that are read are kept. -/
theorem Keeps.foldl {d : Draft} {before : List (List Char)} {f : Filing} (h : d.Keeps before f)
    {lines : List (List Char)} (hfeed : ∀ l ∈ lines, '\n' ∉ l) :
    ∃ f', (lines.foldl Draft.add d).Keeps (before ++ lines) f' := by
  induction lines generalizing d before f with
  | nil =>
    rw [List.append_nil]
    exact ⟨f, h⟩
  | cons l lines ih =>
    obtain ⟨hl, hrest⟩ := List.forall_mem_cons.1 hfeed
    obtain ⟨f', hadd⟩ := h.add hl
    rw [List.append_cons]
    exact ih hadd hrest

/-- What is read of a draft is what it keeps. -/
theorem Keeps.finish {d : Draft} {text : List Char} {f : Filing}
    (h : d.Keeps (Text.pieces '\n' text) f) :
    Documentation.Keeps text d.finish f d.entries.reverse where
  lines := h.lines
  body := by
    rw [Draft.finish, String.toList_ofList, ← h.body]
    by_cases hbody : d.body = []
    · rw [hbody]
      rfl
    · rw [Text.pieces_joinWith hbody h.noFeed]
  returns := by simp only [Draft.finish, h.returns, Text.joinWith_eq]
  entry := h.entry
  beyond := by simpa using h.beyond

theorem finish_args (d : Draft) :
    d.finish.args = .ofList (d.entries.reverse.map Entry.texts) := by
  unfold Draft.finish Entry.texts
  simp only [Text.joinWith_eq]

/-- All entries are left exactly if their names are different. -/
theorem perm_finish_args_iff {d : Draft} : (d.entries.reverse.map Entry.texts).Perm
    d.finish.args.entries ↔ (d.entries.reverse.map Entry.name).Nodup := by
  have hnames : (d.entries.reverse.map Entry.texts).map Prod.fst =
      (d.entries.reverse.map Entry.name).map String.ofList := by
    rw [List.map_map, List.map_map]
    rfl
  rw [finish_args, Dictionary.perm_ofList_iff, hnames,
    List.nodup_map_iff fun _ _ => String.ofList_injective]

end Draft

/-- Each line with text that is no marker is kept in one place, in the order of the text. Of the
entries, those that another of the same name follows are lost: all of them are left exactly if their
names are different. -/
theorem parse_keeps (text : String) : ∃ f es, Keeps text.toList (parse text) f es ∧
    (∀ name description, (parse text).args.find? name = some description ↔
      ∃ before after, es.map Entry.texts = before ++ (name, description) :: after ∧
        name ∉ after.map Prod.fst) ∧
    ((es.map Entry.texts).Perm (parse text).args.entries ↔ (es.map Entry.name).Nodup) := by
  have hfeed : ∀ l ∈ Text.pieces '\n' text.toList, '\n' ∉ l :=
    fun l hl hc => (Text.mem_pieces hl _ hc).2 rfl
  obtain ⟨f, hkeeps⟩ := Draft.keeps_nil.foldl hfeed
  rw [List.nil_append] at hkeeps
  refine ⟨f, _, hkeeps.finish, ?_⟩
  refine ⟨fun name description => ?_, Draft.perm_finish_args_iff⟩
  rw [parse, ofLines, Draft.finish_args]
  exact Dictionary.find?_ofList_eq_some_iff

/-- Where neither the body nor what is returned has text, all lines are in the entries. -/
theorem Keeps.exists_entry {text : List Char} {d : Documentation} {f : Filing} {es : List Entry}
    (h : Keeps text d f es) (hbody : d.body = "") (hreturns : d.returns = "") {p : Place}
    {line : List Char} (hmem : (p, line) ∈ f) : ∃ k < es.length, p = .entry k := by
  have hat : line ∈ f.at p := List.mem_map.2 ⟨(p, line), List.mem_filter.2 ⟨hmem, by simp⟩, rfl⟩
  cases p with
  | body =>
    rw [← h.body, hbody] at hat
    cases hat
  | returns =>
    have hnil : [' '].intercalate (f.at .returns) = [] :=
      String.ofList_injective (h.returns.symm.trans hreturns)
    have hline : line ∈ f.map Prod.snd := List.mem_map.2 ⟨(.returns, line), hmem, rfl⟩
    rw [h.lines] at hline
    obtain ⟨l, hl, rfl⟩ := List.mem_map.1 hline
    have hprose : isProse l = true := (List.mem_filter.1 hl).2
    rw [isProse, Bool.and_eq_true, bne_iff_ne] at hprose
    cases hkept : f.at .returns with
    | nil =>
      rw [hkept] at hat
      cases hat
    | cons l' ls =>
      rw [hkept] at hat hnil
      cases ls with
      | nil =>
        rw [List.mem_singleton.1 hat] at hprose
        exact absurd (by simpa using hnil) hprose.2
      | cons l'' ls =>
        rw [List.intercalate_cons_cons] at hnil
        simp at hnil
  | entry k =>
    refine ⟨k, ?_, rfl⟩
    by_contra hk
    rw [h.beyond k (Nat.le_of_not_lt hk)] at hat
    cases hat

/-- Two entries of one name. -/
def repeatedName : String := "Args:\n  a: one\n  a: two"

/-- No place has the first of two entries with one name. -/
theorem not_keeps_repeatedName : ¬ ∃ f es, Keeps repeatedName.toList (parse repeatedName) f es ∧
    (es.map Entry.texts).Perm (parse repeatedName).args.entries := by
  rintro ⟨f, es, hkeeps, hperm⟩
  have hargs : (parse repeatedName).args.entries = [("a", "two")] := by decide
  have hlines : ((Text.pieces '\n' repeatedName.toList).filter isProse).map Text.trim =
      ["a: one".toList, "a: two".toList] := by decide
  rw [hargs, List.perm_singleton] at hperm
  obtain ⟨e, rfl, he⟩ := List.map_eq_singleton_iff.1 hperm
  have hplace : ∀ x ∈ f, x.1 = .entry 0 := by
    intro x hx
    obtain ⟨k, hk, hp⟩ := hkeeps.exists_entry (by decide) (by decide) hx
    rw [hp, Nat.lt_one_iff.1 hk]
  have hat : f.at (.entry 0) = ["a: one".toList, "a: two".toList] := by
    rw [← hlines, ← hkeeps.lines, Filing.at, List.filter_eq_self.2 (by simpa using hplace)]
  obtain ⟨before, after, more, hentry, hbefore, -, hfragments⟩ := hkeeps.entry 0 e rfl
  rw [hat, List.cons.injEq] at hentry
  obtain ⟨hfirst, rfl⟩ := hentry
  have hcut := Text.cut_append hbefore after
  have hone : Text.cut ':' "a: one".toList = some (['a'], " one".toList) := by decide
  rw [← hfirst, hone] at hcut
  cases hcut
  have htexts : ("one a: two" : String) = "two" := by
    have hdescription := congrArg Prod.snd he
    rw [Entry.texts, hfragments] at hdescription
    exact hdescription
  exact absurd htexts (by decide)

end OpStubs.Documentation
