import OpStubs.Proofs.TextFormat.Reading

namespace OpStubs.TextFormat

/-- Fields behind which a separator may stand first. -/
def AfterField (rest : List Field → List Placed → Prop) (before : List Field) (ts : List Placed) :
    Prop :=
  ∃ separator us, ts = separatorTokens separator ++ us ∧ rest before us

/-- More items, the end of their list, and what stands behind the list's field. -/
def AfterItem (rest : List Field → List Placed → Prop) (slot : Slot) (items : List Value)
    (ts : List Placed) : Prop :=
  ∃ (more : ItemsTree) (pos : Pos) (us : List Placed), ts = more.tokens ++ mark ']' pos :: us ∧
    AfterField rest (slot.before ++ [⟨slot.name, .list (items ++ more.values), slot.pos⟩]) us

/-- What may stand behind a value, `rest` being what may stand behind the fields of its slot. -/
def AfterValue (rest : List Field → List Placed → Prop) (p : Place) (v : Value)
    (ts : List Placed) : Prop :=
  match p.items with
  | none => AfterField rest (p.slot.before ++ [⟨p.slot.name, v, p.slot.pos⟩]) ts
  | some items => AfterItem rest p.slot (items ++ [v]) ts

/-- Whether tokens complete the fields that `before` begins, and all that is around them, to `fs`. -/
def Around.Closes (fs : List Field) : Around → List Field → List Placed → Prop
  | .text, before, ts => ∃ d : FieldsTree, ts = d.tokens ∧ before ++ d.fields = fs
  | .message close around outer name pos items, before, ts =>
    ∃ (d : FieldsTree) (place : Pos) (us : List Placed), ts = d.tokens ++ mark close place :: us ∧
      AfterValue (around.Closes fs) ⟨⟨around, outer, name, pos⟩, items⟩
        (.message (before ++ d.fields)) us

/-- Whether tokens complete a value in its place, and all that is around it. -/
def Place.Closes (fs : List Field) (p : Place) (v : Value) (ts : List Placed) : Prop :=
  AfterValue (p.slot.around.Closes fs) p v ts

/-- Whether tokens give an item for a place, and complete all that is around it. -/
def Place.Fills (fs : List Field) (p : Place) (ts : List Placed) : Prop :=
  ∃ (d : ItemTree) (us : List Placed), ts = d.tokens ++ us ∧ p.Closes fs d.value us

/-- Whether tokens complete a list of which the opening bracket is read. -/
def Slot.ClosesList (fs : List Field) (slot : Slot) (ts : List Placed) : Prop :=
  (∃ (pos : Pos) (us : List Placed), ts = mark ']' pos :: us ∧
    Place.Closes fs ⟨slot, none⟩ (.list []) us) ∨
  Place.Fills fs ⟨slot, some []⟩ ts

/-- Whether tokens complete a field of which the colon is read. -/
def Slot.ClosesValue (fs : List Field) (slot : Slot) (ts : List Placed) : Prop :=
  (∃ (pos : Pos) (us : List Placed), ts = mark '[' pos :: us ∧ slot.ClosesList fs us) ∨
  Place.Fills fs ⟨slot, none⟩ ts

/-- Whether tokens complete a field of which the name is read. -/
def Slot.ClosesField (fs : List Field) (slot : Slot) (ts : List Placed) : Prop :=
  (∃ (pos : Pos) (us : List Placed), ts = mark ':' pos :: us ∧ slot.ClosesValue fs us) ∨
  ∃ (d : MessageTree) (us : List Placed), ts = d.tokens ++ us ∧
    Place.Closes fs ⟨slot, none⟩ d.value us

/-- Whether tokens complete a scalar of which the minus sign is read. -/
def Place.ClosesUnsigned (fs : List Field) (p : Place) (ts : List Placed) : Prop :=
  (∃ (text : String) (pos : Pos) (us : List Placed), ts = ⟨.number text, pos⟩ :: us ∧
    p.Closes fs (.number ("-" ++ text)) us) ∨
  ∃ (name : String) (pos : Pos) (us : List Placed), ts = ⟨.ident name, pos⟩ :: us ∧
    p.Closes fs (.ident ("-" ++ name)) us

/-- Whether tokens complete what is expected to `fs`. -/
def Expecting.Closes (fs : List Field) : Expecting → List Placed → Prop
  | .field around before true => AfterField (around.Closes fs) before
  | .field around before false => around.Closes fs before
  | .colon slot => slot.ClosesField fs
  | .value slot => slot.ClosesValue fs
  | .firstItem slot => slot.ClosesList fs
  | .item slot before => Place.Fills fs ⟨slot, some before⟩
  | .nextItem slot before => AfterItem (slot.around.Closes fs) slot before
  | .unsigned p _ => p.ClosesUnsigned fs

/-- Whether tokens complete what was read to `fs`. -/
def State.Closes (fs : List Field) : State → List Placed → Prop
  | .at e, ts => e.Closes fs ts
  | .inText p value, ts => ∃ (strings : List (String × Pos)) (us : List Placed),
    ts = ScalarTree.strTokens strings ++ us ∧ p.Closes fs (.str (ScalarTree.joined value strings)) us

variable {fs before : List Field} {around : Around} {p : Place} {slot : Slot} {t : Placed}
  {ts : List Placed} {s : State}

theorem Expecting.closes_deliver {v : Value} :
    (deliver v p).Closes fs ts ↔ p.Closes fs v ts := by
  unfold deliver Place.Closes AfterValue
  cases p.items with
  | none => rfl
  | some items => rfl

/-- A derived field may stand in front of what completes the fields behind it. -/
theorem Around.closes_field {d : FieldTree} {separator : Option (Separator × Pos)}
    (h : around.Closes fs (before ++ [d.field]) ts) :
    around.Closes fs before (d.tokens ++ (separatorTokens separator ++ ts)) := by
  have hfields (rest : FieldsTree) : before ++ (FieldsTree.cons d separator rest).fields =
      before ++ [d.field] ++ rest.fields := by simp [FieldsTree.fields]
  cases around with
  | text =>
    obtain ⟨rest, rfl, hrest⟩ := h
    exact ⟨.cons d separator rest, rfl, (hfields rest).trans hrest⟩
  | message close around outer name pos items =>
    obtain ⟨rest, place, us, rfl, hrest⟩ := h
    refine ⟨.cons d separator rest, place, us, ?_, ?_⟩
    · simp [FieldsTree.tokens]
    · rwa [hfields rest]

theorem Slot.closes_of_closesField (h : slot.ClosesField fs ts) :
    slot.around.Closes fs slot.before (⟨.ident slot.name, slot.pos⟩ :: ts) := by
  have hmessage {d : MessageTree} {us : List Placed} (colon : Option Pos)
      (hd : Place.Closes fs ⟨slot, none⟩ d.value us) : slot.around.Closes fs slot.before
        (⟨.ident slot.name, slot.pos⟩ :: (colonTokens colon ++ (d.tokens ++ us))) := by
    obtain ⟨separator, us, rfl, hrest⟩ := hd
    simpa [FieldTree.tokens] using
      Around.closes_field (d := .message slot.name slot.pos colon d) hrest
  have hlist {first : ItemTree} {us : List Placed} (colon opening : Pos)
      (hd : Place.Closes fs ⟨slot, some []⟩ first.value us) : slot.around.Closes fs slot.before
        (⟨.ident slot.name, slot.pos⟩ :: mark ':' colon :: mark '[' opening ::
          (first.tokens ++ us)) := by
    obtain ⟨more, closing, us, rfl, separator, us, rfl, hrest⟩ := hd
    simpa [FieldTree.tokens] using
      Around.closes_field (d := .list slot.name slot.pos colon opening first more closing) hrest
  rcases h with ⟨colon, us, rfl, hvalue⟩ | ⟨d, us, rfl, hd⟩
  · rcases hvalue with ⟨opening, us, rfl, hclosing | ⟨first, us, rfl, hfirst⟩⟩ | ⟨d, us, rfl, hd⟩
    · obtain ⟨closing, us, rfl, separator, us, rfl, hrest⟩ := hclosing
      exact Around.closes_field (d := .emptyList slot.name slot.pos colon opening closing) hrest
    · exact hlist colon opening hfirst
    · cases d with
      | message d => exact hmessage (some colon) hd
      | scalar d =>
        obtain ⟨separator, us, rfl, hrest⟩ := hd
        simpa [FieldTree.tokens, ItemTree.tokens] using
          Around.closes_field (d := .scalar slot.name slot.pos colon d) hrest
  · exact hmessage none hd

/-- A separator or nothing may stand in front of what completes the fields. -/
theorem Expecting.closes_field {separator : Bool} (h : around.Closes fs before ts) :
    (Expecting.field around before separator).Closes fs ts := by
  cases separator with
  | false => exact h
  | true => exact ⟨none, ts, rfl, h⟩

theorem fills_of_takeScalar (h : Expecting.takeScalar p t = .ok s) (hs : s.Closes fs ts) :
    p.Fills fs (t :: ts) := by
  obtain ⟨token, pos⟩ := t
  cases token with
  | str first =>
    cases h
    obtain ⟨more, us, rfl, hclose⟩ := hs
    exact ⟨.scalar (.str first pos more), us, rfl, hclose⟩
  | number text =>
    cases h
    exact ⟨.scalar (.number none text pos), ts, rfl, Expecting.closes_deliver.1 hs⟩
  | ident name =>
    cases h
    exact ⟨.scalar (.ident none name pos), ts, rfl, Expecting.closes_deliver.1 hs⟩
  | punct c =>
    by_cases hc : c = '-'
    · subst hc
      cases h
      rcases hs with ⟨text, place, us, rfl, hclose⟩ | ⟨name, place, us, rfl, hclose⟩
      · exact ⟨.scalar (.number (some pos) text place), us, rfl, hclose⟩
      · exact ⟨.scalar (.ident (some pos) name place), us, rfl, hclose⟩
    · simp [Expecting.takeScalar, hc] at h

theorem closing?_eq_some {c close : Char} (h : Expecting.closing? c = some close) :
    ∃ b : Bracket, c = b.opening ∧ close = b.closing := by
  unfold Expecting.closing? at h
  split at h
  · rename_i hc
    exact ⟨.curly, hc, (Option.some_inj.1 h).symm⟩
  · split at h
    · rename_i hc
      exact ⟨.angle, hc, (Option.some_inj.1 h).symm⟩
    · cases h

/-- A message that begins is derived, if the tokens behind its beginning complete it. -/
theorem closes_of_openMessage {e : Expecting} (h : Expecting.openMessage? p t.token = some e)
    (hs : e.Closes fs ts) :
    ∃ (d : MessageTree) (us : List Placed), t :: ts = d.tokens ++ us ∧ p.Closes fs d.value us := by
  obtain ⟨token, pos⟩ := t
  cases token with
  | punct c =>
    obtain ⟨close, hclose, rfl⟩ := Option.map_eq_some_iff.1 h
    obtain ⟨b, rfl, rfl⟩ := closing?_eq_some hclose
    obtain ⟨fields, closing, us, rfl, hvalue⟩ := hs
    exact ⟨.mk b pos fields closing, us, by simp [MessageTree.tokens, mark], hvalue⟩
  | ident name => cases h
  | number text => cases h
  | str s => cases h

theorem fills_of_takeItem (h : Expecting.takeItem p t = .ok s) (hs : s.Closes fs ts) :
    p.Fills fs (t :: ts) := by
  unfold Expecting.takeItem at h
  split at h
  · rename_i e he
    cases h
    obtain ⟨d, us, htokens, hclose⟩ := closes_of_openMessage he hs
    exact ⟨.message d, us, htokens, hclose⟩
  · exact fills_of_takeScalar h hs

theorem closes_of_takeField {separator : Bool}
    (h : Expecting.takeField around before separator t = .ok s) (hs : s.Closes fs ts) :
    (Expecting.field around before separator).Closes fs (t :: ts) := by
  obtain ⟨token, pos⟩ := t
  cases token with
  | ident name =>
    cases h
    exact Expecting.closes_field (Slot.closes_of_closesField hs)
  | punct c =>
    cases hc : Expecting.close? before c around with
    | some e =>
      simp only [Expecting.takeField, hc] at h
      cases h
      cases around with
      | text => cases hc
      | message close around outer name place items =>
        simp only [Expecting.close?, Option.ite_none_right_eq_some, Option.some.injEq] at hc
        obtain ⟨rfl, rfl⟩ := hc
        refine Expecting.closes_field ⟨.nil, pos, ts, rfl, ?_⟩
        rw [FieldsTree.fields, List.append_nil]
        exact Expecting.closes_deliver.1 hs
    | none =>
      simp only [Expecting.takeField, hc] at h
      split at h
      · rename_i hsep
        cases h
        obtain ⟨rfl, hchar⟩ := hsep
        obtain ⟨sep, rfl⟩ : ∃ sep : Separator, c = sep.char := by
          rcases hchar with rfl | rfl
          · exact ⟨.semicolon, rfl⟩
          · exact ⟨.comma, rfl⟩
        exact ⟨some (sep, pos), ts, rfl, hs⟩
      · cases h
  | number text => cases h
  | str value => cases h

theorem Expecting.closes_of_take {e : Expecting} (h : e.take t = .ok s) (hs : s.Closes fs ts) :
    e.Closes fs (t :: ts) := by
  cases e with
  | field around before separator => exact closes_of_takeField h hs
  | colon slot =>
    simp only [take] at h
    split at h
    · rename_i ht
      cases h
      exact .inl ⟨t.pos, ts, by rw [mark, ← ht], hs⟩
    · split at h
      · rename_i e he
        cases h
        exact .inr (closes_of_openMessage he hs)
      · cases h
  | value slot =>
    simp only [take] at h
    split at h
    · rename_i ht
      cases h
      exact .inl ⟨t.pos, ts, by rw [mark, ← ht], hs⟩
    · exact .inr (fills_of_takeItem h hs)
  | firstItem slot =>
    simp only [take] at h
    split at h
    · rename_i ht
      cases h
      exact .inl ⟨t.pos, ts, by rw [mark, ← ht], closes_deliver.1 hs⟩
    · exact .inr (fills_of_takeItem h hs)
  | item slot before => exact fills_of_takeItem h hs
  | nextItem slot before =>
    simp only [take] at h
    split at h
    · rename_i ht
      cases h
      have hclose : Place.Closes fs ⟨slot, none⟩ (.list before) ts := closes_deliver.1 hs
      rw [← List.append_nil before] at hclose
      exact ⟨.nil, t.pos, ts, by rw [mark, ← ht]; rfl, hclose⟩
    · split at h
      · rename_i ht
        cases h
        obtain ⟨d, us, rfl, more, pos, us, rfl, hclose⟩ := hs
        refine ⟨.cons t.pos d more, pos, us, ?_, ?_⟩
        · have hcomma : mark ',' t.pos = t := by rw [mark, ← ht]
          simp [ItemsTree.tokens, hcomma]
        · simpa [ItemsTree.values] using hclose
      · cases h
  | unsigned p minus =>
    obtain ⟨token, pos⟩ := t
    cases token with
    | number text =>
      cases h
      exact .inl ⟨text, pos, ts, rfl, closes_deliver.1 hs⟩
    | ident name =>
      cases h
      exact .inr ⟨name, pos, ts, rfl, closes_deliver.1 hs⟩
    | str value => cases h
    | punct c => cases h

/-- What completes the reading behind a token completes it in front of the token, the token
included. -/
theorem State.closes_of_step {s s' : State} (h : s.step t = .ok s') (hs : s'.Closes fs ts) :
    s.Closes fs (t :: ts) := by
  cases s with
  | «at» e => exact Expecting.closes_of_take h hs
  | inText p value =>
    obtain ⟨token, pos⟩ := t
    have htext (hnext : (Expecting.deliver (.str value) p).take ⟨token, pos⟩ = .ok s') :
        (State.inText p value).Closes fs (⟨token, pos⟩ :: ts) :=
      ⟨[], _, rfl, Expecting.closes_deliver.1 (Expecting.closes_of_take hnext hs)⟩
    cases token with
    | str more =>
      cases h
      obtain ⟨strings, us, rfl, hclose⟩ := hs
      exact ⟨(more, pos) :: strings, us, rfl, hclose⟩
    | ident name => exact htext h
    | number text => exact htext h
    | punct c => exact htext h

theorem Expecting.closes_nil_of_finish {e : Expecting} {last : Pos} (h : e.finish last = .ok fs) :
    e.Closes fs [] := by
  cases e with
  | field around before separator =>
    cases around with
    | text =>
      cases h
      exact closes_field ⟨.nil, rfl, List.append_nil _⟩
    | message => cases h
  | _ => cases h

theorem State.closes_nil_of_finish {last : Pos} (h : s.next.finish last = .ok fs) :
    s.Closes fs [] := by
  have hclose := Expecting.closes_nil_of_finish h
  cases s with
  | «at» e => exact hclose
  | inText p value => exact ⟨[], [], rfl, Expecting.closes_deliver.1 hclose⟩

/-- A run completes what it started with. -/
theorem State.closes_of_run {s s' : State} {last : Pos} (h : s.run ts = .ok s')
    (hs : s'.next.finish last = .ok fs) : s.Closes fs ts := by
  -- The induction goes back from the end of the tokens, where nothing is demanded any more.
  induction ts generalizing s with
  | nil =>
    cases h
    exact State.closes_nil_of_finish hs
  | cons t ts ih =>
    cases hstep : s.step t with
    | error e =>
      rw [run, List.foldlM_cons, hstep] at h
      cases h
    | ok s₁ =>
      rw [run_cons hstep] at h
      exact State.closes_of_step hstep (ih h)

/-- Tokens that are read are the tokens of a derivation of what is read. -/
theorem exists_derivation_of_fieldsOfTokens {last : Pos} (h : fieldsOfTokens last ts = .ok fs) :
    ∃ d : FieldsTree, ts = d.tokens ∧ d.fields = fs := by
  unfold fieldsOfTokens at h
  cases hrun : ts.foldlM State.step State.start with
  | error e =>
    rw [hrun] at h
    cases h
  | ok s =>
    rw [hrun] at h
    exact State.closes_of_run hrun h

end OpStubs.TextFormat
