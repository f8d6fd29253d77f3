import OpStubs.Proofs.TextFormat.Derivation

namespace OpStubs.TextFormat

namespace State

/-- Reads some tokens. -/
def run (s : State) (ts : List Placed) : Except Problem State := ts.foldlM State.step s

theorem run_cons {s s' : State} {t : Placed} (h : s.step t = .ok s') (ts : List Placed) :
    s.run (t :: ts) = s'.run ts := by
  rw [run, List.foldlM_cons, h]
  rfl

theorem run_append {s s' : State} {ts : List Placed} (h : s.run ts = .ok s') (us : List Placed) :
    s.run (ts ++ us) = s'.run us := by
  rw [run] at h
  rw [run, List.foldlM_append, h]
  rfl

end State

namespace Expecting

/-- Behind a value no string may come. -/
theorem take_deliver_str (v : Value) (p : Place) (s : String) (pos : Pos) :
    ∃ e, (deliver v p).take ⟨.str s, pos⟩ = .error e := by
  unfold deliver
  cases p.items with
  | none => exact ⟨_, rfl⟩
  | some items => exact ⟨_, rfl⟩

end Expecting

/-- A token that what is expected takes is read, also behind a string. -/
theorem State.step_of_take {s s' : State} {t : Placed} (h : s.next.take t = .ok s') :
    s.step t = .ok s' := by
  cases s with
  | «at» e => exact h
  | inText place value =>
    obtain ⟨token, pos⟩ := t
    cases token with
    | str more =>
      obtain ⟨e, he⟩ := Expecting.take_deliver_str (.str value) place more pos
      rw [State.next, he] at h
      cases h
    | ident name => exact h
    | number text => exact h
    | punct c => exact h

namespace Expecting

/-- Whether some tokens lead from what is expected to what is expected behind them. -/
def Runs (e : Expecting) (ts : List Placed) (e' : Expecting) : Prop :=
  ∀ s : State, s.next = e → ∃ s', s.run ts = .ok s' ∧ s'.next = e'

namespace Runs

variable {e e' e'' : Expecting} {ts us : List Placed}

theorem nil (e : Expecting) : Runs e [] e := fun s hs => ⟨s, rfl, hs⟩

theorem append (h : Runs e ts e') (h' : Runs e' us e'') : Runs e (ts ++ us) e'' := by
  intro s hs
  obtain ⟨s', hrun, hs'⟩ := h s hs
  obtain ⟨s'', hrun', hs''⟩ := h' s' hs'
  refine ⟨s'', ?_, hs''⟩
  rw [State.run_append hrun, hrun']

theorem cons {t : Placed} {s : State} (h : e.take t = .ok s) (h' : Runs s.next us e'') :
    Runs e (t :: us) e'' := by
  intro s₀ hs
  obtain ⟨s', hrun, hs'⟩ := h' s rfl
  refine ⟨s', ?_, hs'⟩
  rw [State.run_cons (State.step_of_take (hs ▸ h)), hrun]

theorem one {t : Placed} {s : State} (h : e.take t = .ok s) : Runs e [t] s.next :=
  cons h (nil s.next)

end Runs

/-- Whether an item is expected whose value goes to `p`. -/
def AwaitsItem (e : Expecting) (p : Place) : Prop :=
  ∀ t : Placed, t.token ≠ .punct '[' → t.token ≠ .punct ']' → e.take t = takeItem p t

theorem awaitsItem_value (slot : Slot) : AwaitsItem (.value slot) ⟨slot, none⟩ := by
  intro t hopen _
  simp [take, hopen]

theorem awaitsItem_firstItem (slot : Slot) : AwaitsItem (.firstItem slot) ⟨slot, some []⟩ := by
  intro t _ hclose
  simp [take, hclose]

theorem awaitsItem_item (slot : Slot) (before : List Value) :
    AwaitsItem (.item slot before) ⟨slot, some before⟩ := by
  intro t _ _
  rfl

/-- Whether the beginning of a message is taken whose value goes to `p`. -/
def AwaitsMessage (e : Expecting) (p : Place) : Prop :=
  ∀ (b : Bracket) (pos : Pos),
    e.take (mark b.opening pos) = .ok (.at (.field (p.message b.closing) [] false))

theorem AwaitsItem.message {e : Expecting} {p : Place} (h : AwaitsItem e p) :
    AwaitsMessage e p := by
  intro b pos
  cases b with
  | curly => exact h _ (by simp [mark, Bracket.opening]) (by simp [mark, Bracket.opening])
  | angle => exact h _ (by simp [mark, Bracket.opening]) (by simp [mark, Bracket.opening])

theorem awaitsMessage_colon (slot : Slot) : AwaitsMessage (.colon slot) ⟨slot, none⟩ := by
  intro b pos
  cases b with
  | curly => rfl
  | angle => rfl

theorem take_close (p : Place) (before : List Field) (separator : Bool) (b : Bracket) (pos : Pos) :
    (Expecting.field (p.message b.closing) before separator).take (mark b.closing pos) =
      .ok (.at (deliver (.message before) p)) := by
  simp [take, takeField, mark, Place.message, close?]

/-- Whether no separator ends the fields. -/
def Apart (around : Around) : Prop :=
  ∀ (before : List Field) (s : Separator), close? before s.char around = none

theorem apart_text : Apart .text := fun _ _ => rfl

theorem apart_message (p : Place) (b : Bracket) : Apart (p.message b.closing) := by
  intro before s
  cases b <;> cases s <;> rfl

theorem runs_separator {around : Around} (h : Apart around) (before : List Field)
    (separator : Option (Separator × Pos)) :
    Runs (.field around before true) (separatorTokens separator)
      (.field around before separator.isNone) := by
  cases separator with
  | none => exact .nil _
  | some s =>
    obtain ⟨s, pos⟩ := s
    have htake : (Expecting.field around before true).take (mark s.char pos) =
        .ok (.at (.field around before false)) := by
      have hchar : s.char = ';' ∨ s.char = ',' := by cases s <;> simp [Separator.char]
      simp [take, takeField, mark, h before s, hchar]
    exact .one htake

end Expecting

open Expecting (Runs AwaitsItem AwaitsMessage Apart deliver)

theorem State.run_strTokens (p : Place) (value : String) (strings : List (String × Pos)) :
    (State.inText p value).run (ScalarTree.strTokens strings) =
      .ok (.inText p (ScalarTree.joined value strings)) := by
  induction strings generalizing value with
  | nil => rfl
  | cons s strings ih =>
    have hstep : (State.inText p value).step ⟨.str s.1, s.2⟩ = .ok (.inText p (value ++ s.1)) := rfl
    exact (State.run_cons hstep _).trans (ih (value ++ s.1))

theorem ScalarTree.runs (d : ScalarTree) {e : Expecting} {p : Place} (h : AwaitsItem e p) :
    Runs e d.tokens (deliver d.value p) := by
  cases d with
  | str first pos more =>
    intro s hs
    have htake : s.next.take ⟨.str first, pos⟩ = .ok (.inText p first) := by
      rw [hs, h _ (by simp) (by simp)]
      rfl
    refine ⟨.inText p (joined first more), ?_, rfl⟩
    exact (State.run_cons (State.step_of_take htake) _).trans (State.run_strTokens p first more)
  | number minus text pos =>
    cases minus with
    | none => exact .one (h ⟨.number text, pos⟩ (by simp) (by simp))
    | some place =>
      have hminus : e.take (mark '-' place) = .ok (.at (.unsigned p place)) :=
        h _ (by simp [mark]) (by simp [mark])
      have hnumber : (Expecting.unsigned p place).take ⟨.number text, pos⟩ =
          .ok (.at (deliver (.number ("-" ++ text)) p)) := rfl
      exact .cons hminus (.one hnumber)
  | ident minus name pos =>
    cases minus with
    | none => exact .one (h ⟨.ident name, pos⟩ (by simp) (by simp))
    | some place =>
      have hminus : e.take (mark '-' place) = .ok (.at (.unsigned p place)) :=
        h _ (by simp [mark]) (by simp [mark])
      have hname : (Expecting.unsigned p place).take ⟨.ident name, pos⟩ =
          .ok (.at (deliver (.ident ("-" ++ name)) p)) := rfl
      exact .cons hminus (.one hname)

mutual

theorem FieldsTree.runs (d : FieldsTree) {around : Around} (h : Apart around) (before : List Field)
    (separator : Bool) : ∃ separator', Runs (.field around before separator) d.tokens
      (.field around (before ++ d.fields) separator') := by
  match d with
  | .nil =>
    refine ⟨separator, ?_⟩
    rw [FieldsTree.tokens, FieldsTree.fields, List.append_nil]
    exact .nil _
  | .cons field s rest =>
    have hfield := field.runs around before separator
    have hseparator := Expecting.runs_separator h (before ++ [field.field]) s
    obtain ⟨separator', hrest⟩ := rest.runs h (before ++ [field.field]) s.isNone
    refine ⟨separator', ?_⟩
    rw [FieldsTree.tokens, FieldsTree.fields, List.append_cons]
    exact hfield.append (hseparator.append hrest)

theorem FieldTree.runs (d : FieldTree) (around : Around) (before : List Field) (separator : Bool) :
    Runs (.field around before separator) d.tokens (.field around (before ++ [d.field]) true) := by
  match d with
  | .message name pos colon value =>
    have hcolon : Runs (.colon ⟨around, before, name, pos⟩) (colonTokens colon ++ value.tokens)
        (deliver value.value ⟨⟨around, before, name, pos⟩, none⟩) := by
      cases colon with
      | none => exact value.runs (Expecting.awaitsMessage_colon _)
      | some place => exact .cons rfl (value.runs (Expecting.awaitsItem_value _).message)
    exact .cons rfl hcolon
  | .scalar name pos colon value =>
    exact .cons rfl (.cons rfl (value.runs (Expecting.awaitsItem_value _)))
  | .emptyList name pos colon opening closing =>
    have hclose : (Expecting.firstItem ⟨around, before, name, pos⟩).take (mark ']' closing) =
        .ok (.at (.field around (before ++ [⟨name, .list [], pos⟩]) true)) := rfl
    exact .cons rfl (.cons rfl (.cons rfl (.one hclose)))
  | .list name pos colon opening first more closing =>
    have hfirst := first.runs (Expecting.awaitsItem_firstItem ⟨around, before, name, pos⟩)
    have hmore := more.runs ⟨around, before, name, pos⟩ [first.value]
    have hclose (items : List Value) :
        (Expecting.nextItem ⟨around, before, name, pos⟩ items).take (mark ']' closing) =
          .ok (.at (.field around (before ++ [⟨name, .list items, pos⟩]) true)) := rfl
    exact .cons rfl (.cons rfl (.cons rfl (hfirst.append (hmore.append (.one (hclose _))))))

theorem MessageTree.runs (d : MessageTree) {e : Expecting} {p : Place} (h : AwaitsMessage e p) :
    Runs e d.tokens (deliver d.value p) := by
  match d with
  | .mk bracket opening fields closing =>
    obtain ⟨separator, hfields⟩ := fields.runs (Expecting.apart_message p bracket) [] false
    exact .cons (h bracket opening)
      (hfields.append (.one (Expecting.take_close p _ _ bracket closing)))

theorem ItemTree.runs (d : ItemTree) {e : Expecting} {p : Place} (h : AwaitsItem e p) :
    Runs e d.tokens (deliver d.value p) := by
  match d with
  | .message value => exact value.runs h.message
  | .scalar value => exact value.runs h

theorem ItemsTree.runs (d : ItemsTree) (slot : Slot) (before : List Value) :
    Runs (.nextItem slot before) d.tokens (.nextItem slot (before ++ d.values)) := by
  match d with
  | .nil =>
    rw [ItemsTree.tokens, ItemsTree.values, List.append_nil]
    exact .nil _
  | .cons comma item rest =>
    have hitem := item.runs (Expecting.awaitsItem_item slot before)
    have hrest := rest.runs slot (before ++ [item.value])
    rw [ItemsTree.tokens, ItemsTree.values, List.append_cons]
    exact .cons rfl (hitem.append hrest)

end

/-- The tokens of a derivation are read as the fields that it means. -/
theorem fieldsOfTokens_tokens (last : Pos) (d : FieldsTree) :
    fieldsOfTokens last d.tokens = .ok d.fields := by
  obtain ⟨separator, hruns⟩ := d.runs Expecting.apart_text [] false
  obtain ⟨s, hrun, hs⟩ := hruns .start rfl
  rw [State.run] at hrun
  rw [fieldsOfTokens, hrun]
  change s.next.finish last = _
  rw [hs]
  rfl

end OpStubs.TextFormat
