import Mathlib.Data.List.Nodup
import OpStubs.Proofs.TextFormat.Closing

namespace OpStubs.TextFormat

/-- Whether tokens are read. -/
def Accepted (ts : List Placed) : Prop := ∃ last fs, fieldsOfTokens last ts = .ok fs

/-- Whether tokens begin some that are read. -/
def Viable (ts : List Placed) : Prop := ∃ us, Accepted (ts ++ us)

/-- Whether tokens begin some more that are read. -/
def Unfinished (ts : List Placed) : Prop := ∃ us, us ≠ [] ∧ Accepted (ts ++ us)

/-- Whether a value may start behind some tokens: any scalar may stand there. -/
def AwaitsValue (ts : List Placed) : Prop := ∀ d : ScalarTree, Viable (ts ++ d.tokens)

/-- Where the text ends does not matter for what is read. -/
theorem accepted_iff {ts : List Placed} (last : Pos) :
    Accepted ts ↔ ∃ fs, fieldsOfTokens last ts = .ok fs := by
  constructor
  · rintro ⟨last', fs, h⟩
    obtain ⟨d, rfl, -⟩ := exists_derivation_of_fieldsOfTokens h
    exact ⟨d.fields, fieldsOfTokens_tokens last d⟩
  · rintro ⟨fs, h⟩
    exact ⟨last, fs, h⟩

namespace Expecting

/-- Whether some tokens lead to where the text may end. -/
def Completes (e : Expecting) : Prop :=
  ∃ us fs separator, Runs e us (.field .text fs separator)

theorem Completes.of_take {e : Expecting} {t : Placed} {s : State} (h : e.take t = .ok s)
    (hs : s.next.Completes) : e.Completes := by
  obtain ⟨us, fs, separator, hruns⟩ := hs
  exact ⟨t :: us, fs, separator, .cons h hruns⟩

theorem completes_field (around : Around) (before : List Field) (separator : Bool) :
    (Expecting.field around before separator).Completes := by
  induction around generalizing before separator with
  | text => exact ⟨[], before, separator, .nil _⟩
  | message close around outer name pos items ih =>
    have hclose : (Expecting.field (.message close around outer name pos items) before separator).take
        (mark close pos) =
          .ok (.at (deliver (.message before) ⟨⟨around, outer, name, pos⟩, items⟩)) := by
      simp [take, takeField, mark, close?]
    refine .of_take hclose ?_
    cases items with
    | none => exact ih _ _
    | some items =>
      have hlist : (Expecting.nextItem ⟨around, outer, name, pos⟩ (items ++ [.message before])).take
          (mark ']' pos) = .ok (.at (deliver (.list (items ++ [.message before]))
            ⟨⟨around, outer, name, pos⟩, none⟩)) := rfl
      exact .of_take hlist (ih _ _)

theorem completes_nextItem (slot : Slot) (items : List Value) :
    (Expecting.nextItem slot items).Completes := by
  have hclose : (Expecting.nextItem slot items).take (mark ']' slot.pos) =
      .ok (.at (deliver (.list items) ⟨slot, none⟩)) := rfl
  exact .of_take hclose (completes_field _ _ _)

theorem completes_deliver (v : Value) (p : Place) : (deliver v p).Completes := by
  unfold deliver
  cases p.items with
  | none => exact completes_field _ _ _
  | some items => exact completes_nextItem _ _

/-- A number is an item wherever one is expected. -/
theorem completes_of_awaitsItem {e : Expecting} {p : Place} (h : AwaitsItem e p) :
    e.Completes := by
  have htake : e.take ⟨.number "0", p.slot.pos⟩ = .ok (.at (deliver (.number "0") p)) :=
    h _ (by simp) (by simp)
  exact .of_take htake (completes_deliver _ _)

theorem completes (e : Expecting) : e.Completes := by
  cases e with
  | field around before separator => exact completes_field around before separator
  | colon slot =>
    have htake : (Expecting.colon slot).take (mark ':' slot.pos) = .ok (.at (.value slot)) := rfl
    exact .of_take htake (completes_of_awaitsItem (awaitsItem_value slot))
  | value slot => exact completes_of_awaitsItem (awaitsItem_value slot)
  | firstItem slot => exact completes_of_awaitsItem (awaitsItem_firstItem slot)
  | item slot before => exact completes_of_awaitsItem (awaitsItem_item slot before)
  | nextItem slot before => exact completes_nextItem slot before
  | unsigned p minus =>
    have htake : (Expecting.unsigned p minus).take ⟨.number "0", minus⟩ =
        .ok (.at (deliver (.number ("-" ++ "0")) p)) := rfl
    exact .of_take htake (completes_deliver _ _)

theorem deliver_ne_unsigned (v : Value) (p p' : Place) (minus : Pos) :
    deliver v p ≠ .unsigned p' minus := by
  unfold deliver
  cases p.items <;> simp

section
variable {e : Expecting} {t : Placed} {s : State} {p p' : Place} {minus : Pos} {problem : Problem}

theorem openMessage_ne_unsigned (h : openMessage? p' t.token = some e) : e ≠ .unsigned p minus := by
  obtain ⟨token, pos⟩ := t
  cases token with
  | punct c =>
    obtain ⟨close, -, rfl⟩ := Option.map_eq_some_iff.1 h
    simp
  | str value => cases h
  | number text => cases h
  | ident name => cases h

theorem takeScalar_unsigned (h : takeScalar p' t = .ok s) (hs : s.next = .unsigned p minus) :
    t = mark '-' minus ∧ p' = p := by
  obtain ⟨token, pos⟩ := t
  cases token with
  | str value =>
    cases h
    exact absurd hs (deliver_ne_unsigned _ _ _ _)
  | number text =>
    cases h
    exact absurd hs (deliver_ne_unsigned _ _ _ _)
  | ident name =>
    cases h
    exact absurd hs (deliver_ne_unsigned _ _ _ _)
  | punct c =>
    by_cases hc : c = '-'
    · subst hc
      cases h
      cases hs
      exact ⟨rfl, rfl⟩
    · simp [takeScalar, hc] at h

theorem takeItem_unsigned (h : takeItem p' t = .ok s) (hs : s.next = .unsigned p minus) :
    t = mark '-' minus ∧ p' = p := by
  unfold takeItem at h
  split at h
  · rename_i e' he
    cases h
    exact absurd hs (openMessage_ne_unsigned he)
  · exact takeScalar_unsigned h hs

theorem takeField_ne_unsigned {around : Around} {before : List Field} {separator : Bool}
    (h : takeField around before separator t = .ok s) : s.next ≠ .unsigned p minus := by
  intro hs
  obtain ⟨token, pos⟩ := t
  cases token with
  | ident name =>
    cases h
    cases hs
  | str value => cases h
  | number text => cases h
  | punct c =>
    simp only [takeField] at h
    split at h
    · rename_i e' he
      cases h
      cases around with
      | text => cases he
      | message close around outer name place items =>
        simp only [close?, Option.ite_none_right_eq_some, Option.some.injEq] at he
        exact absurd (he.2.trans hs) (deliver_ne_unsigned _ _ _ _)
    · split at h
      · cases h
        cases hs
      · cases h

/-- A minus sign is taken only where an item is expected. -/
theorem take_unsigned (h : e.take t = .ok s) (hs : s.next = .unsigned p minus) :
    t = mark '-' minus ∧ AwaitsItem e p := by
  cases e with
  | field around before separator => exact absurd hs (takeField_ne_unsigned h)
  | colon slot =>
    simp only [take] at h
    split at h
    · cases h
      cases hs
    · split at h
      · rename_i e' he
        cases h
        exact absurd hs (openMessage_ne_unsigned he)
      · cases h
  | value slot =>
    simp only [take] at h
    split at h
    · cases h
      cases hs
    · obtain ⟨ht, rfl⟩ := takeItem_unsigned h hs
      exact ⟨ht, awaitsItem_value slot⟩
  | firstItem slot =>
    simp only [take] at h
    split at h
    · cases h
      cases hs
    · obtain ⟨ht, rfl⟩ := takeItem_unsigned h hs
      exact ⟨ht, awaitsItem_firstItem slot⟩
  | item slot before =>
    obtain ⟨ht, rfl⟩ := takeItem_unsigned h hs
    exact ⟨ht, awaitsItem_item slot before⟩
  | nextItem slot before =>
    simp only [take] at h
    split at h
    · cases h
      cases hs
    · split at h
      · cases h
        cases hs
      · cases h
  | unsigned p' place =>
    obtain ⟨token, pos⟩ := t
    cases token with
    | number text =>
      cases h
      exact absurd hs (deliver_ne_unsigned _ _ _ _)
    | ident name =>
      cases h
      exact absurd hs (deliver_ne_unsigned _ _ _ _)
    | str value => cases h
    | punct c => cases h

theorem pos_of_takeItem (h : takeItem p t = .error problem) : problem.pos = t.pos := by
  unfold takeItem at h
  split at h
  · cases h
  · unfold takeScalar at h
    split at h
    · cases h
    · cases h
    · cases h
    · split at h
      · cases h
      · cases h
        rfl

theorem pos_of_takeField {around : Around} {before : List Field} {separator : Bool}
    (h : takeField around before separator t = .error problem) : problem.pos = t.pos := by
  unfold takeField at h
  split at h
  · cases h
  · split at h
    · cases h
    · split at h
      · cases h
      · cases h
        rfl
  · cases h
    rfl

/-- A token is refused at its own place. -/
theorem pos_of_take (h : e.take t = .error problem) : problem.pos = t.pos := by
  cases e with
  | field around before separator => exact pos_of_takeField h
  | colon slot =>
    simp only [take] at h
    split at h
    · cases h
    · split at h
      · cases h
      · cases h
        rfl
  | value slot =>
    simp only [take] at h
    split at h
    · cases h
    · exact pos_of_takeItem h
  | firstItem slot =>
    simp only [take] at h
    split at h
    · cases h
    · exact pos_of_takeItem h
  | item slot before => exact pos_of_takeItem h
  | nextItem slot before =>
    simp only [take] at h
    split at h
    · cases h
    · split at h
      · cases h
      · cases h
        rfl
  | unsigned p' place =>
    simp only [take, takeUnsigned] at h
    split at h
    · cases h
    · cases h
    · cases h
      rfl

end

/-- At the end of the text its place is reported, but for a minus sign that nothing follows. -/
theorem pos_of_finish {e : Expecting} {last : Pos} {p : Problem} (h : e.finish last = .error p) :
    p.pos = last ∨ ∃ place, e = .unsigned place p.pos := by
  cases e with
  | field around before separator =>
    cases around with
    | text => cases h
    | message =>
      cases h
      exact .inl rfl
  | unsigned place minus =>
    cases h
    exact .inr ⟨place, rfl⟩
  | _ =>
    cases h
    exact .inl rfl

end Expecting

namespace State

variable {s : State} {t : Placed} {ts : List Placed}

theorem pos_of_step {p : Problem} (h : s.step t = .error p) : p.pos = t.pos := by
  cases s with
  | «at» e => exact Expecting.pos_of_take h
  | inText place value =>
    obtain ⟨token, pos⟩ := t
    cases token with
    | str more => cases h
    | ident name => exact Expecting.pos_of_take h
    | number text => exact Expecting.pos_of_take h
    | punct c => exact Expecting.pos_of_take h

theorem step_unsigned {s' : State} {p : Place} {minus : Pos} (h : s.step t = .ok s')
    (hs : s'.next = .unsigned p minus) : t = mark '-' minus ∧ s.next.AwaitsItem p := by
  cases s with
  | «at» e => exact Expecting.take_unsigned h hs
  | inText place value =>
    obtain ⟨token, pos⟩ := t
    cases token with
    | str more =>
      cases h
      exact absurd hs (Expecting.deliver_ne_unsigned _ _ _ _)
    | ident name => exact Expecting.take_unsigned h hs
    | number text => exact Expecting.take_unsigned h hs
    | punct c => exact Expecting.take_unsigned h hs

/-- A run that fails stops at the first token that is refused. -/
theorem run_error {p : Problem} (h : s.run ts = .error p) :
    ∃ (k : Nat) (hk : k < ts.length) (s' : State),
      s.run (ts.take k) = .ok s' ∧ s'.step ts[k] = .error p := by
  induction ts generalizing s with
  | nil => cases h
  | cons t ts ih =>
    cases hstep : s.step t with
    | error p' =>
      rw [run, List.foldlM_cons, hstep] at h
      cases h
      exact ⟨0, by simp, s, rfl, hstep⟩
    | ok s₁ =>
      rw [run_cons hstep] at h
      obtain ⟨k, hk, s', hrun, hs'⟩ := ih h
      refine ⟨k + 1, by simpa using hk, s', ?_, by simpa using hs'⟩
      rw [List.take_succ_cons, run_cons hstep, hrun]

theorem fieldsOfTokens_eq (last : Pos) (ts : List Placed) :
    fieldsOfTokens last ts = State.start.run ts >>= fun s => s.next.finish last := rfl

/-- Tokens that are taken begin some that are read. -/
theorem viable_of_run (h : State.start.run ts = .ok s) : Viable ts := by
  obtain ⟨us, fs, separator, hruns⟩ := s.next.completes
  obtain ⟨s', hrun, hs'⟩ := hruns s rfl
  refine ⟨us, ⟨1, 1⟩, fs, ?_⟩
  rw [fieldsOfTokens_eq, run_append h, hrun]
  change s'.next.finish _ = _
  rw [hs']
  rfl

theorem not_viable_of_step {p : Problem} (h : State.start.run ts = .ok s)
    (ht : s.step t = .error p) : ¬ Viable (ts ++ [t]) := by
  rintro ⟨us, last, fs, hread⟩
  have hrun : State.start.run (ts ++ [t] ++ us) = .error p := by
    rw [List.append_assoc, run_append h, List.singleton_append, run, List.foldlM_cons, ht]
    rfl
  rw [fieldsOfTokens_eq, hrun] at hread
  cases hread

/-- Where an item is expected any scalar may stand. -/
theorem awaitsValue_of_run {p : Place} (h : State.start.run ts = .ok s)
    (hs : s.next.AwaitsItem p) : AwaitsValue ts := by
  intro d
  obtain ⟨s', hrun, -⟩ := d.runs hs s rfl
  have hall : State.start.run (ts ++ d.tokens) = .ok s' := by rw [run_append h, hrun]
  exact viable_of_run hall

end State

theorem Viable.of_append {ts us : List Placed} (h : Viable (ts ++ us)) : Viable ts := by
  obtain ⟨more, hmore⟩ := h
  exact ⟨us ++ more, by rwa [List.append_assoc] at hmore⟩

theorem Viable.unfinished {ts : List Placed} (h : Viable ts) (hts : ¬ Accepted ts) :
    Unfinished ts := by
  obtain ⟨us, hus⟩ := h
  refine ⟨us, ?_, hus⟩
  rintro rfl
  rw [List.append_nil] at hus
  exact hts hus

/-- A minus sign may stand where a value may start. -/
theorem AwaitsValue.minus {ts : List Placed} (h : AwaitsValue ts) (pos : Pos) :
    Viable (ts ++ [mark '-' pos]) := by
  have hnumber := h (.number (some pos) "0" pos)
  have htokens : ts ++ (ScalarTree.number (some pos) "0" pos).tokens =
      ts ++ [mark '-' pos] ++ [⟨.number "0", pos⟩] := by
    simp [ScalarTree.tokens, ScalarTree.minusTokens]
  rw [htokens] at hnumber
  exact hnumber.of_append

/-- The three ways to refuse tokens: at one of them, at their end, or at a minus sign that is the
last of them. -/
theorem fieldsOfTokens_error_cases {last : Pos} {ts : List Placed} {p : Problem}
    (h : fieldsOfTokens last ts = .error p) :
    (∃ (k : Nat) (hk : k < ts.length), p.pos = ts[k].pos ∧ Viable (ts.take k) ∧
      ¬ Viable (ts.take (k + 1))) ∨
    (p.pos = last ∧ Unfinished ts) ∨
    (∃ before, ts = before ++ [mark '-' p.pos] ∧ AwaitsValue before ∧ Viable before ∧
      Unfinished ts) := by
  have hreject : ¬ Accepted ts := by
    rw [accepted_iff last]
    rintro ⟨fs, hfs⟩
    rw [hfs] at h
    cases h
  rw [State.fieldsOfTokens_eq] at h
  cases hrun : State.start.run ts with
  | error p' =>
    rw [hrun] at h
    cases h
    obtain ⟨k, hk, s, hbefore, hstep⟩ := State.run_error hrun
    refine .inl ⟨k, hk, State.pos_of_step hstep, State.viable_of_run hbefore, ?_⟩
    rw [List.take_succ_eq_append_getElem hk]
    exact State.not_viable_of_step hbefore hstep
  | ok s =>
    rw [hrun] at h
    have hunfinished : Unfinished ts := (State.viable_of_run hrun).unfinished hreject
    rcases Expecting.pos_of_finish h with hlast | ⟨place, hs⟩
    · exact .inr (.inl ⟨hlast, hunfinished⟩)
    · refine .inr (.inr ?_)
      rcases List.eq_nil_or_concat ts with rfl | ⟨before, t, rfl⟩
      · cases hrun
        cases hs
      · rw [List.concat_eq_append] at hrun hunfinished ⊢
        cases hbefore : State.start.run before with
        | error p' =>
          rw [State.run, List.foldlM_append, ← State.run, hbefore] at hrun
          cases hrun
        | ok s₀ =>
          rw [State.run_append hbefore] at hrun
          cases hstep : s₀.step t with
          | error p' =>
            rw [State.run, List.foldlM_cons, hstep] at hrun
            cases hrun
          | ok s₁ =>
            rw [State.run_cons hstep] at hrun
            cases hrun
            obtain ⟨rfl, hitem⟩ := State.step_unsigned hstep hs
            exact ⟨before, rfl, State.awaitsValue_of_run hbefore hitem,
              State.viable_of_run hbefore, hunfinished⟩

/-- An error of structure is reported at the first offending token: the tokens in front of it begin
a text that is read, and with it they do not. Only a minus sign that is the last token and stands
where a value may start is reported although more could follow. An error at the end of the text
tells that more must follow. -/
theorem error_at_first_offender {last : Pos} {ts : List Placed} {p : Problem}
    (hpos : (ts.map (·.pos)).Nodup) (hlast : last ∉ ts.map (·.pos))
    (h : fieldsOfTokens last ts = .error p) :
    (p.pos = last ∨ ∃ t ∈ ts, p.pos = t.pos) ∧
    (∀ (k : Nat) (hk : k < ts.length), p.pos = ts[k].pos → Viable (ts.take k) ∧
      (¬(ts[k].token = .punct '-' ∧ k + 1 = ts.length ∧ AwaitsValue (ts.take k)) →
        ¬ Viable (ts.take (k + 1))) ∧
      (ts[k].token = .punct '-' ∧ k + 1 = ts.length ∧ AwaitsValue (ts.take k) →
        Unfinished ts)) ∧
    (p.pos = last → Unfinished ts) := by
  have hmem {k : Nat} (hk : k < ts.length) : ts[k].pos ∈ ts.map (·.pos) :=
    List.mem_map_of_mem (List.getElem_mem hk)
  -- The places tell the tokens apart.
  have hinj {j k : Nat} (hj : j < ts.length) (hk : k < ts.length)
      (heq : ts[j].pos = ts[k].pos) : j = k := by
    have hjmap : j < (ts.map Placed.pos).length := by simpa
    have hkmap : k < (ts.map Placed.pos).length := by simpa
    have hget : (ts.map Placed.pos)[j] = (ts.map Placed.pos)[k] := by simpa using heq
    exact hpos.getElem_inj_iff.1 hget
  rcases fieldsOfTokens_error_cases h with ⟨j, hj, hp, hbefore, hnot⟩ | ⟨hp, hmore⟩ |
    ⟨before, hts, hvalue, hbefore, hmore⟩
  · refine ⟨.inr ⟨ts[j], List.getElem_mem hj, hp⟩, fun k hk hpk => ?_, fun hl => ?_⟩
    · obtain rfl := hinj hj hk (hp.symm.trans hpk)
      refine ⟨hbefore, fun _ => hnot, ?_⟩
      rintro ⟨hminus, -, hawaits⟩
      have htake := hawaits.minus ts[j].pos
      have hmark : mark '-' ts[j].pos = ts[j] := by rw [mark, ← hminus]
      rw [hmark, ← List.take_succ_eq_append_getElem hj] at htake
      exact absurd htake hnot
    · exact absurd (hl ▸ hp ▸ hmem hj) hlast
  · refine ⟨.inl hp, fun k hk hpk => ?_, fun _ => hmore⟩
    exact absurd (hp ▸ hpk ▸ hmem hk) hlast
  · have hlength : before.length < ts.length := by simp [hts]
    have hend : ts[before.length] = mark '-' p.pos := by simp [hts]
    have htake : ts.take before.length = before := by simp [hts]
    refine ⟨.inr ⟨_, List.getElem_mem hlength, by rw [hend]; rfl⟩, fun k hk hpk => ?_, fun _ => hmore⟩
    have hk' : before.length = k := by
      refine hinj hlength hk ?_
      rw [hend]
      exact hpk
    subst hk'
    rw [htake]
    refine ⟨hbefore, fun hnot => ?_, fun _ => hmore⟩
    refine absurd ⟨?_, ?_, hvalue⟩ hnot
    · rw [hend]
      rfl
    · simp [hts]

/-- A list that a brace ends. -/
def openList : List Placed :=
  [⟨.ident "a", ⟨1, 1⟩⟩, mark ':' ⟨1, 2⟩, mark '[' ⟨1, 3⟩, ⟨.number "1", ⟨1, 4⟩⟩, mark '\x7d' ⟨1, 5⟩]

/-- A minus sign that nothing follows. -/
def loneMinus : List Placed := [⟨.ident "a", ⟨1, 1⟩⟩, mark ':' ⟨1, 2⟩, mark '-' ⟨1, 3⟩]

theorem error_at_first_offender_openList :
    ((openList.map (·.pos)).Nodup ∧ ⟨1, 6⟩ ∉ openList.map (·.pos) ∧
      fieldsOfTokens ⟨1, 6⟩ openList = .error ⟨⟨1, 5⟩, .noListSeparator⟩ ∧
      Viable (openList.take 4) ∧ ¬ Viable openList) ∧
    ((loneMinus.map (·.pos)).Nodup ∧ ⟨1, 4⟩ ∉ loneMinus.map (·.pos) ∧
      fieldsOfTokens ⟨1, 4⟩ loneMinus = .error ⟨⟨1, 3⟩, .noValue⟩ ∧
      AwaitsValue (loneMinus.take 2) ∧ Unfinished loneMinus) := by
  have hopen : fieldsOfTokens ⟨1, 6⟩ openList = .error ⟨⟨1, 5⟩, .noListSeparator⟩ := rfl
  have hminus : fieldsOfTokens ⟨1, 4⟩ loneMinus = .error ⟨⟨1, 3⟩, .noValue⟩ := rfl
  have hawaits : AwaitsValue (loneMinus.take 2) :=
    State.awaitsValue_of_run rfl (Expecting.awaitsItem_value ⟨.text, [], "a", ⟨1, 1⟩⟩)
  have hbrace := (error_at_first_offender (by decide) (by decide) hopen).2.1 4 (by decide) rfl
  have hsign := (error_at_first_offender (by decide) (by decide) hminus).2.1 2 (by decide) rfl
  refine ⟨⟨by decide, by decide, hopen, hbrace.1, hbrace.2.1 ?_⟩,
    by decide, by decide, hminus, hawaits, hsign.2.2 ⟨rfl, rfl, hawaits⟩⟩
  rintro ⟨h, -⟩
  cases h

end OpStubs.TextFormat
