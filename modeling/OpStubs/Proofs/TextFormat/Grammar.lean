import OpStubs.Proofs.TextFormat.Closing

namespace OpStubs.TextFormat

/-- Whether no string goes on. -/
def NoString (ts : List Placed) : Prop := ∀ t ∈ ts.head?, ∀ s, t.token ≠ .str s

/-- Whether fields end. -/
def EndsFields (ts : List Placed) : Prop :=
  ∀ t ∈ ts.head?, ∃ b : Bracket, t.token = .punct b.closing

theorem noString_cons {t : Placed} (h : ∀ s, t.token ≠ .str s) (ts : List Placed) :
    NoString (t :: ts) := by
  intro u hu
  obtain rfl : t = u := by simpa using hu
  exact h

theorem noString_mark (c : Char) (pos : Pos) (ts : List Placed) : NoString (mark c pos :: ts) :=
  noString_cons (by simp [mark]) ts

theorem endsFields_nil : EndsFields [] := by
  intro t ht
  cases ht

theorem endsFields_closing (b : Bracket) (pos : Pos) (ts : List Placed) :
    EndsFields (mark b.closing pos :: ts) := by
  intro t ht
  obtain rfl : mark b.closing pos = t := by simpa using ht
  exact ⟨b, rfl⟩

theorem EndsFields.noString {ts : List Placed} (h : EndsFields ts) : NoString ts := by
  intro t ht s hs
  obtain ⟨b, hb⟩ := h t ht
  rw [hs] at hb
  cases hb

theorem mark_inj {c c' : Char} {pos pos' : Pos} : mark c pos = mark c' pos' ↔ c = c' ∧ pos = pos' := by
  simp [mark]

theorem Bracket.opening_inj {b b' : Bracket} (h : b.opening = b'.opening) : b = b' := by
  cases b <;> cases b' <;> simp_all [opening]

theorem Bracket.opening_ne (b : Bracket) : b.opening ≠ ':' ∧ b.opening ≠ '[' ∧ b.opening ≠ '-' ∧
    b.opening ≠ ']' := by
  cases b <;> decide

theorem Separator.char_inj {s s' : Separator} (h : s.char = s'.char) : s = s' := by
  cases s <;> cases s' <;> simp_all [char]

theorem Separator.char_ne_closing (s : Separator) (b : Bracket) : s.char ≠ b.closing := by
  cases s <;> cases b <;> decide

theorem FieldTree.tokens_eq_cons (d : FieldTree) :
    ∃ name pos ts, d.tokens = ⟨.ident name, pos⟩ :: ts := by
  cases d with
  | message name pos colon value => exact ⟨name, pos, _, rfl⟩
  | scalar name pos colon value => exact ⟨name, pos, _, rfl⟩
  | emptyList name pos colon opening closing => exact ⟨name, pos, _, rfl⟩
  | list name pos colon opening first more closing => exact ⟨name, pos, _, rfl⟩

theorem MessageTree.tokens_eq_cons (d : MessageTree) :
    ∃ (b : Bracket) (pos : Pos) (ts : List Placed), d.tokens = mark b.opening pos :: ts := by
  cases d with
  | mk bracket opening fields closing => exact ⟨bracket, opening, _, rfl⟩

theorem ScalarTree.tokens_eq_cons (d : ScalarTree) :
    ∃ t ts, d.tokens = t :: ts ∧ ∀ c, t.token = .punct c → c = '-' := by
  cases d with
  | str first pos more => exact ⟨_, _, rfl, by simp⟩
  | number minus text pos =>
    cases minus with
    | none => exact ⟨_, _, rfl, by simp⟩
    | some place => exact ⟨_, _, rfl, by simp [mark]⟩
  | ident minus name pos =>
    cases minus with
    | none => exact ⟨_, _, rfl, by simp⟩
    | some place => exact ⟨_, _, rfl, by simp [mark]⟩

/-- No message begins like a scalar. -/
theorem MessageTree.tokens_ne_scalar (d : MessageTree) (d' : ScalarTree) (r r' : List Placed) :
    d.tokens ++ r ≠ d'.tokens ++ r' := by
  obtain ⟨b, pos, ts, hd⟩ := d.tokens_eq_cons
  obtain ⟨t, ts', hd', ht⟩ := d'.tokens_eq_cons
  intro h
  rw [hd, hd', List.cons_append, List.cons_append, List.cons.injEq] at h
  exact b.opening_ne.2.2.1 (ht b.opening (by rw [← h.1]; rfl))

/-- No scalar begins with a bracket. -/
theorem ScalarTree.tokens_ne_mark (d : ScalarTree) {c : Char} (hc : c ≠ '-') (pos : Pos)
    (r r' : List Placed) : d.tokens ++ r ≠ mark c pos :: r' := by
  obtain ⟨t, ts, hd, ht⟩ := d.tokens_eq_cons
  intro h
  rw [hd, List.cons_append, List.cons.injEq] at h
  exact hc (ht c (by rw [h.1]; rfl))

theorem MessageTree.tokens_ne_mark (d : MessageTree) {c : Char} (hc : ∀ b : Bracket, b.opening ≠ c)
    (pos : Pos) (r r' : List Placed) : d.tokens ++ r ≠ mark c pos :: r' := by
  obtain ⟨b, place, ts, hd⟩ := d.tokens_eq_cons
  intro h
  rw [hd, List.cons_append, List.cons.injEq, mark_inj] at h
  exact hc b h.1.1

theorem ItemTree.tokens_ne_close (d : ItemTree) (pos : Pos) (r r' : List Placed) :
    d.tokens ++ r ≠ mark ']' pos :: r' := by
  cases d with
  | message d => exact d.tokens_ne_mark (fun b => b.opening_ne.2.2.2) pos r r'
  | scalar d => exact d.tokens_ne_mark (by decide) pos r r'

theorem ScalarTree.strTokens_unique {more more' : List (String × Pos)} {r r' : List Placed}
    (h : strTokens more ++ r = strTokens more' ++ r') (hr : NoString r) (hr' : NoString r') :
    more = more' ∧ r = r' := by
  have hno {s : String × Pos} {rest ts : List Placed} (hts : NoString ts)
      (heq : ts = ⟨.str s.1, s.2⟩ :: rest) : False := by
    rw [heq] at hts
    exact hts _ rfl _ rfl
  induction more generalizing more' with
  | nil =>
    cases more' with
    | nil => exact ⟨rfl, h⟩
    | cons s more' => exact (hno hr h).elim
  | cons s more ih =>
    cases more' with
    | nil => exact (hno hr' h.symm).elim
    | cons s' more' =>
      obtain ⟨a, p⟩ := s
      obtain ⟨a', p'⟩ := s'
      simp only [strTokens, List.map_cons, List.cons_append, List.cons.injEq, Placed.mk.injEq,
        Token.str.injEq] at h
      obtain ⟨⟨rfl, rfl⟩, hmore⟩ := h
      obtain ⟨rfl, rfl⟩ := ih hmore
      exact ⟨rfl, rfl⟩

theorem ScalarTree.unique {d d' : ScalarTree} {r r' : List Placed}
    (h : d.tokens ++ r = d'.tokens ++ r') (hr : NoString r) (hr' : NoString r') :
    d = d' ∧ r = r' := by
  cases d with
  | str first pos more =>
    cases d' with
    | str first' pos' more' =>
      simp only [tokens, List.cons_append, List.cons.injEq, Placed.mk.injEq, Token.str.injEq] at h
      obtain ⟨⟨rfl, rfl⟩, hmore⟩ := h
      obtain ⟨rfl, rfl⟩ := strTokens_unique hmore hr hr'
      exact ⟨rfl, rfl⟩
    | number minus' text' pos' => cases minus' <;> simp [tokens, minusTokens, mark] at h
    | ident minus' name' pos' => cases minus' <;> simp [tokens, minusTokens, mark] at h
  | number minus text pos =>
    cases d' with
    | str first' pos' more' => cases minus <;> simp [tokens, minusTokens, mark] at h
    | number minus' text' pos' =>
      cases minus <;> cases minus' <;> simp_all [tokens, minusTokens, mark]
    | ident minus' name' pos' => cases minus <;> cases minus' <;> simp [tokens, minusTokens, mark] at h
  | ident minus name pos =>
    cases d' with
    | str first' pos' more' => cases minus <;> simp [tokens, minusTokens, mark] at h
    | number minus' text' pos' =>
      cases minus <;> cases minus' <;> simp [tokens, minusTokens, mark] at h
    | ident minus' name' pos' =>
      cases minus <;> cases minus' <;> simp_all [tokens, minusTokens, mark]

theorem separator_unique {separator separator' : Option (Separator × Pos)} {r r' : List Placed}
    (h : separatorTokens separator ++ r = separatorTokens separator' ++ r')
    (hr : ∀ (s : Separator) (pos : Pos) (ts : List Placed), r ≠ mark s.char pos :: ts)
    (hr' : ∀ (s : Separator) (pos : Pos) (ts : List Placed), r' ≠ mark s.char pos :: ts) :
    separator = separator' ∧ r = r' := by
  cases separator with
  | none =>
    cases separator' with
    | none => exact ⟨rfl, h⟩
    | some s => exact absurd h (hr s.1 s.2 r')
  | some s =>
    cases separator' with
    | none => exact absurd h.symm (hr' s.1 s.2 r)
    | some s' =>
      obtain ⟨s, pos⟩ := s
      obtain ⟨s', pos'⟩ := s'
      simp only [separatorTokens, Option.toList_some, List.map_cons, List.map_nil,
        List.cons_append, List.nil_append, List.cons.injEq, mark_inj] at h
      obtain ⟨⟨hs, rfl⟩, rfl⟩ := h
      obtain rfl := Separator.char_inj hs
      exact ⟨rfl, rfl⟩

/-- Behind the separator of a field no other one stands. -/
theorem FieldsTree.tokens_ne_separator (d : FieldsTree) {r : List Placed} (hr : EndsFields r)
    (s : Separator) (pos : Pos) (ts : List Placed) : d.tokens ++ r ≠ mark s.char pos :: ts := by
  intro h
  cases d with
  | nil =>
    rw [tokens, List.nil_append] at h
    obtain ⟨b, hb⟩ := hr (mark s.char pos) (by simp [h])
    exact s.char_ne_closing b (Token.punct.inj hb)
  | cons field separator rest =>
    obtain ⟨name, place, us, hfield⟩ := field.tokens_eq_cons
    rw [tokens, hfield] at h
    simp [mark] at h

theorem FieldsTree.noString (d : FieldsTree) {r : List Placed} (hr : EndsFields r) :
    NoString (d.tokens ++ r) := by
  cases d with
  | nil => exact hr.noString
  | cons field separator rest =>
    obtain ⟨name, place, us, hfield⟩ := field.tokens_eq_cons
    rw [tokens, hfield]
    exact noString_cons (by simp) _

theorem noString_separator (separator : Option (Separator × Pos)) {ts : List Placed}
    (h : NoString ts) : NoString (separatorTokens separator ++ ts) := by
  cases separator with
  | none => exact h
  | some s => exact noString_mark _ _ _

theorem ItemsTree.noString (d : ItemsTree) (pos : Pos) (r : List Placed) :
    NoString (d.tokens ++ mark ']' pos :: r) := by
  cases d with
  | nil => exact noString_mark _ _ _
  | cons comma item rest => exact noString_mark _ _ _

/-- Behind the colon of a field that is no message, no message begins. -/
theorem FieldTree.message_tokens_ne {name name' : String} {pos pos' colon' : Pos}
    {colon : Option Pos} {value : MessageTree} {r us : List Placed}
    (hus : ∀ (b : Bracket) (pos : Pos) (ts : List Placed), us ≠ mark b.opening pos :: ts) :
    (FieldTree.message name pos colon value).tokens ++ r ≠
      ⟨.ident name', pos'⟩ :: mark ':' colon' :: us := by
  obtain ⟨b, place, ts, hvalue⟩ := value.tokens_eq_cons
  intro h
  rw [tokens, hvalue] at h
  cases colon with
  | none =>
    simp only [colonTokens, Option.toList_none, List.map_nil, List.nil_append, List.cons_append,
      List.cons.injEq, mark_inj] at h
    exact b.opening_ne.1 h.2.1.1
  | some colon =>
    simp only [colonTokens, Option.toList_some, List.map_cons, List.map_nil, List.cons_append,
      List.nil_append, List.cons.injEq] at h
    exact hus b place _ h.2.2.symm

theorem FieldTree.message_ne_scalar {name name' : String} {pos pos' colon' : Pos}
    {colon : Option Pos} {value : MessageTree} {value' : ScalarTree} {r r' : List Placed} :
    (FieldTree.message name pos colon value).tokens ++ r ≠
      (FieldTree.scalar name' pos' colon' value').tokens ++ r' :=
  message_tokens_ne fun b pos ts => value'.tokens_ne_mark b.opening_ne.2.2.1 pos r' ts

theorem FieldTree.message_ne_bracket {name name' : String} {pos pos' colon' opening : Pos}
    {colon : Option Pos} {value : MessageTree} {r us : List Placed} :
    (FieldTree.message name pos colon value).tokens ++ r ≠
      ⟨.ident name', pos'⟩ :: mark ':' colon' :: mark '[' opening :: us := by
  refine message_tokens_ne fun b pos ts h => ?_
  rw [List.cons.injEq, mark_inj] at h
  exact b.opening_ne.2.1 h.1.1.symm

theorem FieldTree.scalar_ne_bracket {name name' : String} {pos pos' colon colon' opening : Pos}
    {value : ScalarTree} {r us : List Placed} :
    (FieldTree.scalar name pos colon value).tokens ++ r ≠
      ⟨.ident name', pos'⟩ :: mark ':' colon' :: mark '[' opening :: us := by
  intro h
  rw [tokens, List.cons_append, List.cons_append, List.cons.injEq, List.cons.injEq] at h
  exact value.tokens_ne_mark (by decide) opening r us h.2.2

theorem FieldTree.emptyList_ne_list {name name' : String}
    {pos pos' colon colon' opening opening' closing closing' : Pos} {first : ItemTree}
    {more : ItemsTree} {r r' : List Placed} :
    (FieldTree.emptyList name pos colon opening closing).tokens ++ r ≠
      (FieldTree.list name' pos' colon' opening' first more closing').tokens ++ r' := by
  intro h
  simp only [tokens, List.cons_append, List.append_assoc, List.nil_append, List.cons.injEq] at h
  exact first.tokens_ne_close closing _ _ h.2.2.2.symm

mutual

theorem FieldsTree.unique {d d' : FieldsTree} {r r' : List Placed}
    (h : d.tokens ++ r = d'.tokens ++ r') (hr : EndsFields r) (hr' : EndsFields r') :
    d = d' ∧ r = r' := by
  have hend {d : FieldsTree} {field : FieldTree} {separator : Option (Separator × Pos)}
      {r r' : List Placed} (hr : EndsFields r)
      (h : r = (FieldsTree.cons field separator d).tokens ++ r') : False := by
    obtain ⟨name, pos, ts, hfield⟩ := field.tokens_eq_cons
    rw [FieldsTree.tokens, hfield] at h
    obtain ⟨b, hb⟩ := hr ⟨.ident name, pos⟩ (by simp [h])
    cases hb
  match d, d' with
  | .nil, .nil => exact ⟨rfl, h⟩
  | .nil, .cons field' separator' rest' => exact (hend hr h).elim
  | .cons field separator rest, .nil => exact (hend hr' h.symm).elim
  | .cons field separator rest, .cons field' separator' rest' =>
    rw [FieldsTree.tokens, FieldsTree.tokens, List.append_assoc, List.append_assoc,
      List.append_assoc, List.append_assoc] at h
    obtain ⟨hfield, htail⟩ := FieldTree.unique h
      (noString_separator separator (rest.noString hr))
      (noString_separator separator' (rest'.noString hr'))
    obtain ⟨hseparator, hrest⟩ := separator_unique htail (rest.tokens_ne_separator hr)
      (rest'.tokens_ne_separator hr')
    obtain ⟨hfields, htokens⟩ := FieldsTree.unique hrest hr hr'
    exact ⟨by rw [hfield, hseparator, hfields], htokens⟩

theorem FieldTree.unique {d d' : FieldTree} {r r' : List Placed}
    (h : d.tokens ++ r = d'.tokens ++ r') (hr : NoString r) (hr' : NoString r') :
    d = d' ∧ r = r' := by
  match d, d' with
  | .message name pos colon value, .message name' pos' colon' value' =>
    simp only [FieldTree.tokens, List.cons_append, List.append_assoc, List.cons.injEq,
      Placed.mk.injEq, Token.ident.injEq] at h
    obtain ⟨⟨rfl, rfl⟩, hrest⟩ := h
    -- The colon in front of a message may be missing, but a message does not begin with one.
    have hcolon (d d' : MessageTree) (colon : Pos) (r r' : List Placed) :
        d.tokens ++ r ≠ mark ':' colon :: (d'.tokens ++ r') :=
      d.tokens_ne_mark (fun b => b.opening_ne.1) colon r _
    cases colon with
    | none =>
      cases colon' with
      | none =>
        simp only [colonTokens, Option.toList_none, List.map_nil, List.nil_append] at hrest
        obtain ⟨hvalue, htail⟩ := MessageTree.unique hrest
        exact ⟨by rw [hvalue], htail⟩
      | some colon' => exact absurd hrest (hcolon value value' colon' r r')
    | some colon =>
      cases colon' with
      | none => exact absurd hrest.symm (hcolon value' value colon r' r)
      | some colon' =>
        simp only [colonTokens, Option.toList_some, List.map_cons, List.map_nil, List.cons_append,
          List.nil_append, List.cons.injEq, mark_inj] at hrest
        obtain ⟨⟨-, rfl⟩, hrest⟩ := hrest
        obtain ⟨hvalue, htail⟩ := MessageTree.unique hrest
        exact ⟨by rw [hvalue], htail⟩
  | .scalar name pos colon value, .scalar name' pos' colon' value' =>
    simp only [FieldTree.tokens, List.cons_append, List.cons.injEq, Placed.mk.injEq,
      Token.ident.injEq, mark_inj] at h
    obtain ⟨⟨rfl, rfl⟩, ⟨-, rfl⟩, hvalue⟩ := h
    obtain ⟨rfl, rfl⟩ := ScalarTree.unique hvalue hr hr'
    exact ⟨rfl, rfl⟩
  | .emptyList name pos colon opening closing, .emptyList name' pos' colon' opening' closing' =>
    simp only [FieldTree.tokens, List.cons_append, List.nil_append, List.cons.injEq,
      Placed.mk.injEq, Token.ident.injEq, mark_inj] at h
    obtain ⟨⟨rfl, rfl⟩, ⟨-, rfl⟩, ⟨-, rfl⟩, ⟨-, rfl⟩, rfl⟩ := h
    exact ⟨rfl, rfl⟩
  | .list name pos colon opening first more closing,
      .list name' pos' colon' opening' first' more' closing' =>
    simp only [FieldTree.tokens, List.cons_append, List.append_assoc, List.nil_append,
      List.cons.injEq, Placed.mk.injEq, Token.ident.injEq, mark_inj] at h
    obtain ⟨⟨rfl, rfl⟩, ⟨-, rfl⟩, ⟨-, rfl⟩, hitems⟩ := h
    obtain ⟨hfirst, htail⟩ := ItemTree.unique hitems (more.noString closing r)
      (more'.noString closing' r')
    obtain ⟨hmore, rfl, rfl⟩ := ItemsTree.unique htail
    exact ⟨by rw [hfirst, hmore], rfl⟩
  | .message .., .scalar .. => exact absurd h FieldTree.message_ne_scalar
  | .message .., .emptyList .. => exact absurd h FieldTree.message_ne_bracket
  | .message .., .list .. => exact absurd h FieldTree.message_ne_bracket
  | .scalar .., .message .. => exact absurd h.symm FieldTree.message_ne_scalar
  | .scalar .., .emptyList .. => exact absurd h FieldTree.scalar_ne_bracket
  | .scalar .., .list .. => exact absurd h FieldTree.scalar_ne_bracket
  | .emptyList .., .message .. => exact absurd h.symm FieldTree.message_ne_bracket
  | .emptyList .., .scalar .. => exact absurd h.symm FieldTree.scalar_ne_bracket
  | .emptyList .., .list .. => exact absurd h FieldTree.emptyList_ne_list
  | .list .., .message .. => exact absurd h.symm FieldTree.message_ne_bracket
  | .list .., .scalar .. => exact absurd h.symm FieldTree.scalar_ne_bracket
  | .list .., .emptyList .. => exact absurd h.symm FieldTree.emptyList_ne_list

theorem MessageTree.unique {d d' : MessageTree} {r r' : List Placed}
    (h : d.tokens ++ r = d'.tokens ++ r') : d = d' ∧ r = r' := by
  match d, d' with
  | .mk b opening fields closing, .mk b' opening' fields' closing' =>
    simp only [MessageTree.tokens, List.cons_append, List.append_assoc, List.nil_append,
      List.cons.injEq, mark_inj] at h
    obtain ⟨⟨hb, rfl⟩, hinside⟩ := h
    obtain rfl := Bracket.opening_inj hb
    obtain ⟨hfields, htail⟩ := FieldsTree.unique hinside (endsFields_closing b closing r)
      (endsFields_closing b closing' r')
    rw [List.cons.injEq, mark_inj] at htail
    obtain ⟨⟨-, rfl⟩, rfl⟩ := htail
    exact ⟨by rw [hfields], rfl⟩

theorem ItemTree.unique {d d' : ItemTree} {r r' : List Placed}
    (h : d.tokens ++ r = d'.tokens ++ r') (hr : NoString r) (hr' : NoString r') :
    d = d' ∧ r = r' := by
  match d, d' with
  | .message value, .message value' =>
    simp only [ItemTree.tokens] at h
    obtain ⟨hvalue, htail⟩ := MessageTree.unique h
    exact ⟨by rw [hvalue], htail⟩
  | .message value, .scalar value' => exact absurd h (value.tokens_ne_scalar value' r r')
  | .scalar value, .message value' => exact absurd h.symm (value'.tokens_ne_scalar value r' r)
  | .scalar value, .scalar value' =>
    simp only [ItemTree.tokens] at h
    obtain ⟨hvalue, htail⟩ := ScalarTree.unique h hr hr'
    exact ⟨by rw [hvalue], htail⟩

theorem ItemsTree.unique {d d' : ItemsTree} {pos pos' : Pos} {r r' : List Placed}
    (h : d.tokens ++ mark ']' pos :: r = d'.tokens ++ mark ']' pos' :: r') :
    d = d' ∧ pos = pos' ∧ r = r' := by
  match d, d' with
  | .nil, .nil =>
    simp only [ItemsTree.tokens, List.nil_append, List.cons.injEq, mark_inj] at h
    exact ⟨rfl, h.1.2, h.2⟩
  | .nil, .cons comma' item' rest' => simp [ItemsTree.tokens, mark] at h
  | .cons comma item rest, .nil => simp [ItemsTree.tokens, mark] at h
  | .cons comma item rest, .cons comma' item' rest' =>
    simp only [ItemsTree.tokens, List.cons_append, List.append_assoc, List.cons.injEq,
      mark_inj] at h
    obtain ⟨⟨-, rfl⟩, htail⟩ := h
    obtain ⟨hitem, htail⟩ := ItemTree.unique htail (rest.noString pos r) (rest'.noString pos' r')
    obtain ⟨hrest, hpos, htokens⟩ := ItemsTree.unique htail
    exact ⟨by rw [hitem, hrest], hpos, htokens⟩

end

theorem FieldsTree.eq_of_tokens_eq {d d' : FieldsTree} (h : d.tokens = d'.tokens) : d = d' :=
  (FieldsTree.unique (congrArg (· ++ []) h) endsFields_nil endsFields_nil).1

/-- Tokens are read exactly if the grammar derives them. There is one derivation then, and the
fields that it means are the answer. -/
theorem fieldsOfTokens_iff_derived (last : Pos) (ts : List Placed) :
    (∀ fs, fieldsOfTokens last ts = .ok fs ↔
      ∃ d : FieldsTree, d.fields = fs ∧ ∀ d' : FieldsTree, d'.tokens = ts ↔ d' = d) ∧
    ((∃ p, fieldsOfTokens last ts = .error p) ↔ ∀ d : FieldsTree, d.tokens ≠ ts) := by
  have hderived {d : FieldsTree} (hd : d.tokens = ts) : fieldsOfTokens last ts = .ok d.fields :=
    hd ▸ fieldsOfTokens_tokens last d
  refine ⟨fun fs => ⟨fun h => ?_, fun h => ?_⟩, fun h d hd => ?_, fun h => ?_⟩
  · obtain ⟨d, rfl, hfields⟩ := exists_derivation_of_fieldsOfTokens h
    refine ⟨d, hfields, fun d' => ⟨FieldsTree.eq_of_tokens_eq, ?_⟩⟩
    intro hd
    rw [hd]
  · obtain ⟨d, rfl, hd⟩ := h
    exact hderived ((hd d).2 rfl)
  · obtain ⟨p, hp⟩ := h
    rw [hderived hd] at hp
    cases hp
  · cases hread : fieldsOfTokens last ts with
    | error p => exact ⟨p, rfl⟩
    | ok fs =>
      obtain ⟨d, hd, -⟩ := exists_derivation_of_fieldsOfTokens hread
      exact absurd hd.symm (h d)

end OpStubs.TextFormat
