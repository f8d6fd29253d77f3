import OpStubs.Proofs.Lua.PrintScan

namespace OpStubs.Lua

/-- How tightly the operator of an expression holds its operands. -/
def Expr.rank (e : Expr) : Nat := e.operator?.elim 9 fun op => op.operator.left

theorem Expr.rank_pos (e : Expr) : 0 < e.rank := by
  rw [Expr.rank]
  rcases e.operator? with _ | _ | _
  · decide
  · decide
  · decide

theorem Expr.rank_of_operator {e : Expr} (h : e.operator? = none) : e.rank = 9 := by
  rw [Expr.rank, h]
  rfl

theorem Expr.three_le_rank {e : Expr} (h : e.operator? ≠ some .or) : 3 ≤ e.rank := by
  rw [Expr.rank]
  rcases he : e.operator? with _ | _ | _
  · decide
  · decide
  · exact absurd he h

/-- An operand of a safe expression holds its own operands more tightly. On the left it may hold
them as tightly. -/
theorem Expr.rank_operands {left right : Expr} {op : BinaryOp}
    (h : (Expr.binary left op right).Safe) :
    op.operator.left ≤ left.rank ∧ op.operator.left < right.rank := by
  cases op with
  | eq =>
    obtain ⟨hl, hor, heq, -⟩ := h
    refine ⟨Expr.three_le_rank hl, ?_⟩
    have hnone : right.operator? = none := by
      rcases hr : right.operator? with _ | _ | _
      · rfl
      · exact absurd hr heq
      · exact absurd hr hor
    rw [Expr.rank_of_operator hnone]
    decide
  | or =>
    have hr := Expr.three_le_rank h.1
    exact ⟨left.rank_pos, Nat.lt_of_lt_of_le (by decide) hr⟩

/-- How the tokens of an expression are read, whatever follows them. -/
structure Expr.Parses (e : Expr) : Prop where
  primary : e.isPrefix = true → ∀ rest, primary? (e.tokens ++ rest) = suffixes? e.exp rest
  subexpr : ∀ {limit rest}, limit < e.rank → Follows (min e.rank 8) rest →
    subexpr? limit (e.tokens ++ rest) = operators? limit e.exp rest

theorem Expr.tokens_of_isPrefix : (e : Expr) → e.isPrefix = true → e.Safe →
    ∃ n r, e.tokens = .name n :: r
  | .ident n, _, _ => ⟨n, [], rfl⟩
  | .call callee args, _, h => by
    obtain ⟨n, r, hr⟩ := Expr.tokens_of_isPrefix callee h.1 h.2.1
    exact ⟨n, _, by rw [Expr.tokens, hr, List.cons_append]⟩
  | .method object name args, _, h => by
    obtain ⟨n, r, hr⟩ := Expr.tokens_of_isPrefix object h.1 h.2.1
    exact ⟨n, _, by rw [Expr.tokens, hr, List.cons_append]⟩
  | .member object field, _, h => by
    obtain ⟨n, r, hr⟩ := Expr.tokens_of_isPrefix object h.1 h.2.1
    exact ⟨n, _, by rw [Expr.tokens, hr, List.cons_append]⟩
  | .index object key, _, h => by
    obtain ⟨n, r, hr⟩ := Expr.tokens_of_isPrefix object h.1 h.2.1
    exact ⟨n, _, by rw [Expr.tokens, hr, List.cons_append]⟩

namespace Expr.Parses

theorem of_primary {e : Expr} (he : e.isPrefix = true) (hs : e.Safe)
    (h : ∀ rest, primary? (e.tokens ++ rest) = suffixes? e.exp rest) : e.Parses where
  primary := fun _ => h
  subexpr := by
    intro limit rest _ hf
    obtain ⟨n, r, hr⟩ := Expr.tokens_of_isPrefix e he hs
    have hsimple := h rest
    rw [suffixes_of_follows hf, hr, List.cons_append, ← simple_name] at hsimple
    rw [hr, List.cons_append]
    refine subexpr_simple rfl hsimple ?_
    rw [List.length_append]
    omega

/-- An expression that no call or index may be applied to. -/
theorem of_subexpr {e : Expr} (he : e.isPrefix = false)
    (h : ∀ limit rest, limit < e.rank → Follows (min e.rank 8) rest →
      subexpr? limit (e.tokens ++ rest) = operators? limit e.exp rest) : e.Parses where
  primary := fun hp => absurd (he.symm.trans hp) (by decide)
  subexpr := fun {limit rest} => h limit rest

theorem reads {e : Expr} (h : e.Parses) : Reads e.tokens e.exp where
  ne_nil := by
    intro hnil
    have hread := h.subexpr e.rank_pos (Literal.follows_nil _)
    rw [hnil, List.append_nil, subexpr?, operators?] at hread
    cases hread
  subexpr_append := by
    intro rest hf
    rw [h.subexpr e.rank_pos (hf.mono (Nat.zero_le _)), operators_of_follows hf]

end Expr.Parses

theorem BinaryOp.binary_token (op : BinaryOp) : op.token.binary? = some op.operator := by
  cases op with
  | eq => rfl
  | or => rfl

theorem BinaryOp.right_operator (op : BinaryOp) : op.operator.right = op.operator.left := by
  cases op with
  | eq => rfl
  | or => rfl

theorem follows_operator (op : BinaryOp) {limit : Nat} (h : op.operator.left ≤ limit)
    (r : List Token) : Follows limit (op.token :: r) := by
  refine follows_cons ?_ ?_
  · cases op with
    | eq => rfl
    | or => rfl
  · intro op' h'
    rw [op.binary_token] at h'
    cases h'
    exact h

theorem follows_bracket (r : List Token) : Follows 0 (.symbol "]" :: r) :=
  follows_cons rfl (by intro op h; cases h)

theorem Expr.subexpr_binary {left right : Expr} {op : BinaryOp}
    (hs : (Expr.binary left op right).Safe) (hl : left.Parses) (hr : right.Parses) {limit : Nat}
    {rest : List Token} (hlimit : limit < op.operator.left) (hf : Follows op.operator.left rest) :
    subexpr? limit ((Expr.binary left op right).tokens ++ rest) =
      operators? limit (Expr.binary left op right).exp rest := by
  obtain ⟨hleft, hright⟩ := Expr.rank_operands hs
  have hop : op.operator.left ≤ 8 := by cases op <;> decide
  have hread : subexpr? op.operator.right (right.tokens ++ rest) = some (right.exp, rest) := by
    rw [op.right_operator, hr.subexpr hright (hf.mono (Nat.le_min.2 ⟨hright.le, hop⟩)),
      operators_of_follows hf]
  have hfollows := follows_operator op (Nat.le_min.2 ⟨hleft, hop⟩) (right.tokens ++ rest)
  rw [Expr.tokens, List.append_assoc, List.cons_append,
    hl.subexpr (hlimit.trans_le hleft) hfollows, Expr.exp]
  refine operators_binary op.binary_token hlimit hread ?_
  rw [List.length_append]
  omega

mutual

theorem Expr.parses : (e : Expr) → e.Safe → e.Parses
  | .ident n, h => .of_primary rfl h fun rest => primary_name n rest
  | .literal text, h => by
    obtain ⟨l, rfl⟩ := h
    refine .of_subexpr rfl ?_
    intro limit rest _ hf
    rw [Expr.tokens, l.scan_text, Expr.exp, l.readExp_text]
    exact l.subexpr_tokens limit hf
  | .str value, _ => .of_subexpr rfl fun _ _ _ _ => subexpr_simple rfl (by rw [simple?]; rfl) le_rfl
  | .emptyTable, _ => by
    refine .of_subexpr rfl ?_
    intro limit rest _ _
    have hsimple : simple? (.symbol "\x7b" :: .symbol "\x7d" :: rest) = some (.table, rest) := by
      rw [simple?]
    exact subexpr_simple rfl hsimple (by simp)
  | .call callee args, h => by
    have hcallee := (Expr.parses callee h.2.1).primary h.1
    have hargs := arguments_listed (Expr.reads_tokensAll args h.2.2)
    refine .of_primary rfl h ?_
    intro rest
    rw [Expr.tokens, List.append_assoc, hcallee, Expr.exp]
    simp only [List.cons_append, List.append_assoc, List.nil_append]
    refine suffixes_call _ (hargs rest) ?_
    simp only [List.length_append, List.length_cons]
    omega
  | .method object n args, h => by
    have hobject := (Expr.parses object h.2.1).primary h.1
    have hargs := arguments_listed (Expr.reads_tokensAll args h.2.2.2)
    refine .of_primary rfl h ?_
    intro rest
    rw [Expr.tokens, List.append_assoc, hobject, Expr.exp]
    simp only [List.cons_append, List.append_assoc, List.nil_append]
    refine suffixes_method _ (hargs rest) ?_
    simp only [List.length_append, List.length_cons]
    omega
  | .member object field, h => by
    have hobject := (Expr.parses object h.2.1).primary h.1
    refine .of_primary rfl h ?_
    intro rest
    rw [Expr.tokens, List.append_assoc, hobject, Expr.exp]
    exact suffixes_field _ field rest
  | .index object key, h => by
    have hobject := (Expr.parses object h.2.1).primary h.1
    have hkey := (Expr.parses key h.2.2).reads
    refine .of_primary rfl h ?_
    intro rest
    rw [Expr.tokens, List.append_assoc, hobject, Expr.exp]
    simp only [List.cons_append, List.append_assoc, List.nil_append]
    refine suffixes_index _ (hkey.subexpr_append (follows_bracket rest)) ?_
    simp only [List.length_append, List.length_cons]
    omega
  | .len value, h => by
    have hvalue := Expr.parses value h.2
    refine .of_subexpr rfl ?_
    intro limit rest _ hf
    have hrank := Expr.rank_of_operator h.1
    have hread : subexpr? unaryPriority (value.tokens ++ rest) = some (value.exp, rest) := by
      rw [hvalue.subexpr (by rw [hrank]; decide) (by rw [hrank]; exact hf)]
      exact operators_of_follows hf _
    rw [Expr.tokens, List.cons_append, Expr.exp]
    refine subexpr_unary rfl hread ?_
    rw [List.length_append]
    omega
  | .binary left op right, h => by
    obtain ⟨hl, hr⟩ := Expr.safe_operands h
    refine .of_subexpr rfl ?_
    intro limit rest hlimit hf
    exact Expr.subexpr_binary h (Expr.parses left hl) (Expr.parses right hr) hlimit
      (hf.mono (Nat.min_le_left _ _))

theorem Expr.reads_tokensAll : (es : List Expr) → Expr.SafeAll es →
    List.Forall₂ Reads (Expr.tokensAll es) (Expr.expAll es)
  | [], _ => .nil
  | e :: es, h => .cons (Expr.parses e h.1).reads (Expr.reads_tokensAll es h.2)

end

/-- Whether a token is a word that no expression goes on with. -/
def Token.isBreak : Token → Bool
  | .name _ => true
  | .keyword k => k != "or" && k != "and"
  | _ => false

/-- Whether a statement that was read before `rest` ends there. -/
def Breaks (rest : List Token) : Prop := ∀ t ∈ rest.head?, t.isBreak = true

theorem breaks_cons {t : Token} {r : List Token} (h : t.isBreak = true) : Breaks (t :: r) := by
  intro u hu
  obtain rfl : t = u := by simpa using hu
  exact h

theorem Breaks.follows {rest : List Token} (h : Breaks rest) : Follows 0 rest := by
  intro t ht
  have hb := h t ht
  cases t with
  | name n => exact ⟨rfl, by intro op hop; cases hop⟩
  | keyword k =>
    refine ⟨rfl, ?_⟩
    intro op hop
    simp only [Token.isBreak, Bool.and_eq_true, bne_iff_ne] at hb
    simp [Token.binary?, hb] at hop
  | numeral n => cases hb
  | string s => cases hb
  | symbol s => cases hb

theorem Breaks.not_assign {rest : List Token} (h : Breaks rest) (r : List Token) :
    rest ≠ .symbol "=" :: r := by
  rintro rfl
  exact absurd (h _ rfl) (by decide)

/-- Tokens that stand for a statement other than one that returns. -/
structure ReadsStat (ts : List Token) (s : Stat) : Prop where
  head : ∃ t r, ts = t :: r ∧ t.isBreak = true ∧ t.endsBlock = false ∧ t ≠ .keyword "return"
  statement_append : ∀ {rest}, Breaks rest → statement? (ts ++ rest) = some (s, rest)

theorem ReadsStat.breaks {ts : List Token} {s : Stat} (h : ReadsStat ts s) (rest : List Token) :
    Breaks (ts ++ rest) := by
  obtain ⟨t, r, rfl, ht, -⟩ := h.head
  exact breaks_cons ht

theorem ReadsStat.block_append {ts rest rest' : List Token} {s : Stat} {ss : List Stat}
    (h : ReadsStat ts s) (hb : Breaks rest) (hss : block? rest = some (ss, rest')) :
    block? (ts ++ rest) = some (s :: ss, rest') := by
  have hread := h.statement_append hb
  obtain ⟨t, r, rfl, -, he, hr⟩ := h.head
  have hlen : rest.length < (t :: (r ++ rest)).length := by
    simp only [List.length_cons, List.length_append]
    omega
  rw [List.cons_append] at hread ⊢
  rw [block?, if_neg (by simp [he]), if_neg hr, hread, taken_some hlen]
  simp only [Option.bind_eq_bind, Option.bind_some, hss]

/-- A block is over before a token that ends it, and at the end of a file. -/
theorem block_nil {rest : List Token} (h : rest.head?.all Token.endsBlock = true) :
    block? rest = some ([], rest) := by
  cases rest with
  | nil => rw [block?]
  | cons t r => rw [block?, if_pos (by simpa using h)]

theorem block_return {ts rest : List Token} {e : Exp} (h : Reads ts e) (hf : Follows 0 rest)
    (hr : rest.head?.all Token.endsBlock = true) :
    block? (.keyword "return" :: (ts ++ rest)) = some ([.ret e], rest) := by
  rw [block?, if_neg (by decide), if_pos rfl, h.subexpr_append hf]
  simp [hr]

theorem breaks_of_endsBlock {rest : List Token} (h : rest.head?.all Token.endsBlock = true) :
    Breaks rest := by
  cases rest with
  | nil =>
    intro t ht
    cases ht
  | cons t r =>
    refine breaks_cons ?_
    simp only [List.head?_cons, Option.all_some] at h
    cases t with
    | keyword k =>
      simp only [Token.endsBlock, Bool.or_eq_true, beq_iff_eq] at h
      rcases h with ((rfl | rfl) | rfl) | rfl <;> decide
    | _ => cases h

theorem statement_declare {n : String} {ts rest : List Token} {e : Exp} (h : Reads ts e)
    (hf : Follows 0 rest) :
    statement? (.keyword "local" :: .name n :: .symbol "=" :: (ts ++ rest)) =
      some (.declare n e, rest) := by
  rw [statement?, h.subexpr_append hf]
  rfl

theorem statement_primary {n : String} {ts r : List Token} {e : Exp}
    (h : primary? (.name n :: ts) = some (e, r)) (hr : ∀ r', r ≠ .symbol "=" :: r')
    (he : e.isCall = true) : statement? (.name n :: ts) = some (.eval e, r) := by
  rw [statement?.eq_def]
  change (primary? (.name n :: ts)).bind _ = _
  rw [h, Option.bind_some]
  dsimp only
  split
  · exact absurd rfl (hr _)
  · rw [if_pos he]

theorem statement_assign {n : String} {ts ts' rest : List Token} {e e' : Exp}
    (h : primary? (.name n :: ts) = some (e, .symbol "=" :: (ts' ++ rest)))
    (he : e.isTarget = true) (h' : Reads ts' e') (hf : Follows 0 rest) :
    statement? (.name n :: ts) = some (.assign e e', rest) := by
  rw [statement?.eq_def]
  change (primary? (.name n :: ts)).bind _ = _
  rw [h, Option.bind_some]
  simp [he, h'.subexpr_append hf]

theorem Expr.isTarget_exp {e : Expr} (h : e.isTarget = true) : e.exp.isTarget = true := by
  cases e with
  | ident | member | index => rw [Expr.exp]; rfl
  | _ => cases h

theorem Expr.isCall_exp {e : Expr} (h : e.isCall = true) : e.exp.isCall = true := by
  cases e with
  | call | method => rw [Expr.exp]; rfl
  | _ => cases h

theorem Expr.isPrefix_of_isTarget {e : Expr} (h : e.isTarget = true) : e.isPrefix = true := by
  cases e with
  | ident | member | index => rfl
  | _ => cases h

theorem Expr.isPrefix_of_isCall {e : Expr} (h : e.isCall = true) : e.isPrefix = true := by
  cases e with
  | call | method => rfl
  | _ => cases h

/-- Where an expression stands that a call may be applied to. -/
theorem Expr.primary_append {e : Expr} (h : e.Safe) (he : e.isPrefix = true) {r : List Token}
    (hs : ∀ t ∈ r.head?, t.startsSuffix = false) :
    primary? (e.tokens ++ r) = some (e.exp, r) := by
  rw [(Expr.parses e h).primary he, suffixes_of_not_startsSuffix hs]

theorem Simple.reads {s : Simple} (h : s.Safe) (hr : (Stmt.simple s).returns = false) :
    ReadsStat s.tokens s.stat := by
  cases s with
  | declare n value =>
    refine ⟨⟨_, _, rfl, rfl, rfl, by decide⟩, ?_⟩
    intro rest hb
    exact statement_declare (Expr.parses value h.2).reads hb.follows
  | assign target value =>
    obtain ⟨ht, hs, hv⟩ := h
    have he := Expr.isPrefix_of_isTarget ht
    obtain ⟨n, r, hn⟩ := Expr.tokens_of_isPrefix target he hs
    refine ⟨⟨.name n, r ++ .symbol "=" :: value.tokens, ?_, rfl, rfl, by simp⟩, ?_⟩
    · rw [Simple.tokens, hn, List.cons_append]
    · intro rest hb
      have hp := Expr.primary_append (r := .symbol "=" :: (value.tokens ++ rest)) hs he
        (by intro t ht; cases ht; rfl)
      rw [Simple.tokens, List.append_assoc, List.cons_append]
      rw [hn, List.cons_append] at hp ⊢
      exact statement_assign hp (Expr.isTarget_exp ht) (Expr.parses value hv).reads hb.follows
  | eval call =>
    obtain ⟨hc, hs⟩ := h
    have he := Expr.isPrefix_of_isCall hc
    obtain ⟨n, r, hn⟩ := Expr.tokens_of_isPrefix call he hs
    refine ⟨⟨.name n, r, hn, rfl, rfl, by simp⟩, ?_⟩
    intro rest hb
    have hp := Expr.primary_append hs he fun t ht => (hb.follows t ht).1
    rw [Simple.tokens]
    rw [hn, List.cons_append] at hp ⊢
    exact statement_primary hp hb.not_assign (Expr.isCall_exp hc)
  | ret value => cases hr

theorem Stmt.breaks_tokens {s : Stmt} (h : s.Safe) (rest : List Token) :
    Breaks (s.tokens ++ rest) := by
  cases s with
  | simple s =>
    cases hr : (Stmt.simple s).returns with
    | false => exact (Simple.reads h hr).breaks rest
    | true =>
      cases s with
      | ret value => exact breaks_cons rfl
      | _ => cases hr
  | ifThen condition body => exact breaks_cons rfl
  | count var first last body => exact breaks_cons rfl

theorem Stmt.breaks_tokensBlock {ss : List Stmt} (h : Stmt.SafeBlock ss) {rest : List Token}
    (hr : Breaks rest) : Breaks (Stmt.tokensBlock ss ++ rest) := by
  cases ss with
  | nil => exact hr
  | cons s ss =>
    rw [Stmt.tokensBlock, List.append_assoc]
    exact Stmt.breaks_tokens h.1 _

theorem Stmt.returns_cases {s : Stmt} (h : s.returns = true) :
    ∃ value, s = .simple (.ret value) := by
  cases s with
  | simple s =>
    cases s with
    | ret value => exact ⟨value, rfl⟩
    | _ => cases h
  | _ => cases h

theorem follows_word (limit : Nat) {k : String} (hk : k != "or" ∧ k != "and") (r : List Token) :
    Follows limit (.keyword k :: r) :=
  (breaks_cons (by simpa [Token.isBreak] using hk)).follows.mono (Nat.zero_le _)

theorem statement_ifThen {ts body rest : List Token} {e : Exp} {ss : List Stat} (h : Reads ts e)
    (hb : block? body = some (ss, .keyword "end" :: rest)) :
    statement? (.keyword "if" :: (ts ++ .keyword "then" :: body)) = some (.ifThen e ss, rest) := by
  have hcond := h.subexpr_append (follows_word 0 (k := "then") (by decide) body)
  have hlen : body.length < (Token.keyword "if" :: (ts ++ .keyword "then" :: body)).length := by
    simp only [List.length_cons, List.length_append]
    omega
  rw [statement?, hcond, followed_some, taken_some hlen]
  simp only [Option.bind_eq_bind, Option.bind_some, hb, followed_some]

theorem statement_count {n : String} {ts ts' body rest : List Token} {e e' : Exp} {ss : List Stat}
    (h : Reads ts e) (h' : Reads ts' e') (hb : block? body = some (ss, .keyword "end" :: rest)) :
    statement? (.keyword "for" :: .name n :: .symbol "=" :: (ts ++ .symbol "," ::
      (ts' ++ .keyword "do" :: body))) = some (.count n e e' ss, rest) := by
  have hfirst := h.subexpr_append (follows_comma (ts' ++ .keyword "do" :: body))
  have hlast := h'.subexpr_append (follows_word 0 (k := "do") (by decide) body)
  have hlen : body.length < (Token.symbol "=" :: (ts ++ .symbol "," ::
      (ts' ++ .keyword "do" :: body))).length := by
    simp only [List.length_cons, List.length_append]
    omega
  rw [statement?, hfirst, followed_some]
  simp only [Option.bind_eq_bind, Option.bind_some, hlast, followed_some, taken_some hlen, hb]

mutual

theorem Stmt.reads : (s : Stmt) → s.Safe → s.returns = false → ReadsStat s.tokens s.stat
  | .simple s, h, hr => Simple.reads h hr
  | .ifThen condition body, h, _ => by
    refine ⟨⟨_, _, rfl, rfl, rfl, by decide⟩, ?_⟩
    intro rest _
    have hbody := Stmt.block_tokensBlock body h.2 (.keyword "end" :: rest) rfl
    simp only [Stmt.tokens, List.cons_append, List.append_assoc, List.nil_append, Stmt.stat]
    exact statement_ifThen (Expr.parses condition h.1).reads hbody
  | .count var first last body, h, _ => by
    obtain ⟨-, hf, hl, hb⟩ := h
    refine ⟨⟨_, _, rfl, rfl, rfl, by decide⟩, ?_⟩
    intro rest _
    have hbody := Stmt.block_tokensBlock body hb (.keyword "end" :: rest) rfl
    simp only [Stmt.tokens, List.cons_append, List.append_assoc, List.nil_append, Stmt.stat]
    exact statement_count (Expr.parses first hf).reads (Expr.parses last hl).reads hbody

theorem Stmt.block_tokensBlock : (ss : List Stmt) → Stmt.SafeBlock ss → ∀ rest : List Token,
    rest.head?.all Token.endsBlock = true →
    block? (Stmt.tokensBlock ss ++ rest) = some (Stmt.block ss, rest)
  | [], _, rest, hr => block_nil hr
  | s :: ss, h, rest, hr => by
    have hss := Stmt.block_tokensBlock ss h.2.2 rest hr
    have hbreaks := breaks_of_endsBlock hr
    rw [Stmt.tokensBlock, List.append_assoc, Stmt.block]
    cases hs : s.returns with
    | false => exact (Stmt.reads s h.1 hs).block_append (Stmt.breaks_tokensBlock h.2.2 hbreaks) hss
    | true =>
      obtain rfl := h.2.1 hs
      obtain ⟨value, rfl⟩ := Stmt.returns_cases hs
      exact block_return (Expr.parses value h.1).reads hbreaks.follows hr

end

theorem parameters_append {params : List String} (rest : List Token) :
    parameters? (paramTokens params ++ .symbol ")" :: rest) = some (params, rest) := by
  induction params with
  | nil => rfl
  | cons p params ih =>
    cases params with
    | nil => rfl
    | cons p' params =>
      change (parameters? (paramTokens (p' :: params) ++ .symbol ")" :: rest)).map _ = _
      rw [ih]
      rfl

theorem path_append {path : List String} (h : path ≠ []) (rest : List Token) :
    path? (pathTokens path ++ .symbol "(" :: rest) = some (path, .symbol "(" :: rest) := by
  induction path with
  | nil => exact absurd rfl h
  | cons n path ih =>
    cases path with
    | nil =>
      change path? (.name n :: .symbol "(" :: rest) = _
      rw [path?]
      simp
    | cons n' path =>
      change (path? (pathTokens (n' :: path) ++ .symbol "(" :: rest)).map _ = _
      rw [ih (by simp)]
      rfl

theorem statement_localFunction {n : String} {params : List String} {body rest : List Token}
    {ss : List Stat} (hb : block? body = some (ss, .keyword "end" :: rest)) :
    statement? (.keyword "local" :: .keyword "function" :: .name n :: .symbol "(" ::
      (paramTokens params ++ .symbol ")" :: body)) = some (.localFunction n params ss, rest) := by
  have hlen :
      body.length < (Token.symbol "(" :: (paramTokens params ++ .symbol ")" :: body)).length := by
    simp only [List.length_cons, List.length_append]
    omega
  rw [statement?, parameters_append, taken_some hlen]
  simp only [Option.bind_eq_bind, Option.bind_some, hb, followed_some]

theorem statement_function {path params : List String} {body rest : List Token} {ss : List Stat}
    (hp : path ≠ []) (hb : block? body = some (ss, .keyword "end" :: rest)) :
    statement? (.keyword "function" :: (pathTokens path ++ .symbol "(" ::
      (paramTokens params ++ .symbol ")" :: body))) = some (.function path params ss, rest) := by
  have hpath := path_append hp (paramTokens params ++ .symbol ")" :: body)
  have hlen : body.length < (Token.keyword "function" :: (pathTokens path ++ .symbol "(" ::
      (paramTokens params ++ .symbol ")" :: body))).length := by
    simp only [List.length_cons, List.length_append]
    omega
  rw [statement?, hpath, followed_some]
  simp only [Option.bind_eq_bind, Option.bind_some, parameters_append, taken_some hlen, hb,
    followed_some]

theorem Function.path_ne_nil (f : Function) : f.path ≠ [] := by
  rw [Function.path, ne_eq, List.map_eq_nil_iff]
  exact Text.pieces_ne_nil '.' _

theorem Function.reads {f : Function} (h : f.Safe) : ReadsStat f.tokens f.stat := by
  have hbody (rest : List Token) :=
    Stmt.block_tokensBlock f.body h.body (.keyword "end" :: rest) rfl
  rw [Function.tokens, Function.stat]
  cases f.isLocal with
  | true =>
    refine ⟨⟨_, _, rfl, rfl, rfl, by decide⟩, ?_⟩
    intro rest _
    simp only [if_true, List.cons_append, List.append_assoc, List.nil_append]
    exact statement_localFunction (hbody rest)
  | false =>
    refine ⟨⟨_, _, rfl, rfl, rfl, by decide⟩, ?_⟩
    intro rest _
    simp only [Bool.false_eq_true, if_false, List.cons_append, List.append_assoc, List.nil_append]
    exact statement_function f.path_ne_nil (hbody rest)

/-- Statements one after the other before the rest of a block. -/
theorem block_flatten {tss : List (List Token)} {ss ss' : List Stat} {rest rest' : List Token}
    (h : List.Forall₂ ReadsStat tss ss) (hb : Breaks rest) (hs : block? rest = some (ss', rest')) :
    block? (tss.flatten ++ rest) = some (ss ++ ss', rest') ∧ Breaks (tss.flatten ++ rest) := by
  induction h with
  | nil => exact ⟨hs, hb⟩
  | cons h _ ih =>
    rw [List.flatten_cons, List.append_assoc]
    exact ⟨h.block_append ih.2 ih.1, h.breaks _⟩

theorem Stmt.tokensBlock_eq (ss : List Stmt) :
    Stmt.tokensBlock ss = (ss.map Stmt.tokens).flatten := by
  induction ss with
  | nil => rfl
  | cons s ss ih => rw [Stmt.tokensBlock, ih, List.map_cons, List.flatten_cons]

theorem Stmt.block_eq (ss : List Stmt) : Stmt.block ss = ss.map Stmt.stat := by
  induction ss with
  | nil => rfl
  | cons s ss ih => rw [Stmt.block, ih, List.map_cons]

theorem Stmt.safe_of_mem {ss : List Stmt} (h : Stmt.SafeBlock ss) : ∀ s ∈ ss, s.Safe := by
  induction ss with
  | nil => simp
  | cons s ss ih => exact List.forall_mem_cons.2 ⟨h.1, ih h.2.2⟩

theorem forall₂_reads {α : Type} {tokens : α → List Token} {stat : α → Stat} {l : List α}
    (h : ∀ a ∈ l, ReadsStat (tokens a) (stat a)) :
    List.Forall₂ ReadsStat (l.map tokens) (l.map stat) := by
  induction l with
  | nil => exact .nil
  | cons a l ih =>
    obtain ⟨ha, hl⟩ := List.forall_mem_cons.1 h
    exact .cons ha (ih hl)

theorem Module.block_tokens {m : Module} (h : m.Safe) : block? m.tokens = some (m.chunk, []) := by
  have hexported : Reads [.name m.exported] (.name m.exported) :=
    (Expr.parses (.ident m.exported) h.isName_exported).reads
  have hreturn := block_return hexported (Literal.follows_nil 0) rfl
  obtain ⟨hfunctions, hb⟩ := block_flatten
    (forall₂_reads fun f hf => Function.reads (h.functions f hf)) (breaks_cons rfl) hreturn
  obtain ⟨hhelpers, hb⟩ := block_flatten
    (forall₂_reads fun f hf => Function.reads (h.helpers f hf)) hb hfunctions
  have hheader := (block_flatten (forall₂_reads fun s hs =>
    Stmt.reads s (Stmt.safe_of_mem h.header s hs) (h.not_returns s hs)) hb hhelpers).1
  simp only [Module.tokens, Module.chunk, Stmt.tokensBlock_eq, Stmt.block_eq, List.flatMap_def,
    List.append_assoc]
  exact hheader

/-- The text of a safe module is read as the module. -/
theorem Module.read_print {m : Module} (h : m.Safe) : read? m.print = some m.chunk := by
  rw [read?, Module.scan_print h, Option.bind_eq_bind, Option.bind_some, Module.block_tokens h]
  rfl

end OpStubs.Lua
