import OpStubs.Proofs.Lua.Parser

namespace OpStubs.Lua

/-- Whether an expression that was read before `rest` ends there: no call or index goes on, and an
operator holds its left operand no more tightly than `limit`. -/
def Follows (limit : Nat) (rest : List Token) : Prop :=
  ∀ t ∈ rest.head?, t.startsSuffix = false ∧ ∀ op, t.binary? = some op → op.left ≤ limit

theorem Follows.mono {limit limit' : Nat} {rest : List Token} (h : Follows limit rest)
    (hl : limit ≤ limit') : Follows limit' rest := by
  intro t ht
  obtain ⟨hs, ho⟩ := h t ht
  exact ⟨hs, fun op hop => (ho op hop).trans hl⟩

theorem follows_cons {limit : Nat} {t : Token} {r : List Token} (hs : t.startsSuffix = false)
    (ho : ∀ op, t.binary? = some op → op.left ≤ limit) : Follows limit (t :: r) := by
  intro u hu
  obtain rfl : t = u := by simpa using hu
  exact ⟨hs, ho⟩

theorem operators_of_follows {limit : Nat} {rest : List Token} (h : Follows limit rest) (e : Exp) :
    operators? limit e rest = some (e, rest) := by
  cases rest with
  | nil => rw [operators?]
  | cons t r =>
    obtain ⟨-, ho⟩ := h t (by simp)
    rw [operators?]
    split
    · rfl
    · rename_i op hop
      rw [if_neg (Nat.not_lt.2 (ho op hop))]

theorem suffixes_of_not_startsSuffix {rest : List Token}
    (h : ∀ t ∈ rest.head?, t.startsSuffix = false) (e : Exp) :
    suffixes? e rest = some (e, rest) := by
  cases rest with
  | nil => rw [suffixes?]
  | cons t r =>
    have hs := h t (by simp)
    rw [suffixes?.eq_def]
    split
    · contradiction
    · rename_i heq
      cases heq
      simp [Token.startsSuffix] at hs
    · rename_i heq
      cases heq
      simp [Token.startsSuffix] at hs
    · rename_i heq
      cases heq
      simp [Token.startsSuffix] at hs
    · rename_i heq
      cases heq
      simp [hs]

theorem suffixes_of_follows {limit : Nat} {rest : List Token} (h : Follows limit rest) (e : Exp) :
    suffixes? e rest = some (e, rest) :=
  suffixes_of_not_startsSuffix (fun t ht => (h t ht).1) e

theorem length_lt_cons {rest r : List Token} (t : Token) (h : rest.length ≤ r.length) :
    rest.length < (t :: r).length :=
  Nat.lt_succ_of_le h

theorem subexpr_unary {limit : Nat} {t : Token} {r rest : List Token} {op : UnaryOperator} {e : Exp}
    (ht : t.unary? = some op) (h : subexpr? unaryPriority r = some (e, rest))
    (hl : rest.length ≤ r.length) :
    subexpr? limit (t :: r) = operators? limit (.unary op e) rest := by
  rw [subexpr?, ht]
  simp only [h, taken_some (length_lt_cons t hl), Option.bind_eq_bind, Option.bind_some]

theorem subexpr_simple {limit : Nat} {t : Token} {r rest : List Token} {e : Exp}
    (ht : t.unary? = none) (h : simple? (t :: r) = some (e, rest))
    (hl : rest.length ≤ r.length) :
    subexpr? limit (t :: r) = operators? limit e rest := by
  rw [subexpr?, ht]
  simp only [h, taken_some (length_lt_cons t hl), Option.bind_eq_bind, Option.bind_some]

theorem operators_binary {limit : Nat} {t : Token} {r rest : List Token} {o : Operator}
    {left right : Exp} (ht : t.binary? = some o) (ho : limit < o.left)
    (h : subexpr? o.right r = some (right, rest)) (hl : rest.length ≤ r.length) :
    operators? limit left (t :: r) = operators? limit (.binary left o right) rest := by
  rw [operators?, ht]
  simp only [ho, if_true, h, taken_some (length_lt_cons t hl), Option.bind_eq_bind, Option.bind_some]

theorem primary_name (n : String) (r : List Token) :
    primary? (.name n :: r) = suffixes? (.name n) r := by
  rw [primary?]

theorem primary_paren {e : Exp} {r rest : List Token}
    (h : subexpr? 0 r = some (e, .symbol ")" :: rest)) (hl : rest.length ≤ r.length) :
    primary? (.symbol "(" :: r) = suffixes? (.paren e) rest := by
  rw [primary?, h, followed_some]
  simp only [taken_some (length_lt_cons _ hl), Option.bind_eq_bind, Option.bind_some]

theorem simple_name (n : String) (r : List Token) :
    simple? (.name n :: r) = primary? (.name n :: r) := by
  rw [simple?.eq_def]

theorem suffixes_field (e : Exp) (name : String) (r : List Token) :
    suffixes? e (.symbol "." :: .name name :: r) = suffixes? (.field e name) r := by
  rw [suffixes?]

theorem suffixes_index (e : Exp) {key : Exp} {r rest : List Token}
    (h : subexpr? 0 r = some (key, .symbol "]" :: rest)) (hl : rest.length ≤ r.length) :
    suffixes? e (.symbol "[" :: r) = suffixes? (.index e key) rest := by
  rw [suffixes?, h, followed_some]
  simp only [taken_some (length_lt_cons _ hl), Option.bind_eq_bind, Option.bind_some]

theorem suffixes_method (e : Exp) {name : String} {args : List Exp} {r rest : List Token}
    (h : arguments? r = some (args, rest)) (hl : rest.length ≤ r.length) :
    suffixes? e (.symbol ":" :: .name name :: r) = suffixes? (.method e name args) rest := by
  rw [suffixes?, h]
  simp only [taken_some (length_lt_cons _ hl), Option.bind_eq_bind, Option.bind_some]

theorem suffixes_call (e : Exp) {args : List Exp} {r rest : List Token}
    (h : arguments? (.symbol "(" :: r) = some (args, rest)) (hl : rest.length ≤ r.length) :
    suffixes? e (.symbol "(" :: r) = suffixes? (.call e args) rest := by
  rw [suffixes?.eq_def]
  simp [Token.startsSuffix, h, taken_some (length_lt_cons _ hl)]

theorem subexpr_close (limit : Nat) (r : List Token) :
    subexpr? limit (.symbol ")" :: r) = none := by
  have hp : primary? (.symbol ")" :: r) = none := by
    rw [primary?.eq_def]
    rfl
  have hs : simple? (.symbol ")" :: r) = none := by
    rw [simple?.eq_def]
    exact hp
  rw [subexpr?, hs]
  rfl

/-- Tokens that stand for an expression wherever nothing continues it. -/
structure Reads (ts : List Token) (e : Exp) : Prop where
  ne_nil : ts ≠ []
  subexpr_append : ∀ {rest}, Follows 0 rest → subexpr? 0 (ts ++ rest) = some (e, rest)

theorem Reads.length_lt {ts : List Token} {e : Exp} (h : Reads ts e) (rest : List Token) :
    rest.length < (ts ++ rest).length := by
  have := List.length_pos_iff.2 h.ne_nil
  rw [List.length_append]
  omega

theorem follows_close (r : List Token) : Follows 0 (.symbol ")" :: r) :=
  follows_cons rfl (by intro op h; cases h)

theorem follows_comma (r : List Token) : Follows 0 (.symbol "," :: r) :=
  follows_cons rfl (by intro op h; cases h)

/-- The tokens of a list, commas between its members. -/
def listed : List (List Token) → List Token
  | [] => []
  | [ts] => ts
  | ts :: rest => ts ++ .symbol "," :: listed rest

theorem expressions_listed {ts : List Token} {e : Exp} {tss : List (List Token)} {es : List Exp}
    (h : Reads ts e) (hs : List.Forall₂ Reads tss es) (rest : List Token) :
    expressions? (listed (ts :: tss) ++ .symbol ")" :: rest) =
      some (e :: es, .symbol ")" :: rest) := by
  induction hs generalizing ts e with
  | nil =>
    have hread := h.subexpr_append (follows_close rest)
    rw [listed, expressions?, hread, taken_some (h.length_lt _)]
    rfl
  | @cons ts' e' tss es h' _ ih =>
    have hread := h.subexpr_append (follows_comma (listed (ts' :: tss) ++ .symbol ")" :: rest))
    have hlen : (Token.symbol ")" :: rest).length <
        (ts ++ .symbol "," :: (listed (ts' :: tss) ++ .symbol ")" :: rest)).length := by
      simp only [List.length_append, List.length_cons]
      omega
    rw [listed, List.append_assoc, List.cons_append, expressions?, hread]
    · rw [taken_some (h.length_lt _)]
      simp only [Option.bind_eq_bind, Option.bind_some, ih h', taken_some hlen]
    · simp

theorem arguments_listed {tss : List (List Token)} {es : List Exp}
    (h : List.Forall₂ Reads tss es) (rest : List Token) :
    arguments? (.symbol "(" :: (listed tss ++ .symbol ")" :: rest)) = some (es, rest) := by
  cases h with
  | nil => rw [listed, List.nil_append, arguments?]
  | @cons ts e tss es h hs =>
    have hexp := expressions_listed h hs rest
    rw [arguments?, hexp, followed_some]
    intro r hr
    have hnone : expressions? (.symbol ")" :: r) = none := by
      rw [expressions?, subexpr_close]
      rfl
    rw [hr, hnone] at hexp
    cases hexp

end OpStubs.Lua
