import OpStubs.Operation.Default
import OpStubs.Proofs.Lua.Numeral
import OpStubs.Proofs.Lua.Reading

namespace OpStubs.Lua

/-- The values that generated code has a literal for. -/
inductive Literal where
  | nil
  | bool (value : Bool)
  | string (value : String)
  | numeral (negative : Bool) (n : Numeral)
  | infinity (negative : Bool)
  /-- What is no number. -/
  | undefined

namespace Literal

def sign (negative : Bool) : String := if negative then "-" else ""

def text : Literal → String
  | nil => "nil"
  | bool b => if b then "true" else "false"
  | string s => quote s
  | numeral negative n => sign negative ++ n.text
  | infinity negative => sign negative ++ Operation.infinityLocal
  | undefined => "(0/0)"

def signToken (negative : Bool) : List Token := if negative then [.symbol "-"] else []

def tokens : Literal → List Token
  | nil => [.keyword "nil"]
  | bool b => [.keyword (if b then "true" else "false")]
  | string s => [.string s]
  | numeral negative n => signToken negative ++ [.numeral n.text]
  | infinity negative => signToken negative ++ [.name Operation.infinityLocal]
  | undefined =>
    [.symbol "(", .numeral Numeral.zero.text, .symbol "/", .numeral Numeral.zero.text, .symbol ")"]

def signed (negative : Bool) (e : Exp) : Exp := if negative then .unary .negate e else e

/-- The expression that a literal is read as. -/
def exp : Literal → Exp
  | nil => .nil
  | bool b => .bool b
  | string s => .string s
  | numeral negative n => signed negative (.numeral n.text)
  | infinity negative => signed negative (.name Operation.infinityLocal)
  | undefined => .paren (.binary (.numeral Numeral.zero.text) .div (.numeral Numeral.zero.text))

open Token

theorem stops_of_isInside {p : Char → Bool} {rest : List Char} (hr : Stops Numeral.isInside rest)
    (hp : ∀ c, p c = true → Numeral.isInside c = true) : Stops p rest := by
  intro c hc
  have h := hr c hc
  rw [← Bool.not_eq_true] at h ⊢
  exact fun hpc => h (hp c hpc)

theorem stops_name {rest : List Char} (hr : Stops Numeral.isInside rest) :
    Stops continuesName rest := by
  refine stops_of_isInside hr ?_
  intro c hc
  simp only [continuesName, Bool.or_eq_true] at hc
  simp only [Numeral.isInside, Bool.or_eq_true]
  exact .inl (.inl (.inl hc))

theorem scans_sign (negative : Bool) {rest : List Char} (h : Stops (· == '-') rest) :
    Scans (sign negative).toList (signToken negative) rest := by
  cases negative with
  | false => exact .nil rest
  | true => exact scans_minus h

theorem scans_undefined (rest : List Char) : Scans undefined.text.toList undefined.tokens rest := by
  have hz {r : List Char} (hr : Stops Numeral.isInside r) :
      Scans ['0'] [.numeral Numeral.zero.text] r := Numeral.zero.scans_text hr
  have hopen : Scans ['('] [.symbol "("] ("0/0)".toList ++ rest) := scans_lone (by decide) _
  have hzero := hz (r := "/0)".toList ++ rest) (stops_cons.2 (by decide))
  have hslash : Scans ['/'] [.symbol "/"] ("0)".toList ++ rest) := scans_lone (by decide) _
  have hzero' := hz (r := ")".toList ++ rest) (stops_cons.2 (by decide))
  have hclose : Scans [')'] [.symbol ")"] rest := scans_lone (by decide) _
  exact hopen.append (hzero.append (hslash.append (hzero'.append hclose)))

theorem scans_text (l : Literal) {rest : List Char} (hr : Stops Numeral.isInside rest) :
    Scans l.text.toList l.tokens rest := by
  cases l with
  | nil => exact scans_keyword (by decide) (stops_name hr)
  | bool b => cases b <;> exact scans_keyword (by decide) (stops_name hr)
  | string s => exact scans_quote s rest
  | numeral negative n =>
    rw [text, String.toList_append]
    refine (scans_sign negative (n.stops_text ?_ rest)).append (n.scans_text hr)
    intro c hc
    rw [beq_eq_false_iff_ne]
    exact (startsName_of_isDigit hc).2.2
  | infinity negative =>
    rw [text, String.toList_append]
    refine (scans_sign negative ?_).append (scans_name (by decide) (stops_name hr))
    exact stops_cons.2 (by decide)
  | undefined => exact scans_undefined rest

theorem subexpr_signed (limit : Nat) (negative : Bool) {t : Token} {e : Exp} {rest : List Token}
    (ht : t.unary? = none) (h : simple? (t :: rest) = some (e, rest)) (hf : Follows 8 rest) :
    subexpr? limit (signToken negative ++ t :: rest) = operators? limit (signed negative e) rest := by
  have hplain (limit : Nat) : subexpr? limit (t :: rest) = operators? limit e rest :=
    subexpr_simple ht h le_rfl
  cases negative with
  | false => exact hplain limit
  | true =>
    have hop : subexpr? unaryPriority (t :: rest) = some (e, rest) := by
      rw [hplain]
      exact operators_of_follows hf e
    exact subexpr_unary rfl hop (by simp)

theorem simple_undefined {rest : List Token} (hf : Follows 8 rest) :
    simple? (undefined.tokens ++ rest) = some (undefined.exp, rest) := by
  have hzero (limit : Nat) (r : List Token) :
      subexpr? limit (.numeral Numeral.zero.text :: r) =
        operators? limit (.numeral Numeral.zero.text) r :=
    subexpr_simple rfl (by rw [simple?]) le_rfl
  have hright : subexpr? 7 (.numeral Numeral.zero.text :: .symbol ")" :: rest) =
      some (.numeral Numeral.zero.text, .symbol ")" :: rest) := by
    rw [hzero, operators_of_follows ((follows_close rest).mono (by decide))]
  have hquot : subexpr? 0 (.numeral Numeral.zero.text :: .symbol "/" ::
      .numeral Numeral.zero.text :: .symbol ")" :: rest) =
      some (.binary (.numeral Numeral.zero.text) .div (.numeral Numeral.zero.text),
        .symbol ")" :: rest) := by
    rw [hzero, operators_binary (o := .div) rfl (by decide) hright (by simp),
      operators_of_follows (follows_close rest)]
  have hparen := primary_paren hquot (by simp +arith)
  rw [tokens, simple?.eq_def]
  exact hparen.trans (suffixes_of_follows hf _)

theorem subexpr_tokens (l : Literal) (limit : Nat) {rest : List Token} (hf : Follows 8 rest) :
    subexpr? limit (l.tokens ++ rest) = operators? limit l.exp rest := by
  cases l with
  | nil =>
    change subexpr? limit (.keyword "nil" :: rest) = _
    exact subexpr_simple rfl (by rw [simple?]; rfl) le_rfl
  | bool b =>
    cases b with
    | false =>
      change subexpr? limit (.keyword "false" :: rest) = _
      exact subexpr_simple rfl (by rw [simple?]; rfl) le_rfl
    | true =>
      change subexpr? limit (.keyword "true" :: rest) = _
      exact subexpr_simple rfl (by rw [simple?]; rfl) le_rfl
  | string s =>
    change subexpr? limit (.string s :: rest) = _
    exact subexpr_simple rfl (by rw [simple?]; rfl) le_rfl
  | numeral negative n =>
    rw [tokens, List.append_assoc]
    exact subexpr_signed limit negative rfl (by rw [simple?]) hf
  | infinity negative =>
    rw [tokens, List.append_assoc]
    refine subexpr_signed limit negative rfl ?_ hf
    rw [simple_name, primary_name]
    exact suffixes_of_follows hf _
  | undefined => exact subexpr_simple rfl (simple_undefined hf) (by simp +arith)

theorem follows_nil (limit : Nat) : Follows limit [] := by
  intro t ht
  cases ht

/-- A literal is read as it is meant. -/
theorem readExp_text (l : Literal) : readExp? l.text = some l.exp := by
  have hscan := l.scans_text (stops_nil _)
  have hread := l.subexpr_tokens 0 (follows_nil 8)
  rw [operators_of_follows (follows_nil 0), List.append_nil] at hread
  rw [Scans, scan_nil, List.append_nil] at hscan
  simp [readExp?, hscan, hread]

end Literal

end OpStubs.Lua
