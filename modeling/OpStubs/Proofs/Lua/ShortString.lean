import Mathlib.Algebra.Group.Nat.Defs
import Mathlib.Data.List.Induction
import OpStubs.Lua.Print
import OpStubs.Operation.Default
import OpStubs.Proofs.Lua.Lexer
import OpStubs.Proofs.TextFormat.Utf8
import OpStubs.Text.Digits

namespace OpStubs.Lua.ShortString

open Text.Utf8 (encodeChar decodeLossy_encode)

def bytes (s : List Char) : List UInt8 := s.flatMap encodeChar

def quoteMark : UInt8 := '"'.toUInt8

def backslash : UInt8 := '\\'.toUInt8

def lineFeed : UInt8 := '\n'.toUInt8

def carriageReturn : UInt8 := '\r'.toUInt8

def isNewline (b : UInt8) : Bool := b == lineFeed || b == carriageReturn

def decimalDigit? (c : Char) : Option Nat :=
  if c.isDigit then some (c.toNat - '0'.toNat) else none

/-- The digits at the start of a text, at most `count`. -/
def digits (digit? : Char → Option Nat) (count : Nat) (r : List UInt8) : List Nat :=
  Text.leadingDigits digit? count (r.map Char.ofUInt8)

/-- The byte that a backslash and one more byte stand for. -/
def named? (b : UInt8) : Option UInt8 :=
  match Char.ofUInt8 b with
  | 'a' => some 0x07
  | 'b' => some 0x08
  | 'f' => some 0x0C
  | 'n' => some lineFeed
  | 'r' => some carriageReturn
  | 't' => some 0x09
  | 'v' => some 0x0B
  | '\\' => some backslash
  | '"' => some quoteMark
  | '\'' => some 0x27
  | _ => none

/-- A byte that begins a character of `count + 1` bytes, and the others, six bits in each. -/
def encodeCodeIn (mark count code : Nat) : List UInt8 :=
  UInt8.ofNat (mark + code / 64 ^ count) ::
    (List.range count).reverse.map fun k => UInt8.ofNat (0x80 + code / 64 ^ k % 64)

/-- A code in UTF-8 as it was first laid out, for codes of up to 31 bits. -/
def encodeCode (code : Nat) : List UInt8 :=
  if code < 0x80 then [UInt8.ofNat code]
  else if code < 0x800 then encodeCodeIn 0xC0 1 code
  else if code < 0x10000 then encodeCodeIn 0xE0 2 code
  else if code < 0x200000 then encodeCodeIn 0xF0 3 code
  else if code < 0x4000000 then encodeCodeIn 0xF8 4 code
  else encodeCodeIn 0xFC 5 code

/-- How many bytes the line end takes that starts with `b`: a pair of both kinds is one. -/
def newlineLength (b : UInt8) (r : List UInt8) : Nat :=
  if r.head?.any fun c => isNewline c && c != b then 2 else 1

/-- Two hexadecimal digits. -/
def hexByte? (r : List UInt8) : Option (List UInt8 × Nat) :=
  let found := digits Text.hexDigit? 2 r
  if found.length = 2 then some ([UInt8.ofNat (Text.ofDigits 16 found)], 2) else none

/-- Hexadecimal digits in braces. -/
def braced? (r : List UInt8) : Option (List UInt8 × Nat) :=
  let found := digits Text.hexDigit? r.length r.tail
  if r.head? = some '\x7b'.toUInt8 ∧ found ≠ [] ∧ r[found.length + 1]? = some '\x7d'.toUInt8 ∧
      Text.ofDigits 16 found < 2 ^ 31 then
    some (encodeCode (Text.ofDigits 16 found), found.length + 2)
  else none

/-- Up to three decimal digits. -/
def decimalByte? (r : List UInt8) : Option (List UInt8 × Nat) :=
  let found := digits decimalDigit? 3 r
  if found ≠ [] ∧ Text.ofDigits 10 found ≤ 255 then
    some ([UInt8.ofNat (Text.ofDigits 10 found)], found.length)
  else none

/-- What a backslash in front of a text stands for, and how much of the text belongs to it. -/
def escape? : List UInt8 → Option (List UInt8 × Nat)
  | [] => none
  | b :: r =>
    match named? b with
    | some value => some ([value], 1)
    | none =>
      if isNewline b then some ([lineFeed], newlineLength b r)
      else
        match Char.ofUInt8 b with
        | 'z' => some ([], (r.takeWhile fun c => Token.isSpace (Char.ofUInt8 c)).length + 1)
        | 'x' => (hexByte? r).map fun (value, used) => (value, used + 1)
        | 'u' => (braced? r).map fun (value, used) => (value, used + 1)
        | _ => decimalByte? (b :: r)

/-- Puts more in front of what was read. -/
def after (value : List UInt8) (p : List UInt8 × List UInt8) : List UInt8 × List UInt8 :=
  (value ++ p.1, p.2)

/-- What a literal stands for whose opening quote was read, and the text behind its closing quote. -/
def body? (quote : UInt8) : List UInt8 → Option (List UInt8 × List UInt8)
  | [] => none
  | b :: r =>
    if b = quote then some ([], r)
    else if isNewline b then none
    else if b = backslash then
      match escape? r with
      | none => none
      | some (value, used) => (body? quote (r.drop used)).map (after value)
    else (body? quote r).map (after [b])
termination_by s => s.length
decreasing_by all_goals simp +arith

/-- What the literal at the start of a text stands for, and the text behind it. -/
def read? : List UInt8 → Option (List UInt8 × List UInt8)
  | [] => none
  | b :: r => if b = quoteMark ∨ b = '\''.toUInt8 then body? b r else none

/-- Whether a byte stands for itself between double quotes. -/
def isPlain (b : UInt8) : Bool := b != quoteMark && b != backslash && !isNewline b

/-- How many backslashes a text ends with. -/
def backslashes (text : List UInt8) : Nat := (text.reverse.takeWhile (· == backslash)).length

/-- Whether no quote ends a literal with that inside: each stands behind an odd number of
backslashes. -/
def QuotesEscaped (inside : List UInt8) : Prop :=
  ∀ front behind, inside = front ++ quoteMark :: behind → backslashes front % 2 = 1

theorem map_after_nil (x : Option (List UInt8 × List UInt8)) : x.map (after []) = x :=
  Option.map_id_apply

theorem map_after_append (value value' : List UInt8) (x : Option (List UInt8 × List UInt8)) :
    x.map (after (value ++ value')) = (x.map (after value')).map (after value) := by
  rw [Option.map_map]
  exact congrArg (x.map ·) (funext fun p => by simp [after])

theorem bytes_append (s t : List Char) : bytes (s ++ t) = bytes s ++ bytes t :=
  List.flatMap_append

theorem bytes_injective : Function.Injective bytes := fun s t h => by
  rw [← decodeLossy_encode s, ← decodeLossy_encode t]
  exact congrArg Text.Utf8.decodeLossy h

theorem bytes_escapeChars_concat (s : List Char) (c : Char) :
    bytes (escapeChars (s ++ [c])) = bytes (escapeChars s) ++ bytes (escapeChar c) := by
  rw [escapeChars, List.flatMap_append, bytes_append, List.flatMap_singleton]
  rfl

/-- Outside ASCII every byte of a character is above it. -/
theorem toNat_of_mem_encodeChar {c : Char} {b : UInt8} (h : b ∈ encodeChar c) :
    b.toNat = c.toNat ∨ 128 ≤ b.toNat := by
  have hc : c.val.toNat = c.toNat := rfl
  rw [encodeChar, String.utf8EncodeChar, hc] at h
  generalize c.toNat = v at h ⊢
  split_ifs at h with h1 h2 h3
  · obtain rfl := List.mem_singleton.1 h
    left
    rw [UInt8.toNat_ofNat']
    omega
  all_goals
    right
    simp only [List.mem_cons, List.not_mem_nil, or_false] at h
  · rcases h with rfl | rfl <;> (rw [UInt8.toNat_ofNat']; omega)
  · rcases h with rfl | rfl | rfl <;> (rw [UInt8.toNat_ofNat']; omega)
  · rcases h with rfl | rfl | rfl | rfl <;> (rw [UInt8.toNat_ofNat']; omega)

theorem isPlain_of_mem_encodeChar {c : Char} (hquote : c ≠ '"') (hback : c ≠ '\\') (hfeed : c ≠ '\n')
    (hreturn : c ≠ '\r') : ∀ b ∈ encodeChar c, isPlain b = true := by
  intro b hb
  have hne : ∀ d : Char, d.toNat < 128 → c ≠ d → b ≠ d.toUInt8 := by
    rintro d hd hcd rfl
    have hbyte : d.toUInt8.toNat = d.toNat := Nat.mod_eq_of_lt (by omega : d.toNat < 256)
    rcases toNat_of_mem_encodeChar hb with h | h
    · exact hcd (Char.toNat_inj.1 (h.symm.trans hbyte))
    · omega
  have hq := hne '"' (by decide) hquote
  have hs := hne '\\' (by decide) hback
  have hf := hne '\n' (by decide) hfeed
  have hr := hne '\r' (by decide) hreturn
  simp [isPlain, isNewline, quoteMark, backslash, lineFeed, carriageReturn, hq, hs, hf, hr]

/-- A character gets a backslash and stands by its name, or its bytes stand for themselves. -/
theorem escapeChar_cases (c : Char) :
    (∃ name value, bytes (escapeChar c) = [backslash, name] ∧ encodeChar c = [value] ∧
      named? name = some value ∧ isNewline name = false) ∨
    (bytes (escapeChar c) = encodeChar c ∧ ∀ b ∈ encodeChar c, isPlain b = true) := by
  unfold escapeChar
  split_ifs with hb hq hn hr ht
  · rw [hb]
    exact .inl ⟨backslash, backslash, rfl, rfl, rfl, rfl⟩
  · rw [hq]
    exact .inl ⟨quoteMark, quoteMark, rfl, rfl, rfl, rfl⟩
  · rw [hn]
    exact .inl ⟨'n'.toUInt8, lineFeed, rfl, rfl, rfl, rfl⟩
  · rw [hr]
    exact .inl ⟨'r'.toUInt8, carriageReturn, rfl, rfl, rfl, rfl⟩
  · rw [ht]
    exact .inl ⟨'t'.toUInt8, 0x09, rfl, rfl, rfl, rfl⟩
  · exact .inr ⟨List.flatMap_singleton _ _, isPlain_of_mem_encodeChar hq hb hn hr⟩

theorem ne_of_isPlain {b : UInt8} (h : isPlain b = true) :
    b ≠ quoteMark ∧ b ≠ backslash ∧ isNewline b = false := by
  simp only [isPlain, Bool.and_eq_true, bne_iff_ne, Bool.not_eq_true'] at h
  exact ⟨h.1.1, h.1.2, h.2⟩

theorem body?_named {name value : UInt8} (h : named? name = some value) (r : List UInt8) :
    body? quoteMark (backslash :: name :: r) = (body? quoteMark r).map (after [value]) := by
  have hescape : escape? (name :: r) = some ([value], 1) := by
    rw [escape?, h]
  rw [body?, if_neg (by decide), if_neg (by decide), if_pos rfl, hescape]
  rfl

theorem body?_plain {p : List UInt8} (h : ∀ b ∈ p, isPlain b = true) (r : List UInt8) :
    body? quoteMark (p ++ r) = (body? quoteMark r).map (after p) := by
  induction p with
  | nil => exact (map_after_nil _).symm
  | cons b p ih =>
    obtain ⟨hq, hb, hn⟩ := ne_of_isPlain (h b List.mem_cons_self)
    rw [List.cons_append, body?, if_neg hq, if_neg (by simp [hn]), if_neg hb,
      ih fun c hc => h c (List.mem_cons_of_mem b hc)]
    exact (map_after_append [b] p _).symm

/-- One character is read by itself, whatever follows it. -/
theorem body?_escapeChar (c : Char) (r : List UInt8) :
    body? quoteMark (bytes (escapeChar c) ++ r) =
      (body? quoteMark r).map (after (encodeChar c)) := by
  rcases escapeChar_cases c with ⟨name, value, htext, hbytes, hname, -⟩ | ⟨htext, hplain⟩
  · rw [htext, hbytes]
    exact body?_named hname r
  · rw [htext]
    exact body?_plain hplain r

/-- A text is read by itself, so that none of its escapes goes on in what follows it. -/
theorem body?_escapeChars (s : List Char) (r : List UInt8) :
    body? quoteMark (bytes (escapeChars s) ++ r) = (body? quoteMark r).map (after (bytes s)) := by
  induction s with
  | nil => exact (map_after_nil _).symm
  | cons c s ih =>
    have hcons : bytes (escapeChars (c :: s)) = bytes (escapeChar c) ++ bytes (escapeChars s) :=
      bytes_append (escapeChar c) (escapeChars s)
    rw [hcons, List.append_assoc, body?_escapeChar, ih]
    exact (map_after_append (encodeChar c) (bytes s) _).symm

theorem body?_close (r : List UInt8) : body? quoteMark (quoteMark :: r) = some ([], r) := by
  rw [body?, if_pos rfl]

theorem bytes_quote (s : String) :
    bytes (quote s).toList = quoteMark :: (bytes (escape s).toList ++ [quoteMark]) := by
  rw [toList_quote, toList_escape, List.cons_append]
  exact congrArg (quoteMark :: ·) (bytes_append (escapeChars s.toList) ['"'])

/-- A literal is read up to its closing quote, and no further. -/
theorem read?_quote (s : String) (u : List UInt8) :
    read? (bytes (quote s).toList ++ u) = some (bytes s.toList, u) := by
  rw [bytes_quote, List.cons_append, read?, if_pos (.inl rfl), toList_escape, List.append_assoc,
    body?_escapeChars, List.singleton_append, body?_close]
  exact congrArg some (Prod.ext (List.append_nil _) rfl)

theorem isNewline_escapeChars (s : List Char) :
    ∀ b ∈ bytes (escapeChars s), isNewline b = false := by
  intro b hb
  obtain ⟨d, hd, hb⟩ := List.mem_flatMap.1 hb
  obtain ⟨c, -, hd⟩ := List.mem_flatMap.1 hd
  have hmem : b ∈ bytes (escapeChar c) := List.mem_flatMap.2 ⟨d, hd, hb⟩
  rcases escapeChar_cases c with ⟨name, value, htext, -, -, hname⟩ | ⟨htext, hplain⟩
  · rw [htext] at hmem
    rcases List.mem_cons.1 hmem with rfl | hmem
    · rfl
    · rwa [List.mem_singleton.1 hmem]
  · rw [htext] at hmem
    exact (ne_of_isPlain (hplain b hmem)).2.2

theorem backslashes_concat (t : List UInt8) (b : UInt8) :
    backslashes (t ++ [b]) = if b = backslash then backslashes t + 1 else 0 := by
  rw [backslashes, List.reverse_append, List.reverse_singleton, List.singleton_append,
    List.takeWhile_cons]
  by_cases h : b = backslash
  · simp [h, backslashes]
  · simp [h]

theorem backslashes_append_plain (t : List UInt8) {p : List UInt8} (hne : p ≠ [])
    (h : ∀ b ∈ p, isPlain b = true) : backslashes (t ++ p) = 0 := by
  rw [← List.dropLast_append_getLast hne, ← List.append_assoc, backslashes_concat, if_neg]
  exact (ne_of_isPlain (h _ (List.getLast_mem hne))).2.1

/-- No escape is begun and left open. -/
theorem backslashes_escapeChars (s : List Char) :
    backslashes (bytes (escapeChars s)) % 2 = 0 := by
  induction s using List.reverseRecOn with
  | nil => rfl
  | append_singleton s c ih =>
    rw [bytes_escapeChars_concat]
    rcases escapeChar_cases c with ⟨name, value, htext, -, -, -⟩ | ⟨htext, hplain⟩
    · rw [htext, show [backslash, name] = [backslash] ++ [name] from rfl, ← List.append_assoc,
        backslashes_concat, backslashes_concat, if_pos rfl]
      split <;> omega
    · have hne : encodeChar c ≠ [] := String.utf8EncodeChar_ne_nil
      rw [htext, backslashes_append_plain _ hne hplain]

theorem QuotesEscaped.append {t p : List UInt8} (h : QuotesEscaped t)
    (hp : ∀ front behind, p = front ++ quoteMark :: behind → backslashes (t ++ front) % 2 = 1) :
    QuotesEscaped (t ++ p) := by
  intro front behind heq
  rcases List.append_eq_append_iff.1 heq with ⟨front', rfl, hin⟩ | ⟨rest, hin, hrest⟩
  · exact hp front' behind hin
  · cases rest with
    | nil =>
      rw [List.append_nil] at hin
      have hodd := hp [] behind hrest.symm
      rwa [List.append_nil, hin] at hodd
    | cons b rest =>
      obtain ⟨rfl, -⟩ := List.cons_eq_cons.1 hrest
      exact h front rest hin

/-- A quote stands in an escape of its own, behind the one backslash of it. -/
theorem quotesEscaped_escapeChars (s : List Char) : QuotesEscaped (bytes (escapeChars s)) := by
  induction s using List.reverseRecOn with
  | nil =>
    intro front behind h
    exact absurd h.symm (by simp [escapeChars, bytes])
  | append_singleton s c ih =>
    rw [bytes_escapeChars_concat]
    refine ih.append fun front behind h => ?_
    rcases escapeChar_cases c with ⟨name, value, htext, -, -, -⟩ | ⟨htext, hplain⟩
    · rw [htext] at h
      have hfront : front = [backslash] := by
        rcases List.cons_eq_append_iff.1 h with ⟨-, hmark⟩ | ⟨front', rfl, hname⟩
        · exact absurd (List.cons_eq_cons.1 hmark).1 (by decide)
        · rcases List.cons_eq_append_iff.1 hname with ⟨rfl, -⟩ | ⟨front'', -, hnil⟩
          · rfl
          · exact absurd hnil.symm (by simp)
      have heven := backslashes_escapeChars s
      rw [hfront, backslashes_concat, if_pos rfl]
      omega
    · have hmem : quoteMark ∈ encodeChar c := by
        rw [← htext, h]
        exact List.mem_append_right _ List.mem_cons_self
      exact absurd rfl (ne_of_isPlain (hplain _ hmem)).1

theorem quote_injective : Function.Injective quote := fun s t h => by
  have hread := read?_quote s []
  rw [h, read?_quote t []] at hread
  exact String.toList_inj.1 (bytes_injective (Prod.ext_iff.1 (Option.some.inj hread)).1.symm)

/-- The literals of strings, in an expression and as a default: with any bytes behind it a literal is
read as the bytes of its string, and those bytes are left; its inside is read by itself in front of
any others; it holds no line end, and no quote that would end it; no two strings have the same. -/
theorem string_denotes (s : String) :
    (Expr.str s).print = "\"" ++ escape s ++ "\"" ∧
    (Operation.Default.ofValue? .string (.string s)).map (·.literal) = some (Expr.str s).print ∧
    (∀ u, read? (bytes (Expr.str s).print.toList ++ u) = some (bytes s.toList, u)) ∧
    (∀ rest, body? quoteMark (bytes (escape s).toList ++ rest) =
      (body? quoteMark rest).map (after (bytes s.toList))) ∧
    lineFeed ∉ bytes (escape s).toList ∧ carriageReturn ∉ bytes (escape s).toList ∧
    QuotesEscaped (bytes (escape s).toList) ∧
    (∀ t, (Expr.str t).print = (Expr.str s).print ↔ t = s) := by
  have hprint (t : String) : (Expr.str t).print = quote t := by rw [Expr.print]
  have hlines := isNewline_escapeChars s.toList
  simp only [hprint, toList_escape]
  refine ⟨rfl, rfl, read?_quote s, body?_escapeChars s.toList, fun h => ?_, fun h => ?_,
    quotesEscaped_escapeChars s.toList, fun t => quote_injective.eq_iff⟩
  · exact absurd (hlines _ h) (by decide)
  · exact absurd (hlines _ h) (by decide)

/-- Every kind of escape between single quotes, and what is behind them. -/
example : (read? (bytes "'a\\x41\\065\\1230\\z \t\n b\\\r\n\\u\x7b20AC\x7d\\'\"'--".toList)) =
    some (bytes "aAA\x7b0b\n\u20AC'\"".toList, bytes "--".toList) := by
  decide +kernel

end OpStubs.Lua.ShortString
