import OpStubs.Json.Quoted

namespace OpStubs.Json

def isBlank (c : Char) : Bool := c == ' ' || c == '\n' || c == '\t' || c == '\r'

def isPunct (c : Char) : Bool := "[]\x7b\x7d,:".toList.contains c

/-- Digits are missing. Only a value that is read can tell that the text has ended. -/
def noDigits (rest : List Char) : Break :=
  if rest = [] then ⟨.truncated, .malformed⟩ else .both .malformed

def readPart : List Char → Except Break (Option (List Char) × List Char)
  | '.' :: r =>
    let digits := r.takeWhile Char.isDigit
    let rest := r.dropWhile Char.isDigit
    if digits = [] then .error (noDigits rest) else .ok (some digits, rest)
  | r => .ok (none, r)

/-- Whether a text starts with a minus sign, and the text behind the sign that it may start with. -/
def readSign : List Char → Bool × List Char
  | '-' :: r => (true, r)
  | '+' :: r => (false, r)
  | r => (false, r)

def readPower : List Char → Except Break (Option (Bool × List Char) × List Char)
  | [] => .ok (none, [])
  | c :: r =>
    if c = 'e' ∨ c = 'E' then
      let sign := readSign r
      let digits := sign.2.takeWhile Char.isDigit
      let rest := sign.2.dropWhile Char.isDigit
      if digits = [] then .error (noDigits rest) else .ok (some (sign.1, digits), rest)
    else .ok (none, c :: r)

/-- The digits before the point. A zero stands alone. -/
def readWhole (s : List Char) : Except Break (List Char × List Char) :=
  let digits := s.takeWhile Char.isDigit
  let rest := s.dropWhile Char.isDigit
  match digits with
  | [] => .error (noDigits rest)
  | '0' :: _ :: _ => .error (.both .malformed)
  | _ => .ok (digits, rest)

def readNumeral (s : List Char) : Except Break (Numeral × List Char) := do
  let (negative, s) := match s with
    | '-' :: r => (true, r)
    | r => (false, r)
  let (whole, s) ← readWhole s
  let (part, s) ← readPart s
  let (power, s) ← readPower s
  return (⟨negative, whole, part, power⟩, s)

def numberToken (s : List Char) : Token × List Char :=
  match readNumeral s with
  | .ok (n, rest) => (.number n, rest)
  | .error b => (.broken false b, [])

def wordToken (t : Token) : List Char → List Char → Token × List Char
  | [], rest => (t, rest)
  | _ :: _, [] => (.broken false (.both .truncated), [])
  | c :: word, d :: rest =>
    if c = d then wordToken t word rest else (.broken false (.both .malformed), [])

/-- The token that starts with `c`, which is not blank, and the text behind it. -/
def token (c : Char) (r : List Char) : Token × List Char :=
  if c = '"' then stringToken r
  else if c.isDigit ∨ c = '-' then numberToken (c :: r)
  else if c = 'n' then wordToken .null "ull".toList r
  else if c = 't' then wordToken (.bool true) "rue".toList r
  else if c = 'f' then wordToken (.bool false) "alse".toList r
  else if isPunct c then (.punct c, r)
  else (.broken false (.both .malformed), [])

theorem length_scanString (s : List Char) :
    ∀ {pieces r}, scanString s = (pieces, .closed r) → r.length < s.length := by
  fun_induction scanString s with
  | case3 a b c d r _ _ _ _ h ih =>
    intro pieces rest he
    simp only [Prod.mk.injEq] at he
    have := ih (by rw [h, he.2])
    simp only [List.length_cons]
    omega
  | case6 e r _ _ _ _ _ _ h ih =>
    intro pieces rest he
    simp only [Prod.mk.injEq] at he
    have := ih (by rw [h, he.2])
    simp only [List.length_cons]
    omega
  | case10 c r _ _ _ _ _ _ _ _ h ih =>
    intro pieces rest he
    simp only [Prod.mk.injEq] at he
    have := ih (by rw [h, he.2])
    simp only [List.length_cons]
    omega
  | _ => simp_all

theorem length_stringToken (s : List Char) : (stringToken s).2.length ≤ s.length := by
  unfold stringToken
  split
  · rename_i h
    exact Nat.le_of_lt (length_scanString s h)
  · split <;> simp

theorem length_dropDigits (s : List Char) : (s.dropWhile Char.isDigit).length ≤ s.length :=
  (List.dropWhile_sublist _).length_le

theorem length_readWhole {s r : List Char} {whole : List Char}
    (h : readWhole s = .ok (whole, r)) : r.length < s.length := by
  unfold readWhole at h
  have hd := congrArg List.length (List.takeWhile_append_dropWhile (p := Char.isDigit) (l := s))
  rw [List.length_append] at hd
  dsimp only at h
  split at h
  · cases h
  · cases h
  · rename_i hn _
    cases h
    have := List.length_pos_iff.2 hn
    omega

theorem length_readPart {s r : List Char} {part : Option (List Char)}
    (h : readPart s = .ok (part, r)) : r.length ≤ s.length := by
  unfold readPart at h
  dsimp only at h
  split at h
  · split at h
    · cases h
    · cases h
      exact Nat.le_succ_of_le (length_dropDigits _)
  · cases h
    exact Nat.le_refl _

theorem length_readSign (s : List Char) : (readSign s).2.length ≤ s.length := by
  unfold readSign
  split <;> simp

theorem length_readPower {s r : List Char} {power : Option (Bool × List Char)}
    (h : readPower s = .ok (power, r)) : r.length ≤ s.length := by
  unfold readPower at h
  dsimp only at h
  split at h
  · cases h
    exact Nat.le_refl _
  · split at h
    · split at h
      · cases h
      · cases h
        exact Nat.le_succ_of_le (Nat.le_trans (length_dropDigits _) (length_readSign _))
    · cases h
      exact Nat.le_refl _

theorem length_readNumeral {s r : List Char} {n : Numeral} (h : readNumeral s = .ok (n, r)) :
    r.length < s.length := by
  simp only [readNumeral, bind, Except.bind] at h
  split at h
  · cases h
  · rename_i whole hw
    split at h
    · cases h
    · rename_i part hp
      split at h
      · cases h
      · rename_i power hn
        cases h
        have hw := length_readWhole hw
        have hp := length_readPart hp
        have hn := length_readPower hn
        have hs : (match s with | '-' :: r => (true, r) | r => (false, r)).2.length ≤ s.length := by
          split <;> simp
        omega

theorem length_numberToken {s : List Char} (h : s ≠ []) :
    (numberToken s).2.length < s.length := by
  unfold numberToken
  split
  · rename_i hn
    exact length_readNumeral hn
  · exact List.length_pos_iff.2 h

theorem length_wordToken (t : Token) (word s : List Char) :
    (wordToken t word s).2.length ≤ s.length := by
  fun_induction wordToken t word s with
  | case1 => exact Nat.le_refl _
  | case2 => simp
  | case3 => rename_i ih; exact Nat.le_succ_of_le ih
  | case4 => simp

theorem length_token (c : Char) (r : List Char) : (token c r).2.length ≤ r.length := by
  unfold token
  split
  · exact length_stringToken r
  · split
    · exact Nat.lt_succ_iff.1 (length_numberToken (List.cons_ne_nil c r))
    · split
      · exact length_wordToken ..
      · split
        · exact length_wordToken ..
        · split
          · exact length_wordToken ..
          · split <;> simp

/-- The tokens of a text as far as it can be read. -/
def tokens : List Char → List Token
  | [] => []
  | c :: r => if isBlank c then tokens r else (token c r).1 :: tokens (token c r).2
termination_by s => s.length
decreasing_by
  · simp
  · have := length_token c r
    simp only [List.length_cons]
    omega

end OpStubs.Json
