namespace OpStubs.Text

def octalDigit? (c : Char) : Option Nat :=
  if '0' ≤ c ∧ c ≤ '7' then some (c.toNat - '0'.toNat) else none

def hexDigit? (c : Char) : Option Nat :=
  if c.isDigit then some (c.toNat - '0'.toNat)
  else if 'a' ≤ c ∧ c ≤ 'f' then some (c.toNat - 'a'.toNat + 10)
  else if 'A' ≤ c ∧ c ≤ 'F' then some (c.toNat - 'A'.toNat + 10)
  else none

def leadingDigits (digit? : Char → Option Nat) : Nat → List Char → List Nat
  | count + 1, c :: r =>
    match digit? c with
    | some d => d :: leadingDigits digit? count r
    | none => []
  | _, _ => []

def ofDigits (base : Nat) (digits : List Nat) : Nat := digits.foldl (fun n d => n * base + d) 0

def hexChar? (count : Nat) (s : List Char) : Option Char :=
  let digits := leadingDigits hexDigit? count s
  let code := ofDigits 16 digits
  if digits.length = count ∧ code.isValidChar then some (Char.ofNat code) else none

end OpStubs.Text
