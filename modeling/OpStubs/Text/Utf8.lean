namespace OpStubs.Text.Utf8

/-- A character that some bytes have begun: its value so far, how many bytes it still needs, and
the range the next of them lies in. -/
structure Begun where
  value : Nat
  needed : Nat
  least : UInt8
  greatest : UInt8
  deriving DecidableEq, Repr

def replacement : Char := '\uFFFD'

inductive Lead where
  | whole (c : Char)
  | begun (b : Begun)
  | wrong

/-- The second byte's range keeps out overlong forms, surrogates and values past U+10FFFF. -/
def lead (b : UInt8) : Lead :=
  if b < 0x80 then .whole (Char.ofNat b.toNat)
  else if b < 0xC2 then .wrong
  else if b < 0xE0 then .begun ⟨b.toNat - 0xC0, 1, 0x80, 0xBF⟩
  else if b < 0xF0 then
    .begun ⟨b.toNat - 0xE0, 2, if b = 0xE0 then 0xA0 else 0x80, if b = 0xED then 0x9F else 0xBF⟩
  else if b < 0xF5 then
    .begun ⟨b.toNat - 0xF0, 3, if b = 0xF0 then 0x90 else 0x80, if b = 0xF4 then 0x8F else 0xBF⟩
  else .wrong

/-- Starts a character with `b`: what is written at once, and what is begun. -/
def start (b : UInt8) : List Char × Option Begun :=
  match lead b with
  | .whole c => ([c], none)
  | .begun p => ([], some p)
  | .wrong => ([replacement], none)

/-- Takes one more byte. A byte that the begun character cannot take starts another one. -/
def step (state : Option Begun) (b : UInt8) : List Char × Option Begun :=
  match state with
  | none => start b
  | some p =>
    if p.least ≤ b ∧ b ≤ p.greatest then
      let value := p.value * 64 + (b.toNat - 0x80)
      if p.needed = 1 then ([Char.ofNat value], none)
      else ([], some ⟨value, p.needed - 1, 0x80, 0xBF⟩)
    else
      let (out, next) := start b
      (replacement :: out, next)

def decodeFrom (state : Option Begun) : List UInt8 → List Char
  | [] => if state.isSome then [replacement] else []
  | b :: r => (step state b).1 ++ decodeFrom (step state b).2 r

/-- Reads bytes as UTF-8. Each longest run of bytes that begins a character without completing it,
and each byte that begins none, becomes one U+FFFD. -/
def decodeLossy (bytes : List UInt8) : List Char := decodeFrom none bytes

def encodeChar (c : Char) : List UInt8 := String.utf8EncodeChar c

end OpStubs.Text.Utf8
