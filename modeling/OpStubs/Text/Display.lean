import OpStubs.Text.Case

namespace OpStubs.Text

def isUnprintable (c : Char) : Bool := c ≠ ' ' && inRanges Table.unprintable c.toNat

def isExtender (c : Char) : Bool := inRanges Table.graphemeExtend c.toNat

/-- A character by its code point: `\u`, then hexadecimal digits in braces. -/
def codePoint (c : Char) : List Char :=
  ['\\', 'u', '\x7b'] ++ Nat.toDigits 16 c.toNat ++ ['\x7d']

/-- A character inside quotes: the quote, the backslash and the usual controls get a backslash,
what does not stand on its own on paper is named by its code point. -/
def displayChar (quote c : Char) : List Char :=
  if c = '\x00' then ['\\', '0']
  else if c = '\t' then ['\\', 't']
  else if c = '\r' then ['\\', 'r']
  else if c = '\n' then ['\\', 'n']
  else if c = '\\' || c = quote then ['\\', c]
  else if isExtender c || isUnprintable c then codePoint c
  else [c]

def display (quote : Char) (s : List Char) : List Char :=
  [quote] ++ s.flatMap (displayChar quote) ++ [quote]

def displayString (s : String) : String := String.ofList (display '"' s.toList)

def displayLetter (c : Char) : String := String.ofList (display '\'' [c])

end OpStubs.Text
