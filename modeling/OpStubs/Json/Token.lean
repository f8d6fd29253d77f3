namespace OpStubs.Json

inductive Fault where
  | malformed
  | truncated
  /-- The document is JSON of another shape than asked for. -/
  | misfit
  deriving DecidableEq, Repr

/-- A place where the text cannot go on. A value that is only passed over is looked at less closely
than one that is read, and may fail otherwise. -/
structure Break where
  read : Fault
  pass : Fault
  deriving DecidableEq, Repr

def Break.both (f : Fault) : Break := ⟨f, f⟩

structure Numeral where
  negative : Bool
  whole : List Char
  /-- The digits behind a point. -/
  part : Option (List Char) := none
  /-- The exponent: whether it is negative, and its digits. -/
  power : Option (Bool × List Char) := none
  deriving DecidableEq, Repr

inductive Token where
  | punct (c : Char)
  | null
  | bool (value : Bool)
  | number (n : Numeral)
  /-- A string that is closed. Its content may still name half a character. -/
  | string (content : Except Fault (List Char))
  /-- The last token of a text that cannot be read further. `quoted` tells that a string began. -/
  | broken (quoted : Bool) (b : Break)
  deriving Repr

end OpStubs.Json
