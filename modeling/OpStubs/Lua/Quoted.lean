namespace OpStubs.Lua

def escapeChar (c : Char) : List Char :=
  if c = '\\' then ['\\', '\\']
  else if c = '"' then ['\\', '"']
  else if c = '\n' then ['\\', 'n']
  else if c = '\r' then ['\\', 'r']
  else if c = '\t' then ['\\', 't']
  else [c]

def escapeChars (s : List Char) : List Char := s.flatMap escapeChar

def escape (s : String) : String := String.ofList (escapeChars s.toList)

/-- A double-quoted literal that stands for `s`. -/
def quote (s : String) : String := "\"" ++ escape s ++ "\""

@[simp] theorem toList_escape (s : String) : (escape s).toList = escapeChars s.toList := by
  simp [escape]

theorem toList_quote (s : String) : (quote s).toList = '"' :: escapeChars s.toList ++ ['"'] := by
  simp [quote]

end OpStubs.Lua
