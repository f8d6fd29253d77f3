import OpStubs.Text.Case

namespace OpStubs.Naming

def reservedWords : List String :=
  ["and", "break", "do", "else", "elseif", "end", "false", "for", "function", "goto", "if", "in",
   "local", "nil", "not", "or", "repeat", "return", "then", "true", "until", "while"]

/-- A reserved word gets an underscore at its end; any other name is kept. -/
def escapeReserved (name : String) : String := if name ∈ reservedWords then name ++ "_" else name

/-- Acronyms whose capitals the passes below would split wrongly, with the spelling that they split
rightly. The order counts: a later entry may be part of an earlier one. -/
def acronyms : List (String × String) :=
  [("Conv2D", "Conv2d"), ("Conv3D", "Conv3d"), ("Dilation2D", "Dilation2d"), ("TPU", "Tpu"),
   ("TopK", "Topk"), ("LMDB", "Lmdb"), ("LRN", "Lrn"), ("Pool3D", "Pool3d"),
   ("IFFT2D", "Ifft2d"), ("IFFT3D", "Ifft3d"), ("IFFT", "Ifft"), ("FFT2D", "Fft2d"),
   ("FFT3D", "Fft3d"), ("FFT", "Fft"), ("LSTM", "Lstm"), ("BatchToSpaceND", "BatchToSpaceNd"),
   ("ApplyAdagradDA", "ApplyAdagradDa")]

/-- Past `skip` characters, writes `new` for each occurrence of `old`. -/
def replaceFrom (old new : List Char) (skip : Nat) : List Char → List Char
  | [] => []
  | c :: r =>
    match skip with
    | k + 1 => replaceFrom old new k r
    | 0 =>
      if old.isPrefixOf (c :: r) then new ++ replaceFrom old new (old.length - 1) r
      else c :: replaceFrom old new 0 r

/-- Writes `new` for each occurrence of `old`, from left to right, never inside what was written. -/
def replaceAll (old new s : List Char) : List Char := replaceFrom old new 0 s

def fixAcronyms (s : List Char) : List Char :=
  acronyms.foldl (fun s (old, new) => replaceAll old.toList new.toList s) s

def isCapital (c : Char) : Bool := 'A' ≤ c && c ≤ 'Z'

/-- Whether a capital before `c` begins a word with it. -/
def continuesWord (c : Char) : Bool := ('a' ≤ c && c ≤ 'z') || c.isDigit

/-- Two or more capitals at the end are a word of their own. -/
def lowerTrailing (s : List Char) : List Char :=
  let capitals := (s.reverse.takeWhile isCapital).reverse
  if 2 ≤ capitals.length then
    s.take (s.length - capitals.length) ++ '_' :: capitals.map Char.toLower
  else s

/-- The capitals of `run` but for the last, which begins a word, in lower case. -/
def lowerRun (run : List Char) : List Char :=
  run.dropLast.map Char.toLower ++ run.getLast?.toList

/-- Three or more capitals at the start, the last of which begins a word: the others are one too. -/
def lowerLeading (s : List Char) : List Char :=
  let capitals := s.takeWhile isCapital
  let rest := s.dropWhile isCapital
  if 3 ≤ capitals.length && rest.head?.any continuesWord then lowerRun capitals ++ rest else s

/-- `run` is the run of capitals just read. Where it has three or more, the last of which begins a
word, the others become a word of their own. -/
def lowerInner (run : List Char) : List Char → List Char
  | [] => run
  | c :: r =>
    if isCapital c then lowerInner (run ++ [c]) r
    else if 3 ≤ run.length && continuesWord c then '_' :: lowerRun run ++ c :: lowerInner [] r
    else run ++ c :: lowerInner [] r

def markCapitals (s : List Char) : List Char :=
  s.flatMap fun c => if isCapital c then ['_', c] else [c]

/-- An underscore before each capital but one at the very start, and all in lower case. -/
def splitWords : List Char → List Char
  | [] => []
  | c :: r => Text.lower (c :: markCapitals r)

def normalizeChars (s : List Char) : List Char :=
  if s = Text.upper s then Text.lower s
  else splitWords (lowerInner [] (lowerLeading (lowerTrailing (fixAcronyms s))))

/-- The words of an operation's name in lower case, underscores between them. A name without any
small letter is one word. -/
def normalize (name : String) : String := String.ofList (normalizeChars name.toList)

def functionName (op : String) : String := escapeReserved (normalize op)

/-- The parameter for an input. `tensor` would hide the wrapper's own type. -/
def inputVar (name : String) : String :=
  if name = "tensor" then "input_tensor" else escapeReserved name

def attrVar (name : String) : String :=
  if name = "template" then "template_arg" else escapeReserved name

end OpStubs.Naming
