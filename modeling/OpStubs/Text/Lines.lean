namespace OpStubs.Text

def consFirst (c : Char) : List (List Char) → List (List Char)
  | [] => [[c]]
  | p :: ps => (c :: p) :: ps

/-- The pieces of `s` between the separators: one more piece than there are separators. -/
def pieces (sep : Char) : List Char → List (List Char)
  | [] => [[]]
  | c :: r => if c = sep then [] :: pieces sep r else consFirst c (pieces sep r)

/-- The text before the first `sep` and the text after it, if there is one. -/
def cut (sep : Char) : List Char → Option (List Char × List Char)
  | [] => none
  | c :: r =>
    if c = sep then some ([], r) else (cut sep r).map fun (before, after) => (c :: before, after)

def dropReturn (s : List Char) : List Char :=
  if s.getLast? = some '\r' then s.dropLast else s

/-- The text with line feeds in place of the pairs of a carriage return and a line feed. -/
def joinReturns : List Char → List Char
  | [] => []
  | '\r' :: '\n' :: r => '\n' :: joinReturns r
  | c :: r => c :: joinReturns r

/-- Lines out of their pieces: a carriage return before the line feed belongs to the ending, and
what follows the last line feed is a line only if it is not empty. -/
def linesOfPieces : List (List Char) → List (List Char)
  | [] => []
  | [p] => if p = [] then [] else [p]
  | p :: ps => dropReturn p :: linesOfPieces ps

def lines (s : List Char) : List (List Char) := linesOfPieces (pieces '\n' s)

/-- The lines of a text with their endings, which are a line feed, a carriage return, or both. -/
def linesWithEnds : List Char → List (List Char)
  | [] => []
  | '\r' :: '\n' :: r => ['\r', '\n'] :: linesWithEnds r
  | c :: r =>
    if c = '\n' ∨ c = '\r' then [c] :: linesWithEnds r else consFirst c (linesWithEnds r)

def joinWith (sep : List Char) : List (List Char) → List Char
  | [] => []
  | [p] => p
  | p :: ps => p ++ sep ++ joinWith sep ps

theorem pieces_ne_nil (sep : Char) (s : List Char) : pieces sep s ≠ [] := by
  induction s with
  | nil => simp [pieces]
  | cons c r ih =>
    rw [pieces]
    split
    · simp
    · cases pieces sep r <;> simp [consFirst]

theorem joinWith_pieces (sep : Char) (s : List Char) : joinWith [sep] (pieces sep s) = s := by
  induction s with
  | nil => rfl
  | cons c r ih =>
    rw [pieces]
    cases h : pieces sep r with
    | nil => exact absurd h (pieces_ne_nil sep r)
    | cons p ps =>
      rw [h] at ih
      split
      · rename_i hc
        subst hc
        simp [joinWith, ih]
      · cases ps with
        | nil => simp_all [consFirst, joinWith]
        | cons q qs => simp_all [consFirst, joinWith]

theorem flatten_linesWithEnds (s : List Char) : (linesWithEnds s).flatten = s := by
  fun_induction linesWithEnds s with
  | case1 => rfl
  | case2 r ih => simp [ih]
  | case3 c r _ _ ih => simp [ih]
  | case4 c r _ _ ih =>
    cases h : linesWithEnds r with
    | nil => simp_all [consFirst]
    | cons p ps => simp_all [consFirst]

end OpStubs.Text
