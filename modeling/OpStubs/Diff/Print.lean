import OpStubs.Diff.Group
import OpStubs.Text.Lines

namespace OpStubs.Diff

abbrev Line := List Char

def context : Nat := 3

def markLine (mark : Char) (line : Line) : List Char :=
  mark :: if line.getLast? = some '\n' ∨ line.getLast? = some '\r' then line else line ++ ['\n']

def Block.print : Block Line → List Char
  | same l => l.flatMap (markLine ' ')
  | change old new => old.flatMap (markLine '-') ++ new.flatMap (markLine '+')

def printGroup (g : List (Block Line)) : List Char := g.flatMap Block.print

def between (old new : String) : List (List (Block Line)) :=
  groups context
    (blocks (compact (script (Text.linesWithEnds old.toList) (Text.linesWithEnds new.toList))))

/-- What to change in a text, called `label`, to get another. -/
def print (label old new : String) : String :=
  "--- " ++ label ++ " (current)\n+++ " ++ label ++ " (generated)\n" ++
    String.ofList (Text.joinWith "...\n".toList ((between old new).map printGroup))

end OpStubs.Diff
