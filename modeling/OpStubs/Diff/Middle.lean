namespace OpStubs.Diff

variable {α : Type} [DecidableEq α]

/-- How far paths of a number of edits have come. Diagonal `k` holds the places `x` in the first
text that stand against `x - k` in the second, and the furthest of them that is reached. -/
structure Reach where
  centre : Nat
  furthest : Array Nat
  deriving Repr

namespace Reach

/-- Nothing reached, with room for the diagonals from `-size` on and below `size`. -/
def empty (size : Nat) : Reach := ⟨size, Array.replicate (2 * size) 0⟩

def get (v : Reach) (k : Int) : Nat := v.furthest.getD (k + v.centre).toNat 0

def set (v : Reach) (k : Int) (x : Nat) : Reach :=
  { v with furthest := v.furthest.setIfInBounds (k + v.centre).toNat x }

/-- Where the path of `d` edits that comes furthest enters diagonal `k`: from above by an addition,
or else by a deletion. -/
def enter (v : Reach) (d : Nat) (k : Int) : Nat :=
  if k = -d ∨ (k ≠ d ∧ v.get (k - 1) < v.get (k + 1)) then v.get (k + 1) else v.get (k - 1) + 1

end Reach

/-- Where lines that are equal from places `x` and `y` on end. -/
def slide (a b : Array α) (x y : Nat) : Nat :=
  if _h : x < a.size ∧ y < b.size then
    if a[x] = b[y] then slide a b (x + 1) (y + 1) else x
  else x
termination_by a.size - x

def Reach.extend (v : Reach) (a b : Array α) (d : Nat) (k : Int) : Reach :=
  let x := v.enter d k
  let y := x - k
  v.set k (if 0 ≤ y then slide a b x y.toNat else x)

def diagonals (d : Nat) : List Int := (List.range (d + 1)).map fun (i : Nat) => (d : Int) - 2 * i

/-- Two texts and the same texts backwards. -/
structure Pair (α : Type) where
  old : Array α
  new : Array α
  oldBack : Array α
  newBack : Array α

namespace Pair

def ofLists (old new : List α) : Pair α :=
  ⟨old.toArray, new.toArray, old.reverse.toArray, new.reverse.toArray⟩

/-- The diagonal that a path from the start and a path from the end both have the number 0 minus. -/
def delta (p : Pair α) : Int := (p.old.size : Int) - p.new.size

/-- Whether a path on diagonal `k` has met one from the other end, which may be on any diagonal that
`room` edits reach. -/
def meets (p : Pair α) (v other : Reach) (k room : Int) : Bool :=
  (k - p.delta).natAbs ≤ room && p.old.size ≤ v.get k + other.get (p.delta - k)

/-- Extends paths from the start. Fails with the place where one enters the diagonal on which it
meets a path from the end. -/
def forward (p : Pair α) (d : Nat) (other v : Reach) (k : Int) : Except (Nat × Nat) Reach :=
  let x := v.enter d k
  let v := v.extend p.old p.new d k
  if p.delta % 2 ≠ 0 ∧ p.meets v other k (d - 1) then .error (x, (x - k).toNat) else .ok v

/-- Extends paths from the end. Fails with the place which one has come to that meets a path from
the start. -/
def backward (p : Pair α) (d : Nat) (other v : Reach) (k : Int) : Except (Nat × Nat) Reach :=
  let v := v.extend p.oldBack p.newBack d k
  if p.delta % 2 = 0 ∧ p.meets v other k d then
    .error (p.old.size - v.get k, ((p.new.size : Int) - (v.get k - k)).toNat)
  else .ok v

def round (p : Pair α) (v : Reach × Reach) (d : Nat) : Except (Nat × Nat) (Reach × Reach) := do
  let fromStart ← (diagonals d).foldlM (p.forward d v.2) v.1
  let fromEnd ← (diagonals d).foldlM (p.backward d fromStart) v.2
  return (fromStart, fromEnd)

end Pair

/-- A place on a shortest way from one text to the other, half of the edits before it. -/
def middle? (old new : List α) : Option (Nat × Nat) :=
  let p := Pair.ofLists old new
  let limit := (old.length + new.length + 1) / 2 + 1
  match (List.range limit).foldlM p.round (.empty limit, .empty limit) with
  | .ok _ => none
  | .error place => some place

end OpStubs.Diff
