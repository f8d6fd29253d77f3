import OpStubs.Json.Decode
import OpStubs.Proofs.Json.Numeral
import OpStubs.Proofs.Json.Spelling

namespace OpStubs.Json

/-- A JSON value. A string or a key is none if half a character stands alone in it. The members of
an object stand in their order and may repeat a key. -/
inductive Doc where
  | null
  | bool (value : Bool)
  | number (n : Numeral)
  | string (s : Option String)
  | array (items : List Doc)
  | object (members : List (Option String × Doc))
  deriving Repr

abbrev Members := List (Option String × Doc)

namespace Doc

def content : Option String → Except Fault (List Char)
  | some s => .ok s.toList
  | none => .error .malformed

theorem eq_some_of_content {s : Option String} {l : List Char} (h : content s = .ok l) :
    s = some (String.ofList l) := by
  cases s with
  | none => cases h
  | some s =>
    cases h
    rw [String.ofList_toList]

def stringToken (s : Option String) : Token := .string (content s)

mutual

def tokens : Doc → List Token
  | null => [.null]
  | bool b => [.bool b]
  | number n => [.number n]
  | string s => [stringToken s]
  | array [] => [.punct '[', .punct ']']
  | array (d :: rest) => .punct '[' :: (d.tokens ++ (tokensBehind rest ++ [.punct ']']))
  | object [] => [.punct '\x7b', .punct '\x7d']
  | object ((key, d) :: rest) =>
    .punct '\x7b' :: stringToken key :: .punct ':' ::
      (d.tokens ++ (memberTokensBehind rest ++ [.punct '\x7d']))

/-- The tokens of the items behind a first one. -/
def tokensBehind : List Doc → List Token
  | [] => []
  | d :: rest => .punct ',' :: (d.tokens ++ tokensBehind rest)

def memberTokensBehind : Members → List Token
  | [] => []
  | (key, d) :: rest =>
    .punct ',' :: stringToken key :: .punct ':' :: (d.tokens ++ memberTokensBehind rest)

end

mutual

def tree : Doc → Tree
  | null => .null
  | bool b => .bool b
  | number n => .number n
  | string s => .string (content s)
  | array items => .array (trees items) none
  | object members => .object (memberTrees members) none

def trees : List Doc → List Tree
  | [] => []
  | d :: rest => d.tree :: trees rest

def memberTrees : Members → List Member
  | [] => []
  | (key, d) :: rest => (content key, d.tree) :: memberTrees rest

end

mutual

/-- How many arrays and objects are open inside one another at most. -/
def depth : Doc → Nat
  | array items => depthOfItems items + 1
  | object members => depthOfMembers members + 1
  | _ => 0

def depthOfItems : List Doc → Nat
  | [] => 0
  | d :: rest => max d.depth (depthOfItems rest)

def depthOfMembers : Members → Nat
  | [] => 0
  | (_, d) :: rest => max d.depth (depthOfMembers rest)

end

mutual

/-- The numbers anywhere in a value. -/
def numerals : Doc → List Numeral
  | number n => [n]
  | array items => numeralsOfItems items
  | object members => numeralsOfMembers members
  | _ => []

def numeralsOfItems : List Doc → List Numeral
  | [] => []
  | d :: rest => d.numerals ++ numeralsOfItems rest

def numeralsOfMembers : Members → List Numeral
  | [] => []
  | (_, d) :: rest => d.numerals ++ numeralsOfMembers rest

end

mutual

/-- The strings and the keys anywhere in a value. -/
def strings : Doc → List (Option String)
  | string s => [s]
  | array items => stringsOfItems items
  | object members => stringsOfMembers members
  | _ => []

def stringsOfItems : List Doc → List (Option String)
  | [] => []
  | d :: rest => d.strings ++ stringsOfItems rest

def stringsOfMembers : Members → List (Option String)
  | [] => []
  | (key, d) :: rest => key :: (d.strings ++ stringsOfMembers rest)

end

theorem depth_le_of_mem_items {d : Doc} {items : List Doc} (h : d ∈ items) :
    d.depth ≤ depthOfItems items := by
  induction items with
  | nil => cases h
  | cons e rest ih =>
    rw [depthOfItems]
    rcases List.mem_cons.1 h with rfl | h
    · exact Nat.le_max_left _ _
    · exact Nat.le_trans (ih h) (Nat.le_max_right _ _)

theorem depth_le_of_mem_members {key : Option String} {d : Doc} {members : Members}
    (h : (key, d) ∈ members) : d.depth ≤ depthOfMembers members := by
  induction members with
  | nil => cases h
  | cons m rest ih =>
    rw [depthOfMembers]
    rcases List.mem_cons.1 h with rfl | h
    · exact Nat.le_max_left _ _
    · exact Nat.le_trans (ih h) (Nat.le_max_right _ _)

/-- A value begins with a token that neither ends a list nor breaks off. -/
theorem tokens_eq_cons (d : Doc) : ∃ t ts, d.tokens = t :: ts ∧ t ≠ .punct ']' := by
  cases d with
  | null => exact ⟨_, _, by rw [tokens], by simp⟩
  | bool b => exact ⟨_, _, by rw [tokens], by simp⟩
  | number n => exact ⟨_, _, by rw [tokens], by simp⟩
  | string s => exact ⟨_, _, by rw [tokens], by simp [stringToken]⟩
  | array items =>
    cases items with
    | nil => exact ⟨_, _, by rw [tokens], by simp⟩
    | cons d rest => exact ⟨_, _, by rw [tokens], by simp⟩
  | object members =>
    cases members with
    | nil => exact ⟨_, _, by rw [tokens], by simp⟩
    | cons m rest => exact ⟨_, _, by rw [tokens], by simp⟩

end Doc

namespace State

/-- Reads some tokens. -/
def run (s : State) (ts : List Token) : State := ts.foldl step s

theorem run_cons (s : State) (t : Token) (ts : List Token) : s.run (t :: ts) = (s.step t).run ts :=
  rfl

theorem run_append (s : State) (ts us : List Token) : s.run (ts ++ us) = (s.run ts).run us :=
  List.foldl_append

/-- A first item is read like any other. -/
theorem run_firstItem (d : Doc) (frames : List Frame) :
    (State.firstItem frames).run d.tokens = (State.value (.item [] :: frames)).run d.tokens := by
  obtain ⟨t, ts, hd, ht⟩ := d.tokens_eq_cons
  have hstep : (State.firstItem frames).step t = (State.value (.item [] :: frames)).step t := by
    simp only [step]
  rw [hd, run_cons, run_cons, hstep]

mutual

/-- The tokens of a value are read as the value, in whatever it is part of. -/
theorem run_tokens (d : Doc) (frames : List Frame) :
    (State.value frames).run d.tokens = deliver d.tree frames := by
  match d with
  | .null => rw [Doc.tokens, Doc.tree]; rfl
  | .bool b => rw [Doc.tokens, Doc.tree]; rfl
  | .number n => rw [Doc.tokens, Doc.tree]; rfl
  | .string s => rw [Doc.tokens, Doc.tree]; rfl
  | .array [] => rw [Doc.tokens, Doc.tree, Doc.trees]; rfl
  | .array (d :: rest) =>
    have hfirst : (State.firstItem frames).run d.tokens = .nextItem [d.tree] frames := by
      rw [run_firstItem]
      exact run_tokens d _
    have hrest := run_tokensBehind rest [d.tree] frames
    rw [Doc.tokens, Doc.tree, Doc.trees]
    change (State.firstItem frames).run _ = _
    rw [run_append, hfirst, run_append, hrest]
    rfl
  | .object [] => rw [Doc.tokens, Doc.tree, Doc.memberTrees]; rfl
  | .object ((name, d) :: rest) =>
    have hfirst : (State.value (.member [] (Doc.content name) :: frames)).run d.tokens =
        .nextMember [(Doc.content name, d.tree)] frames := run_tokens d _
    have hrest := run_memberTokensBehind rest [(Doc.content name, d.tree)] frames
    rw [Doc.tokens, Doc.tree, Doc.memberTrees]
    change (State.value (.member [] (Doc.content name) :: frames)).run _ = _
    rw [run_append, hfirst, run_append, hrest]
    rfl

theorem run_tokensBehind (items : List Doc) (before : List Tree) (frames : List Frame) :
    (State.nextItem before frames).run (Doc.tokensBehind items) =
      .nextItem (before ++ Doc.trees items) frames := by
  match items with
  | [] =>
    rw [Doc.tokensBehind, Doc.trees, List.append_nil]
    rfl
  | d :: rest =>
    have hitem : (State.value (.item before :: frames)).run d.tokens =
        .nextItem (before ++ [d.tree]) frames := run_tokens d _
    rw [Doc.tokensBehind, Doc.trees, List.append_cons, ← run_tokensBehind rest]
    change (State.value (.item before :: frames)).run _ = _
    rw [run_append, hitem]

theorem run_memberTokensBehind (members : Members) (before : List Member)
    (frames : List Frame) :
    (State.nextMember before frames).run (Doc.memberTokensBehind members) =
      .nextMember (before ++ Doc.memberTrees members) frames := by
  match members with
  | [] =>
    rw [Doc.memberTokensBehind, Doc.memberTrees, List.append_nil]
    rfl
  | (name, d) :: rest =>
    have hmember : (State.value (.member before (Doc.content name) :: frames)).run d.tokens =
        .nextMember (before ++ [(Doc.content name, d.tree)]) frames := run_tokens d _
    rw [Doc.memberTokensBehind, Doc.memberTrees, List.append_cons, ← run_memberTokensBehind rest]
    change (State.value (.member before (Doc.content name) :: frames)).run _ = _
    rw [run_append, hmember]

end

end State

/-- A text that spells a document is read as the tree of it, with nothing behind. -/
theorem document_spelled {d : Doc} {s : List Char} (h : Spelled d.tokens s) :
    document s = (d.tree, false) := by
  have hrun : (State.value []).run d.tokens = .done d.tree false := State.run_tokens d []
  rw [State.run] at hrun
  rw [document, tokens_spelled h, hrun]
  rfl

theorem parse_spelled {α : Type} {r : Reader α} {d : Doc} {text : String}
    (h : Spelled d.tokens text.toList) : parse r text = r depthLimit d.tree := by
  rw [parse, document_spelled h]
  dsimp only
  cases r depthLimit d.tree <;> rfl

mutual

/-- A value is passed over whatever its depth and its numbers. -/
theorem passOver_tree (d : Doc) : passOver d.tree = .ok () := by
  match d with
  | .null => rw [Doc.tree, passOver] <;> simp
  | .bool b => rw [Doc.tree, passOver] <;> simp
  | .number n => rw [Doc.tree, passOver] <;> simp
  | .string s => rw [Doc.tree, passOver] <;> simp
  | .array items => rw [Doc.tree, passOver, passItems_trees items]; rfl
  | .object members => rw [Doc.tree, passOver, passMembers_trees members]; rfl

theorem passItems_trees (items : List Doc) : passItems (Doc.trees items) = .ok () := by
  match items with
  | [] => rw [Doc.trees, passItems]
  | d :: rest =>
    rw [Doc.trees, passItems, passOver_tree d]
    exact passItems_trees rest

theorem passMembers_trees (members : Members) :
    passMembers (Doc.memberTrees members) = .ok () := by
  match members with
  | [] => rw [Doc.memberTrees, passMembers]
  | (key, d) :: rest =>
    rw [Doc.memberTrees, passMembers, passOver_tree d]
    exact passMembers_trees rest

end

mutual

/-- A value is read if there is room for it, its numbers have values and no half of a character stands
alone in it. -/
theorem readAny_tree (d : Doc) {room : Nat} (hdepth : d.depth ≤ room)
    (hn : ∀ n ∈ d.numerals, ∃ v, n.value = .ok v) (hs : ∀ s ∈ d.strings, s ≠ none) :
    readAny room d.tree = .ok () := by
  match d with
  | .null => rw [Doc.tree, readAny] <;> simp
  | .bool b => rw [Doc.tree, readAny] <;> simp
  | .number n =>
    obtain ⟨v, hv⟩ := hn n (by simp [Doc.numerals])
    rw [Doc.tree, readAny, hv]
    rfl
  | .string none => exact absurd rfl (hs none (by simp [Doc.strings]))
  | .string (some s) =>
    rw [Doc.tree, readAny]
    rfl
  | .array items =>
    rw [Doc.depth] at hdepth
    rw [Doc.numerals] at hn
    rw [Doc.strings] at hs
    rw [Doc.tree, readAny, if_neg (by omega), readItems_trees items (by omega) hn hs]
    rfl
  | .object members =>
    rw [Doc.depth] at hdepth
    rw [Doc.numerals] at hn
    rw [Doc.strings] at hs
    rw [Doc.tree, readAny, if_neg (by omega), readMembers_trees members (by omega) hn hs]
    rfl

theorem readItems_trees (items : List Doc) {room : Nat} (hdepth : Doc.depthOfItems items ≤ room)
    (hn : ∀ n ∈ Doc.numeralsOfItems items, ∃ v, n.value = .ok v)
    (hs : ∀ s ∈ Doc.stringsOfItems items, s ≠ none) :
    readItems room (Doc.trees items) = .ok () := by
  match items with
  | [] => rw [Doc.trees, readItems]
  | d :: rest =>
    simp only [Doc.depthOfItems, Nat.max_le] at hdepth
    rw [Doc.numeralsOfItems, List.forall_mem_append] at hn
    rw [Doc.stringsOfItems, List.forall_mem_append] at hs
    rw [Doc.trees, readItems, readAny_tree d hdepth.1 hn.1 hs.1]
    exact readItems_trees rest hdepth.2 hn.2 hs.2

theorem readMembers_trees (members : Members) {room : Nat}
    (hdepth : Doc.depthOfMembers members ≤ room)
    (hn : ∀ n ∈ Doc.numeralsOfMembers members, ∃ v, n.value = .ok v)
    (hs : ∀ s ∈ Doc.stringsOfMembers members, s ≠ none) :
    readMembers room (Doc.memberTrees members) = .ok () := by
  match members with
  | [] => rw [Doc.memberTrees, readMembers]
  | (key, d) :: rest =>
    simp only [Doc.depthOfMembers, Nat.max_le] at hdepth
    rw [Doc.numeralsOfMembers, List.forall_mem_append] at hn
    rw [Doc.stringsOfMembers, List.forall_mem_cons, List.forall_mem_append] at hs
    obtain ⟨hkey, hvalue, hrest⟩ := hs
    obtain ⟨s, rfl⟩ := Option.ne_none_iff_exists'.1 hkey
    rw [Doc.memberTrees, readMembers, readAny_tree d hdepth.1 hn.1 hvalue]
    exact readMembers_trees rest hdepth.2 hn.2 hrest

end

end OpStubs.Json
