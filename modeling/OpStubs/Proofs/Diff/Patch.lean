import OpStubs.Diff.Print
import OpStubs.Proofs.Diff.Lines
import OpStubs.Proofs.Diff.Marked
import OpStubs.Proofs.TextParts

namespace OpStubs.Diff

variable {α : Type}

/-- A group of blocks, and how many lines of the old text stand in front of it. -/
structure Hunk (α : Type) where
  start : Nat
  group : List (Block α)
  deriving DecidableEq, Repr

namespace Hunk

def lines (h : Hunk α) : List (Mark × α) := marked h.group

/-- The lines that the old text has to have at this place. -/
def old (h : Hunk α) : List α := (h.lines.filter fun l => l.1 ≠ .add).map Prod.snd

end Hunk

section
variable [DecidableEq α]

/-- Goes through the lines of a text by marked lines: one that stays or is taken away has to be the
next line of the text. Gives the lines of the new text and those of the old one that are left. -/
def follow : List (Mark × α) → List α → Option (List α × List α)
  | [], old => some ([], old)
  | (.add, a) :: ls, old => (follow ls old).map fun (new, rest) => (a :: new, rest)
  | (.context, a) :: ls, b :: old =>
    if a = b then (follow ls old).map fun (new, rest) => (a :: new, rest) else none
  | (.drop, a) :: ls, b :: old => if a = b then follow ls old else none
  | _, [] => none

/-- Applies hunks to what a text has behind its first `start` lines: the lines between the hunks are
copied. -/
def replay (start : Nat) : List (Hunk α) → List α → Option (List α)
  | [], old => some old
  | h :: hs, old =>
    if start ≤ h.start ∧ h.start - start ≤ old.length then do
      let (new, rest) ← follow h.lines (old.drop (h.start - start))
      let more ← replay (h.start + h.old.length) hs rest
      return old.take (h.start - start) ++ new ++ more
    else none

end

/-- Puts a block at the place `start` in front of hunks, into the first of them. -/
def consHunk (start : Nat) (b : Block α) : List (Hunk α) → List (Hunk α)
  | [] => [⟨start, [b]⟩]
  | h :: hs => ⟨start, b :: h.group⟩ :: hs

/-- The groups that blocks at the place `start` are cut into, with their places. -/
def cutAt (n start : Nat) : List (Block α) → List (Hunk α)
  | [] => [⟨start, []⟩]
  | .same l :: rest =>
    if 2 * n < l.length then
      ⟨start, [.same (l.take n)]⟩ ::
        consHunk (start + (l.length - n)) (.same (l.drop (l.length - n)))
          (cutAt n (start + l.length) rest)
    else consHunk start (.same l) (cutAt n (start + l.length) rest)
  | b :: rest => consHunk start b (cutAt n (start + b.old.length) rest)

/-- How many lines `trimStart` leaves out. -/
def trimmed (n : Nat) : List (Block α) → Nat
  | .same l :: _ => l.length - n
  | _ => 0

/-- The groups with their places. -/
def hunks (n : Nat) (bs : List (Block α)) : List (Hunk α) :=
  (cutAt n (trimmed n bs) (trimStop n (trimStart n bs))).filter fun h => h.group.any Block.isChange

theorem group_consHunk (start : Nat) (b : Block α) (hs : List (Hunk α)) :
    (consHunk start b hs).map Hunk.group = consGroup b (hs.map Hunk.group) := by
  cases hs <;> rfl

theorem group_cutAt (n start : Nat) (bs : List (Block α)) :
    (cutAt n start bs).map Hunk.group = cutSame n bs := by
  fun_induction cutAt n start bs <;> simp_all [cutSame, group_consHunk]

theorem group_hunks (n : Nat) (bs : List (Block α)) :
    (hunks n bs).map Hunk.group = groups n bs := by
  rw [hunks, groups, ← group_cutAt n (trimmed n bs), List.filter_map]
  rfl

theorem Hunk.old_eq (h : Hunk α) : h.old = h.group.flatMap Block.old := by
  rw [Hunk.old, Hunk.lines, marked, List.filter_flatMap, List.map_flatMap]
  congr 1
  funext b
  cases b <;> simp [Block.marked, Block.old, List.filter_map, Function.comp_def]

/-- Hunks that lead from some lines, which `start` others stand before, to new ones. -/
inductive Leads : Nat → List (Hunk α) → List α → List α → Prop
  | nil (start : Nat) (l : List α) : Leads start [] l l
  | cons {start : Nat} {h : Hunk α} {hs : List (Hunk α)} {old new : List α} (skipped : List α)
      (hstart : h.start = start + skipped.length)
      (hrest : Leads (h.start + h.old.length) hs old new) :
      Leads start (h :: hs) (skipped ++ (h.old ++ old))
        (skipped ++ (h.group.flatMap Block.new ++ new))

namespace Leads

variable {start : Nat} {hs : List (Hunk α)} {old new : List α}

theorem skip (l : List α) (h : Leads (start + l.length) hs old new) :
    Leads start hs (l ++ old) (l ++ new) := by
  cases h with
  | nil => exact .nil start _
  | cons skipped hstart hrest =>
    have hplace := hstart.trans (Nat.add_assoc start l.length skipped.length)
    rw [← List.length_append] at hplace
    simpa only [List.append_assoc] using Leads.cons (l ++ skipped) hplace hrest

theorem append (h : Leads start hs old new) (l : List α) :
    Leads start hs (old ++ l) (new ++ l) := by
  induction h with
  | nil => exact .nil _ _
  | cons skipped hstart _ ih => simpa using Leads.cons skipped hstart ih

/-- Hunks that change nothing can be left out. -/
theorem filter (h : Leads start hs old new) :
    Leads start (hs.filter fun h => h.group.any Block.isChange) old new := by
  induction h with
  | nil => exact .nil _ _
  | @cons start h hs old new skipped hstart _ ih =>
    rw [List.filter_cons]
    split
    · exact .cons skipped hstart ih
    · rename_i hsame
      have heq : h.group.flatMap Block.new = h.old := by
        rw [h.old_eq]
        refine List.flatMap_congr fun b hb => ?_
        cases b with
        | same l => rfl
        | change => exact absurd (List.any_eq_true.2 ⟨_, hb, rfl⟩) hsame
      rw [heq]
      refine skip skipped (skip h.old ?_)
      rwa [← hstart]

/-- Lines that hunks keep or take away are those at their places. -/
theorem places (h : Leads start hs old new) :
    ∀ k ∈ hs, start ≤ k.start ∧ k.old <+: old.drop (k.start - start) := by
  induction h with
  | nil => simp
  | @cons start h hs old new skipped hstart _ ih =>
    refine List.forall_mem_cons.2 ⟨⟨by omega, ?_⟩, fun k hk => ?_⟩
    · simp [hstart]
    · obtain ⟨hle, hold⟩ := ih k hk
      refine ⟨by omega, ?_⟩
      have hdrop : (skipped ++ (h.old ++ old)).drop (k.start - start) =
          old.drop (k.start - (h.start + h.old.length)) := by
        rw [← List.append_assoc, List.drop_append, List.drop_eq_nil_of_le (by simp; omega),
          List.nil_append, List.length_append]
        congr 1
        omega
      rwa [hdrop]

end Leads

section
variable [DecidableEq α]

theorem follow_block (b : Block α) (ls : List (Mark × α)) (old : List α) :
    follow (b.marked ++ ls) (b.old ++ old) =
      (follow ls old).map fun (new, rest) => (b.new ++ new, rest) := by
  cases b with
  | same l =>
    induction l with
    | nil => simp [Block.marked, Block.old, Block.new]
    | cons a l ih => simp_all [Block.marked, Block.old, Block.new, follow, Function.comp_def]
  | change gone come =>
    induction gone with
    | nil =>
      induction come with
      | nil => simp [Block.marked, Block.old, Block.new]
      | cons a come ih => simp_all [Block.marked, Block.old, Block.new, follow, Function.comp_def]
    | cons a gone ih => simp_all [Block.marked, Block.old, Block.new, follow]

theorem follow_marked (g : List (Block α)) (rest : List α) :
    follow (marked g) (g.flatMap Block.old ++ rest) = some (g.flatMap Block.new, rest) := by
  induction g with
  | nil => rfl
  | cons b g ih =>
    rw [marked, List.flatMap_cons, List.flatMap_cons, List.append_assoc, follow_block, ← marked, ih]
    rfl

theorem Leads.replay {start : Nat} {hs : List (Hunk α)} {old new : List α}
    (h : Leads start hs old new) : replay start hs old = some new := by
  induction h with
  | nil => rfl
  | @cons start h hs old new skipped hstart _ ih =>
    have hskip : h.start - start = skipped.length := by omega
    have hfollow := follow_marked h.group old
    rw [← h.old_eq] at hfollow
    simp [Diff.replay, hskip, hstart ▸ Nat.le_add_right start _, Hunk.lines, hfollow, ih]

end

/-- Hunks of which the first starts at the place `start` itself. -/
inductive Opens (start : Nat) : List (Hunk α) → List α → List α → Prop
  | cons {h : Hunk α} {hs : List (Hunk α)} {old new : List α} (hstart : h.start = start)
      (hrest : Leads (h.start + h.old.length) hs old new) :
      Opens start (h :: hs) (h.old ++ old) (h.group.flatMap Block.new ++ new)

theorem Opens.leads {start : Nat} {hs : List (Hunk α)} {old new : List α}
    (h : Opens start hs old new) : Leads start hs old new := by
  cases h with
  | cons hstart hrest => exact .cons [] hstart hrest

theorem Opens.consHunk {start : Nat} {b : Block α} {hs : List (Hunk α)} {old new : List α}
    (h : Opens (start + b.old.length) hs old new) :
    Opens start (consHunk start b hs) (b.old ++ old) (b.new ++ new) := by
  cases h with
  | @cons h hs old new hstart hrest =>
    have hold : (Hunk.mk start (b :: h.group)).old = b.old ++ h.old := by
      rw [Hunk.old_eq, Hunk.old_eq, List.flatMap_cons]
    have hnew : (b :: h.group).flatMap Block.new = b.new ++ h.group.flatMap Block.new :=
      List.flatMap_cons ..
    rw [← List.append_assoc, ← List.append_assoc, ← hold, ← hnew]
    refine .cons rfl ?_
    rw [hold, List.length_append, ← Nat.add_assoc, ← hstart]
    exact hrest

/-- Lines that stay are a hunk by themselves in front of hunks from which lines separate them. -/
theorem Opens.cut {start : Nat} {hs : List (Hunk α)} {old new : List α} (front middle : List α)
    (h : Opens (start + front.length + middle.length) hs old new) :
    Opens start (⟨start, [.same front]⟩ :: hs) (front ++ (middle ++ old))
      (front ++ (middle ++ new)) := by
  have hold : (Hunk.mk start [Block.same front]).old = front := by
    rw [Hunk.old_eq, List.flatMap_singleton, Block.old]
  have hnew : [Block.same front].flatMap Block.new = front := List.flatMap_singleton ..
  have hrest : Leads (start + (Hunk.mk start [Block.same front]).old.length) hs (middle ++ old)
      (middle ++ new) := by
    rw [hold]
    exact h.leads.skip middle
  have hopens := Opens.cons (h := ⟨start, [.same front]⟩) rfl hrest
  rwa [hold, hnew] at hopens

/-- The lines of a text in three parts: the first `n`, those in the middle, and the last `n`. -/
theorem exists_middle {n : Nat} {l : List α} (h : 2 * n < l.length) :
    ∃ middle, n + middle.length = l.length - n ∧
      ∀ rest, l ++ rest = l.take n ++ (middle ++ (l.drop (l.length - n) ++ rest)) := by
  refine ⟨(l.drop n).take (l.length - 2 * n), ?_, fun rest => ?_⟩
  · rw [List.length_take, List.length_drop]
    omega
  · have hdrop : l.drop (l.length - n) = (l.drop n).drop (l.length - 2 * n) := by
      rw [List.drop_drop]
      congr 1
      omega
    rw [hdrop, ← List.append_assoc (List.take _ (l.drop n)), List.take_append_drop,
      ← List.append_assoc, List.take_append_drop]

theorem opens_cutAt (n start : Nat) (bs : List (Block α)) :
    Opens start (cutAt n start bs) (bs.flatMap Block.old) (bs.flatMap Block.new) := by
  fun_induction cutAt n start bs with
  | case1 start => exact .cons rfl (.nil _ [])
  | case2 start l rest hlong ih =>
    obtain ⟨middle, hmiddle, hl⟩ := exists_middle hlong
    have hfront : (l.take n).length = n := List.length_take_of_le (by omega)
    have hstop : start + (l.length - n) + (l.drop (l.length - n)).length = start + l.length := by
      rw [List.length_drop]
      omega
    rw [List.flatMap_cons, List.flatMap_cons, Block.old, Block.new, hl, hl]
    refine .cut _ middle ?_
    rw [hfront, Nat.add_assoc, hmiddle]
    exact Opens.consHunk (b := .same (l.drop (l.length - n))) (hstop ▸ ih)
  | case3 start l rest _ ih => exact ih.consHunk
  | case4 start b rest _ ih => exact ih.consHunk

/-- What `trimStart` leaves out is `trimmed` lines at the start of either text. -/
theorem exists_trimStart (n : Nat) (bs : List (Block α)) :
    ∃ l : List α, l.length = trimmed n bs ∧
      bs.flatMap Block.old = l ++ (trimStart n bs).flatMap Block.old ∧
      bs.flatMap Block.new = l ++ (trimStart n bs).flatMap Block.new := by
  fun_cases trimStart n bs with
  | case1 l rest =>
    refine ⟨l.take (l.length - n), ?_, ?_, ?_⟩
    · rw [List.length_take, trimmed]
      omega
    · rw [List.flatMap_cons, List.flatMap_cons, Block.old, Block.old, ← List.append_assoc,
        List.take_append_drop]
    · rw [List.flatMap_cons, List.flatMap_cons, Block.new, Block.new, ← List.append_assoc,
        List.take_append_drop]
  | case2 bs hne =>
    refine ⟨[], ?_, rfl, rfl⟩
    rcases bs with _ | ⟨l | _, rest⟩
    · rfl
    · exact (hne l rest rfl).elim
    · rfl

/-- What `trimStop` leaves out are the same lines at the end of either text. -/
theorem exists_trimStop (n : Nat) (bs : List (Block α)) :
    ∃ l : List α, bs.flatMap Block.old = (trimStop n bs).flatMap Block.old ++ l ∧
      bs.flatMap Block.new = (trimStop n bs).flatMap Block.new ++ l := by
  fun_induction trimStop n bs with
  | case1 => exact ⟨[], rfl, rfl⟩
  | case2 l => exact ⟨l.drop n, by simp [Block.old], by simp [Block.new]⟩
  | case3 b rest _ ih =>
    obtain ⟨l, hold, hnew⟩ := ih
    exact ⟨l, by simp [hold], by simp [hnew]⟩

/-- The hunks of blocks lead from the lines of one text to those of the other. -/
theorem leads_hunks (n : Nat) (bs : List (Block α)) :
    Leads 0 (hunks n bs) (bs.flatMap Block.old) (bs.flatMap Block.new) := by
  obtain ⟨front, hfront, hold, hnew⟩ := exists_trimStart n bs
  obtain ⟨behind, hold', hnew'⟩ := exists_trimStop n (trimStart n bs)
  have hcut := (opens_cutAt n (trimmed n bs) (trimStop n (trimStart n bs))).leads
  rw [hold, hnew, hold', hnew']
  refine .skip front ?_
  rw [Nat.zero_add, hfront]
  exact hcut.filter.append behind

example :
    let bs : List (Block Nat) := [.same [1, 2], .change [3] [4, 5], .same [6, 7, 8], .change [9] []]
    hunks 1 bs =
        [⟨1, [.same [2], .change [3] [4, 5], .same [6]]⟩, ⟨5, [.same [8], .change [9] []]⟩] ∧
      replay 0 (hunks 1 bs) [1, 2, 3, 6, 7, 8, 9] = some [1, 2, 4, 5, 6, 7, 8] := by
  decide

/-- What makes hunks a patch from some lines to others, with up to `n` lines of context. -/
structure IsPatch [DecidableEq α] (n : Nat) (old new : List α) (hs : List (Hunk α)) : Prop where
  /-- Applied to the old lines, they give the new ones. -/
  replays : replay 0 hs old = some new
  /-- Lines that stay or are taken away are the lines of the old text at their place. -/
  places : ∀ h ∈ hs, h.old <+: old.drop h.start
  shape : ∀ h ∈ hs, IsHunk n h.lines

/-- The hunks by which a text differs from another. -/
def hunksBetween (old new : String) : List (Hunk Line) :=
  hunks context
    (blocks (compact (script (Text.linesWithEnds old.toList) (Text.linesWithEnds new.toList))))

theorem group_hunksBetween (old new : String) :
    (hunksBetween old new).map Hunk.group = between old new := group_hunks ..

theorem isPatch_hunksBetween (old new : String) :
    IsPatch 3 (Text.linesWithEnds old.toList) (Text.linesWithEnds new.toList)
      (hunksBetween old new) := by
  let s := script (Text.linesWithEnds old.toList) (Text.linesWithEnds new.toList)
  have hleads := leads_hunks context (blocks (compact s))
  rw [old_blocks, new_blocks, before_compact, after_compact, before_script, after_script] at hleads
  have halternating : Alternating (blocks (compact s)) :=
    alternating_blocks (filled_compact (filled_script _ _))
  refine ⟨hleads.replay, fun h hh => (hleads.places h hh).2, fun h hh => ?_⟩
  have hgroup : h.group ∈ groups context (blocks (compact s)) :=
    group_hunks context _ ▸ List.mem_map_of_mem hh
  exact isHunk_of_mem_groups (by decide) halternating hgroup

/-- A hunk as it is printed. -/
def Hunk.text (h : Hunk Line) : List Char := h.lines.flatMap fun l => markLine l.1.toChar l.2

theorem printGroup_eq (g : List (Block Line)) :
    printGroup g = (marked g).flatMap fun l => markLine l.1.toChar l.2 := by
  rw [printGroup, marked, List.flatMap_assoc]
  congr 1
  funext b
  cases b <;> simp [Block.print, Block.marked, List.flatMap_map, Mark.toChar]

/-- The printed diff is a patch from the existing text to the new one: a header and the hunks, with
`...` between them. -/
theorem print_isPatch (label old new : String) :
    Text.SplitsInto old.toList (Text.linesWithEnds old.toList) ∧
    Text.SplitsInto new.toList (Text.linesWithEnds new.toList) ∧
    (hunksBetween old new).map Hunk.group = between old new ∧
    IsPatch 3 (Text.linesWithEnds old.toList) (Text.linesWithEnds new.toList)
      (hunksBetween old new) ∧
    print label old new =
      "--- " ++ label ++ " (current)\n+++ " ++ label ++ " (generated)\n" ++
        String.ofList ("...\n".toList.intercalate ((hunksBetween old new).map Hunk.text)) := by
  refine ⟨Text.splitsInto_linesWithEnds _, Text.splitsInto_linesWithEnds _,
    group_hunksBetween old new, isPatch_hunksBetween old new, ?_⟩
  have htext : (hunksBetween old new).map Hunk.text = (between old new).map printGroup := by
    rw [← group_hunksBetween, List.map_map]
    exact List.map_congr_left fun h _ => (printGroup_eq h.group).symm
  rw [htext, ← Text.joinWith_eq]
  rfl

end OpStubs.Diff
