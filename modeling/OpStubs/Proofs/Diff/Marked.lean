import OpStubs.Proofs.Diff.Blocks

namespace OpStubs.Diff

variable {α : Type}

/-- The lines of a group, each with its mark. -/
def marked (g : List (Block α)) : List (Mark × α) := g.flatMap Block.marked

def isContext (l : Mark × α) : Bool := l.1 = .context

/-- Marked lines as a hunk has them: some change, at most `n` stay at either end, and between two
that stay those that are taken away come before those that are put in. -/
structure IsHunk (n : Nat) (ls : List (Mark × α)) : Prop where
  changes : ∃ l ∈ ls, l.1 ≠ .context
  first : (ls.takeWhile isContext).length ≤ n
  last : (ls.reverse.takeWhile isContext).length ≤ n
  ordered : ∀ part, part <:+: ls → (∀ l ∈ part, l.1 ≠ .context) →
    ∃ old new : List α, part = old.map (.drop, ·) ++ new.map (.add, ·)

theorem isContext_marked {b : Block α} {l : Mark × α} (h : l ∈ b.marked) :
    isContext l = !b.isChange := by
  cases b with
  | same m =>
    obtain ⟨a, -, rfl⟩ := List.mem_map.1 h
    rfl
  | change old new =>
    rcases List.mem_append.1 h with h | h <;> obtain ⟨a, -, rfl⟩ := List.mem_map.1 h <;> rfl

theorem mem_of_head?_marked {b : Block α} {bs : List (Block α)} {l : Mark × α}
    (hb : b.marked ≠ []) (h : (marked (b :: bs)).head? = some l) : l ∈ b.marked := by
  rw [marked, List.flatMap_cons, List.head?_append_of_ne_nil _ hb] at h
  exact List.mem_of_head? h

theorem mem_of_getLast?_marked {b : Block α} {bs : List (Block α)} {l : Mark × α}
    (hb : b.marked ≠ []) (h : (marked (bs ++ [b])).getLast? = some l) : l ∈ b.marked := by
  rw [marked, List.flatMap_append, List.flatMap_singleton, List.getLast?_append_of_ne_nil _ hb] at h
  exact List.mem_of_getLast? h

/-- No line is put in directly before one is taken away. -/
def Ordered (ls : List (Mark × α)) : Prop := ls.IsChain fun a b => ¬(a.1 = .add ∧ b.1 = .drop)

theorem ordered_block (b : Block α) : Ordered b.marked := by
  refine List.Pairwise.isChain ?_
  cases b <;>
    simp [Block.marked, List.pairwise_append, List.pairwise_map, List.pairwise_of_forall]

/-- In blocks that take turns no line is put in directly before one is taken away. -/
theorem ordered_marked {g : List (Block α)} (h : Alternating g) : Ordered (marked g) := by
  induction g with
  | nil => exact .nil
  | cons b rest ih =>
    obtain ⟨-, hhead, hrest⟩ := alternating_cons.1 h
    refine List.isChain_append.2 ⟨ordered_block b, ih hrest, ?_⟩
    rintro x hx y hy ⟨hadd, hdrop⟩
    cases rest with
    | nil => cases hy
    | cons c rest =>
      have hb := isContext_marked (List.mem_of_getLast? hx)
      have hc := isContext_marked (mem_of_head?_marked (alternating_cons.1 hrest).1 hy)
      refine hhead c rfl (Bool.not_inj (hb.symm.trans ?_))
      rw [← hc, isContext, isContext, hadd, hdrop]
      rfl

/-- Lines without one that stays are such that are taken away, and then such that are put in. -/
theorem Ordered.split {ls : List (Mark × α)} (h : Ordered ls) (hc : ∀ l ∈ ls, l.1 ≠ .context) :
    ∃ old new : List α, ls = old.map (.drop, ·) ++ new.map (.add, ·) := by
  induction ls with
  | nil => exact ⟨[], [], rfl⟩
  | cons l ls ih =>
    obtain ⟨hl, hls⟩ := List.forall_mem_cons.1 hc
    obtain ⟨hnext, hchain⟩ := List.isChain_cons.1 h
    obtain ⟨old, new, rfl⟩ := ih hchain hls
    obtain ⟨mark, a⟩ := l
    cases mark with
    | context => exact absurd rfl hl
    | drop => exact ⟨a :: old, new, rfl⟩
    | add =>
      cases old with
      | nil => exact ⟨[], a :: new, rfl⟩
      | cons d old => exact absurd ⟨rfl, rfl⟩ (hnext (.drop, d) rfl)

theorem length_takeWhile_append_le {β : Type} {p : β → Bool} {ls : List β} (front : List β)
    (h : ∀ l, ls.head? = some l → p l = false) :
    ((front ++ ls).takeWhile p).length ≤ front.length := by
  have hls : ls.takeWhile p = [] := by
    cases ls with
    | nil => rfl
    | cons l ls => rw [List.takeWhile_cons, h l rfl, if_neg Bool.false_ne_true]
  rw [List.takeWhile_append, hls]
  split
  · simp
  · exact (List.takeWhile_sublist p).length_le

theorem Clipped.first_marked {n : Nat} {g : List (Block α)} (h : Clipped n g) :
    ((marked g).takeWhile isContext).length ≤ n := by
  have hchange {b : Block α} {bs : List (Block α)} (hb : b.marked ≠ []) (hc : b.isChange = true)
      (l : Mark × α) (hl : (marked (b :: bs)).head? = some l) : isContext l = false := by
    rw [isContext_marked (mem_of_head?_marked hb hl), hc]
    rfl
  cases g with
  | nil => exact Nat.zero_le n
  | cons b bs =>
    obtain ⟨hfilled, hhead, hbs⟩ := alternating_cons.1 h.turns
    cases b with
    | change old new =>
      exact (length_takeWhile_append_le [] (hchange hfilled rfl)).trans (Nat.zero_le n)
    | same l =>
      refine (length_takeWhile_append_le (Block.same l).marked ?_).trans
        ((List.length_map _).trans_le (h.first l rfl))
      cases bs with
      | nil => simp
      | cons c bs =>
        refine hchange (alternating_cons.1 hbs).1 ?_
        simpa [Block.isChange] using hhead c rfl

theorem Clipped.last_marked {n : Nat} {g : List (Block α)} (h : Clipped n g) :
    ((marked g).reverse.takeWhile isContext).length ≤ n := by
  have hchange {b : Block α} {bs : List (Block α)} (hb : b.marked ≠ []) (hc : b.isChange = true)
      (l : Mark × α) (hl : (marked (bs ++ [b])).reverse.head? = some l) : isContext l = false := by
    rw [isContext_marked (mem_of_getLast?_marked hb (List.head?_reverse ▸ hl)), hc]
    rfl
  rcases List.eq_nil_or_concat' g with rfl | ⟨bs, b, rfl⟩
  · exact Nat.zero_le n
  · have hfilled := h.turns.filled b (by simp)
    cases b with
    | change old new =>
      exact (length_takeWhile_append_le [] (hchange hfilled rfl)).trans (Nat.zero_le n)
    | same l =>
      have hmarked : (marked (bs ++ [Block.same l])).reverse =
          (Block.same l).marked.reverse ++ (marked bs).reverse := by
        simp [marked]
      rw [hmarked]
      refine (length_takeWhile_append_le _ ?_).trans
        (((List.length_reverse ..).trans (List.length_map _)).trans_le (h.last l (by simp)))
      rcases List.eq_nil_or_concat' bs with rfl | ⟨bs, c, rfl⟩
      · simp [marked]
      · refine hchange (h.turns.filled c (by simp)) ?_
        have hturn := (List.isChain_append.1 h.turns.turns).2.2 c (by simp) (.same l) rfl
        simpa [Block.isChange] using hturn

/-- The lines of a group that is cut out of blocks are as a hunk has them. -/
theorem isHunk_of_mem_groups {n : Nat} {bs g : List (Block α)} (hn : 0 < n) (h : Alternating bs)
    (hg : g ∈ groups n bs) : IsHunk n (marked g) := by
  have hclipped := clipped_of_mem_groups hn h hg
  obtain ⟨b, hb, hchange⟩ := List.any_eq_true.1 (List.mem_filter.1 hg).2
  obtain ⟨l, hl⟩ := List.exists_mem_of_ne_nil _ (hclipped.turns.filled b hb)
  refine ⟨⟨l, List.mem_flatMap.2 ⟨b, hb, hl⟩, ?_⟩, hclipped.first_marked, hclipped.last_marked,
    fun part hpart hc => ?_⟩
  · have := isContext_marked hl
    simpa [isContext, hchange] using this
  · have hordered : Ordered part := List.IsChain.infix (ordered_marked hclipped.turns) hpart
    exact hordered.split hc

end OpStubs.Diff
