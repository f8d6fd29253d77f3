import Mathlib.Data.List.Chain
import OpStubs.Diff.Group

namespace OpStubs.Diff

variable {α : Type}

/-- No run of the script is without lines. -/
def Script.Filled (s : Script α) : Prop := ∀ r ∈ s, r.lines ≠ []

namespace Script

@[simp] theorem filled_nil : Filled ([] : Script α) := by simp [Filled]

@[simp] theorem filled_cons {r : Run α} {s : Script α} :
    Filled (r :: s) ↔ r.lines ≠ [] ∧ Filled s := by simp [Filled]

@[simp] theorem filled_append {s t : Script α} : Filled (s ++ t) ↔ Filled s ∧ Filled t := by
  simp [Filled, or_imp, forall_and]

@[simp] theorem filled_reverse {s : Script α} : Filled s.reverse ↔ Filled s := by simp [Filled]

@[simp] theorem filled_keeping (l : List α) : Filled (keeping l) := by
  cases l <;> simp [keeping, Run.lines]

end Script

theorem filled_replacing (a b : List α) : (replacing a b).Filled := by
  cases a <;> cases b <;> simp [replacing, Run.lines]

theorem filled_keepBefore {l : List α} {s : Script α} (hl : l ≠ []) (hs : s.Filled) :
    (keepBefore l s).Filled := by
  unfold keepBefore
  split <;> simp_all [Run.lines]

theorem filled_keepBehind {l : List α} {s : Script α} (hl : l ≠ []) (hs : s.Filled) :
    (keepBehind l s).Filled := by
  unfold keepBehind
  split <;> simp_all [Run.lines]

section
variable [DecidableEq α]

theorem filled_script (old new : List α) : (script old new).Filled := by
  fun_induction script old new with
  | case1 old new ends between ihStart ihStop =>
    have hb : between.Filled := by
      unfold between
      split
      · exact filled_replacing _ _
      · rename_i h
        exact Script.filled_append.2 ⟨ihStart _ _ h, ihStop _ _ h⟩
    simp [hb]

namespace Focus

theorem filled_up {run : Run α} {front behind : Script α}
    (h : (toScript ⟨front, run, behind⟩).Filled) : (up run front behind).toScript.Filled := by
  fun_induction up run front behind with
  | case2 behind far l m n hn moved ih =>
    have hmoved : moved ≠ [] := by
      have := commonEnd_le m l
      rw [← List.length_pos_iff, List.length_drop]
      omega
    simp only [toScript, List.reverse_cons, Script.filled_append, Script.filled_cons] at h
    apply ih
    simp [toScript, Run.lines, hmoved, filled_keepBefore hmoved h.2.2, h.1.1]
  | _ => simp_all [toScript, Run.lines]

theorem filled_down {front : Script α} {run : Run α} {behind : Script α}
    (h : (toScript ⟨front, run, behind⟩).Filled) : (down front run behind).toScript.Filled := by
  fun_induction down front run behind with
  | case2 front far l m n hn moved ih =>
    have hmoved : moved ≠ [] := by
      have := commonStart_le m l
      rw [← List.length_pos_iff, List.length_take]
      omega
    simp only [toScript, Script.filled_append, Script.filled_reverse, Script.filled_cons] at h
    apply ih
    simp [toScript, Run.lines, hmoved, filled_keepBehind hmoved h.1, h.2.2.2]
  | _ => simp_all [toScript, Run.lines]

end Focus

theorem filled_settleAll {kind : Run α → Bool} {front behind : Script α}
    (h : Script.Filled (front.reverse ++ behind)) : (settleAll kind front behind).Filled := by
  fun_induction settleAll kind front behind with
  | case1 => simpa using h
  | case2 front run behind _ f _ ih =>
    have hf : (f.run :: f.front).reverse ++ f.behind = f.toScript := by simp [Focus.toScript]
    rw [hf] at ih
    exact ih (Focus.filled_down (Focus.filled_up h))
  | case3 front run behind _ f => exact Focus.filled_down (Focus.filled_up h)
  | case4 front run behind _ ih => exact ih (by simpa using h)

theorem filled_compact {s : Script α} (h : s.Filled) : (compact s).Filled :=
  filled_settleAll (filled_settleAll h)

end

/-- What happens to a line. -/
inductive Mark where
  | context
  | drop
  | add
  deriving DecidableEq, Repr

def Mark.toChar : Mark → Char
  | context => ' '
  | drop => '-'
  | add => '+'

/-- The lines of a block, each with its mark. -/
def Block.marked : Block α → List (Mark × α)
  | same l => l.map (.context, ·)
  | change old new => old.map (.drop, ·) ++ new.map (.add, ·)

@[simp] theorem marked_same_eq_nil {l : List α} : (Block.same l).marked = [] ↔ l = [] := by
  simp [Block.marked]

/-- Blocks with lines, in turns such that stay and such that change. -/
structure Alternating (bs : List (Block α)) : Prop where
  filled : ∀ b ∈ bs, b.marked ≠ []
  turns : bs.IsChain fun a b => a.isChange ≠ b.isChange

theorem alternating_cons {b : Block α} {bs : List (Block α)} :
    Alternating (b :: bs) ↔
      b.marked ≠ [] ∧ (∀ c ∈ bs.head?, b.isChange ≠ c.isChange) ∧ Alternating bs := by
  constructor
  · rintro ⟨hfilled, hturns⟩
    obtain ⟨hhead, htail⟩ := List.isChain_cons.1 hturns
    exact ⟨hfilled b List.mem_cons_self, hhead,
      fun c hc => hfilled c (List.mem_cons_of_mem b hc), htail⟩
  · rintro ⟨hb, hhead, hfilled, hturns⟩
    exact ⟨List.forall_mem_cons.2 ⟨hb, hfilled⟩, List.isChain_cons.2 ⟨hhead, hturns⟩⟩

theorem alternating_nil : Alternating ([] : List (Block α)) := ⟨by simp, .nil⟩

theorem alternating_consRun {r : Run α} {bs : List (Block α)} (hr : r.lines ≠ [])
    (hbs : Alternating bs) : Alternating (consRun r bs) := by
  rcases bs with _ | ⟨_ | _, rest⟩ <;> cases r <;>
    simp_all [consRun, alternating_cons, Block.marked, Block.isChange, Run.lines]

/-- A script without empty runs comes to blocks that take turns. -/
theorem alternating_blocks {s : Script α} (h : s.Filled) : Alternating (blocks s) := by
  induction s with
  | nil => exact alternating_nil
  | cons r rest ih =>
    obtain ⟨hr, hrest⟩ := Script.filled_cons.1 h
    exact alternating_consRun hr (ih hrest)

/-- A group that begins as the blocks `bs` do, and of whose last lines at most `n` stay. -/
structure Begins (n : Nat) (bs g : List (Block α)) : Prop where
  turns : Alternating g
  kind : g.head?.map Block.isChange = bs.head?.map Block.isChange
  first : ∀ l, g.head? = some (.same l) → l.length ≤ n ∨ bs.head? = some (.same l)
  last : ∀ l, g.getLast? = some (.same l) → l.length ≤ n

/-- A group of which at most `n` lines stay at either end. -/
structure Clipped (n : Nat) (g : List (Block α)) : Prop where
  turns : Alternating g
  first : ∀ l, g.head? = some (.same l) → l.length ≤ n
  last : ∀ l, g.getLast? = some (.same l) → l.length ≤ n

theorem Begins.clipped {n : Nat} {bs g : List (Block α)} (h : Begins n bs g)
    (hbs : ∀ l, bs.head? = some (.same l) → l.length ≤ n) : Clipped n g :=
  ⟨h.turns, fun l hl => (h.first l hl).elim id (hbs l), h.last⟩

theorem Begins.cons {n : Nat} {b : Block α} {rest g : List (Block α)} (h : Begins n rest g)
    (hb : Alternating (b :: rest)) (hlast : rest = [] → ∀ l, b = .same l → l.length ≤ n) :
    Begins n (b :: rest) (b :: g) := by
  obtain ⟨hfilled, hhead, -⟩ := alternating_cons.1 hb
  refine ⟨alternating_cons.2 ⟨hfilled, fun c hc => ?_, h.turns⟩, rfl, fun l hl => .inr hl, ?_⟩
  · have hkind := h.kind
    rw [hc] at hkind
    obtain ⟨d, hd, heq⟩ := Option.map_eq_some_iff.1 hkind.symm
    rw [← heq]
    exact hhead d hd
  · intro l hl
    cases g with
    | nil =>
      have hrest : rest = [] := by simpa using h.kind.symm
      exact hlast hrest l (by simpa using hl)
    | cons c g => exact h.last l (by simpa using hl)

/-- The first of the lines that stay at the start of some blocks are a group by themselves. -/
theorem begins_take {n : Nat} {l : List α} (rest : List (Block α)) (hn : 0 < n) (hl : l ≠ []) :
    Begins n (.same l :: rest) [.same (l.take n)] := by
  have hfilled : (Block.same (l.take n)).marked ≠ [] := by simp [hl, hn.ne']
  have hlength (m : List α) (hm : some (Block.same (l.take n)) = some (.same m)) : m.length ≤ n := by
    cases hm
    exact List.length_take_le n l
  exact ⟨alternating_cons.2 ⟨hfilled, by simp, alternating_nil⟩, rfl,
    fun m hm => .inl (hlength m hm), hlength⟩

theorem begins_trimStop {n : Nat} {bs : List (Block α)} (hn : 0 < n) (h : Alternating bs) :
    Begins n bs (trimStop n bs) := by
  fun_induction trimStop n bs with
  | case1 => exact ⟨alternating_nil, rfl, by simp, by simp⟩
  | case2 l => exact begins_take [] hn (by simpa using (alternating_cons.1 h).1)
  | case3 b rest hne ih =>
    refine (ih (alternating_cons.1 h).2.2).cons h fun hrest l hl => ?_
    exact (hne l hl hrest).elim

/-- The last of the lines at the start of some blocks stand for all of them. -/
theorem alternating_drop {n : Nat} {l : List α} {rest : List (Block α)} (hn : 0 < n)
    (h : Alternating (.same l :: rest)) : Alternating (.same (l.drop (l.length - n)) :: rest) := by
  obtain ⟨hfilled, hhead, hrest⟩ := alternating_cons.1 h
  refine alternating_cons.2 ⟨?_, hhead, hrest⟩
  rw [ne_eq, marked_same_eq_nil, ← List.length_eq_zero_iff] at hfilled ⊢
  rw [List.length_drop]
  omega

theorem alternating_trimStart {n : Nat} {bs : List (Block α)} (hn : 0 < n) (h : Alternating bs) :
    Alternating (trimStart n bs) := by
  fun_cases trimStart n bs with
  | case1 l rest => exact alternating_drop hn h
  | case2 => exact h

theorem length_drop_le (n : Nat) (l : List α) : (l.drop (l.length - n)).length ≤ n := by
  rw [List.length_drop]
  omega

theorem first_trimStart (n : Nat) (bs : List (Block α)) (l : List α)
    (h : (trimStart n bs).head? = some (.same l)) : l.length ≤ n := by
  rcases bs with _ | ⟨m | _, rest⟩ <;> cases h
  exact length_drop_le n m

/-- The first group that blocks are cut into begins as they do. -/
theorem cutSame_begins {n : Nat} {bs : List (Block α)} (hn : 0 < n) (h : Alternating bs)
    (hlast : ∀ l, bs.getLast? = some (.same l) → l.length ≤ n) :
    ∃ g gs, cutSame n bs = g :: gs ∧ Begins n bs g ∧ ∀ g' ∈ gs, Clipped n g' := by
  induction bs with
  | nil => exact ⟨[], [], rfl, ⟨alternating_nil, rfl, by simp, by simp⟩, by simp⟩
  | cons b rest ih =>
    obtain ⟨hfilled, -, hrest⟩ := alternating_cons.1 h
    have honly (hnil : rest = []) (l : List α) (hl : b = .same l) : l.length ≤ n := by
      subst hnil hl
      exact hlast l rfl
    have hlast' (l : List α) (hl : rest.getLast? = some (.same l)) : l.length ≤ n := by
      refine hlast l ?_
      rw [List.getLast?_cons, hl]
      rfl
    obtain ⟨g, gs, hcut, hg, hgs⟩ := ih hrest hlast'
    cases b with
    | change old new =>
      exact ⟨_, gs, by rw [cutSame.eq_3 _ _ _ (by simp), hcut, consGroup], hg.cons h honly, hgs⟩
    | same l =>
      rw [cutSame, hcut]
      split
      · have hnext := hg.cons (alternating_drop hn h) fun _ m hm => by
          cases hm
          exact length_drop_le n l
        refine ⟨_, _, rfl, begins_take rest hn (by simpa using hfilled), ?_⟩
        refine List.forall_mem_cons.2 ⟨hnext.clipped fun m hm => ?_, hgs⟩
        cases hm
        exact length_drop_le n l
      · exact ⟨_, gs, rfl, hg.cons h honly, hgs⟩

theorem clipped_of_mem_groups {n : Nat} {bs g : List (Block α)} (hn : 0 < n) (h : Alternating bs)
    (hg : g ∈ groups n bs) : Clipped n g := by
  have hstop := begins_trimStop hn (alternating_trimStart hn h)
  obtain ⟨g₀, gs, hcut, hg₀, hgs⟩ := cutSame_begins hn hstop.turns hstop.last
  have hfirst := (hstop.clipped (first_trimStart n bs)).first
  have hmem := (List.mem_filter.1 hg).1
  rw [hcut] at hmem
  rcases List.mem_cons.1 hmem with rfl | hmem
  · exact hg₀.clipped hfirst
  · exact hgs g hmem

end OpStubs.Diff
