import Mathlib.Data.List.Induction
import OpStubs.Proofs.TextFormat.Utf8

namespace OpStubs.Text.Utf8

/-- Whether some bytes on both sides of a cut are read together as one character, which may be
U+FFFD in place of one that is cut short. -/
def Severs (before after : List UInt8) : Prop :=
  ∃ u v, u ≠ [] ∧ v ≠ [] ∧ u <:+ before ∧ v <+: after ∧ ∃ c, decodeLossy (u ++ v) = [c]

/-- The character that is begun behind some bytes. -/
def begunBy (state : Option Begun) (bytes : List UInt8) : Option Begun :=
  bytes.foldl (fun state b => (step state b).2) state

/-- The characters that are complete behind some bytes. -/
def written (state : Option Begun) : List UInt8 → List Char
  | [] => []
  | b :: r => (step state b).1 ++ written (step state b).2 r

/-- Whether a byte goes on with a begun character. -/
def Begun.Takes (p : Begun) (b : UInt8) : Prop := p.least ≤ b ∧ b ≤ p.greatest

/-- Whether a begun character takes only bytes that begin none. -/
structure Begun.IsProper (p : Begun) : Prop where
  least : 0x80 ≤ p.least
  greatest : p.greatest ≤ 0xBF

section Step
variable {p : Begun} {b : UInt8} {state : Option Begun} {bytes : List UInt8}

theorem Begun.IsProper.toNat_takes (h : p.IsProper) (hb : p.Takes b) :
    0x80 ≤ b.toNat ∧ b.toNat ≤ 0xBF := by
  have hleast : (0x80 : UInt8).toNat ≤ p.least.toNat := UInt8.le_iff_toNat_le.1 h.least
  have hgreatest : p.greatest.toNat ≤ (0xBF : UInt8).toNat := UInt8.le_iff_toNat_le.1 h.greatest
  have hb1 := UInt8.le_iff_toNat_le.1 hb.1
  have hb2 := UInt8.le_iff_toNat_le.1 hb.2
  exact ⟨Nat.le_trans hleast hb1, Nat.le_trans hb2 hgreatest⟩

theorem lead_of_takes (h : p.IsProper) (hb : p.Takes b) : lead b = .wrong := by
  obtain ⟨h1, h2⟩ := h.toNat_takes hb
  have hbyte := lead_byte (n := b.toNat) (UInt8.toNat_lt b)
  rw [UInt8.ofNat_toNat] at hbyte
  rw [hbyte, if_neg (by omega), if_pos (by omega)]

theorem isProper_of_lead (h : lead b = .begun p) : p.IsProper := by
  unfold lead at h
  split at h
  · cases h
  split at h
  · cases h
  split at h
  · obtain rfl := Lead.begun.inj h
    exact ⟨UInt8.le_refl _, UInt8.le_refl _⟩
  split at h
  · obtain rfl := Lead.begun.inj h
    constructor
    · dsimp only
      split <;> decide
    · dsimp only
      split <;> decide
  split at h
  · obtain rfl := Lead.begun.inj h
    constructor
    · dsimp only
      split <;> decide
    · dsimp only
      split <;> decide
  · cases h

theorem start_eq_some (h : (start b).2 = some p) : lead b = .begun p ∧ start b = ([], some p) := by
  unfold start at h ⊢
  cases hb : lead b with
  | whole c => rw [hb] at h; cases h
  | begun q =>
    rw [hb] at h
    cases h
    exact ⟨rfl, rfl⟩
  | wrong => rw [hb] at h; cases h

theorem step_not_takes (hb : ¬ p.Takes b) :
    step (some p) b = (replacement :: (start b).1, (start b).2) := by
  have hrange : ¬ (p.least ≤ b ∧ b ≤ p.greatest) := hb
  rw [step, if_neg hrange]

/-- A byte begins a character, or goes on with one that takes more. -/
theorem step_eq_some (h : (step state b).2 = some p) : start b = ([], some p) ∨
    ∃ q, state = some q ∧ q.Takes b ∧ (step state b).1 = [] ∧ p.least = 0x80 ∧ p.greatest = 0xBF := by
  cases state with
  | none => exact .inl (start_eq_some h).2
  | some q =>
    by_cases hb : q.Takes b
    · have hrange : q.least ≤ b ∧ b ≤ q.greatest := hb
      by_cases hneeded : q.needed = 1
      · simp [step, hrange, hneeded] at h
      · simp only [step, if_pos hrange, if_neg hneeded] at h
        obtain rfl := Option.some.inj h
        refine .inr ⟨q, rfl, hb, ?_, rfl, rfl⟩
        simp only [step, if_pos hrange, if_neg hneeded]
    · rw [step_not_takes hb] at h
      exact .inl (start_eq_some h).2

theorem begunBy_concat : begunBy state (bytes ++ [b]) = (step (begunBy state bytes) b).2 := by
  rw [begunBy, List.foldl_append]
  rfl

theorem written_append (more : List UInt8) : written state (bytes ++ more) =
    written state bytes ++ written (begunBy state bytes) more := by
  induction bytes generalizing state with
  | nil => rfl
  | cons b bytes ih =>
    rw [List.cons_append, written, written, ih, List.append_assoc]
    rfl

theorem isProper_begunBy (h : begunBy none bytes = some p) : p.IsProper := by
  cases bytes using List.reverseRecOn with
  | nil => cases h
  | append_singleton bytes b =>
    rw [begunBy_concat] at h
    rcases step_eq_some h with h | ⟨-, -, -, -, hleast, hgreatest⟩
    · exact isProper_of_lead (start_eq_some (congrArg Prod.snd h)).1
    · exact ⟨UInt8.le_of_eq hleast.symm, UInt8.le_of_eq hgreatest⟩

/-- What is read of bytes is what is complete behind the first of them and what is read of the
others from there. -/
theorem decodeFrom_append (state : Option Begun) (bytes more : List UInt8) :
    decodeFrom state (bytes ++ more) =
      written state bytes ++ decodeFrom (begunBy state bytes) more := by
  induction bytes generalizing state with
  | nil => rfl
  | cons b bytes ih =>
    rw [List.cons_append, decodeFrom, written, ih, List.append_assoc]
    rfl

theorem decodeFrom_eq (state : Option Begun) (bytes : List UInt8) : decodeFrom state bytes =
    written state bytes ++ decodeFrom (begunBy state bytes) [] := by
  have h := decodeFrom_append state bytes []
  rwa [List.append_nil] at h

/-- A byte that does not go on with the begun character starts anew. -/
theorem decodeFrom_not_takes (hb : ¬ p.Takes b) :
    decodeFrom (some p) (b :: bytes) = replacement :: decodeFrom none (b :: bytes) := by
  rw [decodeFrom, step_not_takes hb]
  rfl

/-- A byte that goes on with a character completes it, or leaves it begun. -/
theorem step_takes (hb : p.Takes b) : (∃ c, step (some p) b = ([c], none)) ∨
    ∃ q, q.IsProper ∧ step (some p) b = ([], some q) := by
  have hrange : p.least ≤ b ∧ b ≤ p.greatest := hb
  by_cases hneeded : p.needed = 1
  · left
    simp only [step, if_pos hrange, if_pos hneeded]
    exact ⟨_, rfl⟩
  · right
    simp only [step, if_pos hrange, if_neg hneeded]
    exact ⟨_, ⟨UInt8.le_refl _, UInt8.le_refl _⟩, rfl⟩

theorem decodeFrom_none_takes (hp : p.IsProper) (hb : p.Takes b) :
    decodeFrom none (b :: bytes) = replacement :: decodeFrom none bytes := by
  rw [decodeFrom, step, start, lead_of_takes hp hb]
  rfl

theorem length_decodeFrom_takes (hp : p.IsProper) (hb : p.Takes b)
    (h : ∀ q : Begun, q.IsProper →
      (decodeFrom (some q) bytes).length ≤ (decodeFrom none bytes).length + 1) :
    (decodeFrom (some p) (b :: bytes)).length < (decodeFrom none (b :: bytes)).length + 1 := by
  rw [decodeFrom_none_takes hp hb, decodeFrom]
  rcases step_takes hb with ⟨c, hstep⟩ | ⟨q, hq, hstep⟩
  · rw [hstep]
    simp
  · have hrest := h q hq
    rw [hstep]
    simp only [List.nil_append, List.length_cons]
    omega

/-- A begun character adds at most one to what is read. -/
theorem length_decodeFrom_some (hp : p.IsProper) (bytes : List UInt8) :
    (decodeFrom (some p) bytes).length ≤ (decodeFrom none bytes).length + 1 := by
  induction bytes generalizing p with
  | nil => simp [decodeFrom]
  | cons b r ih =>
    by_cases hb : p.Takes b
    · have hlt := length_decodeFrom_takes hp hb fun q hq => ih hq
      omega
    · exact Nat.le_of_eq (by rw [decodeFrom_not_takes hb, List.length_cons])

theorem decodeFrom_some_ne_nil (bytes : List UInt8) : decodeFrom (some p) bytes ≠ [] := by
  induction bytes generalizing p with
  | nil => simp [decodeFrom]
  | cons b r ih =>
    by_cases hb : p.Takes b
    · rw [decodeFrom]
      rcases step_takes hb with ⟨c, hstep⟩ | ⟨q, -, hstep⟩
      · rw [hstep]
        simp
      · rw [hstep]
        exact ih
    · rw [decodeFrom_not_takes hb]
      simp

theorem decodeLossy_ne_nil (h : bytes ≠ []) : decodeLossy bytes ≠ [] := by
  cases bytes with
  | nil => exact absurd rfl h
  | cons b r =>
    rw [decodeLossy, decodeFrom, step, start]
    cases lead b with
    | whole c => simp
    | begun p => exact decodeFrom_some_ne_nil r
    | wrong => simp

theorem decodeLossy_append_of_not_takes {after : List UInt8}
    (h : ∀ p, begunBy none bytes = some p → ∀ b ∈ after.head?, ¬ p.Takes b) :
    decodeLossy (bytes ++ after) = decodeLossy bytes ++ decodeLossy after := by
  rw [decodeLossy, decodeLossy, decodeFrom_append, decodeFrom_eq none bytes]
  cases hbegun : begunBy none bytes with
  | none =>
    rw [decodeFrom, List.append_assoc]
    rfl
  | some p =>
    have hsome : decodeFrom (some p) after = replacement :: decodeFrom none after := by
      cases after with
      | nil => rfl
      | cons b r => exact decodeFrom_not_takes (h p hbegun b rfl)
    rw [hsome, List.append_assoc]
    rfl

/-- The bytes of a begun character stand at the end. -/
theorem exists_begun (h : begunBy none bytes = some p) :
    ∃ u, u ≠ [] ∧ u <:+ bytes ∧ begunBy none u = some p ∧ written none u = [] := by
  induction bytes using List.reverseRecOn generalizing p with
  | nil => cases h
  | append_singleton bytes b ih =>
    rw [begunBy_concat] at h
    rcases step_eq_some h with hstart | ⟨q, hbegun, -, hwritten, -, -⟩
    · have hwritten : written none [b] = [] := by simp [written, step, hstart]
      have hbegun : begunBy none [b] = some p := by simp [begunBy, step, hstart]
      exact ⟨[b], by simp, List.suffix_append _ _, hbegun, hwritten⟩
    · obtain ⟨u, hu, ⟨w, hw⟩, hq, hnone⟩ := ih hbegun
      rw [hbegun] at h hwritten
      refine ⟨u ++ [b], by simp, ⟨w, by rw [← List.append_assoc, hw]⟩, ?_, ?_⟩
      · rw [begunBy_concat, hq, h]
      · rw [written_append, hnone, hq, written, written, hwritten]
        rfl

/-- Where a byte goes on with a begun character, the cut in front of it severs that character. -/
theorem severs_of_takes (h : begunBy none bytes = some p) (hb : p.Takes b) (rest : List UInt8) :
    Severs bytes (b :: rest) := by
  obtain ⟨u, hu, hsuffix, hbegun, hwritten⟩ := exists_begun h
  refine ⟨u, [b], hu, by simp, hsuffix, ⟨rest, rfl⟩, ?_⟩
  rw [decodeLossy, decodeFrom_append, hwritten, hbegun, List.nil_append, decodeFrom]
  rcases step_takes hb with ⟨c, hstep⟩ | ⟨q, -, hstep⟩
  · exact ⟨c, by rw [hstep]; rfl⟩
  · exact ⟨replacement, by rw [hstep]; rfl⟩

end Step

section Cut
variable {before after : List UInt8}

theorem decodeLossy_append (h : ¬ Severs before after) :
    decodeLossy (before ++ after) = decodeLossy before ++ decodeLossy after := by
  refine decodeLossy_append_of_not_takes fun p hp b hb htakes => h ?_
  obtain ⟨rest, rfl⟩ : ∃ rest, after = b :: rest := by
    cases after with
    | nil => cases hb
    | cons x rest =>
      cases hb
      exact ⟨rest, rfl⟩
  exact severs_of_takes hp htakes rest

/-- No byte that begins what is read as one character goes on with another. -/
theorem begunBy_of_one {u v : List UInt8} {c : Char} (hu : u ≠ []) (hv : v ≠ [])
    (h : decodeLossy (u ++ v) = [c]) (w : List UInt8) :
    begunBy none (w ++ u) = begunBy none u := by
  cases u with
  | nil => exact absurd rfl hu
  | cons l u =>
    have hstate : begunBy none (w ++ l :: u) = begunBy (begunBy none w) (l :: u) := List.foldl_append
    rw [hstate]
    cases hw : begunBy none w with
    | none => rfl
    | some q =>
      have hnot : ¬ q.Takes l := by
        intro hl
        rw [List.cons_append, decodeLossy, decodeFrom_none_takes (isProper_begunBy hw) hl] at h
        have hnil : decodeLossy (u ++ v) = [] := (List.cons.inj h).2
        exact decodeLossy_ne_nil (by simp [hv]) hnil
      change begunBy (step (some q) l).2 u = begunBy (step none l).2 u
      rw [step_not_takes hnot]
      rfl

/-- At a cut that severs a character, a byte goes on with a begun one. -/
theorem Severs.exists_takes (h : Severs before after) :
    ∃ p, begunBy none before = some p ∧ ∃ b rest, after = b :: rest ∧ p.Takes b := by
  obtain ⟨u, v, hu, hv, ⟨w, rfl⟩, ⟨z, rfl⟩, c, hc⟩ := h
  rw [begunBy_of_one hu hv hc w]
  by_contra hnot
  have happend : decodeLossy (u ++ v) = decodeLossy u ++ decodeLossy v := by
    refine decodeLossy_append_of_not_takes fun p hp b hb htakes => hnot ⟨p, hp, ?_⟩
    cases v with
    | nil => cases hb
    | cons x v =>
      cases hb
      exact ⟨b, v ++ z, rfl, htakes⟩
  have hlength := congrArg List.length (happend.symm.trans hc)
  have h1 := List.length_pos_iff.2 (decodeLossy_ne_nil hu)
  have h2 := List.length_pos_iff.2 (decodeLossy_ne_nil hv)
  rw [List.length_append, List.length_singleton] at hlength
  omega

/-- A severed character is read as more than one. -/
theorem Severs.length_lt (h : Severs before after) :
    (decodeLossy (before ++ after)).length <
      (decodeLossy before).length + (decodeLossy after).length := by
  obtain ⟨p, hp, b, rest, rfl, hb⟩ := h.exists_takes
  have hproper := isProper_begunBy hp
  have hrest (q : Begun) (hq : q.IsProper) := length_decodeFrom_some hq rest
  have hlt := length_decodeFrom_takes hproper hb hrest
  rw [decodeLossy, decodeFrom_append, decodeLossy, decodeFrom_eq none before, hp,
    List.length_append, List.length_append]
  simp only [decodeFrom, Option.isSome_some, if_true, List.length_singleton, decodeLossy] at hlt ⊢
  omega

theorem length_decodeLossy_append (before after : List UInt8) :
    (decodeLossy (before ++ after)).length ≤
      (decodeLossy before).length + (decodeLossy after).length := by
  by_cases h : Severs before after
  · exact Nat.le_of_lt h.length_lt
  · have happend := decodeLossy_append h
    exact Nat.le_of_eq (by rw [happend, List.length_append])

theorem Severs.behind (h : Severs before after) (piece : List UInt8) :
    Severs (piece ++ before) after := by
  obtain ⟨u, v, hu, hv, hsuffix, hprefix, hc⟩ := h
  exact ⟨u, v, hu, hv, hsuffix.trans (List.suffix_append piece before), hprefix, hc⟩

end Cut

theorem length_decodeLossy_flatten (pieces : List (List UInt8)) :
    (decodeLossy pieces.flatten).length ≤ (pieces.flatMap decodeLossy).length := by
  induction pieces with
  | nil => exact Nat.le_refl _
  | cons piece pieces ih =>
    have happend := length_decodeLossy_append piece pieces.flatten
    rw [List.flatten_cons, List.flatMap_cons, List.length_append]
    omega

/-- Pieces are read as the whole exactly if no cut between them severs a character. -/
theorem flatMap_decodeLossy_eq_iff {pieces : List (List UInt8)} :
    pieces.flatMap decodeLossy = decodeLossy pieces.flatten ↔
      ∀ before after, pieces = before ++ after → ¬ Severs before.flatten after.flatten := by
  constructor
  · rintro h before after rfl hsevers
    have hlt := hsevers.length_lt
    have hbefore := length_decodeLossy_flatten before
    have hafter := length_decodeLossy_flatten after
    have hlength := congrArg List.length h
    rw [List.flatMap_append, List.flatten_append, List.length_append] at hlength
    omega
  · intro h
    induction pieces with
    | nil => rfl
    | cons piece pieces ih =>
      have hpieces : pieces.flatMap decodeLossy = decodeLossy pieces.flatten := by
        apply ih
        rintro before after rfl hsevers
        exact h (piece :: before) after rfl (hsevers.behind piece)
      have hcut : ¬ Severs piece pieces.flatten := by
        have hfirst := h [piece] pieces rfl
        rwa [List.flatten_singleton] at hfirst
      rw [List.flatMap_cons, List.flatten_cons, decodeLossy_append hcut, hpieces]

end OpStubs.Text.Utf8
