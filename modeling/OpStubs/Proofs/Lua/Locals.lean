import Mathlib.Logic.Function.Basic
import OpStubs.Proofs.Lua.Semantics

namespace OpStubs.Lua

namespace Locals

theorem assign_of_lookup {l : Locals} {p : String} {u : Value} (h : l.lookup p = some u)
    (v : Value) : ∃ l', assign? p v l = some l' ∧ l'.length = l.length ∧
      ∀ q, l'.lookup q = if q = p then some v else l.lookup q := by
  induction l with
  | nil => cases h
  | cons b rest ih =>
    obtain ⟨n, w⟩ := b
    by_cases hn : n = p
    · subst hn
      refine ⟨(n, v) :: rest, by rw [assign?, if_pos rfl], rfl, ?_⟩
      intro q
      by_cases hq : q = n
      · simp [hq]
      · simp [hq, List.lookup_cons, beq_eq_false_iff_ne.2 hq]
    · have hne : (p == n) = false := beq_eq_false_iff_ne.2 fun hp => hn hp.symm
      rw [List.lookup_cons, hne] at h
      obtain ⟨l', hassign, hlen, hlookup⟩ := ih h
      refine ⟨(n, w) :: l', by rw [assign?, if_neg hn, hassign]; rfl, ?_, ?_⟩
      · rw [List.length_cons, List.length_cons, hlen]
      · intro q
        by_cases hq : q = n
        · have hqp : q ≠ p := fun h => hn (hq.symm.trans h)
          simp [hq, hn]
        · simp [List.lookup_cons, beq_eq_false_iff_ne.2 hq, hlookup q]

/-- Whether the variables are the parameters, with the values of `f`. -/
def Holds (l : Locals) (params : List String) (f : String → Value) : Prop :=
  ∀ p, l.lookup p = if p ∈ params then some (f p) else none

theorem holds_ofCall (params : List String) (f : String → Value) :
    Holds (ofCall params (params.map f)) params f := by
  induction params with
  | nil => exact fun _ => rfl
  | cons p params ih =>
    intro q
    rw [List.map_cons, ofCall, List.lookup_cons]
    by_cases hq : q = p
    · simp [hq]
    · simp [beq_eq_false_iff_ne.2 hq, hq, ih q]

namespace Holds

variable {l : Locals} {params : List String} {f : String → Value}

theorem lookup_of_mem (h : Holds l params f) {p : String} (hp : p ∈ params) :
    l.lookup p = some (f p) := by
  rw [h p, if_pos hp]

theorem lookup_of_not_mem (h : Holds l params f) {p : String} (hp : p ∉ params) :
    l.lookup p = none := by
  rw [h p, if_neg hp]

theorem assign (h : Holds l params f) {p : String} (hp : p ∈ params) (v : Value) :
    ∃ l', assign? p v l = some l' ∧ l'.length = l.length ∧
      Holds l' params (Function.update f p v) := by
  obtain ⟨l', hassign, hlen, hlookup⟩ := assign_of_lookup (h.lookup_of_mem hp) v
  refine ⟨l', hassign, hlen, ?_⟩
  intro q
  rw [hlookup q]
  by_cases hq : q = p
  · subst hq
    rw [if_pos rfl, if_pos hp, Function.update_self]
  · rw [if_neg hq, Function.update_of_ne hq]
    exact h q

theorem declare (h : Holds l params f) (n : String) (v : Value) :
    Holds ((n, v) :: l) (n :: params) (Function.update f n v) := by
  intro q
  rw [List.lookup_cons]
  by_cases hq : q = n
  · simp [hq]
  · simp [beq_eq_false_iff_ne.2 hq, hq, h q]

end Holds

end Locals

end OpStubs.Lua
