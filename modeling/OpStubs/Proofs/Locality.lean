import Mathlib.Data.List.Perm.Basic
import Mathlib.Data.List.Sort
import OpStubs.Proofs.Generation

namespace OpStubs.Request

variable {r r' : Registry} {q q' : Request} {n : String}

/-- Whether two runs select the same names, for which they have the same entries in some order and
the same docstrings. -/
structure Agree (r : Registry) (q : Request) (r' : Registry) (q' : Request) : Prop where
  names : ∀ n, q.Selects r n ↔ q'.Selects r' n
  entries : ∀ n, q.Selects r n → (entries r n).Perm (entries r' n)
  docs : ∀ n, q.Selects r n → q.docs.find? n = q'.docs.find? n

theorem select_congr (h : ∀ n, q.Selects r n ↔ q'.Selects r' n) : q.select r = q'.select r' := by
  have hmem (n : String) : n ∈ q.select r ↔ n ∈ q'.select r' := by
    rw [mem_select, mem_select]
    exact h n
  have hperm : (q.select r).Perm (q'.select r') :=
    (List.perm_ext_iff_of_nodup (nodup_select q r) (nodup_select q' r')).2 hmem
  have hasymm (a b : String) (_ : a ∈ q.select r) (_ : b ∈ q'.select r') (hab : a < b)
      (hba : b < a) : a = b := absurd hba (String.lt_asymm hab)
  exact hperm.eq_of_pairwise hasymm (pairwise_select q r) (pairwise_select q' r')

/-- A name with several entries is refused whatever these are, so their order does not matter. -/
theorem find_congr (h : (entries r n).Perm (entries r' n)) : r.find n = r'.find n := by
  rw [find_eq, find_eq]
  match hr : entries r n with
  | [] =>
    rw [hr] at h
    rw [h.nil_eq]
  | [op] =>
    rw [hr] at h
    rw [h.singleton_eq]
  | a :: b :: rest =>
    have hl := h.length_eq
    rw [hr, List.length_cons, List.length_cons] at hl
    match hr' : entries r' n with
    | [] => simp [hr'] at hl
    | [op] => simp [hr'] at hl
    | a' :: b' :: rest' => rfl

theorem docText_congr {op : OpDef} (h : q.docs.find? op.name = q'.docs.find? op.name) :
    q.docText op = q'.docText op := by
  rw [docText, docText, h]

theorem compileName_congr (hentries : (entries r n).Perm (entries r' n))
    (hdocs : q.docs.find? n = q'.docs.find? n) : q.compileName r n = q'.compileName r' n := by
  have hfind := find_congr hentries
  rw [compileName, compileName, ← hfind, find_eq]
  cases hr : entries r n with
  | nil => rfl
  | cons op rest =>
    cases rest with
    | nil =>
      have hop : op.name = n := name_of_entries hr
      have htext : q.docText op = q'.docText op := docText_congr (by rw [hop, hdocs])
      change Except.mapError _ _ = Except.mapError _ _
      rw [htext]
    | cons b rest => rfl

theorem addName_congr (h : q.compileName r n = q'.compileName r' n) (done : List Operation) :
    q.addName r done n = q'.addName r' done n := by
  rw [addName, addName, h]

theorem run_congr {names : List String} {ops : List Operation}
    (h : ∀ n ∈ names, q.compileName r n = q'.compileName r' n) :
    names.foldlM (q.addName r) ops = names.foldlM (q'.addName r') ops := by
  induction names generalizing ops with
  | nil => rfl
  | cons n names ih =>
    have hstep : q.addName r ops n = q'.addName r' ops n := addName_congr (h n (by simp)) ops
    have hrest (done : List Operation) :
        names.foldlM (q.addName r) done = names.foldlM (q'.addName r') done :=
      ih fun m hm => h m (by simp [hm])
    rw [List.foldlM_cons, List.foldlM_cons, hstep]
    exact bind_congr hrest

theorem generate_of_agree (h : Agree r q r' q') : generate r q = generate r' q' := by
  have hselect : q.select r = q'.select r' := select_congr h.names
  have hcompile : ∀ n ∈ q.select r, q.compileName r n = q'.compileName r' n := by
    intro n hn
    have hsel := mem_select.1 hn
    exact compileName_congr (h.entries n hsel) (h.docs n hsel)
  rw [generate, generate, ← hselect, run_congr hcompile]

theorem selects_of_names {names : List String} (h : q.names = some names) :
    q.Selects r n ↔ q.Selects r' n := by
  simp only [Selects, h]

theorem agree_of_perm (h : r.Perm r') : Agree r q r' q := by
  refine ⟨fun n => ?_, fun n _ => h.filter _, fun n _ => rfl⟩
  cases hq : q.names with
  | some names => exact selects_of_names hq
  | none => simp only [Selects, hq, h.mem_iff]

/-- An entry whose name is not selected may be dropped. -/
theorem agree_of_not_selects {before after : Registry} {op : OpDef}
    (h : ¬ q.Selects (before ++ op :: after) op.name) :
    Agree (before ++ op :: after) q (before ++ after) q := by
  have hne (n : String) (hn : q.Selects (before ++ op :: after) n) : op.name ≠ n := by
    rintro rfl
    exact h hn
  refine ⟨fun n => ?_, fun n hn => ?_, fun n _ => rfl⟩
  · cases hq : q.names with
    | some names => exact selects_of_names hq
    | none =>
      have hpublic (h' : op.name = n) :
          ¬(q.privateStart = "" ∨ ¬ q.privateStart.toList <+: n.toList) := by
        intro hp
        refine h ⟨?_, by rwa [h']⟩
        rw [hq]
        exact ⟨op, by simp, rfl⟩
      have hmem (o : OpDef) : o ∈ before ++ op :: after ↔ o = op ∨ o ∈ before ++ after :=
        List.perm_middle.mem_iff.trans List.mem_cons
      simp only [Selects, hq]
      constructor
      · rintro ⟨⟨o, ho, hname⟩, hp⟩
        rcases (hmem o).1 ho with rfl | ho
        · exact absurd hp (hpublic hname)
        · exact ⟨⟨o, ho, hname⟩, hp⟩
      · rintro ⟨⟨o, ho, hname⟩, hp⟩
        exact ⟨⟨o, (hmem o).2 (.inr ho), hname⟩, hp⟩
  · have hfilter : entries (before ++ op :: after) n = entries (before ++ after) n := by
      simp [entries, hne n hn]
    rw [hfilter]

/-- A run depends on nothing but the selected names, their entries and their docstrings. So the
order of the registry, entries and docstrings of other names, and the order and number of the names
asked for make no difference. -/
theorem generate_locality (r r' : Registry) (q q' : Request) :
    (Agree r q r' q' → generate r q = generate r' q') ∧
    (r.Perm r' → generate r q = generate r' q) ∧
    (∀ before op after, ¬ q.Selects (before ++ op :: after) op.name →
      generate (before ++ op :: after) q = generate (before ++ after) q) ∧
    (∀ docs : Dictionary, (∀ n, q.Selects r n → q.docs.find? n = docs.find? n) →
      generate r { q with docs := docs } = generate r q) ∧
    (∀ names names' : List String, (∀ n, n ∈ names ↔ n ∈ names') →
      generate r { q with names := some names } = generate r { q with names := some names' }) := by
  refine ⟨generate_of_agree, fun h => generate_of_agree (agree_of_perm h), ?_, ?_, ?_⟩
  · intro before op after h
    exact generate_of_agree (agree_of_not_selects h)
  · intro docs h
    have hagree : Agree r q r { q with docs := docs } :=
      ⟨fun n => Iff.rfl, fun n _ => List.Perm.refl _, h⟩
    exact (generate_of_agree hagree).symm
  · intro names names' h
    refine generate_of_agree ⟨fun n => ?_, fun n _ => List.Perm.refl _, fun n _ => rfl⟩
    exact and_congr_left fun _ => h n

/-- A private operation, and others of which one is declared twice. -/
def sendRegistry : Registry := [{ name := "_Send" }, { name := "NoOp" }, { name := "Abort" },
  { name := "NoOp", summary := some "Does nothing." }]

/-- The same operations in another order. -/
def turnedRegistry : Registry := [{ name := "NoOp", summary := some "Does nothing." },
  { name := "_Send" }, { name := "Abort" }, { name := "NoOp" }]

theorem perm_sendRegistry : sendRegistry.Perm turnedRegistry := by decide

def sendDocs : Dictionary := Dictionary.empty.insert "_Send" "Sends."

theorem generate_locality_sendRegistry :
    (Agree sendRegistry {} turnedRegistry
        { names := some ["NoOp", "Abort", "NoOp"], docs := sendDocs } ∧
      generate sendRegistry {} =
        generate turnedRegistry { names := some ["NoOp", "Abort", "NoOp"], docs := sendDocs }) ∧
    (sendRegistry.Perm turnedRegistry ∧ generate sendRegistry {} = generate turnedRegistry {}) ∧
    (¬ Selects {} sendRegistry "_Send" ∧
      generate sendRegistry {} = generate sendRegistry.tail {}) ∧
    ((∀ n, Selects {} sendRegistry n → Dictionary.empty.find? n = sendDocs.find? n) ∧
      generate sendRegistry { docs := sendDocs } = generate sendRegistry {}) ∧
    ((∀ n, n ∈ ["NoOp", "Abort", "NoOp"] ↔ n ∈ ["Abort", "NoOp"]) ∧
      generate sendRegistry { names := some ["NoOp", "Abort", "NoOp"] } =
        generate sendRegistry { names := some ["Abort", "NoOp"] }) := by
  obtain ⟨hagree, hperm, hdrop, hdocs, hnames⟩ := generate_locality sendRegistry turnedRegistry {}
    { names := some ["NoOp", "Abort", "NoOp"], docs := sendDocs }
  have hpublic : ¬ Selects {} sendRegistry "_Send" := by
    rintro ⟨-, h | h⟩
    · exact absurd h (by decide)
    · exact h (by decide)
  have hfound (n : String) (hn : Selects {} sendRegistry n) :
      Dictionary.empty.find? n = sendDocs.find? n := by
    have hne : n ≠ "_Send" := by
      rintro rfl
      exact hpublic hn
    rw [sendDocs, Dictionary.find?_insert, if_neg hne]
  have hsame (n : String) : n ∈ ["NoOp", "Abort", "NoOp"] ↔ n ∈ ["Abort", "NoOp"] := by
    simp only [List.mem_cons, List.not_mem_nil, or_false]
    grind
  have hselects : Agree sendRegistry {} turnedRegistry
      { names := some ["NoOp", "Abort", "NoOp"], docs := sendDocs } := by
    refine ⟨fun n => ?_, fun n _ => perm_sendRegistry.filter _, hfound⟩
    by_cases hn : n = "_Send"
    · subst hn
      refine iff_of_false hpublic ?_
      rintro ⟨h, -⟩
      exact absurd h (by decide)
    · refine and_congr_left fun _ => ?_
      simp [sendRegistry, eq_comm, or_comm, hn]
  exact ⟨⟨hselects, hagree hselects⟩, ⟨perm_sendRegistry, hperm perm_sendRegistry⟩,
    ⟨hpublic, hdrop [] _ _ hpublic⟩, ⟨hfound, hdocs sendDocs hfound⟩, hsame, hnames _ _ hsame⟩

end OpStubs.Request
