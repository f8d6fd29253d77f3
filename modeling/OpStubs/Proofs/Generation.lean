import Mathlib.Data.List.Forall2
import Mathlib.Data.List.Nodup
import OpStubs.Proofs.Selection

namespace OpStubs.Request

open Lua

/-- The registry entries of one name. -/
def entries (r : Registry) (n : String) : List OpDef := r.filter fun op => op.name == n

/-- An entry compiled with a docstring. -/
def compileEntry (op : OpDef) (text : Option String) :
    Except Operation.UnsupportedKind Operation :=
  Operation.compile op (.ofText? text)

/-- What every module begins with: its title, its locals and its helpers. -/
def opening : String :=
  let m := Stub.moduleOf []
  "--- " ++ m.title ++ "\n" ++ Stmt.printBlock 0 m.header ++ printFunctions m.helpers

/-- What every module ends with. -/
def closing : String := "\nreturn " ++ Stub.table ++ "\n"

/-- The text of one operation in a module. -/
def block (op : OpDef) (text : Option String) : String :=
  match compileEntry op text with
  | .ok o => "\n" ++ (Stub.function o).print
  | .error _ => ""

/-- Whether a name stands for one entry, and that entry compiles. -/
def Sound (q : Request) (r : Registry) (n : String) : Prop :=
  ∃ op o, entries r n = [op] ∧ compileEntry op (q.docText op) = .ok o

/-- What goes wrong with a name whose turn comes after `earlier` ones. -/
inductive Fails (q : Request) (r : Registry) (earlier : List String) (n : String) :
    GenerateError → Prop where
  | unresolved (h : entries r n = []) : Fails q r earlier n (.lookup (.unresolved n))
  | duplicate (h : 2 ≤ (entries r n).length) : Fails q r earlier n (.lookup (.duplicate n))
  | compile (op : OpDef) (e : Operation.UnsupportedKind) (h : entries r n = [op])
      (hc : compileEntry op (q.docText op) = .error e) : Fails q r earlier n (.compile n e)
  | collision (first : String) (h : q.Sound r n) (hmem : first ∈ earlier)
      (heq : Naming.functionName first = Naming.functionName n)
      (huniq : ∀ m ∈ earlier, Naming.functionName m = Naming.functionName n → m = first) :
      Fails q r earlier n (.collision (Naming.functionName n) first n)

theorem name_of_entries {r : Registry} {n : String} {op : OpDef} (h : entries r n = [op]) :
    op.name = n := by
  have hm : op ∈ entries r n := by rw [h]; exact List.mem_singleton_self op
  exact eq_of_beq (List.mem_filter.1 hm).2

theorem compileEntry_names {op : OpDef} {text : Option String} {o : Operation}
    (h : compileEntry op text = .ok o) :
    o.name = op.name ∧ o.function = Naming.functionName op.name := by
  unfold compileEntry Operation.compile at h
  cases ha : Operation.compileAttrs op with
  | error e => rw [ha] at h; cases h
  | ok attrs =>
    rw [ha] at h
    cases h
    exact ⟨rfl, rfl⟩

theorem find_eq (r : Registry) (n : String) :
    r.find n = match entries r n with
      | [] => .error (.unresolved n)
      | [op] => .ok op
      | _ => .error (.duplicate n) := rfl

/-- A name is sound and compiles, or fails whatever names came before it. -/
theorem compileName_cases (q : Request) (r : Registry) (n : String) :
    (∃ op o, entries r n = [op] ∧ compileEntry op (q.docText op) = .ok o ∧
      q.compileName r n = .ok o) ∨
    (∃ e, (∀ earlier, Fails q r earlier n e) ∧ q.compileName r n = .error e) := by
  rw [compileName, find_eq]
  match h : entries r n with
  | [] => exact .inr ⟨_, fun _ => .unresolved h, rfl⟩
  | [op] =>
    change _ ∨ (∃ e, _ ∧ Except.mapError (GenerateError.compile op.name)
      (compileEntry op (q.docText op)) = _)
    cases hc : compileEntry op (q.docText op) with
    | ok o =>
      refine .inl ⟨op, o, rfl, hc, ?_⟩
      change Except.mapError _ (compileEntry op (q.docText op)) = _
      rw [hc]
      rfl
    | error e =>
      rw [name_of_entries h]
      exact .inr ⟨.compile n e, fun _ => .compile op e h hc, rfl⟩
  | a :: b :: rest =>
    have hl : 2 ≤ (entries r n).length := by rw [h]; simp
    exact .inr ⟨_, fun _ => .duplicate hl, rfl⟩

/-- The operations of some names, all sound, none with the function of another. -/
structure Compiled (q : Request) (r : Registry) (names : List String) (ops : List Operation) :
    Prop where
  entries : List.Forall₂ (fun n o => ∃ op, entries r n = [op] ∧
    compileEntry op (q.docText op) = .ok o) names ops
  distinct : (names.map Naming.functionName).Nodup

namespace Compiled

variable {q : Request} {r : Registry} {names : List String} {ops : List Operation}

theorem nil (q : Request) (r : Registry) : Compiled q r [] [] := ⟨.nil, List.nodup_nil⟩

theorem sound (h : Compiled q r names ops) {n : String} (hn : n ∈ names) : q.Sound r n := by
  obtain ⟨hf, -⟩ := h
  induction hf with
  | nil => cases hn
  | cons ho _ ih =>
    rcases List.mem_cons.1 hn with rfl | hn
    · obtain ⟨op, hop⟩ := ho
      exact ⟨op, _, hop⟩
    · exact ih hn

theorem names_eq (h : Compiled q r names ops) : ops.map (·.name) = names := by
  obtain ⟨hf, -⟩ := h
  induction hf with
  | nil => rfl
  | cons ho _ ih =>
    obtain ⟨op, hop, hc⟩ := ho
    rw [List.map_cons, ih, (compileEntry_names hc).1, name_of_entries hop]

theorem function_eq (h : Compiled q r names ops) {o : Operation} (ho : o ∈ ops) :
    o.function = Naming.functionName o.name := by
  obtain ⟨hf, -⟩ := h
  induction hf with
  | nil => cases ho
  | cons hn _ ih =>
    rcases List.mem_cons.1 ho with rfl | ho
    · obtain ⟨op, -, hc⟩ := hn
      rw [(compileEntry_names hc).2, (compileEntry_names hc).1]
    · exact ih ho

theorem functions_eq (h : Compiled q r names ops) :
    ops.map (·.function) = names.map Naming.functionName := by
  rw [← h.names_eq, List.map_map]
  exact List.map_congr_left fun o ho => h.function_eq ho

theorem append (h : Compiled q r names ops) {n : String} {op : OpDef} {o : Operation}
    (hop : Request.entries r n = [op]) (hc : compileEntry op (q.docText op) = .ok o)
    (hnew : Naming.functionName n ∉ names.map Naming.functionName) :
    Compiled q r (names ++ [n]) (ops ++ [o]) := by
  have hlast : List.Forall₂ (fun n o => ∃ op, Request.entries r n = [op] ∧
      compileEntry op (q.docText op) = .ok o) [n] [o] := .cons ⟨op, hop, hc⟩ .nil
  refine ⟨List.rel_append h.entries hlast, ?_⟩
  rw [List.map_append, List.map_cons, List.map_nil]
  exact List.nodup_append.2 ⟨h.distinct, List.nodup_singleton _, fun a ha b hb hab =>
    hnew (List.mem_singleton.1 hb ▸ hab ▸ ha)⟩

theorem eq_of_functionName_eq (h : Compiled q r names ops) {m n : String} (hm : m ∈ names)
    (hn : n ∈ names) (heq : Naming.functionName m = Naming.functionName n) : m = n :=
  List.inj_on_of_nodup_map h.distinct hm hn heq

end Compiled

/-- One more name: it is compiled too, or it fails. -/
theorem addName_cases {q : Request} {r : Registry} {names : List String} {ops : List Operation}
    (h : Compiled q r names ops) (n : String) :
    (∃ o, q.addName r ops n = .ok (ops ++ [o]) ∧ Compiled q r (names ++ [n]) (ops ++ [o])) ∨
    (∃ e, q.addName r ops n = .error e ∧ Fails q r names n e) := by
  rcases compileName_cases q r n with ⟨op, o, hop, hc, hn⟩ | ⟨e, hf, hn⟩
  · have ho : o.function = Naming.functionName n := by
      rw [(compileEntry_names hc).2, name_of_entries hop]
    cases hfind : ops.find? fun d => d.function == o.function with
    | none =>
      have hnew : Naming.functionName n ∉ names.map Naming.functionName := by
        rw [← h.functions_eq, ← ho]
        intro hmem
        obtain ⟨d, hd, hdo⟩ := List.mem_map.1 hmem
        exact List.find?_eq_none.1 hfind d hd (beq_iff_eq.2 hdo)
      refine .inl ⟨o, ?_, h.append hop hc hnew⟩
      simp only [addName, hn, bind, Except.bind, hfind]
      rfl
    | some first =>
      have hfound := List.find?_some hfind
      have hfun : first.function = o.function := eq_of_beq hfound
      have hmem := List.mem_of_find?_eq_some hfind
      have hname : first.name ∈ names := by
        rw [← h.names_eq]
        exact List.mem_map_of_mem hmem
      have heq : Naming.functionName first.name = Naming.functionName n := by
        rw [← h.function_eq hmem, hfun, ho]
      refine .inr ⟨.collision o.function first.name n, ?_, ?_⟩
      · simp only [addName, hn, bind, Except.bind, hfind]
        rfl
      · rw [ho]
        exact .collision first.name ⟨op, o, hop, hc⟩ hname heq fun m hm hmn =>
          h.eq_of_functionName_eq hm hname (hmn.trans heq.symm)
  · refine .inr ⟨e, ?_, hf names⟩
    simp only [addName, hn, bind, Except.bind]

/-- Names in turn: all are compiled, or the first that fails stops the run. -/
theorem run_cases {q : Request} {r : Registry} {names : List String} {ops : List Operation}
    (h : Compiled q r names ops) (rest : List String) :
    (∃ all, rest.foldlM (q.addName r) ops = .ok all ∧ Compiled q r (names ++ rest) all) ∨
    (∃ e before n after, rest.foldlM (q.addName r) ops = .error e ∧ rest = before ++ n :: after ∧
      (∃ done, Compiled q r (names ++ before) done) ∧ Fails q r (names ++ before) n e) := by
  induction rest generalizing names ops with
  | nil =>
    rw [List.append_nil]
    exact .inl ⟨ops, rfl, h⟩
  | cons n rest ih =>
    rcases addName_cases h n with ⟨o, ho, hn⟩ | ⟨e, he, hf⟩
    · have hstep : (n :: rest).foldlM (q.addName r) ops =
          rest.foldlM (q.addName r) (ops ++ [o]) := by
        rw [List.foldlM_cons, ho]
        rfl
      rw [hstep]
      rcases ih hn with ⟨all, hall, hc⟩ | ⟨e, before, m, after, he, hrest, hc, hf⟩
      · rw [List.append_assoc] at hc
        exact .inl ⟨all, hall, hc⟩
      · rw [List.append_assoc] at hc hf
        exact .inr ⟨e, n :: before, m, after, he, by rw [hrest]; rfl, hc, hf⟩
    · refine .inr ⟨e, [], n, rest, ?_, rfl, ⟨ops, ?_⟩, ?_⟩
      · rw [List.foldlM_cons, he]
        rfl
      · rwa [List.append_nil]
      · rwa [List.append_nil]

theorem print_moduleOf (ops : List Operation) :
    (Stub.moduleOf ops).print = opening ++ printFunctions (ops.map Stub.function) ++ closing := by
  simp only [Module.print, Stub.moduleOf, opening, closing, String.append_assoc]

theorem block_of_compileEntry {op : OpDef} {text : Option String} {o : Operation}
    (h : compileEntry op text = .ok o) : block op text = "\n" ++ (Stub.function o).print := by
  rw [block, h]

/-- The module of compiled operations has one block for each registry entry. -/
theorem code_of_compiled {q : Request} {r : Registry} {names : List String}
    {ops : List Operation} (h : Compiled q r names ops) :
    ∃ defs, List.Forall₂ (fun n op => entries r n = [op]) names defs ∧
      (Stub.moduleOf ops).print =
        opening ++ String.join (defs.map fun op => block op (q.docText op)) ++ closing := by
  have hblocks : ∃ defs, List.Forall₂ (fun n op => entries r n = [op]) names defs ∧
      printFunctions (ops.map Stub.function) =
        String.join (defs.map fun op => block op (q.docText op)) := by
    obtain ⟨hf, -⟩ := h
    induction hf with
    | nil => exact ⟨[], .nil, rfl⟩
    | cons ho _ ih =>
      obtain ⟨op, hop, hc⟩ := ho
      obtain ⟨defs, hdefs, hprint⟩ := ih
      refine ⟨op :: defs, .cons hop hdefs, ?_⟩
      rw [List.map_cons, printFunctions, hprint, List.map_cons, String.join_cons,
        block_of_compileEntry hc]
  obtain ⟨defs, hdefs, hprint⟩ := hblocks
  exact ⟨defs, hdefs, by rw [print_moduleOf, hprint]⟩

/-- A run over the selected names, told by what each name stands for. -/
theorem generate_cases (r : Registry) (q : Request) :
    (∃ ops, Compiled q r (q.select r) ops ∧
      generate r q = .ok ⟨(Stub.moduleOf ops).print, ops.map (·.function)⟩) ∨
    (∃ e before n after, generate r q = .error e ∧ q.select r = before ++ n :: after ∧
      (∃ ops, Compiled q r before ops) ∧ Fails q r before n e) := by
  rcases run_cases (.nil q r) (q.select r) with ⟨ops, hops, hc⟩ | ⟨e, b, n, a, he, hs, hc, hf⟩
  · refine .inl ⟨ops, hc, ?_⟩
    rw [generate, hops]
    rfl
  · refine .inr ⟨e, b, n, a, ?_, hs, hc, hf⟩
    rw [generate, he]
    rfl

theorem Fails.not_sound_or_repeated {q : Request} {r : Registry} {earlier : List String}
    {n : String} {e : GenerateError} (h : Fails q r earlier n e) :
    ¬ q.Sound r n ∨ Naming.functionName n ∈ earlier.map Naming.functionName := by
  cases h with
  | unresolved h =>
    left
    rintro ⟨op, o, hop, -⟩
    rw [h] at hop
    cases hop
  | duplicate h =>
    left
    rintro ⟨op, o, hop, -⟩
    rw [hop] at h
    exact absurd h (by simp)
  | compile op e h hc =>
    left
    rintro ⟨op', o, hop, ho⟩
    rw [h] at hop
    cases hop
    rw [hc] at ho
    cases ho
  | collision first _ hmem heq _ => exact .inr (heq ▸ List.mem_map_of_mem hmem)

/-- Success is told by the selected names alone. -/
theorem generate_ok_iff (r : Registry) (q : Request) :
    (∃ g, generate r q = .ok g) ↔
      (∀ n ∈ q.select r, q.Sound r n) ∧ ((q.select r).map Naming.functionName).Nodup := by
  constructor
  · rintro ⟨g, hg⟩
    rcases generate_cases r q with ⟨ops, hc, -⟩ | ⟨e, b, n, a, he, -⟩
    · exact ⟨fun n hn => hc.sound hn, hc.distinct⟩
    · rw [he] at hg
      cases hg
  · rintro ⟨hsound, hdistinct⟩
    rcases generate_cases r q with ⟨ops, -, hg⟩ | ⟨e, b, n, a, -, hs, -, hf⟩
    · exact ⟨_, hg⟩
    · rw [hs] at hsound hdistinct
      rcases hf.not_sound_or_repeated with hn | hn
      · exact absurd (hsound n (by simp)) hn
      · rw [List.map_append, List.map_cons, List.nodup_middle] at hdistinct
        exact absurd (List.mem_append_left _ hn) (List.nodup_cons.1 hdistinct).1

theorem select_alone {q : Request} {r : Registry} {n : String} (h : n ∈ q.select r) :
    ({ q with names := some [n] } : Request).select r = [n] := by
  have hn : q.isPrivate n = false := (isPrivate_eq_false_iff q n).2 (mem_select.1 h).2
  have hp : ({ q with names := some [n] } : Request).isPrivate n = false := hn
  simp [select, hp, insertName]

/-- A name that succeeds among others succeeds alone, with the same text. -/
theorem generate_alone {q : Request} {r : Registry} {n : String} {op : OpDef}
    (h : n ∈ q.select r) (hop : entries r n = [op]) (hs : q.Sound r n) :
    generate r { q with names := some [n] } =
      .ok ⟨opening ++ block op (q.docText op) ++ closing, [Naming.functionName n]⟩ := by
  have hsel := select_alone h
  have hok : ∃ g, generate r { q with names := some [n] } = .ok g := by
    rw [generate_ok_iff, hsel]
    exact ⟨fun m hm => List.mem_singleton.1 hm ▸ hs, List.nodup_singleton _⟩
  rcases generate_cases r { q with names := some [n] } with ⟨ops, hc, hg⟩ | ⟨e, _, _, _, he, -⟩
  · rw [hsel] at hc
    obtain ⟨defs, hdefs, hcode⟩ := code_of_compiled hc
    cases hdefs with
    | cons hd hrest =>
      cases hrest
      rw [hop] at hd
      cases hd
      rw [hg, hcode, hc.functions_eq, List.map_cons, List.map_nil, String.join_cons,
        String.join_nil, String.append_empty]
      rfl
  · obtain ⟨g, hg⟩ := hok
    rw [he] at hg
    cases hg

/-- A run in full. The selected names are taken in order. If each stands for one entry that
compiles, and no two have the same function, then the module is a fixed text, one block for each
name, and another fixed text; else the first name with a problem tells the error. -/
theorem generate_spec (r : Registry) (q : Request) :
    ∃ names : List String, names.Pairwise (· < ·) ∧ (∀ n, n ∈ names ↔ q.Selects r n) ∧
      ((∃ g, generate r q = .ok g) ↔
        (∀ n ∈ names, q.Sound r n) ∧ (names.map Naming.functionName).Nodup) ∧
      (∀ g, generate r q = .ok g →
        g.functions = names.map Naming.functionName ∧
        ∃ ops, List.Forall₂ (fun n op => entries r n = [op]) names ops ∧
          g.code = opening ++ String.join (ops.map fun op => block op (q.docText op)) ++ closing ∧
          List.Forall₂ (fun n op => generate r { q with names := some [n] } =
            .ok ⟨opening ++ block op (q.docText op) ++ closing, [Naming.functionName n]⟩)
            names ops) ∧
      (∀ e, generate r q = .error e →
        ∃ before n after, names = before ++ n :: after ∧ (∀ m ∈ before, q.Sound r m) ∧
          (before.map Naming.functionName).Nodup ∧ Fails q r before n e) := by
  refine ⟨q.select r, pairwise_select q r, fun n => mem_select, generate_ok_iff r q, ?_, ?_⟩
  · intro g hg
    rcases generate_cases r q with ⟨ops, hc, hg'⟩ | ⟨e, _, _, _, he, -⟩
    · rw [hg] at hg'
      cases hg'
      obtain ⟨defs, hdefs, hcode⟩ := code_of_compiled hc
      refine ⟨hc.functions_eq, defs, hdefs, hcode, ?_⟩
      refine List.forall₂_iff_get.2 ⟨hdefs.length_eq, fun i hn hd => ?_⟩
      exact generate_alone (List.get_mem _ _) (hdefs.get hn hd) (hc.sound (List.get_mem _ _))
    · rw [he] at hg
      cases hg
  · intro e he
    rcases generate_cases r q with ⟨ops, -, hg⟩ | ⟨e', b, n, a, he', hs, ⟨ops, hc⟩, hf⟩
    · rw [he] at hg
      cases hg
    · rw [he] at he'
      cases he'
      exact ⟨b, n, a, hs, fun m hm => hc.sound hm, hc.distinct, hf⟩

end OpStubs.Request
