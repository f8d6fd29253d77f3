import OpStubs.Proofs.Lua.PrintSafe

namespace OpStubs.Lua

open Token

/-- The characters that would go on with the last token of a printed expression. -/
def Expr.stop (e : Expr) : Char → Bool := bif e.isPrefix then continuesName else Numeral.isInside

theorem Expr.stops_stop (e : Expr) {rest : List Char} (h : Stops Numeral.isInside rest) :
    Stops e.stop rest := by
  rw [Expr.stop]
  cases e.isPrefix with
  | false => exact h
  | true => exact Literal.stops_name h

theorem Expr.stops_of_isPrefix {e : Expr} {rest : List Char} (he : e.isPrefix = true)
    (h : Stops continuesName rest) : Stops e.stop rest := by
  rw [Expr.stop, he]
  exact h

theorem Literal.scan_text (l : Literal) : scan l.text.toList = some l.tokens := by
  have h := l.scans_text (stops_nil _)
  rw [Scans, scan_nil, List.append_nil] at h
  simpa using h

theorem isName_cases {n : String} (h : isName n = true) :
    ∃ c r, n.toList = c :: r ∧ startsName c = true := by
  unfold isName at h
  cases hn : n.toList with
  | nil => simp [hn] at h
  | cons c r =>
    simp only [hn, Bool.and_eq_true] at h
    exact ⟨c, r, rfl, h.1.1⟩

theorem stops_isName {p : Char → Bool} {n : String} {r : List Char} (h : isName n = true)
    (hp : ∀ c, startsName c = true → p c = false) : Stops p (n.toList ++ r) := by
  obtain ⟨c, s, hn, hc⟩ := isName_cases h
  rw [hn]
  exact stops_cons.2 (hp c hc)

/-- Whether a character would make a longer token of an opening bracket before it. -/
def opensLonger (c : Char) : Bool := c == '[' || c == '='

theorem opensLonger_of_kind {p : Char → Bool} (hbracket : p '[' = false) (hequals : p '=' = false)
    (c : Char) (h : p c = true) : opensLonger c = false :=
  Bool.or_eq_false_iff.2 ⟨beq_false_of_kind hbracket h, beq_false_of_kind hequals h⟩

theorem Literal.stops_text (l : Literal) (rest : List Char) :
    Stops opensLonger (l.text.toList ++ rest) := by
  cases l with
  | nil => exact stops_cons.2 (by decide)
  | bool b =>
    cases b with
    | false => exact stops_cons.2 (by decide)
    | true => exact stops_cons.2 (by decide)
  | string s =>
    rw [Literal.text, toList_quote]
    exact stops_cons.2 (by decide)
  | numeral negative n =>
    cases negative with
    | true =>
      rw [Literal.text, String.toList_append]
      exact stops_cons.2 (by decide)
    | false =>
      rw [Literal.text, String.toList_append]
      exact n.stops_text (opensLonger_of_kind (by decide) (by decide)) rest
  | infinity negative =>
    cases negative with
    | false => exact stops_cons.2 (by decide)
    | true => exact stops_cons.2 (by decide)
  | undefined => exact stops_cons.2 (by decide)

theorem Expr.safe_operands {left right : Expr} {op : BinaryOp}
    (h : (Expr.binary left op right).Safe) : left.Safe ∧ right.Safe := by
  cases op with
  | eq => exact ⟨h.2.2.2.1, h.2.2.2.2⟩
  | or => exact ⟨h.2.1, h.2.2⟩

/-- No printed expression begins with an opening bracket or an equals sign. -/
theorem Expr.stops_print : (e : Expr) → e.Safe → ∀ rest, Stops opensLonger (e.print.toList ++ rest)
  | .ident n, h, rest => stops_isName h (opensLonger_of_kind (by decide) (by decide))
  | .literal text, h, rest => by
    obtain ⟨l, rfl⟩ := h
    exact l.stops_text rest
  | .str value, _, rest => by
    rw [Expr.print, toList_quote]
    exact stops_cons.2 (by decide)
  | .emptyTable, _, rest => stops_cons.2 (by decide)
  | .call callee args, h, rest => by
    simp only [Expr.print, String.toList_append, List.append_assoc]
    exact Expr.stops_print callee h.2.1 _
  | .method object n args, h, rest => by
    simp only [Expr.print, String.toList_append, List.append_assoc]
    exact Expr.stops_print object h.2.1 _
  | .member object field, h, rest => by
    simp only [Expr.print, String.toList_append, List.append_assoc]
    exact Expr.stops_print object h.2.1 _
  | .index object key, h, rest => by
    simp only [Expr.print, String.toList_append, List.append_assoc]
    exact Expr.stops_print object h.2.1 _
  | .len value, _, rest => by
    rw [Expr.print, String.toList_append]
    exact stops_cons.2 (by decide)
  | .binary left op right, h, rest => by
    simp only [Expr.print, String.toList_append, List.append_assoc]
    exact Expr.stops_print left (Expr.safe_operands h).1 _

/-- Whether a text is read as some tokens wherever no character goes on with the last of them. -/
def Spells (s : List Char) (ts : List Token) : Prop :=
  ∀ rest, Stops Numeral.isInside rest → Scans s ts rest

theorem spells_name {n : String} (h : isName n = true) : Spells n.toList [.name n] :=
  fun _ hr => scans_name h (Literal.stops_name hr)

theorem spells_keyword {k : String} (h : k ∈ keywords) : Spells k.toList [.keyword k] :=
  fun _ hr => scans_keyword h (Literal.stops_name hr)

namespace Spells

variable {s s' : List Char} {ts ts' : List Token}

theorem spaced (h : Spells s ts) (h' : Spells s' ts') : Spells (s ++ ' ' :: s') (ts ++ ts') := by
  intro rest hr
  have hs : Scans s ts (' ' :: s' ++ rest) := h _ (stops_cons.2 (by decide))
  exact hs.append (.space rfl (h' rest hr))

theorem assigned (h : Spells s ts) (h' : Spells s' ts') :
    Spells (s ++ ' ' :: '=' :: ' ' :: s') (ts ++ .symbol "=" :: ts') := by
  intro rest hr
  have hs : Scans s ts (' ' :: '=' :: ' ' :: s' ++ rest) := h _ (stops_cons.2 (by decide))
  have heq : Scans ['='] [.symbol "="] (' ' :: s' ++ rest) := scans_assign (stops_cons.2 (by decide))
  exact hs.append (.space rfl (heq.append (.space rfl (h' rest hr))))

theorem comma (h : Spells s ts) (h' : Spells s' ts') :
    Spells (s ++ ',' :: ' ' :: s') (ts ++ .symbol "," :: ts') := by
  intro rest hr
  have hs : Scans s ts (',' :: ' ' :: s' ++ rest) := h _ (stops_cons.2 (by decide))
  have hcomma : Scans [','] [.symbol ","] (' ' :: s' ++ rest) := scans_lone (by decide) _
  exact hs.append (hcomma.append (.space rfl (h' rest hr)))

theorem operated (op : BinaryOp) (h : Spells s ts) (h' : Spells s' ts') :
    Spells (s ++ ' ' :: op.print.toList ++ ' ' :: s') (ts ++ op.token :: ts') := by
  intro rest hr
  have hs : Scans s ts (' ' :: op.print.toList ++ (' ' :: s') ++ rest) :=
    h _ (stops_cons.2 (by decide))
  have hop : Scans op.print.toList [op.token] (' ' :: s' ++ rest) := by
    cases op with
    | eq => exact scans_equals _
    | or => exact scans_keyword (k := "or") (by decide) (stops_cons.2 (by decide))
  rw [List.append_assoc]
  exact hs.append ((Scans.space rfl hop).append (.space rfl (h' rest hr)))

theorem parens (h : Spells s ts) (rest : List Char) :
    Scans ('(' :: (s ++ [')'])) (.symbol "(" :: (ts ++ [.symbol ")"])) rest := by
  have hopen : Scans ['('] [.symbol "("] (s ++ [')'] ++ rest) := scans_lone (by decide) _
  have hs : Scans s ts ([')'] ++ rest) := h _ (stops_cons.2 (by decide))
  have hclose : Scans [')'] [.symbol ")"] rest := scans_lone (by decide) _
  exact hopen.append (hs.append hclose)

theorem separated {ss : List String} {tss : List (List Token)}
    (h : List.Forall₂ (fun s ts => Spells s.toList ts) ss tss) :
    Spells (Lua.separated ", " ss).toList (listed tss) := by
  induction h with
  | nil => exact fun rest _ => .nil rest
  | cons h hs ih =>
    cases hs with
    | nil => exact h
    | cons h' hs' =>
      rw [Lua.separated, String.toList_append, String.toList_append, List.append_assoc]
      · exact h.comma ih
      · simp

end Spells

theorem not_number_of_startsName (c : Char) (h : startsName c = true) :
    (c == '.' || c.isDigit) = false := by
  refine Bool.or_eq_false_iff.2 ⟨beq_false_of_kind (by decide) h, ?_⟩
  rw [← Bool.not_eq_true]
  intro hd
  rw [(startsName_of_isDigit hd).1] at h
  cases h

theorem scans_dotted {n : String} {rest : List Char} (hn : isName n = true)
    (hr : Stops continuesName rest) : Scans ('.' :: n.toList) [.symbol ".", .name n] rest := by
  have hdot : Scans ['.'] [.symbol "."] (n.toList ++ rest) :=
    scans_dot (stops_isName hn not_number_of_startsName)
  exact hdot.append (scans_name hn hr)

mutual

theorem Expr.scans_print : (e : Expr) → e.Safe → ∀ rest, Stops e.stop rest →
    Scans e.print.toList e.tokens rest
  | .ident n, h, rest, hr => scans_name h hr
  | .literal text, h, rest, hr => by
    obtain ⟨l, rfl⟩ := h
    rw [Expr.tokens, l.scan_text]
    exact l.scans_text hr
  | .str value, _, rest, _ => scans_quote value rest
  | .emptyTable, _, rest, _ => by
    have hopen : Scans ['\x7b'] [.symbol "\x7b"] ('\x7d' :: rest) := scans_lone (by decide) _
    have hclose : Scans ['\x7d'] [.symbol "\x7d"] rest := scans_lone (by decide) _
    exact hopen.append hclose
  | .call callee args, h, rest, _ => by
    obtain ⟨hp, hc, ha⟩ := h
    have hargs := (Spells.separated (Expr.spells_printAll args ha)).parens rest
    have hcallee := Expr.scans_print callee hc
      ('(' :: ((separated ", " (Expr.printAll args)).toList ++ [')']) ++ rest)
      (Expr.stops_of_isPrefix hp (stops_cons.2 (by decide)))
    simp only [Expr.print, String.toList_append, List.append_assoc]
    exact hcallee.append hargs
  | .method object n args, h, rest, _ => by
    obtain ⟨hp, ho, hn, ha⟩ := h
    have hargs := (Spells.separated (Expr.spells_printAll args ha)).parens rest
    have hname : Scans n.toList [.name n]
        ('(' :: ((separated ", " (Expr.printAll args)).toList ++ [')']) ++ rest) :=
      scans_name hn (stops_cons.2 (by decide))
    have hcolon : Scans [':'] [.symbol ":"]
        (n.toList ++ '(' :: ((separated ", " (Expr.printAll args)).toList ++ [')']) ++ rest) := by
      rw [List.append_assoc]
      exact scans_colon (stops_isName hn fun _ => beq_false_of_kind (by decide))
    have hobject := Expr.scans_print object ho
      (':' :: (n.toList ++ '(' :: ((separated ", " (Expr.printAll args)).toList ++ [')']))
        ++ rest)
      (Expr.stops_of_isPrefix hp (stops_cons.2 (by decide)))
    simp only [Expr.print, String.toList_append, List.append_assoc]
    exact hobject.append (hcolon.append (hname.append hargs))
  | .member object field, h, rest, hr => by
    obtain ⟨hp, ho, hn⟩ := h
    have hobject := Expr.scans_print object ho ('.' :: field.toList ++ rest)
      (Expr.stops_of_isPrefix hp (stops_cons.2 (by decide)))
    simp only [Expr.print, String.toList_append, List.append_assoc]
    exact hobject.append (scans_dotted hn hr)
  | .index object key, h, rest, _ => by
    obtain ⟨hp, ho, hk⟩ := h
    have hobject := Expr.scans_print object ho ('[' :: (key.print.toList ++ [']']) ++ rest)
      (Expr.stops_of_isPrefix hp (stops_cons.2 (by decide)))
    have hopen : Scans ['['] [.symbol "["] (key.print.toList ++ [']'] ++ rest) := by
      rw [List.append_assoc]
      exact scans_bracket (Expr.stops_print key hk _)
    have hkey := Expr.scans_print key hk ([']'] ++ rest)
      (Expr.stops_stop key (stops_cons.2 (by decide)))
    have hclose : Scans [']'] [.symbol "]"] rest := scans_lone (by decide) _
    simp only [Expr.print, String.toList_append, List.append_assoc]
    exact hobject.append (hopen.append (hkey.append hclose))
  | .len value, h, rest, hr => by
    have hlen : Scans ['#'] [.symbol "#"] (value.print.toList ++ rest) := scans_lone (by decide) _
    rw [Expr.print, String.toList_append]
    exact hlen.append (Expr.scans_print value h.2 rest (Expr.stops_stop value hr))
  | .binary left op right, h, rest, hr => by
    obtain ⟨hl, hr'⟩ := Expr.safe_operands h
    have hleft : Spells left.print.toList left.tokens :=
      fun _ hr => Expr.scans_print left hl _ (left.stops_stop hr)
    have hright : Spells right.print.toList right.tokens :=
      fun _ hr => Expr.scans_print right hr' _ (right.stops_stop hr)
    have hop := hleft.operated op hright rest hr
    rw [List.append_assoc] at hop
    simp only [Expr.print, String.toList_append, List.append_assoc]
    exact hop

theorem Expr.spells_printAll : (es : List Expr) → Expr.SafeAll es →
    List.Forall₂ (fun s ts => Spells s.toList ts) (Expr.printAll es) (Expr.tokensAll es)
  | [], _ => .nil
  | e :: es, h =>
    .cons (fun _ hr => Expr.scans_print e h.1 _ (e.stops_stop hr)) (Expr.spells_printAll es h.2)

end

theorem Expr.spells_print {e : Expr} (h : e.Safe) : Spells e.print.toList e.tokens :=
  fun _ hr => e.scans_print h _ (e.stops_stop hr)

theorem Simple.spells_print {s : Simple} (h : s.Safe) : Spells s.print.toList s.tokens := by
  cases s with
  | declare n value =>
    have hlocal := (spells_keyword (k := "local") (by decide)).spaced
      ((spells_name h.1).assigned (Expr.spells_print h.2))
    simp only [Simple.print, String.toList_append, List.append_assoc]
    exact hlocal
  | assign target value =>
    have hassign := (Expr.spells_print h.2.1).assigned (Expr.spells_print h.2.2)
    simp only [Simple.print, String.toList_append, List.append_assoc]
    exact hassign
  | eval call => exact Expr.spells_print h.2
  | ret value =>
    have hret := (spells_keyword (k := "return") (by decide)).spaced (Expr.spells_print h)
    simp only [Simple.print, String.toList_append]
    exact hret

theorem scans_tabs (depth : Nat) (rest : List Char) : Scans (tabs depth).toList [] rest := by
  rw [tabs, String.toList_ofList]
  induction depth with
  | zero => exact .nil rest
  | succ n ih => exact .space rfl ih

/-- The indentation and the end of a line hold no tokens. -/
theorem Spells.line {text : String} {ts : List Token} (h : Spells text.toList ts) (depth : Nat)
    (rest : List Char) : Scans (line depth text).toList ts rest := by
  have hend : Scans ['\n'] [] rest := .space rfl (.nil rest)
  have htext : Scans text.toList ts (['\n'] ++ rest) := h _ (stops_cons.2 (by decide))
  have hline := (scans_tabs depth _).append (htext.append hend)
  rw [List.append_nil] at hline
  simp only [Lua.line, String.toList_append, List.append_assoc]
  exact hline

theorem scans_end (depth : Nat) (rest : List Char) :
    Scans (line depth "end").toList [.keyword "end"] rest :=
  (spells_keyword (by decide)).line depth rest

theorem inlineBody_cases {body : List Stmt} {s : Simple} (h : inlineBody? body = some s) :
    body = [.simple s] := by
  unfold inlineBody? at h
  split at h
  · split at h
    · cases h
      rfl
    · cases h
  · cases h

mutual

theorem Stmt.scans_print : (s : Stmt) → s.Safe → ∀ depth rest,
    Scans (s.print depth).toList s.tokens rest
  | .simple s, h, depth, rest => (Simple.spells_print h).line depth rest
  | .ifThen condition body, h, depth, rest => by
    rw [Stmt.print]
    split
    · rename_i s hs
      obtain rfl := inlineBody_cases hs
      have hspell : Spells ("if " ++ condition.print ++ " then " ++ s.print ++ " end").toList
          (Stmt.ifThen condition [.simple s]).tokens := by
        have h := (spells_keyword (k := "if") (by decide)).spaced ((Expr.spells_print h.1).spaced
          ((spells_keyword (k := "then") (by decide)).spaced
            ((Simple.spells_print h.2.1).spaced (spells_keyword (k := "end") (by decide)))))
        simp only [String.toList_append, List.append_assoc, Stmt.tokens, Stmt.tokensBlock,
          List.append_nil]
        exact h
      exact hspell.line depth rest
    · have hhead : Spells ("if " ++ condition.print ++ " then").toList
          (.keyword "if" :: (condition.tokens ++ [.keyword "then"])) := by
        have h := (spells_keyword (k := "if") (by decide)).spaced
          ((Expr.spells_print h.1).spaced (spells_keyword (k := "then") (by decide)))
        simp only [String.toList_append, List.append_assoc]
        exact h
      have hblock := (hhead.line depth _).append
        ((Stmt.scans_printBlock body h.2 (depth + 1) _).append (scans_end depth rest))
      simp only [List.cons_append, List.append_assoc] at hblock
      simp only [String.toList_append, List.append_assoc]
      exact hblock
  | .count var first last body, h, depth, rest => by
    obtain ⟨hv, hf, hl, hb⟩ := h
    have hhead : Spells
        ("for " ++ var ++ " = " ++ first.print ++ ", " ++ last.print ++ " do").toList
        (.keyword "for" :: .name var :: .symbol "=" :: (first.tokens ++ .symbol "," ::
          (last.tokens ++ [.keyword "do"]))) := by
      have h := (spells_keyword (k := "for") (by decide)).spaced ((spells_name hv).assigned
        ((Expr.spells_print hf).comma
          ((Expr.spells_print hl).spaced (spells_keyword (k := "do") (by decide)))))
      simp only [String.toList_append, List.append_assoc]
      exact h
    have hblock := (hhead.line depth _).append
      ((Stmt.scans_printBlock body hb (depth + 1) _).append (scans_end depth rest))
    simp only [List.cons_append, List.append_assoc] at hblock
    simp only [Stmt.print, String.toList_append, List.append_assoc]
    exact hblock

theorem Stmt.scans_printBlock : (body : List Stmt) → Stmt.SafeBlock body → ∀ depth rest,
    Scans (Stmt.printBlock depth body).toList (Stmt.tokensBlock body) rest
  | [], _, _, rest => .nil rest
  | s :: body, h, depth, rest => by
    rw [Stmt.printBlock, String.toList_append]
    exact (Stmt.scans_print s h.1 depth _).append (Stmt.scans_printBlock body h.2.2 depth rest)

end

theorem DocLine.print_eq {l : DocLine} (h : l.Safe) :
    ∃ text, l.print = "---" ++ text ∧ IsLine text := by
  cases l with
  | text line =>
    rw [DocLine.print]
    split
    · exact ⟨"", rfl, by decide⟩
    · exact ⟨" " ++ line, by rw [← String.append_assoc]; rfl, isLine_append (by decide) h⟩
  | param name type description =>
    obtain ⟨hn, ht, hd⟩ := h
    have hhead : IsLine ("@param " ++ name ++ " " ++ type) :=
      isLine_append (isLine_append (isLine_append (by decide) hn) (by decide)) ht
    rw [DocLine.print]
    split
    · refine ⟨_, ?_, isLine_append hhead (t := "") (by decide)⟩
      simp only [← String.append_assoc]
      rfl
    · refine ⟨_, ?_, isLine_append hhead (isLine_append (s := " @") (by decide) hd)⟩
      simp only [← String.append_assoc]
      rfl
  | returns type description =>
    obtain ⟨ht, hd⟩ := h
    have hhead : IsLine ("@return " ++ type) := isLine_append (by decide) ht
    rw [DocLine.print]
    split
    · refine ⟨_, ?_, isLine_append hhead (t := "") (by decide)⟩
      simp only [← String.append_assoc]
      rfl
    · refine ⟨_, ?_, isLine_append hhead (isLine_append (s := " @ ") (by decide) hd)⟩
      simp only [← String.append_assoc]
      rfl

theorem scans_comment {text : String} (h : IsLine text) (rest : List Char) :
    Scans ("---" ++ text ++ "\n").toList [] rest := by
  have hscan := scan_comment (s := '-' :: text.toList) (r := rest)
    (List.forall_mem_cons.2 ⟨rfl, h⟩) rfl
  have hlist : ("---" ++ text ++ "\n").toList ++ rest =
      '-' :: '-' :: '-' :: text.toList ++ '\n' :: rest := by
    simp only [String.toList_append, List.append_assoc]
    rfl
  rw [Scans, hlist, hscan]
  simp

theorem scans_printDoc {doc : List DocLine} (h : ∀ l ∈ doc, l.Safe) (rest : List Char) :
    Scans (printDoc doc).toList [] rest := by
  induction doc with
  | nil => exact .nil rest
  | cons l doc ih =>
    obtain ⟨hl, hdoc⟩ := List.forall_mem_cons.1 h
    obtain ⟨text, ht, hline⟩ := DocLine.print_eq hl
    rw [printDoc, ht, String.toList_append]
    exact (scans_comment hline _).append (ih hdoc)

theorem scans_path {pieces : List (List Char)} (h : ∀ n ∈ pieces.map String.ofList, isName n = true)
    {rest : List Char} (hr : Stops continuesName rest) :
    Scans (Text.joinWith ['.'] pieces) (pathTokens (pieces.map String.ofList)) rest := by
  induction pieces with
  | nil => exact .nil rest
  | cons p ps ih =>
    obtain ⟨hp, hps⟩ := List.forall_mem_cons.1 h
    have hname {rest : List Char} (hr : Stops continuesName rest) :
        Scans p [.name (String.ofList p)] rest := by
      have hscan := scans_name hp hr
      rwa [String.toList_ofList] at hscan
    cases ps with
    | nil => exact hname hr
    | cons p' ps =>
      obtain ⟨tail, htail⟩ : ∃ tail, Text.joinWith ['.'] (p' :: ps) = p' ++ tail := by
        cases ps with
        | nil => exact ⟨[], by simp [Text.joinWith]⟩
        | cons p'' ps => exact ⟨_, by rw [Text.joinWith, List.append_assoc]; simp⟩
      have hdot : Scans ['.'] [.symbol "."] (Text.joinWith ['.'] (p' :: ps) ++ rest) := by
        have hstop := stops_isName (r := tail ++ rest) (hps _ List.mem_cons_self)
          not_number_of_startsName
        rw [String.toList_ofList, ← List.append_assoc, ← htail] at hstop
        exact scans_dot hstop
      have hhead : Scans p [.name (String.ofList p)]
          (['.'] ++ Text.joinWith ['.'] (p' :: ps) ++ rest) := hname (stops_cons.2 (by decide))
      rw [Text.joinWith, List.append_assoc]
      · exact hhead.append (hdot.append (ih hps))
      · simp

theorem Function.scans_path {f : Function} (h : f.Safe) (hl : f.isLocal = false)
    {rest : List Char} (hr : Stops continuesName rest) :
    Scans f.name.toList (pathTokens f.path) rest := by
  have hscan := Lua.scans_path (h.isName_path hl) hr
  rwa [Text.joinWith_pieces] at hscan

theorem spells_params {params : List String} (h : ∀ p ∈ params, isName p = true) :
    Spells (separated ", " params).toList (paramTokens params) := by
  refine Spells.separated ?_
  induction params with
  | nil => exact .nil
  | cons p params ih =>
    obtain ⟨hp, hps⟩ := List.forall_mem_cons.1 h
    exact .cons (spells_name hp) (ih hps)

theorem scans_word {k : String} (h : k ∈ keywords) (rest : List Char) :
    Scans (k.toList ++ [' ']) [.keyword k] rest :=
  (scans_keyword h (stops_cons.2 (by decide))).append (.space rfl (.nil rest))

theorem Function.scans_print {f : Function} (h : f.Safe) (rest : List Char) :
    Scans f.print.toList f.tokens rest := by
  have hend : Scans ['e', 'n', 'd', '\n'] [.keyword "end"] rest :=
    (scans_keyword (k := "end") (by decide) (stops_cons.2 (by decide))).append
      (.space rfl (.nil rest))
  have hbody := (Stmt.scans_printBlock f.body h.body 1 _).append hend
  have hparams := ((spells_params h.isName_params).parens _).append
    (Scans.space (c := '\n') rfl hbody)
  have hfunction := scans_word (k := "function") (by decide)
  simp only [List.cons_append, List.append_assoc, List.nil_append] at hparams
  rw [Function.print, Function.tokens]
  cases hl : f.isLocal with
  | true =>
    have hname {r : List Char} : Scans f.name.toList [.name f.name] ('(' :: r) :=
      scans_name (h.isName_local hl) (stops_cons.2 (by decide))
    have hscan := (scans_printDoc h.doc _).append ((scans_word (k := "local") (by decide) _).append
      ((hfunction _).append (hname.append hparams)))
    simp only [if_true, String.toList_append, List.append_assoc]
    exact hscan
  | false =>
    have hname {r : List Char} : Scans f.name.toList (pathTokens f.path) ('(' :: r) :=
      Function.scans_path h hl (stops_cons.2 (by decide))
    have hscan := (scans_printDoc h.doc _).append ((hfunction _).append (hname.append hparams))
    simp only [Bool.false_eq_true, if_false, String.toList_append, List.append_assoc]
    exact hscan

theorem scans_printFunctions {fs : List Function} (h : ∀ f ∈ fs, f.Safe) (rest : List Char) :
    Scans (printFunctions fs).toList (fs.flatMap Function.tokens) rest := by
  induction fs with
  | nil => exact .nil rest
  | cons f fs ih =>
    obtain ⟨hf, hfs⟩ := List.forall_mem_cons.1 h
    have hscan := (Scans.space (c := '\n') rfl (Function.scans_print hf _)).append (ih hfs)
    rw [printFunctions, String.toList_append, String.toList_append, List.flatMap_cons]
    exact hscan

/-- The text of a safe module holds its tokens and no others. -/
theorem Module.scan_print {m : Module} (h : m.Safe) : scan m.print.toList = some m.tokens := by
  have htitle := scans_comment (isLine_append (s := " ") (by decide) h.title)
  have hexported : Scans (m.exported.toList ++ ['\n']) [.name m.exported] [] :=
    (scans_name h.isName_exported (stops_cons.2 (by decide))).append (.space rfl (.nil []))
  have hreturn := (Scans.space (c := '\n') rfl (scans_word (k := "return") (by decide) _)).append
    hexported
  have hscan := (htitle _).append ((Stmt.scans_printBlock m.header h.header 0 _).append
    ((scans_printFunctions h.helpers _).append
      ((scans_printFunctions h.functions _).append hreturn)))
  have hprint : m.print.toList = ("---" ++ (" " ++ m.title) ++ "\n").toList ++
      ((Stmt.printBlock 0 m.header).toList ++ ((printFunctions m.helpers).toList ++
        ((printFunctions m.functions).toList ++
          ('\n' :: ("return".toList ++ [' ']) ++ (m.exported.toList ++ ['\n']))))) := by
    unfold Module.print
    simp only [String.toList_append, List.append_assoc]
    rfl
  rw [Scans, scan_nil, ← hprint, List.append_nil] at hscan
  rw [hscan, Module.tokens]
  simp

end OpStubs.Lua
