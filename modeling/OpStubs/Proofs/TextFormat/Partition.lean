import Mathlib.Data.List.Chain
import Mathlib.Data.List.TakeWhile
import OpStubs.Proofs.TextFormat.Escaping

namespace OpStubs.TextFormat

open Text.Utf8 (decodeLossy)

/-- The place behind a text: a line for each line feed in it, and a column for each character behind
the last one. -/
def placeBehind (s : List Char) : Pos :=
  ⟨1 + s.count '\n', 1 + (s.reverse.takeWhile (· ≠ '\n')).length⟩

def IsIdent (s : List Char) : Prop :=
  ∃ c r, s = c :: r ∧ startsIdent c = true ∧ ∀ d ∈ r, continuesIdent d = true

/-- Whether a text is a number: a digit or a point, and behind each character one that continues a
number there. -/
def IsNumber (s : List Char) : Prop :=
  ∃ c r, s = c :: r ∧ startsNumber c = true ∧
    (c :: r).IsChain fun last d => continuesNumber last d = true

/-- Whether `s` is the longest text of some shape with which `s ++ rest` starts. -/
structure IsLongest (shape : List Char → Prop) (s rest : List Char) : Prop where
  fits : shape s
  longest : ∀ p, p <+: s ++ rest → shape p → p.length ≤ s.length

/-- Whether a text in front of `rest` spells a token. -/
inductive Token.StandsAs : Token → List Char → List Char → Prop
  | ident {s rest : List Char} (h : IsLongest IsIdent s rest) :
    StandsAs (.ident (String.ofList s)) s rest
  | number {s rest : List Char} (h : IsLongest IsNumber s rest) :
    StandsAs (.number (String.ofList s)) s rest
  | punct {c : Char} {rest : List Char} (h : isPunct c = true) : StandsAs (.punct c) [c] rest
  | str {quote : Char} {bytes : List UInt8} {s rest : List Char} (hq : quote = '"' ∨ quote = '\'')
    (h : Content quote bytes s (quote :: rest)) :
    StandsAs (.str (String.ofList (decodeLossy bytes))) (quote :: (s ++ [quote])) rest

/-- Blanks and comments at the end of a text, where the last comment needs no line feed. -/
inductive LastGap : List Char → Prop
  | gap {g : List Char} (h : Gap g) : LastGap g
  | comment {g line : List Char} (h : Gap g) (hl : ∀ c ∈ line, c ≠ '\n') :
    LastGap (g ++ '#' :: line)

/-- A token with its spelling and the gap in front of it. -/
structure Cut where
  gap : List Char
  spelling : List Char
  token : Token

def Cut.text (c : Cut) : List Char := c.gap ++ c.spelling

/-- The text of some cuts and of what is behind them. -/
def joined (cuts : List Cut) (last : List Char) : List Char := cuts.flatMap Cut.text ++ last

/-- Whether each cut is a gap and the spelling of its token, in front of those behind it. -/
def Fits : List Cut → List Char → Prop
  | [], last => LastGap last
  | c :: cuts, last =>
    Gap c.gap ∧ c.token.StandsAs c.spelling (joined cuts last) ∧ Fits cuts last

/-- The tokens of cuts, each at the place where its spelling starts, behind a text `front`. -/
def placed (front : List Char) : List Cut → List Placed
  | [] => []
  | c :: cuts => ⟨c.token, placeBehind (front ++ c.gap)⟩ :: placed (front ++ c.text) cuts

theorem joined_cons (c : Cut) (cuts : List Cut) (last : List Char) :
    joined (c :: cuts) last = c.gap ++ (c.spelling ++ joined cuts last) := by
  simp [joined, Cut.text]

section Places

theorem placeBehind_concat (s : List Char) (c : Char) :
    placeBehind (s ++ [c]) = (placeBehind s).after c := by
  by_cases hc : c = '\n'
  · simp [placeBehind, Pos.after, hc, Nat.add_assoc]
  · simp [placeBehind, Pos.after, hc, Nat.add_assoc]

/-- Counting on from the place behind a text gives the place behind both. -/
theorem afterText_placeBehind (front s : List Char) :
    (placeBehind front).afterText s = placeBehind (front ++ s) := by
  induction s generalizing front with
  | nil => rw [Pos.afterText_nil, List.append_nil]
  | cons c s ih => rw [Pos.afterText_cons, ← placeBehind_concat, ih, List.append_assoc]; rfl

end Places

section Longest
variable {shape : List Char → Prop} {s rest s' rest' : List Char}

/-- A text starts with one longest text of a shape. -/
theorem IsLongest.unique (h : IsLongest shape s rest) (h' : IsLongest shape s' rest')
    (heq : s ++ rest = s' ++ rest') : s = s' ∧ rest = rest' := by
  have hle : s.length ≤ s'.length := h'.longest s (heq ▸ List.prefix_append s rest) h.fits
  have hge : s'.length ≤ s.length := h.longest s' (heq ▸ List.prefix_append s' rest') h'.fits
  exact List.append_inj heq (Nat.le_antisymm hle hge)

theorem isLongest_takeWhile {c : Char} (hc : startsIdent c = true) (r : List Char) :
    IsLongest IsIdent (c :: r.takeWhile continuesIdent) (r.dropWhile continuesIdent) := by
  refine ⟨⟨c, _, rfl, hc, fun d hd => List.mem_takeWhile_imp hd⟩, ?_⟩
  rintro _ hprefix ⟨d, p, rfl, -, hp⟩
  rw [List.cons_append, List.takeWhile_append_dropWhile, List.cons_prefix_cons] at hprefix
  obtain ⟨t, rfl⟩ := hprefix.2
  rw [List.takeWhile_append_of_pos hp]
  simp

theorem numberTail_prefix (last : Char) (r : List Char) : numberTail last r <+: r := by
  induction r generalizing last with
  | nil => exact List.prefix_rfl
  | cons c r ih =>
    rw [numberTail]
    split
    · exact List.cons_prefix_cons.2 ⟨rfl, ih c⟩
    · exact List.nil_prefix

theorem isChain_numberTail (last : Char) (r : List Char) :
    (last :: numberTail last r).IsChain fun last d => continuesNumber last d = true := by
  induction r generalizing last with
  | nil => exact .singleton last
  | cons c r ih =>
    rw [numberTail]
    split
    · rename_i hc
      exact List.isChain_cons_cons.2 ⟨hc, ih c⟩
    · exact .singleton last

theorem length_le_numberTail {last : Char} {p r : List Char}
    (hp : (last :: p).IsChain fun last d => continuesNumber last d = true) (h : p <+: r) :
    p.length ≤ (numberTail last r).length := by
  induction p generalizing last r with
  | nil => exact Nat.zero_le _
  | cons c p ih =>
    obtain ⟨t, rfl⟩ := h
    rw [List.isChain_cons_cons] at hp
    rw [List.cons_append, numberTail, if_pos hp.1]
    exact Nat.succ_le_succ (ih hp.2 (List.prefix_append p t))

theorem isLongest_numberTail {c : Char} {r rest : List Char} (hc : startsNumber c = true)
    (h : numberTail c r ++ rest = r) : IsLongest IsNumber (c :: numberTail c r) rest := by
  refine ⟨⟨c, _, rfl, hc, isChain_numberTail c r⟩, ?_⟩
  rintro _ hprefix ⟨d, p, rfl, -, hp⟩
  rw [List.cons_append, h, List.cons_prefix_cons] at hprefix
  obtain ⟨rfl, hprefix⟩ := hprefix
  exact Nat.succ_le_succ (length_le_numberTail hp hprefix)

end Longest

section Lexeme
variable {c : Char} {r rest s : List Char} {t : Token}

theorem standsAs_of_lexeme {x : Lexeme} (h : lexeme c r = .ok x) :
    ∃ rest, c :: r = x.spelling ++ rest ∧ x.token.StandsAs x.spelling rest := by
  unfold lexeme at h
  split at h
  · rename_i hq
    rcases closes_or_fails c r with ⟨bytes, s, rest, rfl, hs⟩ |
      ⟨bytes, s, rest, cause, rfl, hs, hfault⟩
    · rw [readLiteral_content hq hs] at h
      cases h
      exact ⟨rest, by simp, .str hq hs⟩
    · rw [readLiteral_append hq hs, readLiteral_fault hq hfault] at h
      cases h
  · split at h
    · rename_i hc
      cases h
      obtain ⟨rest, hrest⟩ := numberTail_prefix c r
      exact ⟨rest, by rw [List.cons_append, hrest], .number (isLongest_numberTail hc hrest)⟩
    · split at h
      · rename_i hc
        cases h
        exact ⟨r.dropWhile continuesIdent, by simp, .ident (isLongest_takeWhile hc r)⟩
      · split at h
        · rename_i hc
          cases h
          exact ⟨r, rfl, .punct hc⟩
        · cases h

/-- A token that stands in a text is the one that is read there. -/
theorem lexeme_of_standsAs (h : t.StandsAs s rest) :
    ∃ c r, s = c :: r ∧ opensToken c = true ∧ lexeme c (r ++ rest) = .ok ⟨t, s⟩ := by
  cases h with
  | ident h =>
    obtain ⟨c, r, rfl, hc, -⟩ := h.fits
    have hopens : opensToken c = true := by simp [opensToken, hc]
    obtain ⟨hquote, hnumber⟩ := (opens_apart hopens).2.1 hc
    have hlongest := isLongest_takeWhile hc (r ++ rest)
    obtain ⟨heq, -⟩ := hlongest.unique h (by simp)
    refine ⟨c, r, rfl, hopens, ?_⟩
    rw [lexeme, if_neg (not_or.2 hquote), if_neg (by simp [hnumber]), if_pos hc]
    simp only [heq]
  | number h =>
    obtain ⟨c, r, rfl, hc, -⟩ := h.fits
    have hopens : opensToken c = true := by simp [opensToken, hc]
    have hquote := (opens_apart hopens).1 hc
    obtain ⟨rest', hrest'⟩ := numberTail_prefix c (r ++ rest)
    have hlongest := isLongest_numberTail hc hrest'
    obtain ⟨heq, -⟩ := hlongest.unique h (by rw [List.cons_append, hrest']; rfl)
    refine ⟨c, r, rfl, hopens, ?_⟩
    rw [lexeme, if_neg (not_or.2 hquote), if_pos hc]
    simp only [heq]
  | @punct c _ h =>
    have hopens : opensToken c = true := by simp [opensToken, h]
    obtain ⟨hquote, hnumber, hident⟩ := (opens_apart hopens).2.2 h
    refine ⟨c, [], rfl, hopens, ?_⟩
    rw [lexeme, if_neg (not_or.2 hquote), if_neg (by simp [hnumber]), if_neg (by simp [hident]),
      if_pos h]
  | @str quote bytes s _ hq h =>
    refine ⟨quote, _, rfl, opensToken_quote hq, ?_⟩
    rw [List.append_assoc, List.singleton_append]
    exact lexeme_content hq h

theorem Token.StandsAs.ne_nil (h : t.StandsAs s rest) : s ≠ [] := by
  obtain ⟨c, r, rfl, -⟩ := lexeme_of_standsAs h
  simp

end Lexeme

section Scan

theorem Gap.append {g g' : List Char} (h : Gap g) (h' : Gap g') : Gap (g ++ g') := by
  induction h with
  | nil => exact h'
  | blank hc _ ih => exact .blank hc ih
  | comment line hl _ ih =>
    rw [List.cons_append, List.append_assoc]
    exact .comment line hl ih

theorem LastGap.prepend {g g' : List Char} (h : Gap g) (h' : LastGap g') : LastGap (g ++ g') := by
  cases h' with
  | gap h' => exact .gap (h.append h')
  | comment h' hl =>
    rw [← List.append_assoc]
    exact .comment (h.append h') hl

theorem scan_lastGap {g : List Char} (h : LastGap g) (pos : Pos) : scan pos g = .ok [] := by
  cases h with
  | gap h =>
    have hscan := scan_append_gap h pos []
    rwa [List.append_nil, scan_nil] at hscan
  | comment h hl => rw [scan_append_gap h, scan_comment hl]

theorem scan_fits {cuts : List Cut} {last : List Char} (h : Fits cuts last) (front : List Char) :
    scan (placeBehind front) (joined cuts last) = .ok (placed front cuts) := by
  induction cuts generalizing front with
  | nil => exact scan_lastGap h _
  | cons c cuts ih =>
    obtain ⟨hgap, hstands, hfits⟩ := h
    obtain ⟨d, r, hspelling, hopens, hlexeme⟩ := lexeme_of_standsAs hstands
    have hscan := scan_lexeme (gap_of_opensToken hopens _) hlexeme
      (by rw [hspelling, List.cons_append]) (placeBehind (front ++ c.gap))
    rw [← List.cons_append, ← hspelling] at hscan
    rw [joined_cons, scan_append_gap hgap, afterText_placeBehind, hscan, afterText_placeBehind,
      List.append_assoc, ih hfits]
    rfl

theorem Fits.spelling_ne_nil {cuts : List Cut} {last : List Char} (h : Fits cuts last) :
    ∀ c ∈ cuts, c.spelling ≠ [] := by
  induction cuts with
  | nil => exact nofun
  | cons c cuts ih =>
    obtain ⟨-, hstands, hfits⟩ := h
    exact List.forall_mem_cons.2 ⟨hstands.ne_nil, ih hfits⟩

/-- A gap in front of cuts belongs to the first of them, or to what is behind them all. -/
theorem Fits.prepend {g : List Char} {cuts : List Cut} {last : List Char} (hg : Gap g)
    (h : Fits cuts last) : ∃ cuts' last', Fits cuts' last' ∧
      joined cuts' last' = g ++ joined cuts last ∧ cuts'.map (·.token) = cuts.map (·.token) ∧
      ∀ front, placed front cuts' = placed (front ++ g) cuts := by
  cases cuts with
  | nil => exact ⟨[], g ++ last, LastGap.prepend hg h, rfl, rfl, fun _ => rfl⟩
  | cons c cuts =>
    obtain ⟨hgap, hstands, hfits⟩ := h
    refine ⟨{ c with gap := g ++ c.gap } :: cuts, last, ⟨hg.append hgap, hstands, hfits⟩, ?_, rfl,
      fun front => ?_⟩
    · rw [joined_cons, joined_cons, List.append_assoc]
    · simp [placed, Cut.text]

/-- A text is a gap to its end, or begins with a gap, or with what must be a token. -/
theorem gap_cases (s : List Char) :
    LastGap s ∨ (∃ g rest, Gap g ∧ g ≠ [] ∧ s = g ++ rest) ∨ ∃ c r, s = c :: r ∧ gap s = [] := by
  cases s with
  | nil => exact .inl (.gap .nil)
  | cons c r =>
    by_cases hblank : Text.isBlank c = true
    · exact .inr (.inl ⟨[c], r, .blank hblank .nil, by simp, rfl⟩)
    by_cases hcomment : c = '#'
    · subst hcomment
      have hline : ∀ d ∈ r.takeWhile (· ≠ '\n'), d ≠ '\n' := by
        intro d hd
        simpa using List.mem_takeWhile_imp hd
      have hr := List.takeWhile_append_dropWhile (p := (· ≠ '\n')) (l := r)
      cases hrest : r.dropWhile (· ≠ '\n') with
      | nil =>
        rw [hrest, List.append_nil] at hr
        rw [hr] at hline
        exact .inl (.comment .nil hline)
      | cons d rest =>
        have hfeed := List.head?_dropWhile_not (· ≠ '\n') r
        rw [hrest] at hfeed
        have hd : d = '\n' := by simpa using hfeed
        subst hd
        refine .inr (.inl ⟨_, rest, .comment _ hline .nil, by simp, ?_⟩)
        rw [List.cons_append, List.append_assoc, List.singleton_append, ← hrest, hr]
    · exact .inr (.inr ⟨c, r, rfl, by simp [gap, hblank, hcomment]⟩)

/-- A text is a gap to its end, or has no token at its start, or goes on behind a gap or a token. -/
theorem text_induction {motive : List Char → List Char → Prop}
    (last : ∀ front s, LastGap s → motive front s)
    (gap : ∀ front g rest, Gap g → motive (front ++ g) rest → motive front (g ++ rest))
    (refused : ∀ front c r cause, TextFormat.gap (c :: r) = [] → lexeme c r = .error cause →
      motive front (c :: r))
    (token : ∀ front c r x rest, TextFormat.gap (c :: r) = [] → lexeme c r = .ok x →
      c :: r = x.spelling ++ rest → x.token.StandsAs x.spelling rest →
      motive (front ++ x.spelling) rest → motive front (c :: r))
    (front s : List Char) : motive front s := by
  induction hn : s.length using Nat.strong_induction_on generalizing front s with
  | _ n ih =>
    subst hn
    rcases gap_cases s with hlast | ⟨g, rest, hg, hne, rfl⟩ | ⟨c, r, rfl, hgap⟩
    · exact last front s hlast
    · have hlt : rest.length < (g ++ rest).length := by
        have hpos := List.length_pos_iff.2 hne
        rw [List.length_append]
        omega
      exact gap front g rest hg (ih rest.length hlt (front ++ g) rest rfl)
    · cases hlexeme : lexeme c r with
      | error cause => exact refused front c r cause hgap hlexeme
      | ok x =>
        obtain ⟨rest, hr, hstands⟩ := standsAs_of_lexeme hlexeme
        have hlt : rest.length < (c :: r).length := by
          have hpos := List.length_pos_iff.2 hstands.ne_nil
          rw [hr, List.length_append]
          omega
        exact token front c r x rest hgap hlexeme hr hstands
          (ih rest.length hlt (front ++ x.spelling) rest rfl)

/-- Every text that is read is cut into tokens and gaps. -/
theorem exists_fits {front s : List Char} {ts : List Placed}
    (h : scan (placeBehind front) s = .ok ts) :
    ∃ cuts last, s = joined cuts last ∧ Fits cuts last ∧ ts = placed front cuts := by
  induction front, s using text_induction generalizing ts with
  | last front s hlast =>
    rw [scan_lastGap hlast] at h
    cases h
    exact ⟨[], s, rfl, hlast, rfl⟩
  | gap front g rest hg ih =>
    rw [scan_append_gap hg, afterText_placeBehind] at h
    obtain ⟨cuts, last, rfl, hfits, rfl⟩ := ih h
    obtain ⟨cuts', last', hfits', hjoined, -, hplaced⟩ := hfits.prepend hg
    exact ⟨cuts', last', hjoined.symm, hfits', (hplaced front).symm⟩
  | refused front c r cause hgap hlexeme =>
    rw [scan_error hgap hlexeme] at h
    cases h
  | token front c r x rest hgap hlexeme hr hstands ih =>
    rw [scan_lexeme hgap hlexeme hr, afterText_placeBehind] at h
    cases hscan : scan (placeBehind (front ++ x.spelling)) rest with
    | error p =>
      rw [hscan] at h
      cases h
    | ok us =>
      rw [hscan] at h
      cases h
      obtain ⟨cuts, last, rfl, hfits, rfl⟩ := ih hscan
      refine ⟨⟨[], x.spelling, x.token⟩ :: cuts, last, ?_, ⟨.nil, hstands, hfits⟩, ?_⟩
      · rw [hr, joined_cons, List.nil_append]
      · simp [placed, Cut.text]

end Scan

/-- Tokens are read off a text exactly if the text is their spellings and gaps between them, in
their order. A spelling is not empty, that of a name, a number or a mark is the token itself and as
long as it can be, and a token's place counts the lines and characters in front of its spelling. -/
theorem tokens_iff_partition (s : List Char) (ts : List Placed) :
    tokens s = .ok ts ↔ ∃ cuts last, s = joined cuts last ∧ Fits cuts last ∧
      (∀ c ∈ cuts, c.spelling ≠ []) ∧ ts = placed [] cuts := by
  constructor
  · intro h
    have hscan : scan (placeBehind []) s = .ok ts := h
    obtain ⟨cuts, last, hs, hfits, hts⟩ := exists_fits hscan
    exact ⟨cuts, last, hs, hfits, hfits.spelling_ne_nil, hts⟩
  · rintro ⟨cuts, last, rfl, hfits, -, rfl⟩
    exact scan_fits hfits []

end OpStubs.TextFormat
