import OpStubs.Proofs.TextFormat.Partition
import OpStubs.Proofs.TextFormat.Places
import OpStubs.Registry.Read

namespace OpStubs

/-- What is wrong, wherever it stands. -/
def RegistryError.unplaced : RegistryError → RegistryError
  | .problem _ _ message => .problem 0 0 message
  | e => e

namespace TextFormat

/-- Whether blanks or a comment may begin with a character. -/
def OpensGap (c : Char) : Prop := Text.isBlank c = true ∨ c = '#'

/-- Whether a text begins as `rest` does, or with blanks or a comment. -/
def BeginsAs (rest rest' : List Char) : Prop :=
  rest'.head? = rest.head? ∨ ∃ c ∈ rest'.head?, OpensGap c

/-- Whether a text is that of some cuts, with gaps put in front of it and behind its tokens. -/
inductive Spaced : List Cut → List Char → List Char → Prop
  | last {g last : List Char} (hg : Gap g) : Spaced [] last (g ++ last)
  | cut {c : Cut} {cuts : List Cut} {g last s : List Char} (hg : Gap g) (h : Spaced cuts last s) :
    Spaced (c :: cuts) last (g ++ (c.text ++ s))

section Gaps
variable {c : Char}

theorem not_opensGap {r : List Char} (h : gap (c :: r) = []) : ¬ OpensGap c := by
  rintro (hblank | rfl)
  · rw [gap, if_pos hblank] at h
    cases h
  · rw [gap, if_neg (by decide), if_pos rfl] at h
    cases h

theorem not_opensToken (h : OpensGap c) : opensToken c = false := by
  rw [Bool.eq_false_iff]
  intro hopens
  exact not_opensGap (gap_of_opensToken hopens []) h

theorem not_continuesIdent (h : OpensGap c) : continuesIdent c = false := by
  have hopens := not_opensToken h
  simp only [opensToken, startsIdent, startsNumber, Bool.or_eq_false_iff] at hopens
  simp [continuesIdent, hopens]

theorem not_continuesNumber (h : OpensGap c) (last : Char) : continuesNumber last c = false := by
  have hopens := not_opensToken h
  simp only [opensToken, startsIdent, startsNumber, Bool.or_eq_false_iff] at hopens
  have hminus : c ≠ '-' := by
    rintro rfl
    simp [isPunct] at hopens
  have hplus : c ≠ '+' := by
    rintro rfl
    rcases h with h | h <;> revert h <;> decide
  simp [continuesNumber, hopens, hminus, hplus]

theorem Gap.beginsAs {g : List Char} (h : Gap g) (rest : List Char) :
    BeginsAs rest (g ++ rest) := by
  cases h with
  | nil => exact .inl rfl
  | blank hc _ => exact .inr ⟨_, rfl, .inl hc⟩
  | comment line _ _ => exact .inr ⟨_, rfl, .inr rfl⟩

end Gaps

section Tokens
variable {shape : List Char → Prop} {s rest rest' : List Char}

/-- A longest text stays the longest if what follows begins as before, or with what no text of its
shape goes on with. -/
theorem IsLongest.of_beginsAs (h : IsLongest shape s rest) (hrest : BeginsAs rest rest')
    (hshorter : ∀ p q, s <+: p → shape (p ++ q) → shape p)
    (hgap : ∀ c, OpensGap c → ¬ shape (s ++ [c])) : IsLongest shape s rest' := by
  refine ⟨h.fits, fun p hp hshape => ?_⟩
  by_contra hlt
  obtain ⟨q, rfl⟩ := List.prefix_of_prefix_length_le (List.prefix_append s rest') hp (by omega)
  have hq : q <+: rest' := (List.prefix_append_right_inj s).1 hp
  cases q with
  | nil => simp at hlt
  | cons c q =>
    obtain ⟨t, rfl⟩ := hq
    have hnext : shape (s ++ [c]) := by
      refine hshorter (s ++ [c]) q (List.prefix_append s [c]) ?_
      rwa [List.append_assoc]
    rcases hrest with hhead | ⟨d, hd, hopens⟩
    · obtain ⟨r, rfl⟩ : ∃ r, rest = c :: r := by
        cases rest with
        | nil => cases hhead
        | cons d r => exact ⟨r, by rw [Option.some.inj hhead]⟩
      have hlength := h.longest (s ++ [c]) ⟨r, by simp⟩ hnext
      rw [List.length_append, List.length_singleton] at hlength
      omega
    · cases hd
      exact absurd hnext (hgap c hopens)

theorem isLongest_ident_of_beginsAs (h : IsLongest IsIdent s rest) (hrest : BeginsAs rest rest') :
    IsLongest IsIdent s rest' := by
  obtain ⟨c, r, rfl, hc, -⟩ := h.fits
  refine h.of_beginsAs hrest ?_ ?_
  · rintro p q ⟨t, rfl⟩ ⟨d, r', heq, -, hr'⟩
    cases heq
    exact ⟨c, r ++ t, rfl, hc, fun d hd => hr' d (List.mem_append_left q hd)⟩
  · rintro d hd ⟨c', r', heq, -, hr'⟩
    cases heq
    have hcontinues := hr' d (by simp)
    rw [not_continuesIdent hd] at hcontinues
    cases hcontinues

theorem isLongest_number_of_beginsAs (h : IsLongest IsNumber s rest) (hrest : BeginsAs rest rest') :
    IsLongest IsNumber s rest' := by
  obtain ⟨c, r, rfl, hc, -⟩ := h.fits
  refine h.of_beginsAs hrest ?_ ?_
  · rintro p q ⟨t, rfl⟩ ⟨d, r', heq, -, hr'⟩
    cases heq
    exact ⟨c, r ++ t, rfl, hc, hr'.left_of_append⟩
  · rintro d hd ⟨c', r', heq, -, hr'⟩
    cases heq
    have hcontinues := (List.isChain_append.1 hr').2.2 _ List.getLast?_cons d rfl
    rw [not_continuesNumber hd] at hcontinues
    cases hcontinues

/-- What stands between two quotes depends on nothing behind the second. -/
theorem Content.of_head? {quote : Char} {bytes : List UInt8} (h : Content quote bytes s rest)
    (hrest : rest'.head? = rest.head?) : Content quote bytes s rest' := by
  induction h with
  | nil => exact .nil
  | segment hs _ ih => exact .segment hs (ih hrest)
  | @short b bytes s text rest digit? hs hstops _ ih =>
    refine .short hs ?_ (ih hrest)
    rw [Stops, List.head?_append] at hstops ⊢
    rwa [hrest]

/-- A token stands in front of every text that begins as before, or with blanks or a comment. -/
theorem Token.StandsAs.of_beginsAs {t : Token} (h : t.StandsAs s rest)
    (hrest : BeginsAs rest rest') : t.StandsAs s rest' := by
  cases h with
  | ident h => exact .ident (isLongest_ident_of_beginsAs h hrest)
  | number h => exact .number (isLongest_number_of_beginsAs h hrest)
  | punct h => exact .punct h
  | str hq h => exact .str hq (h.of_head? rfl)

end Tokens

section Cuts
variable {cuts : List Cut} {last s : List Char}

theorem Spaced.beginsAs (h : Spaced cuts last s) (hfits : Fits cuts last) :
    BeginsAs (joined cuts last) s := by
  cases h with
  | last hg => exact hg.beginsAs last
  | @cut c cuts g last s hg h =>
    have hnil : c.text ≠ [] := by
      simp [Cut.text, hfits.spelling_ne_nil c List.mem_cons_self]
    have hhead : (c.text ++ s).head? = (joined (c :: cuts) last).head? := by
      rw [joined, List.flatMap_cons, List.append_assoc, List.head?_append_of_ne_nil _ hnil,
        List.head?_append_of_ne_nil _ hnil]
    rcases hg.beginsAs (c.text ++ s) with h | h
    · exact .inl (h.trans hhead)
    · exact .inr h

/-- A spaced text is cut into the same tokens. -/
theorem Spaced.exists_fits (h : Spaced cuts last s) (hfits : Fits cuts last) :
    ∃ cuts' last', s = joined cuts' last' ∧ Fits cuts' last' ∧
      cuts'.map (·.token) = cuts.map (·.token) := by
  induction h with
  | @last g last hg => exact ⟨[], g ++ last, rfl, LastGap.prepend hg hfits, rfl⟩
  | @cut c cuts g last s hg hs ih =>
    obtain ⟨hgap, hstands, hfits⟩ := hfits
    obtain ⟨cuts', last', rfl, hfits', htokens⟩ := ih hfits
    have hstands' := hstands.of_beginsAs (hs.beginsAs hfits)
    refine ⟨{ c with gap := g ++ c.gap } :: cuts', last', ?_, ?_, ?_⟩
    · simp [joined_cons, Cut.text]
    · exact ⟨hg.append hgap, hstands', hfits'⟩
    · rw [List.map_cons, List.map_cons, htokens]

/-- Cuts of the same tokens differ in places only. -/
theorem placed_moved (p : Pos) (front : List Char) (cuts : List Cut) :
    (placed front cuts).map (Placed.moved fun _ => p) =
      (cuts.map (·.token)).map fun t => ⟨t, p⟩ := by
  induction cuts generalizing front with
  | nil => rfl
  | cons c cuts ih => exact congrArg (Placed.mk c.token p :: ·) (ih (front ++ c.text))

theorem tokens_joined (h : Fits cuts last) : tokens (joined cuts last) = .ok (placed [] cuts) :=
  scan_fits h []

end Cuts

theorem unplaced_moved (f : Pos → Pos) (e : ReadError) :
    (RegistryError.ofText (e.moved f)).unplaced = (RegistryError.ofText e).unplaced := by
  cases e <;> rfl

/-- What is read of a text, wherever its tokens stand. -/
theorem read_unplaced {text : String} {ts : List Placed} (h : tokens text.toList = .ok ts)
    (p : Pos) : (Registry.read .text text).mapError RegistryError.unplaced =
      (registryOfTokens p (ts.map (.moved fun _ => p))).mapError
        fun e => (RegistryError.ofText e).unplaced := by
  rw [Registry.read, registry_of_tokens h, registryOfTokens_moved (fun _ => p) (endOf text.toList)]
  cases registryOfTokens (endOf text.toList) ts with
  | ok r => rfl
  | error e => exact congrArg Except.error (unplaced_moved (fun _ => p) e).symm

/-- A text that has tokens is cut into them. Whatever blanks and whole comments are put in front of
it and behind its tokens, the registry that is read is the same, and so is what is wrong with the
text, the place where it is found apart. -/
theorem read_of_spaced {text : String} {ts : List Placed} (h : tokens text.toList = .ok ts) :
    (∃ cuts last, text.toList = joined cuts last ∧ Fits cuts last) ∧
    ∀ cuts last, text.toList = joined cuts last → Fits cuts last →
      ∀ text' : String, Spaced cuts last text'.toList →
        (Registry.read .text text').mapError RegistryError.unplaced =
          (Registry.read .text text).mapError RegistryError.unplaced := by
  constructor
  · have hscan : scan (placeBehind []) text.toList = .ok ts := h
    obtain ⟨cuts, last, hs, hfits, -⟩ := exists_fits hscan
    exact ⟨cuts, last, hs, hfits⟩
  · intro cuts last htext hfits text' hspaced
    obtain ⟨cuts', last', htext', hfits', htokens⟩ := hspaced.exists_fits hfits
    have hread := read_unplaced (htext ▸ tokens_joined hfits) .start
    have hread' := read_unplaced (htext' ▸ tokens_joined hfits') .start
    rw [hread, hread', placed_moved, placed_moved, htokens]

/-- A field whose number could go on with a sign. -/
def exponentCuts : List Cut :=
  [⟨[], ['o', 'p'], .ident "op"⟩, ⟨[], [':'], .punct ':'⟩, ⟨[], ['1', 'e'], .number "1e"⟩]

theorem read_of_spaced_exponent :
    tokens "op:1e".toList = .ok (placed [] exponentCuts) ∧
    "op:1e".toList = joined exponentCuts [] ∧ Fits exponentCuts [] ∧
    Spaced exponentCuts [] "\nop #-\n:1e#-\n".toList ∧
    (Registry.read .text "\nop #-\n:1e#-\n").mapError RegistryError.unplaced =
      (Registry.read .text "op:1e").mapError RegistryError.unplaced ∧
    Registry.read .text "op:1e" =
      .error (.problem 1 1 "'op' must be a message, found number 1e") := by
  have hfits : Fits exponentCuts [] :=
    ⟨.nil, .ident (isLongest_takeWhile (c := 'o') rfl ['p', ':', '1', 'e']), .nil, .punct rfl, .nil,
      .number (isLongest_numberTail (c := '1') (r := ['e']) rfl rfl), .gap .nil⟩
  have hfirst : Gap ['\n'] := .blank rfl .nil
  have hsecond : Gap " #-\n".toList := .blank (c := ' ') rfl (.comment ['-'] (by simp) .nil)
  have hlast : Gap "#-\n".toList := .comment ['-'] (by simp) .nil
  have hspaced : Spaced exponentCuts [] "\nop #-\n:1e#-\n".toList :=
    .cut hfirst (.cut hsecond (.cut .nil (.last hlast)))
  have htokens : tokens "op:1e".toList = .ok (placed [] exponentCuts) := tokens_joined hfits
  refine ⟨htokens, rfl, hfits, hspaced,
    (read_of_spaced htokens).2 exponentCuts [] rfl hfits _ hspaced, ?_⟩
  rw [Registry.read, registry_of_tokens htokens]
  rfl

end TextFormat

end OpStubs
