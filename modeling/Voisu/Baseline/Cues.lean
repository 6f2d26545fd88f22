import Mathlib
import Voisu.Baseline.Tokens
import Voisu.Lib.Casing
import Voisu.Lib.Lines
import Voisu.Lib.Scan

/-!
# Bare spoken cues

One pass over the whitespace tokens turns spoken marks into marks: `dash`, `slash`, `dot`, `period`,
`new line` and the like.  What stands between `quote` and `unquote` is put in quotation marks and
left as it was spoken.

* `applyBareSpokenCuesPass`             the pass, one buffer and a scan over the tokens;
* `CueRead`                             a reading of the tokens: words, quotations and cues, in order;
* `CueRendered`                         a text that says the words and the quotations of a reading,
                                        with no letter or digit in between;
* `applyBareSpokenCuesPass_conserves`   the pass renders a reading of its text.
-/

namespace Voisu.Baseline
open Lib

/-! ## the pass -/

/-- the cue phrase stands at token `i`; one comma or period behind a token is passed over -/
def cuePhraseMatch (tokens : List Token) (i : Nat) (phrase : List String) : Bool :=
  ((tokens.drop i).take phrase.length).map (fun tok => spokenCueToken tok.text)
    == phrase.map String.toList

/-- the cue word of the token before -/
def cueBefore (tokens : List Token) (i : Nat) : Option Text :=
  if i = 0 then none else tokens[i - 1]?.map fun tok => spokenCueToken tok.text

def dashIsCue (tokens : List Token) (i : Nat) : Bool :=
  let prev := cueBefore tokens i
  let next := tokens[i + 1]?.map fun tok => spokenCueToken tok.text
  !((prev == some "a".toList || prev == some "the".toList) && next == some "of".toList)

def lowerBefore (tokens : List Token) (i : Nat) : Option Text :=
  if i = 0 then none else tokens[i - 1]?.map fun tok => asciiLowercase tok.text

def periodIsCue (tokens : List Token) (i : Nat) : Bool :=
  let prev := lowerBefore tokens i
  let next := tokens[i + 1]?.map fun tok => asciiLowercase tok.text
  if prev == some "the".toList && next == some "of".toList then false
  else !(prev == some "a".toList || prev == some "the".toList || prev == some "this".toList
    || prev == some "that".toList)

/-- the words of a quotation; a comma behind the last one belongs to the cue -/
def joinQuoteInterior (tokens : List Token) : Text :=
  let parts := tokens.map Run.text
  [' '].intercalate (match parts.getLast? with
    | some last => parts.dropLast ++ [if endsWith last [','] then last.dropLast else last]
    | none => [])

def trimTrailingSpace (out : Text) : Text := trimEndMatches (· == ' ') out

def isClauseEnd (c : Char) : Bool := c == '.' || c == '!' || c == '?' || c == ':' || c == '\n'

def ensureClausePeriod (out : Text) : Text :=
  let trimmed := trimEnd out
  if !trimmed.getLast?.any isClauseEnd && trimmed.getLast?.any (fun c => isAlphanumeric c || c == ')')
  then trimmed ++ '.' :: List.replicate (byteLen out - byteLen trimmed) ' '
  else out

structure CuePass where
  out : Text
  /-- a space is due before the next word -/
  pending : Bool
  technical : Bool
deriving DecidableEq, Repr

/-- no space at the start, nor right after a line break -/
def CuePass.pushSpace (st : CuePass) : CuePass :=
  { st with
    out := if st.pending && st.out.getLast?.any (· != '\n') then st.out ++ [' '] else st.out
    pending := false }

/-- a technical mark set against the word before it -/
def CuePass.glued (st : CuePass) (mark : String) : CuePass :=
  { out := trimTrailingSpace st.out ++ mark.toList, pending := false, technical := true }

/-- a technical mark behind a space -/
def CuePass.spaced (st : CuePass) (mark : String) : CuePass :=
  { out := st.pushSpace.out ++ mark.toList, pending := false, technical := true }

/-- sentence punctuation -/
def CuePass.punctuated (st : CuePass) (mark : Char) : CuePass :=
  { st with out := trimTrailingSpace st.pushSpace.out ++ [mark], pending := true }

/-- a line or paragraph break -/
def CuePass.broken (st : CuePass) (breaks : Text) : CuePass :=
  { st with
    out := ensureClausePeriod (trimTrailingSpace st.pushSpace.out) ++ breaks
    pending := false }

def CuePass.said (st : CuePass) (text : Text) : CuePass :=
  { st with out := st.pushSpace.out ++ text, pending := true }

/-- the tokens strictly between two positions -/
def interiorTokens (tokens : List Token) (q u : Nat) : List Token :=
  (tokens.drop (q + 1)).take (u - (q + 1))

section
variable (tokens : List Token) (pairs : List (Nat × Nat)) (skip mentioned : List Bool)

/-- one round: the next position, and the buffer -/
def cueStep (i : Nat) (st : CuePass) : Nat × CuePass :=
  match pairs.find? fun pair => pair.1 == i with
  | some (q, u) => (u + 1, st.said ('"' :: joinQuoteInterior (interiorTokens tokens q u) ++ ['"']))
  | none =>
    if skip.getD i false then (i + 1, st)
    else if cuePhraseMatch tokens i ["colon", "slash", "slash"] then (i + 3, st.glued "://")
    else if cuePhraseMatch tokens i ["dash", "dash"] then (i + 2, st.spaced "--")
    else if cuePhraseMatch tokens i ["dash"] && dashIsCue tokens i then (i + 1, st.spaced "-")
    else if cuePhraseMatch tokens i ["slash"] then (i + 1, st.glued "/")
    else if cuePhraseMatch tokens i ["dot"] then (i + 1, st.glued ".")
    else if !mentioned.getD i false && cuePhraseMatch tokens i ["exclamation", "point"] then
      (i + 2, st.punctuated '!')
    else if !mentioned.getD i false && cuePhraseMatch tokens i ["new", "paragraph"] then
      (i + 2, st.broken ['\n', '\n'])
    else if !mentioned.getD i false && cuePhraseMatch tokens i ["new", "line"] then
      (i + 2, st.broken ['\n'])
    else if !mentioned.getD i false && (cuePhraseMatch tokens i ["period"] && periodIsCue tokens i) then
      (i + 1, st.punctuated '.')
    else (i + 1, st.said ((tokens[i]?.map Run.text).getD []))

end

def applyBareSpokenCuesPass (text : Text) : Text × Bool :=
  let tokens := wordTokens text
  if tokens.isEmpty then (text, false)
  else
    let masks := quotePairsAndSkip tokens
    let pass := scan tokens.length (cueStep tokens masks.1 masks.2 (metalinguisticMask tokens))
      ⟨[], false, false⟩
    (pass.out, pass.technical)

example : String.ofList (applyBareSpokenCuesPass
    "see quote the dot file, unquote Foo dot txt new line stop period".toList).1 =
    "see \"the dot file\" Foo.txt.\nstop." := by decide +kernel

/-! ## readings -/

inductive CueEvent where
  | word (tok : Token)
  | quoted (interior : List Token)
  | cue

/-- what the transcript says at an event -/
def CueEvent.spoken : CueEvent → Text
  | .word tok => tok.text
  | .quoted interior => interior.flatMap Run.text
  | .cue => []

section
variable (tokens : List Token)

/-- token `i` belongs to no pair of `quote` and `unquote` -/
def OutsideQuotes (i : Nat) : Prop :=
  ∀ pair ∈ quotePairs tokens, ¬ (pair.1 ≤ i ∧ i ≤ pair.2)

def Mentioned (i : Nat) : Prop := (metalinguisticMask tokens).getD i false = true

/-- the cues at token `i`, with the number of their tokens -/
inductive CueAt (i : Nat) : Nat → Prop
  | colonSlashSlash (h : cuePhraseMatch tokens i ["colon", "slash", "slash"] = true) : CueAt i 3
  | dashDash (h : cuePhraseMatch tokens i ["dash", "dash"] = true) : CueAt i 2
  | dash (h : cuePhraseMatch tokens i ["dash"] = true) (hc : dashIsCue tokens i = true) : CueAt i 1
  | slash (h : cuePhraseMatch tokens i ["slash"] = true) : CueAt i 1
  | dot (h : cuePhraseMatch tokens i ["dot"] = true) : CueAt i 1
  | exclamationPoint (h : cuePhraseMatch tokens i ["exclamation", "point"] = true)
      (hm : ¬ Mentioned tokens i) : CueAt i 2
  | newParagraph (h : cuePhraseMatch tokens i ["new", "paragraph"] = true)
      (hm : ¬ Mentioned tokens i) : CueAt i 2
  | newLine (h : cuePhraseMatch tokens i ["new", "line"] = true)
      (hm : ¬ Mentioned tokens i) : CueAt i 2
  | period (h : cuePhraseMatch tokens i ["period"] = true) (hc : periodIsCue tokens i = true)
      (hm : ¬ Mentioned tokens i) : CueAt i 1

/-- the events of the tokens before a position, in order -/
inductive CueRead : List CueEvent → Nat → Prop
  | start : CueRead [] 0
  | quoted {es : List CueEvent} {q u : Nat} (h : CueRead es q) (hp : (q, u) ∈ quotePairs tokens) :
      CueRead (es ++ [CueEvent.quoted (interiorTokens tokens q u)]) (u + 1)
  | cue {es : List CueEvent} {i width : Nat} (h : CueRead es i) (ho : OutsideQuotes tokens i)
      (hc : CueAt tokens i width) : CueRead (es ++ [CueEvent.cue]) (i + width)
  | word {es : List CueEvent} {i : Nat} {tok : Token} (h : CueRead es i)
      (ho : OutsideQuotes tokens i) (ht : tokens[i]? = some tok) :
      CueRead (es ++ [CueEvent.word tok]) (i + 1)

end

/-- no letter or digit -/
def Mute (s : Text) : Prop := s.filter isAlphanumeric = []

instance (s : Text) : Decidable (Mute s) :=
  inferInstanceAs (Decidable (s.filter isAlphanumeric = []))

/-- the tokens of a quotation, one space between two of them; a comma may be missing behind the
last -/
def QuotedWords (interior : List Token) (text : Text) : Prop :=
  text = [' '].intercalate (interior.map Run.text) ∨
  ∃ front last body, interior = front ++ [last] ∧ last.text = body ++ [','] ∧
    text = [' '].intercalate (front.map Run.text ++ [body])

inductive CueRendered : List CueEvent → Text → Prop
  | done {glue : Text} (hg : Mute glue) : CueRendered [] glue
  | word {glue out : Text} {tok : Token} {es : List CueEvent} (hg : Mute glue)
      (h : CueRendered es out) : CueRendered (.word tok :: es) (glue ++ tok.text ++ out)
  | quoted {glue text out : Text} {interior : List Token} {es : List CueEvent} (hg : Mute glue)
      (hq : QuotedWords interior text) (h : CueRendered es out) :
      CueRendered (.quoted interior :: es) (glue ++ ('"' :: text ++ ['"']) ++ out)
  | cue {out : Text} {es : List CueEvent} (h : CueRendered es out) : CueRendered (.cue :: es) out

/-! ## the rendering grows at its end -/

theorem Mute.append {g h : Text} (hg : Mute g) (hh : Mute h) : Mute (g ++ h) := by
  rw [Mute, List.filter_append, hg, hh]
  rfl

theorem mute_of_append {g h : Text} (hg : Mute (g ++ h)) : Mute g := by
  rw [Mute, List.filter_append] at hg
  exact (List.append_eq_nil_iff.mp hg).1

/-- a word of the transcript: some characters, none of them white space -/
def CueEvent.Plain : CueEvent → Prop
  | .word tok => tok.text ≠ [] ∧ tok.text.all notWhitespace = true
  | _ => True

namespace CueRendered
variable {es : List CueEvent} {out : Text}

theorem glue_end (h : CueRendered es out) {g : Text} (hg : Mute g) : CueRendered es (out ++ g) := by
  induction h with
  | done hg' => exact .done (hg'.append hg)
  | word hg' _ ih =>
    rw [List.append_assoc]
    exact .word hg' ih
  | quoted hg' hq _ ih =>
    rw [List.append_assoc]
    exact .quoted hg' hq ih
  | cue _ ih => exact .cue ih

theorem word_end (h : CueRendered es out) (tok : Token) :
    CueRendered (es ++ [CueEvent.word tok]) (out ++ tok.text) := by
  induction h with
  | @done glue hg =>
    have : CueRendered [.word tok] (glue ++ tok.text ++ []) := .word hg (.done rfl)
    rwa [List.append_nil] at this
  | word hg _ ih =>
    rw [List.append_assoc]
    exact .word hg ih
  | quoted hg hq _ ih =>
    rw [List.append_assoc]
    exact .quoted hg hq ih
  | cue _ ih => exact .cue ih

theorem quoted_end (h : CueRendered es out) {interior : List Token} {text : Text}
    (hq : QuotedWords interior text) :
    CueRendered (es ++ [CueEvent.quoted interior]) (out ++ ('"' :: text ++ ['"'])) := by
  induction h with
  | @done glue hg =>
    have : CueRendered [.quoted interior] (glue ++ ('"' :: text ++ ['"']) ++ []) :=
      .quoted hg hq (.done rfl)
    rwa [List.append_nil] at this
  | word hg _ ih =>
    rw [List.append_assoc]
    exact .word hg ih
  | quoted hg hq' _ ih =>
    rw [List.append_assoc]
    exact .quoted hg hq' ih
  | cue _ ih => exact .cue ih

theorem cue_end (h : CueRendered es out) : CueRendered (es ++ [CueEvent.cue]) out := by
  induction h with
  | done hg => exact .cue (.done hg)
  | word hg _ ih => exact .word hg ih
  | quoted hg hq _ ih => exact .quoted hg hq ih
  | cue _ ih => exact .cue ih

/-- trimming white space at the end stops at the last word or quotation -/
theorem trimEndMatches (h : CueRendered es out) (hes : ∀ e ∈ es, e.Plain) {p : Char → Bool}
    (hp : ∀ c, p c = true → isWhitespace c = true) :
    CueRendered es (Lib.trimEndMatches p out) := by
  induction h with
  | @done glue hg =>
    obtain ⟨g, hsplit, -, -⟩ := trimEndMatches_split p glue
    rw [hsplit] at hg
    exact .done (mute_of_append hg)
  | @word glue out tok es hg h ih =>
    obtain ⟨hne, hall⟩ := hes _ List.mem_cons_self
    have hlast : lastSep p (glue ++ tok.text) = true := by
      rw [lastSep_append_of_ne_nil hne]
      refine lastSep_of_all (List.all_eq_true.mpr fun c hc => ?_)
      have hc' := List.all_eq_true.mp hall c hc
      cases hpc : p c with
      | false => rfl
      | true => simp [notWhitespace, hp c hpc] at hc'
    rw [trimEndMatches_append hlast]
    exact .word hg (ih fun e he => hes e (List.mem_cons_of_mem _ he))
  | @quoted glue text out interior es hg hq h ih =>
    have hquote : p '"' = false := by
      cases hpq : p '"' with
      | false => rfl
      | true => exact absurd (hp _ hpq) (by decide)
    have hlast : lastSep p (glue ++ ('"' :: text ++ ['"'])) = true := by
      rw [← List.append_assoc, lastSep_append_of_ne_nil (List.cons_ne_nil _ _)]
      simp [lastSep, headSep, hquote]
    rw [trimEndMatches_append hlast]
    exact .quoted hg hq (ih fun e he => hes e (List.mem_cons_of_mem _ he))
  | cue _ ih => exact .cue (ih fun e he => hes e (List.mem_cons_of_mem _ he))

end CueRendered

/-! ## the buffer -/

section
variable {es : List CueEvent} {st : CuePass}

theorem pushSpace_rendered (h : CueRendered es st.out) : CueRendered es st.pushSpace.out := by
  unfold CuePass.pushSpace
  split
  · exact h.glue_end (by decide)
  · exact h

theorem trimTrailingSpace_rendered {out : Text} (h : CueRendered es out)
    (hes : ∀ e ∈ es, e.Plain) : CueRendered es (trimTrailingSpace out) :=
  h.trimEndMatches hes fun c hc => by
    rw [eq_of_beq hc]
    decide

theorem ensureClausePeriod_rendered {out : Text} (h : CueRendered es out)
    (hes : ∀ e ∈ es, e.Plain) : CueRendered es (ensureClausePeriod out) := by
  simp only [ensureClausePeriod]
  split
  · refine (h.trimEndMatches hes fun c hc => hc).glue_end ?_
    rw [Mute, List.filter_eq_nil_iff]
    intro c hc
    rcases List.mem_cons.mp hc with rfl | hc
    · decide
    · rw [(List.mem_replicate.mp hc).2]
      decide
  · exact h

theorem glued_rendered (h : CueRendered es st.out) (hes : ∀ e ∈ es, e.Plain) {mark : String}
    (hm : Mute mark.toList) : CueRendered (es ++ [CueEvent.cue]) (st.glued mark).out :=
  ((trimTrailingSpace_rendered h hes).glue_end hm).cue_end

theorem spaced_rendered (h : CueRendered es st.out) {mark : String}
    (hm : Mute mark.toList) : CueRendered (es ++ [CueEvent.cue]) (st.spaced mark).out :=
  ((pushSpace_rendered h).glue_end hm).cue_end

theorem punctuated_rendered (h : CueRendered es st.out) (hes : ∀ e ∈ es, e.Plain) {mark : Char}
    (hm : Mute [mark]) : CueRendered (es ++ [CueEvent.cue]) (st.punctuated mark).out :=
  ((trimTrailingSpace_rendered (pushSpace_rendered h) hes).glue_end hm).cue_end

theorem broken_rendered (h : CueRendered es st.out) (hes : ∀ e ∈ es, e.Plain) {breaks : Text}
    (hm : Mute breaks) : CueRendered (es ++ [CueEvent.cue]) (st.broken breaks).out :=
  ((ensureClausePeriod_rendered (trimTrailingSpace_rendered (pushSpace_rendered h) hes)
    hes).glue_end hm).cue_end

end

theorem joinQuoteInterior_words (interior : List Token) :
    QuotedWords interior (joinQuoteInterior interior) := by
  rcases List.eq_nil_or_concat interior with rfl | ⟨front, last, rfl⟩
  · exact Or.inl rfl
  · unfold joinQuoteInterior
    simp only [List.concat_eq_append, List.map_append, List.map_cons, List.map_nil,
      List.getLast?_append, List.getLast?_singleton, Option.some_or, List.dropLast_concat]
    split
    · rename_i hcomma
      right
      obtain ⟨body, hbody⟩ := List.isSuffixOf_iff_suffix.mp hcomma
      refine ⟨front, last, body, rfl, hbody.symm, ?_⟩
      rw [← hbody, List.dropLast_concat]
    · left
      simp

/-! ## pairs of quotation cues -/

theorem quotePairsFrom_start {i skip : Nat} {tokens : List Token} {pair : Nat × Nat}
    (h : pair ∈ quotePairsFrom i skip tokens) : i + skip ≤ pair.1 := by
  induction tokens generalizing i skip with
  | nil => cases h
  | cons tok rest ih =>
    unfold quotePairsFrom at h
    split_ifs at h with hskip hquote
    · have := ih h
      omega
    · split at h
      · rcases List.mem_cons.mp h with rfl | h
        · omega
        · have := ih h
          omega
      · have := ih h
        omega
    · have := ih h
      omega

/-- a pair starts with a `quote`, ends inside the text, and the next one starts behind it -/
theorem quotePairsFrom_spec (i skip : Nat) (tokens : List Token) :
    (∀ pair ∈ quotePairsFrom i skip tokens, pair.1 < pair.2 ∧ pair.2 < i + tokens.length ∧
      ∃ tok, tokens[pair.1 - i]? = some tok ∧ isQuoteCue tok = true) ∧
    (quotePairsFrom i skip tokens).Pairwise fun a b => a.2 < b.1 := by
  induction tokens generalizing i skip with
  | nil => exact ⟨fun pair h => (List.not_mem_nil h).elim, List.Pairwise.nil⟩
  | cons tok rest ih =>
    have later : ∀ skip', (∀ pair ∈ quotePairsFrom (i + 1) skip' rest,
        pair.1 < pair.2 ∧ pair.2 < i + (tok :: rest).length ∧
          ∃ tok', (tok :: rest)[pair.1 - i]? = some tok' ∧ isQuoteCue tok' = true) := by
      intro skip' pair hpair
      obtain ⟨h1, h2, tok', h3, h4⟩ := (ih (i + 1) skip').1 pair hpair
      have hstart := quotePairsFrom_start hpair
      refine ⟨h1, by rw [List.length_cons]; omega, tok', ?_, h4⟩
      rw [show pair.1 - i = (pair.1 - (i + 1)) + 1 by omega, List.getElem?_cons_succ]
      exact h3
    unfold quotePairsFrom
    split_ifs with hskip hquote
    · exact ⟨later _, (ih _ _).2⟩
    · split
      · rename_i k hk
        have hklt : k < rest.length := by
          obtain ⟨hlt, -⟩ := List.findIdx?_eq_some_iff_getElem.mp hk
          exact hlt
        refine ⟨fun pair hpair => ?_, List.pairwise_cons.mpr ⟨fun b hb => ?_, (ih _ _).2⟩⟩
        · rcases List.mem_cons.mp hpair with rfl | hpair
          · refine ⟨by show i < i + 1 + k; omega, by rw [List.length_cons]; show i + 1 + k < _; omega,
              tok, ?_, hquote⟩
            simp
          · exact later _ pair hpair
        · have := quotePairsFrom_start hb
          show i + 1 + k < b.1
          omega
      · exact ⟨later _, (ih _ _).2⟩
    · exact ⟨later _, (ih _ _).2⟩

section
variable {tokens : List Token}

theorem quotePairs_spec {pair : Nat × Nat} (h : pair ∈ quotePairs tokens) :
    pair.1 < pair.2 ∧ pair.2 < tokens.length ∧
      ∃ tok, tokens[pair.1]? = some tok ∧ isQuoteCue tok = true := by
  have := (quotePairsFrom_spec 0 0 tokens).1 pair h
  simpa using this

/-- two pairs have no token in common -/
theorem quotePairs_apart {a b : Nat × Nat} (ha : a ∈ quotePairs tokens)
    (hb : b ∈ quotePairs tokens) : a = b ∨ a.2 < b.1 ∨ b.2 < a.1 := by
  by_cases hab : a = b
  · exact Or.inl hab
  · have hp := (quotePairsFrom_spec 0 0 tokens).2
    have hsym : (quotePairs tokens).Pairwise fun a b => a.2 < b.1 ∨ b.2 < a.1 :=
      hp.imp fun h => Or.inl h
    have : Std.Symm fun a b : Nat × Nat => a.2 < b.1 ∨ b.2 < a.1 := ⟨fun _ _ h => h.symm⟩
    exact Or.inr (hsym.forall ha hb hab)

theorem cuePhraseMatch_at {i : Nat} {phrase : List String}
    (h : cuePhraseMatch tokens i phrase = true) (hne : phrase ≠ []) :
    i + phrase.length ≤ tokens.length ∧
      ∀ k tok, i ≤ k → k < i + phrase.length → tokens[k]? = some tok →
        ∃ word ∈ phrase, spokenCueToken tok.text = word.toList := by
  have he := eq_of_beq h
  have hlen := congrArg List.length he
  rw [List.length_map, List.length_map, List.length_take, List.length_drop] at hlen
  have hpos := List.length_pos_of_ne_nil hne
  refine ⟨by omega, fun k tok hik hk htok => ?_⟩
  have hget : ((tokens.drop i).take phrase.length)[k - i]? = some tok := by
    rw [List.getElem?_take_of_lt (by omega), List.getElem?_drop, show i + (k - i) = k by omega]
    exact htok
  have hword := congrArg (fun l => l[k - i]?) he
  simp only [List.getElem?_map, hget, Option.map_some] at hword
  obtain ⟨word, hw, hw'⟩ := Option.map_eq_some_iff.mp hword.symm
  exact ⟨word, List.mem_of_getElem? hw, hw'.symm⟩

/-! ## the pass conserves -/

/-- what holds at position `i` of the scan -/
structure CueInvariant (tokens : List Token) (i : Nat) (st : CuePass) : Prop where
  rendered : ∃ es, CueRead tokens es i ∧ CueRendered es st.out ∧ ∀ e ∈ es, e.Plain
  bound : i ≤ tokens.length
  outside : ∀ pair ∈ quotePairs tokens, ¬ (pair.1 < i ∧ i ≤ pair.2)

theorem CueInvariant.cue {i width : Nat} {st st' : CuePass} (h : CueInvariant tokens i st)
    (ho : OutsideQuotes tokens i) (hc : CueAt tokens i width) {phrase : List String}
    (hm : cuePhraseMatch tokens i phrase = true) (hwidth : phrase.length = width)
    (hquote : 0 < phrase.length ∧ ("quote" ∈ phrase → False))
    (hr : ∀ es, CueRendered es st.out → (∀ e ∈ es, e.Plain) →
      CueRendered (es ++ [CueEvent.cue]) st'.out) :
    i < i + width ∧ CueInvariant tokens (i + width) st' := by
  obtain ⟨es, hread, hrend, hplain⟩ := h.rendered
  obtain ⟨hbound, hwords⟩ := cuePhraseMatch_at hm (List.ne_nil_of_length_pos hquote.1)
  refine ⟨by omega, ⟨es ++ [CueEvent.cue], hread.cue ho hc, hr es hrend hplain, ?_⟩, by omega, ?_⟩
  · intro e he
    rcases List.mem_append.mp he with he | he
    · exact hplain e he
    · rw [List.mem_singleton.mp he]
      exact trivial
  · rintro pair hpair ⟨hlt, hle⟩
    -- a pair that starts inside the phrase starts with a word of the phrase
    obtain ⟨-, -, tok, htok, hcue⟩ := quotePairs_spec hpair
    rcases Nat.lt_or_ge pair.1 i with hi | hi
    · exact ho pair hpair ⟨by omega, by omega⟩
    · obtain ⟨word, hword, heq⟩ := hwords pair.1 tok hi (by omega) htok
      have hq : "quote".toList = word.toList := (eq_of_beq hcue).symm.trans heq
      rw [← String.toList_injective hq] at hword
      exact hquote.2 hword

/-- what is said at the end of the buffer, behind a space where one is due -/
theorem CueInvariant.next {i j : Nat} {st : CuePass} {event : CueEvent} {text : Text}
    (h : CueInvariant tokens i st) (hread : ∀ es, CueRead tokens es i →
      CueRead tokens (es ++ [event]) j) (hplain : event.Plain) (hj : j ≤ tokens.length)
    (ho : ∀ pair ∈ quotePairs tokens, ¬ (pair.1 < j ∧ j ≤ pair.2))
    (hr : ∀ es out, CueRendered es out → CueRendered (es ++ [event]) (out ++ text)) :
    CueInvariant tokens j (st.said text) := by
  obtain ⟨es, hes, hrend, hall⟩ := h.rendered
  refine ⟨⟨es ++ [event], hread es hes, hr es _ (pushSpace_rendered hrend), ?_⟩, hj, ho⟩
  intro e he
  rcases List.mem_append.mp he with he | he
  · exact hall e he
  · rwa [List.mem_singleton.mp he]

theorem not_mentioned {i : Nat} (h : (metalinguisticMask tokens).getD i false = false) :
    ¬ Mentioned tokens i := by
  rw [Mentioned, h]
  exact Bool.false_ne_true

theorem skip_outside {i : Nat} (ho : OutsideQuotes tokens i) :
    (quotePairsAndSkip tokens).2.getD i false = false := by
  unfold quotePairsAndSkip
  rw [List.getD_eq_getElem?_getD, List.getElem?_mapIdx]
  cases tokens[i]? with
  | none => rfl
  | some tok =>
    simp only [Option.map_some, Option.getD_some, List.any_eq_false, Bool.and_eq_true,
      decide_eq_true_eq]
    exact ho

theorem cueStep_invariant {i : Nat} {st : CuePass}
    (hplain : ∀ tok ∈ tokens, (CueEvent.word tok).Plain) (hi : i < tokens.length)
    (h : CueInvariant tokens i st) :
    let next := cueStep tokens (quotePairs tokens) (quotePairsAndSkip tokens).2
      (metalinguisticMask tokens) i st
    i < next.1 ∧ CueInvariant tokens next.1 next.2 := by
  intro next
  show i < (cueStep tokens (quotePairs tokens) (quotePairsAndSkip tokens).2
      (metalinguisticMask tokens) i st).1 ∧ CueInvariant tokens
    (cueStep tokens (quotePairs tokens) (quotePairsAndSkip tokens).2
      (metalinguisticMask tokens) i st).1
    (cueStep tokens (quotePairs tokens) (quotePairsAndSkip tokens).2
      (metalinguisticMask tokens) i st).2
  unfold cueStep
  cases hfind : (quotePairs tokens).find? fun pair => pair.1 == i with
  | some pair =>
    obtain ⟨q, u⟩ := pair
    have hmem : (q, u) ∈ quotePairs tokens := List.mem_of_find?_eq_some hfind
    have hq : q = i := by simpa using List.find?_some hfind
    subst hq
    obtain ⟨hlt, hu, -⟩ := quotePairs_spec hmem
    have hlt' : q < u := hlt
    have hquoted : CueInvariant tokens (u + 1)
        (st.said ('"' :: joinQuoteInterior (interiorTokens tokens q u) ++ ['"'])) := by
      refine h.next (fun es hes => hes.quoted hmem) trivial hu ?_
        fun es out hr => hr.quoted_end (joinQuoteInterior_words _)
      rintro pair hpair ⟨hstart, hend⟩
      rcases quotePairs_apart hmem hpair with rfl | hapart | hapart
      · have hend' : u + 1 ≤ u := hend
        omega
      · have hapart' : u < pair.1 := hapart
        omega
      · have hapart' : pair.2 < q := hapart
        omega
    exact ⟨Nat.lt_succ_of_lt hlt', hquoted⟩
  | none =>
    have ho : OutsideQuotes tokens i := by
      rintro pair hpair ⟨hle, hle'⟩
      rcases Nat.lt_or_eq_of_le hle with hlt | heq
      · exact h.outside pair hpair ⟨hlt, hle'⟩
      · exact absurd heq (by simpa using List.find?_eq_none.mp hfind pair hpair)
    have spoken : i < i + 1 ∧ CueInvariant tokens (i + 1)
        (st.said ((tokens[i]?.map Run.text).getD [])) := by
      obtain ⟨tok, htok⟩ : ∃ tok, tokens[i]? = some tok := ⟨_, List.getElem?_eq_getElem hi⟩
      rw [htok]
      refine ⟨Nat.lt_succ_self i, h.next (fun es hes => hes.word ho htok)
        (hplain tok (List.mem_of_getElem? htok)) hi ?_ fun es out hr => hr.word_end tok⟩
      rintro pair hpair ⟨hlt, hle⟩
      exact ho pair hpair ⟨by omega, by omega⟩
    dsimp only
    rw [skip_outside ho, if_neg Bool.false_ne_true]
    by_cases h1 : cuePhraseMatch tokens i ["colon", "slash", "slash"] = true
    · rw [if_pos h1]
      exact h.cue ho (.colonSlashSlash h1) h1 rfl (by decide)
        fun es hr hes => glued_rendered hr hes (by decide)
    rw [if_neg h1]
    by_cases h2 : cuePhraseMatch tokens i ["dash", "dash"] = true
    · rw [if_pos h2]
      exact h.cue ho (.dashDash h2) h2 rfl (by decide)
        fun es hr hes => spaced_rendered hr (by decide)
    rw [if_neg h2]
    by_cases h3 : (cuePhraseMatch tokens i ["dash"] && dashIsCue tokens i) = true
    · obtain ⟨hcue, hdash⟩ := Bool.and_eq_true_iff.mp h3
      rw [if_pos h3]
      exact h.cue ho (.dash hcue hdash) hcue rfl (by decide)
        fun es hr hes => spaced_rendered hr (by decide)
    rw [if_neg h3]
    by_cases h4 : cuePhraseMatch tokens i ["slash"] = true
    · rw [if_pos h4]
      exact h.cue ho (.slash h4) h4 rfl (by decide)
        fun es hr hes => glued_rendered hr hes (by decide)
    rw [if_neg h4]
    by_cases h5 : cuePhraseMatch tokens i ["dot"] = true
    · rw [if_pos h5]
      exact h.cue ho (.dot h5) h5 rfl (by decide)
        fun es hr hes => glued_rendered hr hes (by decide)
    rw [if_neg h5]
    -- the other cues are no cues where they are mentioned
    cases hmention : (metalinguisticMask tokens).getD i false with
    | true =>
      rw [Bool.not_true, Bool.false_and, Bool.false_and, Bool.false_and, Bool.false_and,
        if_neg Bool.false_ne_true, if_neg Bool.false_ne_true, if_neg Bool.false_ne_true,
        if_neg Bool.false_ne_true]
      exact spoken
    | false =>
      have hm := not_mentioned hmention
      rw [Bool.not_false, Bool.true_and, Bool.true_and, Bool.true_and, Bool.true_and]
      by_cases h6 : cuePhraseMatch tokens i ["exclamation", "point"] = true
      · rw [if_pos h6]
        exact h.cue ho (.exclamationPoint h6 hm) h6 rfl (by decide)
          fun es hr hes => punctuated_rendered hr hes (by decide)
      rw [if_neg h6]
      by_cases h7 : cuePhraseMatch tokens i ["new", "paragraph"] = true
      · rw [if_pos h7]
        exact h.cue ho (.newParagraph h7 hm) h7 rfl (by decide)
          fun es hr hes => broken_rendered hr hes (by decide)
      rw [if_neg h7]
      by_cases h8 : cuePhraseMatch tokens i ["new", "line"] = true
      · rw [if_pos h8]
        exact h.cue ho (.newLine h8 hm) h8 rfl (by decide)
          fun es hr hes => broken_rendered hr hes (by decide)
      rw [if_neg h8]
      by_cases h9 : (cuePhraseMatch tokens i ["period"] && periodIsCue tokens i) = true
      · obtain ⟨hcue, hperiod⟩ := Bool.and_eq_true_iff.mp h9
        rw [if_pos h9]
        exact h.cue ho (.period hcue hperiod hm) hcue rfl (by decide)
          fun es hr hes => punctuated_rendered hr hes (by decide)
      rw [if_neg h9]
      exact spoken

end

theorem intercalate_letters (parts : List Text) :
    ([' '].intercalate parts).filter isAlphanumeric = parts.flatten.filter isAlphanumeric := by
  induction parts with
  | nil => rfl
  | cons part parts ih =>
    cases parts with
    | nil => simp
    | cons next parts =>
      have hspace : [' '].filter isAlphanumeric = [] := by decide
      rw [List.intercalate_cons_cons, List.filter_append, List.filter_append, ih, hspace,
        List.append_nil, ← List.filter_append]
      rfl

theorem QuotedWords.letters {interior : List Token} {text : Text} (h : QuotedWords interior text) :
    text.filter isAlphanumeric = (interior.flatMap Run.text).filter isAlphanumeric := by
  rcases h with rfl | ⟨front, last, body, rfl, hlast, rfl⟩
  · rw [intercalate_letters, List.flatMap_def]
  · rw [intercalate_letters, List.flatten_append, List.flatMap_append, List.filter_append,
      List.filter_append, List.flatMap_def]
    simp only [List.flatten_cons, List.flatten_nil, List.append_nil, List.flatMap_cons,
      List.flatMap_nil, hlast, List.filter_append]
    rw [show [','].filter isAlphanumeric = [] by decide, List.append_nil]

theorem CueRendered.letters {es : List CueEvent} {out : Text} (h : CueRendered es out) :
    out.filter isAlphanumeric = (es.flatMap CueEvent.spoken).filter isAlphanumeric := by
  induction h with
  | done hg => exact hg
  | word hg _ ih =>
    rw [List.filter_append, List.filter_append, hg, ih, List.flatMap_cons, List.filter_append]
    rfl
  | quoted hg hq _ ih =>
    rw [List.filter_append, List.filter_append, hg, ih, List.flatMap_cons, List.filter_append,
      List.filter_append, List.filter_cons_of_neg (by decide), hq.letters,
      show ['"'].filter isAlphanumeric = [] by decide, List.append_nil]
    rfl
  | cue _ ih => rw [ih, List.flatMap_cons]; rfl

theorem wordTokens_plain (text : Text) : ∀ tok ∈ wordTokens text, (CueEvent.word tok).Plain :=
  fun tok htok => words_all (List.mem_map.mpr ⟨tok, htok, rfl⟩)

example : ensureClausePeriod "done ".toList = "done. ".toList := by decide +kernel

/-- **the pass conserves what is no cue** -/
theorem applyBareSpokenCuesPass_conserves (text : Text) :
    ∃ events, CueRead (wordTokens text) events (wordTokens text).length ∧
      CueRendered events (applyBareSpokenCuesPass text).1 ∧
      (applyBareSpokenCuesPass text).1.filter isAlphanumeric =
        (events.flatMap CueEvent.spoken).filter isAlphanumeric := by
  suffices h : ∃ events, CueRead (wordTokens text) events (wordTokens text).length ∧
      CueRendered events (applyBareSpokenCuesPass text).1 by
    obtain ⟨events, hread, hrend⟩ := h
    exact ⟨events, hread, hrend, hrend.letters⟩
  simp only [applyBareSpokenCuesPass]
  split
  · rename_i hempty
    have hnil : wordTokens text = [] := List.isEmpty_iff.mp hempty
    refine ⟨[], by rw [hnil]; exact .start, .done ?_⟩
    -- a letter would stand in a token
    refine List.filter_eq_nil_iff.mpr fun c hc halnum => ?_
    obtain ⟨tok, htok, -⟩ := (runs_spec notWhitespace 0 text).exists_mem hc
      (alphanumeric_notWhitespace halnum)
    rw [show runs notWhitespace 0 text = [] from hnil] at htok
    exact List.not_mem_nil htok
  · obtain ⟨j, hj, hinv⟩ := scan_invariant (I := CueInvariant (wordTokens text))
      (fun i st hi h => cueStep_invariant (wordTokens_plain text) hi h)
      (s := ⟨[], false, false⟩) ⟨⟨[], .start, .done rfl, fun e he => (List.not_mem_nil he).elim⟩,
        Nat.zero_le _, fun pair _ h => by omega⟩
    obtain ⟨events, hread, hrend, -⟩ := hinv.rendered
    rw [Nat.le_antisymm hinv.bound hj] at hread
    exact ⟨events, hread, hrend⟩

end Voisu.Baseline
