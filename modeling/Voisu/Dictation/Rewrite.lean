import Mathlib
import Voisu.Dictation.Spans
import Voisu.Lib.Scan
import Voisu.Lib.Splice

/-!
# The dictation grammar

One scan over the tokens: where a phrase starts it is rewritten, and the scan goes on behind it.

* `matchAt`                 the phrase at a position, with the scanner that found it;
* `grammarVisits`           the positions that the scan has asked, with the answers;
* `applyDictationGrammar`   the text with the spans replaced.
-/

namespace Voisu.Dictation
open Lib
open Baseline (Token wordTokens quotePairsAndSkip metalinguisticMask)

inductive CueKind where
  | email
  | time
  | currency
  | decimal
  | cardinal
deriving DecidableEq, Repr

def masksOf (tokens : List Token) : Masks :=
  ⟨(quotePairsAndSkip tokens).2, metalinguisticMask tokens⟩

section
variable (tokens : List Token) (masks : Masks)

/-- a numeric rewrite never starts behind a number word -/
def numberishBefore (i : Nat) : Bool :=
  0 < i && tokens[i - 1]?.any fun tok => isNumberishToken tok.text

def tryNumeric (i : Nat) : Option (CueKind × CueSpan) :=
  ((tryTimeSpan tokens masks i).map fun m => (CueKind.time, m)).or
    (((tryCurrencySpan tokens masks i).map fun m => (CueKind.currency, m)).or
      (((tryDecimalSpan tokens masks i).map fun m => (CueKind.decimal, m)).or
        ((tryCardinalRun tokens masks i).map fun m => (CueKind.cardinal, m))))

def matchAt (i : Nat) : Option (CueKind × CueSpan) :=
  let email := (tryEmailSpan tokens masks i).map fun m => (CueKind.email, m)
  if numberishBefore tokens i then email else email.or (tryNumeric tokens masks i)

/-- a position that the scan has asked, and the phrase that starts there -/
abbrev Visit := Nat × Option (CueKind × CueSpan)

def grammarStep (i : Nat) (visits : List Visit) : Nat × List Visit :=
  if masks.masked i then (i + 1, visits)
  else match matchAt tokens masks i with
    | none => (i + 1, visits ++ [(i, none)])
    | some (kind, m) => (m.stop, visits ++ [(i, some (kind, m))])

end

def grammarVisits (text : Text) : List Visit :=
  let tokens := wordTokens text
  scan tokens.length (grammarStep tokens (masksOf tokens)) []

/-! ## spans -/

section
variable {tokens : List Token} {masks : Masks} {i : Nat} {m : CueSpan}

theorem spanIsClear_le {start stop : Nat} (h : spanIsClear masks start stop = true) :
    stop ≤ masks.quoted.length := by
  simp only [spanIsClear, Bool.and_eq_true, decide_eq_true_eq] at h
  exact h.1

/-- the last check of a scanner -/
theorem eq_of_guard {clear bare : Bool} {span : CueSpan}
    (h : (if !clear || !bare then none else some span) = some m) :
    clear = true ∧ bare = true ∧ span = m := by
  cases clear <;> cases bare <;> simp_all

/-- what a scanner returns starts where it was asked and takes at least one token -/
def StartsAt (masks : Masks) (i : Nat) (m : CueSpan) : Prop :=
  m.start = i ∧ i < m.stop ∧ m.stop ≤ masks.quoted.length

theorem le_cardinalStop (tokens : List Token) (i : Nat) : i ≤ cardinalStop tokens i :=
  Nat.le_add_right _ _

theorem decimalShape_spec {shape : DecimalShape} (h : decimalShape tokens i = some shape) :
    shape = ⟨cardinalStop tokens i, spanWords tokens i (cardinalStop tokens i),
      fractionDigits (tokens.drop (cardinalStop tokens i + 1))⟩ ∧
    wordAt tokens (cardinalStop tokens i) = "point".toList ∧ shape.digits ≠ [] ∧
    ¬ shape.words.head?.any (fun word => (scaleValue word).isSome) = true := by
  simp only [decimalShape] at h
  split_ifs at h with hpoint hbang hdigits hscale
  obtain rfl := Option.some.inj h
  simp only [Bool.or_eq_true, Bool.not_eq_true', not_or, bne_iff_ne, ne_eq, not_not] at hpoint
  refine ⟨rfl, hpoint.2, fun hnil => hdigits ?_, hscale⟩
  have hnil' : fractionDigits (tokens.drop (cardinalStop tokens i + 1)) = [] := hnil
  rw [hnil']
  rfl

/-- what `tryDecimalSpan` has checked -/
theorem tryDecimalSpan_spec (h : tryDecimalSpan tokens masks i = some m) :
    ∃ shape value, decimalShape tokens i = some shape ∧ integerPart shape.words = some value ∧
      spanIsClear masks i shape.stop = true ∧ m = ⟨i, shape.stop,
        natText value ++ '.' :: shape.digits.flatten ++ suffixAt tokens (shape.stop - 1)⟩ := by
  obtain ⟨shape, hshape, h⟩ := Option.bind_eq_some_iff.mp h
  obtain ⟨value, hvalue, h⟩ := Option.bind_eq_some_iff.mp h
  obtain ⟨hclear, -, rfl⟩ := eq_of_guard h
  exact ⟨shape, value, hshape, hvalue, hclear, rfl⟩

theorem tryDecimalSpan_startsAt (h : tryDecimalSpan tokens masks i = some m) :
    StartsAt masks i m := by
  obtain ⟨shape, value, hshape, -, hclear, rfl⟩ := tryDecimalSpan_spec h
  refine ⟨rfl, ?_, spanIsClear_le hclear⟩
  have hle := le_cardinalStop tokens i
  rw [(decimalShape_spec hshape).1]
  show i < cardinalStop tokens i + 1 + _
  omega

/-- what `tryCardinalRun` has checked: a year, or a run with a scale -/
theorem tryCardinalRun_spec (h : tryCardinalRun tokens masks i = some m) :
    cardinalStop tokens i ≠ i ∧ spanIsClear masks i (cardinalStop tokens i) = true ∧
    ∃ value, m = cardinalSpan tokens i value ∧
      (yearShape (spanWords tokens i (cardinalStop tokens i)) = some value ∨
        ∃ words, scaleShape tokens i = some words ∧ parseCardinalRun words = some value ∧
          value ≠ 0 ∧ value ≤ maxRenderedValue) := by
  simp only [tryCardinalRun] at h
  split_ifs at h with hempty hmarker
  refine ⟨hempty, ?_⟩
  rcases Option.or_eq_some_iff.mp h with h | ⟨-, h⟩
  · simp only [tryYear] at h
    split at h
    · cases h
    · rename_i value hyear
      split_ifs at h with hguard
      obtain rfl := Option.some.inj h
      exact ⟨(Bool.and_eq_true_iff.mp hguard).1, value, rfl, Or.inl hyear⟩
  · obtain ⟨words, hwords, h⟩ := Option.bind_eq_some_iff.mp h
    obtain ⟨value, hvalue, h⟩ := Option.bind_eq_some_iff.mp h
    obtain ⟨hparse, hbound⟩ := Option.filter_eq_some_iff.mp hvalue
    obtain ⟨hclear, -, rfl⟩ := eq_of_guard h
    simp only [ne_eq, Bool.and_eq_true, decide_eq_true_eq] at hbound
    exact ⟨hclear, value, rfl, Or.inr ⟨words, hwords, hparse, hbound.1, hbound.2⟩⟩

theorem tryCardinalRun_startsAt (h : tryCardinalRun tokens masks i = some m) :
    StartsAt masks i m := by
  obtain ⟨hne, hclear, value, rfl, -⟩ := tryCardinalRun_spec h
  have hle := le_cardinalStop tokens i
  exact ⟨rfl, lt_of_le_of_ne hle hne.symm, spanIsClear_le hclear⟩

/-- what `tryCurrencySpan` has checked -/
theorem tryCurrencySpan_spec (h : tryCurrencySpan tokens masks i = some m) :
    ∃ unit words value unitTok, currencyShape tokens i = some (unit, words) ∧
      parseCardinalRun words = some value ∧ value ≤ maxRenderedValue ∧
      spanIsClear masks i (currencyStop tokens i + 1) = true ∧
      tokens[currencyStop tokens i]? = some unitTok ∧
      m = ⟨i, currencyStop tokens i + 1, match unit with
        | .dollar => '$' :: natText value ++ (tokenCore unitTok.text).2
        | .preserved => natText value ++ ' ' :: (tokenCore unitTok.text).1
          ++ (tokenCore unitTok.text).2⟩ := by
  obtain ⟨⟨unit, words⟩, hshape, h⟩ := Option.bind_eq_some_iff.mp h
  obtain ⟨value, hvalue, h⟩ := Option.bind_eq_some_iff.mp h
  obtain ⟨unitTok, hunit, h⟩ := Option.bind_eq_some_iff.mp h
  obtain ⟨hparse, hbound⟩ := Option.filter_eq_some_iff.mp hvalue
  obtain ⟨hclear, -, rfl⟩ := eq_of_guard h
  exact ⟨unit, words, value, unitTok, hshape, hparse, by simpa using hbound, hclear, hunit, rfl⟩

theorem tryCurrencySpan_startsAt (h : tryCurrencySpan tokens masks i = some m) :
    StartsAt masks i m := by
  obtain ⟨unit, words, value, unitTok, -, -, -, hclear, -, rfl⟩ := tryCurrencySpan_spec h
  exact ⟨rfl, Nat.lt_succ_of_le (Nat.le_add_right _ _), spanIsClear_le hclear⟩

theorem oclockAt_stop {j : Nat} {spoken : Text × Nat} (h : oclockAt tokens j = some (some spoken)) :
    j < spoken.2 := by
  unfold oclockAt at h
  split at h
  · cases h
  · simp only at h
    split_ifs at h with h1 h2
    · obtain rfl := Option.some.inj (Option.some.inj h)
      exact Nat.lt_succ_self j
    · split at h
      · cases h
      · split_ifs at h
        obtain rfl := Option.some.inj (Option.some.inj h)
        show j < j + 2
        omega
    · cases h

/-- the shapes of minute words: `oh five`, `fifteen` or `forty`, and `forty five` -/
theorem parseMinuteTokens_spec {j v k : Nat} (h : parseMinuteTokens tokens j = some (v, k)) :
    (∃ a b, bareWordAt tokens j = some a ∧ bareWordAt tokens (j + 1) = some b ∧ k = j + 2 ∧
      (a = "oh".toList ∨ a = "zero".toList) ∧ smallValue b = some v ∧ 1 ≤ v ∧ v ≤ 9) ∨
    (∃ a, bareWordAt tokens j = some a ∧ k = j + 1 ∧ smallTokenValue a = some v ∧ 10 ≤ v) ∨
    (∃ a b t u, bareWordAt tokens j = some a ∧ bareWordAt tokens (j + 1) = some b ∧ k = j + 2 ∧
      smallTokenValue a = some t ∧ 20 ≤ t ∧ smallValue b = some u ∧ u < 10 ∧ v = t + u) := by
  unfold parseMinuteTokens at h
  cases ha : bareWordAt tokens j with
  | none =>
    rw [ha] at h
    cases h
  | some a =>
    simp only [ha] at h
    split_ifs at h with hzero
    · left
      obtain ⟨unit, hunit, hv⟩ := Option.map_eq_some_iff.mp h
      obtain ⟨rfl, rfl⟩ := Prod.mk.inj hv
      obtain ⟨hbind, hrange⟩ := Option.filter_eq_some_iff.mp hunit
      obtain ⟨b, hb, hsmall⟩ := Option.bind_eq_some_iff.mp hbind
      simp only [Bool.and_eq_true, decide_eq_true_eq] at hrange
      exact ⟨a, b, rfl, hb, rfl, hzero, hsmall, hrange⟩
    · right
      cases hvalue : smallTokenValue a with
      | none =>
        rw [hvalue] at h
        cases h
      | some value =>
        simp only [hvalue] at h
        split_ifs at h with hteen htens
        · obtain ⟨rfl, rfl⟩ := Prod.mk.inj (Option.some.inj h)
          exact Or.inl ⟨a, rfl, rfl, hvalue, hteen.1⟩
        · split at h
          · rename_i unit hunit
            obtain ⟨rfl, rfl⟩ := Prod.mk.inj (Option.some.inj h)
            obtain ⟨hbind, hrange⟩ := Option.filter_eq_some_iff.mp hunit
            obtain ⟨b, hb, hsmall⟩ := Option.bind_eq_some_iff.mp hbind
            exact Or.inr ⟨a, b, value, unit, rfl, hb, rfl, hvalue, htens, hsmall,
              by simpa using hrange, rfl⟩
          · obtain ⟨rfl, rfl⟩ := Prod.mk.inj (Option.some.inj h)
            exact Or.inl ⟨a, rfl, rfl, hvalue, by omega⟩

theorem parseMinuteTokens_stop {j v k : Nat} (h : parseMinuteTokens tokens j = some (v, k)) :
    j < k := by
  rcases parseMinuteTokens_spec h with ⟨_, _, _, _, rfl, _⟩ | ⟨_, _, rfl, _⟩ |
    ⟨_, _, _, _, _, _, rfl, _⟩ <;> omega

theorem lt_timeStop {j : Nat} (hj : i < j) : i < timeStop tokens j := by
  unfold timeStop
  split_ifs
  · exact Nat.lt_succ_of_lt hj
  · exact hj

/-- a time takes its hour, and its minute words stand behind the hour -/
theorem timeShape_spec {shape : TimeShape} (h : timeShape tokens i = some shape) :
    i < shape.stop ∧ ∀ v, shape.minute = some v →
      ∃ k, parseMinuteTokens tokens (i + 1) = some (v, k) := by
  unfold timeShape at h
  split at h
  · cases h
  split at h
  · cases h
  · rename_i spoken j hoclock
    obtain rfl := Option.some.inj h
    have := oclockAt_stop hoclock
    exact ⟨lt_timeStop (by omega), fun v hv => by cases hv⟩
  · split at h
    · obtain rfl := Option.some.inj h
      exact ⟨lt_timeStop (Nat.lt_succ_self i), fun v hv => by cases hv⟩
    · rename_i minute j hminute
      obtain rfl := Option.some.inj h
      have := parseMinuteTokens_stop hminute
      refine ⟨lt_timeStop (by omega), fun v hv => ?_⟩
      obtain rfl := Option.some.inj hv
      exact ⟨j, hminute⟩

theorem tryTimeSpan_spec (h : tryTimeSpan tokens masks i = some m) :
    ∃ shape, timeShape tokens i = some shape ∧ spanIsClear masks i shape.stop = true ∧
      m = ⟨i, shape.stop, natText shape.hour
        ++ ((shape.minute.map fun m => ':' :: twoDigits m).getD [])
        ++ ((shape.oclock.map fun spoken => ' ' :: spoken).getD [])
        ++ ((shape.meridiem.map fun spoken => ' ' :: spoken).getD [])
        ++ suffixAt tokens (shape.stop - 1)⟩ := by
  obtain ⟨shape, hshape, h⟩ := Option.bind_eq_some_iff.mp h
  split_ifs at h with h1 h2 h3
  obtain rfl := Option.some.inj h
  simp only [Bool.or_eq_true, Bool.not_eq_true', not_or, Bool.not_eq_false] at h3
  exact ⟨shape, hshape, h3.1, rfl⟩

theorem tryTimeSpan_startsAt (h : tryTimeSpan tokens masks i = some m) : StartsAt masks i m := by
  obtain ⟨shape, hshape, hclear, rfl⟩ := tryTimeSpan_spec h
  exact ⟨rfl, (timeShape_spec hshape).1, spanIsClear_le hclear⟩

theorem tryEmailSpan_startsAt (h : tryEmailSpan tokens masks i = some m) : StartsAt masks i m := by
  obtain ⟨shape, -, h⟩ := Option.bind_eq_some_iff.mp h
  split_ifs at h with h1 h2 h3
  obtain rfl := Option.some.inj h
  simp only [Bool.not_eq_true', Bool.not_eq_false] at h2
  refine ⟨rfl, ?_, spanIsClear_le h2⟩
  show i < i + shape.localWords.length + shape.localCues.length + 1 + shape.labels.length
    + shape.domainCues.length
  omega

/-- which scanner has found a phrase, and what stands before it -/
theorem matchAt_cases {kind : CueKind} (h : matchAt tokens masks i = some (kind, m)) :
    (kind = .email ∧ tryEmailSpan tokens masks i = some m) ∨
    (numberishBefore tokens i = false ∧
      ((kind = .time ∧ tryTimeSpan tokens masks i = some m) ∨
        (kind = .currency ∧ tryCurrencySpan tokens masks i = some m) ∨
        (kind = .decimal ∧ tryDecimalSpan tokens masks i = some m) ∨
        (kind = .cardinal ∧ tryCardinalRun tokens masks i = some m))) := by
  have hmap : ∀ {k : CueKind} {span : Option CueSpan}, (span.map fun m => (k, m)) = some (kind, m) →
      kind = k ∧ span = some m := by
    intro k span hspan
    obtain ⟨m', hm', he⟩ := Option.map_eq_some_iff.mp hspan
    obtain ⟨rfl, rfl⟩ := Prod.mk.inj he
    exact ⟨rfl, hm'⟩
  simp only [matchAt] at h
  split_ifs at h with hbefore
  · exact Or.inl (hmap h)
  · have hbefore' : numberishBefore tokens i = false := by simpa using hbefore
    rcases Option.or_eq_some_iff.mp h with h | ⟨-, h⟩
    · exact Or.inl (hmap h)
    · refine Or.inr ⟨hbefore', ?_⟩
      rcases Option.or_eq_some_iff.mp h with h | ⟨-, h⟩
      · exact Or.inl (hmap h)
      · rcases Option.or_eq_some_iff.mp h with h | ⟨-, h⟩
        · exact Or.inr (Or.inl (hmap h))
        · rcases Option.or_eq_some_iff.mp h with h | ⟨-, h⟩
          · exact Or.inr (Or.inr (Or.inl (hmap h)))
          · exact Or.inr (Or.inr (Or.inr (hmap h)))

theorem matchAt_startsAt {kind : CueKind} (h : matchAt tokens masks i = some (kind, m)) :
    StartsAt masks i m := by
  rcases matchAt_cases h with ⟨-, h⟩ | ⟨-, ⟨-, h⟩ | ⟨-, h⟩ | ⟨-, h⟩ | ⟨-, h⟩⟩
  · exact tryEmailSpan_startsAt h
  · exact tryTimeSpan_startsAt h
  · exact tryCurrencySpan_startsAt h
  · exact tryDecimalSpan_startsAt h
  · exact tryCardinalRun_startsAt h

end

def grammarRewrites (text : Text) : List (CueKind × CueSpan) :=
  (grammarVisits text).filterMap Prod.snd

/-- the text from offset `lastEnd` on, with the spans replaced -/
def renderFrom (text : Text) (tokens : List Token) (lastEnd : Nat) : List CueSpan → Text
  | [] => (slice lastEnd (byteLen text) text).getD []
  | m :: ms =>
    let start := (tokens[m.start]?.map Run.start).getD 0
    let stop := (tokens[m.stop - 1]?.map Run.stop).getD 0
    (slice lastEnd start text).getD [] ++ m.replacement ++ renderFrom text tokens stop ms

def applyDictationGrammar (text : Text) : Text :=
  renderFrom text (wordTokens text) 0 ((grammarRewrites text).map Prod.snd)

/-! ## the scan -/

/-- the spans follow one another between two positions -/
def SpansFrom (first last : Nat) : List CueSpan → Prop
  | [] => first ≤ last
  | m :: ms => first ≤ m.start ∧ m.start < m.stop ∧ SpansFrom m.stop last ms

theorem SpansFrom.le {first last : Nat} {ms : List CueSpan} (h : SpansFrom first last ms) :
    first ≤ last := by
  induction ms generalizing first with
  | nil => exact h
  | cons m ms ih =>
    have := ih h.2.2
    have := h.1
    have := h.2.1
    omega

theorem SpansFrom.weaken {first last last' : Nat} {ms : List CueSpan} (h : SpansFrom first last ms)
    (hle : last ≤ last') : SpansFrom first last' ms := by
  induction ms generalizing first with
  | nil => exact le_trans h hle
  | cons m ms ih => exact ⟨h.1, h.2.1, ih h.2.2⟩

theorem SpansFrom.snoc {first last : Nat} {ms : List CueSpan} {m : CueSpan}
    (h : SpansFrom first last ms) (hm : last ≤ m.start) (hlt : m.start < m.stop) :
    SpansFrom first m.stop (ms ++ [m]) := by
  induction ms generalizing first with
  | nil => exact ⟨le_trans h hm, hlt, le_refl _⟩
  | cons a ms ih => exact ⟨h.1, h.2.1, ih h.2.2⟩

/-- what a visit tells -/
def Visit.Sound (tokens : List Token) (v : Visit) : Prop :=
  v.1 < tokens.length ∧ (masksOf tokens).masked v.1 = false ∧ matchAt tokens (masksOf tokens) v.1 = v.2

structure ScanInvariant (tokens : List Token) (i : Nat) (visits : List Visit) : Prop where
  bound : i ≤ tokens.length
  sound : ∀ v ∈ visits, v.Sound tokens
  spans : SpansFrom 0 i ((visits.filterMap Prod.snd).map Prod.snd)

theorem masksOf_length (tokens : List Token) : (masksOf tokens).quoted.length = tokens.length := by
  simp [masksOf, quotePairsAndSkip]

theorem grammarStep_invariant {tokens : List Token} {i : Nat} {visits : List Visit}
    (hi : i < tokens.length) (h : ScanInvariant tokens i visits) :
    i < (grammarStep tokens (masksOf tokens) i visits).1 ∧
      ScanInvariant tokens (grammarStep tokens (masksOf tokens) i visits).1
        (grammarStep tokens (masksOf tokens) i visits).2 := by
  have hsnoc : ∀ r, (masksOf tokens).masked i = false → matchAt tokens (masksOf tokens) i = r →
      ∀ v ∈ visits ++ [(i, r)], v.Sound tokens := by
    intro r hmasked hr v hv
    rcases List.mem_append.mp hv with hv | hv
    · exact h.sound v hv
    · rw [List.mem_singleton.mp hv]
      exact ⟨hi, hmasked, hr⟩
  unfold grammarStep
  cases hmasked : (masksOf tokens).masked i with
  | true =>
    rw [if_pos rfl]
    exact ⟨Nat.lt_succ_self i, hi, h.sound, h.spans.weaken (Nat.le_succ i)⟩
  | false =>
    rw [if_neg Bool.false_ne_true]
    cases hmatch : matchAt tokens (masksOf tokens) i with
    | none =>
      refine ⟨Nat.lt_succ_self i, hi, hsnoc none hmasked hmatch, ?_⟩
      simp only [List.filterMap_append, List.filterMap_cons_none, List.filterMap_nil,
        List.append_nil]
      exact h.spans.weaken (Nat.le_succ i)
    | some found =>
      obtain ⟨kind, m⟩ := found
      obtain ⟨hstart, hlt, hle⟩ := matchAt_startsAt hmatch
      rw [masksOf_length] at hle
      refine ⟨hlt, hle, hsnoc _ hmasked hmatch, ?_⟩
      show SpansFrom 0 m.stop _
      simp only [List.filterMap_append, List.filterMap_cons, List.filterMap_nil, List.map_append,
        List.map_cons, List.map_nil]
      exact h.spans.snoc (le_of_eq hstart.symm) (hstart ▸ hlt)

/-- **every visit of the scan is sound, and the spans follow one another** -/
theorem grammarVisits_spec (text : Text) :
    (∀ v ∈ grammarVisits text, v.Sound (wordTokens text)) ∧
      SpansFrom 0 (wordTokens text).length ((grammarRewrites text).map Prod.snd) := by
  obtain ⟨j, hj, hinv⟩ := scan_invariant (I := ScanInvariant (wordTokens text))
    (fun i visits hi h => grammarStep_invariant hi h) (s := [])
    ⟨Nat.zero_le _, fun v hv => (List.not_mem_nil hv).elim, le_refl 0⟩
  exact ⟨hinv.sound, hinv.spans.weaken hinv.bound⟩

/-- a rewrite, with the position that found it -/
theorem mem_grammarRewrites {text : Text} {kind : CueKind} {m : CueSpan}
    (h : (kind, m) ∈ grammarRewrites text) :
    m.start < (wordTokens text).length ∧
      matchAt (wordTokens text) (masksOf (wordTokens text)) m.start = some (kind, m) := by
  obtain ⟨v, hv, hr⟩ := List.mem_filterMap.mp h
  obtain ⟨hlt, -, hmatch⟩ := (grammarVisits_spec text).1 v hv
  rw [hr] at hmatch
  obtain ⟨hstart, -⟩ := matchAt_startsAt hmatch
  rw [hstart]
  exact ⟨hlt, hmatch⟩

/-! ## what is left as it was spoken -/

/-- the replacement of a span, at the offsets of its first and its last token -/
def spanRepl (tokens : List Token) (m : CueSpan) : Repl Char :=
  ⟨(tokens[m.start]?.map Run.start).getD 0, (tokens[m.stop - 1]?.map Run.stop).getD 0,
    m.replacement⟩

theorem renderFrom_spliced {text : Text} {tokens : List Token} {ms : List CueSpan} {p rest : Text}
    {l rs : List Token} (htext : text = p ++ rest) (htokens : tokens = l ++ rs)
    (hruns : Runs notWhitespace (byteLen p) rest rs)
    (hms : SpansFrom l.length tokens.length ms) :
    Spliced (byteLen p) (ms.map (spanRepl tokens)) rest
      (renderFrom text tokens (byteLen p) ms) := by
  induction ms generalizing p rest l rs with
  | nil =>
    have hslice : slice (byteLen p) (byteLen text) text = some rest := by
      have h := slice_append p rest []
      rw [List.append_nil] at h
      rw [htext, byteLen_append, h]
    rw [renderFrom, hslice]
    exact .nil _ _
  | cons m ms ih =>
    obtain ⟨hfirst, hlt, hlater⟩ := hms
    have hle := hlater.le
    -- the tokens before the span, those of the span, and those behind it
    obtain ⟨gap, block, behind, hrs, hgap, hblock⟩ : ∃ gap block behind,
        rs = gap ++ (block ++ behind) ∧ gap.length = m.start - l.length ∧
          block.length = m.stop - m.start := by
      have hlen : tokens.length = l.length + rs.length := by rw [htokens, List.length_append]
      refine ⟨rs.take (m.start - l.length), (rs.drop (m.start - l.length)).take (m.stop - m.start),
        (rs.drop (m.start - l.length)).drop (m.stop - m.start), ?_, ?_, ?_⟩
      · rw [List.take_append_drop, List.take_append_drop]
      · rw [List.length_take]
        omega
      · rw [List.length_take, List.length_drop]
        omega
    have hne : block ≠ [] := List.ne_nil_of_length_pos (by omega)
    obtain ⟨head, hhead⟩ : ∃ head, block.head? = some head := ⟨_, List.head?_eq_some_head hne⟩
    obtain ⟨last, hlast⟩ : ∃ last, block.getLast? = some last :=
      ⟨_, List.getLast?_eq_some_getLast hne⟩
    have hstart : tokens[m.start]? = some head := by
      rw [htokens, hrs, List.getElem?_append_right hfirst, List.getElem?_append_right (by omega),
        List.getElem?_append_left (by omega), show m.start - l.length - gap.length = 0 by omega,
        ← List.head?_eq_getElem?, hhead]
    have hstop : tokens[m.stop - 1]? = some last := by
      rw [htokens, hrs, List.getElem?_append_right (by omega), List.getElem?_append_right (by omega),
        List.getElem?_append_left (by omega),
        show m.stop - 1 - l.length - gap.length = block.length - 1 by omega,
        ← List.getLast?_eq_getElem?, hlast]
    rw [hrs] at hruns
    obtain ⟨a, w, b, rfl, ha, hw, -, -, -, -, -, hb⟩ := hruns.segment hhead hlast
    have hp : byteLen (p ++ a ++ w) = last.stop := by simp only [byteLen_append]; omega
    have hslice : slice (byteLen p) head.start text = some a := by
      rw [htext, ← ha, List.append_assoc a, ← List.append_assoc p]
      exact slice_append p a (w ++ b)
    have hlater' : SpansFrom (l ++ gap ++ block).length tokens.length ms := by
      rw [List.length_append, List.length_append, hgap, hblock,
        show l.length + (m.start - l.length) + (m.stop - m.start) = m.stop by omega]
      exact hlater
    rw [← hp] at hb
    have hrest := ih (p := p ++ a ++ w) (by rw [htext]; simp) (l := l ++ gap ++ block)
      (by rw [htokens, hrs]; simp) hb hlater'
    rw [hp] at hrest
    simp only [renderFrom, List.map_cons, spanRepl, hstart, hstop, Option.map_some,
      Option.getD_some, hslice]
    exact .cons ha (by show head.start + byteLen w = last.stop; omega) hrest

/-- **the rest of the text stays as it was spoken** -/
theorem applyDictationGrammar_spliced (text : Text) :
    Spliced 0 (((grammarRewrites text).map Prod.snd).map (spanRepl (wordTokens text))) text
      (applyDictationGrammar text) :=
  renderFrom_spliced (p := []) (l := []) rfl rfl (runs_spec notWhitespace 0 text)
    (grammarVisits_spec text).2

end Voisu.Dictation
