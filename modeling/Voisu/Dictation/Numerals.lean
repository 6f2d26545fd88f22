import Mathlib
import Voisu.Dictation.Readings

/-!
# The numbers that are rewritten

Behind each numeric rewrite stand the words of a number.  The rewrite is right when these words are a
canonical reading of the number that it prints.

* `numeralWords`             the number words of a rewrite;
* `Prints`                   the number stands in the text that replaces them;
* `PlainNumeral`             plain number words, where a minute compound has no unit behind it;
* `numerals_canonical_iff`   the rewrites of a text are right exactly when their words are plain.
-/

namespace Voisu.Dictation
open Lib
open Baseline (Token wordTokens)

/-- the number words of a rewrite; a year and an hour are read in their own ways -/
def numeralWords (tokens : List Token) (kind : CueKind) (m : CueSpan) : Option (List Text) :=
  match kind with
  | .email => none
  | .time =>
    if ((timeShape tokens m.start).bind TimeShape.minute).isSome then
      some (spanWords tokens (m.start + 1) (m.stop - 1))
    else none
  | .currency => some (spanWords tokens m.start (m.stop - 1))
  | .decimal => some (spanWords tokens m.start (cardinalStop tokens m.start))
  | .cardinal =>
    if (yearShape (spanWords tokens m.start m.stop)).isSome then none
    else some (spanWords tokens m.start m.stop)

/-- the number stands in the replacement, in the place that its kind gives it -/
def Prints (tokens : List Token) (kind : CueKind) (m : CueSpan) (value : Nat) : Prop :=
  match kind with
  | .email => False
  | .time => ∃ hour behind, smallValue (wordAt tokens m.start) = some hour ∧
      m.replacement = natText hour ++ ':' :: twoDigits value ++ ' ' :: behind
  | .currency => ∃ tok, tokens[m.stop - 1]? = some tok ∧
      (m.replacement = '$' :: natText value ++ (tokenCore tok.text).2 ∨
        m.replacement = natText value ++ ' ' :: (tokenCore tok.text).1 ++ (tokenCore tok.text).2)
  | .decimal => ∃ digits, wordAt tokens (cardinalStop tokens m.start) = "point".toList ∧
      m.replacement = natText value ++ '.' :: digits ++ suffixAt tokens (m.stop - 1)
  | .cardinal => m.replacement = natText value ++ suffixAt tokens (m.stop - 1)

/-- minutes below ten are said with a zero before them -/
def OhReading (words : List Text) (value : Nat) : Prop :=
  ∃ zero unit, words = [zero, unit] ∧ (zero = "oh".toList ∨ zero = "zero".toList) ∧
    smallValue unit = some value ∧ 1 ≤ value

def Reads (kind : CueKind) (words : List Text) (value : Nat) : Prop :=
  CanonicalReading words value ∨ (kind = .time ∧ OhReading words value)

/-- the words of the rewrite are a canonical reading of the number that it prints -/
def RewrittenRight (tokens : List Token) (kind : CueKind) (m : CueSpan) : Prop :=
  ∀ words, numeralWords tokens kind m = some words →
    ∃ value, Reads kind words value ∧ Prints tokens kind m value

/-- plain number words, where a minute compound has no unit behind it -/
structure PlainNumeral (kind : CueKind) (words : List Text) : Prop where
  plain : PlainRun words
  minutes : kind = .time → ∀ a b, words = [a, b] → '-' ∉ a

/-! ## the words of minutes -/

/-- what the minute words have been read as -/
inductive MinuteWords : List Text → Nat → Prop where
  | oh {zero unit : Text} {v : Nat} : (zero = "oh".toList ∨ zero = "zero".toList) →
      smallValue unit = some v → 1 ≤ v → MinuteWords [zero, unit] v
  | one {word : Text} {v : Nat} : smallTokenValue word = some v → 10 ≤ v → MinuteWords [word] v
  | two {tens unit : Text} {t u : Nat} : smallTokenValue tens = some t → 20 ≤ t →
      smallValue unit = some u → u < 10 → MinuteWords [tens, unit] (t + u)

section
variable {words : List Text} {a b : Text} {t u v : Nat}

theorem scaleValue_of_small (h : smallTokenValue a = some v) : scaleValue a = none := by
  have htable : ∀ e ∈ scales, smallTokenValue e.1 = none := by decide
  cases hs : scaleValue a with
  | none => rfl
  | some scale =>
    have := htable _ (scaleValue_cases hs)
    rw [h] at this
    cases this

theorem smallTokenValue_of_small (h : smallValue a = some v) : smallTokenValue a = some v := by
  rw [smallTokenValue, h]
  rfl

/-- a small word that may stand behind the words before it -/
theorem runWord_fits {st : RunState} (h : smallTokenValue a = some v)
    (hst : st.current + v < 2 ^ 32)
    (hprev : (st.prevSmall.any fun p => !(isTens p && v < 10)) = false) :
    runWord U32.wrapping st a = some ⟨st.total, st.current + v, false, some v⟩ := by
  rw [runWord_small (scaleValue_of_small h) h, hprev, if_neg Bool.false_ne_true]
  show some (⟨st.total, (st.current + v) % 2 ^ 32, false, some v⟩ : RunState) = _
  rw [Nat.mod_eq_of_lt hst]

theorem parseCardinalRun_one (h : smallTokenValue a = some v) : parseCardinalRun [a] = some v := by
  have hv := smallTokenValue_le h
  have hrun : runWord U32.wrapping RunState.start a = some ⟨0, 0 + v, false, some v⟩ :=
    runWord_fits h (by show 0 + v < 2 ^ 32; omega) rfl
  rw [parseCardinalRun, parseRun, hrun]
  show some ((0 + (0 + v)) % 2 ^ 32) = some v
  rw [Nat.mod_eq_of_lt (by omega), Nat.zero_add, Nat.zero_add]

theorem parseCardinalRun_two (ht : smallTokenValue a = some t) (htens : isTens t = true)
    (hu : smallTokenValue b = some u) (hunit : u < 10) : parseCardinalRun [a, b] = some (t + u) := by
  have hle := smallTokenValue_le ht
  have hfirst : runWord U32.wrapping RunState.start a = some ⟨0, 0 + t, false, some t⟩ :=
    runWord_fits ht (by show 0 + t < 2 ^ 32; omega) rfl
  have hsecond : runWord U32.wrapping ⟨0, 0 + t, false, some t⟩ b =
      some ⟨0, 0 + t + u, false, some u⟩ :=
    runWord_fits hu (by show 0 + t + u < 2 ^ 32; omega) (by simp [htens, hunit])
  rw [parseCardinalRun, parseRun, hfirst]
  show Id.run (parseRun U32.wrapping ⟨0, 0 + t, false, some t⟩ [b]) = _
  rw [parseRun, hsecond]
  show some ((0 + (0 + t + u)) % 2 ^ 32) = some (t + u)
  rw [Nat.mod_eq_of_lt (by omega), Nat.zero_add, Nat.zero_add]

example : parseCardinalRun ["twenty".toList, "one".toList] = some 21 := by decide +kernel

theorem not_hyphen_of_small (h : smallValue a = some v) : '-' ∉ a := by
  have htable : ∀ e ∈ smalls, '-' ∉ e.1 := by decide
  exact htable _ (smallValue_cases h)

/-- a word without a hyphen is no compound -/
theorem smallValue_of_token (h : smallTokenValue a = some v) (hyphen : '-' ∉ a) :
    smallValue a = some v := by
  rcases Option.or_eq_some_iff.mp h with h | ⟨-, h⟩
  · exact h
  · obtain ⟨⟨tens, unit⟩, hsplit, -⟩ := Option.bind_eq_some_iff.mp h
    rw [(splitOnceAt_eq_some hsplit).1] at hyphen
    exact absurd (by simp) hyphen

/-- a small number from twenty on that one word says is a tens word -/
theorem isTens_of_small (h : smallValue a = some v) (hv : 20 ≤ v) : isTens v = true := by
  have htable : ∀ e ∈ smalls, 20 ≤ e.2 → isTens e.2 = true := by decide
  exact htable _ (smallValue_cases h) hv

theorem scalesOf_oh {zero : Text} (hzero : zero = "oh".toList ∨ zero = "zero".toList) :
    scaleValue zero = none ∧ splitOnceAt '-' zero = none ∧ '-' ∉ zero := by
  rcases hzero with rfl | rfl <;> decide

/-- minutes below ten are plain -/
theorem plainNumeral_oh {zero unit : Text} (hzero : zero = "oh".toList ∨ zero = "zero".toList)
    (hunit : smallValue unit = some v) (hpos : 1 ≤ v) : PlainNumeral .time [zero, unit] := by
  obtain ⟨hscale, hsplit, hyphen⟩ := scalesOf_oh hzero
  have hscales : scalesOf [zero, unit] = [] := by
    simp [scalesOf, hscale, scaleValue_of_small (smallTokenValue_of_small hunit)]
  have hne : unit ≠ "zero".toList := by
    rintro rfl
    have : v = 0 := Option.some.inj (hunit.symm.trans (by decide))
    omega
  refine ⟨⟨by simp [hscales], fun h => ?_, ?_⟩, fun _ a b hab => ?_⟩
  · have := million_mem_scalesOf h
    rw [hscales] at this
    exact List.not_mem_nil this
  · simp only [saysZeroLate, List.tail_cons, List.any_cons, List.any_nil, hsplit,
      split_small hunit, Option.any_none, Bool.or_false, beq_eq_false_iff_ne]
    exact hne
  · obtain ⟨rfl, -⟩ : zero = a ∧ unit = b := by simpa using hab
    exact hyphen

/-- a canonical reading says the number that the run is read as -/
theorem CanonicalReading.value_eq {value : Nat} (hparse : parseCardinalRun words = some v)
    (h : CanonicalReading words value) : value = v :=
  h.said.symm.trans (parseCardinalRun_tame h.tame hparse).2

/-- a canonical run that is read within the bound is plain -/
theorem plain_of_reading {value : Nat} (hparse : parseCardinalRun words = some v)
    (hv : v ≤ maxRenderedValue) (h : CanonicalReading words value) : PlainRun words := by
  obtain rfl := h.value_eq hparse
  exact (canonicalReading_iff hparse hv).mp h

theorem not_ohReading {tens unit : Text} {value : Nat} (ht : smallTokenValue tens = some t)
    (hge : 20 ≤ t) : ¬ OhReading [tens, unit] value := by
  rintro ⟨zero, _, hwords, hzero, -⟩
  obtain ⟨rfl, -⟩ : tens = zero ∧ _ := by simpa using hwords
  rcases hzero with rfl | rfl
  · have : (none : Option Nat) = some t := Eq.trans (by decide) ht
    cases this
  · have : t = 0 := Option.some.inj (ht.symm.trans (by decide))
    omega

/-- minute words that are a reading are plain -/
theorem MinuteWords.plain {value : Nat} (h : MinuteWords words v)
    (hreads : Reads .time words value) : PlainNumeral .time words := by
  cases h with
  | oh hzero hunit hpos => exact plainNumeral_oh hzero hunit hpos
  | @one word v hword hge =>
    have hle := smallTokenValue_le hword
    rcases hreads with h | ⟨-, _, _, hwords, -⟩
    · exact ⟨plain_of_reading (parseCardinalRun_one hword) (by unfold maxRenderedValue; omega) h,
        fun _ a b hab => by simp at hab⟩
    · simp at hwords
  | @two tens unit t u ht hge hu hunit =>
    have hle := smallTokenValue_le ht
    rcases hreads with h | ⟨-, h⟩
    · have hu' := smallTokenValue_of_small hu
      obtain ⟨⟨t', hsmall, htens⟩, -⟩ := List.isChain_pair.mp h.tens (scaleValue_of_small ht)
        (scaleValue_of_small hu')
      obtain rfl : t = t' := Option.some.inj (ht.symm.trans (smallTokenValue_of_small hsmall))
      refine ⟨plain_of_reading (parseCardinalRun_two ht htens hu' hunit)
        (by unfold maxRenderedValue; omega) h, fun _ a b hab => ?_⟩
      obtain ⟨rfl, -⟩ : tens = a ∧ unit = b := by simpa using hab
      exact not_hyphen_of_small hsmall
    · exact absurd h (not_ohReading ht hge)

/-- plain minute words are a reading of the minutes -/
theorem MinuteWords.reads (h : MinuteWords words v) (hplain : PlainNumeral .time words) :
    Reads .time words v := by
  cases h with
  | oh hzero hunit hpos => exact Or.inr ⟨rfl, _, _, rfl, hzero, hunit, hpos⟩
  | one hword _ =>
    have hle := smallTokenValue_le hword
    exact Or.inl ((canonicalReading_iff (parseCardinalRun_one hword)
      (by unfold maxRenderedValue; omega)).mpr hplain.plain)
  | two ht hge hu hunit =>
    have hle := smallTokenValue_le ht
    have htens := isTens_of_small (smallValue_of_token ht (hplain.minutes rfl _ _ rfl)) hge
    exact Or.inl ((canonicalReading_iff
      (parseCardinalRun_two ht htens (smallTokenValue_of_small hu) hunit)
      (by unfold maxRenderedValue; omega)).mpr hplain.plain)

end

/-! ## what a rewrite prints -/

section
variable {tokens : List Token} {masks : Masks} {i : Nat} {m : CueSpan}

theorem bareWordAt_cases {j : Nat} {word : Text} (h : bareWordAt tokens j = some word) :
    ∃ tok, tokens[j]? = some tok ∧ lowerCore tok.text = word := by
  obtain ⟨tok, htok, h⟩ := Option.bind_eq_some_iff.mp h
  split_ifs at h
  exact ⟨tok, htok, Option.some.inj h⟩

theorem spanWords_one {j : Nat} {a : Text} (ha : bareWordAt tokens j = some a) :
    spanWords tokens j (j + 1) = [a] := by
  obtain ⟨tok, htok, rfl⟩ := bareWordAt_cases ha
  rw [spanWords, spanTokens, List.drop_eq_getElem?_toList_append, htok]
  simp

theorem spanWords_two {j : Nat} {a b : Text} (ha : bareWordAt tokens j = some a)
    (hb : bareWordAt tokens (j + 1) = some b) : spanWords tokens j (j + 2) = [a, b] := by
  obtain ⟨tok, htok, rfl⟩ := bareWordAt_cases ha
  obtain ⟨next, hnext, rfl⟩ := bareWordAt_cases hb
  rw [spanWords, spanTokens, List.drop_eq_getElem?_toList_append, htok,
    List.drop_eq_getElem?_toList_append, hnext]
  simp

theorem parseMinuteTokens_words {j v k : Nat} (h : parseMinuteTokens tokens j = some (v, k)) :
    MinuteWords (spanWords tokens j k) v := by
  rcases parseMinuteTokens_spec h with ⟨a, b, ha, hb, rfl, hzero, hsmall, hpos, -⟩ |
    ⟨a, ha, rfl, hvalue, hge⟩ | ⟨a, b, t, u, ha, hb, rfl, ht, hge, hu, hunit, rfl⟩
  · rw [spanWords_two ha hb]
    exact .oh hzero hsmall hpos
  · rw [spanWords_one ha]
    exact .one hvalue hge
  · rw [spanWords_two ha hb]
    exact .two ht hge hu hunit

/-- minutes are spoken behind the hour, before `am` or `pm` -/
theorem timeShape_minutes {shape : TimeShape} {v : Nat} (h : timeShape tokens i = some shape)
    (hv : shape.minute = some v) :
    ∃ k, smallValue (wordAt tokens i) = some shape.hour ∧
      parseMinuteTokens tokens (i + 1) = some (v, k) ∧ shape.oclock = none ∧
      shape.meridiem = meridiemAt tokens k ∧ shape.stop = timeStop tokens k := by
  unfold timeShape at h
  split at h
  · cases h
  rename_i hour hhour
  split at h
  · cases h
  · obtain rfl := Option.some.inj h
    cases hv
  · split at h
    · obtain rfl := Option.some.inj h
      cases hv
    · rename_i minute k hminute
      obtain rfl := Option.some.inj h
      obtain rfl := Option.some.inj hv
      exact ⟨k, (Option.filter_eq_some_iff.mp hhour).1, hminute, rfl, rfl, rfl⟩

theorem tryTimeSpan_prints (h : tryTimeSpan tokens masks i = some m)
    (hminute : ((timeShape tokens i).bind TimeShape.minute).isSome) :
    ∃ v, MinuteWords (spanWords tokens (i + 1) (m.stop - 1)) v ∧ Prints tokens .time m v := by
  obtain ⟨shape, hshape, h⟩ := Option.bind_eq_some_iff.mp h
  split_ifs at h with hmarker h2 h3
  obtain rfl := Option.some.inj h
  rw [hshape] at hminute
  obtain ⟨v, hv⟩ := Option.isSome_iff_exists.mp hminute
  obtain ⟨k, hhour, hparse, hoclock, hmeridiem, hstop⟩ := timeShape_minutes hshape hv
  have hv' : shape.minute = some v := hv
  cases hmark : meridiemAt tokens k with
  | none => simp [hoclock, hmeridiem, hmark] at hmarker
  | some spoken =>
    have hk : shape.stop - 1 = k := by
      rw [hstop, timeStop, hmark]
      rfl
    refine ⟨v, ?_, shape.hour, spoken ++ suffixAt tokens (shape.stop - 1), hhour, ?_⟩
    · show MinuteWords (spanWords tokens (i + 1) (shape.stop - 1)) v
      rw [hk]
      exact parseMinuteTokens_words hparse
    · simp [hv', hoclock, hmeridiem, hmark]

theorem currencyShape_words {unit : CurrencyUnit} {words : List Text}
    (h : currencyShape tokens i = some (unit, words)) :
    words = spanWords tokens i (currencyStop tokens i) := by
  simp only [currencyShape] at h
  split at h
  · cases h
  split at h
  · cases h
  · split_ifs at h
    exact (Prod.mk.inj (Option.some.inj h)).2.symm

theorem scaleShape_words {words : List Text} (h : scaleShape tokens i = some words) :
    words = spanWords tokens i (cardinalStop tokens i) := by
  simp only [scaleShape] at h
  split_ifs at h
  exact (Option.some.inj h).symm

theorem integerPart_parse {words : List Text} {v : Nat} (h : integerPart words = some v) :
    parseCardinalRun words = some v ∧ v ≤ maxRenderedValue := by
  unfold integerPart at h
  split_ifs at h with hnil
  · obtain rfl := Option.some.inj h
    rw [List.isEmpty_iff.mp hnil]
    decide
  · obtain ⟨hparse, hv⟩ := Option.filter_eq_some_iff.mp h
    exact ⟨hparse, by simpa using hv⟩

/-- a rewrite that is no time prints what its words are read as -/
theorem matchAt_prints {kind : CueKind} {words : List Text}
    (h : matchAt tokens masks i = some (kind, m)) (hkind : kind ≠ .time)
    (hwords : numeralWords tokens kind m = some words) :
    ∃ v, parseCardinalRun words = some v ∧ v ≤ maxRenderedValue ∧ Prints tokens kind m v := by
  rcases matchAt_cases h with ⟨rfl, -⟩ | ⟨-, ⟨rfl, -⟩ | ⟨rfl, hspan⟩ | ⟨rfl, hspan⟩ | ⟨rfl, hspan⟩⟩
  · cases hwords
  · exact absurd rfl hkind
  · obtain ⟨unit, run, v, tok, hshape, hparse, hv, -, htok, rfl⟩ := tryCurrencySpan_spec hspan
    obtain rfl : run = words := (currencyShape_words hshape).trans (Option.some.inj hwords)
    refine ⟨v, hparse, hv, tok, htok, ?_⟩
    cases unit
    · exact Or.inl rfl
    · exact Or.inr rfl
  · obtain ⟨shape, v, hshape, hinteger, -, rfl⟩ := tryDecimalSpan_spec hspan
    obtain ⟨hshape', hpoint, -, -⟩ := decimalShape_spec hshape
    obtain rfl : shape.words = words := by
      rw [hshape']
      exact Option.some.inj hwords
    obtain ⟨hparse, hv⟩ := integerPart_parse hinteger
    exact ⟨v, hparse, hv, _, hpoint, rfl⟩
  · obtain ⟨-, -, v, rfl, hyear | ⟨run, hshape, hparse, -, hv⟩⟩ := tryCardinalRun_spec hspan
    · simp [numeralWords, cardinalSpan, hyear] at hwords
    · simp only [numeralWords] at hwords
      split_ifs at hwords
      obtain rfl : run = words := (scaleShape_words hshape).trans (Option.some.inj hwords)
      exact ⟨v, hparse, hv, rfl⟩

end

/-- **a rewrite is right exactly when its number words are plain** -/
theorem rewrittenRight_iff {text : Text} {kind : CueKind} {m : CueSpan}
    (h : (kind, m) ∈ grammarRewrites text) :
    RewrittenRight (wordTokens text) kind m ↔
      ∀ words, numeralWords (wordTokens text) kind m = some words → PlainNumeral kind words := by
  refine forall₂_congr fun words hwords => ?_
  obtain ⟨-, hmatch⟩ := mem_grammarRewrites h
  by_cases hkind : kind = .time
  · subst hkind
    have hspan : tryTimeSpan (wordTokens text) (masksOf (wordTokens text)) m.start = some m := by
      rcases matchAt_cases hmatch with ⟨h, -⟩ | ⟨-, ⟨-, h⟩ | ⟨h, -⟩ | ⟨h, -⟩ | ⟨h, -⟩⟩
      · cases h
      · exact h
      · cases h
      · cases h
      · cases h
    simp only [numeralWords] at hwords
    split_ifs at hwords with hminute
    obtain ⟨v, hv, hprints⟩ := tryTimeSpan_prints hspan hminute
    rw [Option.some.inj hwords] at hv
    constructor
    · rintro ⟨value, hreads, -⟩
      exact hv.plain hreads
    · intro hplain
      exact ⟨v, hv.reads hplain, hprints⟩
  · obtain ⟨v, hparse, hv, hprints⟩ := matchAt_prints hmatch hkind hwords
    constructor
    · rintro ⟨value, hreads | ⟨htime, -⟩, -⟩
      · exact ⟨plain_of_reading hparse hv hreads, fun htime => absurd htime hkind⟩
      · exact absurd htime hkind
    · intro hplain
      exact ⟨v, Or.inl ((canonicalReading_iff hparse hv).mpr hplain.plain), hprints⟩

/-- **the numeric rewrites of a text are right exactly when their number words are plain** -/
theorem numerals_canonical_iff (text : Text) :
    (Spliced 0 (((grammarRewrites text).map Prod.snd).map (spanRepl (wordTokens text))) text
        (applyDictationGrammar text) ∧
      ∀ kind m, (kind, m) ∈ grammarRewrites text → RewrittenRight (wordTokens text) kind m) ↔
    ∀ kind m, (kind, m) ∈ grammarRewrites text →
      ∀ words, numeralWords (wordTokens text) kind m = some words → PlainNumeral kind words := by
  rw [and_iff_right (applyDictationGrammar_spliced text)]
  exact forall₂_congr fun kind m => forall_congr' fun h => rewrittenRight_iff h

def laterMeeting : Text := "seven forty-five five pm".toList

/-- the unit is added to a compound that has one already: ten to eight -/
theorem numerals_laterMeeting : ¬ (
    Spliced 0 (((grammarRewrites laterMeeting).map Prod.snd).map
        (spanRepl (wordTokens laterMeeting))) laterMeeting (applyDictationGrammar laterMeeting) ∧
      ∀ kind m, (kind, m) ∈ grammarRewrites laterMeeting →
        RewrittenRight (wordTokens laterMeeting) kind m) := by
  rintro ⟨-, h⟩
  have hmem : (CueKind.time, CueSpan.mk 0 4 "7:50 pm".toList) ∈ grammarRewrites laterMeeting := by
    decide +kernel
  have hwords : numeralWords (wordTokens laterMeeting) .time (CueSpan.mk 0 4 "7:50 pm".toList) =
      some ["forty-five".toList, "five".toList] := by decide +kernel
  obtain ⟨value, hreads | ⟨-, _, _, hzero, hoh, -⟩, -⟩ := h _ _ hmem _ hwords
  · obtain ⟨⟨t, hsmall, -⟩, -⟩ := List.isChain_pair.mp hreads.tens (by decide) (by decide)
    have hnone : smallValue "forty-five".toList = none := by decide
    rw [hnone] at hsmall
    cases hsmall
  · obtain ⟨rfl, -⟩ := List.cons.inj hzero
    revert hoh
    decide

end Voisu.Dictation
