import Mathlib
import Voisu.Decision.Quality

/-!
# Choosing between two source transcripts

The comparators of the decision pipeline: which of two sources is near-identical to the other, which
is garbage, which is fuller, which is better formatted.  A hash set of the source is a list without
duplicates here; ratios are doubles (`fdiv`, `fmul`).

* `sourcePairClassification`, `nearIdenticalSelection`   near-identical sources;
* `sourceQualityGate`          catastrophically divergent sources;
* `selectBetterSource`         the ordered tiers of evidence;
* `completeSourcePreference`   the fuller source.
-/

namespace Voisu.Decision
open Lib

inductive GateWinner where
  | left
  | right
deriving DecidableEq, Repr

inductive SourceSelectionConfidence where
  | high
  | low
deriving DecidableEq, Repr

structure SourceCoverageRecord where
  provider : Provider
  rawWords : Nat
  adjustedCoverage : Nat
  repetitionDiscount : Nat
  safetyPassed : Bool
deriving DecidableEq, Repr

structure SourceSelectionDiagnostic where
  sources : List SourceCoverageRecord
  selectedProvider : Option Provider
  confidence : Option SourceSelectionConfidence
deriving DecidableEq, Repr

/-! ## repetition -/

def contentRepetitionFloor : ℚ := roundF64 (4 / 10)
def minRepetitionContent : Nat := 8
def minLoopVocabulary : Nat := 4
def contentOverlapFloor : ℚ := roundF64 (2 / 10)
def minComparableContent : Nat := 5

/-- the words of `candidate` that `budget` cannot account for, in order -/
def surplus : List Text → List Text → List Text
  | [], _ => []
  | word :: candidate, budget =>
    if budget.contains word then surplus candidate (budget.erase word)
    else word :: surplus candidate budget

def surplusIsSelfRepetition (candidate other : List Text) : Bool :=
  let content := contentWords (surplus candidate other)
  if content.length < minRepetitionContent then false
  else
    let distinct := content.dedup
    if distinct.any fun word => !other.contains word then false
    else (distinct.length : ℚ) < fmul contentRepetitionFloor content.length

def knownFillers : List Text := ["um", "uh", "uhh", "erm", "hmm"].map String.toList

def repetitionDiscount (candidate other : List Text) : Nat :=
  let fillerDiscount := (knownFillers.map fun filler => candidate.count filler - 2).sum
  if surplusIsSelfRepetition candidate other then
    max fillerDiscount (surplus candidate other).length
  else fillerDiscount

/-- the words of the first source at another index -/
def otherWords (sources : List SourceTranscript) (index : Nat) : List Text :=
  match sources[if index = 0 then 1 else 0]? with
  | some source => normalizedWords source.text
  | none => []

def coverageRecord (sources : List SourceTranscript) (index : Nat) (source : SourceTranscript) :
    SourceCoverageRecord :=
  let words := normalizedWords source.text
  let discount := repetitionDiscount words (otherWords sources index)
  { provider := source.provider
    rawWords := words.length
    adjustedCoverage := words.length - discount
    repetitionDiscount := discount
    safetyPassed :=
      !words.isEmpty && (nonContractionQualityFailureReason source.text [source]).isNone }

def sourceCoverage (sources : List SourceTranscript) : List SourceCoverageRecord :=
  sources.mapIdx fun index source => coverageRecord sources index source

def sourceSelectionDiagnostic (sources : List SourceTranscript)
    (selectedProvider : Option Provider) (confidence : Option SourceSelectionConfidence) :
    SourceSelectionDiagnostic :=
  { sources := sourceCoverage sources, selectedProvider, confidence }

/-! ## the fuller source -/

def materialCompletenessRatio : ℚ := roundF64 (80 / 100)

structure CompleteSourcePreference where
  source : SourceTranscript
  material : Bool
  diagnostic : Text
  selectionDiagnostic : SourceSelectionDiagnostic

def cliLabel : Provider → Text
  | .deepgram => "Deepgram".toList
  | .groq => "Groq".toList

def completeSourcePreference (left right : SourceTranscript) : CompleteSourcePreference :=
  let leftRecord := coverageRecord [left, right] 0 left
  let rightRecord := coverageRecord [left, right] 1 right
  let leftCoverage := leftRecord.adjustedCoverage
  let rightCoverage := rightRecord.adjustedCoverage
  let source := if rightCoverage < leftCoverage then left else right
  let fuller := max leftCoverage rightCoverage
  let shorter := min leftCoverage rightCoverage
  let pick (p : Provider) (field : SourceCoverageRecord → Nat) : Text :=
    natText (if left.provider = p then field leftRecord else field rightRecord)
  { source
    material := 0 < fuller && fdiv shorter fuller < materialCompletenessRatio
    diagnostic :=
      "materially fuller safe Source Transcript selected; raw words Deepgram=".toList ++
        pick .deepgram (·.rawWords) ++ " Groq=".toList ++ pick .groq (·.rawWords) ++
        "; adjusted coverage Deepgram=".toList ++ pick .deepgram (·.adjustedCoverage) ++
        " Groq=".toList ++ pick .groq (·.adjustedCoverage) ++
        "; repetition discount Deepgram=".toList ++ pick .deepgram (·.repetitionDiscount) ++
        " Groq=".toList ++ pick .groq (·.repetitionDiscount) ++
        "; selected provider=".toList ++ cliLabel source.provider ++
        "; confidence high; safety passed".toList
    selectionDiagnostic :=
      { sources := [leftRecord, rightRecord]
        selectedProvider := some source.provider
        confidence := some .high } }

theorem completeSourcePreference_source (left right : SourceTranscript) :
    (completeSourcePreference left right).source = left ∨
      (completeSourcePreference left right).source = right := by
  unfold completeSourcePreference
  simp only
  split
  · exact Or.inl rfl
  · exact Or.inr rfl

/-! ## garbage and cross-source evidence -/

def isDegenerate (words : List Text) : Bool :=
  if words.length < 6 then false
  else
    fdiv (contentWords words).length words.length < 1 / 4 ||
      (distinctContentWords words).length < 3

def isRepetitionLoop (words : List Text) : Bool :=
  let contentCount := (contentWords words).length
  let distinct := (distinctContentWords words).length
  minRepetitionContent ≤ contentCount && minLoopVocabulary ≤ distinct &&
    (distinct : ℚ) < fmul contentRepetitionFloor contentCount

def isGarbageAgainst (own confirmed : List Text) : Bool :=
  if isDegenerate own then true
  else if !isRepetitionLoop own then false
  else
    let recycled := (distinctContentWords own).filter fun word => 2 ≤ own.count word
    let confirmedRecycled := (recycled.filter fun word => confirmed.contains word).length
    let stolen := recycled.length < confirmedRecycled * 2
    let distinct := (distinctContentWords own).length
    let hollow := minComparableContent ≤ distinct &&
      (confirmed.length : ℚ) < fmul contentOverlapFloor distinct
    stolen || hollow

def wordsSoundAlike (left right : Text) : Bool :=
  let longer := max left.length right.length
  if longer = 0 then false
  else if longer ≤ 3 then left == right
  else charEditDistance left right ≤ (longer + 2) / 3

structure PhoneticPair where
  distance : Nat
  left : Text
  right : Text
deriving DecidableEq, Repr

def PhoneticPair.low (pair : PhoneticPair) : Text :=
  if textLe pair.left pair.right then pair.left else pair.right

def PhoneticPair.high (pair : PhoneticPair) : Text :=
  if textLe pair.left pair.right then pair.right else pair.left

/-- the order of the keys `(distance, smaller word, larger word)` -/
def PhoneticPair.le (a b : PhoneticPair) : Bool :=
  a.distance < b.distance ||
    (a.distance == b.distance &&
      (if a.low == b.low then textLe a.high b.high else textLe a.low b.low))

def phoneticCandidates (left right : List Text) : List PhoneticPair :=
  left.flatMap fun leftWord =>
    (right.filter fun rightWord => wordsSoundAlike leftWord rightWord).map fun rightWord =>
      ⟨charEditDistance leftWord rightWord, leftWord, rightWord⟩

/-- greedily, each word of either side once -/
def takeMatching (leftUsed rightUsed : List Text) : List PhoneticPair → List (Text × Text)
  | [] => []
  | pair :: pairs =>
    if !leftUsed.contains pair.left && !rightUsed.contains pair.right then
      (pair.left, pair.right) ::
        takeMatching (pair.left :: leftUsed) (pair.right :: rightUsed) pairs
    else takeMatching leftUsed rightUsed pairs

def phoneticMatching (left right : List Text) : List (Text × Text) :=
  takeMatching [] []
    ((phoneticCandidates left right).insertionSort fun a b => PhoneticPair.le a b = true)

/-- some word occurs again, not only right after itself -/
def revisits (words : List Text) (word : Text) : Bool :=
  let positions := words.idxsOf word
  (positions.zip positions.tail).any fun pair => 1 < pair.2 - pair.1

def topicalCohesion (words : List Text) : Nat :=
  ((distinctContentWords words).filter (revisits words)).length

def sourceQuality (words : List Text) : ℚ :=
  let total := words.length
  if total = 0 then 0
  else
    let contentFraction := fdiv (contentWords words).length total
    let richness := min (fdiv (distinctContentWords words).length 8) 1
    let repeats := ((words.zip words.tail).filter fun pair => pair.1 == pair.2).length
    let duplication := fdiv repeats total
    fmul (fadd (fmul (roundF64 (6 / 10)) contentFraction) (fmul (roundF64 (4 / 10)) richness))
      (fsub 1 duplication)

inductive SelectionEvidence where
  | garbage
  | confirmation
  | cohesion
  | quality
  | default
deriving DecidableEq, Repr

def SelectionEvidence.isLowConfidence : SelectionEvidence → Bool
  | .cohesion | .quality | .default => true
  | .garbage | .confirmation => false

def SelectionEvidence.confidence (evidence : SelectionEvidence) : SourceSelectionConfidence :=
  if evidence.isLowConfidence then .low else .high

def confirmationMargin : ℚ := roundF64 (15 / 100)

def confirmationShare (confirmed content : List Text) : ℚ :=
  if content.isEmpty then 0 else fdiv confirmed.length content.length

def selectBetterSource (left right : List Text) : GateWinner × SelectionEvidence :=
  let leftContent := distinctContentWords left
  let rightContent := distinctContentWords right
  let matching := phoneticMatching leftContent rightContent
  let leftConfirmed := matching.map Prod.fst
  let rightConfirmed := matching.map Prod.snd
  let leftGarbage := isGarbageAgainst left leftConfirmed
  let rightGarbage := isGarbageAgainst right rightConfirmed
  if leftGarbage != rightGarbage then (if leftGarbage then .right else .left, .garbage)
  else
    let leftConfirmation := confirmationShare leftConfirmed leftContent
    let rightConfirmation := confirmationShare rightConfirmed rightContent
    if confirmationMargin < |fsub leftConfirmation rightConfirmation| then
      (if rightConfirmation < leftConfirmation then .left else .right, .confirmation)
    else
      let leftCohesion := topicalCohesion left
      let rightCohesion := topicalCohesion right
      if leftCohesion ≠ rightCohesion then
        (if rightCohesion < leftCohesion then .left else .right, .cohesion)
      else
        let leftQuality := sourceQuality left
        let rightQuality := sourceQuality right
        if rightQuality < leftQuality then (.left, .quality)
        else if leftQuality < rightQuality then (.right, .quality)
        else (.right, .default)

/-! ## the source-quality gate -/

def divergenceLengthRatioFloor : ℚ := roundF64 (34 / 100)

structure QualityGate where
  winner : GateWinner
  reason : Text
  confidence : SourceSelectionConfidence

def sourceQualityGate (left right : Text) : Option QualityGate :=
  let leftWords := normalizedWords left
  let rightWords := normalizedWords right
  let fewer := min leftWords.length rightWords.length
  let more := max leftWords.length rightWords.length
  if fewer = 0 then
    if more = 0 then none
    else
      some
        { winner := if leftWords.isEmpty then .right else .left
          confidence := .high
          reason :=
            "catastrophically divergent (one Source Transcript is wordless); selected the only Source Transcript with words".toList }
  else
    let leftContent := distinctContentWords leftWords
    let rightContent := distinctContentWords rightWords
    let matching := phoneticMatching leftContent rightContent
    let leftGarbage := isGarbageAgainst leftWords (matching.map Prod.fst)
    let rightGarbage := isGarbageAgainst rightWords (matching.map Prod.snd)
    if leftGarbage != rightGarbage then
      some
        { winner := if leftGarbage then .right else .left
          confidence := .high
          reason :=
            "catastrophically divergent (one Source Transcript is a degenerate filler/repetition loop without independent cross-source support); selected the coherent Source Transcript".toList }
    else
      let lengthRatio := fdiv fewer more
      if lengthRatio < divergenceLengthRatioFloor then
        some
          { winner := if rightWords.length ≤ leftWords.length then .left else .right
            confidence := .high
            reason :=
              "catastrophically divergent (length ratio ".toList ++ fixedText 2 lengthRatio ++
                " below ".toList ++ fixedText 2 divergenceLengthRatioFloor ++
                "); selected the fuller Source Transcript, the other is a fragment".toList }
      else if leftGarbage then none
      else
        let smallerContent := min leftContent.length rightContent.length
        let agreement := fdiv matching.length smallerContent
        if minComparableContent ≤ smallerContent && agreement < contentOverlapFloor then
          let (winner, evidence) := selectBetterSource leftWords rightWords
          let lowConfidence :=
            if evidence.isLowConfidence then
              "; low-confidence selection: cross-source evidence could not distinguish the Source Transcripts".toList
            else []
          some
            { winner
              confidence := evidence.confidence
              reason :=
                "catastrophically divergent (cross-source content agreement ".toList ++
                  fixedText 2 agreement ++ " below ".toList ++ fixedText 2 contentOverlapFloor ++
                  "); selected the Source Transcript better supported by cross-source evidence".toList ++
                  lowConfidence }
        else none

/-! ## near-identical sources -/

def sourceSimilarity (left right : Text) : ℚ :=
  let left := normalizedWords left
  let right := normalizedWords right
  let longest := max left.length right.length
  if longest = 0 then 1 else fsub 1 (fdiv (wordEditDistance left right) longest)

inductive SourcePairClassification where
  | nearIdentical (lexicallyIdentical : Bool)
  | materialDisagreement
deriving DecidableEq, Repr

def sourcePairClassification (left right : Text) : SourcePairClassification :=
  if roundF64 (85 / 100) ≤ sourceSimilarity left right then
    .nearIdentical (normalizedWords left == normalizedWords right)
  else .materialDisagreement

structure FormattingEvidence where
  capitalisedSentenceStarts : Nat
  sentenceStarts : Nat
  allCaps : Bool
  sentencePunctuationBoundaries : Nat
  dictionaryMatches : Nat

/-- capitalised and all sentence starts -/
def sentenceStartCapitalisation (atStart : Bool) : Text → Nat × Nat
  | [] => (0, 0)
  | c :: s =>
    if isAlphabetic c && atStart then
      let rest := sentenceStartCapitalisation false s
      ((if isUppercase c then 1 else 0) + rest.1, 1 + rest.2)
    else if isTerminator c then sentenceStartCapitalisation true s
    else sentenceStartCapitalisation atStart s

/-- maximal runs of terminators -/
def sentencePunctuationBoundaries (text : Text) : Nat := (words isTerminator text).length

def sentenceBoundaryCredit (text : Text) : Nat :=
  let boundaryLimit := max (((normalizedWords text).length + 5) / 6) 1
  min (sentencePunctuationBoundaries text) boundaryLimit

structure DictionaryMatch where
  term : Text
  start : Nat
  stop : Nat

/-- the matches of `term` from the left, none overlapping the one before; `skip` characters still
belong to the last one -/
def termMatches (term : Text) (previous : Option Char) (off skip : Nat) :
    Text → List DictionaryMatch
  | [] => []
  | c :: s =>
    let rest (skip : Nat) := termMatches term (some c) (off + c.utf8Size) skip s
    if 0 < skip then rest (skip - 1)
    else if startsWith (c :: s) term then
      let after := (c :: s).drop term.length
      if previous.all (fun p => !isAlphanumeric p) && after.head?.all (fun a => !isAlphanumeric a)
      then ⟨term, off, off + byteLen term⟩ :: rest (term.length - 1)
      else rest (term.length - 1)
    else rest 0

/-- longest term first, then by position -/
def DictionaryMatch.le (a b : DictionaryMatch) : Bool :=
  byteLen b.term < byteLen a.term || (byteLen a.term == byteLen b.term && a.start ≤ b.start)

def takeMatches (selected : List DictionaryMatch) : List DictionaryMatch → List DictionaryMatch
  | [] => selected
  | m :: ms =>
    if selected.any fun s => s.term == m.term || (m.start < s.stop && s.start < m.stop) then
      takeMatches selected ms
    else takeMatches (m :: selected) ms

def distinctNonoverlappingDictionaryMatches (text : Text) (terms : List Text) : Nat :=
  let candidates := ((terms.filter fun term => !term.isEmpty).dedup).flatMap fun term =>
    termMatches term none 0 0 text
  (takeMatches [] (candidates.insertionSort fun a b => DictionaryMatch.le a b = true)).length

def formattingEvidence (text : Text) (dictionaryTerms : List Text) : FormattingEvidence :=
  let starts := sentenceStartCapitalisation true text
  { capitalisedSentenceStarts := starts.1
    sentenceStarts := starts.2
    allCaps := 4 ≤ (text.filter isAlphabetic).length && (text.filter isLowercase).isEmpty
    sentencePunctuationBoundaries := sentenceBoundaryCredit text
    dictionaryMatches := distinctNonoverlappingDictionaryMatches text dictionaryTerms }

def capitalisationScore (evidence : FormattingEvidence) : ℚ :=
  if evidence.allCaps || evidence.sentenceStarts = 0 then 0
  else fdiv evidence.capitalisedSentenceStarts evidence.sentenceStarts

structure FormattingComparison where
  leftSignals : Nat
  rightSignals : Nat
  measurements : Text

def evidenceText (evidence : FormattingEvidence) : Text :=
  natText evidence.capitalisedSentenceStarts ++ ['/'] ++ natText evidence.sentenceStarts ++
    if evidence.allCaps then " (all-caps)".toList else []

def compareFormatting (left right : Text) (dictionaryTerms : List Text) : FormattingComparison :=
  let l := formattingEvidence left dictionaryTerms
  let r := formattingEvidence right dictionaryTerms
  let signals (above : ℚ → ℚ → Bool) : Nat :=
    (if above (capitalisationScore l) (capitalisationScore r) then 1 else 0) +
      (if above l.sentencePunctuationBoundaries r.sentencePunctuationBoundaries then 1 else 0) +
      (if above l.dictionaryMatches r.dictionaryMatches then 1 else 0)
  { leftSignals := signals fun a b => b < a
    rightSignals := signals fun a b => a < b
    measurements :=
      "capitalised sentence starts ".toList ++ evidenceText l ++ " vs ".toList ++ evidenceText r ++
        ", sentence punctuation boundaries ".toList ++ natText l.sentencePunctuationBoundaries ++
        " vs ".toList ++ natText r.sentencePunctuationBoundaries ++
        ", dictionary matches ".toList ++ natText l.dictionaryMatches ++ " vs ".toList ++
        natText r.dictionaryMatches }

def FormattingComparison.favoursLeft (comparison : FormattingComparison) : Bool :=
  0 < comparison.leftSignals && comparison.rightSignals == 0

def nearIdenticalSelection (left right : Text) (dictionaryTerms : List Text) : GateWinner × Text :=
  let comparison := compareFormatting left right dictionaryTerms
  if comparison.favoursLeft then
    (.left, "selected Deepgram on one-sided formatting evidence (".toList ++
      comparison.measurements ++ [')'])
  else
    (.right, "defaulted to Groq because formatting evidence was not one-sided (".toList ++
      comparison.measurements ++ [')'])

end Voisu.Decision
