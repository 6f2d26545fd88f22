import Mathlib
import Voisu.Arbitration.Flips
import Voisu.Coordinator
import Voisu.Decision.Selection

/-!
# The transcript decision pipeline

`decide` of `lib.rs`, over a model whose two calls may answer anything.  A call happens at most once
for each kind, so a model is a function of the kind and what it is asked.  The user vocabulary is
empty: the correction pass then hands the decision through.

* `decideUncorrected`             every exit of the decision;
* `applyConfidenceArbitration`    the flips on top of a selected source;
* `Delivers`                      where a delivered text may come from;
* `decide_delivers`               every decision is clean and delivers such a text.
-/

namespace Voisu.Decision
open Lib Arbitration Coordinator

/-! ## the records -/

inductive TranscriptSelection where
  | complementary
  | nearIdenticalGroq
  | reconciled
  | repaired
  | intentReconstructed
  | sourceDeepgram
  | sourceGroq
deriving DecidableEq, Repr

structure ConfidenceArbitrationDiagnostic where
  regionsConsidered : Nat
  regionsFlipped : Nat
  rejections : List Rejection

structure TranscriptDecision where
  transcript : Text
  selection : TranscriptSelection
  validationReason : Text
  fallbackReason : Option Text
  reconciliationRequested : Bool
  recoveryAttempted : Bool
  sourceSelectionDiagnostic : SourceSelectionDiagnostic
  confidenceArbitration : Option ConfidenceArbitrationDiagnostic

inductive ReconciliationKind where
  | reconcile
  | repair
deriving DecidableEq, Repr

/-- what becomes of one request under the deadline -/
inductive RequestOutcome where
  | merged (text : Text)
  | failed (error : BoundaryError)
  | deadlineElapsed

structure TranscriptDecisionPipeline where
  model : ReconciliationKind → List SourceTranscript → Option Text → RequestOutcome
  dictionaryTerms : List Text
  wordConfidences : List (ProviderWordConfidences F64)

def QualityFailure.reason : QualityFailure → Text
  | .other reason => reason.toList
  | .contraction ratio candidateWords sourceWords =>
    "suspicious contraction ratio ".toList ++ fixedText 4 ratio ++ " below ".toList ++
      fixedText 2 mergeContractionRatioFloor ++ " (".toList ++ natText candidateWords ++
      " candidate words, ".toList ++ natText sourceWords ++ " longest-source words)".toList

def SourcePairClassification.confidence : SourcePairClassification → SourceSelectionConfidence
  | .nearIdentical true => .high
  -- the last case is unreachable in the source
  | .nearIdentical false | .materialDisagreement => .low

def sourceSelection : Provider → TranscriptSelection
  | .deepgram => .sourceDeepgram
  | .groq => .sourceGroq

def GateWinner.pick {α : Type} (winner : GateWinner) (left right : α) : α :=
  match winner with
  | .left => left
  | .right => right

theorem GateWinner.pick_or {α : Type} (winner : GateWinner) (left right : α) :
    winner.pick left right = left ∨ winner.pick left right = right := by
  cases winner
  · exact Or.inl rfl
  · exact Or.inr rfl

/-! ## fallbacks -/

def qualitySafeSources (sources : List SourceTranscript) : List SourceTranscript :=
  sources.filter fun source =>
    !(normalizedWords source.text).isEmpty &&
      (nonContractionQualityFailureReason source.text [source]).isNone

def sourceFallbackRefusal (reason : Text) : BoundaryError :=
  BoundaryError.new .validation (reason ++ "; neither Source Transcript is safe".toList)

def sourceFallbackDecision (source : SourceTranscript) (reason : Text)
    (reconciliationRequested recoveryAttempted : Bool) (validationReason : Text)
    (diagnostic : SourceSelectionDiagnostic) : TranscriptDecision :=
  { transcript := trim source.text
    selection := sourceSelection source.provider
    validationReason
    fallbackReason := some reason
    reconciliationRequested
    recoveryAttempted
    sourceSelectionDiagnostic := diagnostic
    confidenceArbitration := none }

def contractionSourceFallback (sources : List SourceTranscript) (reason : Text)
    (reconciliationRequested recoveryAttempted : Bool) :
    Except BoundaryError TranscriptDecision :=
  let deliver (source : SourceTranscript) (diagnostic : SourceSelectionDiagnostic) :=
    sourceFallbackDecision source reason reconciliationRequested recoveryAttempted
      "fuller safe Source Transcript delivered after a rejected contraction".toList diagnostic
  match qualitySafeSources sources with
  | [] => .error (sourceFallbackRefusal reason)
  | [only] => .ok (deliver only (sourceSelectionDiagnostic sources (some only.provider) (some .high)))
  | left :: right :: _ =>
    let preference := completeSourcePreference left right
    .ok (deliver preference.source preference.selectionDiagnostic)

def safeSourceFallback (sources : List SourceTranscript) (reason : Text)
    (reconciliationRequested recoveryAttempted : Bool) :
    Except BoundaryError TranscriptDecision :=
  let deliver (source : SourceTranscript) :=
    sourceFallbackDecision source reason reconciliationRequested recoveryAttempted
  let byTiers := "safe Source Transcript selected by existing evidence tiers".toList
  match qualitySafeSources sources with
  | [] => .error (sourceFallbackRefusal reason)
  | [only] =>
    .ok (deliver only byTiers (sourceSelectionDiagnostic sources (some only.provider) (some .high)))
  | left :: right :: _ =>
    let preference := completeSourcePreference left right
    if preference.material then
      .ok (deliver preference.source preference.diagnostic preference.selectionDiagnostic)
    else
      let (winner, evidence) :=
        selectBetterSource (normalizedWords left.text) (normalizedWords right.text)
      let selected := winner.pick left right
      .ok (deliver selected byTiers
        (sourceSelectionDiagnostic sources (some selected.provider) (some evidence.confidence)))

/-! ## the decision -/

namespace TranscriptDecisionPipeline
variable (pipeline : TranscriptDecisionPipeline)

def repairedDecision (sources : List SourceTranscript) (repaired validationReason : Text)
    (fallbackReason : Option Text) (reconciliationRequested : Bool) : TranscriptDecision :=
  { transcript := trim repaired
    selection := .repaired
    validationReason
    fallbackReason
    reconciliationRequested
    recoveryAttempted := true
    sourceSelectionDiagnostic := sourceSelectionDiagnostic sources none none
    confidenceArbitration := none }

/-- what becomes of a repair that came back -/
def judgeRepair (sources : List SourceTranscript) (repaired reason : Text)
    (reconciliationRequested : Bool) : Except BoundaryError TranscriptDecision :=
  let fallback (detail : Text) := safeSourceFallback sources detail reconciliationRequested true
  let failure := qualityFailureReason repaired sources
  match nonContractionQualityFailureReason repaired sources with
  | some other => fallback ("recovery produced ".toList ++ other.reason)
  | none =>
    if !isSourceDerived repaired sources then
      fallback "recovery produced words no Source Transcript contains".toList
    else
      match failure with
      | none =>
        .ok (repairedDecision sources repaired ("repaired ".toList ++ reason) none
          reconciliationRequested)
      | some contraction =>
        -- the floor decides preference, not delivery
        match contractionSourceFallback sources
            ("recovery produced ".toList ++ contraction.reason) reconciliationRequested true with
        | .ok decision => .ok decision
        | .error _ =>
          .ok (repairedDecision sources repaired
            ("repaired ".toList ++ reason ++
              "; delivered a contracted repair because neither Source Transcript is safe".toList)
            (some contraction.reason) reconciliationRequested)

def repairCandidate (sources : List SourceTranscript) (candidate reason : Text)
    (reconciliationRequested : Bool) : Except BoundaryError TranscriptDecision :=
  match pipeline.model .repair sources (some candidate) with
  | .failed error =>
    safeSourceFallback sources ("recovery failed: ".toList ++ error.diagnostic)
      reconciliationRequested true
  | .deadlineElapsed =>
    safeSourceFallback sources "recovery deadline elapsed".toList reconciliationRequested true
  | .merged repaired => judgeRepair sources repaired reason reconciliationRequested

/-- what becomes of a merge that came back -/
def judgeMerge (sources : List SourceTranscript) (merged : Text) :
    Except BoundaryError TranscriptDecision :=
  match qualityFailureReason merged sources with
  | some failure =>
    if failure.isContraction then contractionSourceFallback sources failure.reason true false
    else pipeline.repairCandidate sources merged failure.reason true
  | none =>
    if !isSourceDerived merged sources then
      safeSourceFallback sources
        "reconciliation produced words absent from every Source Transcript".toList true false
    else
      .ok
        { transcript := trim merged
          selection := .reconciled
          validationReason := "Merge Result passed validation".toList
          fallbackReason := none
          reconciliationRequested := true
          recoveryAttempted := false
          sourceSelectionDiagnostic := sourceSelectionDiagnostic sources none none
          confidenceArbitration := none }

def reconcile (sources : List SourceTranscript) : Except BoundaryError TranscriptDecision :=
  match pipeline.model .reconcile sources none with
  | .failed error =>
    safeSourceFallback sources ("cloud reconciliation failed: ".toList ++ error.diagnostic) true
      false
  | .deadlineElapsed =>
    safeSourceFallback sources "cloud reconciliation deadline elapsed".toList true false
  | .merged merged => pipeline.judgeMerge sources merged

/-- a source delivered without a model call -/
def sourceDecision (sources : List SourceTranscript) (source : SourceTranscript)
    (selection : TranscriptSelection) (validationReason : Text) (fallbackReason : Option Text)
    (confidence : SourceSelectionConfidence) : TranscriptDecision :=
  { transcript := trim source.text
    selection
    validationReason
    fallbackReason
    reconciliationRequested := false
    recoveryAttempted := false
    sourceSelectionDiagnostic :=
      sourceSelectionDiagnostic sources (some source.provider) (some confidence)
    confidenceArbitration := none }

def nearIdenticalGroqOr : Provider → TranscriptSelection
  | .deepgram => .sourceDeepgram
  | .groq => .nearIdenticalGroq

def decideNearIdentical (sources : List SourceTranscript) (deepgram groq : SourceTranscript)
    (lexicallyIdentical : Bool) : Except BoundaryError TranscriptDecision :=
  let (winner, evidence) :=
    if lexicallyIdentical then
      nearIdenticalSelection deepgram.text groq.text pipeline.dictionaryTerms
    else
      (.right, "lexically different Source Transcripts; kept the Groq default because a difference in words may be a change of meaning".toList)
  let selected := winner.pick deepgram groq
  match nonContractionQualityFailureReason selected.text sources with
  | some failure =>
    pipeline.repairCandidate sources (trim selected.text) failure.reason false
  | none =>
    .ok (sourceDecision sources selected (nearIdenticalGroqOr selected.provider)
      ("near-identical Source Transcripts passed validation; ".toList ++ evidence) none
      (SourcePairClassification.nearIdentical lexicallyIdentical).confidence)

def decideDivergent (sources : List SourceTranscript) (deepgram groq : SourceTranscript) :
    Except BoundaryError TranscriptDecision :=
  match sourceQualityGate deepgram.text groq.text with
  | none => pipeline.reconcile sources
  | some gate =>
    let winner := gate.winner.pick deepgram groq
    if (nonContractionQualityFailureReason winner.text sources).isNone then
      .ok (sourceDecision sources winner (sourceSelection winner.provider)
        "catastrophically divergent Source Transcripts; selected the better source without merging".toList
        (some gate.reason) gate.confidence)
    -- the better source fails a guard itself
    else pipeline.reconcile sources

def decideSingle (sources : List SourceTranscript) (source : SourceTranscript) :
    Except BoundaryError TranscriptDecision :=
  match nonContractionQualityFailureReason source.text sources with
  | some failure =>
    pipeline.repairCandidate sources (trim source.text) failure.reason false
  | none =>
    .ok (sourceDecision sources source (sourceSelection source.provider)
      "Source Transcript passed validation".toList none .high)

/-- the sources as the decision sees them: sanitized, the empty ones dropped, by provider -/
def usableSources (sources : List SourceTranscript) : List SourceTranscript :=
  sortByProvider SourceTranscript.provider
    ((sanitizeSourceTranscripts sources).filter fun source => !source.text.isEmpty)

def findProvider (provider : Provider) (sources : List SourceTranscript) :
    Option SourceTranscript :=
  sources.find? fun source => source.provider == provider

def decideUncorrected (sources : List SourceTranscript) :
    Except BoundaryError TranscriptDecision :=
  let sources := usableSources sources
  match findProvider .deepgram sources, findProvider .groq sources with
  | some deepgram, some groq =>
    match sourcePairClassification deepgram.text groq.text with
    | .nearIdentical lexicallyIdentical =>
      pipeline.decideNearIdentical sources deepgram groq lexicallyIdentical
    | .materialDisagreement => pipeline.decideDivergent sources deepgram groq
  | _, _ =>
    match sources with
    | [] =>
      .error (BoundaryError.new .silentRecording
        "didn't hear any words (removed filler like \"thanks for watching\")".toList)
    | source :: _ => pipeline.decideSingle sources source

/-! ## confidence arbitration -/

def evidenceOf (provider : Provider) : Option Evidence :=
  (pipeline.wordConfidences.find? fun evidence => evidence.provider == provider).map
    ProviderWordConfidences.words

/-- the incumbent and the other source of a decision that delivers a source -/
def arbitrationPair (selection : TranscriptSelection) (deepgram groq : SourceTranscript) :
    Option (SourceTranscript × SourceTranscript) :=
  match selection with
  | .sourceDeepgram => some (deepgram, groq)
  | .sourceGroq | .nearIdenticalGroq => some (groq, deepgram)
  | .complementary | .reconciled | .repaired | .intentReconstructed => none

def arbitrationInput (decision : TranscriptDecision) (sources : List SourceTranscript) :
    Option ArbitrationInput := do
  let sanitized := (sanitizeSourceTranscripts sources).filter fun source => !source.text.isEmpty
  let deepgram ← findProvider .deepgram sanitized
  let groq ← findProvider .groq sanitized
  let (incumbent, other) ← arbitrationPair decision.selection deepgram groq
  let incumbentEvidence ← pipeline.evidenceOf incumbent.provider
  let otherEvidence ← pipeline.evidenceOf other.provider
  if trim incumbent.text ≠ decision.transcript || incumbentEvidence.isEmpty ||
      otherEvidence.isEmpty then none
  else
    return {
      incumbentText := trim incumbent.text
      incumbentConfidences := incumbentEvidence
      otherText := trim other.text
      otherConfidences := otherEvidence
      sources := sanitized }

def applyConfidenceArbitration (decision : TranscriptDecision) (sources : List SourceTranscript) :
    TranscriptDecision :=
  match (pipeline.arbitrationInput decision sources).bind arbitrate with
  | none => decision
  | some outcome =>
    let diagnostic :=
      { decision with
        confidenceArbitration := some
          { regionsConsidered := outcome.regionsConsidered
            regionsFlipped := outcome.regionsFlipped
            rejections := outcome.rejections } }
    if 0 < outcome.regionsFlipped then
      { diagnostic with
        transcript := outcome.text
        validationReason := decision.validationReason ++
          "; confidence arbitration flipped ".toList ++ natText outcome.regionsFlipped ++
          " divergent region(s)".toList }
    else diagnostic

/-- the decision of a pipeline without user vocabulary -/
def decide (sources : List SourceTranscript) : Except BoundaryError TranscriptDecision :=
  (pipeline.decideUncorrected sources).map fun decision =>
    pipeline.applyConfidenceArbitration decision sources

end TranscriptDecisionPipeline

/-! ## what an uncorrected decision delivers -/

/-- the text of a source, or words that the sources hold -/
structure Sound (sources : List SourceTranscript) (transcript : Text) : Prop where
  clean : QualityOk transcript
  origin : (∃ source ∈ sources, transcript = trim source.text) ∨
    isSourceDerived transcript sources = true

/-- every decision of the result is sound -/
def SoundResult (sources : List SourceTranscript) : Except BoundaryError TranscriptDecision → Prop
  | .ok decision => Sound sources decision.transcript
  | .error _ => True

section
variable {sources : List SourceTranscript}

theorem Sound.of_source {source : SourceTranscript} {against : List SourceTranscript}
    (hs : source ∈ sources)
    (h : nonContractionQualityFailureReason source.text against = none) :
    Sound sources (trim source.text) :=
  ⟨qualityOk_trim h, Or.inl ⟨source, hs, rfl⟩⟩

theorem Sound.of_derived {text : Text} {against : List SourceTranscript}
    (h : nonContractionQualityFailureReason text against = none)
    (hd : isSourceDerived text sources = true) : Sound sources (trim text) :=
  ⟨qualityOk_trim h, Or.inr (by rw [isSourceDerived_trim]; exact hd)⟩

theorem Sound.of_safe {source : SourceTranscript} (h : source ∈ qualitySafeSources sources) :
    Sound sources (trim source.text) := by
  obtain ⟨hs, hq⟩ := List.mem_filter.mp h
  obtain ⟨-, hq⟩ := Bool.and_eq_true_iff.mp hq
  exact Sound.of_source hs (Option.isNone_iff_eq_none.mp hq)

theorem preferred_mem {left right : SourceTranscript} {safe : List SourceTranscript}
    {source : SourceTranscript} (h : source = left ∨ source = right) :
    source ∈ left :: right :: safe := by
  rcases h with rfl | rfl
  · exact List.mem_cons_self
  · exact List.mem_cons_of_mem _ List.mem_cons_self

/-- every decision of the result delivers a text with a property -/
def Holds (P : Text → Prop) : Except BoundaryError TranscriptDecision → Prop
  | .ok decision => P decision.transcript
  | .error _ => True

theorem holds_sourceFallback {P : Text → Prop} {source : SourceTranscript}
    (h : P (trim source.text)) (reason : Text) (requested attempted : Bool) (summary : Text)
    (diagnostic : SourceSelectionDiagnostic) :
    Holds P (.ok (sourceFallbackDecision source reason requested attempted summary diagnostic)) :=
  h

section
variable {P : Text → Prop} (hsafe : ∀ source ∈ qualitySafeSources sources, P (trim source.text))
include hsafe

theorem contractionSourceFallback_holds (reason : Text) (requested attempted : Bool) :
    Holds P (contractionSourceFallback sources reason requested attempted) := by
  unfold contractionSourceFallback
  simp only
  cases hq : qualitySafeSources sources with
  | nil => trivial
  | cons left safe =>
    rw [hq] at hsafe
    cases safe with
    | nil => exact hsafe _ List.mem_cons_self
    | cons right safe =>
      have hmem : (completeSourcePreference left right).source ∈ left :: right :: safe :=
        preferred_mem (completeSourcePreference_source left right)
      exact holds_sourceFallback (hsafe _ hmem) _ _ _ _ _

theorem safeSourceFallback_holds (reason : Text) (requested attempted : Bool) :
    Holds P (safeSourceFallback sources reason requested attempted) := by
  unfold safeSourceFallback
  simp only
  cases hq : qualitySafeSources sources with
  | nil => trivial
  | cons left safe =>
    rw [hq] at hsafe
    cases safe with
    | nil => exact hsafe _ List.mem_cons_self
    | cons right safe =>
      simp only
      split
      · have hmem : (completeSourcePreference left right).source ∈ left :: right :: safe :=
          preferred_mem (completeSourcePreference_source left right)
        exact holds_sourceFallback (hsafe _ hmem) _ _ _ _ _
      · exact hsafe _ (preferred_mem (GateWinner.pick_or _ left right))

namespace TranscriptDecisionPipeline
variable (pipeline : TranscriptDecisionPipeline)
variable (hderived : ∀ text, nonContractionQualityFailureReason text sources = none →
  isSourceDerived text sources = true → P (trim text))
include hderived

theorem judgeRepair_holds (repaired reason : Text) (requested : Bool) :
    Holds P (judgeRepair sources repaired reason requested) := by
  unfold judgeRepair
  simp only
  split
  · exact safeSourceFallback_holds hsafe _ _ _
  · rename_i hq
    split
    · exact safeSourceFallback_holds hsafe _ _ _
    · rename_i hd
      have hrepaired : P (trim repaired) := hderived repaired hq (by simpa using hd)
      split
      · exact hrepaired
      · split
        · rename_i decision hc
          show Holds P (.ok decision)
          rw [← hc]
          exact contractionSourceFallback_holds hsafe _ _ _
        · exact hrepaired

theorem repairCandidate_holds (candidate reason : Text) (requested : Bool) :
    Holds P (pipeline.repairCandidate sources candidate reason requested) := by
  unfold repairCandidate
  split
  · exact safeSourceFallback_holds hsafe _ _ _
  · exact safeSourceFallback_holds hsafe _ _ _
  · exact judgeRepair_holds hsafe hderived _ _ _

theorem judgeMerge_holds (merged : Text) : Holds P (pipeline.judgeMerge sources merged) := by
  unfold judgeMerge
  split
  · split
    · exact contractionSourceFallback_holds hsafe _ _ _
    · exact repairCandidate_holds hsafe _ hderived _ _ _
  · rename_i hq
    split
    · exact safeSourceFallback_holds hsafe _ _ _
    · rename_i hd
      have hq' : nonContractionQualityFailureReason merged sources = none := by
        unfold nonContractionQualityFailureReason
        rw [hq]
        rfl
      exact hderived merged hq' (by simpa using hd)

theorem reconcile_holds : Holds P (pipeline.reconcile sources) := by
  unfold reconcile
  split
  · exact safeSourceFallback_holds hsafe _ _ _
  · exact safeSourceFallback_holds hsafe _ _ _
  · exact judgeMerge_holds hsafe _ hderived _

end TranscriptDecisionPipeline

end

theorem SoundResult.of_holds {result : Except BoundaryError TranscriptDecision}
    (h : Holds (Sound sources) result) : SoundResult sources result := by
  cases result with
  | error e => trivial
  | ok decision => exact h

namespace TranscriptDecisionPipeline
variable (pipeline : TranscriptDecisionPipeline)

theorem repairCandidate_sound (candidate reason : Text) (requested : Bool) :
    SoundResult sources (pipeline.repairCandidate sources candidate reason requested) := by
  apply SoundResult.of_holds
  exact repairCandidate_holds (fun _ => Sound.of_safe) pipeline (fun _ => Sound.of_derived) _ _ _

theorem reconcile_sound : SoundResult sources (pipeline.reconcile sources) := by
  apply SoundResult.of_holds
  exact reconcile_holds (fun _ => Sound.of_safe) pipeline (fun _ => Sound.of_derived)

theorem decideNearIdentical_sound {deepgram groq : SourceTranscript} (hd : deepgram ∈ sources)
    (hg : groq ∈ sources) (lexicallyIdentical : Bool) :
    SoundResult sources (pipeline.decideNearIdentical sources deepgram groq lexicallyIdentical) := by
  unfold decideNearIdentical
  generalize (if lexicallyIdentical then
    nearIdenticalSelection deepgram.text groq.text pipeline.dictionaryTerms else _) = choice
  obtain ⟨winner, evidence⟩ := choice
  simp only
  have hs : winner.pick deepgram groq ∈ sources := by
    rcases winner.pick_or deepgram groq with h | h <;> rw [h] <;> assumption
  split
  · exact repairCandidate_sound _ _ _ _
  · rename_i hq
    exact Sound.of_source hs hq

theorem decideDivergent_sound {deepgram groq : SourceTranscript} (hd : deepgram ∈ sources)
    (hg : groq ∈ sources) :
    SoundResult sources (pipeline.decideDivergent sources deepgram groq) := by
  unfold decideDivergent
  split
  · exact reconcile_sound _
  · rename_i gate _
    have hs : gate.winner.pick deepgram groq ∈ sources := by
      rcases gate.winner.pick_or deepgram groq with h | h <;> rw [h] <;> assumption
    simp only
    split
    · rename_i hq
      exact Sound.of_source hs (Option.isNone_iff_eq_none.mp hq)
    · exact reconcile_sound _

theorem decideSingle_sound {source : SourceTranscript} (hs : source ∈ sources) :
    SoundResult sources (pipeline.decideSingle sources source) := by
  unfold decideSingle
  split
  · exact repairCandidate_sound _ _ _ _
  · rename_i hq
    exact Sound.of_source hs hq

theorem findProvider_mem {provider : Provider} {source : SourceTranscript}
    (h : findProvider provider sources = some source) : source ∈ sources :=
  List.mem_of_find?_eq_some h

/-- every exit delivers the text of a usable source or words of the usable sources -/
theorem decideUncorrected_sound (sources : List SourceTranscript) :
    SoundResult (usableSources sources) (pipeline.decideUncorrected sources) := by
  unfold decideUncorrected
  simp only
  split
  · rename_i deepgram groq hd hg
    split
    · exact decideNearIdentical_sound _ (findProvider_mem hd) (findProvider_mem hg) _
    · exact decideDivergent_sound _ (findProvider_mem hd) (findProvider_mem hg)
  · split
    · trivial
    · rename_i source rest hs
      rw [hs]
      exact decideSingle_sound _ List.mem_cons_self

/-! ## what the pipeline delivers -/

theorem mem_usableSources {sources : List SourceTranscript} {source : SourceTranscript} :
    source ∈ usableSources sources ↔
      source ∈ sanitizeSourceTranscripts sources ∧ source.text ≠ [] := by
  unfold usableSources sortByProvider
  rw [List.mem_insertionSort, List.mem_filter]
  simp

/-- the words a source holds decide, so wordless sources and the order do not matter -/
theorem isSourceDerived_usable {sources : List SourceTranscript} {text : Text}
    (h : isSourceDerived text (usableSources sources) = true) :
    isSourceDerived text (sanitizeSourceTranscripts sources) = true := by
  have hw : ∀ word, word ∈ (usableSources sources).flatMap (fun s => normalizedWords s.text) →
      word ∈ (sanitizeSourceTranscripts sources).flatMap (fun s => normalizedWords s.text) := by
    intro word hword
    obtain ⟨source, hs, hin⟩ := List.mem_flatMap.mp hword
    exact List.mem_flatMap.mpr ⟨source, (mem_usableSources.mp hs).1, hin⟩
  unfold isSourceDerived at h ⊢
  simp only at h ⊢
  split at h
  · rename_i hc
    rw [if_pos hc]
    simp only [Bool.and_eq_true, List.all_eq_true, List.contains_iff_mem] at h ⊢
    exact ⟨h.1, fun word hin => hw word (h.2 word hin)⟩
  · rename_i hc
    rw [if_neg hc]
    simp only [List.all_eq_true, List.contains_iff_mem, contentWords, List.mem_filter] at h ⊢
    exact fun word hin => ⟨hw word (h word hin).1, (h word hin).2⟩

/-- where a delivered text comes from -/
inductive Delivers (sources : List SourceTranscript) (text : Text) : Prop
  | source (given : SourceTranscript) (mem : given ∈ sanitizeSourceTranscripts sources)
      (eq : text = trim given.text)
  | arbitrated (incumbent other : SourceTranscript) (input : ArbitrationInput)
      (outcome : ArbitrationOutcome)
      (incumbent_mem : incumbent ∈ sanitizeSourceTranscripts sources)
      (other_mem : other ∈ sanitizeSourceTranscripts sources)
      (incumbent_text : input.incumbentText = trim incumbent.text)
      (other_text : input.otherText = trim other.text)
      (run : arbitrate input = some outcome) (eq : text = outcome.text)
  | derived (h : isSourceDerived text (sanitizeSourceTranscripts sources) = true)

theorem delivers_of_sound {sources : List SourceTranscript} {text : Text}
    (h : Sound (usableSources sources) text) : Delivers sources text := by
  rcases h.origin with ⟨given, hg, ht⟩ | hd
  · exact .source given (mem_usableSources.mp hg).1 ht
  · exact .derived (isSourceDerived_usable hd)

theorem arbitrationPair_mem {selection : TranscriptSelection} {deepgram groq : SourceTranscript}
    {pair : SourceTranscript × SourceTranscript}
    (h : arbitrationPair selection deepgram groq = some pair) :
    pair = (deepgram, groq) ∨ pair = (groq, deepgram) := by
  unfold arbitrationPair at h
  split at h
  · exact Or.inl (Option.some.inj h).symm
  · exact Or.inr (Option.some.inj h).symm
  · exact Or.inr (Option.some.inj h).symm
  all_goals cases h

/-- the arbitrated texts are the trimmed texts of two sanitized sources -/
theorem arbitrationInput_texts {decision : TranscriptDecision} {input : ArbitrationInput}
    (h : pipeline.arbitrationInput decision sources = some input) :
    ∃ incumbent ∈ sanitizeSourceTranscripts sources, ∃ other ∈ sanitizeSourceTranscripts sources,
      input.incumbentText = trim incumbent.text ∧ input.otherText = trim other.text := by
  unfold arbitrationInput at h
  obtain ⟨deepgram, hd, h⟩ := Option.bind_eq_some_iff.mp h
  obtain ⟨groq, hg, h⟩ := Option.bind_eq_some_iff.mp h
  obtain ⟨⟨incumbent, other⟩, hp, h⟩ := Option.bind_eq_some_iff.mp h
  obtain ⟨_, -, h⟩ := Option.bind_eq_some_iff.mp h
  obtain ⟨_, -, h⟩ := Option.bind_eq_some_iff.mp h
  split at h
  · cases h
  obtain rfl := Option.some.inj h
  have hd := (List.mem_filter.mp (findProvider_mem hd)).1
  have hg := (List.mem_filter.mp (findProvider_mem hg)).1
  rcases arbitrationPair_mem hp with hp | hp
  · obtain ⟨rfl, rfl⟩ := Prod.mk.inj hp
    exact ⟨_, hd, _, hg, rfl, rfl⟩
  · obtain ⟨rfl, rfl⟩ := Prod.mk.inj hp
    exact ⟨_, hg, _, hd, rfl, rfl⟩

/-- a flipped text is trimmed, as its incumbent is, and passed the guards -/
theorem qualityOk_flipped {input : ArbitrationInput} {outcome : ArbitrationOutcome} {text : Text}
    (hi : input.incumbentText = trim text) (h : arbitrate input = some outcome)
    (hf : 0 < outcome.regionsFlipped) : QualityOk outcome.text := by
  obtain ⟨incumbent, other, flips, hacc, hcases⟩ := arbitrate_cases h
  obtain ⟨-, hspec⟩ := acceptedOf_spec hacc
  rcases hcases with ⟨-, h0⟩ | ⟨he, -, -, hq⟩
  · omega
  have htrim : trim outcome.text = outcome.text := by
    have hinc : Trimmed isWhitespace (trim text) := trimMatches_trimmed _ text
    rw [← hi] at hinc
    rw [he]
    exact trimMatches_of_trimmed ⟨hspec.front hinc.1, hspec.back hinc.2⟩
  have hguards : nonContractionQualityFailureReason outcome.text input.sources = none := by
    unfold nonContractionQualityFailureReason
    rw [hq]
    rfl
  exact qualityOk_of_guards htrim hguards

/-- a flip replaces the text of a sound decision by another text of the sources -/
theorem applyConfidenceArbitration_delivers {decision : TranscriptDecision}
    (h : Sound (usableSources sources) decision.transcript) :
    QualityOk (pipeline.applyConfidenceArbitration decision sources).transcript ∧
      Delivers sources (pipeline.applyConfidenceArbitration decision sources).transcript := by
  unfold applyConfidenceArbitration
  split
  · exact ⟨h.clean, delivers_of_sound h⟩
  · rename_i outcome hrun
    obtain ⟨input, hinput, hrun⟩ := Option.bind_eq_some_iff.mp hrun
    simp only
    split
    · rename_i hflipped
      obtain ⟨incumbent, hi, other, ho, hit, hot⟩ := pipeline.arbitrationInput_texts hinput
      exact ⟨qualityOk_flipped hit hrun hflipped,
        .arbitrated incumbent other input outcome hi ho hit hot hrun rfl⟩
    · exact ⟨h.clean, delivers_of_sound h⟩

/-- **whatever the model answers, a delivered transcript is clean and comes from the sources** -/
theorem decide_delivers (pipeline : TranscriptDecisionPipeline) (sources : List SourceTranscript)
    (decision : TranscriptDecision) (h : pipeline.decide sources = .ok decision) :
    QualityOk decision.transcript ∧ Delivers sources decision.transcript := by
  unfold TranscriptDecisionPipeline.decide at h
  have hsound := pipeline.decideUncorrected_sound sources
  cases hu : pipeline.decideUncorrected sources with
  | error e => rw [hu] at h; cases h
  | ok uncorrected =>
    rw [hu] at h hsound
    obtain rfl := Except.ok.inj h
    exact pipeline.applyConfidenceArbitration_delivers hsound

/-- two sources that disagree, and a model that merges them -/
def mergingPipeline : TranscriptDecisionPipeline :=
  { model := fun kind _ _ =>
      match kind with
      | .reconcile => .merged " ship the cache before the release today ".toList
      | .repair => .deadlineElapsed
    dictionaryTerms := []
    wordConfidences := [] }

def disagreeingSources : List SourceTranscript :=
  [⟨.groq, "ship the cache before the demo".toList⟩,
    ⟨.deepgram, "chip the cash before release today. Thanks for watching!".toList⟩]

theorem decide_delivers_merge : ∃ decision,
    mergingPipeline.decide disagreeingSources = .ok decision ∧
      decision.transcript = "ship the cache before the release today".toList ∧
      QualityOk decision.transcript ∧ Delivers disagreeingSources decision.transcript := by
  have hrun : (mergingPipeline.decide disagreeingSources).toOption.map
      TranscriptDecision.transcript = some "ship the cache before the release today".toList := by
    decide +kernel
  cases h : mergingPipeline.decide disagreeingSources with
  | error e => rw [h] at hrun; cases hrun
  | ok decision =>
    rw [h] at hrun
    obtain ⟨hq, hd⟩ := decide_delivers mergingPipeline disagreeingSources decision h
    exact ⟨decision, rfl, Option.some.inj hrun, hq, hd⟩

end TranscriptDecisionPipeline
end

end Voisu.Decision
