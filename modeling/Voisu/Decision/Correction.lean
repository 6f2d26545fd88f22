import Mathlib
import Voisu.Decision.Pipeline
import Voisu.Vocabulary

/-!
# The pipeline with a user vocabulary

The vocabulary correction comes last, on whatever text was selected and arbitrated.  It reads the
word confidences of the Deepgram source, and only when that source was delivered.

* `VocabularyPipeline.decide`   the decision, arbitrated and corrected;
* `OnePerProvider`              at most one source for each provider;
* `decide_perm`                 **the order in which the sources arrive does not matter**.
-/

namespace Voisu.Decision
open Lib Arbitration Coordinator Vocabulary

structure VocabularyPipeline extends TranscriptDecisionPipeline where
  userVocabulary : List Text

namespace VocabularyPipeline
variable (pipeline : VocabularyPipeline)

/-- the evidence that a correction may read -/
def correctionEvidence (selection : TranscriptSelection) : Evidence :=
  match selection with
  | .sourceDeepgram => (pipeline.evidenceOf .deepgram).getD []
  | _ => []

def applyUserVocabularyCorrection (decision : TranscriptDecision) : TranscriptDecision :=
  if pipeline.userVocabulary.isEmpty then decision
  else
    let corrected := applyUserVocabulary decision.transcript pipeline.userVocabulary
      (pipeline.correctionEvidence decision.selection)
    if corrected ≠ decision.transcript then
      { decision with
        transcript := corrected
        validationReason :=
          decision.validationReason ++ "; user vocabulary corrections applied".toList }
    else decision

def decide (sources : List SourceTranscript) : Except BoundaryError TranscriptDecision :=
  (pipeline.toTranscriptDecisionPipeline.decide sources).map pipeline.applyUserVocabularyCorrection

end VocabularyPipeline

/-! ## guards and the order of the sources -/

def OnePerProvider (sources : List SourceTranscript) : Prop :=
  (sources.map SourceTranscript.provider).Nodup

section
variable {sources sources' : List SourceTranscript}

theorem OnePerProvider.eq_of_provider (h : OnePerProvider sources) {a b : SourceTranscript}
    (ha : a ∈ sources) (hb : b ∈ sources) (hab : a.provider = b.provider) : a = b :=
  List.inj_on_of_nodup_map h ha hb hab

theorem isSourceDerived_perm (h : sources.Perm sources') (candidate : Text) :
    isSourceDerived candidate sources = isSourceDerived candidate sources' := by
  have hwords : ∀ word, (sources.flatMap fun s => normalizedWords s.text).contains word =
      (sources'.flatMap fun s => normalizedWords s.text).contains word := by
    intro word
    rw [Bool.eq_iff_iff, List.contains_iff_mem, List.contains_iff_mem]
    exact (h.flatMap_right _).mem_iff
  have hcontent : ∀ word,
      (contentWords (sources.flatMap fun s => normalizedWords s.text)).contains word =
        (contentWords (sources'.flatMap fun s => normalizedWords s.text)).contains word := by
    intro word
    rw [Bool.eq_iff_iff, List.contains_iff_mem, List.contains_iff_mem]
    exact ((h.flatMap_right _).filter _).mem_iff
  unfold isSourceDerived
  simp only [hwords, hcontent]

theorem longestSourceWords_perm (h : sources.Perm sources') :
    longestSourceWords sources = longestSourceWords sources' := by
  unfold longestSourceWords
  apply (h.map _).foldl_eq'
  intro x _ y _ z
  omega

theorem qualityFailureReason_perm (h : sources.Perm sources') (candidate : Text) :
    qualityFailureReason candidate sources = qualityFailureReason candidate sources' := by
  unfold qualityFailureReason lengthFailure
  rw [longestSourceWords_perm h, h.length_eq]

theorem arbitrate_perm (h : sources.Perm sources') (input : ArbitrationInput) :
    arbitrate { input with sources } = arbitrate { input with sources := sources' } := by
  unfold arbitrate
  simp only [isSourceDerived_perm h, qualityFailureReason_perm h]

/-! ## the sources as the decision sees them -/

theorem sanitizeSourceTranscripts_perm (h : sources.Perm sources') :
    (sanitizeSourceTranscripts sources).Perm (sanitizeSourceTranscripts sources') := h.map _

theorem OnePerProvider.sanitized (h : OnePerProvider sources) :
    OnePerProvider ((sanitizeSourceTranscripts sources).filter fun source =>
      !source.text.isEmpty) := by
  have hproviders : (sanitizeSourceTranscripts sources).map SourceTranscript.provider =
      sources.map SourceTranscript.provider := by
    unfold sanitizeSourceTranscripts
    rw [List.map_map]
    rfl
  have hall : OnePerProvider (sanitizeSourceTranscripts sources) := by
    unfold OnePerProvider
    rw [hproviders]
    exact h
  exact hall.sublist (List.Sublist.map _ List.filter_sublist)

theorem sortByProvider_perm (hone : OnePerProvider sources) (h : sources.Perm sources') :
    sortByProvider SourceTranscript.provider sources =
      sortByProvider SourceTranscript.provider sources' := by
  have hsort : ∀ l : List SourceTranscript,
      (sortByProvider SourceTranscript.provider l).Perm l := List.perm_insertionSort _
  have hpair : ∀ l : List SourceTranscript,
      (sortByProvider SourceTranscript.provider l).Pairwise
        fun a b => a.provider.rank ≤ b.provider.rank := by
    intro l
    have : Std.Total (α := SourceTranscript) fun a b => a.provider.rank ≤ b.provider.rank :=
      ⟨fun a b => Nat.le_total _ _⟩
    have : IsTrans SourceTranscript fun a b => a.provider.rank ≤ b.provider.rank :=
      ⟨fun a b c => Nat.le_trans⟩
    exact List.pairwise_insertionSort _ l
  refine List.Perm.eq_of_pairwise ?_ (hpair sources) (hpair sources')
    ((hsort _).trans (h.trans (hsort _).symm))
  intro a b ha hb hab hba
  apply hone.eq_of_provider ((hsort _).mem_iff.mp ha) (h.mem_iff.mpr ((hsort _).mem_iff.mp hb))
  revert hab hba
  cases a.provider <;> cases b.provider <;> simp [Provider.rank]

theorem findProvider_perm (hone : OnePerProvider sources) (h : sources.Perm sources')
    (provider : Provider) :
    TranscriptDecisionPipeline.findProvider provider sources =
      TranscriptDecisionPipeline.findProvider provider sources' := by
  unfold TranscriptDecisionPipeline.findProvider
  cases hf : sources.find? fun source => source.provider == provider with
  | none =>
    symm
    rw [List.find?_eq_none] at hf ⊢
    exact fun source hs => hf source (h.mem_iff.mpr hs)
  | some a =>
    cases hf' : sources'.find? fun source => source.provider == provider with
    | none =>
      rw [List.find?_eq_none] at hf'
      exact absurd (List.find?_some hf) (hf' a (h.mem_iff.mp (List.mem_of_find?_eq_some hf)))
    | some b =>
      have ha : a.provider = provider := by
        have := List.find?_some hf
        exact beq_iff_eq.mp this
      have hb : b.provider = provider := by
        have := List.find?_some hf'
        exact beq_iff_eq.mp this
      congr 1
      exact hone.eq_of_provider (List.mem_of_find?_eq_some hf)
        (h.mem_iff.mpr (List.mem_of_find?_eq_some hf')) (ha.trans hb.symm)

/-! ## the order law -/

namespace TranscriptDecisionPipeline
variable (pipeline : TranscriptDecisionPipeline)

theorem usableSources_perm (hone : OnePerProvider sources) (h : sources.Perm sources') :
    usableSources sources = usableSources sources' :=
  sortByProvider_perm hone.sanitized ((sanitizeSourceTranscripts_perm h).filter _)

theorem decideUncorrected_perm (hone : OnePerProvider sources) (h : sources.Perm sources') :
    pipeline.decideUncorrected sources = pipeline.decideUncorrected sources' := by
  unfold decideUncorrected
  rw [usableSources_perm hone h]

/-- the inputs agree but for the order of the sources -/
theorem arbitrationInput_perm (hone : OnePerProvider sources) (h : sources.Perm sources')
    (decision : TranscriptDecision) :
    (pipeline.arbitrationInput decision sources).bind arbitrate =
      (pipeline.arbitrationInput decision sources').bind arbitrate := by
  have hperm := (sanitizeSourceTranscripts_perm h).filter fun source => !source.text.isEmpty
  unfold arbitrationInput
  dsimp only
  rw [findProvider_perm hone.sanitized hperm, findProvider_perm hone.sanitized hperm]
  simp only [Option.bind_eq_bind, Option.bind_assoc]
  congr 1
  funext deepgram
  congr 1
  funext groq
  congr 1
  funext pair
  congr 1
  funext incumbentEvidence
  congr 1
  funext otherEvidence
  split
  · rfl
  · exact arbitrate_perm hperm
      { incumbentText := trim pair.1.text
        incumbentConfidences := incumbentEvidence
        otherText := trim pair.2.text
        otherConfidences := otherEvidence
        sources := [] }

theorem applyConfidenceArbitration_perm (hone : OnePerProvider sources)
    (h : sources.Perm sources') (decision : TranscriptDecision) :
    pipeline.applyConfidenceArbitration decision sources =
      pipeline.applyConfidenceArbitration decision sources' := by
  unfold applyConfidenceArbitration
  rw [pipeline.arbitrationInput_perm hone h]

end TranscriptDecisionPipeline

/-- **the order in which the sources arrive does not matter** -/
theorem VocabularyPipeline.decide_perm (pipeline : VocabularyPipeline)
    (sources sources' : List SourceTranscript) (hone : OnePerProvider sources)
    (h : sources.Perm sources') : pipeline.decide sources = pipeline.decide sources' := by
  unfold VocabularyPipeline.decide TranscriptDecisionPipeline.decide
  rw [pipeline.decideUncorrected_perm hone h]
  congr 2
  funext decision
  exact pipeline.applyConfidenceArbitration_perm hone h decision

def mergingVocabulary : VocabularyPipeline :=
  { TranscriptDecisionPipeline.mergingPipeline with userVocabulary := ["CaChe".toList] }

theorem VocabularyPipeline.decide_perm_disagreeing :
    mergingVocabulary.decide TranscriptDecisionPipeline.disagreeingSources =
      mergingVocabulary.decide TranscriptDecisionPipeline.disagreeingSources.reverse :=
  mergingVocabulary.decide_perm _ _ (by unfold OnePerProvider; decide)
    (List.reverse_perm _).symm

end

end Voisu.Decision
