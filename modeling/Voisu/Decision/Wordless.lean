import Mathlib
import Voisu.Decision.Correction

/-!
# No wordless transcript

A wordless text can come from a provider, from the model, from a fallback, from a flip or from a
correction.  Every exit of the decision is closed to it as soon as one source has a word.

* `normalizedWords_ne_nil`       an alphanumeric character makes a word;
* `decideUncorrected_wordful`    the exits of the selection;
* `decide_wordful`               **a decision over sources with a word delivers a word**.
-/

namespace Voisu.Decision
open Lib Arbitration Coordinator Vocabulary

/-! ## words and characters -/

theorem contractions_parts : ∀ entry ∈ contractions,
    (entry.2.map String.toList).any (fun part => !part.isEmpty) = true := by decide

theorem foldChar_alphanumeric {c : Char} (h : isAlphanumeric c = true) :
    ∃ d ∈ foldChar c, d ≠ '\'' := by
  obtain ⟨d, hd, halnum⟩ := alphanumeric_lower h
  unfold foldChar
  have hcurly : (c.toNat == 0x2019) = false := by
    rw [beq_eq_false_iff_ne]
    intro hn
    have hc : c = Char.ofNat 0x2019 := by
      rw [← hn, Char.ofNat_toNat]
    rw [hc] at h
    exact absurd h (by decide +kernel)
  rw [hcurly, if_neg Bool.false_ne_true, if_pos (by rw [h]; rfl)]
  refine ⟨d, hd, ?_⟩
  rintro rfl
  exact absurd halnum (by decide +kernel)

example : foldChar 'É' = ['é'] := by decide +kernel

theorem tokenParts_ne_nil {token : Text} (h : HasAlphanumeric token) : tokenParts token ≠ [] := by
  obtain ⟨c, hc, halnum⟩ := h
  obtain ⟨d, hd, hne⟩ := foldChar_alphanumeric halnum
  have hfold : d ∈ foldToken token := List.mem_flatMap.mpr ⟨c, hc, hd⟩
  intro hnil
  have hall := List.filter_eq_nil_iff.mp hnil
  unfold normalizeToken at hall
  dsimp only at hall
  split at hall
  · rename_i entry hentry
    obtain ⟨part, hpart, hne⟩ :=
      List.any_eq_true.mp (contractions_parts entry (List.mem_of_find?_eq_some hentry))
    exact hall part hpart hne
  · have hmem : d ∈ (foldToken token).filter fun c => c != '\'' :=
      List.mem_filter.mpr ⟨hfold, by simpa using hne⟩
    have := hall _ (List.mem_singleton_self _)
    simp only [Bool.not_eq_true', Bool.not_eq_false, List.isEmpty_iff] at this
    rw [this] at hmem
    cases hmem

/-- **an alphanumeric character makes a word** -/
theorem normalizedWords_ne_nil {text : Text} (h : HasAlphanumeric text) :
    normalizedWords text ≠ [] := by
  obtain ⟨c, hc, halnum⟩ := h
  obtain ⟨token, htoken, hct⟩ := exists_mem_words hc (alphanumeric_notWhitespace halnum)
  intro hnil
  apply tokenParts_ne_nil ⟨c, hct, halnum⟩
  exact List.flatMap_eq_nil_iff.mp hnil token htoken

/-! ## the sources -/

/-- a text with a word -/
def Wordful (text : Text) : Prop := normalizedWords text ≠ []

theorem Wordful.trim {text : Text} (h : Wordful text) : Wordful (trim text) := by
  unfold Wordful
  rw [normalizedWords_trim]
  exact h

section
variable {sources : List SourceTranscript}

theorem wordful_of_safe (source : SourceTranscript) (h : source ∈ qualitySafeSources sources) :
    Wordful (Lib.trim source.text) := by
  obtain ⟨-, hq⟩ := List.mem_filter.mp h
  obtain ⟨hwords, -⟩ := Bool.and_eq_true_iff.mp hq
  apply Wordful.trim
  intro hnil
  rw [hnil] at hwords
  cases hwords

theorem wordful_of_derived {text : Text} (h : isSourceDerived text sources = true) :
    Wordful text := by
  intro hnil
  unfold isSourceDerived at h
  rw [hnil] at h
  cases h

theorem wordful_trim_of_derived (text : Text)
    (_ : nonContractionQualityFailureReason text sources = none)
    (h : isSourceDerived text sources = true) : Wordful (Lib.trim text) :=
  (wordful_of_derived h).trim

end

/-! ## near-identical and divergent sources -/

theorem editRows_nil {α : Type} [DecidableEq α] (index : Nat) (left : List α) :
    editRows ([] : List α) index [index] left = [index + left.length] := by
  induction left generalizing index with
  | nil => rfl
  | cons a left ih =>
    rw [editRows]
    show editRows [] (index + 1) [index + 1] left = _
    rw [ih, List.length_cons]
    congr 1
    omega

theorem editDistance_nil {α : Type} [DecidableEq α] (left : List α) :
    editDistance left [] = left.length := by
  unfold editDistance
  show (editRows [] 0 [0] left).getLastD 0 = _
  rw [editRows_nil]
  exact Nat.zero_add _

theorem nil_editDistance {α : Type} [DecidableEq α] (right : List α) :
    editDistance [] right = right.length := by
  unfold editDistance
  show (List.range (right.length + 1)).getLastD 0 = _
  rw [List.range_succ]
  simp

/-- a wordless text is not similar to one with words -/
theorem similarity_wordless {n : Nat} (hn : 0 < n) :
    fsub 1 (fdiv n n) < roundF64 (85 / 100) := by
  have hdiv : ((n : ℚ) / n) = 1 := div_self (by exact_mod_cast hn.ne')
  unfold fdiv
  rw [hdiv]
  decide +kernel

theorem wordful_of_nearIdentical {left right : Text} {lexicallyIdentical : Bool}
    (h : sourcePairClassification left right = .nearIdentical lexicallyIdentical) :
    Wordful left ↔ Wordful right := by
  have hsimilar : ¬ sourceSimilarity left right < roundF64 (85 / 100) := by
    unfold sourcePairClassification at h
    split at h
    · rename_i hle
      exact not_lt.mpr hle
    · cases h
  unfold sourceSimilarity at hsimilar
  dsimp only at hsimilar
  constructor
  · intro hleft hright
    have hpos : 0 < (normalizedWords left).length := List.length_pos_iff.mpr hleft
    rw [hright, List.length_nil, Nat.max_zero, if_neg hpos.ne', wordEditDistance,
      editDistance_nil] at hsimilar
    exact hsimilar (similarity_wordless hpos)
  · intro hright hleft
    have hpos : 0 < (normalizedWords right).length := List.length_pos_iff.mpr hright
    rw [hleft, List.length_nil, Nat.zero_max, if_neg hpos.ne', wordEditDistance,
      nil_editDistance] at hsimilar
    exact hsimilar (similarity_wordless hpos)

theorem wordful_of_gate {left right : Text} {gate : QualityGate}
    (h : sourceQualityGate left right = some gate) : Wordful (gate.winner.pick left right) := by
  unfold sourceQualityGate at h
  dsimp only at h
  by_cases hfewer : min (normalizedWords left).length (normalizedWords right).length = 0
  · rw [if_pos hfewer] at h
    split at h
    · cases h
    · rename_i hmore
      obtain rfl := Option.some.inj h
      show Wordful (GateWinner.pick (if (normalizedWords left).isEmpty then .right else .left)
        left right)
      split
      · rename_i hleft
        intro hright
        have hleft : normalizedWords left = [] := List.isEmpty_iff.mp hleft
        rw [hleft, show normalizedWords right = [] from hright] at hmore
        exact hmore rfl
      · rename_i hleft
        intro hnil
        exact hleft (List.isEmpty_iff.mpr hnil)
  · have hleft : Wordful left := by
      intro hnil
      rw [hnil] at hfewer
      exact hfewer (Nat.zero_min _)
    have hright : Wordful right := by
      intro hnil
      rw [hnil] at hfewer
      exact hfewer (Nat.min_zero _)
    rcases gate.winner.pick_or left right with hpick | hpick <;> rw [hpick] <;> assumption

/-! ## the exits of the selection -/

namespace TranscriptDecisionPipeline
variable (pipeline : TranscriptDecisionPipeline) {sources : List SourceTranscript}

theorem repairCandidate_wordful (candidate reason : Text) (requested : Bool) :
    Holds Wordful (pipeline.repairCandidate sources candidate reason requested) :=
  repairCandidate_holds wordful_of_safe pipeline wordful_trim_of_derived _ _ _

theorem reconcile_wordful : Holds Wordful (pipeline.reconcile sources) :=
  reconcile_holds wordful_of_safe pipeline wordful_trim_of_derived

theorem decideNearIdentical_wordful {deepgram groq : SourceTranscript}
    (hd : Wordful deepgram.text) (hg : Wordful groq.text) (lexicallyIdentical : Bool) :
    Holds Wordful (pipeline.decideNearIdentical sources deepgram groq lexicallyIdentical) := by
  unfold decideNearIdentical
  generalize (if lexicallyIdentical then
    nearIdenticalSelection deepgram.text groq.text pipeline.dictionaryTerms else _) = choice
  obtain ⟨winner, evidence⟩ := choice
  dsimp only
  split
  · exact pipeline.repairCandidate_wordful _ _ _
  · show Wordful (trim (winner.pick deepgram groq).text)
    apply Wordful.trim
    rcases winner.pick_or deepgram groq with h | h <;> rw [h] <;> assumption

theorem decideDivergent_wordful (deepgram groq : SourceTranscript) :
    Holds Wordful (pipeline.decideDivergent sources deepgram groq) := by
  unfold decideDivergent
  split
  · exact pipeline.reconcile_wordful
  · rename_i gate hgate
    dsimp only
    split
    · have hwordful := wordful_of_gate hgate
      show Wordful (trim (gate.winner.pick deepgram groq).text)
      apply Wordful.trim
      cases hw : gate.winner <;> rw [hw] at hwordful <;> exact hwordful
    · exact pipeline.reconcile_wordful

theorem decideSingle_wordful {source : SourceTranscript} (h : Wordful source.text) :
    Holds Wordful (pipeline.decideSingle sources source) := by
  unfold decideSingle
  split
  · exact pipeline.repairCandidate_wordful _ _ _
  · exact h.trim

theorem OnePerProvider.usable (h : OnePerProvider sources) :
    OnePerProvider (usableSources sources) := by
  have hperm : (usableSources sources).Perm
      ((sanitizeSourceTranscripts sources).filter fun source => !source.text.isEmpty) :=
    List.perm_insertionSort _ _
  exact (hperm.map _).nodup_iff.mpr h.sanitized

theorem findProvider_provider {provider : Provider} {source : SourceTranscript}
    (h : findProvider provider sources = some source) : source.provider = provider := by
  have := List.find?_some h
  exact beq_iff_eq.mp this

/-- a source is found under its provider -/
theorem findProvider_of_mem (hone : OnePerProvider sources) {source : SourceTranscript}
    (h : source ∈ sources) : findProvider source.provider sources = some source := by
  cases hf : findProvider source.provider sources with
  | none => exact absurd (beq_self_eq_true source.provider) (List.find?_eq_none.mp hf source h)
  | some found =>
    congr 1
    exact hone.eq_of_provider (findProvider_mem hf) h (findProvider_provider hf)

/-- **every exit of the selection delivers a word** -/
theorem decideUncorrected_wordful (hone : OnePerProvider sources) {source : SourceTranscript}
    (hs : source ∈ sanitizeSourceTranscripts sources) (hw : Wordful source.text) :
    Holds Wordful (pipeline.decideUncorrected sources) := by
  have husable : source ∈ usableSources sources := by
    apply mem_usableSources.mpr
    refine ⟨hs, ?_⟩
    intro hnil
    rw [hnil] at hw
    exact hw rfl
  have hone := OnePerProvider.usable hone
  have hfound := findProvider_of_mem hone husable
  unfold decideUncorrected
  dsimp only
  split
  · rename_i deepgram groq hd hg
    have heither : Wordful deepgram.text ∨ Wordful groq.text := by
      cases hp : source.provider with
      | deepgram =>
        rw [hp, hd] at hfound
        rw [Option.some.inj hfound]
        exact Or.inl hw
      | groq =>
        rw [hp, hg] at hfound
        rw [Option.some.inj hfound]
        exact Or.inr hw
    split
    · rename_i lexicallyIdentical hclass
      have hiff := wordful_of_nearIdentical hclass
      have hboth : Wordful deepgram.text ∧ Wordful groq.text := by
        rcases heither with h | h
        · exact ⟨h, hiff.mp h⟩
        · exact ⟨hiff.mpr h, h⟩
      exact pipeline.decideNearIdentical_wordful hboth.1 hboth.2 _
    · exact pipeline.decideDivergent_wordful _ _
  · rename_i hmissing
    split
    · trivial
    · rename_i first rest hlist
      have hfirst : first ∈ usableSources sources := by
        rw [hlist]
        exact List.mem_cons_self
      have hfirstFound := findProvider_of_mem hone hfirst
      -- two sources would be two providers, and both would have been found
      have hsame : source = first := by
        apply hone.eq_of_provider husable hfirst
        cases hp : source.provider <;> cases hq : first.provider
        · rfl
        · rw [hp] at hfound
          rw [hq] at hfirstFound
          exact absurd hfirstFound (hmissing _ _ hfound)
        · rw [hp] at hfound
          rw [hq] at hfirstFound
          exact absurd hfound (hmissing _ _ hfirstFound)
        · rfl
      exact pipeline.decideSingle_wordful (hsame ▸ hw)

theorem applyConfidenceArbitration_wordful {decision : TranscriptDecision}
    (h : Wordful decision.transcript) :
    Wordful (pipeline.applyConfidenceArbitration decision sources).transcript := by
  unfold applyConfidenceArbitration
  split
  · exact h
  · rename_i outcome hrun
    obtain ⟨input, -, hrun⟩ := Option.bind_eq_some_iff.mp hrun
    dsimp only
    split
    · rename_i hflipped
      obtain ⟨_, _, _, -, ⟨-, h0⟩ | ⟨-, -, hderived, -⟩⟩ := arbitrate_cases hrun
      · omega
      · exact wordful_of_derived hderived
    · exact h

end TranscriptDecisionPipeline

theorem VocabularyPipeline.applyUserVocabularyCorrection_wordful (pipeline : VocabularyPipeline)
    {decision : TranscriptDecision} (h : Wordful decision.transcript) :
    Wordful (pipeline.applyUserVocabularyCorrection decision).transcript := by
  unfold applyUserVocabularyCorrection
  split
  · exact h
  · dsimp only
    split
    · rename_i hchanged
      rcases applyUserVocabulary_alphanumeric decision.transcript pipeline.userVocabulary
        (pipeline.correctionEvidence decision.selection) with heq | halnum
      · exact absurd heq hchanged
      · exact normalizedWords_ne_nil halnum
    · exact h

/-- **a decision over sources with a word delivers a word** -/
theorem VocabularyPipeline.decide_wordful (pipeline : VocabularyPipeline)
    (sources : List SourceTranscript) (hone : OnePerProvider sources)
    (hword : ∃ source ∈ sanitizeSourceTranscripts sources, normalizedWords source.text ≠ [])
    (decision : TranscriptDecision) (h : pipeline.decide sources = .ok decision) :
    normalizedWords decision.transcript ≠ [] := by
  obtain ⟨source, hs, hw⟩ := hword
  unfold VocabularyPipeline.decide TranscriptDecisionPipeline.decide at h
  have huncorrected := pipeline.decideUncorrected_wordful hone hs hw
  cases hu : pipeline.decideUncorrected sources with
  | error e =>
    rw [hu] at h
    cases h
  | ok uncorrected =>
    rw [hu] at h huncorrected
    obtain rfl := Except.ok.inj h
    apply pipeline.applyUserVocabularyCorrection_wordful
    exact pipeline.applyConfidenceArbitration_wordful huncorrected

/-- a provider that heard nothing but a mark -/
def oneWordlessSource : List SourceTranscript :=
  [⟨.groq, "...".toList⟩, ⟨.deepgram, "ship the CACHE".toList⟩]

theorem VocabularyPipeline.decide_wordful_oneWordless : ∃ decision,
    mergingVocabulary.decide oneWordlessSource = .ok decision ∧
      normalizedWords decision.transcript ≠ [] := by
  have hrun : (mergingVocabulary.decide oneWordlessSource).isOk = true := by decide +kernel
  cases h : mergingVocabulary.decide oneWordlessSource with
  | error e =>
    rw [h] at hrun
    cases hrun
  | ok decision =>
    refine ⟨decision, rfl, ?_⟩
    exact mergingVocabulary.decide_wordful oneWordlessSource (by unfold OnePerProvider; decide)
      ⟨⟨.deepgram, "ship the CACHE".toList⟩, by decide +kernel, by decide +kernel⟩ decision h

end Voisu.Decision
