import Mathlib
import Voisu.Decision.Words
import Voisu.Lib.F64

/-!
# Outros and quality guards

* `sanitizeSourceTranscriptText`    a source without its anchored outro hallucinations;
* `qualityFailureReason`            the guards that a delivered text passes;
* `QualityOk`                       what a text that passes them is known not to contain.
-/

namespace Voisu.Decision
open Lib

/-! ## anchored outros -/

def hallucinatedSuffixes : List Text :=
  ["thank you for watching", "thanks for watching", "like and subscribe", "subtitles by",
    "transcribed by"].map String.toList

def notAlphanumeric (c : Char) : Bool := !isAlphanumeric c

def isTerminator (c : Char) : Bool := c == '.' || c == '?' || c == '!'

/-- the text after the last terminator that whitespace follows, and the text up to there -/
def splitFinalSentence : Text → Text × Text
  | [] => ([], [])
  | c :: s =>
    let rest := splitFinalSentence s
    -- a later terminator wins over this one
    if !rest.1.isEmpty then (c :: rest.1, rest.2)
    else if isTerminator c && (s.head?.any isWhitespace) then ([c], s)
    else ([], c :: s)

/-- `body[final_sentence_content_start(body)..]`; a tail without alphanumerics is kept whole -/
def finalSentenceContent (body : Text) : Text :=
  let tail := (splitFinalSentence body).2
  let content := trimStartMatches notAlphanumeric tail
  if content.isEmpty then tail else content

def finalSentence (text : Text) : Text :=
  trimStartMatches notAlphanumeric (finalSentenceContent (trimEndMatches notAlphanumeric text))

def hasAnchoredHallucinatedOutro (text : Text) : Bool :=
  let trimmed := trim text
  if trimmed.isEmpty then false
  else
    let lower := toLowercase trimmed
    let tail := trimEndMatches notAlphanumeric lower
    let outro := finalSentence lower
    hallucinatedSuffixes.any fun suffix => startsWith outro suffix || endsWith tail suffix

def stripOneAnchoredHallucinatedOutro (text : Text) : Option Text :=
  let trimmed := trim text
  if trimmed.isEmpty then none
  else
    let body := trimEndMatches notAlphanumeric trimmed
    if body.isEmpty then none
    else
      let finalLower := toLowercase (finalSentenceContent body)
      if hallucinatedSuffixes.any fun suffix => startsWith finalLower suffix then
        some (trimEnd (splitFinalSentence body).1)
      else
        let bodyLower := toLowercase body
        (hallucinatedSuffixes.find? fun suffix =>
            endsWith bodyLower suffix && suffix.length ≤ body.length).map fun suffix =>
          trimEnd (body.take (body.length - suffix.length))

theorem length_trimMatches_le {α : Type} (p : α → Bool) (s : List α) :
    (trimMatches p s).length ≤ s.length := by
  obtain ⟨g, g', h, -, -⟩ := trimMatches_split p s
  have := congrArg List.length h
  simp only [List.length_append] at this
  omega

theorem length_trimEndMatches_le {α : Type} (p : α → Bool) (s : List α) :
    (trimEndMatches p s).length ≤ s.length := by
  obtain ⟨g, h, -, -⟩ := trimEndMatches_split p s
  have := congrArg List.length h
  simp only [List.length_append] at this
  omega

theorem splitFinalSentence_append (s : Text) :
    (splitFinalSentence s).1 ++ (splitFinalSentence s).2 = s := by
  induction s with
  | nil => rfl
  | cons c s ih =>
    unfold splitFinalSentence
    simp only
    split
    · rw [List.cons_append, ih]
    · split
      · rfl
      · rfl

/-- the last terminator is followed by whitespace, so text remains after it -/
theorem splitFinalSentence_snd_ne_nil {s : Text} (hs : s ≠ []) : (splitFinalSentence s).2 ≠ [] := by
  induction s with
  | nil => exact absurd rfl hs
  | cons c s ih =>
    unfold splitFinalSentence
    simp only
    split
    · rename_i h
      apply ih
      intro h0
      rw [h0] at h
      exact absurd h (by simp [splitFinalSentence])
    · split
      · rename_i h
        intro h0
        simp only at h0
        rw [h0] at h
        exact absurd h (by simp)
      · simp

theorem suffix_ne_nil : ∀ suffix ∈ hallucinatedSuffixes, suffix ≠ [] := by decide

/-- **a strip makes the text shorter** -/
theorem stripOne_length_lt {text stripped : Text}
    (h : stripOneAnchoredHallucinatedOutro text = some stripped) :
    stripped.length < text.length := by
  unfold stripOneAnchoredHallucinatedOutro at h
  simp only at h
  split at h
  · cases h
  · split at h
    · cases h
    · rename_i hne
      have hb : trimEndMatches notAlphanumeric (trim text) ≠ [] := by simpa using hne
      generalize hbody : trimEndMatches notAlphanumeric (trim text) = body at h hb
      have h1 : body.length ≤ text.length := by
        rw [← hbody]
        exact le_trans (length_trimEndMatches_le _ _) (length_trimMatches_le _ _)
      split at h
      · obtain rfl := Option.some.inj h
        have h2 := length_trimEndMatches_le isWhitespace (splitFinalSentence body).1
        have h3 := congrArg List.length (splitFinalSentence_append body)
        have h4 := List.length_pos_iff.mpr (splitFinalSentence_snd_ne_nil hb)
        rw [List.length_append] at h3
        unfold trimEnd
        omega
      · obtain ⟨suffix, hs, rfl⟩ := Option.map_eq_some_iff.mp h
        have h2 := length_trimEndMatches_le isWhitespace
          (body.take (body.length - suffix.length))
        have h3 := List.length_pos_iff.mpr (suffix_ne_nil suffix (List.mem_of_find?_eq_some hs))
        have h4 := List.length_pos_iff.mpr hb
        rw [List.length_take] at h2
        unfold trimEnd
        omega

def trivialOutroPrefixes : List String :=
  ["please", "thanks", "thank", "hi", "hello", "hey", "bye", "alright", "oh"]

def remainderIsSubstantialSpeech (text : Text) : Bool :=
  let words := normalizedWords text
  if words.isEmpty then false
  else if words.any fun word =>
      !isStopword word && !trivialOutroPrefixes.any fun lead => lead.toList == word then true
  else 3 ≤ words.length

/-- strip outros until none is left, and tell whether one was -/
def stripOutros (current : Text) : Text × Bool :=
  match h : stripOneAnchoredHallucinatedOutro current with
  | some stripped => ((stripOutros stripped).1, true)
  | none => (current, false)
termination_by current.length
decreasing_by exact stripOne_length_lt h

def sanitizeSourceTranscriptText (text : Text) : Text :=
  let result := stripOutros (trim text)
  if result.2 && !remainderIsSubstantialSpeech result.1 then [] else result.1

def sanitizeSourceTranscripts (sources : List SourceTranscript) : List SourceTranscript :=
  sources.map fun source =>
    { provider := source.provider, text := sanitizeSourceTranscriptText source.text }

/-! ## scripts -/

inductive ConfusableScript where
  | latin
  | greek
  | cyrillic
deriving DecidableEq, Repr

def confusableScript (c : Char) : Option ConfusableScript :=
  if inRange c 0x0041 0x024f || inRange c 0x1e00 0x1eff || inRange c 0x2c60 0x2c7f ||
      inRange c 0xa720 0xa7ff || inRange c 0xab30 0xab6f || inRange c 0x10780 0x107bf ||
      inRange c 0x1df00 0x1dfff then some .latin
  else if inRange c 0x0370 0x03ff || inRange c 0x1f00 0x1fff then some .greek
  else if inRange c 0x0400 0x052f || inRange c 0x1c80 0x1c8f || inRange c 0x2de0 0x2dff ||
      inRange c 0xa640 0xa69f || inRange c 0x1e030 0x1e08f then some .cyrillic
  else none

def tokenMixesConfusableScripts (token : Text) : Bool :=
  let scripts := (token.filter isAlphabetic).filterMap confusableScript
  2 ≤ scripts.dedup.length

/-- seven classes: the confusable scripts, Arabic, Devanagari, Japanese/CJK and the rest -/
def scriptIndex (c : Char) : Nat :=
  match confusableScript c with
  | some .latin => 0
  | some .greek => 1
  | some .cyrillic => 2
  | none =>
    if inRange c 0x0600 0x06ff then 3
    else if inRange c 0x0900 0x097f then 4
    else if inRange c 0x3040 0x30ff || inRange c 0x3400 0x9fff then 5
    else 6

def scriptCount (text : Text) : Nat := ((text.filter isAlphabetic).map scriptIndex).dedup.length

/-! ## the quality guards -/

def mergeContractionRatioFloor : ℚ := roundF64 (90 / 100)

inductive QualityFailure where
  | other (reason : String)
  | contraction (ratio : ℚ) (candidateWords sourceWords : Nat)
deriving DecidableEq, Repr

def QualityFailure.isContraction : QualityFailure → Bool
  | .other _ => false
  | .contraction .. => true

def promptArtifacts : List Text :=
  ["ignore previous instructions", "ignore all instructions", "system:", "assistant:",
    "<|system|>", "<|assistant|>", "### instruction"].map String.toList

def metaReasoning : List Text :=
  ["i think the user said", "the user said", "my final answer", "here is the transcript",
    "here is the reconciled", "based on the source"].map String.toList

def maxCandidateBytes : Nat := 100000

def hasPromptArtifact (trimmed : Text) : Bool :=
  promptArtifacts.any fun artifact => contains (toLowercase trimmed) artifact

def hasMetaReasoning (trimmed : Text) : Bool :=
  let preamble := trimStartMatches notAlphanumeric (toLowercase trimmed)
  metaReasoning.any fun artifact => startsWith preamble artifact

def hasMixedScripts (trimmed : Text) : Bool :=
  3 ≤ scriptCount trimmed || (splitWhitespace trimmed).any tokenMixesConfusableScripts

def longestSourceWords (sources : List SourceTranscript) : Nat :=
  (sources.map fun source => (normalizedWords source.text).length).foldl max 0

/-- the guards on the number of words; `usize` counts stay far below saturation -/
def lengthFailure (candidateWords : Nat) (sources : List SourceTranscript) :
    Option QualityFailure :=
  let sourceWords := longestSourceWords sources
  if 0 < sourceWords then
    let ratio := fdiv candidateWords sourceWords
    if 2 ≤ sources.length && ratio < mergeContractionRatioFloor then
      some (.contraction ratio candidateWords sourceWords)
    else if sourceWords * 2 + 8 < candidateWords then some (.other "suspicious expansion")
    else none
  else none

def qualityFailureReason (candidate : Text) (sources : List SourceTranscript) :
    Option QualityFailure :=
  let trimmed := trim candidate
  if trimmed.isEmpty || trimmed.contains '\x00' || maxCandidateBytes < byteLen trimmed then
    some (.other "invalid candidate text")
  else if hasPromptArtifact trimmed then some (.other "prompt artifact")
  else if hasMetaReasoning trimmed then some (.other "meta-reasoning")
  else if hasAnchoredHallucinatedOutro trimmed then some (.other "hallucinated suffix")
  else if hasMixedScripts trimmed then some (.other "mixed-script garbage")
  else lengthFailure (normalizedWords trimmed).length sources

/-- the guards without the contraction floor -/
def nonContractionQualityFailureReason (candidate : Text) (sources : List SourceTranscript) :
    Option QualityFailure :=
  (qualityFailureReason candidate sources).filter fun failure => !failure.isContraction

theorem qualityFailureReason_trim (candidate : Text) (sources : List SourceTranscript) :
    qualityFailureReason (trim candidate) sources = qualityFailureReason candidate sources := by
  unfold qualityFailureReason
  rw [trim_trim]

/-- what is known of a text that passes the guards -/
structure QualityOk (text : Text) : Prop where
  nonblank : trim text ≠ []
  noNul : '\x00' ∉ text
  noArtifact : hasPromptArtifact text = false
  noOutro : hasAnchoredHallucinatedOutro text = false
  noMixedToken : (splitWhitespace text).any tokenMixesConfusableScripts = false
  bounded : byteLen text ≤ maxCandidateBytes

/-- **a trimmed text that passes the guards, the floor apart, is clean** -/
theorem qualityOk_of_guards {text : Text} {sources : List SourceTranscript} (ht : trim text = text)
    (h : nonContractionQualityFailureReason text sources = none) : QualityOk text := by
  unfold nonContractionQualityFailureReason qualityFailureReason at h
  simp only [ht] at h
  by_cases h1 : (text.isEmpty || text.contains '\x00' || maxCandidateBytes < byteLen text) = true
  · rw [if_pos h1] at h; cases h
  rw [if_neg h1] at h
  by_cases h2 : hasPromptArtifact text = true
  · rw [if_pos h2] at h; cases h
  rw [if_neg h2] at h
  by_cases h3 : hasMetaReasoning text = true
  · rw [if_pos h3] at h; cases h
  rw [if_neg h3] at h
  by_cases h4 : hasAnchoredHallucinatedOutro text = true
  · rw [if_pos h4] at h; cases h
  rw [if_neg h4] at h
  by_cases h5 : hasMixedScripts text = true
  · rw [if_pos h5] at h; cases h
  simp only [Bool.or_eq_true, decide_eq_true_eq, not_or, not_lt, List.isEmpty_iff,
    List.contains_iff_mem] at h1
  simp only [hasMixedScripts, Bool.or_eq_true, not_or] at h5
  exact ⟨by rw [ht]; exact h1.1.1, h1.1.2, by simpa using h2, by simpa using h4,
    by simpa using h5.2, h1.2⟩

theorem nonContraction_trim (candidate : Text) (sources : List SourceTranscript) :
    nonContractionQualityFailureReason (trim candidate) sources =
      nonContractionQualityFailureReason candidate sources := by
  unfold nonContractionQualityFailureReason
  rw [qualityFailureReason_trim]

theorem qualityOk_trim {text : Text} {sources : List SourceTranscript}
    (h : nonContractionQualityFailureReason text sources = none) : QualityOk (trim text) :=
  qualityOk_of_guards (trim_trim text) (by rw [nonContraction_trim]; exact h)

end Voisu.Decision
