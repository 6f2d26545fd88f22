import Mathlib
import Voisu.Baseline.Tokens
import Voisu.Lib.Casing
import Voisu.Lib.F64

/-!
# User vocabulary

The correction of a final transcript with the terms of the user dictionary: the words of a term,
found as whole tokens whatever their case, are written as the user wrote the term, in the case of
the words they replace.

* `VocabularyTerm.parse`        the terms that take part;
* `termMatchesAt`               the places of one term, with the evidence for each;
* `applyUserVocabulary`         the leftmost longest matches, replaced;
* `applyUserVocabulary_alphanumeric`   **a text that is changed holds an alphanumeric character**.
-/

namespace Voisu.Vocabulary
open Lib Baseline

def confidentWordSkipThreshold : F64 := .finite (roundF64 (9 / 10))
def userVocabularyTermLimit : Nat := 200

/-! ## runs and terms -/

def alphanumericRuns (text : Text) : List (Run Char) := runs isAlphanumeric 0 text

def lowered (run : Run Char) : Text := toLowercase run.text

structure VocabularyTerm where
  original : Text
  runs : List Text
  separators : List Char
deriving DecidableEq, Repr

/-- a term begins and ends with an alphanumeric character -/
def VocabularyTerm.parse (term : Text) : Option VocabularyTerm :=
  let trimmed := trim term
  if !(trimmed.head?.any isAlphanumeric && trimmed.getLast?.any isAlphanumeric) then none
  else
    let runs := (alphanumericRuns trimmed).map lowered
    if runs.isEmpty then none
    else
      some
        { original := trimmed
          runs
          separators := trimmed.filter fun c => !isAlphanumeric c }

def isSentenceTerminal (c : Char) : Bool := c == '.' || c == '!' || c == '?'

/-- `text[start..stop]`; the offsets are those of runs of the text -/
def between (text : Text) (start stop : Nat) : Text := (slice start stop text).getD []

def separatorsAllowed (text : Text) (window : List (Run Char)) (separators : List Char) : Bool :=
  (window.zip window.tail).all fun pair =>
    (between text pair.1.stop pair.2.start).all fun c =>
      !isSentenceTerminal c && (isWhitespace c || separators.contains c)

/-- the ranges of masked tokens -/
def maskedRanges (text : Text) : List (Nat × Nat) :=
  let tokens := wordTokens text
  let quoteSkip := (quotePairsAndSkip tokens).2
  let mentioned := metalinguisticMask tokens
  ((tokens.zip (quoteSkip.zip mentioned)).filter fun entry => entry.2.1 || entry.2.2).map
    fun entry => (entry.1.start, entry.1.stop)

/-! ## evidence -/

def confidenceRuns (wordConfidences : List (Text × F64)) : List (Text × F64) :=
  wordConfidences.flatMap fun entry => (alphanumericRuns entry.1).map fun run => (lowered run, entry.2)

/-- the least confidence of each occurrence of a sequence -/
def evidenceOccurrenceMinima (sequence : List Text) (evidence : List (Text × F64)) : List F64 :=
  if sequence.isEmpty || evidence.length < sequence.length then []
  else
    (List.range (evidence.length - sequence.length + 1)).filterMap fun start =>
      let window := (evidence.drop start).take sequence.length
      if window.map Prod.fst == sequence then
        some ((window.map Prod.snd).foldl F64.min .posInfinity)
      else none

/-! ## casing -/

inductive CasingShape where
  | lower
  | title
  | upper
  | mixed
deriving DecidableEq, Repr

structure CaseScan where
  anyCased : Bool
  allUpper : Bool
  allLower : Bool
  allTitle : Bool
deriving DecidableEq, Repr

/-- the characters of one run; `started` is the case of its first cased character -/
def scanRun (scan : CaseScan) (started : Option Bool) : Text → CaseScan
  | [] => if started == some false then { scan with allTitle := false } else scan
  | c :: s =>
    if isUppercase c then
      let scan := { scan with anyCased := true, allLower := false }
      match started with
      | none => scanRun scan (some true) s
      | some _ => scanRun { scan with allTitle := false } started s
    else if isLowercase c then
      let scan := { scan with anyCased := true, allUpper := false }
      match started with
      | none => scanRun { scan with allTitle := false } (some false) s
      | some _ => scanRun scan started s
    else scanRun scan started s

def casingShape (span : Text) : CasingShape :=
  let scan := (alphanumericRuns span).foldl (fun scan run => scanRun scan none run.text)
    { anyCased := false, allUpper := true, allLower := true, allTitle := true }
  if !scan.anyCased then .mixed
  else if scan.allUpper then .upper
  else if scan.allLower then .lower
  else if scan.allTitle then .title
  else .mixed

def titlecaseFrom (inRun : Bool) : Text → Text
  | [] => []
  | c :: s =>
    if isAlphanumeric c then
      (if inRun then charToLowercase c else charToUppercase c) ++ titlecaseFrom true s
    else c :: titlecaseFrom false s

def titlecase (term : Text) : Text := titlecaseFrom false term

def shapedTerm (term : Text) : CasingShape → Text
  | .lower => toLowercase term
  | .upper => toUppercase term
  | .title => titlecase term
  | .mixed => term

/-! ## matches -/

structure Match where
  start : Nat
  stop : Nat
  replacement : Text
  order : Nat
deriving DecidableEq, Repr

/-- the starts of the windows that spell a term -/
def occurrences (runs : List (Run Char)) (term : VocabularyTerm) : List Nat :=
  (List.range (runs.length - (term.runs.length - 1))).filter fun start =>
    ((runs.drop start).take term.runs.length).map lowered == term.runs

/-- one occurrence, when the correction may rewrite it -/
def termMatchAt (text : Text) (runs : List (Run Char)) (masked : List (Nat × Nat))
    (minima : List F64) (order : Nat) (term : VocabularyTerm) (start occurrence : Nat) :
    Option Match :=
  let window := (runs.drop start).take term.runs.length
  let spanStart := (window.head?.map Run.start).getD 0
  let spanStop := (window.getLast?.map Run.stop).getD 0
  if !separatorsAllowed text window term.separators then none
  else if masked.any fun range => spanStart < range.2 && range.1 < spanStop then none
  else if minima[occurrence]?.any fun minimum => F64.ge minimum confidentWordSkipThreshold then none
  else
    some
      { start := spanStart
        stop := spanStop
        replacement := shapedTerm term.original (casingShape (between text spanStart spanStop))
        order }

def termMatchesAt (text : Text) (runs : List (Run Char)) (masked : List (Nat × Nat))
    (evidence : List (Text × F64)) (order : Nat) (term : VocabularyTerm) : List Match :=
  let minima := evidenceOccurrenceMinima term.runs evidence
  (occurrences runs term).zipIdx.filterMap fun entry =>
    termMatchAt text runs masked minima order term entry.1 entry.2

/-- by start, the longer first, then in dictionary order -/
def Match.le (a b : Match) : Bool :=
  a.start < b.start ||
    (a.start == b.start && (b.stop < a.stop || (a.stop == b.stop && a.order ≤ b.order)))

def spliceFrom (text : Text) (cursor : Nat) : List Match → Text
  | [] => between text cursor (byteLen text)
  | candidate :: candidates =>
    if candidate.start < cursor then spliceFrom text cursor candidates
    else
      between text cursor candidate.start ++ candidate.replacement ++
        spliceFrom text candidate.stop candidates

def vocabularyMatches (text : Text) (terms : List VocabularyTerm)
    (wordConfidences : List (Text × F64)) : List Match :=
  (terms.mapIdx fun order term =>
    termMatchesAt text (alphanumericRuns text) (maskedRanges text) (confidenceRuns wordConfidences)
      order term).flatten

def applyUserVocabulary (text : Text) (terms : List Text) (wordConfidences : List (Text × F64)) :
    Text :=
  if text.isEmpty then text
  else
    let terms := (terms.take userVocabularyTermLimit).filterMap VocabularyTerm.parse
    if terms.isEmpty then text
    else
      let found := vocabularyMatches text terms wordConfidences
      if found.isEmpty then text
      else spliceFrom text 0 (found.insertionSort fun a b => Match.le a b = true)

/-! ## what a correction writes -/

/-- some character of a text is alphanumeric -/
def HasAlphanumeric (text : Text) : Prop := ∃ c ∈ text, isAlphanumeric c = true

theorem parse_original {term : Text} {parsed : VocabularyTerm}
    (h : VocabularyTerm.parse term = some parsed) :
    ∃ c s, parsed.original = c :: s ∧ isAlphanumeric c = true := by
  unfold VocabularyTerm.parse at h
  dsimp only at h
  split at h
  · cases h
  · rename_i hends
    split at h
    · cases h
    · obtain rfl := Option.some.inj h
      have hhead : (trim term).head?.any isAlphanumeric = true := by
        simp only [Bool.not_eq_true', Bool.and_eq_false_iff, not_or, Bool.not_eq_false] at hends
        exact hends.1
      cases ht : trim term with
      | nil =>
        rw [ht] at hhead
        cases hhead
      | cons c s =>
        rw [ht] at hhead
        exact ⟨c, s, rfl, hhead⟩

theorem shapedTerm_alphanumeric {c : Char} {s : Text} (h : isAlphanumeric c = true)
    (shape : CasingShape) : HasAlphanumeric (shapedTerm (c :: s) shape) := by
  cases shape with
  | lower => exact alphanumeric_toLowercase List.mem_cons_self h
  | upper => exact alphanumeric_toUppercase List.mem_cons_self h
  | title =>
    obtain ⟨d, hd, halnum⟩ := alphanumeric_upper h
    refine ⟨d, ?_, halnum⟩
    show d ∈ titlecaseFrom false (c :: s)
    rw [titlecaseFrom, if_pos h]
    exact List.mem_append_left _ hd
  | mixed => exact ⟨c, List.mem_cons_self, h⟩

theorem termMatchAt_replacement {text : Text} {runs : List (Run Char)} {masked : List (Nat × Nat)}
    {minima : List F64} {order start occurrence : Nat} {term : VocabularyTerm} {found : Match}
    (h : termMatchAt text runs masked minima order term start occurrence = some found) :
    ∃ shape, found.replacement = shapedTerm term.original shape := by
  unfold termMatchAt at h
  dsimp only at h
  split at h
  · cases h
  split at h
  · cases h
  split at h
  · cases h
  · obtain rfl := Option.some.inj h
    exact ⟨_, rfl⟩

theorem vocabularyMatches_alphanumeric {text : Text} {terms : List Text}
    {wordConfidences : List (Text × F64)} {found : Match}
    (h : found ∈ vocabularyMatches text (terms.filterMap VocabularyTerm.parse) wordConfidences) :
    HasAlphanumeric found.replacement := by
  obtain ⟨l, hl, hfound⟩ := List.mem_flatten.mp h
  obtain ⟨order, hlt, rfl⟩ := List.mem_mapIdx.mp hl
  obtain ⟨entry, -, hmatch⟩ := List.mem_filterMap.mp hfound
  obtain ⟨shape, hreplacement⟩ := termMatchAt_replacement hmatch
  obtain ⟨term, -, hparse⟩ := List.mem_filterMap.mp (List.getElem_mem hlt)
  obtain ⟨c, s, horiginal, halnum⟩ := parse_original hparse
  rw [hreplacement, horiginal]
  exact shapedTerm_alphanumeric halnum shape

/-- **a text that is changed holds an alphanumeric character** -/
theorem applyUserVocabulary_alphanumeric (text : Text) (terms : List Text)
    (wordConfidences : List (Text × F64)) :
    applyUserVocabulary text terms wordConfidences = text ∨
      HasAlphanumeric (applyUserVocabulary text terms wordConfidences) := by
  unfold applyUserVocabulary
  dsimp only
  split
  · exact Or.inl rfl
  split
  · exact Or.inl rfl
  split
  · exact Or.inl rfl
  · rename_i hne
    right
    generalize hfound : vocabularyMatches text
      ((terms.take userVocabularyTermLimit).filterMap VocabularyTerm.parse) wordConfidences = found
      at hne
    cases hsort : found.insertionSort fun a b => Match.le a b = true with
    | nil =>
      have hlen := (List.perm_insertionSort (fun a b => Match.le a b = true) found).length_eq
      rw [hsort] at hlen
      exact absurd (List.isEmpty_iff_length_eq_zero.mpr hlen.symm) hne
    | cons first rest =>
      have hmem : first ∈ found := by
        rw [← List.mem_insertionSort (fun a b => Match.le a b = true), hsort]
        exact List.mem_cons_self
      rw [← hfound] at hmem
      obtain ⟨c, hc, halnum⟩ := vocabularyMatches_alphanumeric hmem
      refine ⟨c, ?_, halnum⟩
      rw [spliceFrom, if_neg (Nat.not_lt_zero _)]
      exact List.mem_append_left _ (List.mem_append_right _ hc)

end Voisu.Vocabulary
