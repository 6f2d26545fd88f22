import Mathlib
import Voisu.Lib.Casing
import Voisu.Lib.Lines
import Voisu.Lib.Splice
import Voisu.Vocabulary

/-!
# The words through a correction

A correction is a splice: the accepted matches are replaced, and what stands between them is kept.
A match covers whole runs of the text, and what is written in its place spells the same runs.

* `Covers`                  a match lies on run boundaries and spells a term;
* `spliceFrom_spliced`      the loop over the candidates is a splice of some of them;
* `lower_shapedTerm`        an ASCII term keeps its letters in every shape;
* `words_spliced`           a splice that respells whole runs keeps the words;
* `applyUserVocabulary_words`   **ASCII terms keep the words of a text, its protected ranges and
                            whatever no match covers.**
-/

namespace Voisu.Vocabulary
open Lib Baseline

/-! ## matches -/

/-- the words of a text, in lowercase -/
def loweredWords (text : Text) : List Text := (alphanumericRuns text).map lowered

theorem loweredWords_eq (text : Text) :
    loweredWords text = (words isAlphanumeric text).map toLowercase := by
  rw [loweredWords, alphanumericRuns, words, List.map_map]
  rfl

/-- a range stands on whole runs of the text, which spell `spelling` -/
def Covers (text : Text) (start stop : Nat) (spelling : List Text) : Prop :=
  ∃ a s b, text = a ++ s ++ b ∧ byteLen a = start ∧ byteLen a + byteLen s = stop ∧
    lastSep isAlphanumeric a = true ∧ headSep isAlphanumeric s = false ∧
    headSep isAlphanumeric b = true ∧ loweredWords s = spelling

theorem occurrences_window {runs : List (Run Char)} {term : VocabularyTerm} {start : Nat}
    (h : start ∈ occurrences runs term) :
    ((runs.drop start).take term.runs.length).map lowered = term.runs := by
  simpa using (List.mem_filter.mp h).2

theorem covers_window {text : Text} {term : VocabularyTerm} (hne : term.runs ≠ []) {start : Nat}
    (h : start ∈ occurrences (alphanumericRuns text) term) :
    Covers text
      ((((alphanumericRuns text).drop start).take term.runs.length).head?.map Run.start |>.getD 0)
      ((((alphanumericRuns text).drop start).take term.runs.length).getLast?.map Run.stop |>.getD 0)
      term.runs := by
  have hwindow := occurrences_window h
  generalize hw : ((alphanumericRuns text).drop start).take term.runs.length = window at hwindow ⊢
  have hwne : window ≠ [] := by
    rintro rfl
    exact hne hwindow.symm
  have hfirst := List.head?_eq_some_head hwne
  have hlast := List.getLast?_eq_some_getLast hwne
  have hruns : alphanumericRuns text = (alphanumericRuns text).take start ++
      (window ++ ((alphanumericRuns text).drop start).drop term.runs.length) := by
    rw [← hw, List.take_append_drop, List.take_append_drop]
  have hspec := runs_spec isAlphanumeric 0 text
  rw [show runs isAlphanumeric 0 text = alphanumericRuns text from rfl, hruns] at hspec
  obtain ⟨a, s, b, htext, ha, hs, -, hla, hspell, hhead, hb, -⟩ := hspec.segment hfirst hlast
  rw [Nat.zero_add] at ha hs
  rw [hfirst, hlast]
  refine ⟨a, s, b, htext, ha, hs, hla, hhead, hb, ?_⟩
  rw [loweredWords_eq, hspell, List.map_map, ← hwindow]
  rfl

/-- a match that the correction may rewrite -/
structure Found (text : Text) (terms : List VocabularyTerm) (found : Match) : Prop where
  spelled : ∃ term ∈ terms, Covers text found.start found.stop term.runs ∧
    ∃ shape, found.replacement = shapedTerm term.original shape
  unmasked : ∀ range ∈ maskedRanges text, ¬ (found.start < range.2 ∧ range.1 < found.stop)

theorem vocabularyMatches_found {text : Text} {terms : List VocabularyTerm}
    (hterms : ∀ term ∈ terms, term.runs ≠ []) {wordConfidences : List (Text × F64)} {found : Match}
    (h : found ∈ vocabularyMatches text terms wordConfidences) : Found text terms found := by
  obtain ⟨l, hl, hfound⟩ := List.mem_flatten.mp h
  obtain ⟨order, hlt, rfl⟩ := List.mem_mapIdx.mp hl
  obtain ⟨⟨start, occurrence⟩, hentry, hmatch⟩ := List.mem_filterMap.mp hfound
  have hstart : start ∈ occurrences (alphanumericRuns text) terms[order] :=
    List.fst_mem_of_mem_zipIdx hentry
  have hterm := List.getElem_mem hlt
  unfold termMatchAt at hmatch
  dsimp only at hmatch
  split at hmatch
  · cases hmatch
  split at hmatch
  · cases hmatch
  rename_i hmasked
  split at hmatch
  · cases hmatch
  obtain rfl := Option.some.inj hmatch
  refine ⟨⟨terms[order], hterm, covers_window (hterms _ hterm) hstart, _, rfl⟩, ?_⟩
  intro range hrange hboth
  refine hmasked (List.any_eq_true.mpr ⟨range, hrange, ?_⟩)
  simpa using hboth

/-! ## the loop over the candidates -/

def Match.repl (m : Match) : Repl Char := ⟨m.start, m.stop, m.replacement⟩

theorem between_rest {a b : Text} : between (a ++ b) (byteLen a) (byteLen (a ++ b)) = b := by
  have h := slice_append a b []
  rw [List.append_nil] at h
  rw [between, byteLen_append, h]
  rfl

/-- a candidate that starts behind the cursor cuts the rest of the text -/
theorem Covers.rest {text pre rest : Text} {start stop : Nat} {spelling : List Text}
    (h : Covers text start stop spelling) (htext : text = pre ++ rest) (hle : byteLen pre ≤ start) :
    ∃ g s b, rest = g ++ s ++ b ∧ byteLen pre + byteLen g = start ∧ start + byteLen s = stop ∧
      lastSep isAlphanumeric (pre ++ g) = true ∧ headSep isAlphanumeric s = false ∧
      headSep isAlphanumeric b = true ∧ loweredWords s = spelling := by
  obtain ⟨a, s, b, hsplit, ha, hs, hla, hhead, hb, hspell⟩ := h
  rw [htext, List.append_assoc] at hsplit
  obtain ⟨g, rfl, hrest⟩ := prefix_of_byteLen_le hsplit (by omega)
  rw [byteLen_append] at ha
  exact ⟨g, s, b, by rw [hrest, List.append_assoc], ha, by rw [← ha, ← byteLen_append]; exact hs,
    hla, hhead, hb, hspell⟩

/-- **the loop is a splice of some of the candidates** -/
theorem spliceFrom_spliced {text : Text} {candidates : List Match}
    (hcovers : ∀ m ∈ candidates, ∃ spelling, Covers text m.start m.stop spelling) (pre rest : Text)
    (htext : text = pre ++ rest) :
    ∃ rs, Spliced (byteLen pre) rs rest (spliceFrom text (byteLen pre) candidates) ∧
      ∀ r ∈ rs, ∃ m ∈ candidates, r = m.repl := by
  induction candidates generalizing pre rest with
  | nil =>
    refine ⟨[], ?_, by simp⟩
    rw [spliceFrom, htext, between_rest]
    exact .nil _ _
  | cons m candidates ih =>
    have hrest := fun m' hm' => hcovers m' (List.mem_cons_of_mem m hm')
    unfold spliceFrom
    split
    · obtain ⟨rs, hrs, hmem⟩ := ih hrest pre rest htext
      exact ⟨rs, hrs, fun r hr => (hmem r hr).imp fun m' h => ⟨List.mem_cons_of_mem m h.1, h.2⟩⟩
    · rename_i hcursor
      obtain ⟨spelling, hm⟩ := hcovers m List.mem_cons_self
      obtain ⟨g, s, b, rfl, hg, hs, -⟩ := hm.rest htext (Nat.le_of_not_lt hcursor)
      have hstop : byteLen (pre ++ g ++ s) = m.stop := by
        simp only [byteLen_append]
        omega
      obtain ⟨rs, hrs, hmem⟩ := ih hrest (pre ++ g ++ s) b (by rw [htext]; simp)
      rw [hstop] at hrs
      have hgap : between text (byteLen pre) m.start = g := by
        rw [between, htext, ← hg, List.append_assoc g, ← List.append_assoc pre, slice_append]
        rfl
      refine ⟨m.repl :: rs, ?_, ?_⟩
      · rw [hgap]
        exact .cons hg hs hrs
      · intro r hr
        rcases List.mem_cons.mp hr with rfl | hr
        · exact ⟨m, List.mem_cons_self, rfl⟩
        · exact (hmem r hr).imp fun m' h => ⟨List.mem_cons_of_mem m h.1, h.2⟩

/-! ## words -/

/-- a replacement that spells the words of its range -/
def Respells (text : Text) (r : Repl Char) : Prop := Covers text r.start r.stop (loweredWords r.text)

theorem loweredWords_append {s t : Text}
    (h : (lastSep isAlphanumeric s || headSep isAlphanumeric t) = true) :
    loweredWords (s ++ t) = loweredWords s ++ loweredWords t := by
  rw [loweredWords_eq, words_append h, List.map_append, ← loweredWords_eq, ← loweredWords_eq]

/-- **a splice that respells whole runs keeps the words**; `pre` is the text before the splice -/
theorem words_spliced {text : Text} {off : Nat} {rs : List (Repl Char)} {s t : Text}
    (h : Spliced off rs s t) (hrs : ∀ r ∈ rs, Respells text r) (pre : Text)
    (htext : text = pre ++ s) (hpre : byteLen pre = off) :
    loweredWords t = loweredWords s ∧
      (headSep isAlphanumeric s = true → headSep isAlphanumeric t = true) := by
  induction h generalizing pre with
  | nil => exact ⟨rfl, id⟩
  | @cons off r rs g m s t hg hm h ih =>
    obtain ⟨g', m', s', hsplit, hg', hm', hla, hhead, hs', hspell⟩ :=
      (hrs r List.mem_cons_self).rest htext (by omega)
    rw [List.append_assoc, List.append_assoc] at hsplit
    obtain ⟨rfl, hms⟩ := append_inj_byteLen hsplit (by omega)
    obtain ⟨rfl, rfl⟩ := append_inj_byteLen hms (by omega)
    obtain ⟨hwords, hsep⟩ := ih (fun r' hr' => hrs r' (List.mem_cons_of_mem r hr')) (pre ++ g ++ m)
      (by rw [htext]; simp) (by simp only [byteLen_append]; omega)
    have hgsep : lastSep isAlphanumeric g = true := by
      by_cases hnil : g = []
      · rw [hnil]
        rfl
      · rwa [lastSep_append_of_ne_nil hnil] at hla
    have hcut : ∀ u v : Text, headSep isAlphanumeric v = true →
        loweredWords (g ++ u ++ v) = loweredWords g ++ loweredWords u ++ loweredWords v := by
      intro u v hv
      rw [loweredWords_append (s := g ++ u) (by rw [hv, Bool.or_true]),
        loweredWords_append (s := g) (by rw [hgsep, Bool.true_or])]
    constructor
    · rw [hcut r.text t (hsep hs'), hcut m s hs', hwords, hspell]
    · -- a range that begins the text begins with a run
      intro hfront
      have hgne : g ≠ [] := by
        rintro rfl
        have hmne : m ≠ [] := by
          rintro rfl
          cases hhead
        rw [List.nil_append, headSep_append_of_ne_nil hmne, hhead] at hfront
        cases hfront
      rw [List.append_assoc, headSep_append_of_ne_nil hgne] at hfront ⊢
      exact hfront

/-! ## ASCII terms -/

def IsAscii (text : Text) : Prop := ∀ c ∈ text, c.toNat ≤ 0x7F

theorem loweredWords_ascii {text : Text} (h : IsAscii text) :
    loweredWords text = words isAlphanumeric (asciiLowercase text) := by
  have hmap := words_map toAsciiLowercase isAlphanumeric isAlphanumeric_lower text
  rw [loweredWords_eq, show asciiLowercase text = text.map toAsciiLowercase from rfl, hmap]
  refine List.map_congr_left fun w hw => ?_
  exact toLowercase_ascii fun c hc => h c (mem_of_mem_words hw hc)

theorem toAsciiLowercase_le {c : Char} (h : (toAsciiLowercase c).toNat ≤ 0x7F) : c.toNat ≤ 0x7F := by
  by_cases hup : isAsciiUppercase c = true
  · simp only [isAsciiUppercase, inRange, Bool.and_eq_true, decide_eq_true_eq] at hup
    omega
  · rwa [toAsciiLowercase, if_neg hup] at h

theorem toAsciiLowercase_le_of {c : Char} (h : c.toNat ≤ 0x7F) :
    (toAsciiLowercase c).toNat ≤ 0x7F := by
  by_cases hup : isAsciiUppercase c = true
  · rw [toAsciiLowercase, if_pos hup]
    simp only [isAsciiUppercase, inRange, Bool.and_eq_true, decide_eq_true_eq] at hup
    rw [toNat_shift (by omega)]
    omega
  · rwa [toAsciiLowercase, if_neg hup]

theorem isAscii_of_lower {s t : Text} (h : asciiLowercase s = asciiLowercase t) (ht : IsAscii t) :
    IsAscii s := by
  intro c hc
  have hmem : toAsciiLowercase c ∈ asciiLowercase t := h ▸ List.mem_map_of_mem hc
  obtain ⟨d, hd, hdc⟩ := List.mem_map.mp hmem
  exact toAsciiLowercase_le (hdc ▸ toAsciiLowercase_le_of (ht d hd))

theorem lower_charToUppercase {c : Char} (h : c.toNat ≤ 0x7F) :
    asciiLowercase (charToUppercase c) = [toAsciiLowercase c] := by
  rw [charToUppercase, if_pos h]
  simp [asciiLowercase, toAsciiLowercase_upper]

theorem lower_charToLowercase {c : Char} (h : c.toNat ≤ 0x7F) :
    asciiLowercase (charToLowercase c) = [toAsciiLowercase c] := by
  rw [charToLowercase_ascii h]
  simp [asciiLowercase, toAsciiLowercase_lower]

theorem lower_titlecaseFrom {term : Text} (h : IsAscii term) (inRun : Bool) :
    asciiLowercase (titlecaseFrom inRun term) = asciiLowercase term := by
  induction term generalizing inRun with
  | nil => rfl
  | cons c s ih =>
    have hc := h c List.mem_cons_self
    have hs := fun b => ih (fun d hd => h d (List.mem_cons_of_mem c hd)) b
    unfold titlecaseFrom
    split
    · split <;> rw [asciiLowercase_append, hs]
      · rw [lower_charToLowercase hc]
        rfl
      · rw [lower_charToUppercase hc]
        rfl
    · show toAsciiLowercase c :: asciiLowercase (titlecaseFrom false s) = _
      rw [hs]
      rfl

theorem lower_toUppercase {term : Text} (h : IsAscii term) :
    asciiLowercase (toUppercase term) = asciiLowercase term := by
  induction term with
  | nil => rfl
  | cons c s ih =>
    rw [toUppercase, List.flatMap_cons, asciiLowercase_append,
      lower_charToUppercase (h c List.mem_cons_self)]
    show toAsciiLowercase c :: asciiLowercase (toUppercase s) = _
    rw [ih fun d hd => h d (List.mem_cons_of_mem c hd)]
    rfl

theorem lower_toLowercase {term : Text} (h : IsAscii term) :
    asciiLowercase (toLowercase term) = asciiLowercase term := by
  rw [toLowercase_ascii h]
  simp [asciiLowercase, toAsciiLowercase_lower]

/-- **an ASCII term keeps its letters in every shape** -/
theorem lower_shapedTerm {term : Text} (h : IsAscii term) (shape : CasingShape) :
    asciiLowercase (shapedTerm term shape) = asciiLowercase term := by
  cases shape with
  | lower => exact lower_toLowercase h
  | upper => exact lower_toUppercase h
  | title => exact lower_titlecaseFrom h false
  | mixed => rfl

theorem loweredWords_shapedTerm {term : Text} (h : IsAscii term) (shape : CasingShape) :
    loweredWords (shapedTerm term shape) = loweredWords term := by
  have hlower := lower_shapedTerm h shape
  rw [loweredWords_ascii (isAscii_of_lower hlower h), hlower, loweredWords_ascii h]

theorem parse_spec {term : Text} {parsed : VocabularyTerm}
    (h : VocabularyTerm.parse term = some parsed) :
    parsed.original = trim term ∧ parsed.runs = loweredWords (trim term) ∧ parsed.runs ≠ [] := by
  unfold VocabularyTerm.parse at h
  dsimp only at h
  split at h
  · cases h
  · split at h
    · cases h
    · rename_i hruns
      obtain rfl := Option.some.inj h
      exact ⟨rfl, rfl, by simpa using hruns⟩

theorem isAscii_trim {term : Text} (h : IsAscii term) : IsAscii (trim term) := by
  obtain ⟨g, g', hsplit, -, -⟩ := trimMatches_split isWhitespace term
  intro c hc
  refine h c ?_
  rw [hsplit]
  exact List.mem_append_left _ (List.mem_append_right _ hc)

/-- the terms that take part in a correction -/
def parsedTerms (terms : List Text) : List VocabularyTerm :=
  (terms.take userVocabularyTermLimit).filterMap VocabularyTerm.parse

theorem mem_parsedTerms {terms : List Text} {parsed : VocabularyTerm}
    (h : parsed ∈ parsedTerms terms) : ∃ term ∈ terms, VocabularyTerm.parse term = some parsed := by
  obtain ⟨term, hterm, hparse⟩ := List.mem_filterMap.mp h
  exact ⟨term, List.mem_of_mem_take hterm, hparse⟩

theorem parsedTerms_ne {terms : List Text} : ∀ term ∈ parsedTerms terms, term.runs ≠ [] := by
  intro parsed hparsed
  obtain ⟨term, -, hparse⟩ := mem_parsedTerms hparsed
  exact (parse_spec hparse).2.2

/-! ## a correction -/

/-- **a correction is a splice of its matches** -/
theorem applyUserVocabulary_spliced (text : Text) (terms : List Text)
    (wordConfidences : List (Text × F64)) :
    ∃ rs, Spliced 0 rs text (applyUserVocabulary text terms wordConfidences) ∧
      ∀ r ∈ rs, ∃ m ∈ vocabularyMatches text (parsedTerms terms) wordConfidences, r = m.repl := by
  have hnone : ∃ rs, Spliced 0 rs text text ∧ ∀ r ∈ rs,
      ∃ m ∈ vocabularyMatches text (parsedTerms terms) wordConfidences, r = m.repl :=
    ⟨[], .nil _ _, by simp⟩
  unfold applyUserVocabulary
  dsimp only
  split
  · exact hnone
  split
  · exact hnone
  split
  · exact hnone
  · have hcovers : ∀ m ∈ (vocabularyMatches text (parsedTerms terms) wordConfidences).insertionSort
        fun a b => Match.le a b = true, ∃ spelling, Covers text m.start m.stop spelling := by
      intro m hm
      rw [List.mem_insertionSort] at hm
      obtain ⟨term, -, hspelled, -⟩ := (vocabularyMatches_found parsedTerms_ne hm).spelled
      exact ⟨_, hspelled⟩
    obtain ⟨rs, hrs, hmem⟩ := spliceFrom_spliced hcovers [] text rfl
    refine ⟨rs, hrs, fun r hr => ?_⟩
    obtain ⟨m, hm, hrm⟩ := hmem r hr
    rw [List.mem_insertionSort] at hm
    exact ⟨m, hm, hrm⟩

/-- **ASCII terms keep the words of a text, its protected ranges and whatever no match covers** -/
theorem applyUserVocabulary_words (text : Text) (terms : List Text)
    (wordConfidences : List (Text × F64)) (hterms : ∀ term ∈ terms, IsAscii term) :
    (alphanumericRuns (applyUserVocabulary text terms wordConfidences)).map lowered =
        (alphanumericRuns text).map lowered ∧
      ∃ rs, Spliced 0 rs text (applyUserVocabulary text terms wordConfidences) ∧
        (∀ r ∈ rs, ∃ m ∈ vocabularyMatches text (parsedTerms terms) wordConfidences, r = m.repl) ∧
        ∀ r ∈ rs, ∀ range ∈ maskedRanges text, ¬ (r.start < range.2 ∧ range.1 < r.stop) := by
  obtain ⟨rs, hrs, hmem⟩ := applyUserVocabulary_spliced text terms wordConfidences
  have hrespells : ∀ r ∈ rs, Respells text r := by
    intro r hr
    obtain ⟨m, hm, rfl⟩ := hmem r hr
    obtain ⟨parsed, hparsed, hcovers, shape, hreplacement⟩ :=
      (vocabularyMatches_found parsedTerms_ne hm).spelled
    obtain ⟨term, hterm, hparse⟩ := mem_parsedTerms hparsed
    obtain ⟨horiginal, hruns, -⟩ := parse_spec hparse
    have hwords : loweredWords m.replacement = parsed.runs := by
      rw [hreplacement, horiginal, loweredWords_shapedTerm (isAscii_trim (hterms term hterm)), hruns]
    show Covers text m.start m.stop (loweredWords m.replacement)
    rw [hwords]
    exact hcovers
  refine ⟨(words_spliced hrs hrespells [] rfl rfl).1, rs, hrs, hmem, ?_⟩
  intro r hr range hrange
  obtain ⟨m, hm, rfl⟩ := hmem r hr
  exact (vocabularyMatches_found parsedTerms_ne hm).unmasked range hrange

/-- the sentence `use voiSu.` keeps its two words when the dictionary writes `Voisu` -/
theorem voisuSentence_words :
    IsAscii "Voisu".toList ∧
      (alphanumericRuns (applyUserVocabulary "use voiSu.".toList ["Voisu".toList] [])).map lowered =
        (alphanumericRuns "use voiSu.".toList).map lowered := by
  have hascii : IsAscii "Voisu".toList := by
    intro c hc
    revert c
    decide
  refine ⟨hascii, (applyUserVocabulary_words "use voiSu.".toList ["Voisu".toList] [] ?_).1⟩
  intro term hterm
  obtain rfl := List.mem_singleton.mp hterm
  exact hascii

end Voisu.Vocabulary
