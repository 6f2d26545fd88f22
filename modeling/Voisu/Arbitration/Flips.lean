import Mathlib
import Voisu.Arbitration.Regions
import Voisu.Lib.Splice

/-!
# What a flip changes

* `forbiddenIn`          the meaning-critical normalized words of a list of tokens, in order;
* `tokenParts_affix`     punctuation put around a token adds no meaning-critical word;
* `FlipRange`            the token range of an accepted region, on either side;
* `applyFlipsFrom_spec`  the text after the flips: a splice at token boundaries, of the bytes and of
                         the tokens, with the same meaning-critical words;
* `arbitrate_preserves`  the outcome of a pass.
-/

set_option linter.unusedSectionVars false

namespace Voisu.Arbitration
open Lib Decision

/-! ## punctuation around a token -/

/-- the meaning-critical normalized words, in order -/
def forbiddenIn (tokens : List Text) : List Text := (tokens.flatMap tokenParts).filter tokenForbidsFlip

theorem forbiddenIn_append (xs ys : List Text) :
    forbiddenIn (xs ++ ys) = forbiddenIn xs ++ forbiddenIn ys := by
  unfold forbiddenIn
  rw [List.flatMap_append, List.filter_append]

theorem foldToken_append (s t : Text) : foldToken (s ++ t) = foldToken s ++ foldToken t :=
  List.flatMap_append

/-- punctuation folds to apostrophes -/
theorem foldToken_punctuation {s : Text} (hs : s.all notAlphanumeric = true) :
    ∀ c ∈ foldToken s, c = '\'' := by
  intro c hc
  obtain ⟨a, ha, hca⟩ := List.mem_flatMap.mp hc
  have hn : isAlphanumeric a = false := by
    simpa [notAlphanumeric] using List.all_eq_true.mp hs a ha
  unfold foldChar at hca
  split at hca
  · simpa using hca
  · split at hca
    · rename_i h1 h2
      rw [hn, Bool.false_or, beq_iff_eq] at h2
      subst h2
      rw [show charToLowercase '\'' = ['\''] by decide] at hca
      simpa using hca
    · exact absurd hca (by simp)

theorem contractions_ends : ∀ entry ∈ contractions,
    entry.1.toList.head? ≠ some '\'' ∧ entry.1.toList.getLast? ≠ some '\'' := by decide +kernel

/-- a contraction without critical parts stays uncritical when its apostrophe is dropped -/
theorem contractions_plain : ∀ entry ∈ contractions,
    (entry.2.all fun part => !tokenForbidsFlip part.toList) = true →
      tokenForbidsFlip (entry.1.toList.filter fun c => c != '\'') = false := by decide +kernel

theorem filter_apostrophe {s : Text} (hs : ∀ c ∈ s, c = '\'') :
    s.filter (fun c => c != '\'') = [] := by
  rw [List.filter_eq_nil_iff]
  intro c hc
  simp [hs c hc]

/-- a folded token with an apostrophe at an end is no contraction -/
theorem find_contraction_none {lead trail f : Text} (hl : ∀ c ∈ lead, c = '\'')
    (ht : ∀ c ∈ trail, c = '\'') (hne : lead ≠ [] ∨ trail ≠ []) :
    contractions.find? (fun entry => entry.1.toList == lead ++ f ++ trail) = none := by
  rw [List.find?_eq_none]
  intro entry he heq
  have hends := contractions_ends entry he
  rw [beq_iff_eq.mp heq] at hends
  rcases hne with hne | hne
  · cases lead with
    | nil => exact hne rfl
    | cons c lead => exact hends.1 (by rw [hl c List.mem_cons_self]; rfl)
  · obtain ⟨t, c, rfl⟩ := (List.eq_nil_or_concat trail).resolve_left hne
    refine hends.2 ?_
    rw [List.concat_eq_append, ← List.append_assoc, List.getLast?_concat,
      ht c (by simp)]

theorem tokenParts_plain {f : Text} :
    (([f.filter fun c => c != '\''] : List Text).filter fun part => !part.isEmpty).filter
        tokenForbidsFlip = [] ↔
      (f.filter fun c => c != '\'') = [] ∨ tokenForbidsFlip (f.filter fun c => c != '\'') = false := by
  generalize (f.filter fun c => c != '\'') = g
  cases g with
  | nil => simp
  | cons c g => simp [List.filter_cons]

example : tokenParts "Don't,".toList = ["do".toList, "not".toList] := by decide +kernel

/-- **punctuation around a token adds no meaning-critical word** -/
theorem tokenParts_affix {lead trail w : Text} (hl : lead.all notAlphanumeric = true)
    (ht : trail.all notAlphanumeric = true) (hw : forbiddenIn [w] = []) :
    forbiddenIn [lead ++ w ++ trail] = [] := by
  have hl' := foldToken_punctuation hl
  have ht' := foldToken_punctuation ht
  simp only [forbiddenIn, List.flatMap_cons, List.flatMap_nil, List.append_nil, tokenParts,
    normalizeToken, foldToken_append] at hw ⊢
  generalize foldToken lead = L at hl'
  generalize foldToken trail = T at ht'
  generalize foldToken w = f at hw
  by_cases hne : L ≠ [] ∨ T ≠ []
  · rw [find_contraction_none hl' ht' hne]
    simp only
    have hfil : (L ++ f ++ T).filter (fun c => c != '\'') = f.filter fun c => c != '\'' := by
      rw [List.filter_append, List.filter_append, filter_apostrophe hl', filter_apostrophe ht']
      simp
    rw [tokenParts_plain, hfil]
    cases hc : contractions.find? (fun entry => entry.1.toList == f) with
    | none =>
      rw [hc] at hw
      exact tokenParts_plain.mp hw
    | some entry =>
      rw [hc] at hw
      have hmem := List.mem_of_find?_eq_some hc
      have hf : entry.1.toList = f := by simpa using List.find?_some hc
      right
      rw [← hf]
      apply contractions_plain entry hmem
      rw [List.all_eq_true]
      intro part hp
      rw [List.filter_filter, List.filter_eq_nil_iff] at hw
      have := hw part.toList (List.mem_map_of_mem hp)
      by_contra hcrit
      have hcrit' : tokenForbidsFlip part.toList = true := by simpa using hcrit
      apply this
      rw [hcrit', Bool.true_and]
      cases hp' : part.toList with
      | nil => rw [hp'] at hcrit'; exact absurd hcrit' (by decide)
      | cons c s => rfl
  · simp only [not_or, not_not] at hne
    rw [hne.1, hne.2, List.nil_append, List.append_nil]
    exact hw

/-! ## joined tokens -/

/-- a token: not empty, without whitespace -/
def IsToken (t : Text) : Prop := t ≠ [] ∧ t.all notWhitespace = true

theorem join_cons (o o' : Text) (os : List Text) :
    [' '].intercalate (o :: o' :: os) = o ++ [' '] ++ [' '].intercalate (o' :: os) := by
  simp [List.intercalate]

theorem join_singleton (o : Text) : [' '].intercalate [o] = o := by simp [List.intercalate]

theorem join_ends {ts : List Text} (hts : ∀ t ∈ ts, IsToken t) (hne : ts ≠ []) :
    [' '].intercalate ts ≠ [] ∧ headSep notWhitespace ([' '].intercalate ts) = false ∧
      lastSep notWhitespace ([' '].intercalate ts) = false := by
  induction ts with
  | nil => exact absurd rfl hne
  | cons o os ih =>
    obtain ⟨ho, hw⟩ := hts o List.mem_cons_self
    cases os with
    | nil =>
      rw [join_singleton]
      exact ⟨ho, headSep_of_run hw ho, lastSep_of_run hw ho⟩
    | cons o' os =>
      obtain ⟨h1, h2, h3⟩ := ih (fun t ht => hts t (List.mem_cons_of_mem _ ht)) (by simp)
      rw [join_cons]
      refine ⟨by simp [ho], ?_, ?_⟩
      · rw [List.append_assoc, headSep_append_of_ne_nil ho]
        exact headSep_of_run hw ho
      · rw [lastSep_append_of_ne_nil h1]
        exact h3

/-- the words of joined tokens are the tokens -/
theorem words_join {ts : List Text} (hts : ∀ t ∈ ts, IsToken t) :
    words notWhitespace ([' '].intercalate ts) = ts := by
  induction ts with
  | nil => rfl
  | cons o os ih =>
    obtain ⟨ho, hw⟩ := hts o List.mem_cons_self
    have ih' := ih (fun t ht => hts t (List.mem_cons_of_mem _ ht))
    cases os with
    | nil => rw [join_singleton, words_run hw ho]
    | cons o' os =>
      have hsp : lastSep notWhitespace [' '] = true := by decide
      rw [join_cons, words_append (by rw [lastSep_append_of_ne_nil (by simp), hsp]; rfl),
        words_append (by rw [show headSep notWhitespace [' '] = true by decide, Bool.or_true]),
        words_run hw ho, ih', show words notWhitespace [' '] = [] by decide, List.append_nil,
        List.singleton_append]

def attachTrail (trail : Text) : List Text → List Text
  | [] => []
  | [o] => [o ++ trail]
  | o :: os => o :: attachTrail trail os

theorem attachTrail_cons (trail o o' : Text) (os : List Text) :
    attachTrail trail (o :: o' :: os) = o :: attachTrail trail (o' :: os) := rfl

theorem attachTrail_ne_nil (trail o : Text) (os : List Text) : attachTrail trail (o :: os) ≠ [] := by
  cases os <;> simp [attachTrail]

theorem join_trail (trail : Text) {ts : List Text} (hne : ts ≠ []) :
    [' '].intercalate ts ++ trail = [' '].intercalate (attachTrail trail ts) := by
  induction ts with
  | nil => exact absurd rfl hne
  | cons o os ih =>
    cases os with
    | nil => rw [attachTrail, join_singleton, join_singleton]
    | cons o' os =>
      have ih' := ih (by simp)
      obtain ⟨x, xs, hx⟩ := List.exists_cons_of_ne_nil (attachTrail_ne_nil trail o' os)
      rw [join_cons, List.append_assoc, ih', attachTrail_cons, hx, join_cons]

theorem join_lead (lead o : Text) (os : List Text) :
    lead ++ [' '].intercalate (o :: os) = [' '].intercalate ((lead ++ o) :: os) := by
  cases os with
  | nil => rw [join_singleton, join_singleton]
  | cons o' os => rw [join_cons, join_cons]; simp

/-- tokens without a meaning-critical word -/
def Plain (ts : List Text) : Prop := ts ≠ [] ∧ ∀ t ∈ ts, IsToken t ∧ forbiddenIn [t] = []

theorem Plain.forbiddenIn {ts : List Text} (h : Plain ts) : forbiddenIn ts = [] := by
  obtain ⟨-, h⟩ := h
  induction ts with
  | nil => rfl
  | cons t ts ih =>
    rw [← List.singleton_append, forbiddenIn_append, (h t List.mem_cons_self).2,
      ih (fun t' ht' => h t' (List.mem_cons_of_mem _ ht')), List.append_nil]

theorem forbiddenIn_mem {ts : List Text} (h : Arbitration.forbiddenIn ts = []) :
    ∀ t ∈ ts, Arbitration.forbiddenIn [t] = [] := by
  intro t ht
  obtain ⟨a, b, rfl⟩ := List.append_of_mem ht
  rw [← List.singleton_append, forbiddenIn_append, forbiddenIn_append] at h
  simp only [List.append_eq_nil_iff] at h
  exact h.2.1

/-- punctuation: no alphanumeric, no whitespace -/
def IsPunctuation (s : Text) : Prop := s.all notAlphanumeric = true ∧ s.all notWhitespace = true

theorem Plain.lead {lead o : Text} {os : List Text} (h : Plain (o :: os)) (hl : IsPunctuation lead) :
    Plain ((lead ++ o) :: os) := by
  refine ⟨by simp, fun t ht => ?_⟩
  rcases List.mem_cons.mp ht with rfl | ht
  · obtain ⟨⟨h1, h2⟩, h3⟩ := h.2 o List.mem_cons_self
    refine ⟨⟨by simp [h1], by rw [List.all_append, hl.2, h2]; rfl⟩, ?_⟩
    have := @tokenParts_affix lead [] o hl.1 rfl h3
    rwa [List.append_nil] at this
  · exact h.2 t (List.mem_cons_of_mem _ ht)

theorem Plain.trail {trail : Text} {ts : List Text} (h : Plain ts) (hl : IsPunctuation trail) :
    Plain (attachTrail trail ts) := by
  obtain ⟨hne, h⟩ := h
  induction ts with
  | nil => exact absurd rfl hne
  | cons o os ih =>
    cases os with
    | nil =>
      refine ⟨by simp [attachTrail], fun t ht => ?_⟩
      rw [attachTrail, List.mem_singleton] at ht
      subst ht
      obtain ⟨⟨h1, h2⟩, h3⟩ := h o List.mem_cons_self
      refine ⟨⟨by simp [h1], by rw [List.all_append, hl.2, h2]; rfl⟩, ?_⟩
      have := @tokenParts_affix [] trail o rfl hl.1 h3
      rwa [List.nil_append] at this
    | cons o' os =>
      obtain ⟨h1, h2⟩ := ih (by simp) (fun t ht => h t (List.mem_cons_of_mem _ ht))
      rw [attachTrail_cons]
      refine ⟨by simp, fun t ht => ?_⟩
      rw [List.mem_cons] at ht
      rcases ht with rfl | ht
      · exact h t List.mem_cons_self
      · exact h2 t ht

/-! ## the tokens under a region -/

/-- a side as `tryPrepareSide` builds it -/
structure Prepared (side : PreparedSide) : Prop where
  tokens_eq : side.tokens = wordTokens side.text
  normalized_eq : side.normalized = normWordsFrom 0 side.tokens

theorem tryPrepareSide_prepared {text : Text} {evidence : Evidence} {side : PreparedSide}
    (h : tryPrepareSide text evidence = some side) : Prepared side ∧ side.text = text := by
  unfold tryPrepareSide at h
  obtain ⟨confidences, -, rfl⟩ := Option.map_eq_some_iff.mp h
  exact ⟨⟨rfl, rfl⟩, rfl⟩

/-- the tokens `[ts, te)` of a side -/
def tokenRange (side : PreparedSide) (ts te : Nat) : List (Run Char) :=
  (side.tokens.drop ts).take (te - ts)

/-- the words `[start, stop)` are those of the tokens `[ts, te)` -/
structure FlipRange (side : PreparedSide) (start stop ts te : Nat) : Prop where
  lt : ts < te
  le : te ≤ side.tokens.length
  take_start : side.normalized.take start = normWordsFrom 0 (side.tokens.take ts)
  take_stop : side.normalized.take stop = normWordsFrom 0 (side.tokens.take te)

section
variable {side : PreparedSide} {start stop ts te : Nat}

theorem take_tokens_mono {ts ts' : Nat} (h : ts ≤ ts') :
    (normWordsFrom 0 (side.tokens.take ts)).length ≤
      (normWordsFrom 0 (side.tokens.take ts')).length := by
  have hsplit : side.tokens.take ts' =
      side.tokens.take ts ++ (side.tokens.take ts').drop ts := by
    have := List.take_append_drop ts (side.tokens.take ts')
    rw [List.take_take, min_eq_left h] at this
    exact this.symm
  rw [hsplit, normWordsFrom_append, List.length_append]
  omega

theorem flipRange (hp : Prepared side) (hlt : start < stop) (hle : stop ≤ side.normalized.length)
    (hb : side.regionOnTokenBoundaries start stop = true) :
    FlipRange side start stop (side.tokenOfNorm start) (side.tokenOfNorm (stop - 1) + 1) := by
  obtain ⟨hb1, hb2⟩ := Bool.and_eq_true_iff.mp hb
  have hs : start < side.normalized.length := by omega
  have he : stop - 1 < side.normalized.length := by omega
  rw [List.getElem?_eq_getElem hs] at hb1
  rw [List.getElem?_eq_getElem he] at hb2
  have hgs : (normWordsFrom 0 side.tokens)[start]? = some side.normalized[start] := by
    rw [← hp.normalized_eq, List.getElem?_eq_getElem hs]
  have hge : (normWordsFrom 0 side.tokens)[stop - 1]? = some side.normalized[stop - 1] := by
    rw [← hp.normalized_eq, List.getElem?_eq_getElem he]
  obtain ⟨n, hn, hnt, hnk⟩ := take_start hgs hb1
  obtain ⟨k, hk, hkt, hkk⟩ := take_stop hge hb2
  have h1 : side.tokenOfNorm start = n := by
    rw [PreparedSide.tokenOfNorm, List.getElem?_eq_getElem hs, Option.map_some, Option.getD_some]
    omega
  have h2 : side.tokenOfNorm (stop - 1) = k := by
    rw [PreparedSide.tokenOfNorm, List.getElem?_eq_getElem he, Option.map_some, Option.getD_some]
    omega
  rw [← hp.normalized_eq] at hnk hkk
  rw [show stop - 1 + 1 = stop by omega] at hkk
  rw [h1, h2]
  refine ⟨?_, hk, hnk, hkk⟩
  -- a later cut of the words is a later cut of the tokens
  by_contra hge'
  have hmono := @take_tokens_mono side (k + 1) n (by omega)
  rw [← hnk, ← hkk, List.length_take, List.length_take] at hmono
  omega

theorem FlipRange.le_of_lt {start' stop' ts' te' : Nat} (h : FlipRange side start stop ts te)
    (h' : FlipRange side start' stop' ts' te') (hlt : stop < start')
    (hle : start' ≤ side.normalized.length) : te ≤ ts' := by
  by_contra hgt
  have hmono := @take_tokens_mono side ts' te (by omega)
  rw [← h.take_stop, ← h'.take_start, List.length_take, List.length_take] at hmono
  omega

/-- the words of the region are the words of its tokens -/
theorem FlipRange.regionWords (h : FlipRange side start stop ts te)
    (hle : start ≤ side.normalized.length) :
    (side.regionWords start stop).map NormWord.word =
      ((tokenRange side ts te).map Run.text).flatMap tokenParts := by
  have hcut : side.tokens.take te = side.tokens.take ts ++ tokenRange side ts te := by
    unfold tokenRange
    rw [← List.take_add]
    congr 1
    have := h.lt
    omega
  have h2 := h.take_stop
  rw [hcut, normWordsFrom_append, ← h.take_start] at h2
  have h3 : side.regionWords start stop =
      normWordsFrom (0 + (side.tokens.take ts).length) (tokenRange side ts te) := by
    unfold PreparedSide.regionWords
    rw [← List.drop_take, h2, List.drop_left']
    rw [List.length_take]
    omega
  rw [h3, normWordsFrom_words, List.flatMap_map]

theorem FlipRange.plain (hp : Prepared side) (h : FlipRange side start stop ts te)
    (hle : start ≤ side.normalized.length) (hf : side.hasForbiddenToken start stop = false) :
    Plain ((tokenRange side ts te).map Run.text) := by
  have hforb : forbiddenIn ((tokenRange side ts te).map Run.text) = [] := by
    unfold forbiddenIn
    rw [← h.regionWords hle, List.filter_map, List.map_eq_nil_iff, List.filter_eq_nil_iff]
    intro w hw
    have := List.any_eq_false.mp hf w hw
    simpa using this
  refine ⟨?_, fun t ht => ⟨?_, forbiddenIn_mem hforb t ht⟩⟩
  · intro h0
    have := congrArg List.length h0
    have hlt := h.lt
    have hle' := h.le
    simp only [tokenRange, List.length_map, List.length_take, List.length_drop,
      List.length_nil] at this
    omega
  · obtain ⟨r, hr, rfl⟩ := List.mem_map.mp ht
    have hmem : r.text ∈ words notWhitespace side.text := by
      have hr' : r ∈ side.tokens := List.mem_of_mem_drop (List.mem_of_mem_take hr)
      rw [hp.tokens_eq] at hr'
      exact List.mem_map_of_mem hr'
    exact words_all hmem

end

/-! ## the replacement -/

theorem splitTokenPunctuation_fst (token : Text) :
    (splitTokenPunctuation token).1.all notAlphanumeric = true ∧
      ∀ c ∈ (splitTokenPunctuation token).1, c ∈ token := by
  unfold splitTokenPunctuation
  simp only
  split
  · rename_i he
    refine ⟨?_, fun c hc => hc⟩
    have h0 : token.dropWhile notAlphanumeric = [] := by simpa using he
    rw [← List.takeWhile_append_dropWhile (p := notAlphanumeric) (l := token), h0, List.append_nil]
    exact List.all_takeWhile
  · exact ⟨List.all_takeWhile, fun c hc => (List.takeWhile_sublist _).mem hc⟩

theorem splitTokenPunctuation_trail (token : Text) :
    (splitTokenPunctuation token).2.2.all notAlphanumeric = true ∧
      ∀ c ∈ (splitTokenPunctuation token).2.2, c ∈ token := by
  unfold splitTokenPunctuation
  simp only
  split
  · exact ⟨rfl, fun c hc => absurd hc (by simp)⟩
  · refine ⟨by rw [List.all_reverse]; exact List.all_takeWhile, fun c hc => ?_⟩
    have h1 := (List.takeWhile_sublist _).mem (List.mem_reverse.mp hc)
    exact (List.dropWhile_sublist _).mem (List.mem_reverse.mp h1)

theorem tokenText_notWhitespace {side : PreparedSide} (hp : Prepared side) (k : Nat) :
    (tokenText side k).all notWhitespace = true := by
  unfold tokenText
  cases h : side.tokens[k]? with
  | none => rfl
  | some r =>
    have hr : r ∈ side.tokens := List.mem_of_getElem? h
    rw [hp.tokens_eq] at hr
    have hmem : r.text ∈ words notWhitespace side.text := List.mem_map_of_mem hr
    exact (words_all hmem).2

theorem isPunctuation_of {s token : Text} (h1 : s.all notAlphanumeric = true)
    (h2 : ∀ c ∈ s, c ∈ token) (ht : token.all notWhitespace = true) : IsPunctuation s :=
  ⟨h1, List.all_eq_true.mpr fun c hc => List.all_eq_true.mp ht c (h2 c hc)⟩

/-- **the replacement is a join of tokens without a meaning-critical word** -/
theorem replacementFor_plain {incumbent other : PreparedSide} {flip : Region}
    (hp : Prepared incumbent)
    (h : Plain ((tokenRange other (other.tokenOfNorm flip.bStart)
      (other.tokenOfNorm (flip.bStop - 1) + 1)).map Run.text)) :
    ∃ ts, (replacementFor incumbent other flip).2.2 = [' '].intercalate ts ∧ Plain ts := by
  unfold replacementFor
  simp only
  unfold tokenRange at h
  generalize (List.map Run.text (List.take _ (List.drop _ other.tokens))) = ts at h
  have hl : IsPunctuation (splitTokenPunctuation
      (tokenText incumbent (incumbent.tokenOfNorm flip.aStart))).1 := by
    obtain ⟨h1, h2⟩ := splitTokenPunctuation_fst
      (tokenText incumbent (incumbent.tokenOfNorm flip.aStart))
    exact isPunctuation_of h1 h2 (tokenText_notWhitespace hp _)
  have ht : IsPunctuation (splitTokenPunctuation (tokenText incumbent
      (incumbent.tokenOfNorm (flip.aStop - 1) + 1 - 1))).2.2 := by
    obtain ⟨h1, h2⟩ := splitTokenPunctuation_trail (tokenText incumbent
      (incumbent.tokenOfNorm (flip.aStop - 1) + 1 - 1))
    exact isPunctuation_of h1 h2 (tokenText_notWhitespace hp _)
  generalize (splitTokenPunctuation (tokenText incumbent _)).1 = lead at hl
  generalize (splitTokenPunctuation (tokenText incumbent _)).2.2 = trail at ht
  obtain ⟨o, os, rfl⟩ := List.exists_cons_of_ne_nil h.1
  have hlead : ∃ ts, (if (!lead.isEmpty && (([' '].intercalate (o :: os)).head?.any isAlphanumeric))
      = true then lead ++ [' '].intercalate (o :: os) else [' '].intercalate (o :: os)) =
      [' '].intercalate ts ∧ Plain ts := by
    split
    · exact ⟨_, join_lead lead o os, h.lead hl⟩
    · exact ⟨_, rfl, h⟩
  obtain ⟨ts, hts, hplain⟩ := hlead
  rw [hts]
  split
  · exact ⟨_, join_trail trail hplain.1, hplain.trail ht⟩
  · exact ⟨_, rfl, hplain⟩

/-! ## the splice -/

/-- a token counts as one symbol of a text of tokens -/
structure Word where
  text : Text
deriving DecidableEq, Repr

instance : ByteSized Word where
  size := fun _ => 1
  size_pos := fun _ => Nat.one_pos

theorem byteLen_words (ts : List Text) : byteLen (ts.map Word.mk) = ts.length := by
  induction ts with
  | nil => rfl
  | cons t ts ih =>
    rw [List.map_cons, byteLen_cons, ih, List.length_cons]
    exact Nat.add_comm _ _

def wordsOf (s : Text) : List Word := (splitWhitespace s).map Word.mk

/-- a flip as a replacement of bytes -/
def byteRepl (incumbent other : PreparedSide) (flip : Region) : Repl Char :=
  let flip := flipBytes incumbent other flip
  ⟨flip.1, flip.2.1, flip.2.2⟩

/-- a flip as a replacement of tokens -/
def tokenRepl (incumbent other : PreparedSide) (flip : Region) : Repl Word :=
  let flip := replacementFor incumbent other flip
  ⟨flip.1, flip.2.1, wordsOf flip.2.2⟩

structure FlipSpec (incumbent other : PreparedSide) (cursor token : Nat) (flips : List Region)
    (s out : Text) : Prop where
  bytes : Spliced cursor (flips.map (byteRepl incumbent other)) s out
  tokens : Spliced token (flips.map (tokenRepl incumbent other)) (wordsOf s) (wordsOf out)
  forbidden : forbiddenIn (splitWhitespace out) = forbiddenIn (splitWhitespace s)
  joint : headSep notWhitespace s = true → headSep notWhitespace out = true
  front : headSep isWhitespace s = true → headSep isWhitespace out = true
  back : lastSep isWhitespace s = true → lastSep isWhitespace out = true

theorem evaluateRegion_ok {region : Region} {incumbent other : PreparedSide}
    (h : (evaluateRegion region incumbent other).isOk = true) :
    region.aStart ≠ region.aStop ∧ region.bStart ≠ region.bStop ∧
      incumbent.regionOnTokenBoundaries region.aStart region.aStop = true ∧
      other.regionOnTokenBoundaries region.bStart region.bStop = true ∧
      incumbent.hasForbiddenToken region.aStart region.aStop = false ∧
      other.hasForbiddenToken region.bStart region.bStop = false := by
  unfold evaluateRegion at h
  simp only at h
  split at h
  · cases h
  rename_i h1
  split at h
  · cases h
  split at h
  · cases h
  rename_i h3
  split at h
  · cases h
  split at h
  · cases h
  rename_i h5
  simp only [Bool.or_eq_true, decide_eq_true_eq, not_or] at h1
  simp only [Bool.or_eq_true, Bool.not_eq_true', not_or, Bool.not_eq_false] at h3
  simp only [Bool.or_eq_true, not_or, Bool.not_eq_true] at h5
  exact ⟨h1.1, h1.2, h3.1, h3.2, h5.1, h5.2⟩

/-- what an accepted flip does: its token range and its replacement -/
structure FlipFacts (incumbent other : PreparedSide) (flip : Region) : Prop where
  range : FlipRange incumbent flip.aStart flip.aStop (replacementFor incumbent other flip).1
    (replacementFor incumbent other flip).2.1
  heard : Plain ((tokenRange incumbent (replacementFor incumbent other flip).1
    (replacementFor incumbent other flip).2.1).map Run.text)
  replacement : ∃ ts, (replacementFor incumbent other flip).2.2 = [' '].intercalate ts ∧ Plain ts

theorem flipFacts {incumbent other : PreparedSide} (hp : Prepared incumbent) (hq : Prepared other)
    {flip : Region} (hok : (evaluateRegion flip incumbent other).isOk = true)
    (ha : flip.aStart ≤ flip.aStop) (ha' : flip.aStop ≤ incumbent.normalized.length)
    (hb : flip.bStart ≤ flip.bStop) (hb' : flip.bStop ≤ other.normalized.length) :
    FlipFacts incumbent other flip := by
  obtain ⟨h1, h2, h3, h4, h5, h6⟩ := evaluateRegion_ok hok
  have hr := flipRange hp (by omega) ha' h3
  have hro := flipRange hq (by omega) hb' h4
  exact ⟨hr, hr.plain hp (by omega) h5,
    replacementFor_plain hp (hro.plain hq (by omega) h6)⟩

section
variable {incumbent other : PreparedSide}

theorem head_tokenRange {ts te : Nat} (hlt : ts < te) :
    (tokenRange incumbent ts te).head? = incumbent.tokens[ts]? := by
  unfold tokenRange
  rw [List.head?_take, if_neg (by omega), List.head?_drop]

theorem getLast_tokenRange {ts te : Nat} (hlt : ts < te) (hle : te ≤ incumbent.tokens.length) :
    (tokenRange incumbent ts te).getLast? = incumbent.tokens[te - 1]? := by
  unfold tokenRange
  rw [List.getLast?_eq_getElem?, List.length_take, List.length_drop, List.getElem?_take,
    if_pos (by omega), List.getElem?_drop]
  congr 1
  omega

theorem tokens_cut {t0 ts te : Nat} (h0 : t0 ≤ ts) (hlt : ts < te) :
    incumbent.tokens.drop t0 = (incumbent.tokens.drop t0).take (ts - t0) ++
      (tokenRange incumbent ts te ++ incumbent.tokens.drop te) := by
  have h1 := List.take_append_drop (ts - t0) (incumbent.tokens.drop t0)
  have h2 := List.take_append_drop (te - ts) (incumbent.tokens.drop ts)
  rw [List.drop_drop, show t0 + (ts - t0) = ts by omega] at h1
  rw [List.drop_drop, show ts + (te - ts) = te by omega] at h2
  unfold tokenRange
  rw [h2, h1]

theorem headSep_whitespace (s : Text) (hs : s ≠ []) :
    headSep isWhitespace s = !headSep notWhitespace s := by
  cases s with
  | nil => exact absurd rfl hs
  | cons c s => simp [headSep, notWhitespace]

theorem lastSep_whitespace (s : Text) (hs : s ≠ []) :
    lastSep isWhitespace s = !lastSep notWhitespace s :=
  headSep_whitespace s.reverse (by simpa using hs)

/-- one flip in front of a text that is already flipped -/
theorem FlipSpec.cons {cursor token : Nat} {flip : Region} {flips : List Region}
    {a w b out : Text} {ts : List Text} (hf : FlipFacts incumbent other flip)
    (hrep : (replacementFor incumbent other flip).2.2 = [' '].intercalate ts) (hts : Plain ts)
    (hrange : (byteRepl incumbent other flip).start = cursor + byteLen a ∧
      (byteRepl incumbent other flip).stop = cursor + byteLen a + byteLen w)
    (ht0 : token + (splitWhitespace a).length = (replacementFor incumbent other flip).1)
    (hla : lastSep notWhitespace a = true) (hw : headSep notWhitespace w = false)
    (hww : splitWhitespace w = (tokenRange incumbent (replacementFor incumbent other flip).1
      (replacementFor incumbent other flip).2.1).map Run.text)
    (hb : headSep notWhitespace b = true)
    (h : FlipSpec incumbent other (cursor + byteLen a + byteLen w)
      (replacementFor incumbent other flip).2.1 flips b out) :
    FlipSpec incumbent other cursor token (flip :: flips) (a ++ w ++ b)
      (a ++ [' '].intercalate ts ++ out) := by
  have hne : w ≠ [] := by intro h0; subst h0; cases hw
  obtain ⟨hjne, hjh, hjl⟩ := join_ends (fun t ht => (hts.2 t ht).1) hts.1
  have hout := h.joint hb
  have hsplit : splitWhitespace (a ++ w ++ b) =
      splitWhitespace a ++ splitWhitespace w ++ splitWhitespace b := by
    unfold splitWhitespace
    rw [words_append (by rw [hb, Bool.or_true]), words_append (by rw [hla, Bool.true_or])]
  have hsplit' : splitWhitespace (a ++ [' '].intercalate ts ++ out) =
      splitWhitespace a ++ ts ++ splitWhitespace out := by
    unfold splitWhitespace
    rw [words_append (by rw [hout, Bool.or_true]), words_append (by rw [hla, Bool.true_or]),
      words_join (fun t ht => (hts.2 t ht).1)]
  have hlen : (splitWhitespace w).length = (replacementFor incumbent other flip).2.1 -
      (replacementFor incumbent other flip).1 := by
    have h1 := hf.range.lt
    have h2 := hf.range.le
    rw [hww, List.length_map, tokenRange, List.length_take, List.length_drop]
    omega
  refine ⟨?_, ?_, ?_, ?_, ?_, ?_⟩
  · have htext : (byteRepl incumbent other flip).text = [' '].intercalate ts := hrep
    rw [← htext, List.map_cons]
    refine Spliced.cons hrange.1.symm (by rw [hrange.1, hrange.2]) ?_
    rw [hrange.2]
    exact h.bytes
  · have htext : (tokenRepl incumbent other flip).text = ts.map Word.mk := by
      show wordsOf (replacementFor incumbent other flip).2.2 = _
      rw [hrep, wordsOf, splitWhitespace, words_join (fun t ht => (hts.2 t ht).1)]
    unfold wordsOf
    rw [hsplit, hsplit', List.map_append, List.map_append, List.map_append, List.map_append,
      ← htext, List.map_cons]
    have h1 := hf.range.lt
    refine Spliced.cons ?_ ?_ h.tokens
    · rw [byteLen_words]; exact ht0
    · rw [byteLen_words, hlen]
      show (replacementFor incumbent other flip).1 + _ = (replacementFor incumbent other flip).2.1
      omega
  · rw [hsplit, hsplit', forbiddenIn_append, forbiddenIn_append, forbiddenIn_append,
      forbiddenIn_append, hww, hf.heard.forbiddenIn, hts.forbiddenIn, h.forbidden]
  · intro hs
    by_cases ha : a = []
    · subst ha
      rw [List.nil_append, headSep_append_of_ne_nil hne, hw] at hs
      cases hs
    · rw [List.append_assoc, headSep_append_of_ne_nil ha] at hs ⊢
      exact hs
  · intro hs
    by_cases ha : a = []
    · subst ha
      rw [List.nil_append, headSep_append_of_ne_nil hjne, headSep_whitespace _ hjne, hjh]
      rfl
    · rw [List.append_assoc, headSep_append_of_ne_nil ha] at hs ⊢
      exact hs
  · intro hs
    by_cases ho : out = []
    · subst ho
      rw [List.append_nil, lastSep_append_of_ne_nil hjne, lastSep_whitespace _ hjne, hjl]
      rfl
    · rw [lastSep_append_of_ne_nil ho]
      apply h.back
      by_cases hb0 : b = []
      · subst hb0; rfl
      · rwa [lastSep_append_of_ne_nil hb0] at hs

theorem sliceOf_rest {text P s : Text} (h : text = P ++ s) :
    sliceOf text (byteLen P) (byteLen text) = s := by
  have : slice (byteLen P) (byteLen text) text = some s :=
    slice_eq_some.mpr ⟨P, [], by simp [h], rfl, by rw [h, byteLen_append]⟩
  rw [sliceOf, this, Option.getD_some]

theorem sliceOf_part {text P a b : Text} (h : text = P ++ a ++ b) {n : Nat}
    (hn : n = byteLen P + byteLen a) : sliceOf text (byteLen P) n = a := by
  rw [sliceOf, slice_eq_some.mpr ⟨P, b, h, rfl, hn.symm⟩, Option.getD_some]

example : sliceOf "abcd".toList 1 3 = "bc".toList := by decide +kernel

/-- **the flips splice the text at token boundaries** -/
theorem applyFlipsFrom_spec (hp : Prepared incumbent) (hq : Prepared other) {flips : List Region}
    {i j token : Nat} {P s : Text}
    (hok : ∀ flip ∈ flips, (evaluateRegion flip incumbent other).isOk = true)
    (hap : Apart incumbent.normalized.length other.normalized.length i j flips)
    (htok : token = 0 ∨ ∃ start stop ts, FlipRange incumbent start stop ts token ∧ stop < i)
    (htext : incumbent.text = P ++ s)
    (hruns : Runs notWhitespace (byteLen P) s (incumbent.tokens.drop token)) :
    FlipSpec incumbent other (byteLen P) token flips s
      (applyFlipsFrom incumbent other (byteLen P) flips) := by
  induction flips generalizing i j token P s with
  | nil =>
    rw [applyFlipsFrom, sliceOf_rest htext]
    exact ⟨Spliced.nil _ _, Spliced.nil _ _, rfl, fun h => h, fun h => h, fun h => h⟩
  | cons flip flips ih =>
    obtain ⟨h1, h2, h3, h4, h5, h6, h7⟩ := hap
    have hf := flipFacts hp hq (hok flip List.mem_cons_self) h2 h3 h5 h6
    obtain ⟨ts, hrep, hts⟩ := hf.replacement
    have hlt := hf.range.lt
    have hle := hf.range.le
    have h0 : token ≤ (replacementFor incumbent other flip).1 := by
      rcases htok with h0 | ⟨start, stop, ts', hr, hlt'⟩
      · omega
      · exact hr.le_of_lt hf.range (by omega) (by omega)
    -- the tokens of the region cut the rest of the text
    have hfirst := @head_tokenRange incumbent _ _ hlt
    have hlast := getLast_tokenRange hlt hle
    rw [List.getElem?_eq_getElem (by omega)] at hfirst hlast
    have hcut := hruns
    rw [tokens_cut h0 hlt] at hcut
    obtain ⟨a, w, b, rfl, ha, hw, hra, hla, hww, hwh, hb, hrb⟩ := hcut.segment hfirst hlast
    have hbytes : (byteRepl incumbent other flip).start = byteLen P + byteLen a ∧
        (byteRepl incumbent other flip).stop = byteLen P + byteLen a + byteLen w := by
      unfold byteRepl flipBytes
      simp only
      rw [List.getElem?_eq_getElem (show (replacementFor incumbent other flip).1 < _ by omega),
        List.getElem?_eq_getElem (show (replacementFor incumbent other flip).2.1 - 1 < _ by omega)]
      exact ⟨ha.symm, hw.symm⟩
    have htext' : incumbent.text = (P ++ a ++ w) ++ b := by rw [htext]; simp
    have hlenP : byteLen (P ++ a ++ w) = byteLen P + byteLen a + byteLen w := by
      simp only [byteLen_append]
    have hih := ih (fun f hf' => hok f (List.mem_cons_of_mem _ hf')) h7
      (Or.inr ⟨_, _, _, hf.range, Nat.lt_succ_self _⟩) htext' (by rw [hlenP, hw]; exact hrb)
    rw [hlenP] at hih
    have happly : applyFlipsFrom incumbent other (byteLen P) (flip :: flips) =
        a ++ [' '].intercalate ts ++
          applyFlipsFrom incumbent other (byteLen P + byteLen a + byteLen w) flips := by
      rw [applyFlipsFrom]
      show sliceOf incumbent.text (byteLen P) (byteRepl incumbent other flip).start ++
        (replacementFor incumbent other flip).2.2 ++
        applyFlipsFrom incumbent other (byteRepl incumbent other flip).stop flips = _
      rw [hrep, hbytes.2, hbytes.1,
        sliceOf_part (by rw [htext]; simp : incumbent.text = P ++ a ++ (w ++ b)) rfl]
    rw [happly]
    refine FlipSpec.cons hf hrep hts hbytes ?_ hla hwh hww hb hih
    have := words_eq_of_runs hra
    unfold splitWhitespace
    rw [this, List.length_map, List.length_take, List.length_drop]
    omega

end

/-! ## the outcome -/

/-- the two sides of a pass and the regions that pass every guard -/
def acceptedOf (input : ArbitrationInput) : Option (PreparedSide × PreparedSide × List Region) := do
  let incumbent ← tryPrepareSide input.incumbentText input.incumbentConfidences
  let other ← tryPrepareSide input.otherText input.otherConfidences
  let ops ← align (incumbent.normalized.map NormWord.word) (other.normalized.map NormWord.word)
  return (incumbent, other, acceptedFlips (divergentRegions ops) incumbent other)

theorem acceptedOf_spec {input : ArbitrationInput} {incumbent other : PreparedSide}
    {flips : List Region} (h : acceptedOf input = some (incumbent, other, flips)) :
    incumbent.text = input.incumbentText ∧
      FlipSpec incumbent other 0 0 flips input.incumbentText (applyFlips incumbent other flips) := by
  unfold acceptedOf at h
  obtain ⟨inc, hinc, h⟩ := Option.bind_eq_some_iff.mp h
  obtain ⟨oth, hoth, h⟩ := Option.bind_eq_some_iff.mp h
  obtain ⟨ops, hops, h⟩ := Option.bind_eq_some_iff.mp h
  obtain ⟨rfl, h'⟩ := Prod.mk.inj (Option.some.inj h)
  obtain ⟨rfl, rfl⟩ := Prod.mk.inj h'
  obtain ⟨hp, ht⟩ := tryPrepareSide_prepared hinc
  obtain ⟨hq, -⟩ := tryPrepareSide_prepared hoth
  have hap := divergentRegions_apart hops
  rw [List.length_map, List.length_map] at hap
  refine ⟨ht, ?_⟩
  rw [← ht]
  apply applyFlipsFrom_spec (P := []) hp hq _ (hap.filter _) (Or.inl rfl) rfl
  · rw [hp.tokens_eq, List.drop_zero]
    exact runs_spec _ _ _
  · intro flip hf
    exact (List.mem_filter.mp hf).2

/-- the words and the tokens that `replacementFor` and `flipBytes` index are there -/
structure Indexed (incumbent other : PreparedSide) (flip : Region) : Prop where
  words : flip.aStart < flip.aStop ∧ flip.aStop ≤ incumbent.normalized.length
  heard : flip.bStart < flip.bStop ∧ flip.bStop ≤ other.normalized.length
  tokens : incumbent.tokenOfNorm flip.aStart ≤ incumbent.tokenOfNorm (flip.aStop - 1) ∧
    incumbent.tokenOfNorm (flip.aStop - 1) < incumbent.tokens.length
  heardTokens : other.tokenOfNorm flip.bStart ≤ other.tokenOfNorm (flip.bStop - 1) ∧
    other.tokenOfNorm (flip.bStop - 1) < other.tokens.length

theorem acceptedOf_indexed {input : ArbitrationInput} {incumbent other : PreparedSide}
    {flips : List Region} (h : acceptedOf input = some (incumbent, other, flips)) :
    ∀ flip ∈ flips, Indexed incumbent other flip := by
  unfold acceptedOf at h
  obtain ⟨inc, hinc, h⟩ := Option.bind_eq_some_iff.mp h
  obtain ⟨oth, hoth, h⟩ := Option.bind_eq_some_iff.mp h
  obtain ⟨ops, hops, h⟩ := Option.bind_eq_some_iff.mp h
  obtain ⟨rfl, h'⟩ := Prod.mk.inj (Option.some.inj h)
  obtain ⟨rfl, rfl⟩ := Prod.mk.inj h'
  obtain ⟨hp, -⟩ := tryPrepareSide_prepared hinc
  obtain ⟨hq, -⟩ := tryPrepareSide_prepared hoth
  have hap := divergentRegions_apart hops
  rw [List.length_map, List.length_map] at hap
  intro flip hflip
  obtain ⟨hregion, hok⟩ := List.mem_filter.mp hflip
  obtain ⟨ha, ha', hb, hb'⟩ := hap.bounds flip hregion
  obtain ⟨h1, h2, h3, h4, -⟩ := evaluateRegion_ok hok
  have hr := flipRange hp (by omega) ha' h3
  have hro := flipRange hq (by omega) hb' h4
  exact ⟨⟨by omega, ha'⟩, ⟨by omega, hb'⟩, ⟨Nat.le_of_lt_succ hr.lt, hr.le⟩,
    ⟨Nat.le_of_lt_succ hro.lt, hro.le⟩⟩

theorem toU32_eq_zero {n : Nat} : toU32 n = 0 ↔ n = 0 := by
  unfold toU32
  split <;> omega

/-- the outcome is the incumbent, or the flipped candidate when it passes both gates -/
theorem arbitrate_cases {input : ArbitrationInput} {outcome : ArbitrationOutcome}
    (h : arbitrate input = some outcome) :
    ∃ incumbent other flips, acceptedOf input = some (incumbent, other, flips) ∧
      ((outcome.text = incumbent.text ∧ outcome.regionsFlipped = 0) ∨
        (outcome.text = applyFlips incumbent other flips ∧ outcome.regionsFlipped ≠ 0 ∧
          isSourceDerived outcome.text input.sources = true ∧
          qualityFailureReason outcome.text input.sources = none)) := by
  unfold arbitrate at h
  obtain ⟨inc, hinc, h⟩ := Option.bind_eq_some_iff.mp h
  obtain ⟨oth, hoth, h⟩ := Option.bind_eq_some_iff.mp h
  obtain ⟨ops, hops, h⟩ := Option.bind_eq_some_iff.mp h
  refine ⟨inc, oth, acceptedFlips (divergentRegions ops) inc oth, ?_, ?_⟩
  · unfold acceptedOf
    rw [hinc, hoth]
    simp [hops]
  · simp only at h
    split at h
    · obtain rfl := Option.some.inj h
      exact Or.inl ⟨rfl, rfl⟩
    · rename_i hne
      split at h
      · rename_i hgate
        obtain rfl := Option.some.inj h
        obtain ⟨h1, h2⟩ := Bool.and_eq_true_iff.mp hgate
        refine Or.inr ⟨rfl, ?_, h1, by simpa using h2⟩
        intro h0
        exact hne (by simpa using List.length_eq_zero_iff.mp (toU32_eq_zero.mp h0))
      · obtain rfl := Option.some.inj h
        exact Or.inl ⟨rfl, rfl⟩

/-- **an arbitration pass keeps the meaning-critical words and every token outside the flips** -/
theorem arbitrate_preserves (input : ArbitrationInput) (outcome : ArbitrationOutcome)
    (h : arbitrate input = some outcome) :
    ∃ incumbent other flips, acceptedOf input = some (incumbent, other, flips) ∧
      -- what `applyFlips` indexes, and the ranges that it slices at
      (∀ flip ∈ flips, Indexed incumbent other flip) ∧
      Chain 0 (flips.map (byteRepl incumbent other)) ∧
      (∀ r ∈ flips.map (byteRepl incumbent other),
        isBoundary r.start input.incumbentText = true ∧
          isBoundary r.stop input.incumbentText = true) ∧
      (normalizedWords outcome.text).filter tokenForbidsFlip =
        (normalizedWords input.incumbentText).filter tokenForbidsFlip ∧
      (outcome.regionsFlipped = 0 → outcome.text = input.incumbentText) ∧
      (outcome.regionsFlipped ≠ 0 →
        Spliced 0 (flips.map (byteRepl incumbent other)) input.incumbentText outcome.text ∧
        Spliced 0 (flips.map (tokenRepl incumbent other)) (wordsOf input.incumbentText)
          (wordsOf outcome.text)) := by
  obtain ⟨incumbent, other, flips, hacc, hcases⟩ := arbitrate_cases h
  obtain ⟨htext, hspec⟩ := acceptedOf_spec hacc
  refine ⟨incumbent, other, flips, hacc, acceptedOf_indexed hacc, hspec.bytes.chain, ?_, ?_, ?_, ?_⟩
  · intro r hr
    have := hspec.bytes.boundary [] rfl r hr
    rwa [List.nil_append] at this
  · rcases hcases with ⟨he, -⟩ | ⟨he, -⟩
    · rw [he, htext]
    · rw [he]
      exact hspec.forbidden
  · intro h0
    rcases hcases with ⟨he, -⟩ | ⟨-, hne, -⟩
    · rw [he, htext]
    · exact absurd h0 hne
  · intro hne
    rcases hcases with ⟨-, h0⟩ | ⟨he, -⟩
    · exact absurd h0 hne
    · rw [he]
      exact ⟨hspec.bytes, hspec.tokens⟩

def twoFlips : ArbitrationInput :=
  let incumbent := "please 'ship, the cache today.".toList
  let other := "please chip the cash today".toList
  { incumbentText := incumbent
    incumbentConfidences :=
      [("please".toList, .finite (9 / 10)), ("'ship,".toList, .finite (1 / 10)),
        ("the".toList, .finite 1), ("cache".toList, .nan), ("today".toList, .posInfinity)]
    otherText := other
    otherConfidences := (splitWhitespace other).map fun word => (word, .finite (9 / 10))
    sources := [⟨.deepgram, incumbent⟩, ⟨.groq, other⟩] }

theorem arbitrate_preserves_twoFlips : ∃ outcome, arbitrate twoFlips = some outcome ∧
    outcome.text = "please 'chip, the cash today.".toList ∧
    (normalizedWords outcome.text).filter tokenForbidsFlip =
      (normalizedWords twoFlips.incumbentText).filter tokenForbidsFlip := by
  obtain ⟨outcome, h, ht⟩ : ∃ outcome, arbitrate twoFlips = some outcome ∧
      outcome.text = "please 'chip, the cash today.".toList := by
    have : (arbitrate twoFlips).map ArbitrationOutcome.text =
        some "please 'chip, the cash today.".toList := by decide +kernel
    exact Option.map_eq_some_iff.mp this
  obtain ⟨-, -, -, -, -, -, -, hf, -⟩ := arbitrate_preserves twoFlips outcome h
  exact ⟨outcome, h, ht, hf⟩

end Voisu.Arbitration
