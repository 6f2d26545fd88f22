import Mathlib
import Voisu.Compose.Seams

/-!
# Words that an accepted candidate keeps

A source word may go where a declared removal, the cue of a conversion or the cue of a label stands
for it.  Every other word is in the rendering, unless a conversion or a label swallows it or a span
boundary falls into a word that is not put together again.

* `excuses`         the words that a placed span may leave out;
* `spokenWords`     the words of the selected source that no placed span excuses;
* `swallows`        a span whose output is short of a word it does not excuse;
* `gluedAlike`      the same word crosses the joint in the source and in the rendered text;
* `composeImpl_conservesWords`   the words of an accepted candidate.
-/

namespace Voisu.Compose
open Lib

/-! ## excused words -/

def cueWords (conversionId : Text) : List Text :=
  (cueNeedles (conversionCue conversionId)).flatMap lexicalAtomSequence

/-- a declared removal excuses all its words, a closed conversion and a closed label their cues -/
def excuses (candidate : StructuredCandidate) (span : DerivationSpan) (word : Text) : Bool :=
  match span.kind with
  | .remove => declaredRemoval candidate span.provider span.sourceText
  | .convert =>
    span.conversionId.any fun id => closedConversions.contains id && (cueWords id).contains word
  | .label =>
    span.label.any fun lab =>
      closedStructuredLabels.contains lab && (lexicalAtomSequence lab).contains word
  | .keep | .layoutBreak => false

/-- the spans that are placed and not dropped, with their claims -/
def placedSpans (input : ComposeInput) (claimed : List Claim) :
    List DerivationSpan → List (DerivationSpan × Claim)
  | [] => []
  | span :: spans =>
    (if spanPreservesProtectedTokens span input.protectedTokens then
      (spanClaim input claimed span).toList.map fun claim => (span, claim) else []) ++
      placedSpans input (claimed ++ (spanClaim input claimed span).toList) spans

/-- the match lies in a placed span of the selected provider that excuses its word -/
def isExcused (input : ComposeInput) (candidate : StructuredCandidate) (m : Run Char) : Bool :=
  (placedSpans input [] candidate.derivation).any fun p =>
    p.2.provider == input.sourceSelection.selectedProvider.asStr &&
      p.2.range.start ≤ m.start && m.stop ≤ p.2.range.stop &&
      excuses candidate p.1 (toLowercase m.text)

def unexcused (excused : Run Char → Bool) (ms : List (Run Char)) : List Text :=
  (ms.filter fun m => !excused m).map fun m => toLowercase m.text

/-- the words of the selected source that no placed span excuses -/
def spokenWords (input : ComposeInput) (candidate : StructuredCandidate) (source : Text) :
    List Text :=
  unexcused (isExcused input candidate) (atomMatches source)

/-- the output has a word of the source text less often, and the span does not excuse it -/
def swallows (candidate : StructuredCandidate) (span : DerivationSpan) : Bool :=
  (lexicalAtomSequence span.sourceText).any fun word =>
    !excuses candidate span word &&
      (lexicalAtomSequence span.outputText).count word <
        (lexicalAtomSequence span.sourceText).count word

/-! ## one span -/

section
variable {input : ComposeInput} {candidate : StructuredCandidate} {source : Text}

theorem checkRemove_ok {span : DerivationSpan} {provider : Text} {u : Unit}
    (h : checkRemove candidate span provider = .ok u) :
    declaredRemoval candidate provider span.sourceText = true := by
  unfold checkRemove at h
  obtain ⟨_, -, h⟩ := bind_eq_ok h
  exact require_ok h

theorem count_of_not_swallows {span : DerivationSpan} (h : swallows candidate span = false)
    (word : Text) : excuses candidate span word = true ∨
      (lexicalAtomSequence span.sourceText).count word ≤
        (lexicalAtomSequence span.outputText).count word := by
  by_cases hw : word ∈ lexicalAtomSequence span.sourceText
  · have := List.any_eq_false.mp h word hw
    rw [Bool.and_eq_true_iff, Bool.not_eq_true', decide_eq_true_eq] at this
    cases he : excuses candidate span word with
    | true => exact Or.inl rfl
    | false => exact Or.inr (Nat.not_lt.mp fun h0 => this ⟨he, h0⟩)
  · rw [List.count_eq_zero_of_not_mem hw]
    exact Or.inr (Nat.zero_le _)

/-- a span with a claim renders each word of its source text, or is applied and excuses it -/
theorem Adjudicated.count_le {claimed : List Claim} {span : DerivationSpan} {a : Adjudication}
    {claim : Claim} (h : Adjudicated input candidate claimed span a) (hc : a.claim = some claim)
    (hm : (a.discarded || outputMatches span) = true)
    (hsw : spanPreservesProtectedTokens span input.protectedTokens = true →
      span.kind = .convert ∨ span.kind = .label → swallows candidate span = false)
    (word : Text) :
    (spanPreservesProtectedTokens span input.protectedTokens = true ∧
        excuses candidate span word = true) ∨
      (lexicalAtomSequence span.sourceText).count word ≤
        (lexicalAtomSequence a.part).count word := by
  cases h with
  | malformedBreak hb hl => cases hc
  | layout hb hl => cases hc
  | unfindable hb hf => cases hc
  | protectedKept hb hf hp range h => exact Or.inr (Nat.le_refl _)
  | protectedLost hb hf hp h => cases hc
  | overlapped hb hf hp h => cases hc
  | placed hb hf hp hcheck range h =>
    rw [hp]
    show (_ ∧ _) ∨ _ ≤ (lexicalAtomSequence span.outputText).count word
    cases hk : span.kind with
    | layoutBreak => exact absurd hk hb
    | keep =>
      have hm : outputMatches span = true := hm
      unfold outputMatches at hm
      rw [hk] at hm
      rw [beq_iff_eq.mp hm]
      exact Or.inr (Nat.le_refl _)
    | remove =>
      unfold checkKind at hcheck
      rw [hk] at hcheck
      refine Or.inl ⟨rfl, ?_⟩
      unfold excuses
      rw [hk]
      exact checkRemove_ok hcheck
    | convert =>
      exact (count_of_not_swallows (hsw hp (Or.inl hk)) word).imp_left fun he => ⟨rfl, he⟩
    | label =>
      exact (count_of_not_swallows (hsw hp (Or.inr hk)) word).imp_left fun he => ⟨rfl, he⟩

/-! ## words of one piece -/

theorem unexcused_append (excused : Run Char → Bool) (ms ns : List (Run Char)) :
    unexcused excused (ms ++ ns) = unexcused excused ms ++ unexcused excused ns := by
  unfold unexcused
  rw [List.filter_append, List.map_append]

example : unexcused (fun m => m.start == 0) [⟨0, "Foo".toList⟩, ⟨4, "Bar".toList⟩] = ["bar".toList] := by
  decide +kernel

/-- an atom lies in its text -/
theorem atomRuns_bounds {off : Nat} {m : Text} {r : Run Char}
    (hr : r ∈ atomRuns isAsciiAlphanumeric isJoiner off m) :
    off ≤ r.start ∧ r.stop ≤ off + byteLen m := by
  obtain ⟨l, l', h⟩ := List.append_of_mem hr
  obtain ⟨a, w, b, rfl, h1, h2, -⟩ :=
    @atomRuns_segment _ _ _ _ off m l [r] l' r r h rfl rfl
  simp only [byteLen_append]
  omega

/-- the words of the matches in a text -/
theorem atomRuns_lower (off : Nat) (s : Text) :
    (atomRuns isAsciiAlphanumeric isJoiner off s).map (fun r => toLowercase r.text) =
      lexicalAtomSequence s := by
  rw [lexicalAtomSequence_eq, ← atomRuns_words off, List.map_map]
  rfl

theorem count_unexcused {excused : Run Char → Bool} {ms : List (Run Char)} {word : Text} {n : Nat}
    (h : (∀ r ∈ ms, toLowercase r.text = word → excused r = true) ∨
      (ms.map fun r => toLowercase r.text).count word ≤ n) :
    (unexcused excused ms).count word ≤ n := by
  rcases h with h | h
  · have : word ∉ unexcused excused ms := by
      intro hw
      obtain ⟨r, hr, hword⟩ := List.mem_map.mp hw
      obtain ⟨hr, he⟩ := List.mem_filter.mp hr
      rw [h r hr hword] at he
      cases he
    rw [List.count_eq_zero_of_not_mem this]
    exact Nat.zero_le _
  · calc (unexcused excused ms).count word
        ≤ (ms.map fun r => toLowercase r.text).count word :=
          (List.filter_sublist.map _).count_le word
      _ ≤ n := h

theorem atomMatches_append {s t : Text} (h : textGlue s t = none) :
    atomMatches (s ++ t) =
      atomMatches s ++ atomRuns isAsciiAlphanumeric isJoiner (byteLen s) t := by
  unfold atomMatches
  rw [atomRuns_append 0 (glue_eq_none.mp h), Nat.zero_add]

/-- the matches of two texts that are glued -/
theorem atomMatches_glue {s t j : Text} (h : textGlue s t = some j) :
    ∃ rs r q qs m, atomMatches s = rs ++ [r] ∧
      atomRuns isAsciiAlphanumeric isJoiner (byteLen s) t = q :: qs ∧
      atomMatches (s ++ t) = rs ++ m :: qs ∧
      toLowercase m.text = toLowercase r.text ++ j ++ toLowercase q.text := by
  obtain ⟨rs, r, q, qs, m, hs, ht, hst, -⟩ := atomRuns_glue isJoiner_of_letter 0 h
  rw [Nat.zero_add] at ht
  obtain ⟨-, xs, x, y, ys, h1, h2, h3⟩ := lexicalAtomSequence_glue h
  rw [← atomRuns_lower 0, hs, List.map_append] at h1
  rw [← atomRuns_lower (byteLen s), ht] at h2
  rw [← atomRuns_lower 0, hst, List.map_append] at h3
  obtain ⟨rfl, hx⟩ := List.append_inj' h1 rfl
  obtain rfl : _ = x := (List.cons.inj hx).1
  obtain rfl : _ = y := (List.cons.inj h2).1
  exact ⟨rs, r, q, qs, m, hs, ht, hst, (List.cons.inj (List.append_cancel_left h3)).1⟩

/-! ## words at a joint -/

/-- no word crosses the two joints, or a word that is not excused crosses both alike -/
def gluedAlike (excused : Run Char → Bool) (before piece rendered part : Text) : Bool :=
  textGlue before piece == textGlue rendered part &&
    ((textGlue before piece).isNone ||
      ((lexicalAtomSequence piece).head? == (lexicalAtomSequence part).head? &&
        (atomMatches before).getLast?.any fun m =>
          !excused m && (lexicalAtomSequence rendered).getLast? == some (toLowercase m.text)))

example : gluedAlike (fun _ => false) "a-".toList "b c".toList "say A-".toList "B".toList = true ∧
    gluedAlike (fun _ => false) "a-".toList "b c".toList "say -".toList "B".toList = false := by
  decide +kernel

theorem count_glued {excused : Run Char → Bool} {before piece rendered part word : Text}
    (hglue : gluedAlike excused before piece rendered part = true)
    (hpre : (unexcused excused (atomMatches before)).count word ≤
      (lexicalAtomSequence rendered).count word)
    (hpiece : (∀ r ∈ atomRuns isAsciiAlphanumeric isJoiner (byteLen before) piece,
        toLowercase r.text = word → excused r = true) ∨
      (lexicalAtomSequence piece).count word ≤ (lexicalAtomSequence part).count word) :
    (unexcused excused (atomMatches (before ++ piece))).count word ≤
      (lexicalAtomSequence (rendered ++ part)).count word := by
  obtain ⟨hsame, hjoint⟩ := Bool.and_eq_true_iff.mp hglue
  have hsame : textGlue before piece = textGlue rendered part := beq_iff_eq.mp hsame
  rw [← atomRuns_lower (byteLen before)] at hpiece
  cases hg : textGlue before piece with
  | none =>
    rw [lexicalAtomSequence_append (hsame ▸ hg), atomMatches_append hg, unexcused_append,
      List.count_append, List.count_append]
    exact Nat.add_le_add hpre (count_unexcused hpiece)
  | some j =>
    rw [hg, Option.isNone_some, Bool.false_or] at hjoint
    obtain ⟨hhead, hlast⟩ := Bool.and_eq_true_iff.mp hjoint
    obtain ⟨rs, r, q, qs, m, hrs, hqs, hall, hm⟩ := atomMatches_glue hg
    obtain ⟨-, xs, x, y, ys, hx, hy, hxy⟩ := lexicalAtomSequence_glue (hsame ▸ hg)
    -- the word at the joint is the same in the source and in the rendered text
    rw [← atomRuns_lower (byteLen before), hqs, hy] at hhead
    obtain rfl : _ = y := Option.some.inj (beq_iff_eq.mp hhead)
    rw [hrs, List.getLast?_concat, Option.any_some, hx, List.getLast?_concat] at hlast
    obtain ⟨hr, hrx⟩ := Bool.and_eq_true_iff.mp hlast
    obtain rfl : x = _ := Option.some.inj (beq_iff_eq.mp hrx)
    have hfront : (unexcused excused rs).count word ≤ xs.count word := by
      have hlastWord : unexcused excused [r] = [toLowercase r.text] := by
        unfold unexcused
        simp [show excused r = false by simpa using hr]
      rw [hrs, unexcused_append, hlastWord, hx, List.count_append, List.count_append] at hpre
      exact Nat.le_of_add_le_add_right hpre
    have hback : (unexcused excused qs).count word ≤ ys.count word := by
      apply count_unexcused
      rw [hqs, hy] at hpiece
      refine hpiece.imp (fun h r hr => h r (List.mem_cons_of_mem _ hr)) fun h => ?_
      rw [List.map_cons, List.count_cons, List.count_cons] at h
      exact Nat.le_of_add_le_add_right h
    have hjoin : (unexcused excused [m]).count word ≤ [toLowercase m.text].count word :=
      count_unexcused (Or.inr (Nat.le_refl _))
    rw [hall, List.append_cons, unexcused_append, unexcused_append, hxy, ← hm, List.append_cons]
    simp only [List.count_append, Nat.add_assoc]
    exact Nat.add_le_add hfront (Nat.add_le_add hjoin hback)

/-! ## the walk -/

/-- no word crosses the front of the span, or the same word crosses it in the source and in the
rendered text; its source text has the words of its piece, and it swallows nothing -/
def standsApart (input : ComposeInput) (candidate : StructuredCandidate)
    (excused : Run Char → Bool) (source : Text) (st : WalkState) (span : DerivationSpan) : Bool :=
  match spanClaim input st.claimed span with
  | none => true
  | some claim =>
    (if claim.provider = input.sourceSelection.selectedProvider.asStr then
      (pieceAt source claim.range).any fun p =>
        gluedAlike excused p.1 p.2 st.rendered (spanPart input st.claimed span) &&
          (lexicalAtomSequence p.2).all fun word =>
            (lexicalAtomSequence p.2).count word ≤ (lexicalAtomSequence span.sourceText).count word
    else (textGlue st.rendered (spanPart input st.claimed span)).isNone) &&
      !(spanPreservesProtectedTokens span input.protectedTokens &&
        (span.kind == .convert || span.kind == .label) && swallows candidate span)

theorem standsApart_claim {excused : Run Char → Bool} {st : WalkState} {span : DerivationSpan}
    {claim : Claim} (h : standsApart input candidate excused source st span = true)
    (hsc : spanClaim input st.claimed span = some claim) :
    (claim.provider = input.sourceSelection.selectedProvider.asStr →
        ∀ before m, pieceAt source claim.range = some (before, m) →
          gluedAlike excused before m st.rendered (spanPart input st.claimed span) = true ∧
            ∀ word, (lexicalAtomSequence m).count word ≤
              (lexicalAtomSequence span.sourceText).count word) ∧
      (claim.provider ≠ input.sourceSelection.selectedProvider.asStr →
        textGlue st.rendered (spanPart input st.claimed span) = none) ∧
      (spanPreservesProtectedTokens span input.protectedTokens = true →
        span.kind = .convert ∨ span.kind = .label → swallows candidate span = false) := by
  unfold standsApart at h
  rw [hsc] at h
  obtain ⟨h, h3⟩ := Bool.and_eq_true_iff.mp h
  refine ⟨?_, ?_, ?_⟩
  · intro hprov before m hp
    rw [if_pos hprov, hp, Option.any_some] at h
    obtain ⟨h1, h2⟩ := Bool.and_eq_true_iff.mp h
    refine ⟨h1, fun word => ?_⟩
    by_cases hw : word ∈ lexicalAtomSequence m
    · exact of_decide_eq_true (List.all_eq_true.mp h2 word hw)
    · rw [List.count_eq_zero_of_not_mem hw]
      exact Nat.zero_le _
  · intro hprov
    rw [if_neg hprov] at h
    exact Option.isNone_iff_eq_none.mp h
  · intro hp hk
    have hk : (span.kind == .convert || span.kind == .label) = true := by
      rcases hk with hk | hk <;> rw [hk] <;> rfl
    rw [hp, hk] at h3
    simpa using h3

/-- what a match in a placed span needs to be excused -/
def ExcusedBy (input : ComposeInput) (candidate : StructuredCandidate) (excused : Run Char → Bool)
    (placed : List (DerivationSpan × Claim)) : Prop :=
  ∀ p ∈ placed, p.2.provider = input.sourceSelection.selectedProvider.asStr →
    ∀ m : Run Char, p.2.range.start ≤ m.start → m.stop ≤ p.2.range.stop →
      excuses candidate p.1 (toLowercase m.text) = true → excused m = true

theorem atomMatches_blank {s g : Text} (hg : g.all (fun c => !isPlain c) = true) :
    atomMatches (s ++ g) = atomMatches s := by
  have h : textGlue s g = none :=
    glue_eq_none.mpr (runsTogether_of_sep (by rw [headSep_of_all hg, Bool.or_true]))
  have h0 : atomRuns isAsciiAlphanumeric isJoiner (byteLen s) g = [] := by
    rw [← List.map_eq_nil_iff (f := Run.text), atomRuns_words, atomWords_gap hg]
  rw [atomMatches_append h, h0, List.append_nil]

theorem Walked.conserves {excused : Run Char → Bool} {st : WalkState}
    {spans : List DerivationSpan} {as : List Adjudication} {pre rest : Text}
    (hw : Walked input candidate st.claimed spans as) (hs : source = pre ++ rest)
    (hl : Laid (byteLen pre) rest
      (claimsOf input.sourceSelection.selectedProvider.asStr (claimsMade as)))
    (hexc : ExcusedBy input candidate excused (placedSpans input st.claimed spans))
    (hpre : ∀ word, (unexcused excused (atomMatches pre)).count word ≤
      (lexicalAtomSequence st.rendered).count word)
    (hm : (spans.zip as).all (fun p => p.2.discarded || outputMatches p.1) = true)
    (happart : alongWalk input (standsApart input candidate excused source) st spans = true)
    (word : Text) :
    (unexcused excused (atomMatches source)).count word ≤
      (lexicalAtomSequence (st.rendered ++ composedText as)).count word := by
  generalize hst : st.claimed = claimed at hw
  induction hw generalizing st pre rest with
  | nil =>
    cases hl with
    | gap hg =>
      rw [hs, atomMatches_blank (gap_of_whitespace hg)]
      have := hpre word
      rwa [← List.append_nil st.rendered] at this
  | @cons claimed span spans a as ha hw ih =>
    subst hst
    obtain ⟨hapart1, hnext1, hnext2, hapart2⟩ := alongWalk_cons ha happart
    obtain ⟨hm1, hm2⟩ := Bool.and_eq_true_iff.mp hm
    have hexc2 : ExcusedBy input candidate excused
        (placedSpans input (st.next input span).claimed spans) := by
      intro p hp
      exact hexc p (List.mem_append_right _ hp)
    rw [composedText_cons ha as]
    cases hc : a.claim with
    | none =>
      refine ih hs ?_ hexc2 ?_ hm2 hapart2 hnext1
      · simpa [claimsMade, hc] using hl
      · rw [hnext2, lexicalAtomSequence_blank (ha.blank_of_no_claim hc)]
        exact hpre
    | some claim =>
      have hsc : spanClaim input st.claimed span = some claim := by rw [← ha.claim_eq, hc]
      obtain ⟨hpiece, hglue, hsw⟩ := standsApart_claim hapart1 hsc
      rw [← ha.spanPart_eq] at hpiece hglue
      by_cases hprov : claim.provider = input.sourceSelection.selectedProvider.asStr
      · obtain ⟨g, m, s, hsrc, hg, hr, hp, hl'⟩ := hl.next_piece hc hprov hs
        obtain ⟨halike, hwords⟩ := hpiece hprov _ _ hp
        refine ih hsrc hl' hexc2 ?_ hm2 hapart2 hnext1
        intro w
        rw [hnext2]
        refine count_glued halike ?_ ?_
        · rw [atomMatches_blank (gap_of_whitespace hg)]
          exact hpre w
        rcases ha.count_le hc hm1 hsw w with ⟨hpres, hex⟩ | hle
        · -- the whole piece lies in the claim of the span
          refine Or.inl fun r hrun hrw => ?_
          obtain ⟨h1, h2⟩ := atomRuns_bounds hrun
          refine hexc (span, claim) ?_ hprov r ?_ ?_ ?_
          · apply List.mem_append_left
            rw [if_pos hpres, hsc]
            exact List.mem_singleton.mpr rfl
          · rw [hr]
            exact h1
          · rw [hr]
            exact h2
          · rw [hrw]
            exact hex
        · exact Or.inr ((hwords w).trans hle)
      · refine ih hs ?_ hexc2 ?_ hm2 hapart2 hnext1
        · simpa [claimsMade, hc, claimsOf, hprov] using hl
        · intro w
          rw [hnext2, lexicalAtomSequence_append (hglue hprov), List.count_append]
          exact Nat.le_add_right_of_le (hpre w)

end

/-! ## conserved words -/

/-- an accepted rendering has every unexcused word of the selected source, as often as it is said -/
def ConservesWords (digest : Digest) (input : ComposeInput) : Prop :=
  (composeImpl digest input).decision = .accept →
    ∀ candidate source, input.candidate = some candidate →
      selectedSourceText input = some source →
      ∀ word, (spokenWords input candidate source).count word ≤
        (lexicalAtomSequence (composeImpl digest input).rendered).count word

/-- the source that is walked is the selected one, and every span stands apart in it -/
def spansStandApart (input : ComposeInput) : Bool :=
  input.candidate.all fun candidate =>
    (selectedSourceText input).all fun source =>
      providerText input.sources input.sourceSelection.selectedProvider.asStr == some source &&
        alongWalk input (standsApart input candidate (isExcused input candidate) source) .init
          candidate.derivation

theorem excusedBy_isExcused (input : ComposeInput) (candidate : StructuredCandidate) :
    ExcusedBy input candidate (isExcused input candidate)
      (placedSpans input [] candidate.derivation) := by
  intro p hp hprov m h1 h2 he
  apply List.any_eq_true.mpr
  refine ⟨p, hp, ?_⟩
  rw [hprov, he]
  simp [h1, h2]

/-- the digest of `delete all files period` -/
def deleteDigest : Digest := fun _ =>
  [235, 247, 30, 78, 213, 217, 64, 70, 203, 7, 199, 58, 229, 161, 146, 234, 145, 92, 117, 132, 142,
    117, 91, 247, 3, 80, 31, 196, 164, 12, 221, 16]

def periodSpan (sourceText outputText : String) : DerivationSpan :=
  ⟨.convert, some "provider_a".toList, sourceText.toList, outputText.toList,
    some "period→.".toList, none⟩

def deleteInput (derivation : List DerivationSpan) : ComposeInput :=
  oneSourceInput deleteDigest "delete all files period".toList [] .clear
    [⟨"period→.".toList, "provider_a".toList, "period".toList⟩] derivation

end Voisu.Compose
