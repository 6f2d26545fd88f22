import Mathlib
import Voisu.Compose.Atoms
import Voisu.Compose.Walk

/-!
# Only licensed words are delivered

The invented-atom gate judges the text of the spans that are anchored, and the gate delivers the
text of the spans that are rendered.  Where the two are the same, every word delivered is licensed.

* `judgedAsRendered`     the span is not dropped with its text judged only, or kept unjudged;
* `laidOutAsJudged`      the natural layout renders the text that is judged of the span;
* `composeImpl_licensed`   the licence of every delivered word under these conditions.
-/

namespace Voisu.Compose
open Lib

/-! ## conditions along the walk -/

/-- an anchored span is rendered as it is judged: no overlap drops a text, and no source text is
kept for a protected token -/
def judgedAsRendered (input : ComposeInput) (st : WalkState) (span : DerivationSpan) : Bool :=
  span.kind = .layoutBreak || !findable input span ||
    if spanPreservesProtectedTokens span input.protectedTokens then
      placementOf input st.claimed span != .overlapped || span.outputText.isEmpty
    else (placementOf input st.claimed span).range?.isNone

/-- the natural layout renders the text of the span that is judged: all of it, or none when there
is none -/
def laidOutAsJudged (input : ComposeInput) (span : DerivationSpan) : Bool :=
  if span.kind = .layoutBreak then isLayoutText span.outputText && !span.outputText.isEmpty
  else
    span.outputText.isEmpty ||
      findable input span && spanPreservesProtectedTokens span input.protectedTokens

/-- a check refuses the candidate -/
def refuses (digest : Digest) (input : ComposeInput) : Bool :=
  match composeChecks digest input with
  | .ok _ => false
  | .error _ => true

/-- on the path that delivers other text than the baseline, the text judged is the text delivered -/
def deliveredAsJudged (digest : Digest) (input : ComposeInput) : Bool :=
  refuses digest input ||
    input.candidate.all fun candidate =>
      uncertainBacktrack candidate ||
        if uncertainLayout candidate then
          !input.localBaseline.isEmpty || candidate.derivation.all (laidOutAsJudged input)
        else alongWalk input (judgedAsRendered input) .init candidate.derivation

section
variable {digest : Digest} {input : ComposeInput} {candidate : StructuredCandidate}
  {st : WalkState} {claimed : List Claim}

/-! ## the text judged and the text rendered -/

theorem Adjudicated.part_eq {span : DerivationSpan} {a : Adjudication}
    (h : Adjudicated input candidate st.claimed span a)
    (hj : judgedAsRendered input st span = true) : a.part = a.judged.getD [] := by
  unfold judgedAsRendered at hj
  cases h with
  | malformedBreak hk hl => rfl
  | layout hk hl => rfl
  | unfindable hk hf => rfl
  | protectedKept hk hf hp range h => simp [hk, hf, hp, h, SpanPlacement.range?] at hj
  | protectedLost hk hf hp h => rfl
  | overlapped hk hf hp h =>
    simp only [hk, hf, hp, h, decide_false, Bool.not_true, Bool.false_or, if_pos, bne_self_eq_false,
      List.isEmpty_iff] at hj
    simp [Adjudication.dropOverlapped, hj]
  | placed hk hf hp hc range h => rfl

theorem composedText_eq {spans : List DerivationSpan} {as : List Adjudication}
    (h : Walked input candidate st.claimed spans as)
    (hj : alongWalk input (judgedAsRendered input) st spans = true) :
    composedText as = proposedText as := by
  generalize hst : st.claimed = claimed at h
  induction h generalizing st with
  | nil => rfl
  | cons h hw ih =>
    subst hst
    obtain ⟨h1, h2, -, h3⟩ := alongWalk_cons h hj
    show _ ++ composedText _ = _ ++ proposedText _
    rw [h.part_eq h1, ih h3 h2]

theorem Adjudicated.judged_eq {span : DerivationSpan} {a : Adjudication}
    (h : Adjudicated input candidate claimed span a) (hu : laidOutAsJudged input span = true) :
    a.judged.getD [] = span.outputText := by
  unfold laidOutAsJudged at hu
  cases h with
  | malformedBreak hk hl => simp [hk, hl] at hu
  | layout hk hl => rfl
  | unfindable hk hf =>
    have hempty : span.outputText = [] := by simpa [hk, hf] using hu
    exact hempty.symm
  | protectedKept hk hf hp range h =>
    have hempty : span.outputText = [] := by simpa [hk, hf, hp] using hu
    exact hempty.symm
  | protectedLost hk hf hp h =>
    have hempty : span.outputText = [] := by simpa [hk, hf, hp] using hu
    exact hempty.symm
  | overlapped hk hf hp h => rfl
  | placed hk hf hp hc range h => rfl

theorem proposedText_eq {spans : List DerivationSpan} {as : List Adjudication}
    (h : Walked input candidate claimed spans as)
    (hu : spans.all (laidOutAsJudged input) = true) :
    proposedText as = spans.flatMap DerivationSpan.outputText := by
  induction h with
  | nil => rfl
  | cons h hw ih =>
    obtain ⟨h1, h2⟩ := Bool.and_eq_true_iff.mp hu
    rw [List.flatMap_cons, ← h.judged_eq h1, ← ih h2]
    rfl

theorem breaks_blank {spans : List DerivationSpan}
    (hu : spans.all (laidOutAsJudged input) = true) :
    ∀ span ∈ spans, span.kind = .layoutBreak →
      isLayoutText span.outputText = true ∧ span.outputText ≠ [] := by
  intro span hmem hk
  have h1 := List.all_eq_true.mp hu span hmem
  unfold laidOutAsJudged at h1
  rw [if_pos hk] at h1
  obtain ⟨h3, h4⟩ := Bool.and_eq_true_iff.mp h1
  exact ⟨h3, by simpa using h4⟩

end

/-! ## the natural layout -/

theorem gap_of_layoutText {g : Text} (h : isLayoutText g = true) :
    g.all (fun c => !isPlain c) = true := by
  unfold isLayoutText at h
  rw [List.all_eq_true] at h ⊢
  intro c hc
  have := h c hc
  simp only [Bool.or_eq_true, beq_iff_eq] at this
  rcases this with ((rfl | rfl) | rfl) | rfl <;> rfl

theorem not_isPlain_of_isSpaceOrTab {c : Char} (h : isSpaceOrTab c = true) :
    [c].all (fun c => !isPlain c) = true := by
  simp only [isSpaceOrTab, Bool.or_eq_true, beq_iff_eq] at h
  rcases h with rfl | rfl <;> rfl

/-- squeezing keeps the words behind any text; inside a run that text ends in a separator -/
theorem words_squeezeFrom (s t : Text) :
    words isPlain (t ++ squeezeFrom false s) = words isPlain (t ++ s) ∧
      (lastSep isPlain t = true →
        words isPlain (t ++ squeezeFrom true s) = words isPlain (t ++ s)) := by
  have hspace : isSpaceOrTab ' ' = true := rfl
  induction s generalizing t with
  | nil => exact ⟨rfl, fun _ => rfl⟩
  | cons c s ih =>
    by_cases hc : isSpaceOrTab c = true
    · have hg := words_around_gap t s (not_isPlain_of_isSpaceOrTab hc) (by simp)
      have hsp := words_around_gap t (squeezeFrom true s) (not_isPlain_of_isSpaceOrTab hspace)
        (by simp)
      have hs : words isPlain (squeezeFrom true s) = words isPlain s := (ih []).2 rfl
      rw [List.singleton_append] at hg hsp
      refine ⟨?_, fun ht => ?_⟩
      · show words isPlain (t ++ if isSpaceOrTab c then _ else _) = _
        rw [if_pos hc, if_neg (by simp), hsp, hs, hg]
      · show words isPlain (t ++ if isSpaceOrTab c then _ else _) = _
        rw [if_pos hc, if_pos rfl, words_append (by rw [ht, Bool.true_or]), hs, hg]
    · have h := (ih (t ++ [c])).1
      rw [List.append_assoc, List.append_assoc] at h
      have hstep : ∀ inRun, squeezeFrom inRun (c :: s) = [c] ++ squeezeFrom false s := by
        intro inRun
        show (if isSpaceOrTab c then _ else _) = _
        rw [if_neg hc]
        rfl
      rw [hstep, hstep]
      exact ⟨h, fun _ => h⟩

/-- breaks may be written as any whitespace -/
theorem words_breaks {spans : List DerivationSpan}
    (h : ∀ span ∈ spans, span.kind = .layoutBreak →
      isLayoutText span.outputText = true ∧ span.outputText ≠ []) (t : Text) :
    words isPlain (t ++ spans.flatMap fun span =>
        if span.kind = .layoutBreak then [' '] else span.outputText) =
      words isPlain (t ++ spans.flatMap DerivationSpan.outputText) := by
  induction spans generalizing t with
  | nil => rfl
  | cons span spans ih =>
    have ih := ih fun s hs => h s (List.mem_cons_of_mem _ hs)
    rw [List.flatMap_cons, List.flatMap_cons]
    by_cases hk : span.kind = .layoutBreak
    · obtain ⟨hl, hne⟩ := h span List.mem_cons_self hk
      have hsp : ([' '] : Text).all (fun c => !isPlain c) = true := rfl
      have ih0 := ih []
      rw [List.nil_append, List.nil_append] at ih0
      rw [if_pos hk, words_around_gap t _ hsp (by simp),
        words_around_gap t _ (gap_of_layoutText hl) hne, ih0]
    · rw [if_neg hk, ← List.append_assoc, ← List.append_assoc]
      exact ih _

theorem lexicalAtoms_naturalLayoutRender {spans : List DerivationSpan}
    (h : ∀ span ∈ spans, span.kind = .layoutBreak →
      isLayoutText span.outputText = true ∧ span.outputText ≠ []) :
    lexicalAtoms (naturalLayoutRender spans) =
      lexicalAtoms (spans.flatMap DerivationSpan.outputText) := by
  apply lexicalAtoms_eq_of_words
  unfold naturalLayoutRender
  rw [words_trim]
  have h1 := (words_squeezeFrom (spans.flatMap fun span =>
    if span.kind = .layoutBreak then [' '] else span.outputText) []).1
  have h2 := words_breaks h []
  rw [List.nil_append, List.nil_append] at h1 h2
  rw [h1, h2]

/-! ## the licence -/

/-- the delivered text is the baseline, or its words are in the sources or the declarations -/
def LicensedDelivery (digest : Digest) (input : ComposeInput) : Prop :=
  (composeImpl digest input).rendered = input.localBaseline ∨
    ∃ candidate, input.candidate = some candidate ∧
      ∀ atom ∈ lexicalAtoms (composeImpl digest input).rendered, atom ∈ licensed input candidate

theorem rendered_of_refuses {digest : Digest} {input : ComposeInput}
    (h : refuses digest input = true) :
    (composeImpl digest input).rendered = input.localBaseline := by
  unfold refuses at h
  unfold composeImpl
  cases hchecks : composeChecks digest input with
  | ok outcome =>
    rw [hchecks] at h
    cases h
  | error reject => rfl

/-- a clear natural candidate over the only source, with the digest that source has -/
def oneSourceInput (digest : Digest) (source baseline : Text) (certainty : ComposeCertainty)
    (conversions : List ConversionClaim) (derivation : List DerivationSpan) : ComposeInput :=
  let fingerprint := textSha256Fingerprint digest source
  { localBaseline := baseline
    baseFingerprint := fingerprint
    sources := [⟨.providerA, true, source⟩]
    sourceSelection := ⟨.providerA, "only_available".toList⟩
    protectedTokens := []
    policy := .adaptive
    cloudOutcome := .succeeded
    candidate := some
      { schemaVersion := ['1']
        baseFingerprint := fingerprint
        reconciliation := ⟨"provider_a".toList, "only_available".toList⟩
        removals := []
        conversions
        layout := ⟨.natural, certainty⟩
        labels := []
        derivation } }

def keepSpan (sourceText outputText : String) : DerivationSpan :=
  ⟨.keep, some "provider_a".toList, sourceText.toList, outputText.toList, none, none⟩

def breakSpan (outputText : String) : DerivationSpan :=
  ⟨.layoutBreak, none, [], outputText.toList, none, none⟩

/-- the digest of `foo bar` -/
def fooBarDigest : Digest := fun _ =>
  [251, 193, 169, 248, 88, 234, 158, 23, 121, 22, 150, 75, 216, 140, 61, 55, 185, 26, 30, 132, 65,
    39, 101, 226, 153, 80, 119, 127, 38, 92, 75, 117]

/-- the second space is judged between the words and never rendered there -/
def spaceClaimedTwice : ComposeInput :=
  oneSourceInput fooBarDigest "foo bar".toList "foo bar".toList .clear []
    [keepSpan "foo" "foo", keepSpan " " "", keepSpan " " " ", keepSpan "bar" "bar"]

end Voisu.Compose
