import Mathlib
import Voisu.Compose.Gate
import Voisu.Lib.Except

/-!
# What the walk over the spans can do

* `Adjudicated`      the seven ways a span can go, with the checks that lead there;
* `Walked`           a whole walk;
* `alongWalk`        a condition on each span and the state in which the walk reaches it;
* `composeImpl_cases`   the gate delivers the baseline, or a candidate was admitted, its spans
                     walked and the text settled.
-/

namespace Voisu.Compose
open Lib

section
variable {digest : Digest} {input : ComposeInput} {candidate : StructuredCandidate}

/-! ## checks -/

theorem require_ok {ok : Bool} {trigger : FallbackTrigger} {codes : List ComposeErrorCode}
    {u : Unit} (h : require ok trigger codes = .ok u) : ok = true := by
  unfold require at h
  split at h
  · assumption
  · cases h

theorem refuse_ok {reject : Option Reject} {u : Unit} (h : refuse reject = .ok u) :
    reject = none := by
  cases reject with
  | none => rfl
  | some r => cases h

theorem admitCandidate_ok (h : admitCandidate digest input = .ok candidate) : input.candidate = some candidate := by
  unfold admitCandidate at h
  obtain ⟨_, -, h⟩ := bind_eq_ok h
  split at h
  · cases h
  rename_i c hc
  obtain ⟨_, -, h⟩ := bind_eq_ok h
  obtain ⟨_, -, h⟩ := bind_eq_ok h
  obtain ⟨_, -, h⟩ := bind_eq_ok h
  obtain ⟨_, -, h⟩ := bind_eq_ok h
  obtain ⟨_, -, h⟩ := bind_eq_ok h
  obtain ⟨_, -, h⟩ := bind_eq_ok h
  obtain ⟨_, -, h⟩ := bind_eq_ok h
  obtain rfl := Except.ok.inj h
  exact hc

/-! ## one span -/

variable (input candidate) in
/-- how a span can go, against the claims made before it -/
inductive Adjudicated (claimed : List Claim) (span : DerivationSpan) : Adjudication → Prop
  | malformedBreak (hk : span.kind = .layoutBreak) (hl : isLayoutText span.outputText = false) :
      Adjudicated claimed span .dropUnverifiable
  | layout (hk : span.kind = .layoutBreak) (hl : isLayoutText span.outputText = true) :
      Adjudicated claimed span (.apply span.outputText none)
  | unfindable (hk : span.kind ≠ .layoutBreak) (hf : findable input span = false) :
      Adjudicated claimed span .dropUnverifiable
  | protectedKept (hk : span.kind ≠ .layoutBreak) (hf : findable input span = true)
      (hp : spanPreservesProtectedTokens span input.protectedTokens = false) (range : Range)
      (h : placementOf input claimed span = .placed range) :
      Adjudicated claimed span (.dropProtected (some (span.sourceText, ⟨span.provider, range⟩)))
  | protectedLost (hk : span.kind ≠ .layoutBreak) (hf : findable input span = true)
      (hp : spanPreservesProtectedTokens span input.protectedTokens = false)
      (h : ∀ range, placementOf input claimed span ≠ .placed range) :
      Adjudicated claimed span (.dropProtected none)
  | overlapped (hk : span.kind ≠ .layoutBreak) (hf : findable input span = true)
      (hp : spanPreservesProtectedTokens span input.protectedTokens = true)
      (h : placementOf input claimed span = .overlapped) :
      Adjudicated claimed span (.dropOverlapped span.outputText)
  | placed (hk : span.kind ≠ .layoutBreak) (hf : findable input span = true)
      (hp : spanPreservesProtectedTokens span input.protectedTokens = true)
      (hc : checkKind candidate span span.provider = .ok ()) (range : Range)
      (h : placementOf input claimed span = .placed range) :
      Adjudicated claimed span (.apply span.outputText (some ⟨span.provider, range⟩))

theorem adjudicate_ok {claimed : List Claim} {span : DerivationSpan} {a : Adjudication}
    (h : adjudicate input candidate claimed span = .ok a) :
    Adjudicated input candidate claimed span a := by
  unfold adjudicate at h
  split at h
  · rename_i hk
    unfold adjudicateBreak at h
    split at h
    · rename_i hl
      obtain ⟨_, -, h⟩ := bind_eq_ok h
      obtain rfl := Except.ok.inj h
      exact .layout hk hl
    · rename_i hl
      obtain rfl := Except.ok.inj h
      exact .malformedBreak hk (by simpa using hl)
  · rename_i hk
    unfold adjudicateConsuming at h
    split at h
    · rename_i hf
      obtain ⟨_, hc, h⟩ := bind_eq_ok h
      unfold adjudicatePlaced at h
      split at h
      · rename_i hp
        split at h
        · cases h
        · rename_i hpl
          obtain rfl := Except.ok.inj h
          exact .overlapped hk hf hp hpl
        · rename_i range hpl
          obtain rfl := Except.ok.inj h
          exact .placed hk hf hp hc range hpl
      · rename_i hp
        have hp : spanPreservesProtectedTokens span input.protectedTokens = false := by
          simpa using hp
        split at h
        · rename_i range hpl
          obtain rfl := Except.ok.inj h
          exact .protectedKept hk hf hp range hpl
        · rename_i hpl
          obtain rfl := Except.ok.inj h
          exact .protectedLost hk hf hp (by rw [hpl]; intro range h0; cases h0)
        · rename_i hpl
          obtain rfl := Except.ok.inj h
          exact .protectedLost hk hf hp (by rw [hpl]; intro range h0; cases h0)
    · rename_i hf
      obtain rfl := Except.ok.inj h
      exact .unfindable hk (by simpa using hf)

/-! ## the walk -/

variable (input candidate) in
inductive Walked : List Claim → List DerivationSpan → List Adjudication → Prop
  | nil (claimed : List Claim) : Walked claimed [] []
  | cons {claimed : List Claim} {span : DerivationSpan} {spans : List DerivationSpan}
      {a : Adjudication} {as : List Adjudication} (h : Adjudicated input candidate claimed span a)
      (hw : Walked (claimed ++ a.claim.toList) spans as) : Walked claimed (span :: spans) (a :: as)

theorem walk_ok {claimed : List Claim} {spans : List DerivationSpan} {as : List Adjudication}
    (h : walk input candidate claimed spans = .ok as) :
    Walked input candidate claimed spans as := by
  induction spans generalizing claimed as with
  | nil =>
    obtain rfl := Except.ok.inj h
    exact .nil claimed
  | cons span spans ih =>
    unfold walk at h
    obtain ⟨a, ha, h⟩ := bind_eq_ok h
    obtain ⟨rest, hrest, h⟩ := bind_eq_ok h
    obtain rfl := Except.ok.inj h
    exact .cons (adjudicate_ok ha) (ih hrest)

/-! ## conditions along the walk -/

def SpanPlacement.range? : SpanPlacement → Option Range
  | .placed range => some range
  | .overlapped | .outOfOrder => none

/-- the claim of a span, after the claims made before it -/
def spanClaim (input : ComposeInput) (claimed : List Claim) (span : DerivationSpan) :
    Option Claim :=
  if span.kind = .layoutBreak || !findable input span then none
  else (placementOf input claimed span).range?.map fun range => ⟨span.provider, range⟩

/-- the text that a span renders: its output, or its source text where that loses a protected
token -/
def spanPart (input : ComposeInput) (claimed : List Claim) (span : DerivationSpan) : Text :=
  if span.kind = .layoutBreak then (if isLayoutText span.outputText then span.outputText else [])
  else if (spanClaim input claimed span).isNone then []
  else if spanPreservesProtectedTokens span input.protectedTokens then span.outputText
  else span.sourceText

/-- the claims made and the text rendered so far -/
structure WalkState where
  claimed : List Claim
  rendered : Text

def WalkState.init : WalkState := ⟨[], []⟩

def WalkState.next (input : ComposeInput) (st : WalkState) (span : DerivationSpan) : WalkState :=
  ⟨st.claimed ++ (spanClaim input st.claimed span).toList,
    st.rendered ++ spanPart input st.claimed span⟩

/-- `P` holds of each span in the state in which the walk reaches it -/
def alongWalk (input : ComposeInput) (P : WalkState → DerivationSpan → Bool) :
    WalkState → List DerivationSpan → Bool
  | _, [] => true
  | st, span :: spans => P st span && alongWalk input P (st.next input span) spans

theorem Adjudicated.claim_eq {claimed : List Claim} {span : DerivationSpan} {a : Adjudication}
    (h : Adjudicated input candidate claimed span a) : a.claim = spanClaim input claimed span := by
  unfold spanClaim
  cases h with
  | malformedBreak hk hl => rw [hk]; rfl
  | layout hk hl => rw [hk]; rfl
  | unfindable hk hf => simp [hf, Adjudication.dropUnverifiable]
  | protectedKept hk hf hp range h =>
    simp [hk, hf, h, SpanPlacement.range?, Adjudication.dropProtected]
  | protectedLost hk hf hp h =>
    cases hpl : placementOf input claimed span with
    | placed range => exact absurd hpl (h range)
    | overlapped => simp [hk, hf, SpanPlacement.range?, Adjudication.dropProtected]
    | outOfOrder => simp [hk, hf, SpanPlacement.range?, Adjudication.dropProtected]
  | overlapped hk hf hp h => simp [hk, hf, h, SpanPlacement.range?, Adjudication.dropOverlapped]
  | placed hk hf hp hc range h => simp [hk, hf, h, SpanPlacement.range?, Adjudication.apply]

theorem Adjudicated.spanPart_eq {claimed : List Claim} {span : DerivationSpan} {a : Adjudication}
    (h : Adjudicated input candidate claimed span a) : a.part = spanPart input claimed span := by
  unfold spanPart
  rw [← h.claim_eq]
  cases h with
  | malformedBreak hk hl => simp [hk, hl, Adjudication.dropUnverifiable]
  | layout hk hl => simp [hk, hl, Adjudication.apply]
  | unfindable hk hf => simp [hk, Adjudication.dropUnverifiable]
  | protectedKept hk hf hp range h => simp [hk, hp, Adjudication.dropProtected]
  | protectedLost hk hf hp h => simp [hk, Adjudication.dropProtected]
  | overlapped hk hf hp h => simp [hk, Adjudication.dropOverlapped]
  | placed hk hf hp hc range h => simp [hk, hp, Adjudication.apply]

/-- a condition along the walk holds at every step of it -/
theorem alongWalk_cons {P : WalkState → DerivationSpan → Bool} {st : WalkState}
    {span : DerivationSpan} {spans : List DerivationSpan} {a : Adjudication}
    (h : Adjudicated input candidate st.claimed span a)
    (hP : alongWalk input P st (span :: spans) = true) :
    P st span = true ∧ (st.next input span).claimed = st.claimed ++ a.claim.toList ∧
      (st.next input span).rendered = st.rendered ++ a.part ∧
      alongWalk input P (st.next input span) spans = true := by
  obtain ⟨h1, h2⟩ := Bool.and_eq_true_iff.mp hP
  refine ⟨h1, ?_, ?_, h2⟩
  · rw [h.claim_eq]
    rfl
  · rw [h.spanPart_eq]
    rfl

/-! ## the gate -/

/-- **the gate falls back, or it settles a walked candidate** -/
theorem composeImpl_cases (digest : Digest) (input : ComposeInput) :
    ((composeImpl digest input).rendered = input.localBaseline ∧
        (composeImpl digest input).decision = .fallbackBaseline) ∨
      ∃ candidate as, input.candidate = some candidate ∧
        Walked input candidate [] candidate.derivation as ∧
        settle input candidate as = .ok (composeImpl digest input) := by
  unfold composeImpl
  cases h : composeChecks digest input with
  | error reject => exact Or.inl ⟨rfl, rfl⟩
  | ok outcome =>
    unfold composeChecks at h
    obtain ⟨candidate, ha, h⟩ := bind_eq_ok h
    obtain ⟨as, hw, h⟩ := bind_eq_ok h
    exact Or.inr ⟨candidate, as, admitCandidate_ok ha, walk_ok hw, h⟩

/-- what the invented-atom gate has let through -/
theorem checkRendered_licensed {as : List Adjudication} {u : Unit}
    (h : checkRendered input candidate as = .ok u) :
    ∀ atom ∈ lexicalAtoms (proposedText as), atom ∈ licensed input candidate := by
  unfold checkRendered at h
  obtain ⟨_, -, h⟩ := bind_eq_ok h
  obtain ⟨_, -, h⟩ := bind_eq_ok h
  obtain ⟨_, -, h⟩ := bind_eq_ok h
  obtain ⟨_, -, h⟩ := bind_eq_ok h
  obtain ⟨_, -, h⟩ := bind_eq_ok h
  have h := require_ok h
  simpa using h

theorem salvage_ok {decision : CompositionDecision} {rendered : Text} {trigger : FallbackTrigger}
    {code : ComposeErrorCode} {outcome : ComposeOutcome}
    (h : salvage input decision rendered trigger code = .ok outcome) :
    outcome.rendered = rendered ∧ outcome.decision = decision := by
  unfold salvage at h
  obtain ⟨_, -, h⟩ := bind_eq_ok h
  obtain rfl := Except.ok.inj h
  exact ⟨rfl, rfl⟩

/-- an accepted candidate renders its parts, covers its sources and keeps its words -/
theorem accept_ok {as : List Adjudication} {outcome : ComposeOutcome}
    (h : accept input candidate as = .ok outcome) :
    outcome.rendered = composedText as ∧ outcome.decision = .accept ∧
      coverageFailure input (claimsMade as) = false ∧
      (candidate.derivation.zip as).all (fun p => p.2.discarded || outputMatches p.1) = true := by
  unfold accept at h
  obtain ⟨_, -, h⟩ := bind_eq_ok h
  obtain ⟨_, h1, h⟩ := bind_eq_ok h
  obtain ⟨_, h2, h⟩ := bind_eq_ok h
  obtain rfl := Except.ok.inj h
  exact ⟨rfl, rfl, by simpa using require_ok h1, require_ok h2⟩

end

end Voisu.Compose
