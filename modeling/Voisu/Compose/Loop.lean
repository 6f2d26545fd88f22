import Mathlib
import Voisu.Compose.Occurrences
import Voisu.Compose.Gate

/-!
# The gate as the code runs it

`compose_impl` of `compose_gate.rs` with its accumulators: maps from providers to claims, flags by
span index, a counter of applied spans.  A panic is an outcome of its own.

* `Progress`     the accumulators of the loop over the spans;
* `spanStep`     one iteration, `spanLoop` all of them;
* `conclude`     the checks after the loop;
* `composeRun`   the whole run.
-/

namespace Voisu.Compose
open Lib

/-- how the code leaves early -/
inductive Leave where
  | panic (trap : Trap)
  | reject (reject : Reject)
deriving DecidableEq, Repr

def orPanic {α : Type} (x : Except Trap α) : Except Leave α := x.mapError .panic

def orReject {α : Type} (x : Except Reject α) : Except Leave α := x.mapError .reject

/-- a map whose keys are provider names -/
abbrev ByProvider (α : Type) := AList fun _ : Text => α

/-- `map[provider]` -/
def readKey {α : Type} (m : ByProvider α) (provider : Text) : Except Trap α :=
  match m.lookup provider with
  | some v => .ok v
  | none => .error .missing

def providerTextMap (sources : List ComposeSource) : ByProvider Text :=
  sources.foldl (fun out s => if s.available then out.insert s.provider.asStr s.text else out) ∅

def constMap {α : Type} (keys : List Text) (v : α) : ByProvider α :=
  keys.foldr (fun p m => m.insert p v) ∅

/-! ## the accumulators -/

structure Progress where
  parts : List Text
  atomsParts : List Text
  discarded : List Bool
  claimed : ByProvider (List Range)
  prevStart : ByProvider Int
  appliedSpans : Nat
  rejectedSpans : List ComposeSpanRejection
  firstRejection : Option Reject

def Progress.start (sourceMap : ByProvider Text) (total : Nat) : Progress :=
  { parts := []
    atomsParts := []
    discarded := List.replicate total false
    claimed := constMap sourceMap.keys []
    prevStart := constMap sourceMap.keys (-1)
    appliedSpans := 0
    rejectedSpans := []
    firstRejection := none }

def Progress.noteRejection (st : Progress) (index : Nat) (reject : Reject)
    (reason : ComposeErrorCode) : Progress :=
  { st with
    rejectedSpans := st.rejectedSpans ++ [⟨index, reason⟩]
    firstRejection := st.firstRejection.or (some reject) }

@[simp] theorem Progress.noteRejection_claimed (st : Progress) (index : Nat) (reject : Reject)
    (reason : ComposeErrorCode) : (st.noteRejection index reject reason).claimed = st.claimed := rfl

@[simp] theorem Progress.noteRejection_prevStart (st : Progress) (index : Nat) (reject : Reject)
    (reason : ComposeErrorCode) :
    (st.noteRejection index reject reason).prevStart = st.prevStart := rfl

/-- `discarded[index] = true` -/
def Progress.discard (st : Progress) (index : Nat) : Except Trap Progress :=
  if index < st.discarded.length then
    .ok { st with discarded := st.discarded.set index true }
  else .error .index

def Progress.pushPart (st : Progress) (text : Text) : Progress :=
  { st with parts := st.parts ++ [text] }

def Progress.pushAtoms (st : Progress) (text : Text) : Progress :=
  { st with atomsParts := st.atomsParts ++ [text] }

def Progress.countApplied (st : Progress) : Progress :=
  { st with appliedSpans := st.appliedSpans + 1 }

/-- `claimed.get_mut(provider).unwrap().push(range)`, and the start of the range -/
def Progress.pushClaim (st : Progress) (provider : Text) (range : Range) :
    Except Trap Progress := do
  let ranges ← readKey st.claimed provider
  return { st with
    claimed := st.claimed.insert provider (ranges ++ [range])
    prevStart := st.prevStart.insert provider range.start }

/-! ## one span -/

/-- `place_span` -/
def placeInSource (sourceMap : ByProvider Text) (claimed : ByProvider (List Range))
    (prevStart : ByProvider Int) (provider sourceText : Text) : Except Trap SpanPlacement :=
  match sourceMap.lookup provider with
  | none => .ok .overlapped
  | some hay =>
    if sourceText.isEmpty then .ok .overlapped
    else do
      let found ← searchLiteralSpans hay sourceText
      let candidates := found.insertionSort fun a b => a.start ≤ b.start
      match candidates.find? fun cand =>
          !((claimed.lookup provider).getD []).any fun used => rangesOverlap cand used with
      | none => return .overlapped
      | some range =>
        return if (range.start : Int) < (prevStart.lookup provider).getD (-1) then .outOfOrder
          else .placed range

/-- the provider is a key of the source map and its text contains the span's -/
def foundInSource (sourceMap : ByProvider Text) (span : DerivationSpan) : Except Trap Bool :=
  if (sourceMap.lookup span.provider).isNone then .ok false
  else do
    let text ← readKey sourceMap span.provider
    return sourceContains text span.sourceText

/-- a span that cannot be tied to its source, or a malformed break -/
def dropStep (st : Progress) (index : Nat) : Except Trap Progress := do
  let st ← (st.noteRejection index ⟨some .unverifiableSourceDerivation, [.unverifiable]⟩
    .unverifiable).discard index
  return st.pushPart []

def breakStep (candidate : StructuredCandidate) (st : Progress) (index : Nat)
    (span : DerivationSpan) : Except Leave Progress :=
  if !isLayoutText span.outputText then orPanic (dropStep st index)
  else do
    orReject (require (!(clearNatural candidate.layout && isMultiparagraphText span.outputText))
      .unsafeSemantics [.unsafeSemantics])
    return ((st.pushPart span.outputText).pushAtoms span.outputText).countApplied

/-- the span loses a protected token: its source text stays where a free range holds it -/
def protectStep (sourceMap : ByProvider Text) (st : Progress) (index : Nat)
    (span : DerivationSpan) : Except Trap Progress := do
  let st ← (st.noteRejection index ⟨some .unsafeSemantics, [.protectedFact, .unsafeSemantics]⟩
    .protectedFact).discard index
  match ← placeInSource sourceMap st.claimed st.prevStart span.provider span.sourceText with
  | .placed range => return (← st.pushClaim span.provider range).pushPart span.sourceText
  | .overlapped | .outOfOrder => return st.pushPart []

def placeStep (sourceMap : ByProvider Text) (st : Progress) (index : Nat)
    (span : DerivationSpan) : Except Leave Progress := do
  match ← orPanic (placeInSource sourceMap st.claimed st.prevStart span.provider
      span.sourceText) with
  | .outOfOrder => throw (.reject ⟨some .unverifiableSourceDerivation, [.unverifiable]⟩)
  | .overlapped =>
    return ((st.noteRejection index ⟨some .unverifiableSourceDerivation, [.overlap]⟩
      .overlap).pushAtoms span.outputText).pushPart []
  | .placed range =>
    let st ← orPanic (st.pushClaim span.provider range)
    return ((st.pushAtoms span.outputText).pushPart span.outputText).countApplied

def consumingStep (input : ComposeInput) (candidate : StructuredCandidate)
    (sourceMap : ByProvider Text) (st : Progress) (index : Nat) (span : DerivationSpan) :
    Except Leave Progress := do
  let found ← orPanic (foundInSource sourceMap span)
  if !found then orPanic (dropStep st index)
  else
    orReject (checkKind candidate span span.provider)
    if !spanPreservesProtectedTokens span input.protectedTokens then
      orPanic (protectStep sourceMap st index span)
    else placeStep sourceMap st index span

def spanStep (input : ComposeInput) (candidate : StructuredCandidate)
    (sourceMap : ByProvider Text) (st : Progress) (index : Nat) (span : DerivationSpan) :
    Except Leave Progress :=
  if span.kind = .layoutBreak then breakStep candidate st index span
  else consumingStep input candidate sourceMap st index span

def spanLoop (input : ComposeInput) (candidate : StructuredCandidate)
    (sourceMap : ByProvider Text) (index : Nat) (st : Progress) :
    List DerivationSpan → Except Leave Progress
  | [] => .ok st
  | span :: spans => do
    let st ← spanStep input candidate sourceMap st index span
    spanLoop input candidate sourceMap (index + 1) st spans

/-! ## after the loop -/

/-- `covered[start..end] = true`, both ends within the text -/
def markRange (flags : List Bool) (r : Range) : List Bool :=
  flags.mapIdx fun k flag => flag || (r.start ≤ k && k < r.stop)

/-- a character of the provider's text that is not whitespace starts outside the claims -/
def uncoveredIn (sourceMap : ByProvider Text) (claimed : ByProvider (List Range))
    (provider : Text) : Except Trap Bool := do
  let text ← readKey sourceMap provider
  if text.isEmpty then return false
  else
    let ranges ← readKey claimed provider
    let covered := ranges.foldl markRange (List.replicate (byteLen text) false)
    (charIndices 0 text).anyM fun p =>
      if isWhitespace p.2 then .ok false else (indexOf covered p.1).map fun flag => !flag

/-- `coverage_failure` -/
def coverageFailureIn (sourceMap : ByProvider Text) (claimed : ByProvider (List Range))
    (selectedProvider : Text) : Except Trap Bool :=
  let providersToCover :=
    (if (sourceMap.lookup selectedProvider).isSome then [selectedProvider] else []) ++
      claimed.entries.filterMap fun e => if e.2.isEmpty then none else some e.1
  providersToCover.anyM (uncoveredIn sourceMap claimed)

/-- the output-sequence checks, span by span -/
def unmatchedOutput (discarded : List Bool) (index : Nat) :
    List DerivationSpan → Except Trap Bool
  | [] => .ok false
  | span :: spans => do
    if ← indexOf discarded index then unmatchedOutput discarded (index + 1) spans
    else if !outputMatches span then return true
    else unmatchedOutput discarded (index + 1) spans

/-- the gate on the rendered text and on the atoms it proposes -/
def checkText (input : ComposeInput) (candidate : StructuredCandidate)
    (composed proposed : Text) : Except Reject Unit := do
  require (!(clearNatural candidate.layout && isMultiparagraphText composed)) .unsafeSemantics
    [.unsafeSemantics]
  let headers := structuralHeaders composed
  require (headers.all closedStructuredLabels.contains) .invalidFixedLabel [.invalidLabel]
  require (!(input.policy == .natural && !headers.isEmpty)) .invalidFixedLabel [.invalidLabel]
  require (uncertainBacktrack candidate || uncertainLayout candidate ||
      holdsProtected input.protectedTokens composed)
    .unsafeSemantics [.protectedFact, .unsafeSemantics]
  require ((lexicalAtoms proposed).all (licensed input candidate).contains)
    .unsafeSemantics [.inventedContent, .unsafeSemantics]

def acceptRun (input : ComposeInput) (candidate : StructuredCandidate)
    (sourceMap : ByProvider Text) (st : Progress) (composed : Text) :
    Except Leave ComposeOutcome := do
  orReject (require (holdsProtected input.protectedTokens composed) .unsafeSemantics
    [.protectedFact, .unsafeSemantics])
  let uncovered ← orPanic (coverageFailureIn sourceMap st.claimed
    input.sourceSelection.selectedProvider.asStr)
  orReject (require (!uncovered) .unverifiableSourceDerivation [.unverifiable])
  let unmatched ← orPanic (unmatchedOutput st.discarded 0 candidate.derivation)
  orReject (require (!unmatched) .unsafeSemantics [.inventedContent, .unsafeSemantics])
  return { decision := .accept, rendered := composed, fallbackTrigger := none, errorCodes := []
           spanSummary := some
             { totalSpans := candidate.derivation.length
               appliedSpans := st.appliedSpans
               rejected := st.rejectedSpans } }

def conclude (input : ComposeInput) (candidate : StructuredCandidate)
    (sourceMap : ByProvider Text) (st : Progress) : Except Leave ComposeOutcome :=
  if st.appliedSpans = 0 then
    match st.firstRejection with
    -- `first_rejection.expect(..)`
    | none => .error (.panic .missing)
    | some reject => .error (.reject reject)
  else do
    let composed := st.parts.flatten
    orReject (checkText input candidate composed st.atomsParts.flatten)
    if uncertainBacktrack candidate then
      orReject (salvage input .acceptPreserveWords input.localBaseline .uncertainBacktracking
        .uncertainBacktrack)
    else if uncertainLayout candidate then
      orReject (salvage input .acceptNaturalLayout
        (if !input.localBaseline.isEmpty then input.localBaseline
          else naturalLayoutRender candidate.derivation)
        .uncertainLayout .uncertainLayout)
    else acceptRun input candidate sourceMap st composed

def composeSteps (digest : Digest) (input : ComposeInput) : Except Leave ComposeOutcome := do
  let sourceMap := providerTextMap input.sources
  let candidate ← orReject (admitCandidate digest input)
  let st ← spanLoop input candidate sourceMap 0
    (Progress.start sourceMap candidate.derivation.length) candidate.derivation
  conclude input candidate sourceMap st

/-- `compose_impl`, with its panics -/
def composeRun (digest : Digest) (input : ComposeInput) : Except Trap ComposeOutcome :=
  match composeSteps digest input with
  | .ok outcome => .ok outcome
  | .error (.reject reject) => .ok (baselineResult input.localBaseline reject)
  | .error (.panic trap) => .error trap

end Voisu.Compose
