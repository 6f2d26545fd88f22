import Mathlib
import Voisu.Compose.Placement

/-!
# The compose gate

`compose_impl` of `compose_gate.rs`: a structured candidate is checked, its spans are adjudicated
one by one, and the text they render is delivered or the local baseline is.

* `admitCandidate` the checks before the spans are read;
* `adjudicate`      one span against the claims made so far;
* `walk`            the spans in order;
* `settle`          the checks on the rendered text, the salvage paths and the acceptance;
* `composeImpl`     the gate.
-/

namespace Voisu.Compose
open Lib

/-- a rejection of the whole candidate -/
structure Reject where
  trigger : Option FallbackTrigger
  codes : List ComposeErrorCode
deriving DecidableEq, Repr

/-- go on when `ok`, reject otherwise -/
def require (ok : Bool) (trigger : FallbackTrigger) (codes : List ComposeErrorCode) :
    Except Reject Unit :=
  if ok then .ok () else .error ⟨some trigger, codes⟩

/-- go on unless there is a reason to reject -/
def refuse : Option Reject → Except Reject Unit
  | some reject => .error reject
  | none => .ok ()

def baselineResult (baseline : Text) (reject : Reject) : ComposeOutcome :=
  { decision := .fallbackBaseline
    rendered := baseline
    fallbackTrigger := reject.trigger
    errorCodes := reject.codes
    spanSummary := none }

/-! ## sources -/

/-- `source_map.get(provider)`: a later source of one provider replaces an earlier one -/
def providerText (sources : List ComposeSource) (provider : Text) : Option Text :=
  ((sources.filter ComposeSource.available).reverse.find? fun s =>
    s.provider.asStr == provider).map ComposeSource.text

/-- the values of the source map -/
def sourceTexts (sources : List ComposeSource) : List Text :=
  [SttProvider.providerA, .providerB].filterMap fun p => providerText sources p.asStr

def selectedSourceText (input : ComposeInput) : Option Text :=
  (input.sources.find? fun s =>
    s.provider == input.sourceSelection.selectedProvider && s.available).map ComposeSource.text

/-! ## before the spans -/

def hardOutcomeMap : CloudOutcome → Option Reject
  | .skipped => some ⟨none, []⟩
  | .schemaFailure => some ⟨some .responseSchemaFailure, [.schema]⟩
  | .providerFailure => some ⟨some .providerFailure, [.provider]⟩
  | .deadlineExceeded => some ⟨some .deadlineExceeded, [.deadline]⟩
  | .succeeded | .rejectedUnsafe | .rejectedUnverifiable | .rejectedInvalidLabel => none

/-- with one provider the reconciliation names it and says so -/
def singleProviderHonest (input : ComposeInput) (recon : Reconciliation) : Bool :=
  match (input.sources.filter ComposeSource.available).map (·.provider.asStr) with
  | [only] =>
    recon.selectedProvider == only &&
      !((input.sourceSelection.reason == "only_available".toList ||
          recon.reason == "only_available".toList) &&
        (recon.selectedProvider != only || recon.reason != "only_available".toList))
  | _ => true

def removalEvidenced (sources : List ComposeSource) (removal : RemovalClaim) : Bool :=
  sourceContains ((providerText sources removal.sourceProvider).getD []) removal.sourceSpanText

def conversionEvidenced (sources : List ComposeSource) (conversion : ConversionClaim) : Bool :=
  let text := (providerText sources conversion.sourceProvider).getD []
  let cue := conversionCue conversion.id
  sourceContains text conversion.sourceSpanText &&
    (cue.isEmpty || (cueCoveredBy cue conversion.sourceSpanText && cueCoveredBy cue text))

def labelEvidenced (sources : List ComposeSource) (label : LabelClaim) : Bool :=
  sourceContains ((providerText sources label.sourceProvider).getD []) label.sourceSpanText

/-- the checks that read everything but the spans -/
def admitCandidate (digest : Digest) (input : ComposeInput) : Except Reject StructuredCandidate := do
  refuse (hardOutcomeMap input.cloudOutcome)
  match input.candidate with
  | none => throw ⟨some .responseSchemaFailure, [.schema, .malformed]⟩
  | some candidate =>
    require (candidateWithinBounds candidate) .responseSchemaFailure [.schema, .malformed]
    refuse ((validateCandidateShape candidate).map fun codes =>
      ⟨some .responseSchemaFailure, codes⟩)
    require (candidate.baseFingerprint == input.baseFingerprint) .unverifiableSourceDerivation
      [.stale]
    require ((selectedSourceText input).all fun selected =>
        textSha256Fingerprint digest selected == input.baseFingerprint)
      .unverifiableSourceDerivation [.stale]
    require (candidate.reconciliation.selectedProvider ==
        input.sourceSelection.selectedProvider.asStr)
      .unsafeSemantics [.reconcile, .unsafeSemantics]
    require (singleProviderHonest input candidate.reconciliation) .unsafeSemantics
      [.reconcile, .unsafeSemantics]
    require (candidate.removals.all (removalEvidenced input.sources) &&
        candidate.conversions.all (conversionEvidenced input.sources) &&
        candidate.labels.all (labelEvidenced input.sources))
      .unverifiableSourceDerivation [.unverifiable]
    return candidate

/-! ## one span -/

/-- what becomes of a span that does not reject the whole candidate -/
structure Adjudication where
  part : Text
  judged : Option Text
  claim : Option Claim
  discarded : Bool
  rejection : Option (Reject × ComposeErrorCode)
deriving DecidableEq, Repr

def Adjudication.applied (a : Adjudication) : Bool := a.rejection.isNone

/-- the span renders and is judged by `text` -/
def Adjudication.apply (text : Text) (claim : Option Claim) : Adjudication :=
  { part := text, judged := some text, claim, discarded := false, rejection := none }

/-- the span is dropped before it is anchored -/
def Adjudication.dropUnverifiable : Adjudication :=
  { part := [], judged := none, claim := none, discarded := true
    rejection := some (⟨some .unverifiableSourceDerivation, [.unverifiable]⟩, .unverifiable) }

/-- every occurrence is claimed: the proposal is judged, nothing renders -/
def Adjudication.dropOverlapped (outputText : Text) : Adjudication :=
  { part := [], judged := some outputText, claim := none, discarded := false
    rejection := some (⟨some .unverifiableSourceDerivation, [.overlap]⟩, .overlap) }

/-- a protected fact is lost: the source text stays where a free range holds it -/
def Adjudication.dropProtected (kept : Option (Text × Claim)) : Adjudication :=
  { part := (kept.map Prod.fst).getD [], judged := none, claim := kept.map Prod.snd
    discarded := true
    rejection := some (⟨some .unsafeSemantics, [.protectedFact, .unsafeSemantics]⟩,
      .protectedFact) }

def isLayoutText (out : Text) : Bool :=
  out.all fun c => c == '\n' || c == '\r' || c == '\t' || c == ' '

def clearNatural (layout : LayoutClaim) : Bool :=
  layout.decision == .natural && layout.certainty == .clear

/-- the declared removals, by provider and text up to whitespace and case -/
def declaredRemoval (candidate : StructuredCandidate) (provider sourceText : Text) : Bool :=
  candidate.removals.any fun r =>
    r.sourceProvider == provider &&
      toLowercase (normalizeWs r.sourceSpanText) == toLowercase (normalizeWs sourceText)

def checkRemove (candidate : StructuredCandidate) (span : DerivationSpan) (provider : Text) :
    Except Reject Unit := do
  require span.outputText.isEmpty .responseSchemaFailure [.malformed]
  require (declaredRemoval candidate provider span.sourceText) .unverifiableSourceDerivation
    [.unverifiable]

def checkConvert (candidate : StructuredCandidate) (span : DerivationSpan) : Except Reject Unit :=
  match span.conversionId with
  | none => .error ⟨some .responseSchemaFailure, [.unknownConversion]⟩
  | some id => do
    require (closedConversions.contains id) .responseSchemaFailure [.unknownConversion]
    require (candidate.conversions.any fun c => c.id == id) .unverifiableSourceDerivation
      [.unverifiable]
    let cue := conversionCue id
    require (cue.isEmpty || cueCoveredBy cue span.sourceText) .unverifiableSourceDerivation
      [.unverifiable]
    require (!(clearNatural candidate.layout && isMultiparagraphText (conversionRhs id)))
      .unsafeSemantics [.unsafeSemantics]

def checkLabel (candidate : StructuredCandidate) (span : DerivationSpan) : Except Reject Unit :=
  let lab := span.label.getD []
  require (closedStructuredLabels.contains lab && candidate.labels.any (fun l => l.label == lab) &&
      (span.outputText == lab ++ [':', '\n'] || span.outputText == lab ++ [':']))
    .invalidFixedLabel [.invalidLabel]

def checkKind (candidate : StructuredCandidate) (span : DerivationSpan) (provider : Text) :
    Except Reject Unit :=
  match span.kind with
  | .remove => checkRemove candidate span provider
  | .convert => checkConvert candidate span
  | .label => checkLabel candidate span
  | .keep | .layoutBreak => .ok ()

def spanPreservesProtectedTokens (span : DerivationSpan) (protectedTokens : List Text) : Bool :=
  (protectedTokens.filter fun token => !token.isEmpty).all fun token =>
    !contains span.sourceText token || contains span.outputText token

def adjudicateBreak (candidate : StructuredCandidate) (span : DerivationSpan) :
    Except Reject Adjudication :=
  if isLayoutText span.outputText then do
    require (!(clearNatural candidate.layout && isMultiparagraphText span.outputText))
      .unsafeSemantics [.unsafeSemantics]
    return .apply span.outputText none
  else .ok .dropUnverifiable

def DerivationSpan.provider (span : DerivationSpan) : Text := span.sourceProvider.getD []

/-- the span's text is in the source it names -/
def findable (input : ComposeInput) (span : DerivationSpan) : Bool :=
  (providerText input.sources span.provider).any fun text => sourceContains text span.sourceText

def placementOf (input : ComposeInput) (claimed : List Claim) (span : DerivationSpan) :
    SpanPlacement :=
  placeSpan (providerText input.sources span.provider) claimed span.provider span.sourceText

/-- a findable span whose kind is in order -/
def adjudicatePlaced (input : ComposeInput) (claimed : List Claim) (span : DerivationSpan) :
    Except Reject Adjudication :=
  if spanPreservesProtectedTokens span input.protectedTokens then
    match placementOf input claimed span with
    | .outOfOrder => .error ⟨some .unverifiableSourceDerivation, [.unverifiable]⟩
    | .overlapped => .ok (.dropOverlapped span.outputText)
    | .placed range => .ok (.apply span.outputText (some ⟨span.provider, range⟩))
  else
    match placementOf input claimed span with
    | .placed range => .ok (.dropProtected (some (span.sourceText, ⟨span.provider, range⟩)))
    | .overlapped | .outOfOrder => .ok (.dropProtected none)

def adjudicateConsuming (input : ComposeInput) (candidate : StructuredCandidate)
    (claimed : List Claim) (span : DerivationSpan) : Except Reject Adjudication :=
  if findable input span then do
    checkKind candidate span span.provider
    adjudicatePlaced input claimed span
  else .ok .dropUnverifiable

def adjudicate (input : ComposeInput) (candidate : StructuredCandidate) (claimed : List Claim)
    (span : DerivationSpan) : Except Reject Adjudication :=
  if span.kind = .layoutBreak then adjudicateBreak candidate span
  else adjudicateConsuming input candidate claimed span

def walk (input : ComposeInput) (candidate : StructuredCandidate) (claimed : List Claim) :
    List DerivationSpan → Except Reject (List Adjudication)
  | [] => .ok []
  | span :: spans => do
    let a ← adjudicate input candidate claimed span
    let rest ← walk input candidate (claimed ++ a.claim.toList) spans
    return a :: rest

/-! ## after the spans -/

def composedText (as : List Adjudication) : Text := as.flatMap Adjudication.part

def proposedText (as : List Adjudication) : Text := as.flatMap fun a => a.judged.getD []

def claimsMade (as : List Adjudication) : List Claim := as.filterMap Adjudication.claim

def spanSummaryOf (as : List Adjudication) : ComposeSpanSummary :=
  { totalSpans := as.length
    appliedSpans := (as.filter Adjudication.applied).length
    rejected := (as.zipIdx).filterMap fun p =>
      p.1.rejection.map fun r => ⟨p.2, r.2⟩ }

def licensed (input : ComposeInput) (candidate : StructuredCandidate) : List Text :=
  licensedAtoms (sourceTexts input.sources) (candidate.conversions.map ConversionClaim.id)
    (candidate.labels.map LabelClaim.label)

def holdsProtected (protectedTokens : List Text) (text : Text) : Bool :=
  protectedTokens.all fun token => token.isEmpty || contains text token

/-- every character of the selected source, and of every source a span claims, is claimed -/
def coverageFailure (input : ComposeInput) (claimed : List Claim) : Bool :=
  [SttProvider.providerA, .providerB].any fun p =>
    match providerText input.sources p.asStr with
    | none => false
    | some text =>
      let ranges := claimsOf p.asStr claimed
      (p == input.sourceSelection.selectedProvider || !ranges.isEmpty) &&
        !coveredFrom ranges 0 text

def outputMatches (span : DerivationSpan) : Bool :=
  match span.kind with
  | .keep => keepOrganizeOnly span.sourceText span.outputText
  | .convert =>
    span.conversionId.any fun id => convertOutputMatches id span.sourceText span.outputText
  | .remove | .label | .layoutBreak => true

def uncertainBacktrack (candidate : StructuredCandidate) : Bool :=
  candidate.removals.any fun r => r.kind == .backtrack && r.certainty == .uncertain

def uncertainLayout (candidate : StructuredCandidate) : Bool :=
  candidate.layout.certainty == .uncertain

/-- the first rejection of a span, when no span was applied -/
def nothingApplied (as : List Adjudication) : Option Reject :=
  if as.any Adjudication.applied then none
  else ((as.filterMap Adjudication.rejection).head?).map Prod.fst

/-- the checks on the rendered text, before the candidate is salvaged or accepted -/
def checkRendered (input : ComposeInput) (candidate : StructuredCandidate)
    (as : List Adjudication) : Except Reject Unit := do
  refuse (nothingApplied as)
  let composed := composedText as
  require (!(clearNatural candidate.layout && isMultiparagraphText composed)) .unsafeSemantics
    [.unsafeSemantics]
  let headers := structuralHeaders composed
  require (headers.all closedStructuredLabels.contains) .invalidFixedLabel [.invalidLabel]
  require (!(input.policy == .natural && !headers.isEmpty)) .invalidFixedLabel [.invalidLabel]
  require (uncertainBacktrack candidate || uncertainLayout candidate ||
      holdsProtected input.protectedTokens composed)
    .unsafeSemantics [.protectedFact, .unsafeSemantics]
  require ((lexicalAtoms (proposedText as)).all (licensed input candidate).contains)
    .unsafeSemantics [.inventedContent, .unsafeSemantics]

/-- a salvaged text, delivered when it holds the protected tokens -/
def salvage (input : ComposeInput) (decision : CompositionDecision) (rendered : Text)
    (trigger : FallbackTrigger) (code : ComposeErrorCode) : Except Reject ComposeOutcome := do
  require (holdsProtected input.protectedTokens rendered) .unsafeSemantics
    [.protectedFact, .unsafeSemantics]
  return { decision, rendered, fallbackTrigger := some trigger, errorCodes := [code]
           spanSummary := none }

def accept (input : ComposeInput) (candidate : StructuredCandidate) (as : List Adjudication) :
    Except Reject ComposeOutcome := do
  let composed := composedText as
  require (holdsProtected input.protectedTokens composed) .unsafeSemantics
    [.protectedFact, .unsafeSemantics]
  require (!coverageFailure input (claimsMade as)) .unverifiableSourceDerivation [.unverifiable]
  require ((candidate.derivation.zip as).all fun p => p.2.discarded || outputMatches p.1)
    .unsafeSemantics [.inventedContent, .unsafeSemantics]
  return { decision := .accept, rendered := composed, fallbackTrigger := none, errorCodes := []
           spanSummary := some (spanSummaryOf as) }

def settle (input : ComposeInput) (candidate : StructuredCandidate) (as : List Adjudication) :
    Except Reject ComposeOutcome := do
  checkRendered input candidate as
  if uncertainBacktrack candidate then
    salvage input .acceptPreserveWords input.localBaseline .uncertainBacktracking
      .uncertainBacktrack
  else if uncertainLayout candidate then
    salvage input .acceptNaturalLayout
      (if !input.localBaseline.isEmpty then input.localBaseline
        else naturalLayoutRender candidate.derivation)
      .uncertainLayout .uncertainLayout
  else accept input candidate as

def composeChecks (digest : Digest) (input : ComposeInput) : Except Reject ComposeOutcome := do
  let candidate ← admitCandidate digest input
  let as ← walk input candidate [] candidate.derivation
  settle input candidate as

def composeImpl (digest : Digest) (input : ComposeInput) : ComposeOutcome :=
  match composeChecks digest input with
  | .ok outcome => outcome
  | .error reject => baselineResult input.localBaseline reject

end Voisu.Compose
