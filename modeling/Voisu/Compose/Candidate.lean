import Voisu.Fingerprint
import Voisu.Lib.Strings

/-!
# Structured candidates

The untrusted candidate of the compose gate, the host's input beside it and the outcome.

* `StructuredCandidate`, `ComposeInput`, `ComposeOutcome`   the records;
* `candidateWithinBounds`       the size bounds;
* `validateCandidateShape`      the closed catalogues and the required fields.
-/

namespace Voisu.Compose
open Lib

/-! ## closed catalogues -/

def closedConversions : List Text :=
  ["exclamation point→!", "four→4.", "new line→\\n", "new paragraph→\\n\\n", "one→1.", "period→.",
    "quote…unquote→\"…\"", "spoken acceptance criteria cue→Acceptance Criteria label",
    "spoken constraints cue→Constraints label", "spoken context cue→Context label",
    "spoken files cue→Files label", "spoken goal cue→Goal label", "spoken notes cue→Notes label",
    "spoken requirements cue→Requirements label", "spoken steps cue→numbered_lines", "three→3.",
    "two→2."].map String.toList

def closedStructuredLabels : List Text :=
  ["Goal", "Context", "Requirements", "Constraints", "Steps", "Acceptance Criteria", "Files",
    "Notes"].map String.toList

def closedSourceSelectionReasons : List Text :=
  ["only_available", "exact_agreement", "configured_primary_rank", "punctuation_local_render",
    "safe_complementary_merge"].map String.toList

/-! ## outcomes -/

inductive CompositionDecision where
  | accept
  | acceptPreserveWords
  | acceptNaturalLayout
  | fallbackBaseline
deriving DecidableEq, Repr

inductive FallbackTrigger where
  | unsafeSemantics
  | unverifiableSourceDerivation
  | invalidFixedLabel
  | uncertainBacktracking
  | uncertainLayout
  | responseSchemaFailure
  | providerFailure
  | deadlineExceeded
deriving DecidableEq, Repr

inductive ComposeErrorCode where
  | malformed
  | stale
  | unknownConversion
  | unknownLabel
  | unverifiable
  | protectedFact
  | unsafeSemantics
  | invalidLabel
  | uncertainBacktrack
  | uncertainLayout
  | inventedContent
  | overlap
  | schema
  | provider
  | deadline
  | reconcile
deriving DecidableEq, Repr

inductive CloudOutcome where
  | succeeded
  | rejectedUnsafe
  | rejectedUnverifiable
  | rejectedInvalidLabel
  | schemaFailure
  | providerFailure
  | deadlineExceeded
  | skipped
deriving DecidableEq, Repr

structure ComposeSpanRejection where
  spanIndex : Nat
  reason : ComposeErrorCode
deriving DecidableEq, Repr

structure ComposeSpanSummary where
  totalSpans : Nat
  appliedSpans : Nat
  rejected : List ComposeSpanRejection
deriving DecidableEq, Repr

/-- the delivery flags are the same for every outcome and left out -/
structure ComposeOutcome where
  decision : CompositionDecision
  rendered : Text
  fallbackTrigger : Option FallbackTrigger
  errorCodes : List ComposeErrorCode
  spanSummary : Option ComposeSpanSummary
deriving DecidableEq, Repr

/-! ## candidates -/

inductive SttProvider where
  | providerA
  | providerB
deriving DecidableEq, Repr

def SttProvider.asStr : SttProvider → Text
  | .providerA => "provider_a".toList
  | .providerB => "provider_b".toList

def SttProvider.parse (value : Text) : Option SttProvider :=
  [.providerA, .providerB].find? fun p => p.asStr == value

structure SourceSelection where
  selectedProvider : SttProvider
  reason : Text
deriving DecidableEq, Repr

/-- the gate never reads whether a source is the primary one -/
structure ComposeSource where
  provider : SttProvider
  available : Bool
  text : Text
deriving DecidableEq, Repr

inductive ComposeCertainty where
  | clear
  | uncertain
deriving DecidableEq, Repr

inductive RemovalKind where
  | filler
  | backtrack
deriving DecidableEq, Repr

inductive LayoutDecision where
  | natural
  | multiParagraph
  | numbered
  | structuredSections
deriving DecidableEq, Repr

inductive SpanKind where
  | keep
  | remove
  | convert
  | label
  | layoutBreak
deriving DecidableEq, Repr

structure Reconciliation where
  selectedProvider : Text
  reason : Text
deriving DecidableEq, Repr

structure RemovalClaim where
  kind : RemovalKind
  certainty : ComposeCertainty
  sourceProvider : Text
  sourceSpanText : Text
deriving DecidableEq, Repr

structure ConversionClaim where
  id : Text
  sourceProvider : Text
  sourceSpanText : Text
deriving DecidableEq, Repr

structure LayoutClaim where
  decision : LayoutDecision
  certainty : ComposeCertainty
deriving DecidableEq, Repr

structure LabelClaim where
  label : Text
  sourceProvider : Text
  sourceSpanText : Text
deriving DecidableEq, Repr

structure DerivationSpan where
  kind : SpanKind
  sourceProvider : Option Text
  sourceText : Text
  outputText : Text
  conversionId : Option Text
  label : Option Text
deriving DecidableEq, Repr

structure StructuredCandidate where
  schemaVersion : Text
  baseFingerprint : Text
  reconciliation : Reconciliation
  removals : List RemovalClaim
  conversions : List ConversionClaim
  layout : LayoutClaim
  labels : List LabelClaim
  derivation : List DerivationSpan
deriving DecidableEq, Repr

inductive RenderingPolicy where
  | natural
  | adaptive
  | structured
deriving DecidableEq, Repr

structure ComposeInput where
  localBaseline : Text
  baseFingerprint : Text
  sources : List ComposeSource
  sourceSelection : SourceSelection
  protectedTokens : List Text
  policy : RenderingPolicy
  cloudOutcome : CloudOutcome
  candidate : Option StructuredCandidate
deriving DecidableEq, Repr

/-! ## bounds and shape -/

def maxComposeRemovals : Nat := 32
def maxComposeConversions : Nat := 32
def maxComposeLabels : Nat := 8
def maxComposeDerivationSpans : Nat := 128
def maxComposeFieldUtf8Bytes : Nat := 2048

def exceedsFieldBound (s : Text) : Bool := maxComposeFieldUtf8Bytes < byteLen s

def candidateWithinBounds (candidate : StructuredCandidate) : Bool :=
  candidate.removals.length ≤ maxComposeRemovals &&
  candidate.conversions.length ≤ maxComposeConversions &&
  candidate.labels.length ≤ maxComposeLabels &&
  candidate.derivation.length ≤ maxComposeDerivationSpans &&
  !exceedsFieldBound candidate.schemaVersion &&
  !exceedsFieldBound candidate.baseFingerprint &&
  !exceedsFieldBound candidate.reconciliation.selectedProvider &&
  !exceedsFieldBound candidate.reconciliation.reason &&
  (candidate.removals.all fun removal =>
    !exceedsFieldBound removal.sourceProvider && !exceedsFieldBound removal.sourceSpanText) &&
  (candidate.conversions.all fun conversion =>
    !exceedsFieldBound conversion.id && !exceedsFieldBound conversion.sourceProvider &&
      !exceedsFieldBound conversion.sourceSpanText) &&
  (candidate.labels.all fun label =>
    !exceedsFieldBound label.label && !exceedsFieldBound label.sourceProvider &&
      !exceedsFieldBound label.sourceSpanText) &&
  candidate.derivation.all fun span =>
    !exceedsFieldBound span.sourceText && !exceedsFieldBound span.outputText &&
      !span.sourceProvider.any exceedsFieldBound && !span.conversionId.any exceedsFieldBound &&
      !span.label.any exceedsFieldBound

/-- a claim on a source names a provider and a text -/
def claimMalformed (sourceProvider sourceSpanText : Text) : Bool :=
  (SttProvider.parse sourceProvider).isNone || sourceSpanText.isEmpty

def candidateMalformed (candidate : StructuredCandidate) : Bool :=
  candidate.schemaVersion != ['1'] ||
  !isTextSha256Fingerprint candidate.baseFingerprint ||
  (SttProvider.parse candidate.reconciliation.selectedProvider).isNone ||
  !closedSourceSelectionReasons.contains candidate.reconciliation.reason ||
  (candidate.conversions.any fun c => claimMalformed c.sourceProvider c.sourceSpanText) ||
  (candidate.labels.any fun l => claimMalformed l.sourceProvider l.sourceSpanText) ||
  (candidate.removals.any fun r => claimMalformed r.sourceProvider r.sourceSpanText) ||
  candidate.derivation.isEmpty ||
  candidate.derivation.any fun span =>
    (span.sourceProvider.any fun p => (SttProvider.parse p).isNone) ||
      span.label.any fun lab => !closedStructuredLabels.contains lab

/-- the error codes of a candidate out of shape; unknown labels win over unknown conversions -/
def validateCandidateShape (candidate : StructuredCandidate) : Option (List ComposeErrorCode) :=
  if candidate.labels.any fun l => !closedStructuredLabels.contains l.label then
    some [.unknownLabel, .malformed]
  else if candidate.conversions.any fun c => !closedConversions.contains c.id then
    some [.unknownConversion, .malformed]
  else if candidateMalformed candidate then some [.malformed]
  else none

end Voisu.Compose
