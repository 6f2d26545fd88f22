import Mathlib
import Voisu.Config.Document
import Voisu.Delivery.Portal
import Voisu.Diagnostics.Record
import Voisu.Grammar.Candidate

/-!
# The Final Transform Gate

`final_transform_and_deliver` of `smart_writing.rs`: the transcript is formatted, a grammar candidate
may rewrite the formatted text, and one text is delivered.  The text and the recorded outcome are
kept in separate variables.

* `FinalTransformInput`, `World`   the arguments, and what the formatter, the grammar boundary, the
                                   safety check, the clock and the delivery answer;
* `Work`                           the variables that the branches update;
* `finalTransformAndDeliver`       the gate;
* `Chosen`                         a text that the gate may deliver, by its origin;
* `Truthful`                       one delivery, and an outcome that names the origin of its text;
* `truthful_iff`                   **the outcome is truthful unless a late or oversize formatting is
                                   delivered as a fallback.**
-/

namespace Voisu.SmartWriting
open Lib Formatting Grammar Diagnostics LocalTail Config

/-! ## deadlines, in nanoseconds -/

def localFormatterWorkDeadline : Nat := 50 * 10 ^ 6
def candidatePipelineDeadline : Nat := 900 * 10 ^ 6
def localSafetyComposeWorkDeadline : Nat := 100 * 10 ^ 6

def durationMillis (ns : Nat) : Nat := min (ns / 10 ^ 6) (2 ^ 64 - 1)

/-! ## evidence -/

inductive EnglishEligibilityOutcome where
  | eligible
  | ineligible
deriving DecidableEq, Repr

inductive SmartWritingOutcome where
  | literal
  | literalCommands
  | literalFallback
  | formattingAndGrammar
  | formattingOnly
  | identityFallback
deriving DecidableEq, Repr

inductive SmartWritingReasonCode where
  | modeLiteral
  | modeSmart
  | englishIneligible
  | capabilityUnavailable
  | inputOversize
  | responseOversize
  | httpTimeout
  | httpStatus
  | httpTransport
  | malformed
  | schemaRejected
  | stale
  | protectedSpan
  | ruleContext
  | unmappable
  | overlap
  | formatterPanic
  | formatterDeadline
  | safetyPanic
  | safetyDeadline
  | cleanupOverrun
  | editAccepted
  | unknownRule
deriving DecidableEq, Repr

inductive GrammarHttpError where
  | clientBuild
  | invalidEndpoint
  | timeout
  | transport
  | nonSuccessStatus (status : Nat)
  | bodyTooLarge (limit : Nat)
deriving DecidableEq, Repr

inductive MinimalGrammarError where
  | transport (error : GrammarHttpError)
  | resultCutoff
  | invalidBaselineIdentity
  | invalidProviderEnvelope
deriving DecidableEq, Repr

def mapAdapterError : MinimalGrammarError → SmartWritingReasonCode
  | .transport .timeout | .resultCutoff => .httpTimeout
  | .transport (.nonSuccessStatus _) => .httpStatus
  | .transport (.bodyTooLarge _) => .responseOversize
  | .transport _ | .invalidBaselineIdentity => .httpTransport
  | .invalidProviderEnvelope => .schemaRejected

def mapGrammarError : GrammarErrorCode → SmartWritingReasonCode
  | .oversize => .responseOversize
  | .malformed | .unsorted | .spanOutOfBounds | .spanNotCharBoundary | .notTokenBoundary
  | .anchorMismatch | .formattingIdentity | .formattingDerivation => .malformed
  | .staleGrammar => .stale
  | .protectedSpan => .protectedSpan
  | .unknownRule => .unknownRule
  | .ruleContext => .ruleContext
  | .unmappable => .unmappable
  | .overlap => .overlap

structure EditEvidence where
  editId : Text
  ruleId : Text
  startUtf8 : Nat
  endUtf8 : Nat
  before : Text
  after : Text
  code : SmartWritingReasonCode
deriving DecidableEq, Repr

/-- the byte budgets of an entry -/
def EditEvidence.normalize (e : EditEvidence) : EditEvidence :=
  { e with
    editId := clampUtf8Bytes e.editId maxSmartWritingFreeTextUtf8Bytes
    ruleId := clampUtf8Bytes e.ruleId maxSmartWritingFreeTextUtf8Bytes
    before := clampUtf8Bytes e.before maxSmartWritingEditFieldUtf8Bytes
    after := clampUtf8Bytes e.after maxSmartWritingEditFieldUtf8Bytes }

def editEvidence (result : GrammarSafetyResult) (fallbackCode : SmartWritingReasonCode)
    (edit : Value) : Option EditEvidence := do
  let object ← edit.asObject
  let editId ← (getKey object "id".toList).bind Value.asStr
  let ruleId ← (getKey object "rule_id".toList).bind Value.asStr
  let startUtf8 ← (getKey object "start_utf8".toList).bind Value.asU64
  let endUtf8 ← (getKey object "end_utf8".toList).bind Value.asU64
  let before ← (getKey object "before".toList).bind Value.asStr
  let after ← (getKey object "after".toList).bind Value.asStr
  let code := ((result.diagnostics.find? fun d => d.editId == editId).map
    fun d => mapGrammarError d.code).getD fallbackCode
  return EditEvidence.normalize
    ⟨editId, ruleId, startUtf8.toNat, endUtf8.toNat, before, after, code⟩

/-- `decode` is the JSON library's decoder -/
def editEvidenceFromCandidate (decode : List UInt8 → Option Value) (candidate : List UInt8)
    (result : GrammarSafetyResult) (fallbackCode : SmartWritingReasonCode) : List EditEvidence :=
  if maxGrammarResponseBytes < candidate.length then []
  else match (decode candidate).bind Value.asObject with
    | none => []
    | some root => match (getKey root "edits".toList).bind Value.asArray with
      | none => []
      | some edits => edits.filterMap (editEvidence result fallbackCode)

def pushUniqueReason (reasons : List SmartWritingReasonCode) (reason : SmartWritingReasonCode) :
    List SmartWritingReasonCode := if reasons.contains reason then reasons else reasons ++ [reason]

/-! ## the arguments and the answers -/

def isExplicitEnglish (language : Text) : Bool :=
  let normalized := asciiLowercase (trim language)
  normalized == "en".toList ||
    (startsWith normalized "en-".toList && !(normalized.drop 3).isEmpty &&
      (normalized.drop 3).all fun c => isAsciiAlphanumeric c || c == '-')

def englishEligibility (declarations : List (Provider × Text)) : EnglishEligibilityOutcome :=
  if declarations.isEmpty || declarations.any (fun d => !isExplicitEnglish d.2) then .ineligible
  else .eligible

structure FinalTransformInput where
  validatedTranscript : Text
  writingMode : WritingMode
  languages : List (Provider × Text)
  /-- the capability is `Ready` -/
  grammarReady : Bool
  dictionaryTerms : List Text
  protectedNames : List Text
  prepLatencyMs : Option Nat
  reapWatchdogCrossed : Bool
  tone : Tone

/-- how the request ends under its timeout -/
inductive GrammarAnswer where
  | candidate (body : List UInt8)
  | failed (error : MinimalGrammarError)
  | panicked
  | timedOut

/-- what the safety check hands to `result` -/
structure Verdict where
  rendered : Text
  grammarApplied : Bool
  diagnostics : List GrammarDiagnostic

/-- `result` of the safety check -/
def grammarResult (validated : Text) (v : Verdict) : GrammarSafetyResult :=
  { outcome := match v.grammarApplied, decide (v.rendered ≠ validated) with
      | true, true => .both
      | true, false => .grammarOnly
      | false, true => .formattingOnly
      | false, false => .unchanged
    rendered := v.rendered
    diagnostics := v.diagnostics }

/-- the readings of the clock, in the order in which the gate may take them -/
structure Clock where
  gateEntry : Nat
  formatterStarted : Nat
  formatterEnded : Nat
  beforeRequest : Nat
  httpStarted : Nat
  httpEnded : Nat
  afterRequest : Nat
  safetyStarted : Nat
  safetyEnded : Nat
  afterSafety : Nat
  atDelivery : Nat

/-- any behaviour of what the gate calls; `none` is a panic -/
structure World where
  format : WritingMode → Text → Snapshot → Option FormattingBaseline
  request : Text → FormattingBaseline → GrammarAnswer
  safety : Text → FormattingBaseline → List UInt8 → GrammarSafetyOptions → Option Verdict
  clock : Clock
  deliver : Text → Except BoundaryError Delivery.DeliveryOutcome
  digest : Digest
  decode : List UInt8 → Option Value
  /-- the informal tone -/
  informal : Text → Text

def World.candidateDeadline (world : World) : Nat :=
  world.clock.gateEntry + candidatePipelineDeadline

def World.applyTone (world : World) (text : Text) : Tone → Text
  | .formal => text
  | .informal => world.informal text

def World.formatted (world : World) (input : FinalTransformInput) : Option FormattingBaseline :=
  world.format input.writingMode input.validatedTranscript
    ⟨input.dictionaryTerms, input.protectedNames⟩

/-! ## the gate -/

/-- the variables of the gate -/
structure Work where
  selected : Text
  formatterContract : Text
  formatterFailed : Bool
  reasons : List SmartWritingReasonCode
  requestBegan : Bool
  httpLatency : Option Nat
  safetyLatency : Option Nat
  grammarAccepted : Bool
  edits : List EditEvidence

def Work.note (w : Work) (reason : SmartWritingReasonCode) : Work :=
  { w with reasons := pushUniqueReason w.reasons reason }

def Work.push (w : Work) (reason : SmartWritingReasonCode) : Work :=
  { w with reasons := w.reasons ++ [reason] }

/-- a request was made -/
def Work.requested (w : Work) (latency : Nat) : Work :=
  { w with requestBegan := true, httpLatency := some (durationMillis latency) }

/-- a candidate was checked -/
def Work.checked (w : Work) (latency : Nat) : Work :=
  { w with safetyLatency := some (durationMillis latency) }

def Work.initial (input : FinalTransformInput) : Work where
  selected := input.validatedTranscript
  formatterContract := formatterContractId
  formatterFailed := false
  reasons := [match input.writingMode with
    | .smart => .modeSmart
    | .literal => .modeLiteral]
  requestBegan := false
  httpLatency := none
  safetyLatency := none
  grammarAccepted := false
  edits := []

def isOversize (input : FinalTransformInput) : Bool :=
  decide (maxValidatedTranscriptUtf8Bytes < byteLen input.validatedTranscript)

def World.formatterLatency (world : World) : Nat :=
  world.clock.formatterEnded - world.clock.formatterStarted

/-- the formatter missed its deadline, as the gate measures it -/
def World.formatterLate (world : World) : Bool :=
  decide (localFormatterWorkDeadline ≤ world.formatterLatency)

def takeBaseline (formatted : Option FormattingBaseline) (w : Work) : Work :=
  match formatted with
  | some baseline =>
    { w with formatterContract := baseline.formatterContract, selected := baseline.rendered }
  | none => { w with formatterFailed := true }.push .formatterPanic

def checkFormatter (world : World) (input : FinalTransformInput) (w : Work) : Work :=
  if isOversize input then { w with formatterFailed := true }.push .inputOversize
  else if !w.formatterFailed && world.formatterLate then
    { w with formatterFailed := true }.note .formatterDeadline
  else w

/-- the safety check returned in time -/
def compose (world : World) (candidate : List UInt8) (result : GrammarSafetyResult) (w : Work) :
    Work :=
  let accepted := result.outcome == .both || result.outcome == .grammarOnly
  let w := if accepted then
      { w with selected := result.rendered, grammarAccepted := true }.note .editAccepted
    else w
  let fallbackCode := (result.diagnostics.head?.map fun d => mapGrammarError d.code).getD .malformed
  let code := if w.grammarAccepted then .editAccepted else fallbackCode
  let w := { w with edits := editEvidenceFromCandidate world.decode candidate result code }
  result.diagnostics.foldl (fun w d => w.note (mapGrammarError d.code)) w

def judge (world : World) (input : FinalTransformInput) (baseline : FormattingBaseline)
    (candidate : List UInt8) (w : Work) : Work :=
  let elapsed := world.clock.safetyEnded - world.clock.safetyStarted
  let w := w.checked elapsed
  match world.safety input.validatedTranscript baseline candidate
      ⟨input.dictionaryTerms, input.protectedNames⟩ with
  | some verdict =>
    if elapsed ≤ localSafetyComposeWorkDeadline ∧
        world.clock.afterSafety - world.clock.gateEntry < candidatePipelineDeadline then
      compose world candidate (grammarResult input.validatedTranscript verdict) w
    else w.note .safetyDeadline
  | none => w.note .safetyPanic

def requestGrammar (world : World) (input : FinalTransformInput) (baseline : FormattingBaseline)
    (w : Work) : Work :=
  if world.candidateDeadline ≤ world.clock.beforeRequest then w.note .safetyDeadline
  else
    let w := w.requested (world.clock.httpEnded - world.clock.httpStarted)
    match world.request input.validatedTranscript baseline with
    | .candidate body =>
      if world.clock.afterRequest < world.candidateDeadline then judge world input baseline body w
      else w.note .safetyDeadline
    | .timedOut => w.note .safetyDeadline
    | .failed error => w.note (mapAdapterError error)
    | .panicked => w.note .httpTransport

def hasCommandSpan (input : FinalTransformInput) : Bool :=
  (Commands.parseFormattingCommands input.validatedTranscript).hasCommandSpan

def improveGrammar (world : World) (input : FinalTransformInput) (w : Work) : Work :=
  if input.writingMode = .smart ∧ w.formatterFailed = false then
    if englishEligibility input.languages = .ineligible then w.push .englishIneligible
    else if hasCommandSpan input then w
    else match world.formatted input, input.grammarReady with
      | some baseline, true => requestGrammar world input baseline w
      | _, _ => w.push .capabilityUnavailable
  else w

def outcomeOf (input : FinalTransformInput) (w : Work) : SmartWritingOutcome :=
  match input.writingMode with
  | .literal =>
    if w.formatterFailed then .literalFallback
    else if hasCommandSpan input then .literalCommands
    else .literal
  | .smart =>
    if w.formatterFailed then .identityFallback
    else if w.grammarAccepted then .formattingAndGrammar
    else .formattingOnly

/-- everything up to the delivery -/
def candidateWork (world : World) (input : FinalTransformInput) : Work :=
  improveGrammar world input
    (checkFormatter world input (takeBaseline (world.formatted input) (.initial input)))

structure GateDiagnostic where
  writingMode : WritingMode
  english : EnglishEligibilityOutcome
  formatterContractId : Text
  validatedBefore : Text
  validatedBeforeSha256 : Text
  renderedAfter : Text
  renderedAfterSha256 : Text
  outcome : SmartWritingOutcome
  edits : List EditEvidence
  modelId : Option Text
  requestBegan : Bool
  formatterLatencyMs : Option Nat
  httpLatencyMs : Option Nat
  safetyLatencyMs : Option Nat
  totalGateLatencyMs : Option Nat
  credentialPrepLatencyMs : Option Nat
  reapWatchdogCrossed : Bool
  reasonCodes : List SmartWritingReasonCode

def minimalGrammarModel : Text := "openai/gpt-oss-20b".toList

def gateDiagnostic (world : World) (input : FinalTransformInput) (w : Work) : GateDiagnostic where
  writingMode := input.writingMode
  english := englishEligibility input.languages
  formatterContractId := clampUtf8Bytes w.formatterContract maxSmartWritingFreeTextUtf8Bytes
  validatedBefore :=
    clampUtf8Bytes input.validatedTranscript maxSmartWritingDiagnosticTextUtf8Bytes
  validatedBeforeSha256 := textSha256Fingerprint world.digest input.validatedTranscript
  renderedAfter := clampUtf8Bytes w.selected maxSmartWritingDiagnosticTextUtf8Bytes
  renderedAfterSha256 := textSha256Fingerprint world.digest w.selected
  outcome := outcomeOf input w
  edits := w.edits.take maxSmartWritingDiagnosticEdits
  modelId := if w.requestBegan then
      clampOptionalUtf8 (some minimalGrammarModel) maxModelIdUtf8Bytes
    else none
  requestBegan := w.requestBegan
  formatterLatencyMs := some (durationMillis world.formatterLatency)
  httpLatencyMs := w.httpLatency
  safetyLatencyMs := w.safetyLatency
  totalGateLatencyMs := some (durationMillis (world.clock.atDelivery - world.clock.gateEntry))
  credentialPrepLatencyMs := input.prepLatencyMs
  reapWatchdogCrossed := input.reapWatchdogCrossed
  reasonCodes := if input.reapWatchdogCrossed then pushUniqueReason w.reasons .cleanupOverrun
    else w.reasons

/-- `deliveries` are the texts that `deliver` was called with -/
structure FinalTransformCompletion where
  rendered : Text
  delivery : Except BoundaryError Delivery.DeliveryOutcome
  diagnostic : GateDiagnostic
  deliveries : List Text

def finalTransformAndDeliver (world : World) (input : FinalTransformInput) :
    FinalTransformCompletion :=
  let w := candidateWork world input
  let selected := world.applyTone w.selected input.tone
  { rendered := selected
    delivery := world.deliver selected
    diagnostic := gateDiagnostic world input w
    deliveries := [selected] }

/-! ## what is asked of a run -/

inductive Origin where
  | transcript
  | baseline
  | grammar
deriving DecidableEq, Repr

/-- the origin of the text that an outcome claims -/
def SmartWritingOutcome.origin : SmartWritingOutcome → Origin
  | .literalFallback | .identityFallback => .transcript
  | .formattingAndGrammar => .grammar
  | .formattingOnly | .literal | .literalCommands => .baseline

/-- the texts that the gate may choose -/
inductive Chosen (world : World) (input : FinalTransformInput) : Origin → Text → Prop
  | transcript : Chosen world input .transcript input.validatedTranscript
  | baseline {b : FormattingBaseline} (h : world.formatted input = some b) :
      Chosen world input .baseline b.rendered
  | grammar {b : FormattingBaseline} {body : List UInt8} {verdict : Verdict}
      (hmode : input.writingMode = .smart)
      (henglish : englishEligibility input.languages = .eligible)
      (hcommands : hasCommandSpan input = false) (hformatted : world.formatted input = some b)
      (hrequest : world.request input.validatedTranscript b = .candidate body)
      (hsafety : world.safety input.validatedTranscript b body
        ⟨input.dictionaryTerms, input.protectedNames⟩ = some verdict)
      (happlied : verdict.grammarApplied = true)
      (hdeadline : world.clock.afterRequest < world.candidateDeadline ∧
        world.clock.afterSafety < world.candidateDeadline) :
      Chosen world input .grammar verdict.rendered

/-- **one delivery, of a text of the origin that the outcome claims** -/
def Truthful (world : World) (input : FinalTransformInput) (out : FinalTransformCompletion) : Prop :=
  ∃ text, Chosen world input out.diagnostic.outcome.origin text ∧
    out.deliveries = [world.applyTone text input.tone]

/-! ## the branches -/

section
variable (world : World) (input : FinalTransformInput)

@[simp] theorem note_selected (w : Work) (r : SmartWritingReasonCode) :
    (w.note r).selected = w.selected := rfl
@[simp] theorem note_grammarAccepted (w : Work) (r : SmartWritingReasonCode) :
    (w.note r).grammarAccepted = w.grammarAccepted := rfl
@[simp] theorem note_formatterFailed (w : Work) (r : SmartWritingReasonCode) :
    (w.note r).formatterFailed = w.formatterFailed := rfl
@[simp] theorem push_selected (w : Work) (r : SmartWritingReasonCode) :
    (w.push r).selected = w.selected := rfl
@[simp] theorem push_grammarAccepted (w : Work) (r : SmartWritingReasonCode) :
    (w.push r).grammarAccepted = w.grammarAccepted := rfl
@[simp] theorem push_formatterFailed (w : Work) (r : SmartWritingReasonCode) :
    (w.push r).formatterFailed = w.formatterFailed := rfl

/-- notes leave everything but the reasons -/
theorem foldl_note (diagnostics : List GrammarDiagnostic) (w : Work) :
    (diagnostics.foldl (fun w d => w.note (mapGrammarError d.code)) w).selected = w.selected ∧
      (diagnostics.foldl (fun w d => w.note (mapGrammarError d.code)) w).grammarAccepted =
        w.grammarAccepted ∧
      (diagnostics.foldl (fun w d => w.note (mapGrammarError d.code)) w).formatterFailed =
        w.formatterFailed := by
  induction diagnostics generalizing w with
  | nil => exact ⟨rfl, rfl, rfl⟩
  | cons d diagnostics ih => exact ih (w.note (mapGrammarError d.code))

/-- what the formatter leaves -/
theorem checkFormatter_spec :
    let w := checkFormatter world input (takeBaseline (world.formatted input) (.initial input))
    w.formatterFailed = ((world.formatted input).isNone || isOversize input ||
        world.formatterLate) ∧
      w.selected = ((world.formatted input).map FormattingBaseline.rendered).getD
        input.validatedTranscript ∧ w.grammarAccepted = false := by
  unfold checkFormatter takeBaseline
  cases world.formatted input with
  | none =>
    by_cases hover : isOversize input = true
    · simp [hover, Work.initial]
    · simp [hover, Work.initial]
  | some b =>
    by_cases hover : isOversize input = true
    · simp [hover, Work.initial]
    · by_cases hlate : world.formatterLate = true
      · simp [hover, hlate, Work.initial]
      · simp [hover, hlate, Work.initial]

/-- the grammar work keeps the text, or it chooses a rendering that the safety check accepted -/
structure Improves (w w' : Work) : Prop where
  failed : w'.formatterFailed = w.formatterFailed
  text : (w'.selected = w.selected ∧ w'.grammarAccepted = w.grammarAccepted) ∨
    (w.formatterFailed = false ∧ w'.grammarAccepted = true ∧
      Chosen world input .grammar w'.selected)

variable {world input}

theorem Improves.same {w w' : Work} (hf : w'.formatterFailed = w.formatterFailed)
    (hs : w'.selected = w.selected) (ha : w'.grammarAccepted = w.grammarAccepted) :
    Improves world input w w' := ⟨hf, .inl ⟨hs, ha⟩⟩

theorem grammarResult_accepted (validated : Text) (v : Verdict) :
    ((grammarResult validated v).outcome == .both ||
      (grammarResult validated v).outcome == .grammarOnly) = v.grammarApplied := by
  unfold grammarResult
  cases v.grammarApplied <;> by_cases h : v.rendered = validated <;> simp [h]

/-- a verdict that came in time -/
theorem compose_spec (world : World) (input : FinalTransformInput) (candidate : List UInt8)
    (verdict : Verdict) (w : Work) :
    (compose world candidate (grammarResult input.validatedTranscript verdict) w).formatterFailed =
        w.formatterFailed ∧
      (compose world candidate (grammarResult input.validatedTranscript verdict) w).selected =
        (if verdict.grammarApplied then verdict.rendered else w.selected) ∧
      (compose world candidate (grammarResult input.validatedTranscript verdict) w).grammarAccepted =
        (verdict.grammarApplied || w.grammarAccepted) := by
  unfold compose
  rw [grammarResult_accepted]
  dsimp only
  refine ⟨(foldl_note _ _).2.2.trans ?_, (foldl_note _ _).1.trans ?_, (foldl_note _ _).2.1.trans ?_⟩
  · cases verdict.grammarApplied <;> rfl
  · cases verdict.grammarApplied <;> rfl
  · cases verdict.grammarApplied <;> rfl

/-- the conditions under which a candidate comes to the safety check -/
structure Asked (world : World) (input : FinalTransformInput) (b : FormattingBaseline)
    (body : List UInt8) : Prop where
  mode : input.writingMode = .smart
  english : englishEligibility input.languages = .eligible
  commands : hasCommandSpan input = false
  formatted : world.formatted input = some b
  request : world.request input.validatedTranscript b = .candidate body
  inTime : world.clock.afterRequest < world.candidateDeadline

theorem judge_improves {b : FormattingBaseline} {body : List UInt8} (h : Asked world input b body)
    {w : Work} (hf : w.formatterFailed = false) :
    Improves world input w (judge world input b body w) := by
  unfold judge
  dsimp only
  split
  · rename_i verdict hverdict
    split
    · rename_i hdeadline
      obtain ⟨h1, h2, h3⟩ := compose_spec world input body verdict
        (w.checked (world.clock.safetyEnded - world.clock.safetyStarted))
      by_cases happlied : verdict.grammarApplied = true
      · rw [happlied] at h2 h3
        refine ⟨h1, .inr ⟨hf, h3, ?_⟩⟩
        rw [h2]
        have hsafe : world.clock.afterSafety < world.candidateDeadline := by
          unfold World.candidateDeadline
          omega
        exact .grammar h.mode h.english h.commands h.formatted h.request hverdict happlied
          ⟨h.inTime, hsafe⟩
      · simp only [happlied] at h2 h3
        exact .same h1 h2 h3
    · exact .same rfl rfl rfl
  · exact .same rfl rfl rfl

theorem requestGrammar_improves {b : FormattingBaseline} (hmode : input.writingMode = .smart)
    (henglish : englishEligibility input.languages = .eligible)
    (hcommands : hasCommandSpan input = false) (hb : world.formatted input = some b) {w : Work}
    (hf : w.formatterFailed = false) :
    Improves world input w (requestGrammar world input b w) := by
  unfold requestGrammar
  split
  · exact .same rfl rfl rfl
  · dsimp only
    split
    · rename_i body hbody
      split
      · rename_i htime
        obtain ⟨hfailed, htext⟩ := judge_improves ⟨hmode, henglish, hcommands, hb, hbody, htime⟩
          (w := w.requested (world.clock.httpEnded - world.clock.httpStarted)) hf
        exact ⟨hfailed, htext⟩
      · exact .same rfl rfl rfl
    · exact .same rfl rfl rfl
    · exact .same rfl rfl rfl
    · exact .same rfl rfl rfl

theorem improveGrammar_improves (world : World) (input : FinalTransformInput) (w : Work) :
    Improves world input w (improveGrammar world input w) := by
  unfold improveGrammar
  split
  · rename_i hsmart
    split
    · exact .same rfl rfl rfl
    · rename_i henglish
      split
      · exact .same rfl rfl rfl
      · rename_i hcommands
        split
        · rename_i b hb _
          have heligible : englishEligibility input.languages = .eligible := by
            cases h : englishEligibility input.languages with
            | eligible => rfl
            | ineligible => exact absurd h henglish
          exact requestGrammar_improves hsmart.1 heligible (by simpa using hcommands) hb hsmart.2
        · exact .same rfl rfl rfl
  · exact .same rfl rfl rfl

/-- **what the gate has chosen before the tone** -/
theorem candidateWork_spec (world : World) (input : FinalTransformInput) :
    (candidateWork world input).formatterFailed = ((world.formatted input).isNone ||
        isOversize input || world.formatterLate) ∧
      (((candidateWork world input).selected =
          ((world.formatted input).map FormattingBaseline.rendered).getD
            input.validatedTranscript ∧
        (candidateWork world input).grammarAccepted = false) ∨
      ((candidateWork world input).formatterFailed = false ∧
        (candidateWork world input).grammarAccepted = true ∧
        Chosen world input .grammar (candidateWork world input).selected)) := by
  obtain ⟨hfailed, hselected, haccepted⟩ := checkFormatter_spec world input
  obtain ⟨hf, htext⟩ := improveGrammar_improves world input
    (checkFormatter world input (takeBaseline (world.formatted input) (.initial input)))
  refine ⟨hf.trans hfailed, ?_⟩
  rcases htext with ⟨hs, ha⟩ | ⟨hnot, ha, hchosen⟩
  · exact .inl ⟨hs.trans hselected, ha.trans haccepted⟩
  · exact .inr ⟨hf.trans hnot, ha, hchosen⟩

/-- the outcome names the grammar only when a candidate was accepted -/
theorem outcomeOf_origin (w : Work) :
    (outcomeOf input w).origin =
      if w.formatterFailed then .transcript
      else if input.writingMode = .smart ∧ w.grammarAccepted = true then .grammar
      else .baseline := by
  unfold outcomeOf
  cases input.writingMode with
  | literal =>
    cases w.formatterFailed with
    | true => rfl
    | false => cases hasCommandSpan input <;> simp [SmartWritingOutcome.origin]
  | smart =>
    cases w.formatterFailed <;> cases w.grammarAccepted <;> simp [SmartWritingOutcome.origin]

theorem Chosen.smart {text : Text} (h : Chosen world input .grammar text) :
    input.writingMode = .smart := by
  cases h with
  | grammar hmode => exact hmode

/-- **the outcome is truthful** unless a formatting that is late or oversize, and shows in the text,
is delivered as a fallback -/
theorem truthful_iff (world : World) (input : FinalTransformInput) :
    Truthful world input (finalTransformAndDeliver world input) ↔
      ∀ b, world.formatted input = some b → (isOversize input || world.formatterLate) = true →
        world.applyTone b.rendered input.tone =
          world.applyTone input.validatedTranscript input.tone := by
  obtain ⟨hfailed, htext⟩ := candidateWork_spec world input
  have horigin : (finalTransformAndDeliver world input).diagnostic.outcome.origin =
      (outcomeOf input (candidateWork world input)).origin := rfl
  have hdeliver : (finalTransformAndDeliver world input).deliveries =
      [world.applyTone (candidateWork world input).selected input.tone] := rfl
  unfold Truthful
  rw [horigin, hdeliver, outcomeOf_origin]
  rcases htext with ⟨hselected, haccepted⟩ | ⟨hnot, haccepted, hchosen⟩
  · rw [haccepted, hselected]
    cases hformatted : world.formatted input with
    | none =>
      rw [hformatted] at hfailed
      rw [show (candidateWork world input).formatterFailed = true by simpa using hfailed]
      refine iff_of_true ⟨_, .transcript, rfl⟩ ?_
      intro b hb
      cases hb
    | some b =>
      rw [hformatted, Option.isNone_some, Bool.false_or] at hfailed
      rw [hfailed]
      by_cases hbad : (isOversize input || world.formatterLate) = true
      · rw [if_pos hbad]
        constructor
        · rintro ⟨text, hchosen, heq⟩ b' hb' -
          cases hb'
          cases hchosen
          exact (List.cons.inj heq).1
        · intro h
          exact ⟨_, .transcript, by rw [← h b rfl hbad]; rfl⟩
      · rw [if_neg hbad, if_neg (by simp)]
        exact iff_of_true ⟨_, .baseline hformatted, rfl⟩ fun b _ hlate => absurd hlate hbad
  · rw [hnot, haccepted, if_neg Bool.false_ne_true, if_pos ⟨hchosen.smart, rfl⟩]
    refine iff_of_true ⟨_, hchosen, rfl⟩ fun b _ hlate => ?_
    rw [hnot, eq_comm, Bool.or_assoc, hlate, Bool.or_true] at hfailed
    cases hfailed

/-- the formatter is in time at each of its own checks, and the gate reads the clock at 50 ms -/
def lateWorld : World where
  format := fun _ text snapshot =>
    some (formatValidatedForGrammar ⟨fun _ => [], fun _ => []⟩ (fun _ => false) text [] snapshot)
  request := fun _ _ => .timedOut
  safety := fun _ _ _ _ => none
  clock :=
    { gateEntry := 0
      formatterStarted := 1000
      formatterEnded := 50001000
      beforeRequest := 50002000
      httpStarted := 50002000
      httpEnded := 50002000
      afterRequest := 50002000
      safetyStarted := 50002000
      safetyEnded := 50002000
      afterSafety := 50002000
      atDelivery := 50003000 }
  deliver := fun _ => .ok .compositorSubmitted
  digest := fun _ => []
  decode := fun _ => none
  informal := id

def lateInput : FinalTransformInput where
  validatedTranscript := "hello world".toList
  writingMode := .smart
  languages := [(.groq, "en".toList)]
  grammarReady := false
  dictionaryTerms := []
  protectedNames := []
  prepLatencyMs := none
  reapWatchdogCrossed := false
  tone := .formal

/-- the formatted text is delivered and recorded as the transcript -/
theorem lateFormatting_untruthful :
    (finalTransformAndDeliver lateWorld lateInput).diagnostic.outcome = .identityFallback ∧
      (finalTransformAndDeliver lateWorld lateInput).deliveries = ["Hello world.".toList] ∧
      ¬ Truthful lateWorld lateInput (finalTransformAndDeliver lateWorld lateInput) := by
  have houtcome : (finalTransformAndDeliver lateWorld lateInput).diagnostic.outcome =
      .identityFallback := by decide +kernel
  have hdeliveries : (finalTransformAndDeliver lateWorld lateInput).deliveries =
      ["Hello world.".toList] := by decide +kernel
  refine ⟨houtcome, hdeliveries, ?_⟩
  rintro ⟨text, hchosen, heq⟩
  rw [houtcome] at hchosen
  cases hchosen
  rw [hdeliveries] at heq
  revert heq
  decide

end

end Voisu.SmartWriting
