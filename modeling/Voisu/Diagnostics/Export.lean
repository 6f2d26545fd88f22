import Voisu.Diagnostics.Record
import Voisu.Lib.Substrings

/-!
# Diagnostic exports

A record is scrubbed of the values of secret environment variables and of the credentials in URLs,
and is exported with the variables of an allowlist.

* `sanitizeUrl`            an endpoint without userinfo, query and fragment;
* `redactedEnvironment`    the allowlisted variables;
* `scrubFreeText`          both passes over one free-form string;
* `exportRecord`           the export;
* `DiagnosticExport.freeForm`   its free-form strings: all but the fingerprints, and the two closed
                           texts of the prompt rendering timeline.
-/

namespace Voisu.Diagnostics
open Lib

/-- `<redacted>` -/
def redacted : Text := ['<', 'r', 'e', 'd', 'a', 'c', 't', 'e', 'd', '>']

/-! ## environment keys -/

def secretMarkers : List Text :=
  ["API_KEY", "APIKEY", "TOKEN", "SECRET", "PASSWORD", "AUTHORIZATION", "CREDENTIAL"].map
    String.toList

def isSecretEnvKey (key : Text) : Bool :=
  let upper := key.map toAsciiUppercase
  secretMarkers.any fun marker => contains upper marker

def exportEnvAllowlist : List Text :=
  ["VOISU_GROQ_TRANSCRIPTION_URL", "VOISU_DEEPGRAM_TRANSCRIPTION_URL",
    "VOISU_GROQ_RECONCILIATION_URL", "VOISU_GROQ_RECONCILIATION_MODEL", "VOISU_GROQ_MODEL",
    "VOISU_PIPEWIRE_TARGET", "VOISU_RECORDING_DEADLINE_MS", "VOISU_DIAGNOSTIC_MAX_RECORDS",
    "VOISU_DIAGNOSTIC_MAX_AGE_SECS", "VOISU_DEBUG_AUDIO_TTL_SECS", "VOISU_DEBUG_CAPTURE"].map
    String.toList

/-! ## addresses

`Ipv6Addr::from_str` of the standard library, as a parser that returns the text it did not read. -/

def isHexDigit (c : Char) : Bool :=
  isAsciiDigit c || inRange c 0x61 0x66 || inRange c 0x41 0x46

def readGivenChar (c : Char) : Text → Option Text
  | d :: s => if d == c then some s else none
  | [] => none

def readSeparator (sep : Char) (index : Nat) (inner : Text → Option Text) (s : Text) :
    Option Text :=
  if 0 < index then (readGivenChar sep s).bind inner else inner s

/-- one to four hexadecimal digits -/
def readGroup (s : Text) : Option Text :=
  let digits := s.takeWhile isHexDigit
  if digits.isEmpty || 4 < digits.length then none else some (s.drop digits.length)

/-- one to three decimal digits without a leading zero, at most 255 -/
def readOctet (s : Text) : Option Text :=
  let digits := s.takeWhile isAsciiDigit
  let value := digits.foldl (fun n c => n * 10 + (c.toNat - 0x30)) 0
  if digits.isEmpty || 3 < digits.length || (digits.head? == some '0' && 1 < digits.length) ||
      255 < value then none
  else some (s.drop digits.length)

def readIpv4Addr (s : Text) : Option Text :=
  (List.range 4).foldlM (fun s i => readSeparator '.' i readOctet s) s

/-- up to `limit` groups from group `i` on: how many were read, whether an IPv4 address ends them,
and the rest -/
def readGroups (limit : Nat) : Nat → Nat → Text → Nat × Bool × Text
  | 0, i, s => (i, false, s)
  | n + 1, i, s =>
    match (if i < limit - 1 then readSeparator ':' i readIpv4Addr s else none) with
    | some rest => (i + 2, true, rest)
    | none =>
      match readSeparator ':' i readGroup s with
      | some rest => readGroups limit n (i + 1) rest
      | none => (i, false, s)

def isIpv6Addr (s : Text) : Bool :=
  match readGroups 8 8 0 s with
  | (8, _, rest) => rest.isEmpty
  | (_, true, _) => false
  | (head, false, rest) =>
    match (readGivenChar ':' rest).bind (readGivenChar ':') with
    | none => false
    | some rest => (readGroups (8 - (head + 1)) (8 - (head + 1)) 0 rest).2.2.isEmpty

def isValidPort (port : Text) : Bool :=
  let value := port.foldl (fun n c => n * 10 + (c.toNat - 0x30)) 0
  !port.isEmpty && port.all isAsciiDigit && value ≤ 65535 && value != 0

def isDnsSafeName (name : Text) : Bool :=
  !name.isEmpty && name.all fun c => isAsciiAlphanumeric c || c == '-' || c == '.'

def isValidAuthorityHost (host : Text) : Bool :=
  match host with
  | '[' :: inner =>
    match splitOnceAt ']' inner with
    | none => false
    | some (address, after) =>
      isIpv6Addr address &&
        (match after with
        | ':' :: port => isValidPort port
        | _ => after.isEmpty)
  | _ =>
    match splitOnceAt ':' host with
    | none => isDnsSafeName host
    | some (name, port) => isDnsSafeName name && isValidPort port

/-! ## URLs -/

/-- scheme, authority without userinfo, and path -/
structure UrlParts where
  scheme : Text
  host : Text
  path : Option Text

def isQueryOrFragment (c : Char) : Bool := c == '?' || c == '#'

def urlParts (value : Text) : Option UrlParts :=
  (splitOnceStr "://".toList value).map fun p =>
    let core := p.2.takeWhile fun c => !isQueryOrFragment c
    let authorityPath :=
      match splitOnceAt '/' core with
      | some (authority, path) => (authority, some path)
      | none => (core, none)
    let host := ((rsplitOnceAt '@' authorityPath.1).map Prod.snd).getD authorityPath.1
    { scheme := p.1, host, path := authorityPath.2 }

def UrlParts.text (u : UrlParts) : Text :=
  u.scheme ++ [':', '/', '/'] ++ u.host ++
    match u.path with
    | some path => '/' :: path
    | none => []

def sanitizeUrl (value : Text) : Text :=
  match urlParts value with
  | none => redacted
  | some u =>
    let scheme := asciiLowercase u.scheme
    if !(scheme == "http".toList || scheme == "https".toList) then redacted
    else if !isValidAuthorityHost u.host then redacted
    else u.text

def exportedValue (key value : Text) : Text :=
  if isSecretEnvKey key then redacted
  else if endsWith key "_URL".toList then sanitizeUrl value
  else value

/-- a map in the order of its keys; a later entry replaces an earlier one -/
def mapInsert (key value : Text) : List (Text × Text) → List (Text × Text)
  | [] => [(key, value)]
  | entry :: entries =>
    if entry.1 == key then (key, value) :: entries
    else if textLe key entry.1 then (key, value) :: entry :: entries
    else entry :: mapInsert key value entries

def redactedEnvironment (vars : List (Text × Text)) : List (Text × Text) :=
  (vars.filter fun v => exportEnvAllowlist.contains v.1).foldl
    (fun m v => mapInsert v.1 (exportedValue v.1 v.2) m) []

/-! ## free-form strings -/

def scrubSecretValues (text : Text) (secrets : List Text) : Text :=
  secrets.foldl
    (fun scrubbed secret => if secret.isEmpty then scrubbed else replaceAll scrubbed secret redacted)
    text

def stripUrlSecrets (url : Text) : Text :=
  match urlParts url with
  | none => url
  | some u => u.text

def urlSchemes : List Text := ["http://", "https://", "ws://", "wss://"].map String.toList

/-- a URL starts here, whatever the case of its scheme -/
def schemeAt (s : Text) : Bool := urlSchemes.any fun scheme => startsWith (asciiLowercase s) scheme

/-- a URL runs to the next whitespace; `skip` characters of it are still to be passed over -/
def scrubUrlsFrom : Nat → Text → Text
  | _, [] => []
  | skip + 1, _ :: s => scrubUrlsFrom skip s
  | 0, c :: s =>
    if schemeAt (c :: s) then
      stripUrlSecrets ((c :: s).takeWhile notWhitespace) ++
        scrubUrlsFrom (s.takeWhile notWhitespace).length s
    else c :: scrubUrlsFrom 0 s

def scrubEmbeddedUrls (text : Text) : Text := scrubUrlsFrom 0 text

def scrubFreeText (text : Text) (secrets : List Text) : Text :=
  scrubEmbeddedUrls (scrubSecretValues text secrets)

def secretValues (vars : List (Text × Text)) : List Text :=
  (vars.filter fun v => isSecretEnvKey v.1 && !v.2.isEmpty).map Prod.snd

/-! ## the export -/

structure DiagnosticExport where
  record : DiagnosticRecord
  environment : List (Text × Text)
deriving DecidableEq, Repr

def scrubLocalAsrDiagnostic (d : LocalAsrDiagnostic) (scrub : Text → Text) : LocalAsrDiagnostic :=
  LocalAsrDiagnostic.normalize
    { modelId := scrub d.modelId
      runtime := d.runtime.map scrub
      backend := d.backend.map scrub
      language := d.language.map scrub
      requestedDevice := d.requestedDevice.map scrub
      observedDevice := d.observedDevice.map scrub
      manifestHash := d.manifestHash.map scrub
      reason := d.reason.map scrub }

def scrubEdit (scrub : Text → Text) (e : SmartWritingEditEvidence) : SmartWritingEditEvidence :=
  { editId := scrub e.editId, ruleId := scrub e.ruleId, before := scrub e.before
    after := scrub e.after }

def scrubSmartWritingDiagnostic (digest : Digest) (d : SmartWritingDiagnostic)
    (scrub : Text → Text) : SmartWritingDiagnostic :=
  SmartWritingDiagnostic.normalize digest
    { d with
      formatterContractId := scrub d.formatterContractId
      validatedBefore := scrub d.validatedBefore
      renderedAfter := scrub d.renderedAfter
      modelId := d.modelId.map scrub
      freeFormError := d.freeFormError.map scrub
      edits := d.edits.map (scrubEdit scrub) }

/-- the model of an intent reconstruction is not scrubbed -/
def scrubIntent (scrub : Text → Text) (d : IntentReconstructionDiagnostic) :
    IntentReconstructionDiagnostic :=
  IntentReconstructionDiagnostic.normalize { d with candidate := d.candidate.map scrub }

def exportRecord (digest : Digest) (record : DiagnosticRecord) (vars : List (Text × Text)) :
    DiagnosticExport :=
  let scrub := fun text => scrubFreeText text (secretValues vars)
  { record :=
      { record with
        sourceTranscripts := record.sourceTranscripts.map fun source =>
          { source with text := scrub source.text }
        finalTranscript := record.finalTranscript.map scrub
        validationReason := record.validationReason.map scrub
        fallbackReason := record.fallbackReason.map scrub
        error := record.error.map scrub
        deliveryFallbackReason := record.deliveryFallbackReason.map scrub
        providerFailures := record.providerFailures.map fun failure =>
          { failure with diagnostic := scrub failure.diagnostic }
        smartWriting := record.smartWriting.map fun d => scrubSmartWritingDiagnostic digest d scrub
        dpr := record.dpr.map DprDiagnostic.normalize
        intentReconstruction := record.intentReconstruction.map (scrubIntent scrub)
        localAsr := record.localAsr.map fun d => scrubLocalAsrDiagnostic d scrub }
    environment := redactedEnvironment vars }

/-! ## free-form strings of a record -/

def SmartWritingEditEvidence.freeForm (e : SmartWritingEditEvidence) : List Text :=
  [e.editId, e.ruleId, e.before, e.after]

def SmartWritingDiagnostic.freeForm (d : SmartWritingDiagnostic) : List Text :=
  [d.formatterContractId, d.validatedBefore, d.renderedAfter] ++ d.modelId.toList ++
    d.freeFormError.toList ++ d.edits.flatMap SmartWritingEditEvidence.freeForm

def LocalAsrDiagnostic.freeForm (d : LocalAsrDiagnostic) : List Text :=
  d.modelId ::
    ([d.runtime, d.backend, d.language, d.requestedDevice, d.observedDevice, d.manifestHash,
      d.reason].flatMap Option.toList)

/-- the free-form strings that an export scrubs -/
def DiagnosticRecord.scrubbed (record : DiagnosticRecord) : List Text :=
  record.sourceTranscripts.map SourceTranscriptRecord.text ++
    ([record.finalTranscript, record.validationReason, record.fallbackReason, record.error,
      record.deliveryFallbackReason].flatMap Option.toList) ++
    record.providerFailures.map ProviderFailure.diagnostic ++
    record.smartWriting.toList.flatMap SmartWritingDiagnostic.freeForm ++
    record.intentReconstruction.toList.flatMap (fun d => d.candidate.toList) ++
    record.localAsr.toList.flatMap LocalAsrDiagnostic.freeForm

/-- the free-form strings that an export copies -/
def DiagnosticRecord.copied (record : DiagnosticRecord) : List Text :=
  record.correlationId ::
    (record.debugAudio.toList.map DebugAudioRecord.fileName ++
      record.intentReconstruction.toList.map IntentReconstructionDiagnostic.model)

def DiagnosticExport.freeForm (e : DiagnosticExport) : List Text :=
  e.record.scrubbed ++ e.record.copied ++ e.environment.map Prod.snd

end Voisu.Diagnostics
