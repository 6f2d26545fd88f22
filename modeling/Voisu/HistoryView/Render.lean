import Mathlib
import Voisu.Json
import Voisu.Lib.Casing
import Voisu.Lib.F64

/-!
# The history view

The human-first rendering of the retained history.  What is printed is kept in pieces: texts, and the
SGR sequences that painting puts around them, so that it can be said which of the two a character
belongs to.

* `truncateInline`    the way of an untrusted string to the terminal;
* `renderRecord`      one Recording: header, transcript or reason, engines;
* `renderPage`, `renderHistoryNoninteractive`   what the CLI prints.
-/

namespace Voisu.HistoryView
open Lib

/-! ## pieces -/

inductive Piece where
  | text (t : Text)
  /-- `ESC [ code m`, written by painting -/
  | sgr (code : Text)
deriving DecidableEq, Repr

def Piece.chars : Piece → Text
  | .text t => t
  | .sgr code => '\x1b' :: '[' :: code ++ ['m']

def printed (pieces : List Piece) : Text := pieces.flatMap Piece.chars

def lit (text : String) : List Piece := [.text text.toList]

inductive Ansi where
  | reset
  | bold
  | dim
  | red
  | green
  | yellow
  | cyanBold
deriving DecidableEq, Repr

structure RenderStyle where
  nowMs : Nat
  color : Bool
  transcriptWidth : Nat
  verbose : Bool
deriving DecidableEq, Repr

def Ansi.code : Ansi → Option Text
  | .reset => none
  | .bold => some "1".toList
  | .dim => some "2".toList
  | .red => some "31".toList
  | .green => some "32".toList
  | .yellow => some "33".toList
  | .cyanBold => some "1;36".toList

def RenderStyle.paint (style : RenderStyle) (text : Text) (ansi : Ansi) : List Piece :=
  if !style.color then [.text text]
  else match ansi.code with
    | none => [.text text]
    | some code => [.sgr code, .text text, .sgr "0".toList]

/-! ## fields and texts -/

/-- the field of an object; any other value has none -/
def field (value : Value) (key : String) : Option Value :=
  value.asObject.bind fun fields => getKey fields key.toList

def strField (record : Value) (key : String) : Option Text := (field record key).bind Value.asStr

def u64Field (record : Value) (key : String) : Option Nat := (field record key).bind Value.asUsize

def arrayField (record : Value) (key : String) : Option (List Value) :=
  (field record key).bind Value.asArray

/-- a control character of Unicode: C0, DEL and C1 -/
def isControl (c : Char) : Bool := decide (c.toNat < 0x20) || inRange c 0x7F 0x9F

/-- `lastSpace` says whether a space was the last character pushed -/
def collapse (lastSpace : Bool) : Text → Text
  | [] => []
  | c :: rest =>
    if isWhitespace c then if lastSpace then collapse true rest else ' ' :: collapse true rest
    else if isControl c then collapse false rest
    else c :: collapse false rest

def truncateInline (text : Text) (width : Nat) : Text :=
  let collapsed := trim (collapse false text)
  if collapsed.length ≤ width then collapsed else collapsed.take (width - 1) ++ ['…']

def recordingsWord (count : Nat) : Text :=
  if count = 1 then "Recording".toList else "Recordings".toList

def secondsOrDash : Option Nat → Text
  | some ms => fixedText 1 (fdiv (roundF64 ms) 1000) ++ ['s']
  | none => "—".toList

def relativeTime (nowMs thenMs : Nat) : Text :=
  let seconds := (nowMs - thenMs) / 1000
  if seconds < 5 then "just now".toList
  else if seconds < 60 then natText seconds ++ "s ago".toList
  else if seconds / 60 < 60 then natText (seconds / 60) ++ "m ago".toList
  else if seconds / 60 / 60 < 24 then natText (seconds / 60 / 60) ++ "h ago".toList
  else natText (seconds / 60 / 60 / 24) ++ "d ago".toList

def formatBytes (bytes : Nat) : Text :=
  if 1024 * 1024 * 1024 ≤ bytes then
    fixedText 1 (fdiv (roundF64 bytes) (1024 * 1024 * 1024)) ++ "GiB".toList
  else if 1024 * 1024 ≤ bytes then natText (bytes / (1024 * 1024)) ++ "MiB".toList
  else if 1024 ≤ bytes then natText (bytes / 1024) ++ "KiB".toList
  else natText bytes ++ "B".toList

/-! ## tags and labels -/

def hasTranscript (record : Value) : Bool :=
  (strField record "final_transcript").any fun text => !text.isEmpty

def deliveryTag (record : Value) : Option String :=
  if !hasTranscript record then none
  else if strField record "delivery_method" = some "clipboard_fallback".toList then
    some "(copied only, paste it)"
  else if (u64Field record "delivery_count").getD 0 = 0 then some "(not pasted)"
  else none

def truncationTag (record : Value) : Option String :=
  (strField record "truncated_by").map fun cap =>
    if cap = "buffer".toList then "(cut off: too long)"
    else if cap = "recording_deadline".toList then "(cut off: time limit)"
    else "(cut off)"

/-- the first of the reasons that is given and not empty -/
def failureReason (record : Value) : Option Text :=
  (["error", "validation_reason", "fallback_reason"].findSome? fun key =>
    (strField record key).filter fun reason => !reason.isEmpty).map fun reason =>
      truncateInline reason 80

def selectionLabel (selection : Option Text) : String :=
  match selection.map String.ofList with
  | some "complementary" => "Groq + Deepgram combined"
  | some "near_identical_groq" => "Groq"
  | some "source_groq" => "Groq"
  | some "source_deepgram" => "Deepgram"
  | some "reconciled" => "Groq + Deepgram combined"
  | some "repaired" => "Groq + Deepgram combined, fixed"
  | _ => "delivered"

/-- the stages that have a text of their own -/
def stageText (stage : Text) : Option String :=
  if stage = "streaming".toList then some "failed while listening"
  else if stage = "completion".toList then some "failed at the end"
  else if stage = "provider_deadline".toList then some "too slow"
  else if stage = "aborted".toList then some "stopped"
  else none

def failureOutcome (stage : Text) : Text :=
  match stageText stage with
  | some text => text.toList
  | none => "failed (".toList ++ stage ++ ")".toList

def providerDisplayName (provider : Text) : Text :=
  if provider = "deepgram".toList then "Deepgram".toList
  else if provider = "groq".toList then "Groq".toList
  else match provider with
    | [] => []
    | first :: rest => charToUppercase first ++ rest

/-! ## engines -/

section
variable (style : RenderStyle)

def joined : List (List Piece) → List Piece
  | [] => []
  | [part] => part
  | part :: parts => part ++ lit "  ·  " ++ joined parts

def localStatus (local' : Value) : List Piece :=
  let outcome := (strField local' "outcome").getD []
  if outcome = "transcript".toList then
    match u64Field local' "inference_ms" with
    | some ms => style.paint ("ok ".toList ++ natText ms ++ "ms".toList) .green
    | none => style.paint "ok".toList .green
  else if outcome = "no_text".toList then style.paint "no words heard".toList .yellow
  else if outcome = "error".toList then
    let detail := match strField local' "reason" with
      | some text => "failed: ".toList ++ text
      | none => "failed".toList
    style.paint (truncateInline detail 48) .red
  else style.paint outcome .dim

def renderLocalAsr (local' : Value) : List Piece :=
  let model := (strField local' "model_id").getD "local".toList
  joined
    ([style.paint model .bold ++ lit " " ++ localStatus style local'] ++
      ((strField local' "observed_device").map fun device => style.paint device .dim).toList ++
      ((strField local' "backend").map fun backend => style.paint backend .dim).toList ++
      ((u64Field local' "peak_host_ram_bytes").map fun ram =>
        style.paint ("ram ".toList ++ formatBytes ram) .dim).toList ++
      ((u64Field local' "peak_gpu_memory_bytes").map fun gpu =>
        style.paint ("gpu ".toList ++ formatBytes gpu) .dim).toList)

/-- the lists of a record that name providers -/
structure Evidence where
  timings : Option (List Value)
  failures : Option (List Value)
  sources : Option (List Value)

def evidenceOf (record : Value) : Evidence :=
  { timings := arrayField record "provider_timings_ms"
    failures := arrayField record "provider_failures"
    sources := arrayField record "source_transcripts" }

def entryOf (provider : Text) (list : Option (List Value)) : Option Value :=
  list.bind fun entries => entries.find? fun entry => strField entry "provider" == some provider

/-- what there is to say of a provider beside its name -/
inductive ProviderStatus where
  | completed (ms : Nat)
  | failed (stage diagnostic : Text)
  | hasSource
  | unknown
deriving DecidableEq, Repr

def providerStatus (provider : Text) (evidence : Evidence) : ProviderStatus :=
  match (entryOf provider evidence.timings).bind fun entry => u64Field entry "completed_ms" with
  | some completed => .completed completed
  | none =>
    match entryOf provider evidence.failures with
    | some failure =>
      .failed ((strField failure "stage").getD []) ((strField failure "diagnostic").getD [])
    | none => if (entryOf provider evidence.sources).isSome then .hasSource else .unknown

def renderStatus : ProviderStatus → List Piece
  | .completed ms => style.paint ("ok ".toList ++ natText ms ++ "ms".toList) .green
  | .failed stage diagnostic =>
    if stage = "not_started".toList then
      if Lib.contains diagnostic "disabled".toList then style.paint "disabled".toList .yellow
      else style.paint "not started".toList .yellow
    else
      style.paint (failureOutcome stage ++
        (if diagnostic.isEmpty then [] else ": ".toList ++ truncateInline diagnostic 48)) .red
  | .hasSource => style.paint "ok".toList .green
  | .unknown => style.paint "—".toList .dim

def renderOneProvider (provider : Text) (evidence : Evidence) : List Piece :=
  style.paint (providerDisplayName provider) .bold ++ lit " " ++
    renderStatus style (providerStatus provider evidence)

/-- every provider that is named, once, in order -/
def namedProviders (evidence : Evidence) : List Text :=
  let names := fun (list : Option (List Value)) =>
    (list.getD []).filterMap fun entry => strField entry "provider"
  let all := (names evidence.timings ++ names evidence.failures ++ names evidence.sources).foldl
    (fun seen name => if seen.contains name then seen else seen ++ [name]) []
  all.insertionSort fun a b => textLe a b = true

/-- the local engine's report, unless there is none or it is null -/
def localAsr (record : Value) : Option Value :=
  (field record "local_asr").filter fun value => match value with
    | .null => false
    | _ => true

def renderProviders (record : Value) : List Piece :=
  match localAsr record with
  | some local' => renderLocalAsr style local'
  | none =>
    let providers := namedProviders (evidenceOf record)
    if providers.isEmpty then style.paint "no engine results".toList .dim
    else joined (providers.map fun provider => renderOneProvider style provider (evidenceOf record))

/-! ## records and pages -/

def renderHeader (index : Nat) (record : Value) : List Piece :=
  let when := match u64Field record "recorded_at_unix_ms" with
    | some recorded => relativeTime style.nowMs recorded
    | none => "unknown time".toList
  let release := u64Field record "release_to_text_ms"
  let stopToFinalized := u64Field record "stop_to_finalized_ms"
  let stopToDelivered := u64Field record "stop_to_delivered_ms"
  let recordingDuration := u64Field record "recording_duration_ms"
  let legacyTail := match u64Field record "capture_finalized_ms", release with
    | some capture, some release => if capture ≤ release then some (release - capture) else none
    | _, _ => none
  let tail := stopToDelivered.or legacyTail
  let schema2 := u64Field record "telemetry_schema" == some 2 || stopToDelivered.isSome ||
    stopToFinalized.isSome || recordingDuration.isSome
  style.paint (natText index ++ ".".toList) .bold ++ lit " " ++ style.paint when .dim ++
    lit "  ·  ready in " ++ style.paint (secondsOrDash tail) .cyanBold ++
    (if schema2 then
      lit "  ·  spoke " ++ style.paint (secondsOrDash recordingDuration) .dim ++
        (if style.verbose then
          lit "  ·  settle " ++ style.paint (secondsOrDash stopToFinalized) .dim else [])
    else if style.verbose then lit "  ·  release " ++ style.paint (secondsOrDash release) .dim
    else [])

def renderTag : Option String → List Piece
  | some tag => lit "  " ++ style.paint tag.toList .yellow
  | none => []

/-- the delivered transcript, or why there is none -/
def renderText (record : Value) : List Piece :=
  if hasTranscript record then
    let localModel := (field record "local_asr").bind fun value => strField value "model_id"
    let selection := localModel.getD (selectionLabel (strField record "selection")).toList
    let shown := truncateInline ((strField record "final_transcript").getD []) style.transcriptWidth
    lit "   " ++ style.paint selection .cyanBold ++ lit ": " ++
      style.paint ("\"".toList ++ shown ++ "\"".toList) .reset ++ lit "\n"
  else
    let status := match failureReason record with
      | some reason => "No text — ".toList ++ reason
      | none => "No text".toList
    lit "   " ++ style.paint status .red ++ lit "\n"

def renderRecord (index : Nat) (record : Value) : List Piece :=
  renderHeader style index record ++ renderTag style (deliveryTag record) ++
    renderTag style (truncationTag record) ++ lit "\n" ++ renderText style record ++ lit "   " ++
    renderProviders style record ++ lit "\n"

structure Page where
  body : List Piece
  shown : Nat
  remaining : Nat

/-- the Recordings of a page, with their numbers -/
def pageRecords (records : Value) (start pageSize : Nat) : List (Value × Nat) :=
  ((records.asArray.getD []).zipIdx 1 |>.drop start).take pageSize

def renderPage (records : Value) (start pageSize : Nat) : Page :=
  let all := records.asArray.getD []
  if all.isEmpty then { body := lit "No Recordings yet.\n", shown := 0, remaining := 0 }
  else
    let start := min start all.length
    let stop := min (start + pageSize) all.length
    if stop - start = 0 then { body := [], shown := 0, remaining := all.length - start }
    else
      { body := (pageRecords records start pageSize).flatMap fun p =>
          renderRecord style p.2 p.1 ++ lit "\n"
        shown := stop - start
        remaining := all.length - stop }

def renderHistoryNoninteractive (records : Value) (pageSize : Nat) : List Piece :=
  let page := renderPage style records 0 pageSize
  page.body ++
    (if 0 < page.remaining then
      [.text ("\n".toList ++ natText page.remaining ++ " older ".toList ++
        recordingsWord page.remaining ++
        " not shown — run `voisu history --json` for the full history.\n".toList)]
    else [])

end

end Voisu.HistoryView
