import Mathlib
import Voisu.Compose.Candidate
import Voisu.Daemon.Messages
import Voisu.Lib.Lines
import Voisu.Lib.Substrings
import Voisu.LocalTail

/-!
# The config file

`config.toml` is read by hand-written parsers, one for each key, and rewritten by one merge.  All of
them look at a line without its comment and the whitespace around it, and only before the first
table.

* `parseRoot`               the parsers that stop at the key or at a table, one for each key;
* `parseEnabled`            the parser of Local recovery, which goes on through the tables;
* `parseAsrModeDocument`    the strict parser of the engine, which refuses what it cannot read;
* `mergeContent`            the rewritten file;
* `Setting`                 what one setter sets.
-/

namespace Voisu.Config
open Lib Daemon LocalTail Compose

/-! ## keys and values -/

def deepgramEnabledKey : Text := "deepgram_enabled".toList
def deliveryModeKey : Text := "delivery_mode".toList
def writingModeKey : Text := "writing_mode".toList
def renderingPolicyKey : Text := "rendering_policy".toList
def toneKey : Text := "tone".toList
def asrModeKey : Text := "asr_mode".toList
def recoveryKey : Text := "local_recovery_enabled".toList

/-- bare and quoted spellings -/
def isAsrModeKey (key : Text) : Bool :=
  key == asrModeKey || key == "\"asr_mode\"".toList || key == "'asr_mode'".toList

inductive DeliveryMode where
  | paste
  | copy
deriving DecidableEq, Repr

inductive StoredDelivery where
  | mode (mode : DeliveryMode)
  | legacyPaste
  | legacyClipboard
deriving DecidableEq, Repr

inductive Tone where
  | formal
  | informal
deriving DecidableEq, Repr

inductive WritingModeLoad where
  | missing
  | failClosed
  | known (mode : WritingMode)
deriving DecidableEq, Repr

inductive RenderingPolicyLoad where
  | missing
  | failClosed
  | known (policy : RenderingPolicy)
deriving DecidableEq, Repr

def DeliveryMode.asStr : DeliveryMode → Text
  | .paste => "paste".toList
  | .copy => "copy".toList

def writingModeAsStr : WritingMode → Text
  | .smart => "clean".toList
  | .literal => "exact".toList

def layoutName : RenderingPolicy → Text
  | .natural => "plain".toList
  | .adaptive => "auto".toList
  | .structured => "sections".toList

def asrModeAsStr : AsrMode → Text
  | .cloud => "cloud".toList
  | .localMode => "local".toList

def Tone.asStr : Tone → Text
  | .formal => "formal".toList
  | .informal => "informal".toList

def parseLayout (value : Text) : Option RenderingPolicy :=
  if value = "plain".toList then some .natural
  else if value = "auto".toList then some .adaptive
  else if value = "sections".toList then some .structured
  else none

/-- `RenderingPolicy::parse` -/
def renderingPolicyParse (value : Text) : Option RenderingPolicy :=
  if value = "natural".toList then some .natural
  else if value = "adaptive".toList then some .adaptive
  else if value = "structured".toList then some .structured
  else none

def Tone.parse (value : Text) : Option Tone :=
  if value = "formal".toList then some .formal
  else if value = "informal".toList then some .informal
  else none

/-! ## lines -/

/-- a `#` anywhere begins a comment -/
def stripComment (line : Text) : Text := line.takeWhile (· != '#')

def content (line : Text) : Text := trim (stripComment line)

/-- the key and the value of a line, as they are written -/
def keyValue (line : Text) : Option (Text × Text) := splitOnceAt '=' line

def isTable (line : Text) : Bool := line.head? == some '['

/-! ## the tolerant parsers -/

/-- the value of the first root line with the key; `missing` when there is none before a table -/
def parseRoot {ρ : Type} (key : Text) (value : Text → ρ) (missing : ρ) : List Text → ρ
  | [] => missing
  | raw :: rest =>
    let line := content raw
    if line.isEmpty then parseRoot key value missing rest
    else if isTable line then missing
    else match keyValue line with
      | none => parseRoot key value missing rest
      | some (k, v) => if trim k ≠ key then parseRoot key value missing rest else value (trim v)

def deepgramEnabledOf (value : Text) : Option Bool :=
  if value = "true".toList then some true
  else if value = "false".toList then some false
  else none

def parseDeepgramEnabled (contents : Text) : Option Bool :=
  parseRoot deepgramEnabledKey deepgramEnabledOf none (strLines contents)

/-- both string forms -/
def quotes (value : Text) (word : String) : Bool :=
  value == '"' :: word.toList ++ ['"'] || value == '\'' :: word.toList ++ ['\'']

def storedDeliveryOf (value : Text) : Option StoredDelivery :=
  if quotes value "paste" then some (.mode .paste)
  else if quotes value "copy" then some (.mode .copy)
  else if quotes value "type" || quotes value "guarded" then some .legacyPaste
  else if quotes value "clipboard" then some .legacyClipboard
  else none

def parseDeliveryMode (contents : Text) : Option StoredDelivery :=
  parseRoot deliveryModeKey storedDeliveryOf none (strLines contents)

def writingModeOf (value : Text) : WritingModeLoad :=
  if quotes value "clean" || quotes value "smart" then .known .smart
  else if quotes value "exact" || quotes value "literal" then .known .literal
  else .failClosed

def parseWritingMode (contents : Text) : WritingModeLoad :=
  parseRoot writingModeKey writingModeOf .missing (strLines contents)

/-- what stands between two marks -/
def between (mark : Char) (value : Text) : Option Text :=
  if value.head? = some mark ∧ (value.drop 1).getLast? = some mark then
    some (value.drop 1).dropLast
  else none

def unquoted (value : Text) : Option Text := (between '"' value).or (between '\'' value)

def renderingPolicyOf (value : Text) : RenderingPolicyLoad :=
  match (unquoted value).bind fun word => (parseLayout word).or (renderingPolicyParse word) with
  | some policy => .known policy
  | none => .failClosed

def parseRenderingPolicy (contents : Text) : RenderingPolicyLoad :=
  parseRoot renderingPolicyKey renderingPolicyOf .missing (strLines contents)

def toneOf (value : Text) : Option Tone := (unquoted value).bind Tone.parse

def parseTone (contents : Text) : Option Tone :=
  parseRoot toneKey toneOf none (strLines contents)

/-- `local_recovery::parse_enabled`: a table leaves the root, and the loop goes on -/
def parseEnabledFrom (inRoot : Bool) : List Text → Option Bool
  | [] => none
  | raw :: rest =>
    let line := content raw
    if isTable line then parseEnabledFrom false rest
    else if !inRoot || line.isEmpty then parseEnabledFrom inRoot rest
    else match keyValue line with
      | none => parseEnabledFrom inRoot rest
      | some (k, v) =>
        if trim k ≠ recoveryKey then parseEnabledFrom inRoot rest
        else some (trim v = "true".toList)

def parseEnabled (contents : Text) : Option Bool := parseEnabledFrom true (strLines contents)

/-! ## the strict parser -/

inductive AdmissionError where
  | access (message : Text)
  | blocked (message : Text)
deriving DecidableEq, Repr

def unreadableLine : AdmissionError :=
  .blocked "your Voisu config file has a line Voisu can't read; fix or remove it".toList

def setTwice (key : Text) : AdmissionError :=
  .blocked ("your Voisu config file sets ".toList ++ key ++ " twice; remove one".toList)

def unknownAsrMode : AdmissionError :=
  .blocked ("your Voisu config file has an unknown asr_mode; run voisu engine local or voisu " ++
    "engine cloud").toList

def asrModeOf (value : Text) : Except AdmissionError AsrMode :=
  if quotes value "cloud" then .ok .cloud
  else if quotes value "local" then .ok .localMode
  else .error unknownAsrMode

/-- the keys seen so far, and the engine if it has been set -/
def parseAsrModeFrom (inRoot : Bool) (seen : List Text) (asrMode : Option AsrMode) :
    List Text → Except AdmissionError (Option AsrMode)
  | [] => .ok asrMode
  | raw :: rest =>
    let line := content raw
    if line.isEmpty then parseAsrModeFrom inRoot seen asrMode rest
    else if isTable line then parseAsrModeFrom false seen asrMode rest
    else if !inRoot then parseAsrModeFrom inRoot seen asrMode rest
    else match keyValue line with
      | none => .error unreadableLine
      | some (k, v) =>
        let key := trim k
        if key.isEmpty then .error unreadableLine
        else if key.contains '\\' then .error unreadableLine
        else
          let seenKey := if isAsrModeKey key then asrModeKey else key
          if seen.contains seenKey then .error (setTwice key)
          else if !isAsrModeKey key then parseAsrModeFrom inRoot (seenKey :: seen) asrMode rest
          else match asrModeOf (trim v) with
            | .error error => .error error
            | .ok mode => parseAsrModeFrom inRoot (seenKey :: seen) (some mode) rest

def parseAsrModeDocument (contents : Text) : Except AdmissionError (Option AsrMode) :=
  parseAsrModeFrom true [] none (strLines contents)

/-! ## the merge -/

def comment (text : String) : Text := '#' :: text.toList

def managedLines : List Text :=
  [" Voisu daemon configuration.",
    " ASR mode is re-read at Start/Replay; other keys may be snapshotted at daemon start.",
    " Managed by the `voisu deepgram`, `voisu delivery`, `voisu writing`, `voisu layout`, " ++
      "`voisu tone`, and `voisu engine` commands."].map comment

/-- the headers of earlier releases -/
def legacyManagedLines : List Text :=
  [" Whether the Deepgram Provider participates in a Recording.",
    " Managed by `voisu deepgram on|off`; read once at daemon start.",
    " Recording Provider and Delivery settings; read once at daemon start.",
    " Managed by the `voisu deepgram` and `voisu delivery` commands.",
    " Recording Provider, Delivery, and Writing Mode settings; read once at daemon start.",
    " Managed by the `voisu deepgram`, `voisu delivery`, and `voisu writing` commands.",
    " Recording Provider, Delivery, Writing Mode, and Rendering Policy settings; read once at " ++
      "daemon start.",
    " Managed by the `voisu deepgram`, `voisu delivery`, `voisu writing`, and " ++
      "`voisu rendering` commands.",
    " Recording Provider, Delivery, Writing Mode, Rendering Policy, and ASR mode settings; read " ++
      "once at daemon start.",
    " Managed by the `voisu deepgram`, `voisu delivery`, `voisu writing`, `voisu rendering`, and " ++
      "`voisu mode` commands.",
    " Managed by the `voisu deepgram`, `voisu delivery`, `voisu writing`, `voisu layout`, and " ++
      "`voisu engine` commands."].map comment

/-- the arguments of `merge_content`: what is to be set -/
structure Settings where
  deepgramEnabled : Option Bool
  deliveryMode : Option DeliveryMode
  writingMode : Option WritingMode
  renderingPolicy : Option RenderingPolicy
  asrMode : Option AsrMode
  tone : Option Tone
deriving DecidableEq, Repr

/-- whether a root line with this key is replaced -/
def Settings.replaces (settings : Settings) (key : Text) : Bool :=
  settings.deepgramEnabled.isSome && key == deepgramEnabledKey ||
    settings.deliveryMode.isSome && key == deliveryModeKey ||
    settings.writingMode.isSome && key == writingModeKey ||
    settings.renderingPolicy.isSome && key == renderingPolicyKey ||
    settings.asrMode.isSome && isAsrModeKey key ||
    settings.tone.isSome && key == toneKey

def isManagedComment (line : Text) : Bool :=
  managedLines.contains (trim line) || legacyManagedLines.contains (trim line)

/-- the lines that stay -/
def preserved (settings : Settings) (inRoot : Bool) : List Text → List Text
  | [] => []
  | line :: rest =>
    let trimmed := content line
    let inRoot := inRoot && !isTable trimmed
    if isManagedComment line ||
        (inRoot && (keyValue trimmed).any fun p => settings.replaces (trim p.1)) then
      preserved settings inRoot rest
    else line :: preserved settings inRoot rest

def quote (word : Text) : Text := '"' :: word ++ ['"']

def renderLine (key value : Text) : Text := key ++ " = ".toList ++ value

/-- the lines of the settings that are given -/
def Settings.lines (settings : Settings) : List Text :=
  (settings.deepgramEnabled.map fun enabled =>
      renderLine deepgramEnabledKey (if enabled then "true".toList else "false".toList)).toList ++
    (settings.deliveryMode.map fun mode => renderLine deliveryModeKey (quote mode.asStr)).toList ++
    (settings.writingMode.map fun mode =>
      renderLine writingModeKey (quote (writingModeAsStr mode))).toList ++
    (settings.renderingPolicy.map fun policy =>
      renderLine renderingPolicyKey (quote (layoutName policy))).toList ++
    (settings.asrMode.map fun mode => renderLine asrModeKey (quote (asrModeAsStr mode))).toList ++
    (settings.tone.map fun tone => renderLine toneKey (quote tone.asStr)).toList

def render (settings : Settings) : Text := unlines (managedLines ++ settings.lines)

def mergeContent (existing : Text) (settings : Settings) : Text :=
  let body := trimMatches (· == '\n')
    (['\n'].intercalate (preserved settings true (strLines existing)))
  if body.isEmpty then render settings else render settings ++ '\n' :: body ++ ['\n']

/-! ## one setter -/

/-- what a setter is given -/
inductive Setting where
  | deepgramEnabled (enabled : Bool)
  | deliveryMode (mode : DeliveryMode)
  | writingMode (mode : WritingMode)
  | renderingPolicy (policy : RenderingPolicy)
  | asrMode (mode : AsrMode)
  | tone (tone : Tone)
deriving DecidableEq, Repr

def Settings.none : Settings :=
  { deepgramEnabled := .none, deliveryMode := .none, writingMode := .none, renderingPolicy := .none,
    asrMode := .none, tone := .none }

/-- `write_setting`, `write_delivery_mode`, … : one argument of `write_config` is given -/
def Setting.settings : Setting → Settings
  | .deepgramEnabled enabled => { Settings.none with deepgramEnabled := some enabled }
  | .deliveryMode mode => { Settings.none with deliveryMode := some mode }
  | .writingMode mode => { Settings.none with writingMode := some mode }
  | .renderingPolicy policy => { Settings.none with renderingPolicy := some policy }
  | .asrMode mode => { Settings.none with asrMode := some mode }
  | .tone value => { Settings.none with tone := some value }

def Setting.merge (setting : Setting) (existing : Text) : Text :=
  mergeContent existing setting.settings

end Voisu.Config
