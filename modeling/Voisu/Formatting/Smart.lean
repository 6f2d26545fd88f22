import Mathlib
import Voisu.Formatting.Finish

/-!
# The smart formatter

`format_validated_for_grammar`, without the hermetic copy of the grammar rules, which this entry
point turns off.  Time enters through the checks of the deadline alone: `late k` is the answer of the
`k`-th check of one call.  What is sealed beside the rendered text is `Voisu.Formatting.Baseline`'s.

* `smartFormat`       the passes in order, `none` when a check finds the deadline past;
* `smartRendering`    the text that is sealed: the formatted one, or the transcript itself.
-/

namespace Voisu.Formatting
open Lib Commands

def maxValidatedTranscriptUtf8Bytes : Nat := 32768

/-- the rewrites of a text without commands -/
def applyStructure (input : Text) (snapshot : Snapshot) : Text :=
  let t := (tryCountedEnumeration input (buildEditProtection input snapshot)).getD input
  let t := applyEmailHiName t (buildEditProtection t snapshot)
  splitEmailUpdateSentence t (buildEditProtection t snapshot)

/-- commas and case -/
def applyPasses (text : Text) (snapshot : Snapshot) : Text :=
  let text := applyVocativeCommas text snapshot
  let text := applyCasing text snapshot
  capitalizeNumberedListItems text (buildEditProtection text snapshot)

/-- a command-looking phrase in a quotation or in code is content -/
def hasProtectedCommand (input : Text) : Bool :=
  (parseFormattingCommands input).commandSpans.any fun span =>
    spanTouchesProtection span.start span.stop (buildQuoteAndCodeProtection input)

/-- the text with its commands carried out -/
def literalText (input : Text) : Text :=
  if hasProtectedCommand input then input
  else (parseFormattingCommands input).renderCommandsOnly

def hasCommands (input : Text) : Bool :=
  (parseFormattingCommands input).hasCommandSpan && !hasProtectedCommand input

/-- from the casing on; checks 2 and 3 of the deadline -/
def finishFormat (late : Nat → Bool) (text : Text) (snapshot : Snapshot) (commands : Bool) :
    Option Text :=
  if late 2 then none
  else
    let text := applyPasses text snapshot
    if late 3 then none
    else if isNumberedListRender text && commands then some text
    else some (addTerminalPunctuation text (buildFencedCodeProtection text))

def smartFormat (late : Nat → Bool) (input : Text) (snapshot : Snapshot) : Option Text :=
  if input.isEmpty then some []
  else if isShellCommandLine input then some input
  else if late 1 then none
  else if !hasCommands input && isAlreadyCorrectIdentity input then some input
  else if !hasCommands input && literalText input = input then
    match tryBulletInference input (buildEditProtection input snapshot) with
    | some bullets => some bullets
    | none => finishFormat late (applyStructure input snapshot) snapshot false
  else finishFormat late (literalText input) snapshot (hasCommands input)

/-- the rendered text of `format_validated_for_grammar`: check 0 comes before the work, checks 4 to 7
before, in and after the sealing -/
def smartRendering (late : Nat → Bool) (source : Text) (snapshot : Snapshot) : Text :=
  if maxValidatedTranscriptUtf8Bytes < byteLen source || late 0 then source
  else match smartFormat late source snapshot with
    | none => source
    | some rendered => if late 4 || late 5 || late 6 || late 7 then source else rendered

end Voisu.Formatting
