import Mathlib
import Voisu.FormatEdits.Contract
import Voisu.Grammar.Candidate
import Voisu.Lib.Casing
import Voisu.Lib.Substrings

/-!
# The review of Grammar edits

The candidate is decoded; each of its edits is now held against the Validated Transcript and the
baseline.  An edit passes when it replaces exactly one word, names the text that stands there, keeps
clear of the protected content, fits one of three closed rules, and when the formatter has an anchor
for that word under which the same word still stands.

* `protectedRanges`   the ranges sealed into the baseline, and what the transcript itself protects;
* `ruleMatches`       the three rules with their contexts;
* `reviewEdit`        the faults of one edit, and the anchor under which it is accepted;
* `gatedEdits`        the accepted edits; none as soon as anything in the candidate is at fault.
-/

namespace Voisu.Grammar
open Lib
open Commands (SourceSpan parseFormattingCommands)
open Formatting (FormattingBaseline Token unmark tokenSpan normalizeRanges wholeText)

/-! ## words -/

def isApostrophe (c : Char) : Bool := c == '\'' || c == '’'

def startsAlphanumeric : Text → Bool
  | [] => false
  | c :: _ => isAlphanumeric c

/-- `inWord` says whether the character before the text belongs to a word -/
def markWords (inWord : Bool) : Text → List (Char × Bool)
  | [] => []
  | c :: rest =>
    let belongs := isAlphanumeric c || (inWord && isApostrophe c && startsAlphanumeric rest)
    (c, belongs) :: markWords belongs rest

def wordTokens (text : Text) : List Token := (runs Prod.snd 0 (markWords false text)).map unmark

/-- `token_index` -/
def tokenIndex (tokens : List Token) (edit : GrammarEdit) : Option Nat :=
  tokens.findIdx? fun tok => tok.start == edit.startUtf8 && tok.stop == edit.endUtf8

/-! ## protected content -/

def promptMarkers : List Text :=
  ["ignore previous instructions", "system prompt", "developer message", "you are chatgpt",
    "system:", "user:"].map String.toList

def isNameChar (c : Char) : Bool := isAlphanumeric c || c == '_'

/-- the occurrences of the lowercase ASCII phrase that no letter touches; `left` is the character
before the text, and `skip` characters of the last occurrence are still to be passed -/
def phraseRangesFrom (needle : Text) (left : Option Char) (skip off : Nat) : Text → List SourceSpan
  | [] => []
  | c :: rest =>
    let next := off + ByteSized.size c
    match skip with
    | skip + 1 => phraseRangesFrom needle (some c) skip next rest
    | 0 =>
      if startsWith (asciiLowercase (c :: rest)) needle then
        let right := ((c :: rest).drop needle.length).head?
        let here : List SourceSpan :=
          if left.any isNameChar || right.any isNameChar then [] else [⟨off, off + byteLen needle⟩]
        here ++ phraseRangesFrom needle (some c) (needle.length - 1) next rest
      else phraseRangesFrom needle (some c) 0 next rest

def asciiPhraseRanges (text phrase : Text) : List SourceSpan :=
  if phrase.isEmpty || phrase.any fun c => 0x7F < c.toNat then []
  else phraseRangesFrom (asciiLowercase phrase) none 0 0 text

def isEmail (token : Text) : Bool :=
  (splitOnceAt '@' token).any fun p => !p.1.isEmpty && p.2.contains '.'

def isIdentifier (token : Text) : Bool :=
  token.contains '_'
    || (token.zip (token.drop 1)).any (fun p => isAsciiLowercase p.1 && isAsciiUppercase p.2)
    || (2 ≤ byteLen token && token.any isAsciiAlphabetic
      && (token.filter isAsciiAlphabetic).all isAsciiUppercase)
    || (token.all (fun c => isAsciiAlphanumeric c || c == '-' || c == '_' || c == '.')
      && token.any fun c => c == '-' || c == '.')

def isOpening (c : Char) : Bool := ['(', '[', '\x7b', '"', '\''].contains c
def isClosing (c : Char) : Bool := ['.', ',', ';', ':', ')', ']', '\x7d', '"', '\''].contains c

def emailAndIdentifierRanges (text : Text) : List SourceSpan :=
  (runs notWhitespace 0 text).filterMap fun raw =>
    let start := raw.start + byteLen (raw.text.takeWhile isOpening)
    let token := trimEndMatches isClosing (trimStartMatches isOpening raw.text)
    if token ≠ [] ∧ (isEmail token || isIdentifier token) then some ⟨start, start + byteLen token⟩
    else none

def GrammarSafetyOptions.terms (options : GrammarSafetyOptions) : List Text :=
  options.dictionaryTerms ++ options.protectedNames

def protectsWord (options : GrammarSafetyOptions) (word : Text) : Bool :=
  let lower := toLowercase word
  options.terms.any (fun term => toLowercase term == lower)
    || (["not", "no", "never"].map String.toList).contains lower
    || endsWith lower "n't".toList || endsWith lower "n’t".toList

def protectedRanges (text : Text) (baseline : FormattingBaseline) (options : GrammarSafetyOptions)
    (tokens : List Token) : List SourceSpan :=
  let lower := asciiLowercase text
  normalizeRanges (baseline.protectedSourceRanges
    ++ ((tokens.filter fun tok => protectsWord options tok.text).map tokenSpan)
    ++ options.terms.flatMap (asciiPhraseRanges text)
    ++ emailAndIdentifierRanges text
    ++ (if promptMarkers.any (Lib.contains lower) then [wholeText text] else []))

/-! ## the closed rules -/

def isPluralQuantity (text : Text) : Bool :=
  (["two", "three", "four", "five", "six", "seven", "eight", "nine", "ten", "eleven", "twelve",
    "2", "3", "4", "5", "6", "7", "8", "9", "10", "11", "12"].map String.toList).contains
      (asciiLowercase text)

def asciiSpaces (text : Text) (start stop : Nat) : Bool :=
  start < stop && ((slice start stop text).getD []).all (· == ' ')

def tokenIs (word : String) (tok : Token) : Bool := eqIgnoreAsciiCase tok.text word.toList

def isKnownRule (rule : Text) : Bool :=
  (["G_THERE_IS_PLURAL_QUANTITY", "G_LETS_MEET_CONTRACTION", "G_DIDNT_APOSTROPHE"].map
    String.toList).contains rule

/-- two neighbouring words `new line` -/
def hasNewLine (tokens : List Token) : Bool :=
  (tokens.zip (tokens.drop 1)).any fun p => tokenIs "new" p.1 && tokenIs "line" p.2

/-- `there is two issues`, at the index of `is` -/
def thereIsPlural (base : Text) (tokens : List Token) (index : Nat) : Bool :=
  match index, tokens[index - 1]?, tokens[index]?, tokens[index + 1]?, tokens[index + 2]? with
  | _ + 1, some previous, some verb, some quantity, some noun =>
    !(parseFormattingCommands base).hasCommandSpan && !hasNewLine tokens
      && tokenIs "there" previous && tokenIs "issues" noun && isPluralQuantity quantity.text
      && asciiSpaces base previous.stop verb.start && asciiSpaces base verb.stop quantity.start
      && asciiSpaces base quantity.stop noun.start
  | _, _, _, _, _ => false

/-- `lets meet` at the very start -/
def letsMeet (base : Text) (tokens : List Token) (index : Nat) : Bool :=
  match index, tokens[0]?, tokens[1]? with
  | 0, some lets, some meet =>
    ((slice 0 lets.start base).getD []).all (· == ' ') && tokenIs "meet" meet
      && asciiSpaces base lets.stop meet.start && !(parseFormattingCommands base).hasCommandSpan
  | _, _, _ => false

def ruleMatches (base : Text) (tokens : List Token) (edit : GrammarEdit) : Bool :=
  match tokenIndex tokens edit with
  | none => false
  | some index =>
    if edit.ruleId = "G_THERE_IS_PLURAL_QUANTITY".toList then
      edit.before == "is".toList && edit.after == "are".toList && thereIsPlural base tokens index
    else if edit.ruleId = "G_LETS_MEET_CONTRACTION".toList then
      edit.before == "lets".toList && edit.after == "let's".toList && letsMeet base tokens index
    else if edit.ruleId = "G_DIDNT_APOSTROPHE".toList then
      edit.before == "didnt".toList && edit.after == "didn't".toList
    else false

/-! ## the review -/

def overlaps (left right : SourceSpan) : Bool := left.start < right.stop && right.start < left.stop

/-- under the anchor stands the source word, in any ASCII case -/
def namesSource (baseline : FormattingBaseline) (anchor : SourceSpan) (before : Text) : Bool :=
  (slice anchor.start anchor.stop baseline.rendered).any fun text => eqIgnoreAsciiCase text before

/-- what is wrong with an edit of a range of the transcript, before its anchor is looked up -/
def editFaults (ranges : List SourceSpan) (edit : GrammarEdit)
    (isToken anchored knownRule ruleOk : Bool) : List Fault :=
  (if !isToken || edit.startUtf8 == edit.endUtf8 then
    [(GrammarErrorCode.notTokenBoundary, "grammar edit must replace exactly one lexical token")]
    else [])
  ++ (if !anchored then
    [(GrammarErrorCode.anchorMismatch, "grammar before field does not match source range")] else [])
  ++ (if edit.startUtf8 < edit.endUtf8 && ranges.any (overlaps edit.span) then
    [(GrammarErrorCode.protectedSpan, "grammar edit intersects protected content")] else [])
  ++ (if !knownRule then
    [(GrammarErrorCode.unknownRule, "grammar rule is not in the closed catalog")]
    else if !ruleOk then [(GrammarErrorCode.ruleContext, "grammar rule context predicate failed")]
    else [])

/-- the faults of an edit, and the anchor under which it is accepted -/
def reviewEdit (validated : Text) (baseline : FormattingBaseline) (tokens : List Token)
    (ranges : List SourceSpan) (edit : GrammarEdit) : List Fault × Option SourceSpan :=
  if edit.endUtf8 < edit.startUtf8 || byteLen validated < edit.endUtf8 then
    ([(.spanOutOfBounds, "grammar range is outside Validated Transcript")], none)
  else if !isBoundary edit.startUtf8 validated || !isBoundary edit.endUtf8 validated then
    ([(.spanNotCharBoundary, "grammar range cuts a UTF-8 scalar")], none)
  else
    let isToken := (tokenIndex tokens edit).isSome
    let anchored := slice edit.startUtf8 edit.endUtf8 validated == some edit.before
    let knownRule := isKnownRule edit.ruleId
    let ruleOk := isToken && knownRule && ruleMatches validated tokens edit
    let faults := editFaults ranges edit isToken anchored knownRule ruleOk
    if isToken && anchored && ruleOk then
      match baseline.anchorForSource edit.span with
      | none => (faults ++ [(.unmappable, "formatter emitted no source anchor")], none)
      | some anchor =>
        if namesSource baseline anchor edit.before then (faults, some anchor)
        else (faults ++ [(.unmappable, "formatter anchor no longer names the source token")], none)
    else (faults, none)

/-- every pair of an element and a later one -/
def laterPairs {α : Type} : List α → List (α × α)
  | [] => []
  | left :: rest => rest.map (fun right => (left, right)) ++ laterPairs rest

def reviews (validated : Text) (baseline : FormattingBaseline) (options : GrammarSafetyOptions)
    (edits : List GrammarEdit) : List (GrammarEdit × List Fault × Option SourceSpan) :=
  let tokens := wordTokens validated
  let ranges := protectedRanges validated baseline options tokens
  edits.map fun edit => (edit, reviewEdit validated baseline tokens ranges edit)

/-- the edits that pass on their own, with their anchors in the baseline -/
def acceptedEdits (validated : Text) (baseline : FormattingBaseline)
    (options : GrammarSafetyOptions) (edits : List GrammarEdit) : List (GrammarEdit × SourceSpan) :=
  (reviews validated baseline options edits).filterMap fun r =>
    r.2.2.map fun anchor => (r.1, anchor)

/-- what is pushed, in order: the faults of the edits, then the pairs that overlap in the transcript
or in the baseline -/
def reviewFaults (validated : Text) (baseline : FormattingBaseline)
    (options : GrammarSafetyOptions) (edits : List GrammarEdit) : List GrammarDiagnostic :=
  (reviews validated baseline options edits).flatMap
      (fun r => r.2.1.map fun fault => diagnostic fault.1 fault.2 r.1.id)
    ++ ((laterPairs edits).filter fun p => overlaps p.1.span p.2.span).map
      (fun p => diagnostic .overlap "grammar ranges overlap or duplicate" p.2.id)
    ++ ((laterPairs (acceptedEdits validated baseline options edits)).filter
        fun p => overlaps p.1.2 p.2.2).map
      (fun _ => diagnostic .unmappable "formatter anchors overlap" [])

def reviewDiagnostics (validated : Text) (baseline : FormattingBaseline)
    (options : GrammarSafetyOptions) (edits : List GrammarEdit) : List GrammarDiagnostic :=
  (reviewFaults validated baseline options edits).foldl pushDiagnostic []

/-- the edits that are applied -/
def gatedEdits (validated : Text) (baseline : FormattingBaseline) (options : GrammarSafetyOptions)
    (edits : List GrammarEdit) : List (GrammarEdit × SourceSpan) :=
  if (reviewDiagnostics validated baseline options edits).isEmpty then
    acceptedEdits validated baseline options edits
  else []

example : (wordTokens "don't é1 '’x".toList).map (fun t => (t.start, String.ofList t.text)) =
    [(0, "don't"), (6, "é1"), (14, "x")] := by decide +kernel

end Voisu.Grammar
