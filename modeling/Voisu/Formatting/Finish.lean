import Mathlib
import Voisu.Formatting.Structure

/-!
# Commas, case and the end of a sentence

The passes that run over every text the formatter rewrites.

* `applyVocativeCommas`          `hey …`, `… ok`, `… lol`, `said "…" and`;
* `applyCasing`                  the first word of a sentence, `i`, the days of the week;
* `capitalizeNumberedListItems`  the first letter of every item;
* `addTerminalPunctuation`       a period or a question mark, line by line where the text has lines.
-/

namespace Voisu.Formatting
open Lib

/-! ## commas -/

/-- `hey` at the front and what stands behind it -/
def stripHey (text : Text) : Option Text :=
  if startsWith (asciiLowercase text) "hey".toList && (text.drop 3).head?.any isWhitespace then
    some (text.drop 3)
  else none

def commaAfterHey (text : Text) (protection : Mask) : Text :=
  match stripHey text with
  | some rest => if spanTouchesProtection 0 3 protection then text else "Hey,".toList ++ rest
  | none => text

def commaBeforeTrailingWord (text : Text) (word : Text) (protection : Mask) : Text :=
  let trimmed := trimEndMatches isTerminal text
  let trail := text.drop trimmed.length
  if endsWith (asciiLowercase trimmed) (' ' :: word) then
    let head := trimmed.take (trimmed.length - (word.length + 1))
    if !head.isEmpty && head.getLast? != some ',' &&
        !spanTouchesProtection (byteLen head + 1) (byteLen trimmed) protection then
      head ++ ", ".toList ++ word ++ trail
    else text
  else text

def startsWithAsciiWordCi (text word : Text) : Bool :=
  startsWith (asciiLowercase text) word && !(text.drop word.length).head?.any isWordLike

/-- a closing quotation mark and `and` -/
def quoteThenAnd (text : Text) : Bool :=
  startsWith text "\" ".toList && startsWithAsciiWordCi (text.drop 2) "and".toList

def closingQuoteIsFollowedByAnd : Text → Bool
  | [] => false
  | c :: rest => quoteThenAnd (c :: rest) || closingQuoteIsFollowedByAnd rest

/-- the text behind a word is whitespace and a quotation mark; how long that is -/
def quoteAhead (after : Text) : Option Nat :=
  let ws := after.takeWhile isWhitespace
  if (after.drop ws.length).head? = some '"' then some (ws.length + 1) else none

/-- `dropped` characters of the last replacement and `kept` of the last word passed over are still
to come -/
def replaceCiWordBeforeQuote (word : Text) (protection : Mask) (dropped kept : Nat)
    (left : Option Char) (off : Nat) : Text → Text
  | [] => []
  | c :: rest =>
    let next := off + ByteSized.size c
    if 0 < dropped then replaceCiWordBeforeQuote word protection (dropped - 1) kept (some c) next rest
    else if 0 < kept then
      c :: replaceCiWordBeforeQuote word protection 0 (kept - 1) (some c) next rest
    else if startsWith (asciiLowercase (c :: rest)) word then
      match quoteAhead ((c :: rest).drop word.length) with
      | some behind =>
        if !left.any isAsciiAlphanumeric &&
            !spanTouchesProtection off (off + byteLen word) protection && left != some ',' then
          word ++ ", \"".toList ++ replaceCiWordBeforeQuote word protection
            (word.length + behind - 1) 0 (some c) next rest
        else c :: replaceCiWordBeforeQuote word protection 0 (word.length - 1) (some c) next rest
      | none => c :: replaceCiWordBeforeQuote word protection 0 (word.length - 1) (some c) next rest
    else c :: replaceCiWordBeforeQuote word protection 0 0 (some c) next rest

def said : Text := "said".toList

/-- the text before and after the first quotation mark with a space behind it -/
def splitAtClosingQuote : Text → Option (Text × Text)
  | [] => none
  | c :: rest =>
    if startsWith (c :: rest) "\" ".toList then some ([], rest)
    else (splitAtClosingQuote rest).map fun p => (c :: p.1, p.2)

def commaBeforeClosingQuote (text : Text) : Text :=
  match splitAtClosingQuote text with
  | some (before, after) =>
    if startsWithAsciiWordCi (after.drop 1) "and".toList && !before.isEmpty &&
        before.getLast? != some ',' &&
        !spanTouchesProtection (byteLen before) (byteLen before + 1)
          (buildFencedCodeProtection text) then
      before ++ ",\"".toList ++ after
    else text
  | none => text

def applyVocativeCommas (text : Text) (snapshot : Snapshot) : Text :=
  let t := commaAfterHey text (buildEditProtection text snapshot)
  let t := commaBeforeTrailingWord t "ok".toList (buildEditProtection t snapshot)
  let t := commaBeforeTrailingWord t "lol".toList (buildEditProtection t snapshot)
  let t := if closingQuoteIsFollowedByAnd t then
      replaceCiWordBeforeQuote said (buildEditProtection t snapshot) 0 0 none 0 t
    else t
  commaBeforeClosingQuote t

/-! ## case -/

def weekdays : List String :=
  ["monday", "tuesday", "wednesday", "thursday", "friday", "saturday", "sunday"]

def isBlank (c : Char) : Bool := c == ' ' || c == '\t'

def isSentenceOrLineStart (text : Text) (off : Nat) : Bool :=
  let before := textTo off text
  off == 0 || before.getLast? == some '\n' || endsTerminal (trimEndMatches isBlank before)

def uppercaseFirst : Text → Text
  | [] => []
  | c :: rest => if isAlphabetic c then toAsciiUppercase c :: rest else c :: rest

def capitalizeWeekday : Text → Text
  | [] => []
  | c :: rest => toAsciiUppercase c :: rest.map toAsciiLowercase

def recase (text : Text) (protection : Mask) (tok : Token) : Text :=
  if spanTouchesProtection tok.start tok.stop protection then tok.text
  else if isSentenceOrLineStart text tok.start then uppercaseFirst tok.text
  else if tok.text = ['i'] ∨ tok.text = ['I'] then ['I']
  else if isWord weekdays tok.text then capitalizeWeekday tok.text
  else tok.text

def applyCasing (text : Text) (snapshot : Snapshot) : Text :=
  mapWords (recase text (buildEditProtection text snapshot)) text

def capitalizeItem (item : Text) (itemStart : Nat) (protection : Mask) : Text :=
  match item with
  | [] => []
  | first :: rest =>
    if isAlphabetic first &&
        !spanTouchesProtection itemStart (itemStart + ByteSized.size first) protection then
      toAsciiUppercase first :: rest
    else first :: rest

/-- the text before and after the first occurrence of `. ` -/
def splitAtMarker : Text → Option (Text × Text)
  | [] => none
  | c :: rest =>
    if startsWith (c :: rest) ". ".toList then some ([], rest.drop 1)
    else (splitAtMarker rest).map fun p => (c :: p.1, p.2)

def capitalizeLine (line : Text) (lineStart : Nat) (protection : Mask) : Text :=
  match splitAtMarker line with
  | some (marker, item) =>
    if marker.all isAsciiDigit then
      marker ++ ". ".toList ++ capitalizeItem item (lineStart + byteLen marker + 2) protection
    else line
  | none => line

def capitalizeLinesFrom (protection : Mask) (lineStart : Nat) : List Text → List Text
  | [] => []
  | line :: rest => capitalizeLine line lineStart protection ::
      capitalizeLinesFrom protection (lineStart + byteLen line + 1) rest

def capitalizeNumberedListItems (text : Text) (protection : Mask) : Text :=
  if (strLines text).any startsWithNumberedMarker then
    joinText ['\n'] (capitalizeLinesFrom protection 0 (strLines text))
  else text

/-! ## the end of a sentence -/

def isClosedQuestion (text : Text) : Bool :=
  let body := trimEndMatches isTerminal (trim text)
  !body.isEmpty && (contains (asciiLowercase body) "can you".toList ||
    (splitWhitespace body).getLast?.any fun last =>
      asciiLowercase (trimEndMatches (fun c => isTerminal c || c == ',') last) == "ok".toList)

def periodVerbs : List String :=
  ["is", "are", "was", "were", "be", "been", "have", "has", "had", "do", "does", "did", "will",
    "would", "can", "could", "should", "may", "might", "must", "shall", "need", "needs", "think",
    "send", "ship", "meet", "see", "file", "increase", "ignore", "enable", "returns", "works",
    "ended", "launched", "approved", "blocking", "ping", "review", "let", "lets", "aint", "contains",
    "missing", "open", "clone", "press", "use", "join", "keep", "preserve"]

/-- ends with one of `.`, `!`, `?`, `:` -/
def endsClosed (s : Text) : Bool := endsTerminal s || s.getLast? == some ':'

def isListLine (line : Text) : Bool := startsWithNumberedMarker line || startsWith line "- ".toList

def lineIndependentlyNeedsPeriod (line : Text) : Bool :=
  let s := trim line
  if s.isEmpty || endsClosed s || isListLine s then false
  else if isClosedQuestion s then true
  else decide (2 ≤ (wordTokens s).length) && (wordTokens s).any fun tok => isWord periodVerbs tok.text

def terminalByteIsProtected (line : Text) (protection : Mask) : Bool :=
  !(trimEnd line).isEmpty && protection.getD (byteLen (trimEnd line) - 1) false

def addTerminalPunctLine (line : Text) (protection : Mask) : Text :=
  let stripped := trimEnd line
  if stripped.isEmpty || endsClosed stripped || terminalByteIsProtected line protection ||
      isListLine stripped then line
  else stripped ++ (if isClosedQuestion stripped then ['?'] else ['.']) ++ line.drop stripped.length

/-- the mask over a part of the text -/
def maskSlice (protection : Mask) (start len : Nat) : Mask := (protection.drop start).take len

def punctuateParagraph (paragraph : Text) (start : Nat) (protection : Mask) : Text :=
  let p := trim paragraph
  if p.isEmpty then []
  else
    let leading := byteLen paragraph - byteLen (trimStart paragraph)
    if endsClosed p ||
        terminalByteIsProtected p (maskSlice protection (start + leading) (byteLen p)) then p
    else p ++ ['.']

/-- the parts of a text with their offsets, `sep` bytes apart -/
def withStarts (sep start : Nat) : List Text → List (Nat × Text)
  | [] => []
  | part :: rest => (start, part) :: withStarts sep (start + byteLen part + sep) rest

def punctuateLine (protection : Mask) (line : Nat × Text) : Text :=
  if (trim line.2).isEmpty then line.2
  else addTerminalPunctLine line.2 (maskSlice protection line.1 (byteLen line.2))

def addTerminalPunctuation (text : Text) (protection : Mask) : Text :=
  if text.isEmpty || isShellCommandLine text then text
  else if isAllTitleCaseWords text && !text.contains '\n' && !endsTerminal text then text
  else if contains text "\n\n".toList then
    if protection.any id then text
    else joinText "\n\n".toList ((withStarts 2 0 (splitStr "\n\n".toList text)).map fun part =>
      punctuateParagraph part.2 part.1 protection)
  else if text.contains '\n' then
    let lines := withStarts 1 0 (text.splitOn '\n')
    if lines.any fun line => lineIndependentlyNeedsPeriod line.2 &&
        !terminalByteIsProtected line.2 (maskSlice protection line.1 (byteLen line.2)) then
      joinText ['\n'] (lines.map (punctuateLine protection))
    else text
  else addTerminalPunctLine text protection

end Voisu.Formatting
