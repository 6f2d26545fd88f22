import Mathlib
import Voisu.Compose.Candidate
import Voisu.Lib.Atoms
import Voisu.Lib.Unicode

/-!
# Words of sources, candidates and catalogues

* `lexicalAtomSequence`     the words of a text, lowered;
* `sourceContains`          a needle in a source, up to whitespace and case;
* `conversionRhs`, `conversionCue`, `convertOutputMatches`   the two sides of a closed conversion;
* `structuralHeaders`, `isMultiparagraphText`                the layout a text shows;
* `licensedAtoms`           the words that a candidate may deliver;
* `naturalLayoutRender`     every span on one line.
-/

namespace Voisu.Compose
open Lib

/-! ## lexical atoms -/

def isJoiner (c : Char) : Bool :=
  c == '_' || c == '.' || c == '/' || c == '=' || c == '+' || c == '-'

/-- the matches of `[A-Za-z0-9]+(?:[_./=+\-][A-Za-z0-9]+)*` from the left -/
def atomMatches (text : Text) : List (Run Char) := atomRuns isAsciiAlphanumeric isJoiner 0 text

def lexicalAtomSequence (text : Text) : List Text :=
  (atomMatches text).map fun m => toLowercase m.text

theorem lexicalAtomSequence_eq (text : Text) :
    lexicalAtomSequence text =
      (atomWords isAsciiAlphanumeric isJoiner text).map toLowercase := by
  unfold lexicalAtomSequence atomMatches atomWords
  rw [List.map_map]
  rfl

def lexicalAtoms (text : Text) : List Text := (lexicalAtomSequence text).dedup

def keepOrganizeOnly (sourceText outputText : Text) : Bool :=
  lexicalAtomSequence sourceText == lexicalAtomSequence outputText

/-! ## texts up to whitespace and case -/

/-- every run of whitespace as one space, none at the ends -/
def normalizeWs (text : Text) : Text := [' '].intercalate (splitWhitespace text)

def sourceContains (sourceText needle : Text) : Bool :=
  if needle.isEmpty then false
  else if contains sourceText needle then true
  else contains (toLowercase (normalizeWs sourceText)) (toLowercase (normalizeWs needle))

/-- the text before and after the first `sep` -/
def splitOnce (sep : Char) : Text → Option (Text × Text)
  | [] => none
  | c :: s =>
    if c == sep then some ([], s) else (splitOnce sep s).map fun r => (c :: r.1, r.2)

def splitAllOn (sep : Char) (cur : Text) : Text → List Text
  | [] => [cur]
  | c :: s => if c == sep then cur :: splitAllOn sep [] s else splitAllOn sep (cur ++ [c]) s

/-! ## closed conversions -/

/-- the right side without its ` label`; every id of the catalogue is cut on a boundary -/
def conversionRhs (conversionId : Text) : Text :=
  match splitOnce '→' conversionId with
  | none => []
  | some (_, rhsRaw) =>
    let rhs := trim rhsRaw
    let rhs :=
      if endsWith (toLowercase rhs) " label".toList then rhs.take (rhs.length - 6) else rhs
    if rhs == "\\n".toList then ['\n']
    else if rhs == "\\n\\n".toList then ['\n', '\n']
    else if eqIgnoreAsciiCase rhs "numbered_lines".toList then []
    else rhs

def conversionCue (conversionId : Text) : Text :=
  match splitOnce '→' conversionId with
  | some (cue, _) => trim cue
  | none => conversionId

/-- the middle of `spoken … cue`; the cues of the catalogue have one space on either side -/
def spokenCue (cue : Text) : Option Text :=
  let lower := asciiLowercase cue
  let middle := (cue.drop 6).take (cue.length - 9)
  if startsWith lower "spoken".toList && endsWith lower "cue".toList &&
      middle.head?.any isWhitespace && middle.getLast?.any isWhitespace &&
      !(trim middle).isEmpty then some (trim middle)
  else none

def cueNeedles (cue : Text) : List Text :=
  if cue.isEmpty then []
  else
    match spokenCue cue with
    | some name => [name]
    | none =>
      if cue.contains '…' then
        ((splitAllOn '…' [] cue).map trim).filter fun part => !part.isEmpty
      else [cue]

def cueCoveredBy (cue text : Text) : Bool :=
  let needles := cueNeedles cue
  !needles.isEmpty && needles.all fun needle => sourceContains text needle

/-- the shortest non-empty text with whitespace and `unquote` behind it; `taken` stands before `t` -/
def lazyInterior (taken : Text) : Text → Option Text
  | [] => none
  | c :: t =>
    let gap := t.takeWhile isWhitespace
    let rest := t.dropWhile isWhitespace
    if !gap.isEmpty && startsWith (asciiLowercase rest) "unquote".toList then some (taken ++ [c])
    else lazyInterior (taken ++ [c]) t

/-- whitespace after `quote` is taken greedily and given back one character at a time -/
def interiorAfter (rest : Text) : Option Text :=
  let width := (rest.takeWhile isWhitespace).length
  (List.range width).findSome? fun k => lazyInterior [] (rest.drop (width - k))

/-- the capture of `quote\s+(.+?)\s+unquote`, case-insensitive, at its leftmost match -/
def quoteInterior : Text → Option Text
  | [] => none
  | c :: s =>
    if startsWith (asciiLowercase (c :: s)) "quote".toList then
      match interiorAfter ((c :: s).drop 5) with
      | some interior => some interior
      | none => quoteInterior s
    else quoteInterior s

def convertOutputMatches (conversionId sourceText outputText : Text) : Bool :=
  let rhs := conversionRhs conversionId
  let rhsTemplate := ((splitOnce '→' conversionId).map fun r => trim r.2).getD []
  if rhsTemplate.contains '…' then
    match quoteInterior sourceText with
    | none => false
    | some captured =>
      let expected := rhsTemplate.flatMap fun c => if c == '…' then normalizeWs captured else [c]
      normalizeWs outputText == normalizeWs expected
  else if rhs == ['\n'] || rhs == ['\n', '\n'] then outputText == rhs
  else if rhs.isEmpty then outputText.isEmpty
  else trim outputText == rhs || trimEnd outputText == rhs || trimStart outputText == rhs

/-! ## the layout of a text -/

/-- `str::lines`: a carriage return goes with the line feed behind it -/
def linesFrom (cur : Text) : Text → List Text
  | [] => if cur.isEmpty then [] else [cur]
  | c :: s =>
    if c == '\n' then
      (if cur.getLast? == some '\r' then cur.dropLast else cur) :: linesFrom [] s
    else linesFrom (cur ++ [c]) s

def isTitleCaseFrom (wordStart : Bool) : Text → Bool
  | [] => true
  | c :: s =>
    if !isAlphabetic c then isTitleCaseFrom true s
    else if wordStart then isUppercase c && isTitleCaseFrom false s
    else !isUppercase c && isTitleCaseFrom false s

def isTitleCase (s : Text) : Bool := s.any isAlphabetic && isTitleCaseFrom true s

/-- name and body of a line `^[ \t]*([A-Za-z][A-Za-z0-9 ]*):(.*)$` -/
def headerOf (line : Text) : Option (Text × Text) :=
  let start := line.dropWhile fun c => c == ' ' || c == '\t'
  let name := start.takeWhile fun c => isAsciiAlphanumeric c || c == ' '
  if !start.head?.any isAsciiAlphabetic then none
  else
    match start.drop name.length with
    | ':' :: body => some (trim name, body)
    | _ => none

def structuralHeaders (text : Text) : List Text :=
  (linesFrom [] text).filterMap fun line =>
    match headerOf line with
    | none => none
    | some (raw, body) =>
      let isClosed := (closedStructuredLabels.map toLowercase).contains (toLowercase raw)
      if isClosed || (trim body).isEmpty || isTitleCase raw then some raw else none

def normalizeNewlines : Text → Text
  | '\r' :: '\n' :: s => '\n' :: normalizeNewlines s
  | c :: s => (if c == '\r' then '\n' else c) :: normalizeNewlines s
  | [] => []

def hasBlankLine : Text → Bool
  | [] => false
  | c :: s =>
    (c == '\n' && (s.dropWhile fun d => d == ' ' || d == '\t').head? == some '\n') || hasBlankLine s

def isMultiparagraphText (text : Text) : Bool := hasBlankLine (normalizeNewlines text)

/-! ## what a candidate may deliver -/

def licensedAtoms (sourceTexts conversions labels : List Text) : List Text :=
  sourceTexts.flatMap lexicalAtoms ++
  (conversions.flatMap fun conversionId =>
    let rhs := conversionRhs conversionId
    (if !rhs.isEmpty && rhs != ['\n'] && rhs != ['\n', '\n'] then lexicalAtoms rhs else []) ++
      lexicalAtoms (conversionCue conversionId)) ++
  labels.flatMap lexicalAtoms

def isSpaceOrTab (c : Char) : Bool := c == ' ' || c == '\t'

/-- every run of spaces and tabs as one space; `inRun` tells that one was just written -/
def squeezeFrom (inRun : Bool) : Text → Text
  | [] => []
  | c :: s =>
    if isSpaceOrTab c then (if inRun then squeezeFrom true s else ' ' :: squeezeFrom true s)
    else c :: squeezeFrom false s

def naturalLayoutRender (derivation : List DerivationSpan) : Text :=
  trim (squeezeFrom false
    (derivation.flatMap fun span =>
      if span.kind = .layoutBreak then [' '] else span.outputText))

end Voisu.Compose
