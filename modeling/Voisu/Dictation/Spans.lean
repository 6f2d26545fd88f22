import Mathlib
import Voisu.Dictation.Words

/-!
# The phrases that the dictation grammar rewrites

Each scanner looks at the tokens from one position on and returns the span that it rewrites, with the
text that replaces it.  `masks` tells which tokens may not be rewritten.

* `tryTimeSpan`, `tryCurrencySpan`, `tryDecimalSpan`, `tryCardinalRun`   the numeric phrases;
* `tryEmailSpan`                                                         addresses that are spelt out;
* `decimalShape`, `scaleShape`, `currencyShape`   what a scanner has found when it hands a run of
                                                  number words over to be read.
-/

namespace Voisu.Dictation
open Lib
open Baseline (Token)

structure CueSpan where
  start : Nat
  stop : Nat
  replacement : Text
deriving DecidableEq, Repr

/-- the masks of quotations and mentions over the tokens -/
structure Masks where
  quoted : List Bool
  mentioned : List Bool

def Masks.masked (masks : Masks) (i : Nat) : Bool :=
  masks.quoted.getD i false || masks.mentioned.getD i false

def spanIsClear (masks : Masks) (start stop : Nat) : Bool :=
  stop ≤ masks.quoted.length &&
    (List.range' start (stop - start)).all fun k => !masks.masked k

/-! ## looking at tokens -/

section
variable (tokens : List Token)

/-- the tokens of a span -/
def spanTokens (start stop : Nat) : List Token := (tokens.drop start).take (stop - start)

def spanInteriorBare (start stop : Nat) : Bool :=
  (spanTokens tokens start (stop - 1)).all fun tok => isBare tok.text

/-- the lowercase words of a span -/
def spanWords (start stop : Nat) : List Text :=
  (spanTokens tokens start stop).map fun tok => lowerCore tok.text

/-- the word at a position; empty behind the last one -/
def wordAt (i : Nat) : Text := (tokens[i]?.map fun tok => lowerCore tok.text).getD []

/-- the punctuation behind a token -/
def suffixAt (i : Nat) : Text := (tokens[i]?.map fun tok => (tokenCore tok.text).2).getD []

def isCardinalAt (i : Nat) : Bool := tokens[i]?.any fun tok => isCardinalToken tok.text

/-- the first token from `i` on that is no number word -/
def cardinalStop (i : Nat) : Nat :=
  i + ((tokens.drop i).takeWhile fun tok => isCardinalToken tok.text).length

end

/-! ## decimals -/

def digitString (word : Text) : Option Text :=
  if word = "oh".toList then some "0".toList
  else ((smallValue word).filter (· < 10)).map natText

/-- the digits behind a `point`, up to a token that is no bare digit word -/
def fractionDigits : List Token → List Text
  | [] => []
  | tok :: rest =>
    if !isBare tok.text then []
    else match digitString (lowerCore tok.text) with
      | none => []
      | some digits => digits :: fractionDigits rest

structure DecimalShape where
  /-- the position of `point` -/
  point : Nat
  /-- the number words before it -/
  words : List Text
  /-- the digits behind it -/
  digits : List Text

def DecimalShape.stop (shape : DecimalShape) : Nat := shape.point + 1 + shape.digits.length

section
variable (tokens : List Token) (masks : Masks) (i : Nat)

def decimalShape : Option DecimalShape :=
  let j := cardinalStop tokens i
  let words := spanWords tokens i j
  let digits := fractionDigits (tokens.drop (j + 1))
  if !(suffixAt tokens j).isEmpty || wordAt tokens j != "point".toList then none
  -- the bang cue
  else if 0 < i && wordAt tokens (i - 1) == "exclamation".toList then none
  else if digits.flatten.isEmpty || 6 < byteLen digits.flatten then none
  else if words.head?.any fun word => (scaleValue word).isSome then none
  else some ⟨j, words, digits⟩

/-- the part before the point; a missing one is zero -/
def integerPart (words : List Text) : Option Nat :=
  if words.isEmpty then some 0
  else (parseCardinalRun words).filter (· ≤ maxRenderedValue)

def tryDecimalSpan : Option CueSpan := do
  let shape ← decimalShape tokens i
  let value ← integerPart shape.words
  if !spanIsClear masks i shape.stop || !spanInteriorBare tokens i shape.stop then none
  else
    some
      { start := i
        stop := shape.stop
        replacement := natText value ++ '.' :: shape.digits.flatten
          ++ suffixAt tokens (shape.stop - 1) }

/-! ## years and scale runs -/

def timeMarkers : List Text := ["am", "pm", "o'clock", "oclock", "o"].map String.toList

def isTimeMarkerAt (j : Nat) : Bool :=
  tokens[j]?.any fun tok => timeMarkers.contains (lowerCore tok.text)

/-- exactly two tokens, both from ten to ninety-nine -/
def yearShape (words : List Text) : Option Nat :=
  match words with
  | [a, b] => do
    let a ← smallTokenValue a
    let b ← smallTokenValue b
    if 10 ≤ a && 10 ≤ b then some (a * 100 + b) else none
  | _ => none

/-- a scale word behind the head, and no `and` that goes on with the number -/
def scaleShape : Option (List Text) :=
  let j := cardinalStop tokens i
  let words := spanWords tokens i j
  if words.length < 2 || words.head?.any (fun word => (scaleValue word).isSome)
      || !words.any (fun word => (scaleValue word).isSome) then none
  else if wordAt tokens j == "and".toList && isCardinalAt tokens (j + 1) then none
  else some words

def cardinalSpan (value : Nat) : CueSpan :=
  let j := cardinalStop tokens i
  { start := i, stop := j, replacement := natText value ++ suffixAt tokens (j - 1) }

def tryYear : Option CueSpan :=
  let j := cardinalStop tokens i
  match yearShape (spanWords tokens i j) with
  | none => none
  | some value =>
    if spanIsClear masks i j && spanInteriorBare tokens i j then some (cardinalSpan tokens i value)
    else none

def tryScaleRun : Option CueSpan := do
  let words ← scaleShape tokens i
  let value ← (parseCardinalRun words).filter fun v => v ≠ 0 && v ≤ maxRenderedValue
  let j := cardinalStop tokens i
  if !spanIsClear masks i j || !spanInteriorBare tokens i j then none
  else some (cardinalSpan tokens i value)

def tryCardinalRun : Option CueSpan :=
  let j := cardinalStop tokens i
  if j = i then none
  -- a failed time is never read as a number
  else if isTimeMarkerAt tokens j then none
  else (tryYear tokens masks i).or (tryScaleRun tokens masks i)

/-! ## times -/

/-- the spoken `o'clock` at position `j`, and the position behind it; an inner `none` gives up -/
def oclockAt (j : Nat) : Option (Option (Text × Nat)) :=
  match tokens[j]? with
  | none => some none
  | some tok =>
    let core := (tokenCore tok.text).1
    let lower := lowerCore tok.text
    if lower = "o'clock".toList ∨ lower = "oclock".toList then some (some (core, j + 1))
    else if isBare tok.text && lower == "o".toList && wordAt tokens (j + 1) == "clock".toList then
      match tokens[j + 1]? with
      | none => none
      | some next =>
        if !isBare next.text then none
        else some (some (core ++ ' ' :: (tokenCore next.text).1, j + 2))
    else some none

/-- the lowercase word of a token without punctuation behind it -/
def bareWordAt (j : Nat) : Option Text :=
  tokens[j]?.bind fun tok => if isBare tok.text then some (lowerCore tok.text) else none

/-- minute words at position `j`: their value, and the position behind them -/
def parseMinuteTokens (j : Nat) : Option (Nat × Nat) :=
  match bareWordAt tokens j with
  | none => none
  | some lower =>
    if lower = "oh".toList ∨ lower = "zero".toList then
      (((bareWordAt tokens (j + 1)).bind smallValue).filter fun v => 1 ≤ v && v ≤ 9).map
        fun unit => (unit, j + 2)
    else match smallTokenValue lower with
      | none => none
      | some value =>
        if 10 ≤ value ∧ value ≤ 19 then some (value, j + 1)
        else if 20 ≤ value then
          match ((bareWordAt tokens (j + 1)).bind smallValue).filter (· < 10) with
          | some unit => some (value + unit, j + 2)
          | none => some (value, j + 1)
        else none

/-- `am` or `pm` at position `j` as it was spoken -/
def meridiemAt (j : Nat) : Option Text :=
  match tokens[j]? with
  | none => none
  | some tok =>
    if lowerCore tok.text = "am".toList ∨ lowerCore tok.text = "pm".toList then
      some (tokenCore tok.text).1
    else none

/-- two digits at least -/
def twoDigits (n : Nat) : Text := if n < 10 then '0' :: natText n else natText n

structure TimeShape where
  hour : Nat
  oclock : Option Text
  minute : Option Nat
  meridiem : Option Text
  stop : Nat

/-- the marker at position `j`, if any, ends the time -/
def timeStop (j : Nat) : Nat := if (meridiemAt tokens j).isSome then j + 1 else j

/-- minutes only where no `o'clock` is spoken -/
def timeShape : Option TimeShape :=
  match (smallValue (wordAt tokens i)).filter fun h => 1 ≤ h && h ≤ 12 with
  | none => none
  | some hour =>
    match oclockAt tokens (i + 1) with
    | none => none
    | some (some (spoken, j)) =>
      some ⟨hour, some spoken, none, meridiemAt tokens j, timeStop tokens j⟩
    | some none =>
      match parseMinuteTokens tokens (i + 1) with
      | none => some ⟨hour, none, none, meridiemAt tokens (i + 1), timeStop tokens (i + 1)⟩
      | some (minute, j) =>
        some ⟨hour, none, some minute, meridiemAt tokens j, timeStop tokens j⟩

def tryTimeSpan : Option CueSpan := do
  let shape ← timeShape tokens i
  if shape.oclock.isNone && shape.meridiem.isNone then none
  else if shape.minute.any fun m => 59 < m then none
  else if !spanIsClear masks i shape.stop || !spanInteriorBare tokens i shape.stop then none
  else
    some
      { start := i
        stop := shape.stop
        replacement := natText shape.hour
          ++ ((shape.minute.map fun m => ':' :: twoDigits m).getD [])
          ++ ((shape.oclock.map fun spoken => ' ' :: spoken).getD [])
          ++ ((shape.meridiem.map fun spoken => ' ' :: spoken).getD [])
          ++ suffixAt tokens (shape.stop - 1) }

/-! ## currency -/

inductive CurrencyUnit where
  | dollar
  | preserved
deriving DecidableEq, Repr

def currencyUnit (word : Text) : Option CurrencyUnit :=
  if (["dollar", "dollars"].map String.toList).contains (asciiLowercase word) then some .dollar
  else if (["euro", "euros", "cent", "cents"].map String.toList).contains (asciiLowercase word) then
    some .preserved
  else none

/-- the unit word at a position -/
def unitAt (j : Nat) : Option CurrencyUnit :=
  tokens[j]?.bind fun tok => currencyUnit (tokenCore tok.text).1

/-- at most six number words -/
def currencyStop : Nat := i + min 6 (cardinalStop tokens i - i)

/-- another amount stands before or behind this one -/
def amountContinues (j : Nat) : Bool :=
  let k := if wordAt tokens (j + 1) == "and".toList then j + 2 else j + 1
  (0 < i && (unitAt tokens (i - 1)).isSome)
    || (2 ≤ i && wordAt tokens (i - 1) == "and".toList && (unitAt tokens (i - 2)).isSome)
    || (wordAt tokens (j + 1) == "and".toList && tokens.length ≤ j + 2)
    || isCardinalAt tokens k

/-- the unit, and the number words before it -/
def currencyShape : Option (CurrencyUnit × List Text) :=
  let j := currencyStop tokens i
  if j = i then none
  else match unitAt tokens j with
    | none => none
    | some unit => if amountContinues tokens i j then none else some (unit, spanWords tokens i j)

def tryCurrencySpan : Option CueSpan := do
  let (unit, words) ← currencyShape tokens i
  let value ← (parseCardinalRun words).filter (· ≤ maxRenderedValue)
  let j := currencyStop tokens i
  let unitTok ← tokens[j]?
  let (unitCore, unitSuffix) := tokenCore unitTok.text
  if !spanIsClear masks i (j + 1) || !spanInteriorBare tokens i (j + 1) then none
  else
    some
      { start := i
        stop := j + 1
        replacement := match unit with
          | .dollar => '$' :: natText value ++ unitSuffix
          | .preserved => natText value ++ ' ' :: unitCore ++ unitSuffix }

end

/-! ## addresses -/

def emailTlds : List Text :=
  ["com", "net", "org", "edu", "gov", "mil", "int", "io", "ai", "dev", "app", "co", "me", "sh",
    "so", "fm", "tv", "gg", "xyz", "info", "biz", "us", "uk", "ca", "de", "fr", "eu", "jp", "in",
    "au", "nl", "se", "no", "fi", "es", "it", "pt", "pl", "ch", "be", "dk", "ie", "nz", "za",
    "test"].map String.toList

def emailCueWords : List Text := ["at", "dot", "underscore", "hyphen"].map String.toList

def isEmailLocalWord (word : Text) : Bool :=
  !emailCueWords.contains (asciiLowercase word) && !word.isEmpty
    && word.all (fun c => isAsciiAlphanumeric c || c == '_' || c == '-')
    && word.any isAsciiAlphanumeric

def isEmailDomainWord (word : Text) : Bool :=
  !emailCueWords.contains (asciiLowercase word) && 2 ≤ byteLen word
    && word.all (fun c => isAsciiAlphanumeric c || c == '-') && word.any isAsciiAlphanumeric

/-- the words of the local part and the cues between them, up to the `at`; `cues` have been passed -/
def emailLocal (cues : Nat) : List Token → Option (List Text × List Text)
  | tok :: next :: rest =>
    let core := (tokenCore tok.text).1
    if !isBare tok.text || !isEmailLocalWord core then none
    else if lowerCore next.text = "at".toList then some ([core], [])
    else if !isBare next.text
        || !(["dot", "underscore", "hyphen"].map String.toList).contains (lowerCore next.text) then
      none
    else if 2 < cues + 1 then none
    else (emailLocal (cues + 1) rest).map fun p => (core :: p.1, (tokenCore next.text).1 :: p.2)
  | _ => none

def isDomainCue (tok : Token) : Bool :=
  isBare tok.text && (["dot", "hyphen"].map String.toList).contains (lowerCore tok.text)

/-- the labels of the domain and the cues between them; `labels` have been passed -/
def emailDomain (labels : Nat) : List Token → Option (List Text × List Text)
  | tok :: next :: rest =>
    let core := (tokenCore tok.text).1
    let suffix := (tokenCore tok.text).2
    if !isEmailDomainWord core then none
    else if isDomainCue next then
      if !suffix.isEmpty then none
      else if 4 < labels + 1 then none
      else (emailDomain (labels + 1) rest).map fun p => (core :: p.1, lowerCore next.text :: p.2)
    else if suffix = [] ∨ suffix = [','] ∨ suffix = ['.'] then some ([core], [])
    else none
  | [tok] =>
    let core := (tokenCore tok.text).1
    let suffix := (tokenCore tok.text).2
    if !isEmailDomainWord core then none
    else if suffix = [] ∨ suffix = [','] ∨ suffix = ['.'] then some ([core], [])
    else none
  | [] => none

/-- the words with a separator for each cue between them -/
def joinWithCues (separator : Text → Char) : List Text → List Text → Text
  | word :: words, cue :: cues => word ++ separator cue :: joinWithCues separator words cues
  | words, _ => words.flatten

def localSeparator (cue : Text) : Char :=
  if asciiLowercase cue = "underscore".toList then '_'
  else if asciiLowercase cue = "hyphen".toList then '-'
  else '.'

def domainSeparator (cue : Text) : Char := if cue = "hyphen".toList then '-' else '.'

section
variable (tokens : List Token) (masks : Masks) (i : Nat)

/-- a bare word before the `at` is no address, except for the whole utterance or behind an `at` -/
def emailAuthorized (localWords localCues : List Text) (k : Nat) : Bool :=
  let localIsTechnical := !localCues.isEmpty
    || localWords.any fun word => word.any fun c => isAsciiDigit c || c == '_' || c == '-'
  let wholeUtterance := i == 0 && k == tokens.length
  let atPrecedes := 0 < i && wordAt tokens (i - 1) == "at".toList
  localIsTechnical || wholeUtterance || atPrecedes

/-- the parts of an address: the words and cues before the `at`, and those behind it -/
structure EmailShape where
  localWords : List Text
  localCues : List Text
  labels : List Text
  domainCues : List Text

def EmailShape.atIndex (shape : EmailShape) : Nat :=
  i + shape.localWords.length + shape.localCues.length

def EmailShape.stop (shape : EmailShape) : Nat :=
  shape.atIndex i + 1 + shape.labels.length + shape.domainCues.length

def emailShape : Option EmailShape :=
  match emailLocal 0 (tokens.drop i) with
  | none => none
  | some (localWords, localCues) =>
    let atIndex := i + localWords.length + localCues.length
    if !(suffixAt tokens atIndex).isEmpty || wordAt tokens atIndex != "at".toList then none
    else (emailDomain 0 (tokens.drop (atIndex + 1))).map fun p =>
      ⟨localWords, localCues, p.1, p.2⟩

def tryEmailSpan : Option CueSpan := do
  let shape ← emailShape tokens i
  if shape.labels.length < 2
      || !shape.labels.getLast?.any (fun label => emailTlds.contains (asciiLowercase label)) then none
  else if !spanIsClear masks i (shape.stop i) then none
  else if !emailAuthorized tokens i shape.localWords shape.localCues (shape.stop i) then none
  else
    some
      { start := i
        stop := shape.stop i
        replacement := joinWithCues localSeparator shape.localWords shape.localCues
          ++ '@' :: joinWithCues domainSeparator shape.labels shape.domainCues
          ++ suffixAt tokens (shape.stop i - 1) }

end

end Voisu.Dictation
