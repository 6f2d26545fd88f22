import Mathlib
import Voisu.Commands.Parse
import Voisu.Formatting.Tokens
import Voisu.Lib.Unicode

/-!
# What the formatter may not touch

The spans of quotations, code and composite words in a text, and the masks over its bytes that every
rewrite asks.  The scans of the source go over the bytes and look for ASCII bytes only; here they go
over the characters and carry the offset.

* `compositeSpans`          links, paths, flags, identifiers, numbers;
* `quoteAndCodeRanges`      fences, inline code, quotations; an unpaired quotation mark is the text;
* `protectedSourceRanges`   the ranges sealed into a baseline;
* `buildEditProtection`     the mask for the edits, with the words of the dictionary.
-/

namespace Voisu.Formatting
open Lib Commands

def isAsciiWhitespace (c : Char) : Bool :=
  c == ' ' || c == '\t' || c == '\n' || c == '\x0c' || c == '\r'

/-! ## composite words -/

/-- a link from `link` on is being passed, if any -/
def urlSpansFrom (link : Option Nat) (off : Nat) : Text → List SourceSpan
  | [] => (link.map fun start => ⟨start, off⟩).toList
  | c :: rest =>
    let next := off + ByteSized.size c
    match link with
    | some start =>
      if isAsciiWhitespace c then ⟨start, off⟩ :: urlSpansFrom none next rest
      else urlSpansFrom (some start) next rest
    | none =>
      if startsWith (c :: rest) "https://".toList || startsWith (c :: rest) "http://".toList then
        urlSpansFrom (some off) next rest
      else urlSpansFrom none next rest

def isPathToken (tok : Text) : Bool :=
  if tok.isEmpty then false
  else if startsWith tok "http://".toList || startsWith tok "https://".toList then false
  else if startsWith tok "./".toList || startsWith tok "../".toList then true
  else if startsWith tok "~/".toList then decide (2 < byteLen tok)
  else if startsWith tok "/".toList then decide (1 < byteLen tok)
  else tok.head?.any (fun c => isAlphanumeric c || c == '.') && tok.contains '/'

def pathSpans (text : Text) : List SourceSpan :=
  ((runs notWhitespace 0 text).filter fun r => isPathToken r.text).map fun r => ⟨r.start, r.stop⟩

def isFlagChar (c : Char) : Bool := isAsciiAlphanumeric c || c == '-'

/-- what a flag has behind its first dash, given the text behind it; empty when there is no flag -/
def flagTail : Text → Text
  | [] => []
  | c :: rest =>
    if c = '-' then
      let name := rest.takeWhile isFlagChar
      if name.isEmpty then []
      else match rest.drop name.length with
        | '=' :: value => '-' :: name ++ '=' :: value.takeWhile (fun c => !isAsciiWhitespace c)
        | _ => '-' :: name
    else if isAsciiAlphanumeric c then (c :: rest).takeWhile isFlagChar
    else []

/-- `skip` characters of the last flag are still to be passed -/
def flagSpansFrom (skip off : Nat) : Text → List SourceSpan
  | [] => []
  | c :: rest =>
    let next := off + ByteSized.size c
    if 0 < skip then flagSpansFrom (skip - 1) next rest
    else if c = '-' && !(flagTail rest).isEmpty then
      ⟨off, next + byteLen (flagTail rest)⟩ :: flagSpansFrom (flagTail rest).length next rest
    else flagSpansFrom 0 next rest

/-- digits, with `sep` at the places given -/
def isDigitsAround (len : Nat) (places : List Nat) (sep : Char) (tok : Text) : Bool :=
  tok.length == len &&
    tok.zipIdx.all fun p => if places.contains p.2 then p.1 == sep else isAsciiDigit p.1

def isNumberDateOrTime (tok : Text) : Bool :=
  !tok.isEmpty && (isDigitsAround 10 [4, 7] '-' tok || isDigitsAround 5 [2] ':' tok ||
    tok.all isAsciiDigit)

def isTechnicalIdentifier (tok : Text) : Bool :=
  tok.contains '_' && tok.head?.any isAsciiAlphabetic &&
    tok.all (fun c => isAsciiAlphanumeric c || c == '_')

def tokenSpan (tok : Token) : SourceSpan := ⟨tok.start, tok.stop⟩

/-- `collect_composite_spans` -/
def compositeSpans (text : Text) : List SourceSpan :=
  urlSpansFrom none 0 text ++ pathSpans text ++ flagSpansFrom 0 0 text ++
    ((wordTokens text).filter fun tok =>
      isTechnicalIdentifier tok.text || isNumberDateOrTime tok.text).map tokenSpan

/-! ## quotations and code -/

def fence : Text := "```".toList

/-- `collect_fenced_code_ranges`; a fence from `opened` on waits to be closed, if any -/
def fencedCodeFrom (opened : Option Nat) (skip off : Nat) : Text → List SourceSpan
  | [] => []
  | c :: rest =>
    let next := off + ByteSized.size c
    if 0 < skip then fencedCodeFrom opened (skip - 1) next rest
    else if startsWith (c :: rest) fence then
      match opened with
      | none => fencedCodeFrom (some off) 2 next rest
      | some start => ⟨start, off + 3⟩ :: fencedCodeFrom none 2 next rest
    else fencedCodeFrom opened 0 next rest

def fencedCodeRanges (text : Text) : List SourceSpan := fencedCodeFrom none 0 0 text

/-- inline code, between two ticks that are not part of a fence -/
def inlineCodeFrom (tick : Option Nat) (skip off : Nat) : Text → List SourceSpan
  | [] => []
  | c :: rest =>
    let next := off + ByteSized.size c
    if 0 < skip then inlineCodeFrom tick (skip - 1) next rest
    else if startsWith (c :: rest) fence then inlineCodeFrom tick 2 next rest
    else if c = '`' then
      match tick with
      | none => inlineCodeFrom (some off) 0 next rest
      | some start => ⟨start, next⟩ :: inlineCodeFrom none 0 next rest
    else inlineCodeFrom tick 0 next rest

def isWordLike (c : Char) : Bool := isAlphanumeric c || c == '_'

/-- `inside_word_apostrophe`, from the characters on both sides -/
def insideWord (left right : Option Char) : Bool := left.any isWordLike && right.any isWordLike

/-- the offsets of a quotation mark, without the apostrophes inside words where asked -/
def quotePositions (delimiter : Char) (ignoreWordApostrophes : Bool) (left : Option Char)
    (off : Nat) : Text → List Nat
  | [] => []
  | c :: rest =>
    let later :=
      quotePositions delimiter ignoreWordApostrophes (some c) (off + ByteSized.size c) rest
    if c = delimiter && !(ignoreWordApostrophes && insideWord left rest.head?) then off :: later
    else later

def pairPositions (delimLen : Nat) : List Nat → List SourceSpan
  | a :: b :: rest => ⟨a, b + delimLen⟩ :: pairPositions delimLen rest
  | _ => []

/-- `same_quote_ranges`: the pairs, and whether one mark is left over -/
def sameQuoteRanges (text : Text) (delimiter : Char) (ignoreWordApostrophes : Bool) :
    List SourceSpan × Bool :=
  let positions := quotePositions delimiter ignoreWordApostrophes none 0 text
  (pairPositions (ByteSized.size delimiter) positions, positions.length % 2 == 1)

/-- `curly_quote_ranges`; a quotation from `pending` on waits to be closed, if any -/
def curlyQuoteFrom (opening closing : Char) (closingCanBeApostrophe : Bool) (pending : Option Nat)
    (left : Option Char) (off : Nat) : Text → List SourceSpan × Bool
  | [] => ([], pending.isSome)
  | c :: rest =>
    let next := off + ByteSized.size c
    let later := fun pending =>
      curlyQuoteFrom opening closing closingCanBeApostrophe pending (some c) next rest
    if c = opening then
      if pending.isSome then ((later pending).1, true) else later (some off)
    else if c = closing then
      if closingCanBeApostrophe && insideWord left rest.head? then later pending
      else match pending with
        | some start => (⟨start, next⟩ :: (later none).1, (later none).2)
        | none => ((later none).1, true)
    else later pending

def curlyQuoteRanges (text : Text) (opening closing : Char) (closingCanBeApostrophe : Bool) :
    List SourceSpan × Bool :=
  curlyQuoteFrom opening closing closingCanBeApostrophe none none 0 text

def wholeText (text : Text) : SourceSpan := ⟨0, byteLen text⟩

/-- `collect_quotation_ranges` -/
def quotationRanges (text : Text) : List SourceSpan :=
  let dq := sameQuoteRanges text '"' false
  let sq := sameQuoteRanges text '\'' true
  let curlyD := curlyQuoteRanges text '“' '”' false
  let curlyS := curlyQuoteRanges text '‘' '’' true
  let ambiguous := dq.2 || sq.2 || curlyD.2 || curlyS.2
  dq.1 ++ sq.1 ++ curlyD.1 ++ curlyS.1 ++
    (if ambiguous && !text.isEmpty then [wholeText text] else [])

/-- `collect_quote_and_code_ranges` -/
def quoteAndCodeRanges (text : Text) : List SourceSpan :=
  fencedCodeRanges text ++ inlineCodeFrom none 0 0 text ++ quotationRanges text

/-! ## normal form -/

def spanLe (a b : SourceSpan) : Bool := a.start < b.start || (a.start == b.start && a.stop ≤ b.stop)

/-- `last` is the range that may still grow -/
def mergeRanges (last : SourceSpan) : List SourceSpan → List SourceSpan
  | [] => [last]
  | r :: rest =>
    if r.start ≤ last.stop then mergeRanges ⟨last.start, max last.stop r.stop⟩ rest
    else last :: mergeRanges r rest

def normalizeRanges (ranges : List SourceSpan) : List SourceSpan :=
  match (ranges.filter fun r => r.start < r.stop).insertionSort (fun a b => spanLe a b) with
  | [] => []
  | r :: rest => mergeRanges r rest

/-! ## masks -/

/-- a flag for each byte -/
abbrev Mask := List Bool

def SourceSpan.hasByte (r : SourceSpan) (i : Nat) : Bool := r.start ≤ i && i < r.stop

def protectionMask (text : Text) (ranges : List SourceSpan) : Mask :=
  (List.range (byteLen text)).map fun i => ranges.any (SourceSpan.hasByte · i)

def spanTouchesProtection (start stop : Nat) (protection : Mask) : Bool :=
  ((protection.drop start).take (stop - start)).any id

def buildFencedCodeProtection (text : Text) : Mask := protectionMask text (fencedCodeRanges text)

def buildQuoteAndCodeProtection (text : Text) : Mask :=
  protectionMask text (quoteAndCodeRanges text)

def tokenIs (word : String) (tok : Token) : Bool := asciiLowercase tok.text == word.toList

/-- what stands between the words `quote` and `unquote`; `skip` tokens of the last pair are still
to be passed -/
def bareQuotesFrom (skip : Nat) : List Token → List SourceSpan
  | [] => []
  | tok :: rest =>
    if 0 < skip then bareQuotesFrom (skip - 1) rest
    else if tokenIs "quote" tok then
      match rest.findIdx? (tokenIs "unquote") with
      | some k => ⟨tok.stop, ((rest[k]?).map Run.start).getD 0⟩ :: bareQuotesFrom (k + 1) rest
      | none => bareQuotesFrom 0 rest
    else bareQuotesFrom 0 rest

/-- the snapshots of the Recording -/
structure Snapshot where
  dictionary : List Text
  protectedNames : List Text
deriving DecidableEq, Repr

def Snapshot.protects (snapshot : Snapshot) (tok : Token) : Bool :=
  snapshot.dictionary.any (eqIgnoreAsciiCase · tok.text) ||
    snapshot.protectedNames.any (eqIgnoreAsciiCase · tok.text)

/-- `build_edit_protection` -/
def buildEditProtection (text : Text) (snapshot : Snapshot) : Mask :=
  protectionMask text
    (normalizeRanges (compositeSpans text ++ quoteAndCodeRanges text ++
        bareQuotesFrom 0 (wordTokens text)) ++
      ((wordTokens text).filter snapshot.protects).map tokenSpan)

/-- `protected_source_ranges` -/
def protectedSourceRanges (source : Text) : List SourceSpan :=
  let parsed := parseFormattingCommands source
  let quotes := parsed.events.flatMap fun
    | .command (.quote interior opened closed) _ _ => [opened, interior, closed]
    | _ => []
  normalizeRanges (parsed.commandSpans ++ quotes ++ compositeSpans source ++
    quoteAndCodeRanges source)

end Voisu.Formatting
