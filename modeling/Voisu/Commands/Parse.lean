import Voisu.Json
import Voisu.Lib.Chars
import Voisu.Lib.Runs

/-!
# The formatting command language

The model of `formatting_commands.rs`.  A transcript is cut into whitespace tokens, and from
left to right the parser recognises

* `literal command <construct>`  the escape: the word `literal` goes, the rest stays ordinary;
* `command quote … command unquote` and `command number one … command number two …`;
* `command <phrase>`  the scalar phrases, longest first.

A recognised command replaces a byte range that may reach over the whitespace beside it:
`expandReplaceSpan` asks whether the NEXT command will claim the gap between them, and so calls
`tryCommandMatch` again, further to the right.
-/

namespace Voisu.Commands
open Lib

/-- half-open range of bytes of the transcript -/
structure SourceSpan where
  start : Nat
  stop : Nat
deriving DecidableEq, Repr

structure NumberedListItem where
  number : Nat
  textSpan : SourceSpan
  markerSpan : SourceSpan
deriving DecidableEq, Repr

inductive CommandKind where
  | period
  | comma
  | questionMark
  | exclamationPoint
  | newLine
  | newParagraph
  | quote (interior opening closing : SourceSpan)
  | numberedList (items : List NumberedListItem)
deriving DecidableEq, Repr

inductive CommandEvent where
  | text (text : Text) (span : SourceSpan)
  | command (kind : CommandKind) (span : SourceSpan) (render : Text)
deriving DecidableEq, Repr

structure ParsedCommands where
  events : List CommandEvent
  commandSpans : List SourceSpan
deriving DecidableEq, Repr

def ParsedCommands.hasCommandSpan (parsed : ParsedCommands) : Bool :=
  !parsed.commandSpans.isEmpty

def CommandEvent.span : CommandEvent → SourceSpan
  | .text _ s => s
  | .command _ s _ => s

/-- what an event contributes to the rendering -/
def CommandEvent.output : CommandEvent → Text
  | .text t _ => t
  | .command _ _ r => r

def ParsedCommands.renderCommandsOnly (parsed : ParsedCommands) : Text :=
  parsed.events.flatMap CommandEvent.output

/-! ## tokens -/

structure Token where
  span : SourceSpan
  /-- ASCII-lowercased copy -/
  lower : Text
deriving DecidableEq, Repr

def tokenOfRun (r : Run Char) : Token := ⟨⟨r.start, r.stop⟩, asciiLowercase r.text⟩

def tokenize (source : Text) : List Token :=
  (runs (fun c => !isWhitespace c) 0 source).map tokenOfRun

/-- `source[start..stop]`; `slice` is `none` where the source would panic -/
def textAt (source : Text) (span : SourceSpan) : Text :=
  (slice span.start span.stop source).getD []

/-- `tokens[i].span`, read at indices below the number of tokens only -/
def spanAt (tokens : List Token) (i : Nat) : SourceSpan :=
  (tokens[i]?.map Token.span).getD ⟨0, 0⟩

/-- token `i` exists and is `word` -/
def lowerIs (tokens : List Token) (i : Nat) (word : String) : Bool :=
  tokens[i]?.map Token.lower == some word.toList

def phraseMatches (tokens : List Token) (start : Nat) : List String → Bool
  | [] => start ≤ tokens.length
  | word :: phrase => lowerIs tokens start word && phraseMatches tokens (start + 1) phrase

/-! ## matches -/

structure CommandMatch where
  kind : CommandKind
  /-- introducer and phrase, not expanded -/
  commandSpan : SourceSpan
  /-- the range the rendering replaces -/
  replaceSpan : SourceSpan
  render : Text
  nextIndex : Nat
deriving DecidableEq, Repr

def commandConsumesLeadingWs : CommandKind → Bool
  | .period | .comma | .questionMark | .exclamationPoint | .newLine | .newParagraph => true
  | .quote .. | .numberedList _ => false

def commandConsumesTrailingWs : CommandKind → Bool
  | .newLine | .newParagraph | .numberedList _ => true
  | .period | .comma | .questionMark | .exclamationPoint | .quote .. => false

def allWhitespace (s : Text) : Bool := s.all isWhitespace

def trimSpan (source : Text) (start stop : Nat) : SourceSpan :=
  let raw := textAt source ⟨start, stop⟩
  let leading := byteLen (raw.takeWhile isWhitespace)
  let trailing := byteLen (raw.reverse.dropWhile isWhitespace)
  if trailing ≤ leading then ⟨start, start⟩ else ⟨start + leading, start + trailing⟩

/-- the index of the `command` that closes the quote -/
def findUnquote (tokens : List Token) (j : Nat) : Option Nat :=
  if j + 1 < tokens.length then
    if lowerIs tokens j "command" && lowerIs tokens (j + 1) "unquote" then some j
    else findUnquote tokens (j + 1)
  else none
termination_by tokens.length - j

def tryQuote (source : Text) (tokens : List Token) (i : Nat) : Option CommandMatch :=
  if phraseMatches tokens (i + 1) ["quote"] then
    (findUnquote tokens (i + 2)).map fun j =>
      let opening : SourceSpan := ⟨(spanAt tokens i).start, (spanAt tokens (i + 1)).stop⟩
      let closing : SourceSpan := ⟨(spanAt tokens j).start, (spanAt tokens (j + 1)).stop⟩
      let interior := trimSpan source (spanAt tokens (i + 1)).stop (spanAt tokens j).start
      let commandSpan : SourceSpan := ⟨opening.start, closing.stop⟩
      { kind := .quote interior opening closing
        commandSpan
        replaceSpan := commandSpan
        render := ['"'] ++ textAt source interior ++ ['"']
        nextIndex := j + 2 }
  else none

def numberWords : List (Nat × String) := [(1, "one"), (2, "two"), (3, "three")]

/-- the first index from `j` on whose token is `command`, or the number of tokens -/
def itemTokenEnd (tokens : List Token) (j : Nat) : Nat :=
  if j < tokens.length && !lowerIs tokens j "command" then itemTokenEnd tokens (j + 1) else j
termination_by tokens.length - j
decreasing_by simp_all; omega

/-- the items of the markers from `pos` on; `none` when an item has no text -/
def listItems (tokens : List Token) : List (Nat × String) → Nat → Option (List NumberedListItem)
  | [], _ => some []
  | (number, word) :: words, pos =>
    if lowerIs tokens pos "command" && phraseMatches tokens (pos + 1) ["number", word] then
      let itemStart := pos + 3
      let itemEnd := itemTokenEnd tokens itemStart
      if itemEnd ≤ itemStart then none
      else
        (listItems tokens words itemEnd).map fun items =>
          { number
            textSpan := ⟨(spanAt tokens itemStart).start, (spanAt tokens (itemEnd - 1)).stop⟩
            markerSpan := ⟨(spanAt tokens pos).start, (spanAt tokens (pos + 2)).stop⟩ } :: items
    else some []

/-- the first token from `first` on that ends at `stop` -/
def lastTokenIdx (tokens : List Token) (first stop : Nat) : Nat :=
  first + ((tokens.drop first).findIdx? fun t => t.span.stop == stop).getD 0

def digits (n : Nat) : Text := (toString n).toList

def renderItem (source : Text) (item : NumberedListItem) : Text :=
  digits item.number ++ ['.', ' '] ++ textAt source item.textSpan

def renderItems (source : Text) (items : List NumberedListItem) : Text :=
  ['\n'].intercalate (items.map (renderItem source))

/-- the closed phrases, multi-word ones first -/
def scalarPhrases : List (List String × CommandKind × String) :=
  [(["exclamation", "point"], .exclamationPoint, "!"), (["question", "mark"], .questionMark, "?"),
    (["new", "paragraph"], .newParagraph, "\n\n"), (["new", "line"], .newLine, "\n"),
    (["period"], .period, "."), (["comma"], .comma, ",")]

/-- the start of the replaced range of a command that takes the whitespace before it -/
def leadingStart (source : Text) (tokens : List Token) (commandIndex : Nat) : Nat :=
  let start := (spanAt tokens commandIndex).start
  let wsStart :=
    if 0 < commandIndex then (spanAt tokens (commandIndex - 1)).stop
    else if allWhitespace (textAt source ⟨0, start⟩) then 0 else start
  let before := textAt source ⟨wsStart, start⟩
  if !before.isEmpty && allWhitespace before then wsStart else start

mutual

def tryCommandMatch (source : Text) (tokens : List Token) (i : Nat) : Option CommandMatch :=
  if lowerIs tokens i "command" then
    (tryQuote source tokens i).or
      ((tryNumberedList source tokens i).or (tryScalar source tokens i))
  else none
termination_by 4 * (tokens.length - i) + 3

def tryNumberedList (source : Text) (tokens : List Token) (i : Nat) : Option CommandMatch :=
  if phraseMatches tokens (i + 1) ["number", "one"] then
    match listItems tokens numberWords i with
    | none => none
    | some items =>
      if items.length < 2 then none
      else
        let stop := (items.getLast?.map fun item => item.textSpan.stop).getD 0
        let last := lastTokenIdx tokens i stop
        some
          { kind := .numberedList items
            commandSpan := ⟨(spanAt tokens i).start, stop⟩
            replaceSpan := expandReplaceSpan source tokens i last (.numberedList items)
            render := renderItems source items
            nextIndex := last + 1 }
  else none
termination_by 4 * (tokens.length - i) + 2
decreasing_by unfold lastTokenIdx; omega

def tryScalar (source : Text) (tokens : List Token) (i : Nat) : Option CommandMatch :=
  (scalarPhrases.find? fun entry => phraseMatches tokens (i + 1) entry.1).map fun entry =>
    makeScalarMatch source tokens i entry.1.length entry.2.1 entry.2.2.toList
termination_by 4 * (tokens.length - i) + 2

def makeScalarMatch (source : Text) (tokens : List Token) (commandIndex phraseLen : Nat)
    (kind : CommandKind) (render : Text) : CommandMatch :=
  let last := commandIndex + phraseLen
  { kind
    commandSpan := ⟨(spanAt tokens commandIndex).start, (spanAt tokens last).stop⟩
    replaceSpan := expandReplaceSpan source tokens commandIndex last kind
    render
    nextIndex := last + 1 }
termination_by 4 * (tokens.length - commandIndex) + 1

def expandReplaceSpan (source : Text) (tokens : List Token)
    (commandIndex lastPhraseIndex : Nat) (kind : CommandKind) : SourceSpan :=
  let start :=
    if commandConsumesLeadingWs kind then leadingStart source tokens commandIndex
    else (spanAt tokens commandIndex).start
  let stop := (spanAt tokens lastPhraseIndex).stop
  if commandConsumesTrailingWs kind then
    if tokens.length ≤ lastPhraseIndex + 1 then
      -- nothing follows: the whitespace up to the end goes too
      if stop < byteLen source && allWhitespace (textAt source ⟨stop, byteLen source⟩) then
        ⟨start, byteLen source⟩
      else ⟨start, stop⟩
    else
      let nextClaimsLeading := (tryCommandMatch source tokens (lastPhraseIndex + 1)).any
        fun m => commandConsumesLeadingWs m.kind
      let wsEnd := (spanAt tokens (lastPhraseIndex + 1)).start
      if !nextClaimsLeading && stop < wsEnd && allWhitespace (textAt source ⟨stop, wsEnd⟩) then
        ⟨start, wsEnd⟩
      else ⟨start, stop⟩
  else ⟨start, stop⟩
termination_by 4 * (tokens.length - lastPhraseIndex)

end

/-! ## what a match consumes -/

theorem lowerIs_lt {tokens : List Token} {i : Nat} {word : String}
    (h : lowerIs tokens i word = true) : i < tokens.length := by
  unfold lowerIs at h
  by_contra hi
  rw [List.getElem?_eq_none (by omega)] at h
  simp at h

theorem phraseMatches_le {tokens : List Token} {i : Nat} {phrase : List String}
    (h : phraseMatches tokens i phrase = true) : i + phrase.length ≤ tokens.length := by
  induction phrase generalizing i with
  | nil => simpa [phraseMatches] using h
  | cons word phrase ih =>
    obtain ⟨-, h2⟩ := Bool.and_eq_true_iff.mp h
    have := ih h2
    simp only [List.length_cons]
    omega

theorem findUnquote_some {tokens : List Token} {i j : Nat} (h : findUnquote tokens i = some j) :
    i ≤ j ∧ j + 1 < tokens.length ∧ lowerIs tokens j "command" = true ∧
      lowerIs tokens (j + 1) "unquote" = true := by
  induction i using findUnquote.induct tokens with
  | case1 i hi hm =>
    rw [findUnquote, if_pos hi, if_pos hm] at h
    obtain rfl := Option.some.inj h
    exact ⟨le_refl _, hi, Bool.and_eq_true_iff.mp hm⟩
  | case2 i hi hm ih =>
    rw [findUnquote, if_pos hi, if_neg hm] at h
    obtain ⟨h1, h2⟩ := ih h
    exact ⟨by omega, h2⟩
  | case3 i hi =>
    rw [findUnquote, if_neg hi] at h
    cases h

theorem scalarPhrases_ne_nil : ∀ entry ∈ scalarPhrases, 0 < entry.1.length := by decide

theorem le_lastTokenIdx (tokens : List Token) (first stop : Nat) :
    first ≤ lastTokenIdx tokens first stop := Nat.le_add_right _ _

theorem tryCommandMatch_lt {source : Text} {tokens : List Token} {i : Nat} {m : CommandMatch}
    (h : tryCommandMatch source tokens i = some m) : i < m.nextIndex := by
  unfold tryCommandMatch at h
  by_cases hc : lowerIs tokens i "command" = true
  · rw [if_pos hc, Option.or_eq_some_iff, Option.or_eq_some_iff] at h
    rcases h with h | ⟨-, h | ⟨-, h⟩⟩
    · unfold tryQuote at h
      split at h
      · obtain ⟨j, hj, rfl⟩ := Option.map_eq_some_iff.mp h
        have := (findUnquote_some hj).1
        show i < j + 2
        omega
      · cases h
    · unfold tryNumberedList at h
      split at h
      · split at h
        · cases h
        · split at h
          · cases h
          · obtain rfl := Option.some.inj h
            exact Nat.lt_succ_of_le (le_lastTokenIdx _ _ _)
      · cases h
    · unfold tryScalar at h
      obtain ⟨entry, -, rfl⟩ := Option.map_eq_some_iff.mp h
      unfold makeScalarMatch
      show i < i + entry.1.length + 1
      omega
  · rw [if_neg hc] at h
    cases h

/-! ## the parser -/

structure EscapeMatch where
  literalSpan : SourceSpan
  residualSpan : SourceSpan
  nextIndex : Nat
deriving DecidableEq, Repr

def tryLiteralEscape (source : Text) (tokens : List Token) (i : Nat) : Option EscapeMatch :=
  if lowerIs tokens i "literal" && lowerIs tokens (i + 1) "command" then
    (tryCommandMatch source tokens (i + 1)).map fun inner =>
      { literalSpan := spanAt tokens i
        residualSpan := ⟨(spanAt tokens (i + 1)).start, inner.commandSpan.stop⟩
        nextIndex := inner.nextIndex }
  else none

theorem tryLiteralEscape_lt {source : Text} {tokens : List Token} {i : Nat} {esc : EscapeMatch}
    (h : tryLiteralEscape source tokens i = some esc) : i < esc.nextIndex := by
  unfold tryLiteralEscape at h
  split at h
  · obtain ⟨m, hm, rfl⟩ := Option.map_eq_some_iff.mp h
    have := tryCommandMatch_lt hm
    show i < m.nextIndex
    omega
  · cases h

/-- the pending ordinary text `[ordinaryStart, upTo)`, if there is any -/
def flushOrdinary (source : Text) (ordinaryStart upTo : Nat) : List CommandEvent :=
  if ordinaryStart < upTo then
    [.text (textAt source ⟨ordinaryStart, upTo⟩) ⟨ordinaryStart, upTo⟩]
  else []

/-- the loop of `parse_formatting_commands` from token `i` on; `ordinaryStart` is where the
pending ordinary text starts -/
def parseLoop (source : Text) (tokens : List Token) (i ordinaryStart : Nat) : ParsedCommands :=
  if i < tokens.length then
    match hesc : tryLiteralEscape source tokens i with
    | some esc =>
      let rest := parseLoop source tokens esc.nextIndex esc.residualSpan.stop
      { events := flushOrdinary source ordinaryStart esc.literalSpan.start ++
          .text (textAt source esc.residualSpan) esc.residualSpan :: rest.events
        commandSpans := rest.commandSpans }
    | none =>
      match hm : tryCommandMatch source tokens i with
      | some m =>
        let rest := parseLoop source tokens m.nextIndex m.replaceSpan.stop
        { events := flushOrdinary source ordinaryStart m.replaceSpan.start ++
            .command m.kind m.replaceSpan m.render :: rest.events
          commandSpans := m.commandSpan :: rest.commandSpans }
      | none => parseLoop source tokens (i + 1) ordinaryStart
  else
    { events := flushOrdinary source ordinaryStart (byteLen source), commandSpans := [] }
termination_by tokens.length - i
decreasing_by
  · have := tryLiteralEscape_lt hesc
    omega
  · have := tryCommandMatch_lt hm
    omega
  · omega

def CommandEvent.isEmptyText : CommandEvent → Bool
  | .text t _ => t.isEmpty
  | .command .. => false

def parseFormattingCommands (validatedTranscript : Text) : ParsedCommands :=
  let tokens := tokenize validatedTranscript
  if tokens.isEmpty then
    if validatedTranscript.isEmpty then { events := [], commandSpans := [] }
    else
      { events := [.text validatedTranscript ⟨0, byteLen validatedTranscript⟩]
        commandSpans := [] }
  else
    let parsed := parseLoop validatedTranscript tokens 0 0
    { parsed with events := parsed.events.filter fun e => !e.isEmptyText }

end Voisu.Commands
