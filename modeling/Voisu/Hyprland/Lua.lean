import Voisu.Lib.Substrings
import Voisu.Json

/-!
# Two readers of Lua

The configuration of Hyprland is a Lua program, and Voisu reads the bindings out of it.  One scanner goes
over the lines to find the managed block, a lexer goes over the text between the markers, and both have
to know comments, quoted strings and long brackets.

* `lexPiece`, `lexLua`        the lexer, one turn of its loop at a time;
* `LuaSourceMode.step`, `consume`   the scanner, one turn of its loop and one line at a time;
* `splitLuaChunks`            the texts outside and inside the managed block.
-/

namespace Voisu.Hyprland
open Lib

def isAsciiWhitespace (c : Char) : Bool :=
  c == ' ' || c == '\t' || c == '\n' || c == '\x0c' || c == '\r'

def isAsciiHexdigit (c : Char) : Bool := isAsciiDigit c || inRange c 0x41 0x46 || inRange c 0x61 0x66

def hexDigit (c : Char) : Nat :=
  if isAsciiDigit c then c.toNat - 0x30
  else if inRange c 0x41 0x46 then c.toNat - 0x41 + 10 else c.toNat - 0x61 + 10

/-! ## long brackets -/

/-- the bracket that closes a long bracket of a level -/
def closingBracket (equals : Nat) : Text := ']' :: (List.replicate equals '=' ++ [']'])

/-- the level of a long bracket and what follows it, from its second character on -/
def takeLongBracketOpen (chars : Text) : Option (Nat × Text) :=
  match chars.dropWhile (· == '=') with
  | '[' :: rest => some ((chars.takeWhile (· == '=')).length, rest)
  | _ => none

def longBracketOpen : Text → Option (Nat × Text)
  | '[' :: chars => takeLongBracketOpen chars
  | _ => none

/-- `tail` is the end of what was passed, no longer than `closing` -/
def skipLongBracket (closing tail : Text) : Text → Except String Text
  | [] => .error "unterminated Lua long string or comment"
  | c :: rest =>
    if endsWith (tail ++ [c]) closing then .ok rest
    else skipLongBracket closing
      ((tail ++ [c]).drop ((tail ++ [c]).length - closing.length)) rest

/-! ## quoted strings -/

/-- the digits of `\xXX` -/
def readHexEscape : Text → Except String (Text × Text)
  | high :: low :: rest =>
    if isAsciiHexdigit high && isAsciiHexdigit low then
      .ok ([Char.ofNat (hexDigit high * 16 + hexDigit low)], rest)
    else .error "Lua hexadecimal escape must contain two digits"
  | _ => .error "Lua hexadecimal escape must contain two digits"

/-- the code point that hexadecimal digits stand for, if any -/
def codepoint (digits : Text) : Option Char :=
  let n := digits.foldl (fun n d => n * 16 + hexDigit d) 0
  if !digits.isEmpty && decide n.isValidChar then some (Char.ofNat n) else none

/-- the digits of an escape by code point, in their braces -/
def readUnicodeEscape : Text → Except String (Text × Text)
  | '\x7b' :: chars =>
    match chars.dropWhile isAsciiHexdigit with
    | '\x7d' :: rest =>
      match codepoint (chars.takeWhile isAsciiHexdigit) with
      | some c => .ok ([c], rest)
      | none => .error "Lua Unicode escape is invalid"
    | [] => .error "Lua Unicode escape is invalid"
    | _ => .error "Lua Unicode escape contains a non-hex digit"
  | _ => .error "Lua Unicode escape must use the form \\u\x7b...\x7d"

/-- the digits behind the first one of a decimal escape, two at most -/
def moreDigits (chars : Text) : Text := (chars.take 2).takeWhile isAsciiDigit

/-- the text is behind the digit `c` -/
def readDecimalEscape (c : Char) (chars : Text) : Except String (Text × Text) :=
  if (c :: moreDigits chars).foldl (fun n d => n * 10 + hexDigit d) 0 ≤ 255 then
    .ok ([Char.ofNat ((c :: moreDigits chars).foldl (fun n d => n * 10 + hexDigit d) 0)],
      chars.drop (moreDigits chars).length)
  else .error "Lua decimal escape is outside the byte range"

/-- what an escape stands for, and the text behind it -/
def readLuaEscape : Text → Except String (Text × Text)
  | [] => .error "Lua string ends with an incomplete escape"
  | 'a' :: rest => .ok (['\x07'], rest)
  | 'b' :: rest => .ok (['\x08'], rest)
  | 'f' :: rest => .ok (['\x0c'], rest)
  | 'n' :: rest => .ok (['\n'], rest)
  | 'r' :: rest => .ok (['\r'], rest)
  | 't' :: rest => .ok (['\t'], rest)
  | 'v' :: rest => .ok (['\x0b'], rest)
  | '\\' :: rest => .ok (['\\'], rest)
  | '"' :: rest => .ok (['"'], rest)
  | '\'' :: rest => .ok (['\''], rest)
  | '\n' :: rest => .ok (['\n'], rest)
  | '\r' :: rest => .ok (['\n'], if rest.head? = some '\n' then rest.tail else rest)
  | 'z' :: rest => .ok ([], rest.dropWhile isAsciiWhitespace)
  | 'x' :: rest => readHexEscape rest
  | 'u' :: rest => readUnicodeEscape rest
  | c :: rest =>
    if isAsciiDigit c then readDecimalEscape c rest
    else .error ("unsupported Lua escape sequence \\\\" ++ String.singleton c)

/-- a character that neither ends a quoted string nor begins an escape -/
def isPlain (c : Char) : Bool := c != '\\' && c != '"' && c != '\''

theorem isPlain_of_isAsciiWhitespace {c : Char} (h : isAsciiWhitespace c = true) : isPlain c = true := by
  unfold isAsciiWhitespace at h
  simp only [Bool.or_eq_true, beq_iff_eq] at h
  rcases h with (((rfl | rfl) | rfl) | rfl) | rfl <;> decide

theorem isPlain_of_isAsciiHexdigit {c : Char} (h : isAsciiHexdigit c = true) : isPlain c = true := by
  unfold isPlain
  simp only [Bool.and_eq_true, bne_iff_ne]
  refine ⟨⟨?_, ?_⟩, ?_⟩ <;> (rintro rfl; revert h; decide)

theorem isPlain_of_isAsciiDigit {c : Char} (h : isAsciiDigit c = true) : isPlain c = true :=
  isPlain_of_isAsciiHexdigit (by unfold isAsciiHexdigit; rw [h]; rfl)

example : isPlain '7' = true ∧ isPlain '"' = false := by decide +kernel

/-- `chars` begins with characters that neither end the string nor begin an escape, before `rest` -/
def PassesTo (chars rest : Text) : Prop := ∃ passed, chars = passed ++ rest ∧ ∀ d ∈ passed, isPlain d = true

theorem PassesTo.refl (chars : Text) : PassesTo chars chars := ⟨[], rfl, nofun⟩

theorem readHexEscape_passes {chars value rest : Text} (h : readHexEscape chars = .ok (value, rest)) :
    PassesTo chars rest := by
  unfold readHexEscape at h
  split at h
  · split at h
    · rename_i high low rest' hhex
      cases h
      rw [Bool.and_eq_true] at hhex
      refine ⟨[high, low], rfl, ?_⟩
      intro d hd
      rcases List.mem_pair.mp hd with rfl | rfl
      · exact isPlain_of_isAsciiHexdigit hhex.1
      · exact isPlain_of_isAsciiHexdigit hhex.2
    · cases h
  · cases h

theorem readUnicodeEscape_passes {chars value rest : Text}
    (h : readUnicodeEscape chars = .ok (value, rest)) : PassesTo chars rest := by
  unfold readUnicodeEscape at h
  split at h
  · rename_i digits
    split at h
    · rename_i rest' hclose
      split at h
      · cases h
        refine ⟨'\x7b' :: (digits.takeWhile isAsciiHexdigit ++ ['\x7d']), ?_, ?_⟩
        · rw [List.cons_append, List.append_assoc, List.singleton_append, ← hclose,
            List.takeWhile_append_dropWhile]
        · intro d hd
          rcases List.mem_cons.mp hd with rfl | hd
          · decide
          rcases List.mem_append.mp hd with hd | hd
          · exact isPlain_of_isAsciiHexdigit (List.all_eq_true.mp List.all_takeWhile d hd)
          · rw [List.mem_singleton] at hd
            subst hd
            decide
      · cases h
    · cases h
    · cases h
  · cases h

theorem readDecimalEscape_passes {c : Char} {chars value rest : Text}
    (h : readDecimalEscape c chars = .ok (value, rest)) : PassesTo chars rest := by
  unfold readDecimalEscape at h
  split at h
  · cases h
    refine ⟨moreDigits chars, ?_, ?_⟩
    · have hstart : moreDigits chars <+: chars :=
        (List.takeWhile_prefix _).trans (List.take_prefix 2 chars)
      exact (List.prefix_iff_eq_append.mp hstart).symm
    · intro d hd
      exact isPlain_of_isAsciiDigit (List.all_eq_true.mp List.all_takeWhile d hd)
  · cases h

/-- an escape is its first character and some that neither end the string nor begin an escape -/
theorem readLuaEscape_passes {chars value rest : Text} (h : readLuaEscape chars = .ok (value, rest)) :
    ∃ c passed, chars = c :: passed ∧ PassesTo passed rest := by
  unfold readLuaEscape at h
  split at h
  case h_1 => cases h
  case h_13 rest' =>
    cases h
    refine ⟨_, rest', rfl, ?_⟩
    split
    · rename_i hnewline
      cases rest' with
      | nil => cases hnewline
      | cons d rest' =>
        cases hnewline
        exact ⟨['\n'], rfl, by decide⟩
    · exact .refl rest'
  case h_14 rest' =>
    cases h
    refine ⟨_, rest', rfl, rest'.takeWhile isAsciiWhitespace, ?_, ?_⟩
    · rw [List.takeWhile_append_dropWhile]
    · intro d hd
      exact isPlain_of_isAsciiWhitespace (List.all_eq_true.mp List.all_takeWhile d hd)
  case h_15 => exact ⟨_, _, rfl, readHexEscape_passes h⟩
  case h_16 => exact ⟨_, _, rfl, readUnicodeEscape_passes h⟩
  case h_17 =>
    split at h
    · exact ⟨_, _, rfl, readDecimalEscape_passes h⟩
    · cases h
  all_goals
    cases h
    exact ⟨_, _, rfl, .refl _⟩

theorem readLuaEscape_length {chars value rest : Text} (h : readLuaEscape chars = .ok (value, rest)) :
    rest.length < chars.length := by
  obtain ⟨c, passed, rfl, before, rfl, -⟩ := readLuaEscape_passes h
  rw [List.length_cons, List.length_append]
  omega

def readLuaString (quote : Char) (value : Text) : Text → Except String (Text × Text)
  | [] => .error "unterminated Lua string literal"
  | c :: rest =>
    if c = '\\' then
      match _h : readLuaEscape rest with
      | .error e => .error e
      | .ok (escaped, rest') => readLuaString quote (value ++ escaped) rest'
    else if c = quote then .ok (value, rest)
    else if c = '\n' ∨ c = '\r' then .error "unterminated Lua string literal"
    else readLuaString quote (value ++ [c]) rest
termination_by chars => chars.length
decreasing_by
  · have := readLuaEscape_length _h
    rw [List.length_cons]
    omega
  · exact Nat.lt_succ_self _

/-! ## the lexer -/

inductive LuaToken where
  | identifier (name : Text)
  | string (value : Text)
  | number (digits : Text)
  | symbol (c : Char)
deriving DecidableEq, Repr

/-- what one turn of the loop of the lexer reads -/
inductive Piece where
  | lineComment
  | longBracket (equals : Nat)
  | quoted (quote : Char) (value : Text)
  | token (token : LuaToken)
  | other
deriving DecidableEq, Repr

def Piece.token? : Piece → Option LuaToken
  | .quoted _ value => some (.string value)
  | .token t => some t
  | _ => none

/-- whose long brackets open a comment: those of the lexer or those of the scanner -/
inductive Reading where
  | lexed
  | scanned
deriving DecidableEq, Repr

/-- a long bracket right behind `--` -/
def opensComment : Reading → Text → Option (Nat × Text)
  | .lexed => takeLongBracketOpen
  | .scanned => longBracketOpen

def isIdentifierStart (c : Char) : Bool := isAsciiAlphabetic c || c == '_'
def isIdentifierChar (c : Char) : Bool := isAsciiAlphanumeric c || c == '_'

def symbols : Text := ['.', '(', ')', ',', '\x7b', '\x7d', '=', ':']

/-- the rest of a long bracket -/
def longPiece (equals : Nat) (chars : Text) : Except String (Piece × Text) :=
  match skipLongBracket (closingBracket equals) [] chars with
  | .ok rest => .ok (.longBracket equals, rest)
  | .error e => .error e

/-- the text is behind `--` -/
def commentPiece (reading : Reading) (chars : Text) : Except String (Piece × Text) :=
  match opensComment reading chars with
  | some (equals, rest) => longPiece equals rest
  | none => .ok (.lineComment, (chars.dropWhile (· != '\n')).tail)

def lexPiece (reading : Reading) (c : Char) (chars : Text) : Except String (Piece × Text) :=
  if c = '-' ∧ chars.head? = some '-' then commentPiece reading chars.tail
  else if c = '"' ∨ c = '\'' then
    match readLuaString c [] chars with
    | .ok (value, rest) => .ok (.quoted c value, rest)
    | .error e => .error e
  else if c = '[' then
    match takeLongBracketOpen chars with
    | some (equals, rest) => longPiece equals rest
    | none => .ok (.other, chars)
  else if isIdentifierStart c then
    .ok (.token (.identifier (c :: chars.takeWhile isIdentifierChar)), chars.dropWhile isIdentifierChar)
  else if isAsciiDigit c then
    .ok (.token (.number (c :: chars.takeWhile isAsciiDigit)), chars.dropWhile isAsciiDigit)
  else if c ∈ symbols then .ok (.token (.symbol c), chars)
  else .ok (.other, chars)

theorem takeLongBracketOpen_eq_some {chars rest : Text} {equals : Nat}
    (h : takeLongBracketOpen chars = some (equals, rest)) :
    chars = List.replicate equals '=' ++ '[' :: rest := by
  unfold takeLongBracketOpen at h
  split at h
  · rename_i rest' hdrop
    cases h
    have hall : chars.takeWhile (· == '=') =
        List.replicate (chars.takeWhile (· == '=')).length '=' := by
      refine List.eq_replicate_of_mem fun c hc => ?_
      simpa using List.all_eq_true.mp List.all_takeWhile c hc
    conv_lhs => rw [← List.takeWhile_append_dropWhile (p := (· == '=')) (l := chars), hdrop]
    rw [← hall]
  · cases h

theorem longBracketOpen_eq_some {chars rest : Text} {equals : Nat}
    (h : longBracketOpen chars = some (equals, rest)) :
    chars = '[' :: (List.replicate equals '=' ++ '[' :: rest) := by
  unfold longBracketOpen at h
  split at h
  · rw [takeLongBracketOpen_eq_some h]
  · cases h

theorem skipLongBracket_suffix {closing tail chars rest : Text}
    (h : skipLongBracket closing tail chars = .ok rest) : rest <:+ chars := by
  induction chars generalizing tail with
  | nil => cases h
  | cons c chars ih =>
    rw [skipLongBracket] at h
    split at h
    · cases h
      exact List.suffix_cons _ _
    · exact (ih h).trans (List.suffix_cons _ _)

theorem readLuaEscape_suffix {chars value rest : Text} (h : readLuaEscape chars = .ok (value, rest)) :
    rest <:+ chars := by
  obtain ⟨c, passed, rfl, before, rfl, -⟩ := readLuaEscape_passes h
  exact (List.suffix_append _ _).trans (List.suffix_cons _ _)

theorem readLuaString_suffix {quote : Char} {value chars value' rest : Text} :
    readLuaString quote value chars = .ok (value', rest) → rest <:+ chars := by
  fun_induction readLuaString quote value chars with
  | case1 => exact nofun
  | case2 => exact nofun
  | case3 value rest₀ escaped rest' hescape ih =>
    intro h
    exact (ih h).trans ((readLuaEscape_suffix hescape).trans (List.suffix_cons _ _))
  | case4 =>
    intro h
    cases h
    exact List.suffix_cons _ _
  | case5 => exact nofun
  | case6 value c rest₀ _ _ _ ih =>
    intro h
    exact (ih h).trans (List.suffix_cons _ _)

theorem longPiece_suffix {equals : Nat} {chars rest : Text} {piece : Piece}
    (h : longPiece equals chars = .ok (piece, rest)) : rest <:+ chars := by
  unfold longPiece at h
  split at h
  · rename_i hskip
    cases h
    exact skipLongBracket_suffix hskip
  · cases h

theorem takeLongBracketOpen_suffix {chars rest : Text} {equals : Nat}
    (h : takeLongBracketOpen chars = some (equals, rest)) : rest <:+ chars := by
  rw [takeLongBracketOpen_eq_some h]
  exact (List.suffix_cons _ _).trans (List.suffix_append _ _)

theorem opensComment_suffix {reading : Reading} {chars rest : Text} {equals : Nat}
    (h : opensComment reading chars = some (equals, rest)) : rest <:+ chars := by
  cases reading with
  | lexed => exact takeLongBracketOpen_suffix h
  | scanned =>
    rw [longBracketOpen_eq_some h]
    exact ((List.suffix_cons _ _).trans (List.suffix_append _ _)).trans (List.suffix_cons _ _)

theorem commentPiece_suffix {reading : Reading} {chars rest : Text} {piece : Piece}
    (h : commentPiece reading chars = .ok (piece, rest)) : rest <:+ chars := by
  unfold commentPiece at h
  split at h
  · rename_i hopen
    exact (longPiece_suffix h).trans (opensComment_suffix hopen)
  · cases h
    exact (List.tail_suffix _).trans (List.dropWhile_suffix _)

/-- a turn of the loop leaves an end of the text -/
theorem lexPiece_suffix {reading : Reading} {c : Char} {chars rest : Text} {piece : Piece}
    (h : lexPiece reading c chars = .ok (piece, rest)) : rest <:+ chars := by
  unfold lexPiece at h
  split at h
  · exact (commentPiece_suffix h).trans (List.tail_suffix _)
  split at h
  · split at h
    · rename_i hstring
      cases h
      exact readLuaString_suffix hstring
    · cases h
  split at h
  · split at h
    · rename_i hopen
      exact (longPiece_suffix h).trans (takeLongBracketOpen_suffix hopen)
    · cases h
      exact List.suffix_rfl
  split at h
  · cases h
    exact List.dropWhile_suffix _
  split at h
  · cases h
    exact List.dropWhile_suffix _
  split at h <;>
  · cases h
    exact List.suffix_rfl

/-- what stands in `chars` before its end `rest` -/
def eaten (chars rest : Text) : Text := chars.take (chars.length - rest.length)

/-- the pieces of a text, each with its own text -/
def lexPieces (reading : Reading) : Text → Except String (List (Piece × Text))
  | [] => .ok []
  | c :: chars =>
    match _h : lexPiece reading c chars with
    | .error e => .error e
    | .ok (piece, rest) =>
      match lexPieces reading rest with
      | .error e => .error e
      | .ok pieces => .ok ((piece, eaten (c :: chars) rest) :: pieces)
termination_by chars => chars.length
decreasing_by
  have := (lexPiece_suffix _h).length_le
  rw [List.length_cons]
  omega

def tokensOf (pieces : List (Piece × Text)) : List LuaToken := pieces.filterMap fun p => p.1.token?

def readTokens (reading : Reading) (source : Text) : Except String (List LuaToken) :=
  match lexPieces reading source with
  | .ok pieces => .ok (tokensOf pieces)
  | .error e => .error e

def lexLua (source : Text) : Except String (List LuaToken) := readTokens .lexed source

/-! ## the scanner -/

inductive LuaSourceMode where
  | code
  | lineComment
  | quoted (quote : Char)
  | longBracket (equals : Nat)
deriving DecidableEq, Repr

/-- one turn of the loop over a line: the mode behind it and the text left -/
def LuaSourceMode.step (mode : LuaSourceMode) (c : Char) (chars : Text) : LuaSourceMode × Text :=
  match mode with
  | .code =>
    if c = '-' ∧ chars.head? = some '-' then
      match longBracketOpen chars.tail with
      | some (equals, rest) => (.longBracket equals, rest)
      | none => (.lineComment, chars.tail)
    else if c = '\'' ∨ c = '"' then (.quoted c, chars)
    else
      match longBracketOpen (c :: chars) with
      | some (equals, rest) => (.longBracket equals, rest)
      | none => (.code, chars)
  | .lineComment => (if c = '\n' then .code else .lineComment, chars)
  | .quoted quote =>
    if c = '\\' then (.quoted quote, chars.drop 1)
    else (if c = quote then .code else .quoted quote, chars)
  | .longBracket equals =>
    if startsWith (c :: chars) (closingBracket equals) then (.code, chars.drop (equals + 1))
    else (.longBracket equals, chars)

theorem LuaSourceMode.step_suffix (mode : LuaSourceMode) (c : Char) (chars : Text) :
    (mode.step c chars).2 <:+ chars := by
  unfold step
  split
  · split
    · split
      · rename_i equals rest hopen
        have hopen : opensComment .scanned chars.tail = some (equals, rest) := hopen
        exact (opensComment_suffix hopen).trans (List.tail_suffix _)
      · exact List.tail_suffix _
    split
    · exact List.suffix_rfl
    split
    · rename_i hopen
      unfold longBracketOpen at hopen
      split at hopen
      · rename_i hchars
        cases hchars
        exact takeLongBracketOpen_suffix hopen
      · cases hopen
    · exact List.suffix_rfl
  · exact List.suffix_rfl
  · split
    · exact List.drop_suffix _ _
    · exact List.suffix_rfl
  · split
    · exact List.drop_suffix _ _
    · exact List.suffix_rfl

/-- the mode behind a text -/
def LuaSourceMode.run (mode : LuaSourceMode) : Text → LuaSourceMode
  | [] => mode
  | c :: chars => (mode.step c chars).1.run (mode.step c chars).2
termination_by chars => chars.length
decreasing_by
  have := (mode.step_suffix c chars).length_le
  rw [List.length_cons]
  omega

/-- a line comment ends with its line -/
def LuaSourceMode.consume (mode : LuaSourceMode) (line : Text) : LuaSourceMode :=
  if mode.run line = .lineComment then .code else mode.run line

/-! ## chunks -/

def beginMarker : Text := "-- BEGIN VOISU MANAGED TRIGGER".toList
def endMarker : Text := "-- END VOISU MANAGED TRIGGER".toList

inductive LuaMarker where
  | begin
  | stop
deriving DecidableEq, Repr

def LuaSourceMode.markerForLine (mode : LuaSourceMode) (line : Text) : Option LuaMarker :=
  if mode ≠ .code then none
  else if trim line = beginMarker then some .begin
  else if trim line = endMarker then some .stop
  else none

/-- `split_inclusive` at line breaks; `line` is what stands before the text -/
def splitInclusiveFrom (line : Text) : Text → List Text
  | [] => if line.isEmpty then [] else [line]
  | c :: chars =>
    if c = '\n' then (line ++ [c]) :: splitInclusiveFrom [] chars
    else splitInclusiveFrom (line ++ [c]) chars

def splitInclusive (source : Text) : List Text := splitInclusiveFrom [] source

/-- the chunks from a line on; `chunk` is what the current one has so far -/
def splitChunksFrom (mode : LuaSourceMode) (managed : Bool) (chunk : Text) :
    List Text → Except String (List (Text × Bool))
  | [] =>
    if managed then .error "Voisu managed trigger begin marker has no matching end marker"
    else .ok [(chunk, false)]
  | line :: lines =>
    match mode.markerForLine line, managed with
    | some .begin, true => .error "nested Voisu managed trigger begin marker"
    | some .begin, false =>
      (splitChunksFrom (mode.consume line) true [] lines).map fun chunks => (chunk, false) :: chunks
    | some .stop, false => .error "Voisu managed trigger end marker has no matching begin marker"
    | some .stop, true =>
      (splitChunksFrom (mode.consume line) false [] lines).map fun chunks => (chunk, true) :: chunks
    | none, _ => splitChunksFrom (mode.consume line) managed (chunk ++ line) lines

def splitLuaChunks (source : Text) : Except String (List (Text × Bool)) :=
  splitChunksFrom .code false [] (splitInclusive source)

end Voisu.Hyprland
