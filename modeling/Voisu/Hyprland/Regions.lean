import Voisu.Hyprland.Bindings

/-!
# Where comments, strings and long brackets are

Both readers cut a text into code and regions.  A character is marked with the mode it is read in and
whether a region begins there; two readers agree where they mark a text alike.

* `lexedMarks`, `scannedMarks`   the marks of the lexer and of the scanner;
* `opensAlike`                   a comment that both open as the same region;
* `marks_eq_iff`                 the lexer agrees with the scanner exactly when every comment opens alike;
* `scanned_marks`                a lexer that opened comments as the scanner does would always agree.
-/

namespace Voisu.Hyprland
open Lib

structure Mark where
  char : Char
  mode : LuaSourceMode
  first : Bool
deriving DecidableEq, Repr

/-- a whole region, or one character of the code -/
def regionMarks (mode : LuaSourceMode) : Text → List Mark
  | [] => []
  | c :: chars => ⟨c, mode, true⟩ :: chars.map fun d => ⟨d, mode, false⟩

def codeMarks (chars : Text) : List Mark := chars.map fun c => ⟨c, .code, true⟩

def innerMarks (mode : LuaSourceMode) (chars : Text) : List Mark := chars.map fun c => ⟨c, mode, false⟩

/-- the region that a piece is, if it is one -/
def Piece.mode? : Piece → Option LuaSourceMode
  | .lineComment => some .lineComment
  | .longBracket equals => some (.longBracket equals)
  | .quoted quote _ => some (.quoted quote)
  | _ => none

def pieceMarks (p : Piece × Text) : List Mark :=
  match p.1.mode? with
  | some mode => regionMarks mode p.2
  | none => codeMarks p.2

def lexedMarks (pieces : List (Piece × Text)) : List Mark := pieces.flatMap pieceMarks

/-- the marks of one turn of the scanner, by the modes around it -/
def turnMarks (mode mode' : LuaSourceMode) (chars : Text) : List Mark :=
  if mode = .code then regionMarks mode' chars else innerMarks mode chars

/-- the marks of the scanner from a mode on -/
def marksFrom (mode : LuaSourceMode) : Text → List Mark
  | [] => []
  | c :: chars =>
    turnMarks mode (mode.step c chars).1 (eaten (c :: chars) (mode.step c chars).2) ++
      marksFrom (mode.step c chars).1 (mode.step c chars).2
termination_by chars => chars.length
decreasing_by
  have := (mode.step_suffix c chars).length_le
  rw [List.length_cons]
  omega

/-- the marks of the scanner, line by line -/
def lineMarks (mode : LuaSourceMode) : List Text → List Mark
  | [] => []
  | line :: lines => marksFrom mode line ++ lineMarks (mode.consume line) lines

def scannedMarks (chunk : Text) : List Mark := lineMarks .code (splitInclusive chunk)

/-- what follows `--` at every comment that the scanner meets -/
def commentsFrom (mode : LuaSourceMode) : Text → List Text
  | [] => []
  | c :: chars =>
    (if mode = .code ∧ c = '-' ∧ chars.head? = some '-' then [chars.tail] else []) ++
      commentsFrom (mode.step c chars).1 (mode.step c chars).2
termination_by chars => chars.length
decreasing_by
  have := (mode.step_suffix c chars).length_le
  rw [List.length_cons]
  omega

/-- a comment that opens with `[[`, or with neither `[` nor `=…=[` -/
def opensAlike (chars : Text) : Bool :=
  startsWith chars ['[', '['] || (takeLongBracketOpen chars).isNone

/-! ## turns of the scanner -/

theorem eaten_append (before rest : Text) : eaten (before ++ rest) rest = before := by
  unfold eaten
  rw [List.length_append, Nat.add_sub_cancel, List.take_left]

theorem eaten_cons (c : Char) (chars : Text) : eaten (c :: chars) chars = [c] :=
  eaten_append [c] chars

theorem innerMarks_append (mode : LuaSourceMode) (chars chars' : Text) :
    innerMarks mode (chars ++ chars') = innerMarks mode chars ++ innerMarks mode chars' :=
  List.map_append

theorem regionMarks_append (mode : LuaSourceMode) {chars : Text} (h : chars ≠ []) (chars' : Text) :
    regionMarks mode (chars ++ chars') = regionMarks mode chars ++ innerMarks mode chars' := by
  cases chars with
  | nil => exact absurd rfl h
  | cons c chars =>
    show _ :: innerMarks mode (chars ++ chars') = _ :: (innerMarks mode chars ++ innerMarks mode chars')
    rw [innerMarks_append]

/-- the scanner passes the text in a region up to `rest`, where it is in code again -/
def Leaves (mode : LuaSourceMode) (chars rest : Text) : Prop :=
  ∃ before, chars = before ++ rest ∧
    marksFrom mode chars = innerMarks mode before ++ marksFrom .code rest ∧
    commentsFrom mode chars = commentsFrom .code rest

namespace Leaves
variable {mode : LuaSourceMode} {c : Char} {chars rest rest' : Text}

theorem nil (mode : LuaSourceMode) : Leaves mode [] [] := by
  refine ⟨[], rfl, ?_, ?_⟩
  · rw [marksFrom, marksFrom]
    rfl
  · rw [commentsFrom, commentsFrom]

/-- a turn in the region, which goes on or is over -/
theorem turn {mode' : LuaSourceMode} (hmode : mode ≠ .code) (hstep : mode.step c chars = (mode', rest'))
    (h : mode' = .code ∧ rest' = rest ∨ mode' = mode ∧ Leaves mode rest' rest) :
    Leaves mode (c :: chars) rest := by
  have hsuffix := mode.step_suffix c chars
  rw [hstep] at hsuffix
  obtain ⟨x, hx⟩ := hsuffix
  have hchars : c :: chars = (c :: x) ++ rest' := by rw [← hx]; rfl
  have hmarks : marksFrom mode (c :: chars) = innerMarks mode (c :: x) ++ marksFrom mode' rest' := by
    rw [marksFrom, hstep]
    unfold turnMarks
    rw [if_neg hmode, hchars, eaten_append]
  have hcomments : commentsFrom mode (c :: chars) = commentsFrom mode' rest' := by
    rw [commentsFrom, hstep, if_neg fun h => hmode h.1]
    rfl
  rcases h with ⟨rfl, rfl⟩ | ⟨rfl, before, rfl, hm, hc⟩
  · exact ⟨c :: x, hchars, hmarks, hcomments⟩
  · refine ⟨(c :: x) ++ before, by rw [hchars, List.append_assoc], ?_, hcomments.trans hc⟩
    rw [hmarks, hm, innerMarks_append, List.append_assoc]

end Leaves

/-! ## regions that the lexer passes -/

theorem leaves_lineComment (chars : Text) :
    Leaves .lineComment chars (chars.dropWhile (· != '\n')).tail := by
  induction chars with
  | nil => exact .nil _
  | cons c chars ih =>
    by_cases hc : c = '\n'
    · subst hc
      exact .turn nofun rfl (.inl ⟨rfl, rfl⟩)
    · rw [List.dropWhile_cons_of_pos (by simpa using hc)]
      refine .turn nofun ?_ (.inr ⟨rfl, ih⟩)
      unfold LuaSourceMode.step
      dsimp only
      rw [if_neg hc]

theorem closingBracket_length (equals : Nat) : (closingBracket equals).length = equals + 2 := by
  unfold closingBracket
  rw [List.length_cons, List.length_append, List.length_replicate]
  rfl

example : closingBracket 2 = "]==]".toList := by decide +kernel

theorem leaves_longBracket {equals : Nat} {chars before rest : Text}
    (h : splitOnceStr (closingBracket equals) chars = some (before, rest)) :
    Leaves (.longBracket equals) chars rest := by
  induction chars generalizing before with
  | nil => cases h
  | cons c chars ih =>
    rw [splitOnceStr] at h
    split at h
    · rename_i hstart
      cases h
      refine .turn (by rintro ⟨⟩) ?_ (.inl ⟨rfl, rfl⟩)
      unfold LuaSourceMode.step
      dsimp only
      rw [if_pos hstart, closingBracket_length]
      rfl
    · rename_i hstart
      obtain ⟨⟨before', rest'⟩, hsplit, hp⟩ := Option.map_eq_some_iff.mp h
      cases hp
      refine .turn (by rintro ⟨⟩) ?_ (.inr ⟨rfl, ih hsplit⟩)
      unfold LuaSourceMode.step
      dsimp only
      rw [if_neg hstart]

theorem leaves_plain {quote : Char} (hquote : quote = '"' ∨ quote = '\'') {passed chars rest : Text}
    (hpassed : ∀ d ∈ passed, isPlain d = true) (h : Leaves (.quoted quote) chars rest) :
    Leaves (.quoted quote) (passed ++ chars) rest := by
  induction passed with
  | nil => exact h
  | cons c passed ih =>
    have hc := hpassed c List.mem_cons_self
    unfold isPlain at hc
    simp only [Bool.and_eq_true, bne_iff_ne] at hc
    have hne : c ≠ quote := by
      rcases hquote with rfl | rfl
      · exact hc.1.2
      · exact hc.2
    refine .turn nofun ?_ (.inr ⟨rfl, ih fun d hd => hpassed d (List.mem_cons_of_mem _ hd)⟩)
    unfold LuaSourceMode.step
    dsimp only
    rw [if_neg hc.1.1, if_neg hne]
    rfl

theorem leaves_quoted {quote : Char} (hquote : quote = '"' ∨ quote = '\'') {value chars value' rest : Text} :
    readLuaString quote value chars = .ok (value', rest) → Leaves (.quoted quote) chars rest := by
  fun_induction readLuaString quote value chars with
  | case1 => rintro ⟨⟩
  | case2 => rintro ⟨⟩
  | case3 value chars escaped after hescape ih =>
    intro h
    obtain ⟨c, passed, rfl, before, rfl, hplain⟩ := readLuaEscape_passes hescape
    refine .turn (by rintro ⟨⟩) ?_ (.inr ⟨rfl, leaves_plain hquote hplain (ih h)⟩)
    rfl
  | case4 value chars hne =>
    intro h
    cases h
    refine .turn (by rintro ⟨⟩) ?_ (.inl ⟨rfl, rfl⟩)
    unfold LuaSourceMode.step
    dsimp only
    rw [if_neg hne, if_pos rfl]
  | case5 => rintro ⟨⟩
  | case6 value c chars hescape hne _ ih =>
    intro h
    refine .turn (by rintro ⟨⟩) ?_ (.inr ⟨rfl, ih h⟩)
    unfold LuaSourceMode.step
    dsimp only
    rw [if_neg hescape, if_neg hne]

/-! ## the end of a long bracket -/

/-- the lexer stops at the first closing bracket -/
theorem skipLongBracket_eq {w : Text} (hw : w ≠ []) (pre chars : Text) (hnot : ¬ w <:+: pre) :
    skipLongBracket w (pre.drop (pre.length - w.length)) chars =
      match splitOnceStr w (pre ++ chars) with
      | some (_, rest) => .ok rest
      | none => .error "unterminated Lua long string or comment" := by
  induction chars generalizing pre with
  | nil =>
    rw [List.append_nil]
    cases hs : splitOnceStr w pre with
    | none => rfl
    | some p =>
      have := splitOnceStr_eq_some (a := p.1) (b := p.2) hs
      exact absurd ⟨p.1, p.2, this.symm⟩ hnot
  | cons c chars ih =>
    have hpos := List.length_pos_iff.mpr hw
    have hiff : endsWith (pre.drop (pre.length - w.length) ++ [c]) w = true ↔ w <:+ pre ++ [c] := by
      unfold endsWith
      rw [List.isSuffixOf_iff_suffix, ← suffix_drop_iff, drop_concat_drop pre c hpos, suffix_drop_iff]
    rw [skipLongBracket]
    by_cases hend : w <:+ pre ++ [c]
    · obtain ⟨before, hbefore⟩ := hend
      rw [if_pos (hiff.mpr ⟨before, hbefore⟩), splitOnceStr_first hw hbefore.symm hnot]
    · have hnot' : ¬ w <:+: pre ++ [c] := by
        rw [List.infix_concat_iff]
        rintro (h | h)
        · exact hend h
        · exact hnot h
      rw [if_neg fun h => hend (hiff.mp h), drop_concat_drop pre c hpos, ih _ hnot']
      rw [show pre ++ c :: chars = pre ++ [c] ++ chars by simp]

theorem skipLongBracket_ok {equals : Nat} {chars rest : Text} :
    skipLongBracket (closingBracket equals) [] chars = .ok rest ↔
      ∃ before, splitOnceStr (closingBracket equals) chars = some (before, rest) := by
  have hne : closingBracket equals ≠ [] := nofun
  have h := skipLongBracket_eq hne [] chars fun hinfix => hne (List.infix_nil.mp hinfix)
  rw [List.nil_append, List.drop_nil] at h
  rw [h]
  cases splitOnceStr (closingBracket equals) chars with
  | none => exact ⟨nofun, fun ⟨_, h⟩ => nomatch h⟩
  | some p =>
    refine ⟨?_, ?_⟩
    · intro h
      cases h
      exact ⟨p.1, rfl⟩
    · rintro ⟨before, h⟩
      cases h
      rfl

/-! ## one piece -/

section
variable {c : Char} {chars rest : Text}

/-- what a comment adds to the list of comments -/
def commentAt (c : Char) (chars : Text) : List Text :=
  if c = '-' ∧ chars.head? = some '-' then [chars.tail] else []

theorem commentsFrom_code (c : Char) (chars : Text) : commentsFrom .code (c :: chars) =
    commentAt c chars ++ commentsFrom (LuaSourceMode.code.step c chars).1
      (LuaSourceMode.code.step c chars).2 := by
  rw [commentsFrom]
  unfold commentAt
  simp only [true_and]

/-- from code through a whole region -/
theorem code_region {mode : LuaSourceMode} {inside : Text}
    (hstep : LuaSourceMode.code.step c chars = (mode, inside)) (h : Leaves mode inside rest) :
    marksFrom .code (c :: chars) = regionMarks mode (eaten (c :: chars) rest) ++ marksFrom .code rest ∧
      commentsFrom .code (c :: chars) = commentAt c chars ++ commentsFrom .code rest := by
  have hsuffix := LuaSourceMode.code.step_suffix c chars
  rw [hstep] at hsuffix
  obtain ⟨x, hx⟩ := hsuffix
  obtain ⟨before, rfl, hmarks, hcomments⟩ := h
  have hchars : c :: chars = (c :: x) ++ (before ++ rest) := by rw [← hx]; rfl
  refine ⟨?_, ?_⟩
  · rw [marksFrom, hstep]
    unfold turnMarks
    dsimp only
    rw [if_pos rfl, hmarks, hchars, eaten_append, ← List.append_assoc (c :: x) before rest, eaten_append,
      regionMarks_append mode (List.cons_ne_nil _ _), List.append_assoc]
  · rw [commentsFrom_code, hstep, hcomments]

/-- the scanner stays in code -/
theorem code_turn (hstep : LuaSourceMode.code.step c chars = (.code, chars)) :
    marksFrom .code (c :: chars) = ⟨c, .code, true⟩ :: marksFrom .code chars ∧
      commentsFrom .code (c :: chars) = commentAt c chars ++ commentsFrom .code chars := by
  refine ⟨?_, ?_⟩
  · rw [marksFrom, hstep, eaten_cons]
    rfl
  · rw [commentsFrom_code, hstep]

/-- a character that begins no region, whatever follows -/
def isInert (c : Char) : Bool := c != '-' && c != '"' && c != '\'' && c != '['

theorem longBracketOpen_ne (hc : c ≠ '[') : longBracketOpen (c :: chars) = none := by
  unfold longBracketOpen
  split
  · rename_i h
    exact absurd (List.cons.inj h).1 hc
  · rfl

theorem step_code_inert (hc : isInert c = true) (chars : Text) :
    LuaSourceMode.code.step c chars = (.code, chars) := by
  unfold isInert at hc
  simp only [Bool.and_eq_true, bne_iff_ne] at hc
  obtain ⟨⟨⟨h1, h2⟩, h3⟩, h4⟩ := hc
  unfold LuaSourceMode.step
  simp only [h1, h2, h3, false_and, if_false, or_self, longBracketOpen_ne h4]

theorem commentAt_inert (hc : isInert c = true) : commentAt c chars = [] := by
  unfold commentAt
  rw [if_neg]
  rintro ⟨rfl, -⟩
  cases hc

/-- the scanner passes characters that begin no region -/
theorem code_inert {passed : Text} (h : ∀ d ∈ passed, isInert d = true) (rest : Text) :
    marksFrom .code (passed ++ rest) = codeMarks passed ++ marksFrom .code rest ∧
      commentsFrom .code (passed ++ rest) = commentsFrom .code rest := by
  induction passed with
  | nil => exact ⟨rfl, rfl⟩
  | cons c passed ih =>
    obtain ⟨hmarks, hcomments⟩ := ih fun d hd => h d (List.mem_cons_of_mem _ hd)
    have hc := h c List.mem_cons_self
    obtain ⟨hm, hc'⟩ := code_turn (step_code_inert hc (passed ++ rest))
    refine ⟨?_, ?_⟩
    · show marksFrom .code (c :: (passed ++ rest)) = _
      rw [hm, hmarks]
      rfl
    · show commentsFrom .code (c :: (passed ++ rest)) = _
      rw [hc', commentAt_inert hc, hcomments]
      rfl

end

/-- a comment that a reading opens as the scanner does -/
def alike : Reading → Text → Bool
  | .lexed, chars => opensAlike chars
  | .scanned, _ => true

theorem longPiece_leaves {equals : Nat} {chars rest : Text} {piece : Piece}
    (h : longPiece equals chars = .ok (piece, rest)) :
    piece = .longBracket equals ∧ Leaves (.longBracket equals) chars rest := by
  unfold longPiece at h
  split at h
  · rename_i hskip
    cases h
    obtain ⟨before, hsplit⟩ := skipLongBracket_ok.mp hskip
    exact ⟨rfl, leaves_longBracket hsplit⟩
  · cases h

theorem takeLongBracketOpen_bracket (chars : Text) :
    takeLongBracketOpen ('[' :: chars) = some (0, chars) := rfl

/-- a comment that opens with a long bracket for neither -/
theorem longBracketOpen_of_take_none {chars : Text} (h : takeLongBracketOpen chars = none) :
    longBracketOpen chars = none := by
  cases chars with
  | nil => rfl
  | cons c chars =>
    refine longBracketOpen_ne ?_
    rintro rfl
    rw [takeLongBracketOpen_bracket] at h
    cases h

/-- the first character of a long bracket of level `0` does not close it -/
theorem longPiece_bracket (chars : Text) : longPiece 0 ('[' :: chars) = longPiece 0 chars := by
  have hsplit : splitOnceStr (closingBracket 0) ('[' :: chars) =
      (splitOnceStr (closingBracket 0) chars).map fun p => ('[' :: p.1, p.2) := rfl
  have hskip : skipLongBracket (closingBracket 0) [] ('[' :: chars) =
      skipLongBracket (closingBracket 0) [] chars := by
    have hne : closingBracket 0 ≠ [] := nofun
    have hnil : ¬ closingBracket 0 <:+: [] := fun h => hne (List.infix_nil.mp h)
    have h1 := skipLongBracket_eq hne [] ('[' :: chars) hnil
    have h2 := skipLongBracket_eq hne [] chars hnil
    rw [List.nil_append, List.drop_nil] at h1 h2
    rw [h1, h2, hsplit]
    cases splitOnceStr (closingBracket 0) chars <;> rfl
  unfold longPiece
  rw [hskip]

theorem commentPiece_eq (reading : Reading) (chars : Text) : commentPiece reading chars =
    (opensComment reading chars).elim (.ok (.lineComment, (chars.dropWhile (· != '\n')).tail))
      fun p => longPiece p.1 p.2 := by
  unfold commentPiece
  cases opensComment reading chars <;> rfl

/-- the scanner behind `--` -/
theorem step_comment (chars : Text) : LuaSourceMode.code.step '-' ('-' :: chars) =
    (longBracketOpen chars).elim (.lineComment, chars) fun p => (.longBracket p.1, p.2) := by
  unfold LuaSourceMode.step
  dsimp only
  rw [if_pos ⟨rfl, rfl⟩, List.tail_cons]
  cases longBracketOpen chars <;> rfl

/-- the scanner at what opens neither a comment nor a string -/
theorem step_bracket {c : Char} {chars : Text} (hcomment : ¬(c = '-' ∧ chars.head? = some '-'))
    (hquote : ¬(c = '\'' ∨ c = '"')) : LuaSourceMode.code.step c chars =
      (longBracketOpen (c :: chars)).elim (.code, chars) fun p => (.longBracket p.1, p.2) := by
  unfold LuaSourceMode.step
  dsimp only
  rw [if_neg hcomment, if_neg hquote]
  cases longBracketOpen (c :: chars) <;> rfl

/-- a comment that opens alike is the same piece for both -/
theorem commentPiece_alike {chars : Text} (h : opensAlike chars = true) :
    commentPiece .lexed chars = commentPiece .scanned chars := by
  unfold opensAlike at h
  rw [Bool.or_eq_true] at h
  have hlexed : opensComment .lexed chars = takeLongBracketOpen chars := rfl
  have hscanned : opensComment .scanned chars = longBracketOpen chars := rfl
  rw [commentPiece_eq, commentPiece_eq, hlexed, hscanned]
  rcases h with h | h
  · obtain ⟨rest, rfl⟩ := startsWith_iff.mp h
    exact longPiece_bracket rest
  · rw [Option.isNone_iff_eq_none] at h
    rw [h, longBracketOpen_of_take_none h]

section
variable {reading : Reading} {c : Char} {chars rest : Text} {piece : Piece}

/-- the comments of the scanner -/
theorem comment_scanned (h : commentPiece .scanned chars = .ok (piece, rest)) :
    ∃ mode inside, LuaSourceMode.code.step '-' ('-' :: chars) = (mode, inside) ∧
      piece.mode? = some mode ∧ Leaves mode inside rest := by
  have hscanned : opensComment .scanned chars = longBracketOpen chars := rfl
  rw [commentPiece_eq, hscanned] at h
  rw [step_comment]
  cases hopen : longBracketOpen chars with
  | none =>
    rw [hopen] at h
    cases h
    exact ⟨_, _, rfl, rfl, leaves_lineComment chars⟩
  | some opened =>
    rw [hopen] at h
    obtain ⟨rfl, hleaves⟩ := longPiece_leaves h
    exact ⟨_, _, rfl, rfl, hleaves⟩

theorem commentPiece_scanned (halike : alike reading chars = true) :
    commentPiece reading chars = commentPiece .scanned chars := by
  cases reading with
  | lexed => exact commentPiece_alike halike
  | scanned => rfl

theorem pieceMarks_of_mode {mode : LuaSourceMode} (h : piece.mode? = some mode) (text : Text) :
    pieceMarks (piece, text) = regionMarks mode text := by
  unfold pieceMarks
  rw [h]

example : pieceMarks (.lineComment, "--".toList) =
    [⟨'-', .lineComment, true⟩, ⟨'-', .lineComment, false⟩] := by
  decide +kernel

theorem isInert_of_isIdentifierChar (h : isIdentifierChar c = true) : isInert c = true := by
  unfold isInert
  simp only [Bool.and_eq_true, bne_iff_ne]
  refine ⟨⟨⟨?_, ?_⟩, ?_⟩, ?_⟩ <;> (rintro rfl; revert h; decide)

example : isInert 'a' = true ∧ isInert '-' = false := by decide +kernel

theorem isIdentifierChar_of_isIdentifierStart (h : isIdentifierStart c = true) :
    isIdentifierChar c = true := by
  unfold isIdentifierStart at h
  unfold isIdentifierChar isAsciiAlphanumeric
  rw [Bool.or_eq_true] at h
  rcases h with h | h <;> simp [h]

theorem isIdentifierChar_of_isAsciiDigit (h : isAsciiDigit c = true) : isIdentifierChar c = true := by
  unfold isIdentifierChar isAsciiAlphanumeric
  simp [h]

/-- a run of characters that begin no region is read as one piece of code -/
theorem inert_agrees {p : Char → Bool} (hp : ∀ d, p d = true → isIdentifierChar d = true)
    (hc : isIdentifierChar c = true) {token : LuaToken} :
    marksFrom .code (c :: chars) =
        pieceMarks (.token token, eaten (c :: chars) (chars.dropWhile p)) ++
          marksFrom .code (chars.dropWhile p) ∧
      commentsFrom .code (c :: chars) = commentAt c chars ++ commentsFrom .code (chars.dropWhile p) := by
  have hchars : c :: chars = (c :: chars.takeWhile p) ++ chars.dropWhile p := by
    rw [List.cons_append, List.takeWhile_append_dropWhile]
  have hinert : ∀ d ∈ c :: chars.takeWhile p, isInert d = true := by
    intro d hd
    rcases List.mem_cons.mp hd with rfl | hd
    · exact isInert_of_isIdentifierChar hc
    · exact isInert_of_isIdentifierChar (hp d (List.all_eq_true.mp List.all_takeWhile d hd))
  obtain ⟨hmarks, hcomments⟩ := code_inert hinert (chars.dropWhile p)
  rw [commentAt_inert (isInert_of_isIdentifierChar hc), List.nil_append]
  refine ⟨?_, ?_⟩
  · conv_lhs => rw [hchars, hmarks]
    conv_rhs => rw [hchars, eaten_append]
    rfl
  · rw [hchars]
    exact hcomments

/-- a piece that opens alike is read alike -/
theorem piece_agrees (h : lexPiece reading c chars = .ok (piece, rest))
    (halike : ∀ comment ∈ commentAt c chars, alike reading comment = true) :
    marksFrom .code (c :: chars) = pieceMarks (piece, eaten (c :: chars) rest) ++ marksFrom .code rest ∧
      commentsFrom .code (c :: chars) = commentAt c chars ++ commentsFrom .code rest := by
  unfold lexPiece at h
  split at h
  · -- a comment
    rename_i hcomment
    obtain ⟨rfl, hhead⟩ := hcomment
    cases chars with
    | nil => cases hhead
    | cons d chars =>
      cases hhead
      rw [List.tail_cons, commentPiece_scanned (halike chars List.mem_cons_self)] at h
      obtain ⟨mode, inside, hstep, hmode, hleaves⟩ := comment_scanned h
      rw [pieceMarks_of_mode hmode]
      exact code_region hstep hleaves
  rename_i hcomment
  split at h
  · -- a quoted string
    rename_i hquote
    split at h
    · rename_i hstring
      cases h
      have hstep : LuaSourceMode.code.step c chars = (.quoted c, chars) := by
        unfold LuaSourceMode.step
        dsimp only
        rw [if_neg hcomment, if_pos hquote.symm]
      exact code_region hstep (leaves_quoted hquote hstring)
    · cases h
  rename_i hquote
  have hstep := step_bracket hcomment fun h => hquote h.symm
  split at h
  · -- a bracket
    rename_i hbracket
    subst hbracket
    rw [show longBracketOpen ('[' :: chars) = takeLongBracketOpen chars from rfl] at hstep
    split at h
    · rename_i hopen
      rw [hopen] at hstep
      obtain ⟨rfl, hleaves⟩ := longPiece_leaves h
      exact code_region hstep hleaves
    · rename_i hopen
      rw [hopen] at hstep
      cases h
      rw [eaten_cons]
      exact code_turn hstep
  rename_i hbracket
  rw [longBracketOpen_ne hbracket] at hstep
  split at h
  · rename_i hstart
    cases h
    exact inert_agrees (fun _ h => h) (isIdentifierChar_of_isIdentifierStart hstart)
  split at h
  · rename_i hdigit
    cases h
    exact inert_agrees (fun _ h => isIdentifierChar_of_isAsciiDigit h)
      (isIdentifierChar_of_isAsciiDigit hdigit)
  split at h <;>
  · cases h
    rw [eaten_cons]
    exact code_turn hstep

/-- a comment that does not open alike is marked differently from its first character on -/
theorem comment_differs {pieces : List (Piece × Text)} (halike : opensAlike chars = false)
    (h : commentPiece .lexed chars = .ok (piece, rest)) :
    lexedMarks ((piece, eaten ('-' :: '-' :: chars) rest) :: pieces) ≠
      marksFrom .code ('-' :: '-' :: chars) := by
  unfold opensAlike at halike
  rw [Bool.or_eq_false_iff, Option.isNone_eq_false_iff, Option.isSome_iff_exists] at halike
  obtain ⟨hbrackets, ⟨equals, opened⟩, hopen⟩ := halike
  have h : longPiece equals opened = .ok (piece, rest) := by
    unfold commentPiece at h
    rw [show opensComment .lexed chars = _ from hopen] at h
    exact h
  have hsuffix := (longPiece_suffix h).trans (takeLongBracketOpen_suffix hopen)
  obtain ⟨rfl, -⟩ := longPiece_leaves h
  -- the lexer is in a long bracket of this level
  have hlexed : (lexedMarks ((.longBracket equals, eaten ('-' :: '-' :: chars) rest) :: pieces)).head? =
      some ⟨'-', .longBracket equals, true⟩ := by
    obtain ⟨x, rfl⟩ := hsuffix
    show (regionMarks _ (eaten (('-' :: '-' :: x) ++ rest) rest) ++ _).head? = _
    rw [eaten_append]
    rfl
  -- the scanner is in a line comment or in a long bracket of a higher level
  have hscanned : ∃ mode, (marksFrom .code ('-' :: '-' :: chars)).head? = some ⟨'-', mode, true⟩ ∧
      mode ≠ .longBracket equals := by
    cases hscan : LuaSourceMode.code.step '-' ('-' :: chars) with
    | mk mode inside =>
      refine ⟨mode, ?_, ?_⟩
      · have hsuffix := LuaSourceMode.code.step_suffix '-' ('-' :: chars)
        rw [hscan] at hsuffix
        obtain ⟨x, hx⟩ := hsuffix
        rw [marksFrom, hscan, ← hx]
        show (regionMarks mode (eaten (('-' :: x) ++ inside) inside) ++ _).head? = _
        rw [eaten_append]
        rfl
      · rw [step_comment] at hscan
        rintro rfl
        cases hlong : longBracketOpen chars with
        | none =>
          rw [hlong] at hscan
          cases hscan
        | some inside' =>
          obtain ⟨level, inside'⟩ := inside'
          rw [hlong] at hscan
          cases hscan
          rw [longBracketOpen_eq_some hlong, takeLongBracketOpen_bracket] at hopen
          cases hopen
          rw [longBracketOpen_eq_some hlong] at hbrackets
          cases hbrackets
  obtain ⟨mode, hhead, hne⟩ := hscanned
  intro heq
  rw [heq, hhead] at hlexed
  cases hlexed
  exact hne rfl

end

/-! ## whole texts -/

theorem marks_iff {reading : Reading} {chars : Text} {pieces : List (Piece × Text)} :
    lexPieces reading chars = .ok pieces →
    (lexedMarks pieces = marksFrom .code chars ↔
      ∀ comment ∈ commentsFrom .code chars, alike reading comment = true) := by
  fun_induction lexPieces reading chars generalizing pieces with
  | case1 =>
    intro h
    cases h
    rw [marksFrom, commentsFrom]
    exact ⟨fun _ => nofun, fun _ => rfl⟩
  | case2 => exact nofun
  | case3 => exact nofun
  | case4 c chars piece rest hpiece tail htail ih =>
    intro h
    cases h
    by_cases halike : ∀ comment ∈ commentAt c chars, alike reading comment = true
    · obtain ⟨hmarks, hcomments⟩ := piece_agrees hpiece halike
      have hcons : lexedMarks ((piece, eaten (c :: chars) rest) :: tail) =
          pieceMarks (piece, eaten (c :: chars) rest) ++ lexedMarks tail := List.flatMap_cons
      rw [hmarks, hcomments, hcons, List.append_cancel_left_eq, ih htail, List.forall_mem_append]
      exact ⟨fun h => ⟨halike, h⟩, fun h => h.2⟩
    · -- the comment is not alike, and so are not the marks
      refine ⟨fun heq => ?_, fun h => ?_⟩
      · exfalso
        unfold commentAt at halike
        split at halike
        · rename_i hcomment
          obtain ⟨rfl, hhead⟩ := hcomment
          cases chars with
          | nil => cases hhead
          | cons d chars =>
            cases hhead
            cases reading with
            | scanned => exact halike fun _ _ => rfl
            | lexed =>
              have hfalse : opensAlike chars = false := by
                cases ha : opensAlike chars with
                | false => rfl
                | true =>
                  refine absurd ?_ halike
                  intro comment hmem
                  rw [List.mem_singleton] at hmem
                  rw [hmem]
                  exact ha
              have hpiece : commentPiece .lexed chars = .ok (piece, rest) := by
                unfold lexPiece at hpiece
                rw [if_pos ⟨rfl, rfl⟩] at hpiece
                exact hpiece
              exact comment_differs hfalse hpiece heq
        · exact halike nofun
      · refine absurd ?_ halike
        intro comment hmem
        refine h comment ?_
        rw [commentsFrom_code]
        exact List.mem_append_left _ hmem

/-! ## line by line -/

/-- a text that ends with its last line -/
def EndsLine (chars : Text) : Prop := chars.getLast? = some '\n'

namespace EndsLine
variable {c : Char} {chars rest : Text}

theorem ne_nil (h : EndsLine chars) : chars ≠ [] := by
  rintro rfl
  cases h

/-- a line break is the last of the characters, or another is -/
theorem tail (h : EndsLine (c :: chars)) (hc : c ≠ '\n') : EndsLine chars := by
  cases chars with
  | nil =>
    cases h
    exact absurd rfl hc
  | cons d chars => exact h

theorem of_suffix (h : EndsLine chars) (hrest : rest <:+ chars) : rest = [] ∨ EndsLine rest := by
  obtain ⟨x, rfl⟩ := hrest
  cases rest with
  | nil => exact .inl rfl
  | cons d rest =>
    right
    unfold EndsLine at h ⊢
    rw [← h, List.getLast?_append_of_ne_nil _ (List.cons_ne_nil _ _)]

theorem eq_concat (h : EndsLine chars) : ∃ x, chars = x ++ ['\n'] :=
  List.getLast?_eq_some_iff.mp h

theorem dropWhile_ne_nil {p : Char → Bool} (h : EndsLine chars) (hp : p '\n' = false) :
    chars.dropWhile p ≠ [] := by
  intro hnil
  have hall : chars.takeWhile p = chars := by
    conv_rhs => rw [← List.takeWhile_append_dropWhile (p := p) (l := chars), hnil, List.append_nil]
  have hbreak : '\n' ∈ chars.takeWhile p := by
    rw [hall]
    exact List.mem_of_getLast? h
  have hp' := List.all_eq_true.mp List.all_takeWhile '\n' hbreak
  rw [hp] at hp'
  cases hp'

end EndsLine

/-- a run of characters that ends within a text ends there in every longer text -/
theorem while_append {p : Char → Bool} {chars : Text} (h : chars.dropWhile p ≠ []) (more : Text) :
    (chars ++ more).dropWhile p = chars.dropWhile p ++ more ∧
      (chars ++ more).takeWhile p = chars.takeWhile p := by
  rw [List.dropWhile_append, List.takeWhile_append, if_neg (by simpa using h)]
  refine ⟨rfl, if_neg fun hlen => h ?_⟩
  have hsplit := congrArg List.length (List.takeWhile_append_dropWhile (p := p) (l := chars))
  rw [List.length_append, hlen] at hsplit
  exact List.eq_nil_of_length_eq_zero (by omega)

section
variable {c : Char} {chars : Text} (more : Text)

theorem takeLongBracketOpen_append (h : EndsLine chars) : takeLongBracketOpen (chars ++ more) =
    (takeLongBracketOpen chars).map fun p => (p.1, p.2 ++ more) := by
  have hne : chars.dropWhile (· == '=') ≠ [] := h.dropWhile_ne_nil rfl
  obtain ⟨hdrop, htake⟩ := while_append hne more
  unfold takeLongBracketOpen
  rw [hdrop, htake]
  cases hd : chars.dropWhile (· == '=') with
  | nil => exact absurd hd hne
  | cons d rest =>
    by_cases hd' : d = '['
    · subst hd'
      rfl
    · rw [List.cons_append]
      split
      · rename_i heq
        exact absurd (List.cons.inj heq).1 hd'
      · split
        · rename_i heq
          exact absurd (List.cons.inj heq).1 hd'
        · rfl

theorem longBracketOpen_append (h : EndsLine chars) : longBracketOpen (chars ++ more) =
    (longBracketOpen chars).map fun p => (p.1, p.2 ++ more) := by
  cases chars with
  | nil => exact absurd rfl h.ne_nil
  | cons d chars =>
    by_cases hd : d = '['
    · subst hd
      exact takeLongBracketOpen_append more (h.tail (by decide))
    · rw [List.cons_append, longBracketOpen_ne hd, longBracketOpen_ne hd]
      rfl

example : longBracketOpen "[==[a".toList = some (2, ['a']) := by decide +kernel

theorem closingBracket_no_break (equals : Nat) : '\n' ∉ closingBracket equals := by
  unfold closingBracket
  simp

/-- a turn looks at its line alone -/
theorem step_append (mode : LuaSourceMode) (h : EndsLine (c :: chars)) :
    mode.step c (chars ++ more) = ((mode.step c chars).1, (mode.step c chars).2 ++ more) := by
  unfold LuaSourceMode.step
  cases mode with
  | code =>
    dsimp only
    by_cases hcomment : c = '-' ∧ chars.head? = some '-'
    · obtain ⟨rfl, hhead⟩ := hcomment
      cases chars with
      | nil => cases hhead
      | cons d chars =>
        cases hhead
        have hline := (h.tail (by decide)).tail (by decide)
        rw [if_pos ⟨rfl, rfl⟩, if_pos ⟨rfl, rfl⟩]
        simp only [List.cons_append, List.tail_cons, longBracketOpen_append more hline]
        cases longBracketOpen chars <;> rfl
    · have hcomment' : ¬ (c = '-' ∧ (chars ++ more).head? = some '-') := by
        rintro ⟨rfl, hhead⟩
        cases chars with
        | nil => cases h
        | cons d chars => exact hcomment ⟨rfl, hhead⟩
      rw [if_neg hcomment, if_neg hcomment', ← List.cons_append, longBracketOpen_append more h]
      split
      · rfl
      · cases longBracketOpen (c :: chars) <;> rfl
  | lineComment => rfl
  | quoted quote =>
    dsimp only
    by_cases hc : c = '\\'
    · subst hc
      cases chars with
      | nil => cases h
      | cons d chars => rfl
    · rw [if_neg hc, if_neg hc]
  | longBracket equals =>
    dsimp only
    obtain ⟨x, hx⟩ := h.eq_concat
    have hiff : startsWith (c :: (chars ++ more)) (closingBracket equals) =
        startsWith (c :: chars) (closingBracket equals) := by
      rw [Bool.eq_iff_iff, startsWith_iff, startsWith_iff]
      refine ⟨?_, fun h => h.trans (List.prefix_append _ more)⟩
      intro hstart
      rw [← List.cons_append, hx, List.append_assoc] at hstart
      rw [hx]
      exact (prefix_of_append_cons hstart (closingBracket_no_break equals)).trans
        (List.prefix_append _ _)
    rw [hiff]
    split
    · rename_i hstart
      have hlen := (startsWith_iff.mp hstart).length_le
      rw [closingBracket_length, List.length_cons] at hlen
      rw [List.drop_append_of_le_length (by omega)]
    · rfl

theorem marksFrom_append {line : Text} (mode : LuaSourceMode) (h : line = [] ∨ EndsLine line) :
    marksFrom mode (line ++ more) = marksFrom mode line ++ marksFrom (mode.run line) more := by
  induction hn : line.length using Nat.strongRecOn generalizing line mode with
  | ind n ih =>
    cases line with
    | nil =>
      rw [marksFrom, LuaSourceMode.run]
      rfl
    | cons c chars =>
      rcases h with h | h
      · cases h
      have hsuffix := mode.step_suffix c chars
      have hlt : (mode.step c chars).2.length < n := by
        have := hsuffix.length_le
        rw [← hn, List.length_cons]
        omega
      have heaten : eaten (c :: chars ++ more) ((mode.step c chars).2 ++ more) =
          eaten (c :: chars) (mode.step c chars).2 := by
        obtain ⟨x, hx⟩ := hsuffix
        generalize (mode.step c chars).2 = rest at hx
        rw [← hx, ← List.cons_append, List.append_assoc, eaten_append, eaten_append]
      rw [List.cons_append, marksFrom, step_append more mode h, ← List.cons_append]
      dsimp only
      rw [heaten, ih _ hlt _ (h.of_suffix (hsuffix.trans (List.suffix_cons _ _))) rfl, marksFrom,
        LuaSourceMode.run, List.append_assoc]

/-- the last turn of a line does not stay in a line comment -/
theorem step_ne_lineComment (mode : LuaSourceMode) (h : EndsLine (c :: chars))
    (hrest : (mode.step c chars).2 = []) : (mode.step c chars).1 ≠ .lineComment := by
  unfold LuaSourceMode.step at hrest ⊢
  cases mode with
  | code =>
    dsimp only at hrest ⊢
    split at hrest
    · rename_i hcomment
      obtain ⟨rfl, hhead⟩ := hcomment
      cases chars with
      | nil => cases hhead
      | cons d chars =>
        cases hhead
        have hline := (h.tail (by decide)).tail (by decide)
        rw [if_pos ⟨rfl, rfl⟩]
        rw [List.tail_cons] at hrest ⊢
        cases hopen : longBracketOpen chars with
        | none =>
          rw [hopen] at hrest
          exact absurd hrest hline.ne_nil
        | some opened => rintro ⟨⟩
    · rename_i hcomment
      rw [if_neg hcomment]
      split
      · rintro ⟨⟩
      · split <;> rintro ⟨⟩
  | lineComment =>
    have hnil : chars = [] := hrest
    subst hnil
    cases h
    rintro ⟨⟩
  | quoted quote =>
    dsimp only
    split
    · rintro ⟨⟩
    · dsimp only
      split <;> rintro ⟨⟩
  | longBracket equals =>
    dsimp only
    split <;> rintro ⟨⟩

/-- a line comment is over at the line break -/
theorem run_ne_lineComment {line : Text} (mode : LuaSourceMode) (h : EndsLine line) :
    mode.run line ≠ .lineComment := by
  induction hn : line.length using Nat.strongRecOn generalizing line mode with
  | ind n ih =>
    cases line with
    | nil => cases h
    | cons c chars =>
      have hsuffix := (mode.step_suffix c chars).trans (List.suffix_cons c chars)
      rw [LuaSourceMode.run]
      rcases h.of_suffix hsuffix with hnil | hline
      · rw [hnil, LuaSourceMode.run]
        exact step_ne_lineComment mode h hnil
      · refine ih _ ?_ _ hline rfl
        have := (mode.step_suffix c chars).length_le
        rw [← hn, List.length_cons]
        omega

theorem consume_line {line : Text} (mode : LuaSourceMode) (h : EndsLine line) :
    mode.consume line = mode.run line := by
  unfold LuaSourceMode.consume
  rw [if_neg (run_ne_lineComment mode h)]

end

theorem endsLine_concat (line : Text) : EndsLine (line ++ ['\n']) := List.getLast?_concat

theorem lineMarks_eq (mode : LuaSourceMode) (line chars : Text) :
    lineMarks mode (splitInclusiveFrom line chars) = marksFrom mode (line ++ chars) := by
  induction chars generalizing mode line with
  | nil =>
    rw [splitInclusiveFrom, List.append_nil]
    split
    · rename_i hempty
      rw [List.isEmpty_iff.mp hempty, marksFrom]
      rfl
    · exact List.append_nil _
  | cons c chars ih =>
    rw [splitInclusiveFrom]
    split
    · rename_i hc
      subst hc
      have hline := endsLine_concat line
      rw [lineMarks, consume_line mode hline, ih, List.nil_append,
        ← marksFrom_append chars mode (.inr hline), List.append_assoc]
      rfl
    · rw [ih, List.append_assoc]
      rfl

/-- the scanner marks a text as if it were one line -/
theorem scannedMarks_eq (chunk : Text) : scannedMarks chunk = marksFrom .code chunk :=
  lineMarks_eq .code [] chunk

/-- **the lexer agrees with the scanner exactly when every comment opens alike** -/
theorem marks_eq_iff {chunk : Text} {pieces : List (Piece × Text)}
    (h : lexPieces .lexed chunk = .ok pieces) :
    lexedMarks pieces = scannedMarks chunk ↔
      ∀ comment ∈ commentsFrom .code chunk, opensAlike comment = true := by
  rw [scannedMarks_eq]
  exact marks_iff h

/-- **a lexer that opened comments as the scanner does would always agree with it** -/
theorem scanned_marks {chunk : Text} {pieces : List (Piece × Text)}
    (h : lexPieces .scanned chunk = .ok pieces) : lexedMarks pieces = scannedMarks chunk := by
  rw [scannedMarks_eq]
  exact (marks_iff h).mpr fun _ _ => rfl

theorem lexPieces_cons {reading : Reading} {c : Char} {chars rest : Text} {piece : Piece}
    (h : lexPiece reading c chars = .ok (piece, rest)) : lexPieces reading (c :: chars) =
      match lexPieces reading rest with
      | .error e => .error e
      | .ok pieces => .ok ((piece, eaten (c :: chars) rest) :: pieces) := by
  rw [lexPieces]
  split
  · rename_i herror
    rw [h] at herror
    cases herror
  · rename_i hok
    rw [h] at hok
    cases hok
    rfl

theorem lexPiece_alike {c : Char} {chars : Text}
    (h : ∀ comment ∈ commentAt c chars, opensAlike comment = true) :
    lexPiece .lexed c chars = lexPiece .scanned c chars := by
  unfold lexPiece
  by_cases hcomment : c = '-' ∧ chars.head? = some '-'
  · rw [if_pos hcomment, if_pos hcomment]
    refine commentPiece_alike (h _ ?_)
    unfold commentAt
    rw [if_pos hcomment]
    exact List.mem_singleton_self _
  · rw [if_neg hcomment, if_neg hcomment]

/-- where every comment opens alike, both read the same pieces -/
theorem lexPieces_alike {chunk : Text} {pieces : List (Piece × Text)} :
    lexPieces .lexed chunk = .ok pieces →
    (∀ comment ∈ commentsFrom .code chunk, opensAlike comment = true) →
    lexPieces .scanned chunk = .ok pieces := by
  fun_induction lexPieces .lexed chunk generalizing pieces with
  | case1 =>
    intro h _
    cases h
    rw [lexPieces]
  | case2 => exact nofun
  | case3 => exact nofun
  | case4 c chars piece rest hpiece tail htail ih =>
    intro h halike
    cases h
    have hat : ∀ comment ∈ commentAt c chars, opensAlike comment = true := by
      intro comment hmem
      refine halike comment ?_
      rw [commentsFrom_code]
      exact List.mem_append_left _ hmem
    rw [(piece_agrees hpiece hat).2] at halike
    rw [lexPieces_cons (lexPiece_alike hat ▸ hpiece),
      ih htail fun comment hmem => halike comment (List.mem_append_right _ hmem)]

end Voisu.Hyprland
