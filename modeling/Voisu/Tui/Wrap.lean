import Mathlib
import Voisu.Json
import Voisu.Lib.Lines

/-!
# Word wrapping

The columns of a character are a parameter, `cell`, those of a word their sum.

* `wrapParagraph`, `wrap`   the loop over the words, and over the paragraphs;
* `Wrapped`                 what wrapping promises of a paragraph;
* `putWord_joined`          what one word adds to the text;
* `wrap_iff`                **it is kept for every width exactly when no word without columns stands
                            where the column counter takes its line for an empty one**.
-/

namespace Voisu.Tui
open Lib

section
variable (cell : Char → Nat) (max : Nat)

def width (text : Text) : Nat := (text.map cell).sum

structure Wrapping where
  lines : List Text
  line : Text
  used : Nat
deriving DecidableEq, Repr

namespace Wrapping

def new : Wrapping := { lines := [], line := [], used := 0 }

def push (st : Wrapping) : Wrapping := { lines := st.lines ++ [st.line], line := [], used := 0 }

def add (st : Wrapping) (c : Char) (columns : Nat) : Wrapping :=
  { st with line := st.line ++ [c], used := st.used + columns }

def putChar (st : Wrapping) (ch : Char) : Wrapping :=
  (if max < st.used + cell ch then st.push else st).add ch (cell ch)

/-- the line that a word begins on, with the space before it -/
def startWord (st : Wrapping) (word : Text) : Wrapping :=
  let st := if 0 < st.used ∧ max < st.used + 1 + width cell word then st.push else st
  if 0 < st.used then st.add ' ' 1 else st

def putWord (st : Wrapping) (word : Text) : Wrapping :=
  word.foldl (putChar cell max) (st.startWord cell max word)

end Wrapping

def wrapParagraph (paragraph : Text) : List Text :=
  let st := (splitWhitespace paragraph).foldl (Wrapping.putWord cell max) .new
  st.lines ++ [st.line]

end

def wrap (cell : Char → Nat) (text : Text) (max : Nat) : List Text :=
  (text.splitOn '\n').flatMap (wrapParagraph cell (max.max 1))

/-! ## what wrapping promises -/

def nonBlank (text : Text) : Text := text.filter notWhitespace

def joinLines (lines : List Text) : Text := ['\n'].intercalate lines

/-- what is promised of a paragraph; a place in the lines is told by what stands before it -/
structure Wrapped (cell : Char → Nat) (max : Nat) (paragraph : Text) : Prop where
  width : ∀ line ∈ wrapParagraph cell max paragraph, width cell line ≤ max
  kept : nonBlank (wrapParagraph cell max paragraph).flatten = nonBlank paragraph
  separated : ∀ before word behind, splitWhitespace paragraph = before ++ word :: behind →
    before ≠ [] → ∃ a c b, joinLines (wrapParagraph cell max paragraph) = a ++ c :: b ∧
      (c = ' ' ∨ c = '\n') ∧ nonBlank a = before.flatten
  unsplit : ∀ before word behind, splitWhitespace paragraph = before ++ word :: behind →
    Tui.width cell word ≤ max → ∃ a b,
      joinLines (wrapParagraph cell max paragraph) = a ++ word ++ b ∧ nonBlank a = before.flatten
  line : wrapParagraph cell max paragraph ≠ []

structure Wraps (cell : Char → Nat) (max : Nat) (text : Text) : Prop where
  paragraphs : wrap cell text max = (text.splitOn '\n').flatMap (wrapParagraph cell max)
  wrapped : ∀ paragraph ∈ text.splitOn '\n', Wrapped cell max paragraph

/-! ## one character -/

section
variable {cell : Char → Nat} {max : Nat} {st : Wrapping} {word : Text}

@[simp] theorem nonBlank_append (s t : Text) : nonBlank (s ++ t) = nonBlank s ++ nonBlank t :=
  List.filter_append ..

namespace Wrapping

/-- the lines so far as one text -/
def joined (st : Wrapping) : Text := unlines st.lines ++ st.line

@[simp] theorem joined_push (st : Wrapping) : st.push.joined = st.joined ++ ['\n'] := by
  simp [joined, push, unlines]

@[simp] theorem joined_add (st : Wrapping) (c : Char) (columns : Nat) :
    (st.add c columns).joined = st.joined ++ [c] := by
  simp [joined, add]

/-- the counter is right, and no line is too wide -/
structure Fits (cell : Char → Nat) (max : Nat) (st : Wrapping) : Prop where
  used : st.used = width cell st.line
  line : st.used ≤ max
  lines : ∀ l ∈ st.lines, width cell l ≤ max

theorem Fits.new : Fits cell max .new := ⟨rfl, Nat.zero_le _, nofun⟩

theorem Fits.push (h : Fits cell max st) : Fits cell max st.push where
  used := rfl
  line := Nat.zero_le _
  lines := List.forall_mem_append.2
    ⟨h.lines, List.forall_mem_singleton.2 (h.used ▸ h.line)⟩

theorem Fits.add {c : Char} (h : Fits cell max st) (hle : st.used + cell c ≤ max) :
    Fits cell max (st.add c (cell c)) where
  used := by
    show st.used + cell c = width cell (st.line ++ [c])
    rw [h.used]
    simp [width]
  line := hle
  lines := h.lines

theorem Fits.putChar {c : Char} (h : Fits cell max st) (hc : cell c ≤ max) :
    Fits cell max (st.putChar cell max c) := by
  rw [Wrapping.putChar]
  split
  next => exact h.push.add (by simpa [Wrapping.push] using hc)
  next hle => exact h.add (Nat.le_of_not_lt hle)

theorem Fits.putChars (h : Fits cell max st) (hmax : ∀ c, cell c ≤ max) (word : Text) :
    Fits cell max (word.foldl (Wrapping.putChar cell max) st) := by
  induction word generalizing st with
  | nil => exact h
  | cons c word ih => exact ih (h.putChar (hmax c))

/-- the counter stands at zero, or the word goes to a line of its own, or there is room for it -/
theorem startWord_cases (cell : Char → Nat) (max : Nat) (st : Wrapping) (word : Text) :
    st.used = 0 ∧ st.startWord cell max word = st ∨
      0 < st.used ∧ max < st.used + 1 + width cell word ∧
        st.startWord cell max word = st.push ∨
      0 < st.used ∧ st.used + 1 + width cell word ≤ max ∧
        st.startWord cell max word = st.add ' ' 1 := by
  rcases Nat.eq_zero_or_pos st.used with hzero | hpos
  · have hkeep : ¬(0 < st.used ∧ max < st.used + 1 + width cell word) := fun h => by omega
    have hnone : ¬0 < st.used := Nat.not_lt_of_le (Nat.le_of_eq hzero)
    exact .inl ⟨hzero, by simp only [startWord, if_neg hkeep, if_neg hnone]⟩
  · by_cases hfull : max < st.used + 1 + width cell word
    · have hbreak : 0 < st.used ∧ max < st.used + 1 + width cell word := ⟨hpos, hfull⟩
      exact .inr (.inl ⟨hpos, hfull, by simp only [startWord, if_pos hbreak]; rfl⟩)
    · have hkeep : ¬(0 < st.used ∧ max < st.used + 1 + width cell word) := fun h => hfull h.2
      exact .inr (.inr ⟨hpos, Nat.le_of_not_lt hfull,
        by simp only [startWord, if_neg hkeep, if_pos hpos]⟩)

theorem Fits.startWord (h : Fits cell max st) (hspace : cell ' ' = 1) (word : Text) :
    Fits cell max (st.startWord cell max word) := by
  rcases startWord_cases cell max st word with
    ⟨-, heq⟩ | ⟨-, -, heq⟩ | ⟨-, hroom, heq⟩
  · rw [heq]
    exact h
  · rw [heq]
    exact h.push
  · rw [heq, ← hspace]
    exact h.add (by omega)

theorem Fits.putWord (h : Fits cell max st) (hspace : cell ' ' = 1) (hmax : ∀ c, cell c ≤ max)
    (word : Text) : Fits cell max (st.putWord cell max word) :=
  (h.startWord hspace word).putChars hmax word

/-! ## one word -/

theorem joined_putChar (st : Wrapping) (c : Char) : (st.putChar cell max c).joined =
    st.joined ++ ((if max < st.used + cell c then ['\n'] else []) ++ [c]) := by
  rw [putChar]
  split <;> simp

/-- the characters of a word, with line breaks among them -/
theorem joined_putChars (st : Wrapping) (word : Text) :
    ∃ out, (word.foldl (putChar cell max) st).joined = st.joined ++ out ∧
      nonBlank out = nonBlank word ∧ (word ≠ [] → out.getLast? = word.getLast?) := by
  induction word generalizing st with
  | nil => exact ⟨[], by simp, rfl, fun h => absurd rfl h⟩
  | cons c word ih =>
    obtain ⟨out, hout, hkept, hlast⟩ := ih (st.putChar cell max c)
    refine ⟨((if max < st.used + cell c then ['\n'] else []) ++ [c]) ++ out, ?_, ?_, fun _ => ?_⟩
    · rw [List.foldl_cons, hout, joined_putChar, List.append_assoc]
    · have hbreak : nonBlank (if max < st.used + cell c then ['\n'] else []) = [] := by
        split <;> rfl
      rw [nonBlank_append, nonBlank_append, hbreak, hkept, List.nil_append, ← nonBlank_append]
      rfl
    · cases word with
      | nil =>
        have hnil : out = [] := by
          have hsame := hout.symm
          simpa using hsame
        rw [hnil, List.append_nil, List.getLast?_concat, List.getLast?_singleton]
      | cons d word =>
        have hend := hlast (List.cons_ne_nil d word)
        rw [List.getLast?_append, hend, List.getLast?_cons_cons]
        exact Option.or_of_isSome (by simp)

/-- a word for which there is room stays whole -/
theorem putChars_fit (h : st.used + width cell word ≤ max) :
    word.foldl (putChar cell max) st =
      { st with line := st.line ++ word, used := st.used + width cell word } := by
  induction word generalizing st with
  | nil => simp [width]
  | cons c word ih =>
    have hcons : width cell (c :: word) = cell c + width cell word := by simp [width]
    rw [hcons] at h ⊢
    have hput : st.putChar cell max c = st.add c (cell c) := by
      rw [putChar, if_neg (by omega)]
    rw [List.foldl_cons, hput, ih (by show st.used + cell c + _ ≤ max; omega)]
    simp [add, Nat.add_assoc]

/-- the first character of a word stays on the line if the counter stands at zero -/
theorem putChars_head {c : Char} (hzero : st.used = 0) (hc : cell c ≤ max) (word : Text) :
    ∃ rest, ((c :: word).foldl (putChar cell max) st).joined = st.joined ++ c :: rest := by
  have hput : st.putChar cell max c = st.add c (cell c) := by
    rw [putChar, if_neg (by omega)]
  obtain ⟨out, hout, -⟩ := joined_putChars (st.add c (cell c)) word
  refine ⟨out, ?_⟩
  rw [List.foldl_cons, hput, hout, joined_add, List.append_assoc, List.singleton_append]

/-- **what a word adds: a separator, but where the counter stands at zero, and its characters** -/
theorem putWord_joined (hword : word ≠ []) (hmax : ∀ c, cell c ≤ max) (st : Wrapping) :
    ∃ sep out, (st.putWord cell max word).joined = st.joined ++ sep ++ out ∧
      nonBlank out = nonBlank word ∧ out.getLast? = word.getLast? ∧
      (width cell word ≤ max → out = word) ∧
      (0 < st.used → sep = [' '] ∨ sep = ['\n']) ∧
      (st.used = 0 → sep = [] ∧ out.head? = word.head?) := by
  obtain ⟨out, hout, hkept, hlast⟩ :=
    joined_putChars (st.startWord cell max word) word
  have hwhole (hroom : (st.startWord cell max word).used + width cell word ≤ max) : out = word := by
    rw [putChars_fit hroom] at hout
    simpa [joined] using hout.symm
  rcases startWord_cases cell max st word with
    ⟨hzero, heq⟩ | ⟨hpos, hfull, heq⟩ | ⟨hpos, hroom, heq⟩
  · refine ⟨[], out, ?_, hkept, hlast hword, fun hle => hwhole ?_, fun hpos => by omega,
      fun _ => ⟨rfl, ?_⟩⟩
    · rw [putWord, hout, heq, List.append_nil]
    · rw [heq, hzero]
      omega
    · cases word with
      | nil => exact absurd rfl hword
      | cons c word =>
        rw [heq] at hout
        obtain ⟨rest, hrest⟩ := putChars_head hzero (hmax c) word
        rw [hrest] at hout
        rw [← List.append_cancel_left hout]
        rfl
  · refine ⟨['\n'], out, ?_, hkept, hlast hword, fun hle => hwhole ?_, fun _ => .inr rfl,
      fun hzero => by omega⟩
    · rw [putWord, hout, heq, joined_push]
    · rw [heq]
      simpa [push] using hle
  · refine ⟨[' '], out, ?_, hkept, hlast hword, fun _ => hwhole ?_, fun _ => .inl rfl,
      fun hzero => by omega⟩
    · rw [putWord, hout, heq, joined_add]
    · rw [heq]
      exact hroom

theorem putChars_used (st : Wrapping) (hle : st.used ≤ max) (hmax : ∀ c, cell c ≤ max)
    (word : Text) : (0 < st.used + width cell word → 0 < (word.foldl (putChar cell max) st).used) ∧
      (width cell word = 0 → (word.foldl (putChar cell max) st).used = st.used) := by
  induction word generalizing st with
  | nil => simp [width]
  | cons c word ih =>
    have hcons : width cell (c :: word) = cell c + width cell word := by simp [width]
    rw [hcons, List.foldl_cons]
    by_cases hfull : max < st.used + cell c
    · have hput : (st.putChar cell max c).used = cell c := by
        rw [putChar, if_pos hfull]
        exact Nat.zero_add _
      obtain ⟨hpos, -⟩ := ih (st.putChar cell max c) (by rw [hput]; exact hmax c)
      rw [hput] at hpos
      exact ⟨fun _ => hpos (by omega), fun hzero => by omega⟩
    · have hput : (st.putChar cell max c).used = st.used + cell c := by
        rw [putChar, if_neg hfull]
        rfl
      obtain ⟨hpos, hkeep⟩ := ih (st.putChar cell max c) (by rw [hput]; omega)
      rw [hput] at hpos hkeep
      exact ⟨fun h => hpos (by omega), fun hzero => by rw [hkeep (by omega)]; omega⟩

/-- the counter after a word -/
theorem putWord_used (hle : st.used ≤ max) (hmax : ∀ c, cell c ≤ max) (word : Text) :
    (0 < width cell word → 0 < (st.putWord cell max word).used) ∧
      (width cell word = 0 → (st.putWord cell max word).used =
        if 0 < st.used ∧ st.used < max then st.used + 1 else 0) := by
  rcases startWord_cases cell max st word with
    ⟨hzero, heq⟩ | ⟨hpos, hfull, heq⟩ | ⟨hpos, hroom, heq⟩
  · obtain ⟨hgrows, hkeeps⟩ := putChars_used st hle hmax word
    rw [putWord, heq, if_neg fun h => by omega]
    exact ⟨fun h => hgrows (by omega), fun h => by rw [hkeeps h, hzero]⟩
  · obtain ⟨hgrows, hkeeps⟩ := putChars_used st.push (Nat.zero_le max) hmax word
    rw [putWord, heq]
    refine ⟨fun h => hgrows (Nat.add_pos_right _ h), fun h => ?_⟩
    rw [hkeeps h, if_neg fun h' => by omega]
    rfl
  · have hadd : (st.add ' ' 1).used ≤ max := by
      show st.used + 1 ≤ max
      omega
    obtain ⟨hgrows, hkeeps⟩ := putChars_used _ hadd hmax word
    rw [putWord, heq]
    refine ⟨fun h => hgrows (Nat.add_pos_right _ h), fun h => ?_⟩
    rw [hkeeps h, if_pos ⟨hpos, by omega⟩]
    rfl

/-! ## words one after the other -/

variable {words : List Text}

/-- words: not empty, and without whitespace -/
def AreWords (words : List Text) : Prop := ∀ w ∈ words, w ≠ [] ∧ w.all notWhitespace = true

theorem nonBlank_word (h : word.all notWhitespace = true) : nonBlank word = word :=
  List.filter_eq_self.2 (List.all_eq_true.1 h)

theorem nonBlank_sep {sep out : Text} (hpos : 0 < st.used → sep = [' '] ∨ sep = ['\n'])
    (hzero : st.used = 0 → sep = [] ∧ out.head? = word.head?) : nonBlank sep = [] := by
  rcases Nat.eq_zero_or_pos st.used with h | h
  · rw [(hzero h).1]
    rfl
  · rcases hpos h with rfl | rfl <;> rfl

/-- **no character of a word is dropped, and none is added** -/
theorem nonBlank_putWords (hwords : AreWords words) (hmax : ∀ c, cell c ≤ max) (st : Wrapping) :
    nonBlank (words.foldl (putWord cell max) st).joined = nonBlank st.joined ++ words.flatten := by
  induction words generalizing st with
  | nil => simp
  | cons w words ih =>
    obtain ⟨⟨hne, hall⟩, hrest⟩ := List.forall_mem_cons.1 hwords
    obtain ⟨sep, out, hput, hkept, -, -, hpos, hzero⟩ := putWord_joined hne hmax st
    rw [List.foldl_cons, ih hrest, hput, nonBlank_append, nonBlank_append, nonBlank_sep hpos hzero,
      hkept, nonBlank_word hall, List.append_nil, List.append_assoc, List.flatten_cons]

theorem putWords_grows (hwords : AreWords words) (hmax : ∀ c, cell c ≤ max) (st : Wrapping) :
    ∃ rest, (words.foldl (putWord cell max) st).joined = st.joined ++ rest := by
  induction words generalizing st with
  | nil => exact ⟨[], (List.append_nil _).symm⟩
  | cons w words ih =>
    obtain ⟨⟨hne, -⟩, hrest⟩ := List.forall_mem_cons.1 hwords
    obtain ⟨sep, out, hput, -⟩ := putWord_joined hne hmax st
    obtain ⟨rest, hgrow⟩ := ih hrest (st.putWord cell max w)
    refine ⟨sep ++ out ++ rest, ?_⟩
    rw [List.foldl_cons, hgrow, hput]
    simp

theorem Fits.putWords (h : Fits cell max st) (hspace : cell ' ' = 1) (hmax : ∀ c, cell c ≤ max)
    (words : List Text) : Fits cell max (words.foldl (Wrapping.putWord cell max) st) := by
  induction words generalizing st with
  | nil => exact h
  | cons w words ih => exact ih (h.putWord hspace hmax w)

/-- a line that has room for more words keeps them -/
theorem putWords_room (words : List Text) (hpos : 0 < st.used)
    (hroom : st.used + (words.map fun w => 1 + width cell w).sum ≤ max) :
    (words.foldl (putWord cell max) st).used =
      st.used + (words.map fun w => 1 + width cell w).sum := by
  induction words generalizing st with
  | nil => rfl
  | cons w words ih =>
    rw [List.map_cons, List.sum_cons] at hroom ⊢
    have hput : (st.putWord cell max w).used = st.used + 1 + width cell w := by
      rcases startWord_cases cell max st w with ⟨hzero, -⟩ | ⟨-, hfull, -⟩ | ⟨-, hle, heq⟩
      · omega
      · omega
      · rw [putWord, heq, putChars_fit (by exact hle)]
        rfl
    rw [List.foldl_cons, ih (by omega) (by omega), hput]
    omega

end Wrapping

/-! ## a paragraph -/

open Wrapping

variable {paragraph : Text} {before behind : List Text}

/-- the state before a word of a paragraph -/
def runWords (cell : Char → Nat) (max : Nat) (words : List Text) : Wrapping :=
  words.foldl (putWord cell max) .new

theorem joinLines_concat (lines : List Text) (line : Text) :
    joinLines (lines ++ [line]) = unlines lines ++ line := by
  rw [joinLines]
  by_cases h : lines = []
  · rw [h]
    exact List.intercalate_singleton ..
  · rw [intercalate_concat h, unlines_eq_intercalate h, List.append_assoc, List.singleton_append]

theorem joinLines_wrapParagraph (cell : Char → Nat) (max : Nat) (paragraph : Text) :
    joinLines (wrapParagraph cell max paragraph) =
      (runWords cell max (splitWhitespace paragraph)).joined :=
  joinLines_concat _ _

theorem areWords_splitWhitespace (paragraph : Text) : AreWords (splitWhitespace paragraph) :=
  fun _ hw => words_all hw

theorem nonBlank_unlines (lines : List Text) :
    nonBlank (unlines lines) = nonBlank lines.flatten := by
  induction lines with
  | nil => rfl
  | cons l lines ih =>
    have hbreak : nonBlank ('\n' :: unlines lines) = nonBlank (unlines lines) := rfl
    rw [unlines_cons, List.flatten_cons, nonBlank_append, nonBlank_append, hbreak, ih]

example : nonBlank "a b\n".toList = "ab".toList := by decide +kernel

theorem flatten_runs {off : Nat} {s : Text} {rs : List (Run Char)}
    (h : Runs notWhitespace off s rs) : (rs.map Run.text).flatten = nonBlank s := by
  have hgap {g : Text} (hg : g.all (fun c => !notWhitespace c) = true) : nonBlank g = [] :=
    List.filter_eq_nil_iff.2 fun c hc => by simpa using List.all_eq_true.1 hg c hc
  induction h with
  | gap hg => exact (hgap hg).symm
  | run hg ht hne hs h ih =>
    rw [nonBlank_append, nonBlank_append, hgap hg, nonBlank_word ht, List.nil_append, List.map_cons,
      List.flatten_cons, ih]

theorem flatten_words (s : Text) : (splitWhitespace s).flatten = nonBlank s :=
  flatten_runs (runs_spec notWhitespace 0 s)

theorem areWords_before (h : splitWhitespace paragraph = before ++ word :: behind) :
    AreWords before ∧ (word ≠ [] ∧ word.all notWhitespace = true) ∧ AreWords behind := by
  have hall := areWords_splitWhitespace paragraph
  rw [h] at hall
  exact ⟨fun w hw => hall w (by simp [hw]), hall word (by simp), fun w hw => hall w (by simp [hw])⟩

/-- a word of a paragraph among the lines -/
theorem placed (hmax : ∀ c, cell c ≤ max)
    (h : splitWhitespace paragraph = before ++ word :: behind) :
    ∃ sep out rest, joinLines (wrapParagraph cell max paragraph) =
        (runWords cell max before).joined ++ sep ++ out ++ rest ∧
      nonBlank (runWords cell max before).joined = before.flatten ∧ nonBlank sep = [] ∧
      (width cell word ≤ max → out = word) ∧
      (0 < (runWords cell max before).used → sep = [' '] ∨ sep = ['\n']) ∧
      ((runWords cell max before).used = 0 → sep = [] ∧ out.head? = word.head?) := by
  obtain ⟨hbefore, ⟨hne, hall⟩, hbehind⟩ := areWords_before h
  obtain ⟨sep, out, hput, hkept, -, hwhole, hpos, hzero⟩ :=
    putWord_joined hne hmax (runWords cell max before)
  obtain ⟨rest, hgrow⟩ :=
    putWords_grows hbehind hmax ((runWords cell max before).putWord cell max word)
  refine ⟨sep, out, rest, ?_, ?_, nonBlank_sep hpos hzero, hwhole, hpos, hzero⟩
  · rw [joinLines_wrapParagraph, h, runWords, List.foldl_append, List.foldl_cons]
    rw [← runWords, hgrow, hput]
  · exact (nonBlank_putWords hbefore hmax .new).trans (List.nil_append _)

/-- **everything but the separation is kept of every paragraph; that is kept where the counter is
not at zero behind a word** -/
theorem wrapped_of_counter (hmax : ∀ c, cell c ≤ max) (hspace : cell ' ' = 1)
    (hcounter : ∀ before word behind, splitWhitespace paragraph = before ++ word :: behind →
      before ≠ [] → 0 < (runWords cell max before).used) : Wrapped cell max paragraph where
  width := by
    have hfits : Fits cell max (runWords cell max (splitWhitespace paragraph)) :=
      Fits.new.putWords hspace hmax _
    exact List.forall_mem_append.2
      ⟨hfits.lines, List.forall_mem_singleton.2 (hfits.used ▸ hfits.line)⟩
  kept := by
    have hkept := nonBlank_putWords (areWords_splitWhitespace paragraph) hmax .new
    rw [flatten_words, Wrapping.joined, nonBlank_append, nonBlank_unlines, ← nonBlank_append] at hkept
    rw [wrapParagraph, List.flatten_append, List.flatten_singleton]
    exact hkept
  separated before word behind h hne := by
    obtain ⟨sep, out, rest, hlines, hbefore, -, -, hpos, -⟩ := placed hmax h
    rcases hpos (hcounter before word behind h hne) with rfl | rfl
    · exact ⟨_, ' ', out ++ rest, by rw [hlines]; simp, .inl rfl, hbefore⟩
    · exact ⟨_, '\n', out ++ rest, by rw [hlines]; simp, .inr rfl, hbefore⟩
  unsplit before word behind h hle := by
    obtain ⟨sep, out, rest, hlines, hbefore, hsep, hwhole, -, -⟩ := placed hmax h
    refine ⟨_, rest, hwhole hle ▸ hlines, ?_⟩
    rw [nonBlank_append, hbefore, hsep, List.append_nil]
  line := by simp [wrapParagraph]

/-- a text between words ends with the last character of a word -/
theorem runWords_last (hmax : ∀ c, cell c ≤ max) (hwords : AreWords before) (hne : before ≠ []) :
    ∃ y, (runWords cell max before).joined.getLast? = some y ∧ notWhitespace y = true := by
  obtain ⟨init, last, rfl⟩ := (List.eq_nil_or_concat before).resolve_left hne
  rw [List.concat_eq_append] at hwords ⊢
  obtain ⟨hlast, hall⟩ := hwords last (by simp)
  obtain ⟨sep, out, hput, -, hend, -⟩ := putWord_joined hlast hmax (runWords cell max init)
  obtain ⟨y, hy⟩ : ∃ y, last.getLast? = some y := ⟨_, List.getLast?_eq_some_getLast hlast⟩
  refine ⟨y, ?_, List.all_eq_true.1 hall y (List.mem_of_getLast? hy)⟩
  have hrun : runWords cell max (init ++ [last]) =
      (runWords cell max init).putWord cell max last := by
    rw [runWords, List.foldl_append]
    rfl
  rw [hrun, hput, List.getLast?_append, hend, hy]
  rfl

/-- no separator stands between two texts that touch -/
theorem no_separator {A B a b : Text} {x y c : Char} (hy : A.getLast? = some y)
    (hylack : notWhitespace y = true) (hx : notWhitespace x = true) (hc : notWhitespace c = false)
    (h : A ++ x :: B = a ++ c :: b) : nonBlank a ≠ nonBlank A := by
  intro hsame
  rcases List.append_eq_append_iff.1 h with ⟨d, rfl, hd⟩ | ⟨d, rfl, hd⟩
  · -- the separator stands behind the joint, so one word more stands before it
    cases d with
    | nil =>
      rw [List.nil_append] at hd
      rw [(List.cons.inj hd).1, hc] at hx
      cases hx
    | cons e d =>
      have hlen := congrArg List.length hsame
      rw [← (List.cons.inj hd).1, nonBlank_append, nonBlank, nonBlank,
        List.filter_cons_of_pos hx] at hlen
      simp at hlen
  · -- it stands before the joint, so the last character before it is missing
    cases d with
    | nil =>
      rw [List.nil_append] at hd
      rw [← (List.cons.inj hd).1, hc] at hx
      cases hx
    | cons e d =>
      rw [nonBlank_append] at hsame
      have hnil := List.self_eq_append_right.1 hsame
      have hmem : y ∈ e :: d := by
        rw [List.getLast?_append, List.getLast?_eq_some_getLast (List.cons_ne_nil e d)] at hy
        have heq : (e :: d).getLast (List.cons_ne_nil e d) = y := Option.some.inj hy
        exact heq ▸ List.getLast_mem (List.cons_ne_nil e d)
      exact List.filter_eq_nil_iff.1 hnil y hmem hylack

/-- **where it is at zero, two words are glued together** -/
theorem glued (hmax : ∀ c, cell c ≤ max) (h : splitWhitespace paragraph = before ++ word :: behind)
    (hne : before ≠ []) (hzero : (runWords cell max before).used = 0) :
    ¬ Wrapped cell max paragraph := by
  intro hwrapped
  obtain ⟨hbefore, ⟨hword, hall⟩, -⟩ := areWords_before h
  obtain ⟨y, hy, hylack⟩ := runWords_last hmax hbefore hne
  obtain ⟨sep, out, rest, hlines, hflat, -, -, -, htouch⟩ := placed hmax h
  obtain ⟨rfl, hhead⟩ := htouch hzero
  obtain ⟨x, tail, rfl⟩ := List.exists_cons_of_ne_nil hword
  obtain ⟨tail', rfl⟩ : ∃ tail', out = x :: tail' := List.head?_eq_some_iff.1 hhead
  obtain ⟨a, c, b, hplace, hc, ha⟩ := hwrapped.separated before (x :: tail) behind h hne
  rw [hlines, List.append_nil, List.append_assoc, List.cons_append] at hplace
  have hblank : notWhitespace c = false := by rcases hc with rfl | rfl <;> decide
  rw [← hflat] at ha
  exact no_separator hy hylack (List.all_eq_true.1 hall x List.mem_cons_self) hblank hplace ha

theorem runWords_concat (words : List Text) (w : Text) :
    runWords cell max (words ++ [w]) = (runWords cell max words).putWord cell max w := by
  rw [runWords, List.foldl_append]
  rfl

/-- the counter after words that fit on one line -/
theorem runWords_room {first : Text} (others : List Text) (hpos : 0 < width cell first)
    (hroom : width cell first + (others.map fun w => 1 + width cell w).sum ≤ max) :
    (runWords cell max (first :: others)).used =
      width cell first + (others.map fun w => 1 + width cell w).sum := by
  have hfirst : (Wrapping.new.putWord cell max first).used = width cell first := by
    have hstart : Wrapping.new.startWord cell max first = .new := by
      rcases startWord_cases cell max .new first with ⟨-, heq⟩ | ⟨hfalse, -⟩ | ⟨hfalse, -⟩
      · exact heq
      · cases hfalse
      · cases hfalse
    rw [putWord, hstart, putChars_fit (by show 0 + width cell first ≤ max; omega)]
    exact Nat.zero_add _
  rw [runWords, List.foldl_cons, putWords_room others (by omega) (by omega), hfirst]

/-- **where the counter is not at zero behind a word** -/
theorem counter_pos (hmax : 2 ≤ max) (hcell : ∀ c, cell c ≤ 2) (hspace : cell ' ' = 1)
    (hzero : ∀ before word behind, splitWhitespace paragraph = before ++ word :: behind →
      width cell word = 0 → behind ≠ [] → ∃ first, before = [first] ∧ width cell first = 1)
    (h : splitWhitespace paragraph = before ++ word :: behind) (hne : before ≠ []) :
    0 < (runWords cell max before).used := by
  have hcells (c) : cell c ≤ max := Nat.le_trans (hcell c) hmax
  obtain ⟨init, last, rfl⟩ := (List.eq_nil_or_concat before).resolve_left hne
  rw [List.concat_eq_append] at h ⊢
  rw [List.append_assoc, List.singleton_append] at h
  have hle : (runWords cell max init).used ≤ max :=
    (Fits.new.putWords hspace hcells init).line
  obtain ⟨hwide, hnone⟩ := putWord_used hle hcells last
  rw [runWords_concat]
  rcases Nat.eq_zero_or_pos (width cell last) with hlast | hlast
  · obtain ⟨first, rfl, hone⟩ := hzero init last _ h hlast (List.cons_ne_nil _ _)
    have hused : (runWords cell max [first]).used = 1 := by
      rw [runWords_room [] (by omega) (by simp; omega), hone]
      rfl
    rw [hnone hlast, hused, if_pos ⟨Nat.one_pos, hmax⟩]
    exact Nat.succ_pos _
  · exact hwide hlast

/-- **a word without columns that has a word behind it is glued to it, at some width, unless it
stands second, behind a word of one column** -/
theorem zero_word (hcell : ∀ c, cell c ≤ 2)
    (hwraps : ∀ max, 2 ≤ max → Wrapped cell max paragraph)
    (h : splitWhitespace paragraph = before ++ word :: behind) (hword : width cell word = 0)
    (hbehind : behind ≠ []) : ∃ first, before = [first] ∧ width cell first = 1 := by
  -- a first word without columns leaves the counter at zero, whatever the width
  have hfirst (w : Text) (ws : List Text) (hp : splitWhitespace paragraph = w :: ws)
      (hws : ws ≠ []) : 0 < width cell w := by
    refine Nat.pos_of_ne_zero fun hw => ?_
    obtain ⟨next, ws, rfl⟩ := List.exists_cons_of_ne_nil hws
    have hused : (runWords cell 2 [w]).used = 0 :=
      (putWord_used (Nat.zero_le 2) hcell w).2 hw
    exact glued hcell (show _ = [w] ++ next :: ws from hp) (List.cons_ne_nil _ _) hused
      (hwraps 2 (Nat.le_refl 2))
  obtain ⟨next, behind, rfl⟩ := List.exists_cons_of_ne_nil hbehind
  cases before with
  | nil => exact absurd (hfirst word _ h hbehind) (by omega)
  | cons first others =>
    have hpos : 0 < width cell first := hfirst first _ h (by simp)
    by_cases htotal : width cell first + (others.map fun w => 1 + width cell w).sum = 1
    · cases others with
      | nil => exact ⟨first, rfl, htotal⟩
      | cons o others =>
        rw [List.map_cons, List.sum_cons] at htotal
        omega
    · -- at the width that the words before it fill, it goes to a line of its own
      generalize hT : width cell first + (others.map fun w => 1 + width cell w).sum = T at htotal
      have htwo : 2 ≤ T := by omega
      have hcells (c) : cell c ≤ T := Nat.le_trans (hcell c) htwo
      have hfull : (runWords cell T (first :: others)).used = T := by
        rw [runWords_room others hpos (Nat.le_of_eq hT), hT]
      have hused : (runWords cell T (first :: others ++ [word])).used = 0 := by
        rw [runWords_concat, (putWord_used (Nat.le_of_eq hfull) hcells word).2 hword, hfull,
          if_neg fun h => by omega]
      have hnext : splitWhitespace paragraph = (first :: others ++ [word]) ++ next :: behind := by
        rw [h]
        simp
      exact absurd (hwraps T htwo) (glued hcells hnext (by simp) hused)

/-- **wrapping keeps its promises at every width from two on exactly when each word without columns
is the last of its paragraph, or stands second, behind a word of one column** -/
theorem wrap_iff (cell : Char → Nat) (hcell : ∀ c, cell c ≤ 2) (hspace : cell ' ' = 1)
    (text : Text) : (∀ max, 2 ≤ max → Wraps cell max text) ↔
      ∀ paragraph ∈ text.splitOn '\n', ∀ before word behind,
        splitWhitespace paragraph = before ++ word :: behind → width cell word = 0 → behind ≠ [] →
          ∃ first, before = [first] ∧ width cell first = 1 := by
  constructor
  · intro h paragraph hp before word behind hsplit hword hbehind
    exact zero_word hcell (fun max hmax => (h max hmax).wrapped paragraph hp) hsplit hword hbehind
  · intro h max hmax
    have hone : max.max 1 = max := Nat.max_eq_left (Nat.one_le_of_lt hmax)
    refine ⟨by rw [wrap, hone], fun paragraph hp => ?_⟩
    have hcells (c) : cell c ≤ max := Nat.le_trans (hcell c) hmax
    exact wrapped_of_counter hcells hspace fun before word behind hsplit hne =>
      counter_pos hmax hcell hspace (h paragraph hp) hsplit hne

/-- one column for each character, and none for a combining accent -/
def plainCell (c : Char) : Nat := if c = '\u0301' then 0 else 1

theorem plainCell_le (c : Char) : plainCell c ≤ 2 := by
  rw [plainCell]
  split <;> omega

theorem wrap_iff_accent : Wraps plainCell 7 "e\u0301te\u0301 abc".toList := by
  refine (wrap_iff plainCell plainCell_le rfl _).2 (fun paragraph hp before word behind h hword => ?_)
    7 (by decide)
  obtain rfl : paragraph = "e\u0301te\u0301 abc".toList := by
    have hone : ("e\u0301te\u0301 abc".toList).splitOn '\n' = ["e\u0301te\u0301 abc".toList] := by
      decide
    rw [hone] at hp
    exact List.mem_singleton.1 hp
  have hwide : ∀ w ∈ splitWhitespace "e\u0301te\u0301 abc".toList, width plainCell w ≠ 0 := by
    decide
  exact absurd hword (hwide word (h ▸ by simp))

/-- the accent alone leaves the counter at zero, and the next word is put right behind it -/
theorem wrap_glues : (∀ c, plainCell c ≤ 2) ∧ plainCell ' ' = 1 ∧
    wrap plainCell "\u0301 abc".toList 7 = ["\u0301abc".toList] ∧
    ¬ Wraps plainCell 7 "\u0301 abc".toList := by
  refine ⟨plainCell_le, rfl, by decide, fun h => ?_⟩
  obtain ⟨a, c, b, hlines, hc, -⟩ := (h.wrapped "\u0301 abc".toList (by decide)).separated
    ["\u0301".toList] "abc".toList [] (by decide) (by decide)
  have hmem : c ∈ joinLines (wrapParagraph plainCell 7 "\u0301 abc".toList) := by
    rw [hlines]
    simp
  rcases hc with rfl | rfl <;> exact absurd hmem (by decide)

end

end Voisu.Tui
