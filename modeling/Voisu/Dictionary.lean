import Mathlib
import Voisu.Hyprland.Lua
import Voisu.Lib.Casing
import Voisu.Lib.Lines
import Voisu.Lib.Lines
import Voisu.Lib.Lowercase

/-!
# The user dictionary

A text file with a term on each line, a comment behind a `#` that stands first or behind whitespace.
The parser, the command that adds and the command that removes take the lines of it apart in three
different ways.

* `parseUserTerms`                       the terms;
* `addUserTermAt`, `removeUserTermAt`    the commands, on a file that can fail;
* `lineTerm`                             the term of a line, which all three ways read;
* `plainTerm_toLowercase`                lowercasing moves no comment and no line break;
* `Managed`                              what the commands promise;
* `managed`                              **they keep it**.
-/

namespace Voisu.Dictionary
open Lib
open Hyprland (splitInclusive splitInclusiveFrom)

/-! ## terms -/

/-- `precededByWhitespace` says so of the place where the text begins -/
def stripCommentFrom (precededByWhitespace : Bool) : Text → Text
  | [] => []
  | c :: rest =>
    if c == '#' && precededByWhitespace then []
    else c :: stripCommentFrom (isWhitespace c) rest

def stripComment (line : Text) : Text := stripCommentFrom true line

def parseUserTerms (contents : Text) : List Text :=
  (strLines contents).filterMap fun line =>
    let term := trim (stripComment line)
    if term.isEmpty then none else some term

def comparisonKey (term : Text) : Text := toLowercase (trim term)

inductive DictionaryError where
  /-- `dictionary term must be one non-empty line` -/
  | notOneLine
  /-- the term contains a `#` comment marker -/
  | commentMarker (term : Text)
  | cannotLock
  | cannotRead
  | cannotWrite
deriving DecidableEq, Repr

def validatedTerm (term : Text) : Except DictionaryError Text :=
  let term := trim term
  if term.isEmpty || term.any (fun c => c == '\n' || c == '\r') then .error .notOneLine
  else .ok term

def validatedAddTerm (term : Text) : Except DictionaryError Text :=
  match validatedTerm term with
  | .error error => .error error
  | .ok term => if stripComment term ≠ term then .error (.commentMarker term) else .ok term

/-! ## the commands -/

/-- what works during a call: the lock, reading a file that is there, replacing it -/
structure Disk where
  lock : Bool
  read : Bool
  write : Bool
deriving DecidableEq, Repr

/-- a file that is missing reads as an empty one -/
def contentsOf (file : Option Text) : Text := file.getD []

def readDictionaryContents (disk : Disk) (file : Option Text) : Except DictionaryError Text :=
  if file.isSome && !disk.read then .error .cannotRead else .ok (contentsOf file)

/-- the file is replaced as a whole or not at all -/
def writeUserDictionary (disk : Disk) (file : Option Text) (contents : Text) :
    Except DictionaryError Bool × Option Text :=
  if disk.write then (.ok true, some contents) else (.error .cannotWrite, file)

/-- the text with a line for the term -/
def withTerm (existing term : Text) : Text :=
  (if !existing.isEmpty && existing.getLast? != some '\n' then existing ++ ['\n'] else existing) ++
    term ++ ['\n']

def addUserTermAt (disk : Disk) (file : Option Text) (term : Text) :
    Except DictionaryError Bool × Option Text :=
  match validatedAddTerm term with
  | .error error => (.error error, file)
  | .ok term =>
    if !disk.lock then (.error .cannotLock, file)
    else match readDictionaryContents disk file with
      | .error error => (.error error, file)
      | .ok existing =>
        if (parseUserTerms existing).any fun existingTerm =>
            comparisonKey existingTerm == comparisonKey term then (.ok false, file)
        else writeUserDictionary disk file (withTerm existing term)

/-- a line without its break, and without the carriage returns before that -/
def lineContent (line : Text) : Text :=
  trimEndMatches (· == '\r') (if line.getLast? = some '\n' then line.dropLast else line)

def lineMatches (term line : Text) : Bool :=
  comparisonKey (stripComment (lineContent line)) == comparisonKey term

def removeUserTermAt (disk : Disk) (file : Option Text) (term : Text) :
    Except DictionaryError Bool × Option Text :=
  match validatedTerm term with
  | .error error => (.error error, file)
  | .ok term =>
    if !disk.lock then (.error .cannotLock, file)
    else match readDictionaryContents disk file with
      | .error error => (.error error, file)
      | .ok existing =>
        if !(splitInclusive existing).any (lineMatches term) then (.ok false, file)
        else writeUserDictionary disk file
          ((splitInclusive existing).filter fun line => !lineMatches term line).flatten

/-! ## the term of a line -/

def lineTerm (line : Text) : Text := trim (stripComment line)

section
variable {s line contents term : Text} {ls : List Text}

/-- whitespace behind a line is cut off with its comment, or stays behind it -/
theorem stripCommentFrom_append {w : Text} (hw : ∀ c ∈ w, isWhitespace c = true) (p : Bool)
    (s : Text) : stripCommentFrom p (s ++ w) = stripCommentFrom p s ∨
      stripCommentFrom p (s ++ w) = stripCommentFrom p s ++ w := by
  induction s generalizing p with
  | nil =>
    refine .inr ?_
    induction w generalizing p with
    | nil => rfl
    | cons c w ih =>
      have hc : (c == '#') = false := by
        rw [beq_eq_false_iff_ne]
        rintro rfl
        exact absurd (hw '#' List.mem_cons_self) (by decide)
      rw [List.nil_append, stripCommentFrom, List.nil_append, stripCommentFrom, hc, Bool.false_and,
        if_neg Bool.false_ne_true]
      exact congrArg (c :: ·) (ih (fun d hd => hw d (List.mem_cons_of_mem _ hd)) _)
  | cons c s ih =>
    rw [List.cons_append, stripCommentFrom, stripCommentFrom]
    split
    · exact .inl rfl
    · rcases ih (isWhitespace c) with h | h
      · exact .inl (congrArg (c :: ·) h)
      · exact .inr (congrArg (c :: ·) h)

/-- **whitespace behind a line does not change its term** -/
theorem lineTerm_append {w : Text} (hw : ∀ c ∈ w, isWhitespace c = true) (line : Text) :
    lineTerm (line ++ w) = lineTerm line := by
  rw [lineTerm, lineTerm, stripComment, stripComment]
  rcases stripCommentFrom_append hw true line with h | h
  · rw [h]
  · rw [h, trim_append hw]

theorem lineTerm_chompReturn (line : Text) : lineTerm (chompReturn line) = lineTerm line := by
  rw [chompReturn]
  split
  next h =>
    obtain ⟨body, rfl⟩ := List.getLast?_eq_some_iff.1 h
    rw [List.dropLast_concat, lineTerm_append (by decide)]
  next => rfl

/-- what the command that removes takes off a line is whitespace -/
theorem lineTerm_lineContent (line : Text) : lineTerm (lineContent line) = lineTerm line := by
  rw [lineContent]
  have hbreak : lineTerm (if line.getLast? = some '\n' then line.dropLast else line) =
      lineTerm line := by
    split
    next h =>
      obtain ⟨body, rfl⟩ := List.getLast?_eq_some_iff.1 h
      rw [List.dropLast_concat, lineTerm_append (by decide)]
    next => rfl
  obtain ⟨g, hsplit, hall, -⟩ := trimEndMatches_split (· == '\r')
    (if line.getLast? = some '\n' then line.dropLast else line)
  have hblank : ∀ c ∈ g, isWhitespace c = true := by
    intro c hc
    have hreturn : c = '\r' := beq_iff_eq.1 (List.all_eq_true.1 hall c hc)
    rw [hreturn]
    decide
  rw [← hbreak]
  conv_rhs => rw [hsplit]
  exact (lineTerm_append hblank _).symm

/-! ## the lines of a text -/

/-- the line behind the last break, where there is one -/
def lastLine (last : Text) : List Text := if last.isEmpty then [] else [last]

theorem strLines_unlines_last {last : Text} (h : ∀ l ∈ ls, '\n' ∉ l) (hlast : '\n' ∉ last) :
    strLines (unlines ls ++ last) = ls.map chompReturn ++ lastLine last := by
  rw [strLines_unlines_append h, strLines, List.splitOn_eq_singleton hlast]
  rfl

theorem splitInclusiveFrom_append {l : Text} (h : '\n' ∉ l) (line rest : Text) :
    splitInclusiveFrom line (l ++ rest) = splitInclusiveFrom (line ++ l) rest := by
  induction l generalizing line with
  | nil => rw [List.nil_append, List.append_nil]
  | cons c l ih =>
    rw [List.mem_cons, not_or] at h
    rw [List.cons_append, splitInclusiveFrom, if_neg (Ne.symm h.1), ih h.2, List.append_assoc,
      List.singleton_append]

theorem splitInclusive_unlines {last : Text} (h : ∀ l ∈ ls, '\n' ∉ l) (hlast : '\n' ∉ last) :
    splitInclusive (unlines ls ++ last) = ls.map (· ++ ['\n']) ++ lastLine last := by
  rw [splitInclusive]
  induction ls with
  | nil =>
    rw [unlines, List.flatMap_nil, List.nil_append, ← List.append_nil last,
      splitInclusiveFrom_append hlast, splitInclusiveFrom, List.append_nil, List.nil_append]
    rfl
  | cons l ls ih =>
    rw [List.forall_mem_cons] at h
    rw [unlines_cons, List.append_assoc, splitInclusiveFrom_append h.1, List.cons_append,
      splitInclusiveFrom, if_pos rfl, ih h.2]
    rfl

theorem flatten_lines (ls : List Text) (last : Text) :
    (ls.map (· ++ ['\n']) ++ lastLine last).flatten = unlines ls ++ last := by
  rw [List.flatten_append, unlines, List.flatMap_def, lastLine]
  cases last <;> simp

/-- **the terms are those of the lines with their breaks** -/
theorem parseUserTerms_eq (contents : Text) : parseUserTerms contents =
    ((splitInclusive contents).map lineTerm).filter (!·.isEmpty) := by
  obtain ⟨ls, last, rfl, hls, hlast⟩ := exists_unlines contents
  have hterms (lines : List Text) : (lines.filterMap fun line =>
      let term := trim (stripComment line)
      if term.isEmpty then none else some term) = (lines.map lineTerm).filter (!·.isEmpty) := by
    induction lines with
    | nil => rfl
    | cons line lines ih =>
      rw [List.filterMap_cons, List.map_cons, List.filter_cons, ← ih, lineTerm]
      cases hempty : (trim (stripComment line)).isEmpty <;> simp [hempty]
  have hlines : (ls.map chompReturn).map lineTerm = (ls.map (· ++ ['\n'])).map lineTerm := by
    rw [List.map_map, List.map_map]
    refine List.map_congr_left fun line _ => ?_
    exact (lineTerm_chompReturn line).trans (lineTerm_append (by decide) line).symm
  rw [parseUserTerms, hterms, strLines_unlines_last hls hlast, splitInclusive_unlines hls hlast,
    List.map_append, List.map_append, hlines]

/-! ## adding -/

theorem parseUserTerms_append {rest : Text} (h : ∀ l ∈ ls, '\n' ∉ l) :
    parseUserTerms (unlines ls ++ rest) = parseUserTerms (unlines ls) ++ parseUserTerms rest := by
  rw [parseUserTerms, strLines_unlines_append h, List.filterMap_append, ← strLines_unlines h]
  rfl

/-- a break behind the last line does not change its term -/
theorem parseUserTerms_closed {last : Text} (h : ∀ l ∈ ls, '\n' ∉ l) (hlast : '\n' ∉ last)
    (hne : last ≠ []) :
    parseUserTerms (unlines (ls ++ [last])) = parseUserTerms (unlines ls ++ last) := by
  have hall : ∀ l ∈ ls ++ [last], '\n' ∉ l := by
    rw [List.forall_mem_append]
    exact ⟨h, List.forall_mem_singleton.2 hlast⟩
  have hsame : lineTerm (last ++ ['\n']) = lineTerm last := lineTerm_append (by decide) last
  rw [parseUserTerms_eq, parseUserTerms_eq, ← List.append_nil (unlines (ls ++ [last])),
    splitInclusive_unlines hall List.not_mem_nil, splitInclusive_unlines h hlast]
  simp [lastLine, hne, hsame]

/-- nothing is missing behind lines with their breaks -/
theorem unlines_closed (ls : List Text) :
    (!(unlines ls).isEmpty && (unlines ls).getLast? != some '\n') = false := by
  rcases List.eq_nil_or_concat' ls with rfl | ⟨init, last, rfl⟩
  · rfl
  · rw [unlines_append, unlines_cons]
    simp [unlines]

/-- **a term that is its own line is read behind the others** -/
theorem parseUserTerms_withTerm (existing : Text) (hbreak : '\n' ∉ term)
    (hterm : lineTerm term = term) (hne : term ≠ []) :
    parseUserTerms (withTerm existing term) = parseUserTerms existing ++ [term] := by
  have hline : parseUserTerms (term ++ ['\n']) = [term] := by
    have hone := @splitInclusive_unlines [term] [] (List.forall_mem_singleton.2 hbreak)
      List.not_mem_nil
    have hsame : lineTerm (term ++ ['\n']) = term := (lineTerm_append (by decide) term).trans hterm
    rw [unlines_cons, unlines, List.flatMap_nil, List.append_nil] at hone
    rw [parseUserTerms_eq, hone]
    simp [lastLine, hsame, hne]
  obtain ⟨ls, last, rfl, hls, hlast⟩ := exists_unlines existing
  by_cases hempty : last = []
  · subst hempty
    rw [List.append_nil, withTerm, unlines_closed, if_neg Bool.false_ne_true, List.append_assoc,
      parseUserTerms_append hls, hline]
  · have hopen : (!(unlines ls ++ last).isEmpty && (unlines ls ++ last).getLast? != some '\n') =
        true := by
      obtain ⟨c, hc⟩ := List.getLast?_isSome.2 hempty |> Option.isSome_iff_exists.1
      have hne : c ≠ '\n' := fun heq => hlast (heq ▸ List.mem_of_getLast? hc)
      rw [List.getLast?_append, hc]
      simp [hempty, hne]
    have hclosed : unlines ls ++ last ++ ['\n'] = unlines (ls ++ [last]) := by
      rw [unlines_append, unlines_cons, List.append_assoc]
      rfl
    have hall : ∀ l ∈ ls ++ [last], '\n' ∉ l := by
      rw [List.forall_mem_append]
      exact ⟨hls, List.forall_mem_singleton.2 hlast⟩
    rw [withTerm, if_pos hopen, hclosed, List.append_assoc, parseUserTerms_append hall, hline,
      parseUserTerms_closed hls hlast hempty]

/-! ## removing -/

theorem lineMatches_eq (term line : Text) :
    lineMatches term line = (comparisonKey (lineTerm line) == comparisonKey term) := by
  rw [lineMatches, ← lineTerm_lineContent line, comparisonKey, comparisonKey, comparisonKey,
    lineTerm, trim_trim]

/-- the lines that are kept are the lines of the text that is written -/
theorem splitInclusive_filter (p : Text → Bool) (contents : Text) :
    splitInclusive ((splitInclusive contents).filter p).flatten =
      (splitInclusive contents).filter p := by
  obtain ⟨ls, last, rfl, hls, hlast⟩ := exists_unlines contents
  rw [splitInclusive_unlines hls hlast, List.filter_append, List.filter_map]
  have hkept : ∀ l ∈ ls.filter (p ∘ (· ++ ['\n'])), '\n' ∉ l :=
    fun l hl => hls l (List.mem_of_mem_filter hl)
  have hlastLine : (lastLine last).filter p = lastLine (if p last then last else []) := by
    rw [lastLine]
    cases hp : p last <;> cases last <;> simp [lastLine, hp]
  have hrest : '\n' ∉ (if p last then last else []) := by
    split
    · exact hlast
    · exact List.not_mem_nil
  rw [hlastLine, flatten_lines, splitInclusive_unlines hkept hrest]

/-- **the terms of the lines that are kept** -/
theorem parseUserTerms_filter (term contents : Text) :
    parseUserTerms ((splitInclusive contents).filter fun line => !lineMatches term line).flatten =
      (parseUserTerms contents).filter fun t => comparisonKey t != comparisonKey term := by
  have hlines : (fun line => !lineMatches term line) =
      (fun t => comparisonKey t != comparisonKey term) ∘ lineTerm := by
    funext line
    rw [lineMatches_eq]
    rfl
  rw [parseUserTerms_eq, parseUserTerms_eq, splitInclusive_filter, hlines, ← List.filter_map,
    List.filter_filter, List.filter_filter]
  exact List.filter_congr fun t _ => Bool.and_comm _ _

/-- a line is taken out exactly when its term has the key -/
theorem any_lineMatches (hkey : comparisonKey term ≠ []) (contents : Text) :
    (splitInclusive contents).any (lineMatches term) =
      (parseUserTerms contents).any fun t => comparisonKey t == comparisonKey term := by
  rw [parseUserTerms_eq, List.any_filter, List.any_map]
  refine congrArg (splitInclusive contents).any (funext fun line => ?_)
  show _ = (!(lineTerm line).isEmpty && (comparisonKey (lineTerm line) == comparisonKey term))
  rw [lineMatches_eq]
  cases hline : lineTerm line with
  | cons c t => rfl
  | nil =>
    have hnot : (comparisonKey [] == comparisonKey term) = false :=
      beq_eq_false_iff_ne.2 fun heq => hkey heq.symm
    rw [hnot]
    rfl

/-! ## keys -/

/-- **a character is lowercased to itself or, if it is a letter, to letters and a dot above** -/
theorem toLowercaseFrom_cons (before : Text) (c : Char) (s : Text) :
    ∃ w, toLowercaseFrom before (c :: s) = w ++ toLowercaseFrom (c :: before) s ∧
      (isAlphanumeric c = false ∧ w = [c] ∨ isAlphanumeric c = true ∧ w ≠ [] ∧
        ∀ d ∈ w, isAlphanumeric d = true ∨ d = dotAbove) := by
  refine ⟨_, rfl, ?_⟩
  cases hc : isAlphanumeric c with
  | false =>
    refine .inl ⟨rfl, ?_⟩
    have hsigma : (c.toNat == 0x3A3) = false := by
      rw [beq_eq_false_iff_ne]
      intro heq
      have hchar : c = Char.ofNat 0x3A3 := by rw [← heq, Char.ofNat_toNat]
      rw [hchar] at hc
      exact absurd hc (by decide +kernel)
    rw [hsigma]
    exact notAlphanumeric_lower hc
  | true =>
    refine .inr ⟨rfl, ?_⟩
    split
    next =>
      refine ⟨List.cons_ne_nil _ _, fun d hd => .inl ?_⟩
      rw [List.mem_singleton] at hd
      rw [hd]
      split <;> decide +kernel
    next =>
      obtain ⟨d, hd, h | ⟨-, h⟩⟩ := alphanumeric_lower_cases hc
      · rw [h]
        exact ⟨List.cons_ne_nil _ _, List.forall_mem_singleton.2 (.inl hd)⟩
      · rw [h]
        exact ⟨List.cons_ne_nil _ _,
          List.forall_mem_cons.2 ⟨.inl hd, List.forall_mem_singleton.2 (.inr rfl)⟩⟩

/-- what the lowercase of a letter can hold is neither whitespace nor a `#` -/
theorem letter_plain {d : Char} (h : isAlphanumeric d = true ∨ d = dotAbove) :
    isWhitespace d = false ∧ d ≠ '#' := by
  rcases h with h | rfl
  · constructor
    · by_contra hspace
      rw [isAlphanumeric_of_whitespace d (by simpa using hspace)] at h
      cases h
    · rintro rfl
      exact absurd h (by decide)
  · decide

/-- a term that the file can hold as a line: no break, and nothing that begins a comment -/
def plainFrom (precededByWhitespace : Bool) : Text → Bool
  | [] => true
  | c :: s => c != '\n' && c != '\r' && !(c == '#' && precededByWhitespace) &&
    plainFrom (isWhitespace c) s

theorem plainFrom_letters {w : Text} (h : ∀ d ∈ w, isAlphanumeric d = true ∨ d = dotAbove)
    (hne : w ≠ []) (p : Bool) (s : Text) : plainFrom p (w ++ s) = plainFrom false s := by
  induction w generalizing p with
  | nil => exact absurd rfl hne
  | cons d w ih =>
    obtain ⟨hd, hw⟩ := List.forall_mem_cons.1 h
    obtain ⟨hspace, hmark⟩ := letter_plain hd
    have hbreak : d ≠ '\n' := by rintro rfl; exact absurd hspace (by decide)
    have hreturn : d ≠ '\r' := by rintro rfl; exact absurd hspace (by decide)
    have hstep : plainFrom p (d :: (w ++ s)) = plainFrom false (w ++ s) := by
      rw [plainFrom, hspace]
      simp [hmark, hbreak, hreturn]
    rw [List.cons_append, hstep]
    by_cases hnil : w = []
    · rw [hnil, List.nil_append]
    · exact ih hw hnil false

/-- **lowercasing moves no comment and no line break** -/
theorem plainFrom_toLowercaseFrom (before : Text) (p : Bool) (s : Text) :
    plainFrom p (toLowercaseFrom before s) = plainFrom p s := by
  induction s generalizing before p with
  | nil => rfl
  | cons c s ih =>
    obtain ⟨w, hw, ⟨-, rfl⟩ | ⟨hc, hne, hall⟩⟩ := toLowercaseFrom_cons before c s
    · rw [hw, List.singleton_append, plainFrom, plainFrom, ih]
    · have hone := plainFrom_letters (List.forall_mem_singleton.2 (.inl hc)) (List.cons_ne_nil c [])
        p s
      rw [hw, plainFrom_letters hall hne, ih, ← hone]
      rfl

theorem toLowercase_eq_nil : toLowercase s = [] ↔ s = [] := by
  cases s with
  | nil => exact iff_of_true rfl rfl
  | cons c s =>
    refine iff_of_false ?_ (List.cons_ne_nil _ _)
    obtain ⟨w, hw, ⟨-, rfl⟩ | ⟨-, hne, -⟩⟩ := toLowercaseFrom_cons [] c s
    · rw [toLowercase, hw]
      exact List.cons_ne_nil _ _
    · rw [toLowercase, hw]
      exact fun heq => hne (List.append_eq_nil_iff.1 heq).1

theorem plainFrom_iff (p : Bool) (s : Text) :
    plainFrom p s = true ↔ '\n' ∉ s ∧ '\r' ∉ s ∧ stripCommentFrom p s = s := by
  induction s generalizing p with
  | nil => simp [plainFrom, stripCommentFrom]
  | cons c s ih =>
    rw [plainFrom, stripCommentFrom, Bool.and_eq_true, ih]
    cases hmark : (c == '#' && p) with
    | true => simp
    | false =>
      rw [if_neg Bool.false_ne_true, Bool.not_false, Bool.and_true, Bool.and_eq_true, bne_iff_ne,
        bne_iff_ne, List.mem_cons, List.mem_cons, not_or, not_or, List.cons.injEq,
        eq_self_iff_true, true_and, ne_comm, @ne_comm _ c '\r']
      tauto

theorem validatedTerm_iff (term t : Text) : validatedTerm term = .ok t ↔
    t = trim term ∧ trim term ≠ [] ∧ '\n' ∉ trim term ∧ '\r' ∉ trim term := by
  rw [validatedTerm]
  split
  next h =>
    refine iff_of_false nofun ?_
    rintro ⟨-, hne, hbreak, hreturn⟩
    rw [Bool.or_eq_true, List.isEmpty_iff, List.any_eq_true] at h
    rcases h with h | ⟨c, hc, h⟩
    · exact hne h
    · rw [Bool.or_eq_true, beq_iff_eq, beq_iff_eq] at h
      rcases h with rfl | rfl
      · exact hbreak hc
      · exact hreturn hc
  next h =>
    rw [Bool.or_eq_true, not_or, List.isEmpty_iff, List.any_eq_true, not_exists] at h
    constructor
    · intro heq
      exact ⟨(Except.ok.inj heq).symm, h.1, fun hc => h.2 _ ⟨hc, rfl⟩, fun hc => h.2 _ ⟨hc, rfl⟩⟩
    · rintro ⟨rfl, -⟩
      rfl

/-- **a term is accepted or not by its key alone** -/
theorem validatedAddTerm_iff (term t : Text) : validatedAddTerm term = .ok t ↔
    t = trim term ∧ comparisonKey term ≠ [] ∧ plainFrom true (comparisonKey term) = true := by
  rw [comparisonKey, toLowercase, plainFrom_toLowercaseFrom, plainFrom_iff, ← toLowercase, ne_eq,
    toLowercase_eq_nil, validatedAddTerm]
  cases hterm : validatedTerm term with
  | error error =>
    refine iff_of_false nofun ?_
    rintro ⟨-, hne, hbreak, hreturn, -⟩
    rw [(validatedTerm_iff term _).2 ⟨rfl, hne, hbreak, hreturn⟩] at hterm
    cases hterm
  | ok t' =>
    obtain ⟨rfl, hne, hbreak, hreturn⟩ := (validatedTerm_iff term t').1 hterm
    dsimp only
    split
    next h => exact iff_of_false nofun fun hok => h hok.2.2.2.2
    next h =>
      rw [not_not] at h
      constructor
      · intro heq
        exact ⟨(Except.ok.inj heq).symm, hne, hbreak, hreturn, h⟩
      · rintro ⟨rfl, -⟩
        rfl

/-! ## what the commands promise -/

section
variable {disk : Disk} {file file' : Option Text}

theorem read_ok {contents : Text} (h : readDictionaryContents disk file = .ok contents) :
    contents = contentsOf file := by
  rw [readDictionaryContents] at h
  split at h
  next => cases h
  next => exact (Except.ok.inj h).symm

theorem write_ok {contents : Text} {r : Bool}
    (h : writeUserDictionary disk file contents = (.ok r, file')) :
    r = true ∧ file' = some contents := by
  rw [writeUserDictionary] at h
  split at h
  next =>
    obtain ⟨hr, hfile⟩ := Prod.ext_iff.1 h
    exact ⟨(Except.ok.inj hr).symm, hfile.symm⟩
  next => cases (Prod.ext_iff.1 h).1

/-- an addition that is not refused -/
theorem add_ok {added : Bool} (h : addUserTermAt disk file term = (.ok added, file')) :
    validatedAddTerm term = .ok (trim term) ∧
      if (parseUserTerms (contentsOf file)).any fun t => comparisonKey t == comparisonKey (trim term)
      then added = false ∧ file' = file
      else added = true ∧ file' = some (withTerm (contentsOf file) (trim term)) := by
  rw [addUserTermAt] at h
  split at h
  next => cases (Prod.ext_iff.1 h).1
  next t hterm =>
    obtain rfl := ((validatedAddTerm_iff term t).1 hterm).1
    refine ⟨hterm, ?_⟩
    split at h
    next => cases (Prod.ext_iff.1 h).1
    next =>
      split at h
      next => cases (Prod.ext_iff.1 h).1
      next existing hread =>
        rw [read_ok hread] at h
        split at h
        next hthere =>
          rw [if_pos hthere]
          obtain ⟨hr, hfile⟩ := Prod.ext_iff.1 h
          exact ⟨(Except.ok.inj hr).symm, hfile.symm⟩
        next hnew =>
          rw [if_neg hnew]
          exact write_ok h

/-- a removal that is not refused -/
theorem remove_ok {found : Bool} (h : removeUserTermAt disk file term = (.ok found, file')) :
    validatedTerm term = .ok (trim term) ∧
      if (splitInclusive (contentsOf file)).any (lineMatches (trim term))
      then found = true ∧ file' = some ((splitInclusive (contentsOf file)).filter fun line =>
        !lineMatches (trim term) line).flatten
      else found = false ∧ file' = file := by
  rw [removeUserTermAt] at h
  split at h
  next => cases (Prod.ext_iff.1 h).1
  next t hterm =>
    obtain rfl := ((validatedTerm_iff term t).1 hterm).1
    refine ⟨hterm, ?_⟩
    split at h
    next => cases (Prod.ext_iff.1 h).1
    next =>
      split at h
      next => cases (Prod.ext_iff.1 h).1
      next existing hread =>
        rw [read_ok hread] at h
        split at h
        next hmissing =>
          rw [if_neg (by simpa using hmissing)]
          obtain ⟨hr, hfile⟩ := Prod.ext_iff.1 h
          exact ⟨(Except.ok.inj hr).symm, hfile.symm⟩
        next hthere =>
          rw [if_pos (by simpa using hthere)]
          exact write_ok h

/-- a term with the key of one that is there is not added again -/
theorem add_again {t : Text} (hlock : disk.lock = true) (hread : disk.read = true)
    (hterm : validatedAddTerm term = .ok t)
    (hthere : ∃ t' ∈ parseUserTerms (contentsOf file), comparisonKey t' = comparisonKey term) :
    addUserTermAt disk file term = (.ok false, file) := by
  obtain rfl := ((validatedAddTerm_iff term t).1 hterm).1
  obtain ⟨t', ht', hkey⟩ := hthere
  have hreads : readDictionaryContents disk file = .ok (contentsOf file) := by
    rw [readDictionaryContents, hread, Bool.not_true, Bool.and_false, if_neg Bool.false_ne_true]
  have hany : ((parseUserTerms (contentsOf file)).any fun existingTerm =>
      comparisonKey existingTerm == comparisonKey (trim term)) = true := by
    refine List.any_eq_true.2 ⟨t', ht', beq_iff_eq.2 ?_⟩
    rw [hkey, comparisonKey, comparisonKey, trim_trim]
  simp only [addUserTermAt, hterm, hlock, hreads, hany, Bool.not_true, Bool.false_eq_true, if_false,
    if_true]

end

theorem comparisonKey_trim (term : Text) : comparisonKey (trim term) = comparisonKey term := by
  rw [comparisonKey, comparisonKey, trim_trim]

/-- what the commands promise for a file and a term -/
structure Managed (file : Option Text) (term : Text) : Prop where
  added : ∀ disk file', addUserTermAt disk file term = (.ok true, file') →
    parseUserTerms (contentsOf file') = parseUserTerms (contentsOf file) ++ [trim term] ∧
    ∀ disk' term', disk'.lock = true → disk'.read = true →
      comparisonKey term' = comparisonKey term → addUserTermAt disk' file' term' = (.ok false, file')
  removed : ∀ disk file', removeUserTermAt disk file term = (.ok true, file') →
    parseUserTerms (contentsOf file') =
      (parseUserTerms (contentsOf file)).filter (fun t => comparisonKey t != comparisonKey term) ∧
    splitInclusive (contentsOf file') = (splitInclusive (contentsOf file)).filter fun line =>
      comparisonKey (lineTerm line) != comparisonKey term
  /-- a call that is not refused -/
  absent : ∀ disk file' found, removeUserTermAt disk file term = (.ok found, file') →
    (found = false ↔ ∀ t ∈ parseUserTerms (contentsOf file), comparisonKey t ≠ comparisonKey term)

/-- **the commands keep what they promise** -/
theorem managed (file : Option Text) (term : Text) : Managed file term where
  added disk file' h := by
    obtain ⟨hterm, hcases⟩ := add_ok h
    obtain ⟨-, hkey, hplain⟩ := (validatedAddTerm_iff term _).1 hterm
    split at hcases
    next => cases hcases.1
    next =>
      have hfile := hcases.2
      have hnew : parseUserTerms (contentsOf file') =
          parseUserTerms (contentsOf file) ++ [trim term] := by
        rw [comparisonKey, toLowercase, plainFrom_toLowercaseFrom, plainFrom_iff] at hplain
        rw [comparisonKey, ne_eq, toLowercase_eq_nil] at hkey
        have hline : lineTerm (trim term) = trim term := by
          rw [lineTerm, stripComment, hplain.2.2, trim_trim]
        rw [hfile]
        exact parseUserTerms_withTerm _ hplain.1 hline hkey
      refine ⟨hnew, fun disk' term' hlock hread hsame => ?_⟩
      have hterm' := (validatedAddTerm_iff term' (trim term')).2
        ⟨rfl, hsame ▸ hkey, hsame ▸ hplain⟩
      refine add_again hlock hread hterm' ⟨trim term, ?_, ?_⟩
      · rw [hnew]
        exact List.mem_append_right _ (List.mem_singleton_self _)
      · rw [comparisonKey_trim, hsame]
  removed disk file' h := by
    obtain ⟨-, hcases⟩ := remove_ok h
    split at hcases
    next =>
      have hfile := hcases.2
      rw [hfile]
      refine ⟨(parseUserTerms_filter _ _).trans ?_, (splitInclusive_filter _ _).trans ?_⟩
      · rw [comparisonKey_trim]
      · refine List.filter_congr fun line _ => ?_
        rw [lineMatches_eq, comparisonKey_trim]
        rfl
    next => cases hcases.1
  absent disk file' found h := by
    obtain ⟨hterm, hcases⟩ := remove_ok h
    have hne := ((validatedTerm_iff term _).1 hterm).2.1
    have hkey : comparisonKey (trim term) ≠ [] := by
      rwa [comparisonKey, trim_trim, ne_eq, toLowercase_eq_nil]
    rw [any_lineMatches hkey, comparisonKey_trim] at hcases
    split at hcases
    next hthere =>
      obtain ⟨t, ht, heq⟩ := List.any_eq_true.1 hthere
      rw [hcases.1]
      exact iff_of_false nofun fun hall => hall t ht (beq_iff_eq.1 heq)
    next hmissing =>
      rw [hcases.1]
      refine iff_of_true rfl fun t ht heq => hmissing ?_
      exact List.any_eq_true.2 ⟨t, ht, beq_iff_eq.2 heq⟩

end

/-- a removal that is refused is no answer: nothing has the key of an empty term -/
theorem remove_refused : ¬ ∀ file term,
    (removeUserTermAt { lock := true, read := true, write := true } file term).1 = .ok false ↔
      ∀ t ∈ parseUserTerms (contentsOf file), comparisonKey t ≠ comparisonKey term := by
  intro h
  have hnone : ∀ t ∈ parseUserTerms (contentsOf none), comparisonKey t ≠ comparisonKey [] := nofun
  exact absurd ((h none []).2 hnone) (by decide)

end Voisu.Dictionary
