import Mathlib
import Voisu.Config.Merge

/-!
# The recovery switch

`local_recovery.rs` does not go through the merge: it writes its key where the key stands already,
and behind the last line otherwise.

* `upsertBoolKey`         the rewritten file;
* `readEntries`           the keys of a file, with the tables that they stand in;
* `Switched`              the switch is set, and every other key keeps its place and its value;
* `upsertBoolKey_iff`     it is, when the root holds the key already or the file has no table.
-/

namespace Voisu.Config
open Lib

def boolText (b : Bool) : Text := if b then "true".toList else "false".toList

def switchLine (enabled : Bool) : Text := recoveryKey ++ " = ".toList ++ boolText enabled

def isSwitch (line : Text) : Bool :=
  (keyValue (content line)).any fun p => trim p.1 == recoveryKey

/-- the lines that are kept, and whether the key was among them -/
def upsertLines (enabled inRoot replaced : Bool) : List Text → List Text × Bool
  | [] => ([], replaced)
  | line :: rest =>
    let inRoot := inRoot && !isTable (content line)
    if inRoot && isSwitch line then
      if replaced then upsertLines enabled inRoot true rest
      else
        let r := upsertLines enabled inRoot true rest
        (switchLine enabled :: r.1, r.2)
    else
      let r := upsertLines enabled inRoot replaced rest
      (line :: r.1, r.2)

/-- the lines joined, with a break at the end -/
def closeLines (lines : List Text) : Text :=
  let out := ['\n'].intercalate lines
  if out.getLast? = some '\n' then out else out ++ ['\n']

def upsertBoolKey (existing : Text) (enabled : Bool) : Text :=
  let (lines, replaced) := upsertLines enabled true false (strLines existing)
  closeLines <|
    if replaced then lines
    else if !lines.isEmpty && !lines.getLast?.any List.isEmpty then lines ++ [[], switchLine enabled]
    else lines ++ [switchLine enabled]

/-! ## the keys of a file -/

structure Entry where
  /-- the header of the table; none at the root -/
  table : Option Text
  key : Text
  value : Text
deriving DecidableEq, Repr

def readEntries (table : Option Text) : List Text → List Entry
  | [] => []
  | raw :: rest =>
    let line := content raw
    if isTable line then readEntries (some line) rest
    else match keyValue line with
      | none => readEntries table rest
      | some (k, v) => ⟨table, trim k, trim v⟩ :: readEntries table rest

def configEntries (contents : Text) : List Entry := readEntries none (strLines contents)

def Entry.isSwitch (e : Entry) : Bool := e.table.isNone && e.key == recoveryKey

/-- the switch reads `enabled`, the other root keys keep their values and the tables their keys -/
structure Switched (enabled : Bool) (before after : Text) : Prop where
  switch : parseEnabled after = some enabled
  root : (configEntries after).filter (fun e => e.table.isNone && !e.isSwitch) =
    (configEntries before).filter fun e => e.table.isNone && !e.isSwitch
  tables : (configEntries after).filter (fun e => e.table.isSome) =
    (configEntries before).filter fun e => e.table.isSome

/-! ## one line -/

section
variable {line : Text} {lines : List Text} {table : Option Text} {enabled inRoot : Bool}

theorem readEntries_table (h : isTable (content line) = true) :
    readEntries table (line :: lines) = readEntries (some (content line)) lines := by
  rw [readEntries]
  exact if_pos h

theorem readEntries_line (h : isTable (content line) = false) :
    readEntries table (line :: lines) =
      ((keyValue (content line)).map fun p => Entry.mk table (trim p.1) (trim p.2)).toList ++
        readEntries table lines := by
  rw [readEntries]
  simp only [h, Bool.false_eq_true, if_false]
  cases keyValue (content line) <;> rfl

theorem parseEnabledFrom_table (h : isTable (content line) = true) :
    parseEnabledFrom inRoot (line :: lines) = parseEnabledFrom false lines := by
  rw [parseEnabledFrom]
  exact if_pos h

theorem parseEnabledFrom_line (h : isTable (content line) = false)
    (hswitch : (inRoot && isSwitch line) = false) :
    parseEnabledFrom inRoot (line :: lines) = parseEnabledFrom inRoot lines := by
  rw [parseEnabledFrom]
  simp only [h, Bool.false_eq_true, if_false]
  split
  · rfl
  · rename_i hroot
    cases hkv : keyValue (content line) with
    | none => rfl
    | some p =>
      simp only [Bool.or_eq_true, Bool.not_eq_true', not_or, Bool.not_eq_false] at hroot
      rw [hroot.1, Bool.true_and, isSwitch, hkv, Option.any_some, beq_eq_false_iff_ne] at hswitch
      exact if_pos hswitch

/-- the line that is written is read back -/
theorem switchLine_plain (enabled : Bool) : content (switchLine enabled) = switchLine enabled ∧
    '\n' ∉ switchLine enabled ∧ isTable (switchLine enabled) = false ∧
      (keyValue (switchLine enabled)).map (fun p => (trim p.1, trim p.2)) =
        some (recoveryKey, boolText enabled) := by
  cases enabled <;> decide

end

/-! ## the lines that are kept -/

section
variable {enabled replaced : Bool} {lines t : List Text} {table : Option Text}

theorem upsertLines_line {line : Text} {inRoot : Bool}
    (h : (inRoot && !isTable (content line) && isSwitch line) = false) :
    upsertLines enabled inRoot replaced (line :: lines) =
      (line :: (upsertLines enabled (inRoot && !isTable (content line)) replaced lines).1,
        (upsertLines enabled (inRoot && !isTable (content line)) replaced lines).2) := by
  rw [upsertLines]
  exact if_neg (by rw [h]; exact Bool.false_ne_true)

theorem upsertLines_switch {line : Text} (htable : isTable (content line) = false)
    (h : isSwitch line = true) : upsertLines enabled true replaced (line :: lines) =
      ((if replaced then [] else [switchLine enabled]) ++ (upsertLines enabled true true lines).1,
        (upsertLines enabled true true lines).2) := by
  rw [upsertLines]
  simp only [htable, h, Bool.not_false, Bool.and_self, if_true]
  cases replaced <;> rfl

@[simp] theorem isSwitch_mk (v : Text) : Entry.isSwitch ⟨none, recoveryKey, v⟩ = true := by
  simp [Entry.isSwitch]

/-- the entry of a line that holds the switch -/
theorem readEntries_switch {line : Text} (htable : isTable (content line) = false)
    (h : isSwitch line = true) (lines : List Text) :
    ∃ v, readEntries none (line :: lines) = ⟨none, recoveryKey, v⟩ :: readEntries none lines := by
  rw [isSwitch, Option.any_eq_true] at h
  obtain ⟨p, hp, hkey⟩ := h
  rw [readEntries_line htable, hp, ← beq_iff_eq.1 hkey]
  exact ⟨trim p.2, rfl⟩

theorem any_isSwitch_line (table : Option Text) (line : Text) :
    ((keyValue (content line)).map fun p =>
      Entry.mk table (trim p.1) (trim p.2)).toList.any Entry.isSwitch =
      (table.isNone && isSwitch line) := by
  rw [isSwitch]
  cases keyValue (content line) with
  | none => exact (Bool.and_false _).symm
  | some p => exact Bool.or_false _

theorem readEntries_switchLine : readEntries none (switchLine enabled :: lines) =
    ⟨none, recoveryKey, boolText enabled⟩ :: readEntries none lines := by
  obtain ⟨hcontent, -, htable, hkv⟩ := switchLine_plain enabled
  obtain ⟨p, hp, hpair⟩ := Option.map_eq_some_iff.1 hkv
  have hkey : trim p.1 = recoveryKey := (Prod.ext_iff.1 hpair).1
  have hvalue : trim p.2 = boolText enabled := (Prod.ext_iff.1 hpair).2
  rw [readEntries_line (by rw [hcontent]; exact htable), hcontent, hp, Option.map_some, hkey, hvalue]
  rfl

/-- a switch that is set before every other line is read -/
theorem parseEnabledFrom_switchLine : parseEnabledFrom true (switchLine enabled :: lines) =
    some enabled := by
  cases enabled <;> rfl

/-- every other entry stays -/
theorem readEntries_upsertLines (table : Option Text) (replaced : Bool) (lines : List Text) :
    (readEntries table (upsertLines enabled table.isNone replaced lines).1).filter
        (fun e => !e.isSwitch) =
      (readEntries table lines).filter fun e => !e.isSwitch := by
  induction lines generalizing table replaced with
  | nil => rfl
  | cons line lines ih =>
    cases htable : isTable (content line) with
    | true =>
      rw [upsertLines_line (by rw [htable, Bool.not_true, Bool.and_false, Bool.false_and]), htable,
        Bool.not_true, Bool.and_false, readEntries_table htable, readEntries_table htable]
      exact ih (some (content line)) replaced
    | false =>
      cases hswitch : table.isNone && isSwitch line with
      | true =>
        rw [Bool.and_eq_true, Option.isNone_iff_eq_none] at hswitch
        obtain ⟨rfl, hswitch⟩ := hswitch
        obtain ⟨v, hv⟩ := readEntries_switch htable hswitch lines
        rw [Option.isNone_none, upsertLines_switch htable hswitch, hv,
          List.filter_cons_of_neg (by rw [isSwitch_mk]; decide), ← ih none true]
        cases replaced with
        | true => rfl
        | false =>
          show (readEntries none (switchLine enabled :: _)).filter _ = _
          rw [readEntries_switchLine, List.filter_cons_of_neg (by rw [isSwitch_mk]; decide)]
          rfl
      | false =>
        rw [upsertLines_line (by rw [htable, Bool.not_false, Bool.and_true, hswitch]), htable,
          Bool.not_false, Bool.and_true, readEntries_line htable, readEntries_line htable,
          List.filter_append, List.filter_append, ih]

theorem upsertLines_replaced (inRoot : Bool) (lines : List Text) :
    (upsertLines enabled inRoot true lines).2 = true := by
  induction lines generalizing inRoot with
  | nil => rfl
  | cons line lines ih =>
    cases hswitch : inRoot && !isTable (content line) && isSwitch line with
    | true =>
      rw [Bool.and_eq_true, Bool.and_eq_true, Bool.not_eq_true'] at hswitch
      obtain ⟨⟨rfl, htable⟩, hswitch⟩ := hswitch
      rw [upsertLines_switch htable hswitch]
      exact ih true
    | false =>
      rw [upsertLines_line hswitch]
      exact ih _

theorem parseEnabledFrom_upsertLines (enabled inRoot : Bool) (lines : List Text) :
    parseEnabledFrom inRoot (upsertLines enabled inRoot false lines).1 =
      if (upsertLines enabled inRoot false lines).2 then some enabled else none := by
  induction lines generalizing inRoot with
  | nil => rfl
  | cons line lines ih =>
    cases htable : isTable (content line) with
    | true =>
      rw [upsertLines_line (by rw [htable, Bool.not_true, Bool.and_false, Bool.false_and]), htable,
        Bool.not_true, Bool.and_false, parseEnabledFrom_table htable]
      exact ih false
    | false =>
      cases hswitch : inRoot && isSwitch line with
      | true =>
        rw [Bool.and_eq_true] at hswitch
        obtain ⟨rfl, hswitch⟩ := hswitch
        rw [upsertLines_switch htable hswitch, upsertLines_replaced, if_pos rfl]
        exact parseEnabledFrom_switchLine
      | false =>
        rw [upsertLines_line (by rw [htable, Bool.not_false, Bool.and_true, hswitch]), htable,
          Bool.not_false, Bool.and_true, parseEnabledFrom_line htable hswitch]
        exact ih inRoot

/-- the key is found when the root holds it -/
theorem upsertLines_found (enabled : Bool) (table : Option Text) (lines : List Text) :
    (upsertLines enabled table.isNone false lines).2 =
      (readEntries table lines).any Entry.isSwitch := by
  induction lines generalizing table with
  | nil => rfl
  | cons line lines ih =>
    cases htable : isTable (content line) with
    | true =>
      rw [upsertLines_line (by rw [htable, Bool.not_true, Bool.and_false, Bool.false_and]), htable,
        Bool.not_true, Bool.and_false, readEntries_table htable]
      exact ih (some (content line))
    | false =>
      cases hswitch : table.isNone && isSwitch line with
      | true =>
        rw [Bool.and_eq_true, Option.isNone_iff_eq_none] at hswitch
        obtain ⟨rfl, hswitch⟩ := hswitch
        obtain ⟨v, hv⟩ := readEntries_switch htable hswitch lines
        rw [Option.isNone_none, upsertLines_switch htable hswitch, hv, upsertLines_replaced,
          List.any_cons, isSwitch_mk, Bool.true_or]
      | false =>
        rw [upsertLines_line (by rw [htable, Bool.not_false, Bool.and_true, hswitch]), htable,
          Bool.not_false, Bool.and_true, readEntries_line htable, List.any_append, ih,
          any_isSwitch_line, hswitch, Bool.false_or]

theorem upsertLines_missing (inRoot : Bool) (lines : List Text)
    (h : (upsertLines enabled inRoot false lines).2 = false) :
    (upsertLines enabled inRoot false lines).1 = lines := by
  induction lines generalizing inRoot with
  | nil => rfl
  | cons line lines ih =>
    cases hswitch : inRoot && !isTable (content line) && isSwitch line with
    | true =>
      rw [Bool.and_eq_true, Bool.and_eq_true, Bool.not_eq_true'] at hswitch
      obtain ⟨⟨rfl, htable⟩, hswitch⟩ := hswitch
      rw [upsertLines_switch htable hswitch, upsertLines_replaced] at h
      cases h
    | false =>
      rw [upsertLines_line hswitch] at h ⊢
      exact congrArg (line :: ·) (ih _ h)

/-! ## a switch at the end -/

/-- the table that the last of the lines stands in -/
def lastTable (table : Option Text) : List Text → Option Text
  | [] => table
  | line :: rest =>
    if isTable (content line) then lastTable (some (content line)) rest else lastTable table rest

theorem readEntries_append (table : Option Text) (lines : List Text) :
    readEntries table (lines ++ t) =
      readEntries table lines ++ readEntries (lastTable table lines) t := by
  induction lines generalizing table with
  | nil => rfl
  | cons line lines ih =>
    rw [List.cons_append, lastTable]
    cases htable : isTable (content line) with
    | true =>
      rw [readEntries_table htable, readEntries_table htable, ih]
      rfl
    | false =>
      rw [readEntries_line htable, readEntries_line htable, ih, List.append_assoc]
      rfl

theorem parseEnabledFrom_append (table : Option Text) (lines : List Text)
    (h : (readEntries table lines).any Entry.isSwitch = false) :
    parseEnabledFrom table.isNone (lines ++ t) =
      parseEnabledFrom (lastTable table lines).isNone t := by
  induction lines generalizing table with
  | nil => rfl
  | cons line lines ih =>
    rw [List.cons_append, lastTable]
    cases htable : isTable (content line) with
    | true =>
      rw [readEntries_table htable] at h
      rw [parseEnabledFrom_table htable]
      exact ih (some (content line)) h
    | false =>
      rw [readEntries_line htable, List.any_append, any_isSwitch_line, Bool.or_eq_false_iff] at h
      rw [parseEnabledFrom_line htable h.1]
      exact ih table h.2

example : parseEnabled "[a]\n\nenabled = true\n".toList = none := by decide +kernel

theorem lastTable_isNone (table : Option Text) (lines : List Text) :
    (lastTable table lines).isNone =
      (table.isNone && lines.all fun line => !isTable (content line)) := by
  induction lines generalizing table with
  | nil => exact (Bool.and_true _).symm
  | cons line lines ih =>
    rw [lastTable, List.all_cons]
    cases htable : isTable (content line) with
    | true =>
      rw [if_pos rfl, ih]
      simp
    | false =>
      rw [if_neg Bool.false_ne_true, ih, Bool.not_false, Bool.true_and]

/-! ## the file -/

theorem readEntries_entries (table : Option Text) (lines : List Text) :
    readEntries table lines = readEntries table (entries lines) := by
  induction lines generalizing table with
  | nil => rfl
  | cons line lines ih =>
    by_cases h : content line = []
    · rw [entries_cons_empty h, ← ih]
      simp [readEntries, h, isTable, keyValue, splitOnceAt]
    · rw [entries_cons h]
      simp only [readEntries, content_content, ih]

/-- the break at the end adds no entry and takes none -/
theorem entries_closeLines (hne : lines ≠ []) (h : ∀ l ∈ lines, '\n' ∉ l) :
    entries (strLines (closeLines lines)) = entries lines := by
  have hall : entries (strLines (unlines lines)) = entries lines := by
    rw [strLines_unlines h, entries_map_chompReturn]
  rw [closeLines]
  by_cases hend : (['\n'].intercalate lines).getLast? = some '\n'
  · obtain ⟨init, last, rfl⟩ := (List.eq_nil_or_concat' lines).resolve_left hne
    have hlast : '\n' ∉ last := h last (by simp)
    by_cases hinit : init = []
    · rw [hinit, List.nil_append, List.intercalate_singleton] at hend
      exact absurd (List.mem_of_getLast? hend) hlast
    · rw [intercalate_concat hinit] at hend ⊢
      cases last with
      | cons c last =>
        rw [List.getLast?_append, List.getLast?_cons_cons] at hend
        exact absurd (List.mem_of_getLast? (by simpa using hend)) hlast
      | nil =>
        have hinit' : ∀ l ∈ init, '\n' ∉ l := fun l hl => h l (List.mem_append_left _ hl)
        have hblank : entries [([] : Text)] = [] := rfl
        rw [if_pos (by simp), ← unlines_eq_intercalate hinit, strLines_unlines hinit',
          entries_map_chompReturn, entries_append, hblank, List.append_nil]
  · rw [if_neg hend, ← unlines_eq_intercalate hne, hall]

variable {contents : Text}

theorem configEntries_closeLines (hne : lines ≠ []) (h : ∀ l ∈ lines, '\n' ∉ l) :
    configEntries (closeLines lines) = readEntries none lines := by
  rw [configEntries, readEntries_entries, entries_closeLines hne h, ← readEntries_entries]

theorem parseEnabled_closeLines (hne : lines ≠ []) (h : ∀ l ∈ lines, '\n' ∉ l) :
    parseEnabled (closeLines lines) = parseEnabledFrom true lines := by
  rw [parseEnabled, parseEnabledFrom_entries, entries_closeLines hne h, ← parseEnabledFrom_entries]

theorem mem_upsertLines {inRoot : Bool} {l : Text}
    (h : l ∈ (upsertLines enabled inRoot replaced lines).1) : l ∈ lines ∨ l = switchLine enabled := by
  induction lines generalizing inRoot replaced with
  | nil => cases h
  | cons line lines ih =>
    cases hswitch : inRoot && !isTable (content line) && isSwitch line with
    | true =>
      rw [Bool.and_eq_true, Bool.and_eq_true, Bool.not_eq_true'] at hswitch
      obtain ⟨⟨rfl, htable⟩, hswitch⟩ := hswitch
      rw [upsertLines_switch htable hswitch, List.mem_append] at h
      rcases h with h | h
      · cases replaced with
        | true => cases h
        | false => exact .inr (List.mem_singleton.1 h)
      · exact (ih h).imp_left (List.mem_cons_of_mem _)
    | false =>
      rw [upsertLines_line hswitch, List.mem_cons] at h
      rcases h with rfl | h
      · exact .inl List.mem_cons_self
      · exact (ih h).imp_left (List.mem_cons_of_mem _)

theorem upsertBoolKey_replaced
    (h : (upsertLines enabled true false (strLines contents)).2 = true) :
    upsertBoolKey contents enabled =
      closeLines (upsertLines enabled true false (strLines contents)).1 := by
  rw [upsertBoolKey]
  simp only [h, if_true]

theorem upsertBoolKey_missing
    (h : (upsertLines enabled true false (strLines contents)).2 = false) :
    ∃ gap : List Text, gap.all List.isEmpty = true ∧ upsertBoolKey contents enabled =
      closeLines (strLines contents ++ (gap ++ [switchLine enabled])) := by
  rw [upsertBoolKey]
  simp only [h, Bool.false_eq_true, if_false, upsertLines_missing true _ h]
  split
  · exact ⟨[[]], rfl, rfl⟩
  · exact ⟨[], rfl, rfl⟩

/-- no line that is written has a break in it -/
theorem not_mem_written {l : Text}
    (h : l ∈ strLines contents ∨ l = [] ∨ l = switchLine enabled) : '\n' ∉ l := by
  rcases h with h | rfl | rfl
  · exact not_mem_of_mem_strLines h
  · exact List.not_mem_nil
  · exact (switchLine_plain enabled).2.1

theorem filter_root (es : List Entry) : es.filter (fun e => e.table.isNone && !e.isSwitch) =
    (es.filter fun e => !e.isSwitch).filter fun e => e.table.isNone := by
  rw [List.filter_filter]

/-- no entry of a table is the switch -/
theorem filter_tables (es : List Entry) : es.filter (fun e => e.table.isSome) =
    (es.filter fun e => !e.isSwitch).filter fun e => e.table.isSome := by
  rw [List.filter_filter]
  refine List.filter_congr fun e _ => ?_
  rw [Entry.isSwitch]
  cases e.table <;> simp

/-- other entries that stay are all that `Switched` asks for beside the switch -/
theorem switched_of_others {before after : Text} (hswitch : parseEnabled after = some enabled)
    (h : (configEntries after).filter (fun e => !e.isSwitch) =
      (configEntries before).filter fun e => !e.isSwitch) : Switched enabled before after where
  switch := hswitch
  root := by rw [filter_root, filter_root, h]
  tables := by rw [filter_tables, h, ← filter_tables]

/-- the key is there, and is replaced -/
theorem switched_replaced (h : (upsertLines enabled true false (strLines contents)).2 = true) :
    Switched enabled contents (upsertBoolKey contents enabled) := by
  have hbreaks : ∀ l ∈ (upsertLines enabled true false (strLines contents)).1, '\n' ∉ l :=
    fun l hl => not_mem_written ((mem_upsertLines hl).imp_right .inr)
  have hparse := parseEnabledFrom_upsertLines enabled true (strLines contents)
  rw [h, if_pos rfl] at hparse
  have hne : (upsertLines enabled true false (strLines contents)).1 ≠ [] := by
    intro hnil
    rw [hnil] at hparse
    cases hparse
  rw [upsertBoolKey_replaced h]
  refine switched_of_others ?_ ?_
  · rw [parseEnabled_closeLines hne hbreaks, hparse]
  · rw [configEntries_closeLines hne hbreaks]
    exact readEntries_upsertLines none false (strLines contents)

/-- the key is not there: it is written behind the last line, in the table that this stands in -/
theorem upsertBoolKey_appended
    (h : (upsertLines enabled true false (strLines contents)).2 = false) :
    parseEnabled (upsertBoolKey contents enabled) =
        (if (strLines contents).all fun line => !isTable (content line) then some enabled
          else none) ∧
      configEntries (upsertBoolKey contents enabled) = configEntries contents ++
        readEntries (lastTable none (strLines contents)) [switchLine enabled] := by
  obtain ⟨gap, hgap, heq⟩ := upsertBoolKey_missing h
  have hbreaks : ∀ l ∈ strLines contents ++ (gap ++ [switchLine enabled]), '\n' ∉ l := by
    intro l hl
    rw [List.mem_append, List.mem_append, List.mem_singleton] at hl
    exact not_mem_written (hl.imp_right
      (Or.imp_left fun hl => List.isEmpty_iff.1 (List.all_eq_true.1 hgap l hl)))
  have hne : strLines contents ++ (gap ++ [switchLine enabled]) ≠ [] := by simp
  have hentries (table : Option Text) : readEntries table (gap ++ [switchLine enabled]) =
      readEntries table [switchLine enabled] := by
    rw [readEntries_entries, entries_append, entries_blank hgap, List.nil_append,
      ← readEntries_entries]
  have hparse (inRoot : Bool) : parseEnabledFrom inRoot (gap ++ [switchLine enabled]) =
      if inRoot then some enabled else none := by
    rw [parseEnabledFrom_entries, entries_append, entries_blank hgap, List.nil_append,
      ← parseEnabledFrom_entries]
    cases inRoot with
    | true => exact parseEnabledFrom_switchLine
    | false => cases enabled <;> rfl
  rw [heq, parseEnabled_closeLines hne hbreaks, configEntries_closeLines hne hbreaks,
    readEntries_append, hentries]
  refine ⟨?_, rfl⟩
  have hmissing := upsertLines_found enabled none (strLines contents)
  rw [Option.isNone_none, h] at hmissing
  have happend := parseEnabledFrom_append (t := gap ++ [switchLine enabled]) none
    (strLines contents) hmissing.symm
  rw [Option.isNone_none, hparse, lastTable_isNone] at happend
  exact happend

/-- **the switch is set, and nothing else, exactly when the root holds the key already or the file
has no table** -/
theorem upsertBoolKey_iff (contents : Text) (enabled : Bool) :
    Switched enabled contents (upsertBoolKey contents enabled) ↔
      (∃ value, ⟨none, recoveryKey, value⟩ ∈ configEntries contents) ∨
        ∀ line ∈ strLines contents, isTable (content line) = false := by
  have hfound := upsertLines_found enabled none (strLines contents)
  rw [Option.isNone_none] at hfound
  have hmem : (∃ value, ⟨none, recoveryKey, value⟩ ∈ configEntries contents) ↔
      (configEntries contents).any Entry.isSwitch = true := by
    rw [List.any_eq_true]
    constructor
    · rintro ⟨value, hvalue⟩
      exact ⟨_, hvalue, isSwitch_mk value⟩
    · rintro ⟨⟨table, key, value⟩, he, hswitch⟩
      rw [Entry.isSwitch, Bool.and_eq_true, Option.isNone_iff_eq_none, beq_iff_eq] at hswitch
      obtain ⟨rfl, rfl⟩ : table = none ∧ key = recoveryKey := hswitch
      exact ⟨value, he⟩
  rw [hmem, configEntries, ← hfound]
  cases h : (upsertLines enabled true false (strLines contents)).2 with
  | true => exact iff_of_true (switched_replaced h) (.inl rfl)
  | false =>
    obtain ⟨hparse, hentries⟩ := upsertBoolKey_appended h
    constructor
    · intro hswitched
      have hset := hswitched.switch
      rw [hparse] at hset
      refine .inr fun line hline => ?_
      by_contra htable
      rw [if_neg] at hset
      · cases hset
      · exact fun hall => htable (by simpa using List.all_eq_true.1 hall line hline)
    · rintro (hroot | htables)
      · cases hroot
      · have hall : (strLines contents).all (fun line => !isTable (content line)) = true :=
          List.all_eq_true.2 fun line hline => by rw [htables line hline]; rfl
        have hroot : lastTable none (strLines contents) = none := by
          rw [← Option.isNone_iff_eq_none, lastTable_isNone, hall]
          rfl
        refine switched_of_others (by rw [hparse, if_pos hall]) ?_
        rw [hentries, hroot, readEntries_switchLine, List.filter_append,
          List.filter_cons_of_neg (by rw [isSwitch_mk]; decide)]
        exact List.append_nil _

/-- a file that ends inside a table: the switch goes there, and is not read -/
theorem upsertBoolKey_table : ¬ Switched true "[deepgram]\nmodel = \"x\"\n".toList
    (upsertBoolKey "[deepgram]\nmodel = \"x\"\n".toList true) := by
  intro h
  exact absurd h.switch (by decide +kernel)

end

end Voisu.Config
