import Mathlib
import Voisu.Config.Document

/-!
# What the parsers see

All parsers see of a file the contents of its lines; the merge drops some lines and keeps the others.

* `entries`                the contents of the lines that have any;
* `parseRoot_entries`, `parseAsrModeFrom_entries`   the parsers see no more;
* `parseRoot_preserved`    a parser of another key does not miss what the merge drops;
* `Accepts`                how the strict parser comes through;
* `Accepts.keeps`, `Accepts.without`   and again without the lines that are dropped.
-/

namespace Voisu.Config
open Lib Daemon LocalTail Compose

/-! ## entries -/

/-- the contents of the lines that have any -/
def entries (lines : List Text) : List Text := (lines.map content).filter (!·.isEmpty)

section
variable {lines lines' : List Text} {line : Text}

theorem entries_append : entries (lines ++ lines') = entries lines ++ entries lines' := by
  simp [entries]

theorem entries_cons_empty (h : content line = []) : entries (line :: lines) = entries lines := by
  simp [entries, h]

theorem entries_cons (h : content line ≠ []) :
    entries (line :: lines) = content line :: entries lines := by
  simp [entries, h]

theorem stripComment_not_mem (line : Text) : '#' ∉ stripComment line := by
  intro h
  have := List.mem_takeWhile_imp h
  simp at this

theorem stripComment_of_not_mem (h : '#' ∉ line) : stripComment line = line := by
  unfold stripComment
  rw [List.takeWhile_eq_self_iff]
  intro c hc
  exact bne_iff_ne.mpr fun heq => h (heq ▸ hc)

theorem mem_of_mem_trim {c : Char} (h : c ∈ trim line) : c ∈ line := by
  obtain ⟨g, g', hsplit, -, -⟩ := trimMatches_split isWhitespace line
  rw [hsplit]
  exact List.mem_append_left _ (List.mem_append_right _ h)

theorem content_not_mem (line : Text) : '#' ∉ content line :=
  fun h => stripComment_not_mem line (mem_of_mem_trim h)

@[simp]
theorem content_content (line : Text) : content (content line) = content line := by
  rw [content, stripComment_of_not_mem (content_not_mem line)]
  exact trim_trim _

/-- trimming does not see a whitespace at the end -/
@[simp]
theorem content_chompReturn (line : Text) : content (chompReturn line) = content line := by
  unfold chompReturn
  split
  · rename_i hlast
    have hline : line = line.dropLast ++ ['\r'] := (List.dropLast_append_getLast? _ hlast).symm
    conv_rhs => rw [hline]
    unfold content stripComment
    by_cases hcomment : ∀ c ∈ line.dropLast, (c != '#') = true
    · rw [List.takeWhile_append_of_pos hcomment, List.takeWhile_cons_of_pos (by decide),
        List.takeWhile_nil, trim_concat (by decide),
        List.takeWhile_eq_self_iff.mpr hcomment]
    · rw [List.takeWhile_append, if_neg]
      intro hlength
      exact hcomment (List.takeWhile_eq_self_iff.mp
        ((List.takeWhile_sublist _).eq_of_length hlength))
  · rfl

theorem entries_map_chompReturn (lines : List Text) :
    entries (lines.map chompReturn) = entries lines := by
  unfold entries
  rw [List.map_map]
  congr 2
  funext line
  exact content_chompReturn line

theorem entries_blank {ls : List Text} (h : ls.all List.isEmpty = true) : entries ls = [] := by
  induction ls with
  | nil => rfl
  | cons l ls ih =>
    rw [List.all_cons, Bool.and_eq_true] at h
    rw [List.isEmpty_iff.mp h.1, entries_cons_empty rfl, ih h.2]

theorem entries_trimMatches (lines : List Text) :
    entries (trimMatches List.isEmpty lines) = entries lines := by
  obtain ⟨g, g', hsplit, hg, hg'⟩ := trimMatches_split List.isEmpty lines
  conv_rhs => rw [hsplit]
  rw [entries_append, entries_append, entries_blank hg, entries_blank hg', List.nil_append,
    List.append_nil]

/-! ## the parsers see the entries -/

theorem parseRoot_entries {ρ : Type} (key : Text) (value : Text → ρ) (missing : ρ)
    (lines : List Text) :
    parseRoot key value missing lines = parseRoot key value missing (entries lines) := by
  induction lines with
  | nil => rfl
  | cons line lines ih =>
    by_cases h : content line = []
    · rw [entries_cons_empty h, ← ih]
      simp [parseRoot, h]
    · rw [entries_cons h]
      simp only [parseRoot, content_content, ih]

theorem parseEnabledFrom_entries (inRoot : Bool) (lines : List Text) :
    parseEnabledFrom inRoot lines = parseEnabledFrom inRoot (entries lines) := by
  induction lines generalizing inRoot with
  | nil => rfl
  | cons line lines ih =>
    by_cases h : content line = []
    · rw [entries_cons_empty h, ← ih]
      simp [parseEnabledFrom, h, isTable]
    · rw [entries_cons h]
      simp only [parseEnabledFrom, content_content, ih]

theorem parseAsrModeFrom_entries (inRoot : Bool) (seen : List Text) (asrMode : Option AsrMode)
    (lines : List Text) :
    parseAsrModeFrom inRoot seen asrMode lines =
      parseAsrModeFrom inRoot seen asrMode (entries lines) := by
  induction lines generalizing inRoot seen asrMode with
  | nil => rfl
  | cons line lines ih =>
    by_cases h : content line = []
    · rw [entries_cons_empty h, ← ih]
      simp [parseAsrModeFrom, h]
    · rw [entries_cons h]
      simp only [parseAsrModeFrom, content_content, ih]

/-- the parser of Local recovery is one of the others after all -/
theorem parseEnabled_eq (contents : Text) : parseEnabled contents =
    parseRoot recoveryKey (fun value => some (decide (value = "true".toList))) none
      (strLines contents) := by
  have houtside (lines : List Text) : parseEnabledFrom false lines = none := by
    induction lines with
    | nil => rfl
    | cons line lines ih => simp [parseEnabledFrom, ih]
  unfold parseEnabled
  generalize strLines contents = lines
  induction lines with
  | nil => rfl
  | cons line lines ih =>
    simp only [parseEnabledFrom, parseRoot]
    by_cases hempty : content line = []
    · simp [hempty, isTable, ih]
    · by_cases htable : isTable (content line) = true
      · simp [htable, hempty, houtside]
      · simp only [htable, hempty, ih, List.isEmpty_iff, Bool.not_true, Bool.false_or,
          Bool.false_eq_true, if_false]

end

/-! ## what stays -/

/-- a line that the merge replaces: a managed header, or a root line of a key that is set -/
def drops (settings : Settings) (inRoot : Bool) (line : Text) : Bool :=
  isManagedComment line || (inRoot && !isTable (content line) &&
    (keyValue (content line)).any fun p => settings.replaces (trim p.1))

section
variable {settings : Settings} {inRoot : Bool} {lines lines' : List Text} {line : Text}

theorem preserved_cons : preserved settings inRoot (line :: lines) =
    (if drops settings inRoot line then [] else [line]) ++
      preserved settings (inRoot && !isTable (content line)) lines := by
  show (if drops settings inRoot line = true then
      preserved settings (inRoot && !isTable (content line)) lines
    else line :: preserved settings (inRoot && !isTable (content line)) lines) = _
  split <;> rfl

theorem managed_head {l : Text} (h : l ∈ managedLines ++ legacyManagedLines) :
    l.head? = some '#' := by
  rw [managedLines, legacyManagedLines, ← List.map_append] at h
  obtain ⟨text, -, rfl⟩ := List.mem_map.mp h
  rfl

theorem isManagedComment_nil : isManagedComment [] = false := by
  rw [Bool.eq_false_iff]
  intro h
  have hmem : ([] : Text) ∈ managedLines ++ legacyManagedLines := by
    rw [List.mem_append]
    simpa [isManagedComment, show trim [] = [] from rfl] using h
  exact absurd (managed_head hmem) (by simp)

theorem content_managed (h : isManagedComment line = true) : content line = [] := by
  have hmem : trim line ∈ managedLines ++ legacyManagedLines := by
    rw [List.mem_append]
    simpa [isManagedComment] using h
  obtain ⟨g, g', hsplit, hg, -⟩ := trimMatches_split isWhitespace line
  obtain ⟨rest, hrest⟩ : ∃ rest, trim line = '#' :: rest :=
    List.head?_eq_some_iff.mp (managed_head hmem)
  have hcomment : ∀ c ∈ g, (c != '#') = true := by
    intro c hc
    refine bne_iff_ne.mpr fun heq => ?_
    have := List.all_eq_true.mp hg c hc
    rw [heq] at this
    exact absurd this (by decide)
  have hline : line = g ++ '#' :: (rest ++ g') := by
    rw [hsplit, show trimMatches isWhitespace line = trim line from rfl, hrest]
    simp
  have hstrip : stripComment line = g := by
    rw [hline, stripComment, List.takeWhile_append_of_pos hcomment,
      List.takeWhile_cons_of_neg (by decide), List.append_nil]
  have hblank : g.dropWhile isWhitespace = [] :=
    List.dropWhile_eq_nil_iff.mpr fun c hc => List.all_eq_true.mp hg c hc
  rw [content, hstrip, trim, trimMatches, trimStartMatches, hblank]
  rfl

theorem drops_empty (h : content line = []) : drops settings inRoot line = isManagedComment line := by
  simp [drops, h, keyValue, splitOnceAt]

theorem drops_full (h : content line ≠ []) : drops settings inRoot line =
    (inRoot && !isTable (content line) &&
      (keyValue (content line)).any fun p => settings.replaces (trim p.1)) := by
  cases hmanaged : isManagedComment line with
  | true => exact absurd (content_managed hmanaged) h
  | false => simp [drops, hmanaged]

/-- a parser of another key does not miss what was dropped -/
theorem parseRoot_preserved {ρ : Type} {key : Text} (hkey : settings.replaces key = false)
    (value : Text → ρ) (missing : ρ) (lines : List Text) :
    parseRoot key value missing (preserved settings true lines) =
      parseRoot key value missing lines := by
  induction lines with
  | nil => rfl
  | cons line lines ih =>
    rw [preserved_cons]
    by_cases hempty : content line = []
    · have hroot : (true && !isTable (content line)) = true := by simp [hempty, isTable]
      rw [hroot]
      split
      · simp [parseRoot, hempty, ih]
      · simp [parseRoot, hempty, ih]
    · rw [drops_full hempty]
      cases htable : isTable (content line) with
      | true => simp [parseRoot, htable, hempty]
      | false =>
        cases hkv : keyValue (content line) with
        | none => simp [parseRoot, htable, hempty, hkv, ih]
        | some p =>
          obtain ⟨k, v⟩ := p
          cases hreplaced : settings.replaces (trim k) with
          | true =>
            have hne : trim k ≠ key := fun heq => by simp [heq, hkey] at hreplaced
            simp [parseRoot, htable, hempty, hkv, hreplaced, hne, ih]
          | false => simp [parseRoot, htable, hempty, hkv, hreplaced, ih]

/-! ## the strict parser -/

theorem parseAsrModeFrom_empty {seen : List Text} {asrMode : Option AsrMode}
    (h : content line = []) : parseAsrModeFrom inRoot seen asrMode (line :: lines) =
      parseAsrModeFrom inRoot seen asrMode lines := by
  simp [parseAsrModeFrom, h]

theorem parseAsrModeFrom_outside {seen : List Text} {asrMode : Option AsrMode}
    (lines : List Text) : parseAsrModeFrom false seen asrMode lines = .ok asrMode := by
  induction lines with
  | nil => rfl
  | cons line lines ih => simp [parseAsrModeFrom, ih]

theorem parseAsrModeFrom_table {seen : List Text} {asrMode : Option AsrMode}
    (h : isTable (content line) = true) :
    parseAsrModeFrom inRoot seen asrMode (line :: lines) = .ok asrMode := by
  have hfull : content line ≠ [] := fun hempty => by simp [hempty, isTable] at h
  simp [parseAsrModeFrom, h, hfull, parseAsrModeFrom_outside]

/-- a root line that is no table: the key under which it is remembered, and whether it is the
engine's -/
theorem parseAsrModeFrom_root {seen : List Text} {asrMode : Option AsrMode}
    (hfull : content line ≠ []) (htable : isTable (content line) = false) :
    parseAsrModeFrom true seen asrMode (line :: lines) =
      match keyValue (content line) with
      | none => .error unreadableLine
      | some (k, v) =>
        if (trim k).isEmpty || (trim k).contains '\\' then .error unreadableLine
        else if isAsrModeKey (trim k) then
          if asrModeKey ∈ seen then .error (setTwice (trim k))
          else (asrModeOf (trim v)).bind fun mode =>
            parseAsrModeFrom true (asrModeKey :: seen) (some mode) lines
        else if trim k ∈ seen then .error (setTwice (trim k))
        else parseAsrModeFrom true (trim k :: seen) asrMode lines := by
  simp only [parseAsrModeFrom, hfull, htable, List.isEmpty_iff, if_false, Bool.false_eq_true,
    Bool.not_true]
  cases keyValue (content line) with
  | none => rfl
  | some p =>
    obtain ⟨k, v⟩ := p
    by_cases hempty : trim k = []
    · simp [hempty]
    · by_cases hescaped : '\\' ∈ trim k
      · simp [hempty, hescaped]
      · cases hasr : isAsrModeKey (trim k) with
        | true =>
          simp only [hasr, hempty, hescaped, if_true, if_false, Bool.not_true, Bool.false_eq_true,
            List.contains_eq_mem, decide_eq_true_eq, decide_false, Bool.or_false,
            List.isEmpty_eq_false_iff.mpr hempty]
          cases asrModeOf (trim v) <;> rfl
        | false => simp [hasr, hempty, hescaped]

/-- how the strict parser comes through a list of root lines -/
inductive Accepts : List Text → Option AsrMode → List Text → Option AsrMode → Prop where
  | nil {seen asrMode} : Accepts seen asrMode [] asrMode
  | empty {seen asrMode line lines r} (hempty : content line = [])
      (h : Accepts seen asrMode lines r) : Accepts seen asrMode (line :: lines) r
  | table {seen asrMode line lines} (htable : isTable (content line) = true) :
      Accepts seen asrMode (line :: lines) asrMode
  | engine {seen asrMode line lines r k v mode} (htable : isTable (content line) = false)
      (hkv : keyValue (content line) = some (k, v)) (hkey : isAsrModeKey (trim k) = true)
      (hnew : asrModeKey ∉ seen) (hmode : asrModeOf (trim v) = .ok mode)
      (h : Accepts (asrModeKey :: seen) (some mode) lines r) :
      Accepts seen asrMode (line :: lines) r
  | other {seen asrMode line lines r k v} (htable : isTable (content line) = false)
      (hkv : keyValue (content line) = some (k, v)) (hreadable : trim k ≠ [] ∧ '\\' ∉ trim k)
      (hkey : isAsrModeKey (trim k) = false) (hnew : trim k ∉ seen)
      (h : Accepts (trim k :: seen) asrMode lines r) : Accepts seen asrMode (line :: lines) r

theorem full_of_keyValue {p : Text × Text} (h : keyValue (content line) = some p) :
    content line ≠ [] := by
  intro hempty
  simp [hempty, keyValue, splitOnceAt] at h

theorem isAsrModeKey_readable {k : Text} (h : isAsrModeKey k = true) : k ≠ [] ∧ '\\' ∉ k := by
  simp only [isAsrModeKey, Bool.or_eq_true, beq_iff_eq] at h
  rcases h with (rfl | rfl) | rfl <;> decide

theorem parseAsrModeFrom_eq_ok {seen : List Text} {asrMode r : Option AsrMode} :
    parseAsrModeFrom true seen asrMode lines = .ok r ↔ Accepts seen asrMode lines r := by
  constructor
  · intro h
    induction lines generalizing seen asrMode with
    | nil =>
      obtain rfl := Except.ok.inj h
      exact .nil
    | cons line lines ih =>
      by_cases hempty : content line = []
      · rw [parseAsrModeFrom_empty hempty] at h
        exact .empty hempty (ih h)
      · cases htable : isTable (content line) with
        | true =>
          rw [parseAsrModeFrom_table htable] at h
          obtain rfl := Except.ok.inj h
          exact .table htable
        | false =>
          rw [parseAsrModeFrom_root hempty htable] at h
          cases hkv : keyValue (content line) with
          | none => simp [hkv] at h
          | some p =>
            obtain ⟨k, v⟩ := p
            simp only [hkv] at h
            split at h
            · cases h
            · rename_i hreadable
              split at h
              · rename_i hkey
                split at h
                · cases h
                · rename_i hnew
                  cases hmode : asrModeOf (trim v) with
                  | error error => simp [hmode, Except.bind] at h
                  | ok mode =>
                    rw [hmode] at h
                    exact .engine htable hkv hkey hnew hmode (ih h)
              · rename_i hkey
                split at h
                · cases h
                · rename_i hnew
                  exact .other htable hkv (by simpa [not_or] using hreadable) (by simpa using hkey) hnew
                    (ih h)
  · intro h
    induction h with
    | nil => rfl
    | empty hempty h ih => rw [parseAsrModeFrom_empty hempty, ih]
    | table htable => exact parseAsrModeFrom_table htable
    | engine htable hkv hkey hnew hmode h ih =>
      obtain ⟨hne, hplain⟩ := isAsrModeKey_readable hkey
      rw [parseAsrModeFrom_root (full_of_keyValue hkv) htable]
      simp [hkv, hne, hplain, hkey, hnew, hmode, Except.bind, ih]
    | other htable hkv hreadable hkey hnew h ih =>
      rw [parseAsrModeFrom_root (full_of_keyValue hkv) htable]
      simp [hkv, hreadable.1, hreadable.2, hkey, hnew, ih]

theorem preserved_empty (h : content line = []) : preserved settings inRoot (line :: lines) =
    (if isManagedComment line then [] else [line]) ++ preserved settings inRoot lines := by
  rw [preserved_cons, drops_empty h]
  simp [h, isTable]

theorem preserved_table (h : isTable (content line) = true) :
    preserved settings inRoot (line :: lines) = line :: preserved settings false lines := by
  have hfull : content line ≠ [] := fun hempty => by simp [hempty, isTable] at h
  rw [preserved_cons, drops_full hfull]
  simp [h]

theorem preserved_keyValue {p : Text × Text} (htable : isTable (content line) = false)
    (hkv : keyValue (content line) = some p) : preserved settings true (line :: lines) =
      (if settings.replaces (trim p.1) then [] else [line]) ++ preserved settings true lines := by
  rw [preserved_cons, drops_full (full_of_keyValue hkv)]
  simp [htable, hkv]

/-- a setter of another key leaves the engine readable -/
theorem Accepts.keeps {seen seen' : List Text} {asrMode r : Option AsrMode}
    (h : Accepts seen asrMode lines r)
    (hasr : ∀ k, isAsrModeKey k = true → settings.replaces k = false)
    (hseen : ∀ k ∈ seen', k ∈ seen ∨ settings.replaces k = true) :
    Accepts seen' asrMode (preserved settings true lines) r := by
  have hfresh {key : Text} {seen seen' : List Text}
      (hseen : ∀ k ∈ seen', k ∈ seen ∨ settings.replaces k = true)
      (hkey : settings.replaces key = false) (hnew : key ∉ seen) : key ∉ seen' := fun hmem =>
    (hseen key hmem).elim hnew fun hr => by simp [hkey] at hr
  have hkeep (key : Text) {seen seen' : List Text}
      (hseen : ∀ k ∈ seen', k ∈ seen ∨ settings.replaces k = true) :
      ∀ k ∈ key :: seen', k ∈ key :: seen ∨ settings.replaces k = true := by
    intro k hk
    rcases List.mem_cons.mp hk with rfl | hk
    · exact .inl List.mem_cons_self
    · exact (hseen k hk).imp_left (List.mem_cons_of_mem _)
  induction h generalizing seen' with
  | nil => exact .nil
  | empty hempty h ih =>
    rw [preserved_empty hempty]
    split
    · exact ih hseen
    · exact .empty hempty (ih hseen)
  | table htable =>
    rw [preserved_table htable]
    exact .table htable
  | engine htable hkv hkey hnew hmode h ih =>
    rw [preserved_keyValue htable hkv, hasr _ hkey]
    exact .engine htable hkv hkey (hfresh hseen (hasr asrModeKey rfl) hnew) hmode
      (ih (hkeep asrModeKey hseen))
  | @other seen asrMode line lines r k v htable hkv hreadable hkey hnew h ih =>
    rw [preserved_keyValue htable hkv]
    cases hreplaced : settings.replaces (trim k) with
    | true =>
      refine ih fun k' hk' => ?_
      exact (hseen k' hk').imp_left (List.mem_cons_of_mem _)
    | false =>
      exact .other htable hkv hreadable hkey (hfresh hseen hreplaced hnew)
        (ih (hkeep (trim k) hseen))

/-- without the engine's lines the rest is accepted still, whether the engine is set before it or
not -/
theorem Accepts.without {seen seen' : List Text} {asrMode r : Option AsrMode}
    (h : Accepts seen asrMode lines r) (hasr : ∀ k, settings.replaces k = isAsrModeKey k)
    (hseen : ∀ k ∈ seen', k = asrModeKey ∨ k ∈ seen) (other : Option AsrMode) :
    Accepts seen' other (preserved settings true lines) other := by
  induction h generalizing seen' with
  | nil => exact .nil
  | empty hempty h ih =>
    rw [preserved_empty hempty]
    split
    · exact ih hseen
    · exact .empty hempty (ih hseen)
  | table htable =>
    rw [preserved_table htable]
    exact .table htable
  | engine htable hkv hkey hnew hmode h ih =>
    rw [preserved_keyValue htable hkv, hasr, hkey]
    exact ih fun k hk => (hseen k hk).imp_right (List.mem_cons_of_mem _)
  | @other seen asrMode line lines r k v htable hkv hreadable hkey hnew h ih =>
    have hnew' : trim k ∉ seen' := by
      intro hmem
      rcases hseen _ hmem with heq | hold
      · rw [heq] at hkey
        exact absurd hkey (by decide)
      · exact hnew hold
    rw [preserved_keyValue htable hkv, hasr, hkey]
    refine .other htable hkv hreadable hkey hnew' (ih fun k' hk' => ?_)
    rcases List.mem_cons.mp hk' with rfl | hk'
    · exact .inr List.mem_cons_self
    · exact (hseen k' hk').imp_right (List.mem_cons_of_mem _)

/-! ## line by line -/

theorem preserved_append : preserved settings inRoot (lines ++ lines') =
    preserved settings inRoot lines ++
      preserved settings (inRoot && lines.all fun line => !isTable (content line)) lines' := by
  induction lines generalizing inRoot with
  | nil => simp [preserved]
  | cons line lines ih =>
    rw [List.cons_append, preserved_cons, preserved_cons, ih, List.append_assoc, List.all_cons,
      Bool.and_assoc]

theorem preserved_sublist : (preserved settings inRoot lines).Sublist lines := by
  induction lines generalizing inRoot with
  | nil => exact List.Sublist.refl []
  | cons line lines ih =>
    rw [preserved_cons]
    split
    · exact ih.cons line
    · exact ih.cons_cons line

theorem not_isTable_of_drops (h : drops settings inRoot line = true) :
    isTable (content line) = false := by
  by_cases hempty : content line = []
  · simp [hempty, isTable]
  · rw [drops_full hempty] at h
    simp only [Bool.and_eq_true, Bool.not_eq_true'] at h
    exact h.1.2

/-- what has been kept once is kept -/
theorem preserved_preserved : preserved settings inRoot (preserved settings inRoot lines) =
    preserved settings inRoot lines := by
  induction lines generalizing inRoot with
  | nil => rfl
  | cons line lines ih =>
    rw [preserved_cons]
    split
    · rename_i hdrops
      have hroot : (inRoot && !isTable (content line)) = inRoot := by
        simp [not_isTable_of_drops hdrops]
      rw [List.nil_append, hroot, ih]
    · rename_i hdrops
      rw [List.singleton_append, preserved_cons, if_neg hdrops, ih]
      rfl

/-- a part of what has been kept is kept, when only blank lines stand before it -/
theorem preserved_middle {g g' : List Text} (hg : g.all List.isEmpty = true)
    (h : preserved settings true (g ++ lines ++ g') = g ++ lines ++ g') :
    preserved settings true lines = lines := by
  have hblank : preserved settings true g = g ∧
      (g.all fun line => !isTable (content line)) = true := by
    clear h
    induction g with
    | nil => exact ⟨rfl, rfl⟩
    | cons l g ih =>
      rw [List.all_cons, Bool.and_eq_true, List.isEmpty_iff] at hg
      obtain ⟨hsame, hroot⟩ := ih hg.2
      rw [hg.1, preserved_empty rfl, hsame, isManagedComment_nil, List.all_cons, hroot]
      exact ⟨rfl, rfl⟩
  rw [preserved_append, preserved_append, hblank.1, hblank.2, List.append_assoc, List.append_assoc,
    List.append_cancel_left_eq] at h
  have hlength := congrArg List.length h
  rw [List.length_append, List.length_append] at hlength
  have hle := (@preserved_sublist settings true lines).length_le
  have hle' := (@preserved_sublist settings
    (true && (g ++ lines).all fun line => !isTable (content line)) g').length_le
  simp only [Bool.and_true] at hlength hle'
  exact preserved_sublist.eq_of_length (by omega)

end

end Voisu.Config
