import Voisu.Credentials.File

/-!
# The lines of the credential fallback file

A line is what `str::lines` reads, before a write and after it: a break is LF or CR LF, and one of two
carriage returns before an LF, or a lone one at the end of the file, belongs to the line.

* `otherLines`          what is neither the header nor a line of the provider;
* `otherLines_unlines`  the lines of a text that is written are read back, each short of a carriage
                        return at its end;
* `Written`, `Removed`  what is promised of a write and of a removal;
* `fallbackFile`        **both promises are kept for every file, however it was edited**.
-/

namespace Voisu.Credentials
open Lib

def otherLines (contents : Text) (provider : Provider) : List Text :=
  (strLines contents).filter fun line =>
    line ≠ headerLine && !keyed (secretServiceValue provider) line

/-- no other line keeps a carriage return -/
def NoReturns (contents : Text) (provider : Provider) : Prop :=
  ∀ line ∈ otherLines contents provider, line.getLast? ≠ some '\r'

/-- the lines of `contents` but those of the provider are read in `after` below a header, each short of
a carriage return at its end -/
structure Kept (contents : Text) (p : Provider) (after : Text) : Prop where
  read : (strLines after).filter (fun line => !keyed (secretServiceValue p) line) =
    headerLine :: (otherLines contents p).map chompReturn
  unchanged : NoReturns contents p → otherLines after p = otherLines contents p
  once : NoReturns contents p → (strLines after).count headerLine = 1

/-- what a write promises -/
structure Written (contents : Text) (p : Provider) (value after : Text) : Prop where
  found : findLine after p = some (trim value)
  other : ∀ q, q ≠ p → findLine after q = findLine contents q
  kept : Kept contents p after

/-- what a removal that does not fail leaves of a file -/
structure Removed (contents : Text) (p : Provider) (removed : Bool) (after : Option Text) :
    Prop where
  reported : removed = (findLine contents p).isSome
  gone : foundIn after p = none
  other : ∀ q, q ≠ p → foundIn after q = findLine contents q
  left : removed = false → after = some contents
  kept : ∀ text, removed = true → after = some text → Kept contents p text
  deleted : after = none → ∀ line ∈ otherLines contents p, trim line = []

section
variable {contents : Text} {p : Provider}

theorem keptLines_eq (contents : Text) (p : Provider) :
    keptLines contents p = otherLines contents p := by
  rw [keptLines, bodyLines, List.filter_filter, otherLines]
  congr 1
  funext line
  rw [Bool.and_comm]

theorem mergedLines_others (p : Provider) (value : Text) (lines : List Text) :
    (mergedLines (secretServiceValue p) value lines).filter
        (fun line => !keyed (secretServiceValue p) line) =
      lines.filter fun line => !keyed (secretServiceValue p) line := by
  have hnew : (!keyed (secretServiceValue p) (keyLine (secretServiceValue p) value)) = false := by
    rw [keyed_keyLine]
    rfl
  have hmap (lines : List Text) :
      (lines.map fun line => if keyed (secretServiceValue p) line then
          keyLine (secretServiceValue p) value else line).filter
        (fun line => !keyed (secretServiceValue p) line) =
      lines.filter fun line => !keyed (secretServiceValue p) line := by
    induction lines with
    | nil => rfl
    | cons line lines ih =>
      by_cases hk : keyed (secretServiceValue p) line = true
      · rw [List.map_cons, if_pos hk, List.filter_cons_of_neg (by simp [hnew]),
          List.filter_cons_of_neg (by simp [hk]), ih]
      · rw [List.map_cons, if_neg hk, List.filter_cons_of_pos (by simp [hk]),
          List.filter_cons_of_pos (by simp [hk]), ih]
  rw [mergedLines, List.filter_append, hmap]
  split
  · exact List.append_nil _
  · rw [List.filter_singleton, hnew]
    exact List.append_nil _

theorem keyed_chompReturn (key line : Text) : keyed key (chompReturn line) = keyed key line := by
  rw [← lineValue_isSome, lineValue_chompReturn, lineValue_isSome]

theorem filter_chompReturn (key : Text) (lines : List Text) :
    (lines.map chompReturn).filter (fun line => !keyed key line) =
      (lines.filter fun line => !keyed key line).map chompReturn := by
  rw [List.filter_map]
  congr 1
  refine List.filter_congr fun line _ => ?_
  simp only [Function.comp_apply, keyed_chompReturn]

/-- below the header `lines` are written, of which the provider's are not looked at -/
theorem kept_unlines {lines : List Text} (hbroken : ∀ l ∈ lines, '\n' ∉ l)
    (hother : lines.filter (fun line => !keyed (secretServiceValue p) line) = otherLines contents p) :
    Kept contents p (unlines (headerLine :: lines)) := by
  have hlines : strLines (unlines (headerLine :: lines)) = headerLine :: lines.map chompReturn := by
    rw [strLines_unlines]
    · rfl
    · intro l hl
      rcases List.mem_cons.1 hl with rfl | hl
      · exact not_mem_headerLine
      · exact hbroken l hl
  have hread : (strLines (unlines (headerLine :: lines))).filter
      (fun line => !keyed (secretServiceValue p) line) =
        headerLine :: (otherLines contents p).map chompReturn := by
    rw [hlines, List.filter_cons_of_pos (by rw [keyed_headerLine]; rfl), filter_chompReturn, hother]
  have hsame : NoReturns contents p →
      (otherLines contents p).map chompReturn = otherLines contents p := by
    intro hreturns
    refine List.map_congr_left (g := id) (fun line hline => ?_) |>.trans (List.map_id _)
    exact if_neg (hreturns line hline)
  have hnone : headerLine ∉ otherLines contents p := fun h => by
    simpa using (List.mem_filter.1 h).2
  refine ⟨hread, fun hreturns => ?_, fun hreturns => ?_⟩
  · have hfilter : otherLines (unlines (headerLine :: lines)) p =
        ((strLines (unlines (headerLine :: lines))).filter
          (fun line => !keyed (secretServiceValue p) line)).filter (fun line => line ≠ headerLine) := by
      rw [List.filter_filter]
      rfl
    rw [hfilter, hread, hsame hreturns, List.filter_cons_of_neg (by simp), List.filter_eq_self]
    intro line hline
    simpa using fun heq : line = headerLine => hnone (heq ▸ hline)
  · have hcount : (strLines (unlines (headerLine :: lines))).count headerLine =
        ((strLines (unlines (headerLine :: lines))).filter
          (fun line => !keyed (secretServiceValue p) line)).count headerLine :=
      (List.count_filter (by rw [keyed_headerLine]; rfl)).symm
    rw [hcount, hread, hsame hreturns, List.count_cons_self, List.count_eq_zero.2 hnone]

theorem mergeLine_written (contents : Text) (p : Provider) (c : Credential) :
    Written contents p c.value (mergeLine contents p c.value) where
  found := by rw [findLine_mergeLine _ _ _ c.oneLine.1, if_pos rfl]
  other q hq := by rw [findLine_mergeLine _ _ _ c.oneLine.1, if_neg hq.symm]
  kept := by
    rw [mergeLine_eq]
    refine kept_unlines (not_mem_mergedLines c.oneLine.1) ?_
    rw [mergedLines_others, ← keptLines_eq]
    rfl

/-- a line of the provider is there exactly when its value is found -/
theorem any_keyed (contents : Text) (p : Provider) :
    (bodyLines contents).any (keyed (secretServiceValue p)) = (findLine contents p).isSome := by
  rw [← findSome?_bodyLines, List.isSome_findSome?]
  congr 1
  funext line
  exact (lineValue_isSome _ _).symm

theorem removed_none (h : findLine contents p = none) :
    Removed contents p false (some contents) where
  reported := by rw [h]; rfl
  gone := h
  other q hq := rfl
  left _ := rfl
  kept _ h := by cases h
  deleted h := by cases h

theorem removed_pruned (h : (findLine contents p).isSome = true) :
    Removed contents p true (pruned contents p) where
  reported := h.symm
  gone := by rw [foundIn_pruned, if_pos rfl]
  other q hq := by rw [foundIn_pruned, if_neg hq.symm]
  left h := by cases h
  kept text _ heq := by
    rw [pruned] at heq
    split at heq
    · cases heq
    · rw [← Option.some.inj heq, keptLines_eq]
      refine kept_unlines (fun l hl => not_mem_of_mem_strLines (List.mem_filter.1 hl).1) ?_
      rw [List.filter_eq_self]
      intro line hline
      exact ((Bool.and_eq_true _ _).mp (List.mem_filter.1 hline).2).2
  deleted heq := by
    rw [pruned] at heq
    split at heq
    next hblank =>
      rw [keptLines_eq] at hblank
      exact fun line hline => List.isEmpty_iff.1 (List.all_eq_true.1 hblank line hline)
    next => cases heq

theorem remove_removed {disk : Disk} {removed : Bool}
    (h : (FileSecretStore.remove disk (some contents) p).1 = .ok removed) :
    Removed contents p removed (FileSecretStore.remove disk (some contents) p).2 := by
  rcases FileSecretStore.remove_cases disk contents p with ⟨error, heq⟩ | ⟨hnone, heq⟩ | ⟨hany, heq⟩
  · rw [heq] at h
    cases h
  · rw [heq] at h ⊢
    obtain rfl : false = removed := Except.ok.inj h
    exact removed_none hnone
  · rw [heq] at h ⊢
    obtain rfl : true = removed := Except.ok.inj h
    exact removed_pruned (by rw [← any_keyed]; exact hany)

/-- nothing fails on a sound disk -/
theorem remove_sound (contents : Text) (p : Provider) :
    ∃ removed, (FileSecretStore.remove .sound (some contents) p).1 = .ok removed := by
  rw [FileSecretStore.remove]
  cases hmem : (bodyLines contents).any (keyed (secretServiceValue p)) with
  | false => exact ⟨false, by simp only [Disk.sound]; rfl⟩
  | true =>
    cases hbody : pruned contents p with
    | none => exact ⟨true, rfl⟩
    | some body => exact ⟨true, rfl⟩

/-- **what a write and a removal do to the file, for every text that it may hold** -/
theorem fallbackFile (contents : Text) (p : Provider) :
    (∀ c : Credential, Written contents p c.value (mergeLine contents p c.value)) ∧
      (∀ disk removed, (FileSecretStore.remove disk (some contents) p).1 = .ok removed →
        Removed contents p removed (FileSecretStore.remove disk (some contents) p).2) ∧
      ∃ removed, (FileSecretStore.remove .sound (some contents) p).1 = .ok removed :=
  ⟨mergeLine_written contents p, fun _ _ => remove_removed, remove_sound contents p⟩

end

/-- a header behind which a carriage return stands is a line of its own, and a second header once it is
written back -/
example : (strLines (mergeLine (headerLine ++ ['\r']) .groq "k".toList)).count headerLine = 2 := by
  decide

/-- a space that belongs to the value is not read back -/
theorem findLine_padded : Credential.new " gsk".toList =
      .ok ⟨" gsk".toList, by decide, by decide⟩ ∧
    findLine (mergeLine [] .groq " gsk".toList) .groq = some "gsk".toList := by
  decide

end Voisu.Credentials
