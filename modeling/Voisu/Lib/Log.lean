import Mathlib.Data.List.DropRight
import Voisu.Lib.Runs

/-!
# Logs of lines

* `lines`            the non-empty lines of a log;
* `lineBreakFor`     the separator that a log needs before the next line;
* `lines_append_line`, `lines_append_torn`   a line that is appended, in whole or in part;
* `rtake_filter_rtake`   dropping the oldest entries early changes nothing, when the entries that
                     are filtered out later are the oldest too.
-/

set_option linter.unusedSectionVars false

namespace Voisu.Lib

/-! ## lines -/

instance : ByteSized UInt8 where
  size := fun _ => 1
  size_pos := fun _ => Nat.one_pos

section
variable {α : Type} [ByteSized α] [DecidableEq α] (newline : α)

def isLineByte (a : α) : Bool := a != newline

/-- the pieces between line feeds, without the empty ones -/
def lines (log : List α) : List (List α) := words (isLineByte newline) log

/-- a log that ends inside a line is separated from the next one -/
def lineBreakFor (log : List α) : List α :=
  if lastSep (isLineByte newline) log then [] else [newline]

variable {newline}

theorem all_isLineByte {line : List α} (h : newline ∉ line) :
    line.all (isLineByte newline) = true := by
  rw [List.all_eq_true]
  intro a ha
  show (a != newline) = true
  rw [bne_iff_ne]
  rintro rfl
  exact h ha

theorem lines_gap (newline : α) : lines newline [newline] = [] :=
  words_gap (by simp [isLineByte])

/-- behind its separator a log goes on with a new line -/
theorem lines_append_break (log rest : List α) :
    lines newline (log ++ lineBreakFor newline log ++ rest) =
      lines newline log ++ lines newline rest := by
  unfold lineBreakFor
  split
  · rename_i h
    rw [List.append_nil]
    exact words_append (by rw [h, Bool.true_or])
  · have hlog : lines newline (log ++ [newline]) = lines newline log := by
      have h := @words_append _ _ (isLineByte newline) log [newline] (by simp [headSep, isLineByte])
      rw [show words (isLineByte newline) [newline] = [] from lines_gap newline,
        List.append_nil] at h
      exact h
    have hsep : lastSep (isLineByte newline) (log ++ [newline]) = true := by
      rw [lastSep_append_of_ne_nil (by simp)]
      simp [lastSep, headSep, isLineByte]
    have h := @words_append _ _ (isLineByte newline) (log ++ [newline]) rest
      (by rw [hsep, Bool.true_or])
    rw [show words (isLineByte newline) (log ++ [newline]) = lines newline log from hlog] at h
    exact h

/-- **an appended line** -/
theorem lines_append_line (log : List α) {line : List α} (h : newline ∉ line) (hne : line ≠ []) :
    lines newline (log ++ lineBreakFor newline log ++ (line ++ [newline])) =
      lines newline log ++ [line] := by
  have hline : lines newline (line ++ [newline]) = [line] := by
    have h' := @words_append _ _ (isLineByte newline) line [newline]
      (by simp [headSep, isLineByte])
    rw [words_run (all_isLineByte h) hne] at h'
    rw [show words (isLineByte newline) [newline] = [] from lines_gap newline] at h'
    exact h'
  rw [lines_append_break, hline]

/-- a line at the front of a log -/
theorem lines_cons_line {line : List α} (h : newline ∉ line) (hne : line ≠ [])
    (rest : List α) :
    lines newline (line ++ [newline] ++ rest) = line :: lines newline rest := by
  have hsep : lastSep (isLineByte newline) (line ++ [newline]) = true := by
    rw [lastSep_append_of_ne_nil (by simp)]
    simp [lastSep, headSep, isLineByte]
  have hrest := @words_append _ _ (isLineByte newline) (line ++ [newline]) rest
    (by rw [hsep, Bool.true_or])
  have hline := @lines_append_line _ _ _ newline [] line h hne
  rw [show lineBreakFor newline ([] : List α) = [] from rfl, List.nil_append, List.nil_append,
    show lines newline ([] : List α) = [] from words_gap rfl, List.nil_append] at hline
  rw [show words (isLineByte newline) (line ++ [newline]) = [line] from hline] at hrest
  exact hrest

/-- **a line that is written in part** -/
theorem lines_append_torn (log : List α) {part : List α} (h : newline ∉ part) :
    lines newline (log ++ lineBreakFor newline log ++ part) =
      lines newline log ++ if part = [] then [] else [part] := by
  rw [lines_append_break]
  congr 1
  split
  · rename_i h0
    rw [h0]
    exact words_gap rfl
  · rename_i hne
    exact words_run (all_isLineByte h) hne

/-- the separator written alone, or not even that -/
theorem lines_append_take_break (log : List α) (n : Nat) :
    lines newline (log ++ (lineBreakFor newline log).take n) = lines newline log := by
  cases n with
  | zero => rw [List.take_zero, List.append_nil]
  | succ n =>
    have hlen : (lineBreakFor newline log).length ≤ n + 1 := by
      unfold lineBreakFor
      split <;> simp
    rw [List.take_of_length_le hlen]
    have h := @lines_append_break _ _ _ newline log []
    rw [List.append_nil] at h
    rw [h, show lines newline ([] : List α) = [] from words_gap rfl, List.append_nil]

end

/-! ## the newest entries -/

section
variable {α : Type} {p : α → Bool}

theorem rtake_append_of_le {n : Nat} {s t : List α} (h : n ≤ t.length) :
    (s ++ t).rtake n = t.rtake n := by
  unfold List.rtake
  rw [List.length_append, List.drop_append, List.drop_eq_nil_of_le (by omega), List.nil_append]
  congr 1
  omega

theorem rtake_of_length_le {n : Nat} {l : List α} (h : l.length ≤ n) : l.rtake n = l := by
  unfold List.rtake
  rw [Nat.sub_eq_zero_of_le h]
  rfl

theorem rtake_map {β : Type} (f : α → β) (n : Nat) (l : List α) :
    (l.map f).rtake n = (l.rtake n).map f := by
  unfold List.rtake
  rw [List.length_map, List.map_drop]

/-- **entries beyond the newest `n` may go early** -/
theorem rtake_filter_rtake {n : Nat} {l new : List α}
    (h : l.Pairwise fun a b => p a = true → p b = true) :
    (((l.rtake n).filter p) ++ new).rtake n = (l.filter p ++ new).rtake n := by
  by_cases hle : l.length ≤ n
  · rw [rtake_of_length_le hle]
  · have hsplit : l = l.take (l.length - n) ++ l.rtake n := (List.take_append_drop _ l).symm
    have hlen : (l.rtake n).length = n := by
      unfold List.rtake
      rw [List.length_drop]
      omega
    generalize hold : l.take (l.length - n) = old at hsplit
    generalize hkeep : l.rtake n = keep at hsplit hlen ⊢
    rw [hsplit] at h ⊢
    rw [List.filter_append, List.append_assoc]
    by_cases hnone : old.filter p = []
    · rw [hnone, List.nil_append]
    · -- an old entry that stays keeps every newer one
      obtain ⟨a, ha⟩ := List.exists_mem_of_ne_nil _ hnone
      obtain ⟨ha, hpa⟩ := List.mem_filter.mp ha
      have hall : keep.filter p = keep := by
        rw [List.filter_eq_self]
        intro b hb
        exact (List.pairwise_append.mp h).2.2 a ha b hb hpa
      rw [hall]
      have hn : n ≤ (keep ++ new).length := by
        rw [List.length_append]
        omega
      exact (rtake_append_of_le hn).symm

end

end Voisu.Lib
