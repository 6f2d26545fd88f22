import Mathlib.Data.List.Basic
import Mathlib.Tactic.Common

/-!
# Texts addressed by byte offsets

A text is a list of symbols, each of which occupies a positive number of bytes.  An offset is
a number of bytes, and it is a BOUNDARY of a text when a whole number of symbols ends there.

* `cut n s`            the text before and after offset `n`, `none` off the boundaries;
* `slice i j s`        the text of the half-open range `[i, j)`, `none` where the range is
                       reversed, out of bounds or off the boundaries;
* `replaceRange i j r s`   the text with the range `[i, j)` replaced by `r`, with the same domain.

`cut_eq_some`, `slice_eq_some` and `replaceRange_eq_some` say what each of them returns as a
decomposition of the text into parts, which is how every proof above this file uses them.
-/

namespace Voisu.Lib

/-- the bytes of a text -/
def utf8 (text : List Char) : List UInt8 := text.flatMap String.utf8EncodeChar

/-- `str::from_utf8` -/
def fromUtf8 (bytes : List UInt8) : Option (List Char) := bytes.toByteArray.utf8Decode?.map Array.toList

theorem fromUtf8_utf8 (text : List Char) : fromUtf8 (utf8 text) = some text := by
  have hbytes : (utf8 text).toByteArray = text.utf8Encode := rfl
  rw [fromUtf8, hbytes, List.utf8Decode?_utf8Encode]
  rfl

/-- symbols that occupy a positive number of bytes -/
class ByteSized (α : Type) where
  size : α → Nat
  size_pos : ∀ a, 0 < size a

instance : ByteSized Char where
  size := Char.utf8Size
  size_pos := Char.utf8Size_pos

/-- a symbol that carries a mark is as long as the symbol -/
instance {α β : Type} [ByteSized α] : ByteSized (α × β) where
  size := fun a => ByteSized.size a.1
  size_pos := fun a => ByteSized.size_pos a.1

section
variable {α : Type} [ByteSized α]

def byteLen : List α → Nat
  | [] => 0
  | a :: s => ByteSized.size a + byteLen s

@[simp] theorem byteLen_nil : byteLen ([] : List α) = 0 := rfl
@[simp] theorem byteLen_cons (a : α) (s : List α) :
    byteLen (a :: s) = ByteSized.size a + byteLen s := rfl

@[simp] theorem byteLen_append (s t : List α) : byteLen (s ++ t) = byteLen s + byteLen t := by
  induction s with
  | nil => simp
  | cons a s ih => simp [ih, Nat.add_assoc]

theorem byteLen_eq_zero {s : List α} : byteLen s = 0 ↔ s = [] := by
  cases s with
  | nil => simp
  | cons a s =>
    have := ByteSized.size_pos a
    simp
    omega

theorem byteLen_pos {s : List α} (h : s ≠ []) : 0 < byteLen s := by
  rcases Nat.eq_zero_or_pos (byteLen s) with h0 | h0
  · exact absurd (Iff.mp byteLen_eq_zero h0) h
  · exact h0

theorem byteLen_reverse (s : List α) : byteLen s.reverse = byteLen s := by
  induction s with
  | nil => rfl
  | cons a s ih => simp [ih, Nat.add_comm]

theorem byteLen_reverse_flatten (l : List (List α)) :
    byteLen l.reverse.flatten = byteLen l.flatten := by
  induction l with
  | nil => rfl
  | cons a l ih => simp [ih, Nat.add_comm]

/-- two cuts of one text at the same offset are the same cut -/
theorem append_inj_byteLen {a b c d : List α} (h : a ++ b = c ++ d)
    (hl : byteLen a = byteLen c) : a = c ∧ b = d := by
  induction a generalizing c with
  | nil =>
    have hc : c = [] := Iff.mp byteLen_eq_zero (by simpa using hl.symm)
    subst hc
    exact ⟨rfl, by simpa using h⟩
  | cons x a ih =>
    cases c with
    | nil =>
      have := Iff.mp byteLen_eq_zero (show byteLen (x :: a) = 0 by simpa using hl)
      exact absurd this (by simp)
    | cons y c =>
      simp only [List.cons_append, List.cons.injEq] at h
      obtain ⟨hxy, ht⟩ := h
      subst hxy
      obtain ⟨h1, h2⟩ := ih ht (by simpa using hl)
      exact ⟨by rw [h1], h2⟩

/-- of two cuts of one text the one at the smaller offset is a prefix of the other -/
theorem prefix_of_byteLen_le {a b c d : List α} (h : a ++ b = c ++ d)
    (hl : byteLen a ≤ byteLen c) : ∃ m, c = a ++ m ∧ b = m ++ d := by
  induction a generalizing c with
  | nil => exact ⟨c, rfl, by simpa using h⟩
  | cons x a ih =>
    cases c with
    | nil =>
      have := ByteSized.size_pos x
      simp at hl
      omega
    | cons y c =>
      simp only [List.cons_append, List.cons.injEq] at h
      obtain ⟨hxy, ht⟩ := h
      subst hxy
      obtain ⟨m, h1, h2⟩ := ih ht (by simpa using hl)
      exact ⟨m, by rw [h1, List.cons_append], h2⟩

/-! ## cuts -/

def cut : Nat → List α → Option (List α × List α)
  | 0, s => some ([], s)
  | _ + 1, [] => none
  | n + 1, a :: s =>
    if ByteSized.size a ≤ n + 1 then
      (cut (n + 1 - ByteSized.size a) s).map fun p => (a :: p.1, p.2)
    else none

theorem cut_zero (s : List α) : cut 0 s = some ([], s) := by
  cases s <;> rfl

theorem cut_succ_nil (n : Nat) : cut (n + 1) ([] : List α) = none := rfl

theorem cut_succ_cons (n : Nat) (a : α) (s : List α) :
    cut (n + 1) (a :: s) =
      if ByteSized.size a ≤ n + 1 then
        (cut (n + 1 - ByteSized.size a) s).map fun p => (a :: p.1, p.2)
      else none := rfl

/-- **a cut is a decomposition of the text at that offset** -/
theorem cut_eq_some {n : Nat} {s a b : List α} :
    cut n s = some (a, b) ↔ s = a ++ b ∧ byteLen a = n := by
  induction s generalizing n a with
  | nil =>
    cases n with
    | zero =>
      rw [cut_zero, Option.some.injEq, Prod.mk.injEq, byteLen_eq_zero]
      constructor
      · rintro ⟨rfl, rfl⟩
        exact ⟨rfl, rfl⟩
      · rintro ⟨h, rfl⟩
        exact ⟨rfl, h⟩
    | succ n =>
      simp only [cut_succ_nil, reduceCtorEq, List.nil_eq, List.append_eq_nil_iff, false_iff,
        not_and]
      rintro ⟨rfl, -⟩
      simp
  | cons x s ih =>
    have hx := ByteSized.size_pos x
    cases n with
    | zero =>
      simp only [cut_zero, Option.some.injEq, Prod.mk.injEq]
      constructor
      · rintro ⟨rfl, rfl⟩; simp
      · rintro ⟨h1, h2⟩
        have ha := Iff.mp byteLen_eq_zero h2
        subst ha
        exact ⟨rfl, h1⟩
    | succ n =>
      rw [cut_succ_cons]
      cases a with
      | nil =>
        split
        · simp
        · simp
      | cons y a =>
        split
        · rename_i hle
          simp only [Option.map_eq_some_iff, Prod.exists, Prod.mk.injEq, List.cons.injEq]
          constructor
          · rintro ⟨a', b', h, ⟨rfl, rfl⟩, rfl⟩
            obtain ⟨h1, h2⟩ := ih.mp h
            refine ⟨by simp [h1], ?_⟩
            simp only [byteLen_cons]
            omega
          · rintro ⟨h, hl⟩
            simp only [List.cons_append, List.cons.injEq] at h
            obtain ⟨rfl, h⟩ := h
            refine ⟨a, b, ih.mpr ⟨h, ?_⟩, ⟨rfl, rfl⟩, rfl⟩
            simp only [byteLen_cons] at hl
            omega
        · rename_i hlt
          simp only [reduceCtorEq, false_iff, not_and]
          rintro h hl
          simp only [List.cons_append, List.cons.injEq] at h
          obtain ⟨rfl, h⟩ := h
          simp only [byteLen_cons] at hl
          omega

theorem cut_append (a b : List α) : cut (byteLen a) (a ++ b) = some (a, b) :=
  Iff.mpr cut_eq_some ⟨rfl, rfl⟩

/-- a byte offset at which a whole number of symbols ends -/
def isBoundary (n : Nat) (s : List α) : Bool := (cut n s).isSome

theorem isBoundary_iff {n : Nat} {s : List α} :
    isBoundary n s = true ↔ ∃ a b, s = a ++ b ∧ byteLen a = n := by
  rw [isBoundary, Option.isSome_iff_exists]
  constructor
  · rintro ⟨⟨a, b⟩, h⟩
    exact ⟨a, b, Iff.mp cut_eq_some h⟩
  · rintro ⟨a, b, h⟩
    exact ⟨(a, b), Iff.mpr cut_eq_some h⟩

/-! ## slices and replacements -/

def slice (i j : Nat) (s : List α) : Option (List α) :=
  if i ≤ j then
    (cut i s).bind fun p => (cut (j - i) p.2).map Prod.fst
  else none

theorem slice_eq_some {i j : Nat} {s m : List α} :
    slice i j s = some m ↔ ∃ a b, s = a ++ m ++ b ∧ byteLen a = i ∧ byteLen a + byteLen m = j := by
  unfold slice
  constructor
  · intro h
    split at h
    · rename_i hij
      obtain ⟨⟨a, r⟩, hc, h⟩ := Option.bind_eq_some_iff.mp h
      obtain ⟨⟨m', b⟩, hm, rfl⟩ := Option.map_eq_some_iff.mp h
      obtain ⟨rfl, hi⟩ := Iff.mp cut_eq_some hc
      obtain ⟨hr, hj⟩ := Iff.mp cut_eq_some hm
      simp only at hr
      subst hr
      exact ⟨a, b, by simp, hi, by simp only; omega⟩
    · exact absurd h (by simp)
  · rintro ⟨a, b, rfl, rfl, rfl⟩
    rw [if_pos (by omega), List.append_assoc, cut_append, Option.bind_some]
    simp only [Nat.add_sub_cancel_left]
    rw [cut_append, Option.map_some]

theorem slice_append (a m b : List α) :
    slice (byteLen a) (byteLen a + byteLen m) (a ++ m ++ b) = some m :=
  Iff.mpr slice_eq_some ⟨a, b, rfl, rfl, rfl⟩

/-- a range between boundaries has a slice -/
theorem slice_of_boundary {i j : Nat} {s : List α} (hij : i ≤ j) (hi : isBoundary i s = true)
    (hj : isBoundary j s = true) : ∃ m, slice i j s = some m := by
  obtain ⟨a, b, rfl, ha⟩ := Iff.mp isBoundary_iff hi
  obtain ⟨c, d, hcd, hc⟩ := Iff.mp isBoundary_iff hj
  obtain ⟨m, rfl, rfl⟩ := prefix_of_byteLen_le hcd (by omega)
  rw [byteLen_append] at hc
  exact ⟨m, Iff.mpr slice_eq_some ⟨a, d, by simp, ha, hc⟩⟩

/-- the text with the range `[i, j)` replaced by `r` -/
def replaceRange (i j : Nat) (r s : List α) : Option (List α) :=
  if i ≤ j then
    (cut i s).bind fun p => (cut (j - i) p.2).map fun q => p.1 ++ r ++ q.2
  else none

theorem replaceRange_eq_some {i j : Nat} {r s t : List α} :
    replaceRange i j r s = some t ↔
      ∃ a m b, s = a ++ m ++ b ∧ byteLen a = i ∧ byteLen a + byteLen m = j ∧ t = a ++ r ++ b := by
  unfold replaceRange
  constructor
  · intro h
    split at h
    · rename_i hij
      obtain ⟨⟨a, u⟩, hc, h⟩ := Option.bind_eq_some_iff.mp h
      obtain ⟨⟨m, b⟩, hm, rfl⟩ := Option.map_eq_some_iff.mp h
      obtain ⟨rfl, hi⟩ := Iff.mp cut_eq_some hc
      obtain ⟨hu, hj⟩ := Iff.mp cut_eq_some hm
      simp only at hu
      subst hu
      exact ⟨a, m, b, by simp, hi, by omega, rfl⟩
    · exact absurd h (by simp)
  · rintro ⟨a, m, b, rfl, rfl, rfl, rfl⟩
    rw [if_pos (by omega), List.append_assoc, cut_append, Option.bind_some]
    simp only [Nat.add_sub_cancel_left]
    rw [cut_append, Option.map_some]

theorem replaceRange_append (a m b r : List α) :
    replaceRange (byteLen a) (byteLen a + byteLen m) r (a ++ m ++ b) = some (a ++ r ++ b) :=
  Iff.mpr replaceRange_eq_some ⟨a, m, b, rfl, rfl, rfl, rfl⟩

example : replaceRange 1 3 ['e'] ['c', 'é', '!'] = some ['c', 'e', '!'] := by decide +kernel

end

/-! ## maps that keep the size of every symbol -/

section
variable {α β : Type} [ByteSized α] [ByteSized β] (f : α → β)
  (hf : ∀ a, ByteSized.size (f a) = ByteSized.size a)
include hf

theorem byteLen_map (s : List α) : byteLen (s.map f) = byteLen s := by
  induction s with
  | nil => rfl
  | cons a s ih => rw [List.map_cons, byteLen_cons, byteLen_cons, hf, ih]

end

end Voisu.Lib
