import Mathlib
import Voisu.Json
import Voisu.Lib.Levenshtein
import Voisu.Lib.Chars

/-!
# The word errors of a transcript

* `levenshteinOps`      two rows of costs that take turns, and one backpointer for each cell;
* `matrixOps`           the same with the whole matrix of costs;
* `cost`, `pointer`     the cells that both fill in;
* `rolling_fills`, `matrix_fills`   they do;
* `Alignment`           the edits of an alignment, counted by their kind;
* `levenshteinOps_spec` **the traced path is an alignment, the matrix gives the same counts, and the
                        total is the edit distance as long as no cost leaves its 32 bits**.
-/

namespace Voisu.TranscriptQuality
open Lib

/-- a 32-bit addition; in a build without overflow checks it wraps -/
def add32 (a b : Nat) : Nat := (a + b) % 2 ^ 32

/-- `as u32` -/
def asU32 (n : Nat) : Nat := n % 2 ^ 32

/-- the price of a substitution of the tokens before `i` and `j` -/
def substitution (reference hypothesis : List Text) (i j : Nat) : Nat :=
  if reference.getD (i - 1) [] = hypothesis.getD (j - 1) [] then 0 else 1

/-- the cheapest of three edits, and its backpointer: 1 = del, 2 = ins, 3 = sub/match -/
def choose (del ins sub : Nat) : Nat × Nat :=
  if del ≤ ins ∧ del ≤ sub then (del, 1)
  else if ins ≤ sub then (ins, 2)
  else (sub, 3)

/-! ## two rows that take turns -/

structure Table where
  dp : Nat → Nat → Nat
  back : Nat → Nat

namespace Table

def new : Table := { dp := fun _ _ => 0, back := fun _ => 0 }

def setCost (t : Table) (row column value : Nat) : Table :=
  { t with dp := fun r c => if r = row ∧ c = column then value else t.dp r c }

def setBack (t : Table) (index value : Nat) : Table :=
  { t with back := fun n => if n = index then value else t.back n }

end Table

section
variable (reference hypothesis : List Text)

def idx (i j : Nat) : Nat := i * (hypothesis.length + 1) + j

def rollingCell (i : Nat) (t : Table) (j : Nat) : Table :=
  let cur := i % 2
  let prev := 1 - cur
  let cell := choose (add32 (t.dp prev j) 1) (add32 (t.dp cur (j - 1)) 1)
    (add32 (t.dp prev (j - 1)) (substitution reference hypothesis i j))
  (t.setCost cur j cell.1).setBack (idx hypothesis i j) cell.2

def rollingRow (t : Table) (i : Nat) : Table :=
  (List.range' 1 hypothesis.length).foldl (rollingCell reference hypothesis i)
    ((t.setCost (i % 2) 0 (asU32 i)).setBack (idx hypothesis i 0) 1)

def rollingFirst (t : Table) (j : Nat) : Table :=
  (t.setCost 0 j (asU32 j)).setBack (idx hypothesis 0 j) 2

def rollingTable : Table :=
  (List.range' 1 reference.length).foldl (rollingRow reference hypothesis)
    ((List.range' 1 hypothesis.length).foldl (rollingFirst hypothesis) .new)

end

/-! ## the whole matrix -/

structure Matrix where
  dp : Nat → Nat → Nat
  back : Nat → Nat → Nat

namespace Matrix

def new : Matrix := { dp := fun _ _ => 0, back := fun _ _ => 0 }

def set (t : Matrix) (row column : Nat) (cell : Nat × Nat) : Matrix :=
  { dp := fun r c => if r = row ∧ c = column then cell.1 else t.dp r c
    back := fun r c => if r = row ∧ c = column then cell.2 else t.back r c }

end Matrix

section
variable (reference hypothesis : List Text)

def matrixCell (i : Nat) (t : Matrix) (j : Nat) : Matrix :=
  t.set i j (choose (add32 (t.dp (i - 1) j) 1) (add32 (t.dp i (j - 1)) 1)
    (add32 (t.dp (i - 1) (j - 1)) (substitution reference hypothesis i j)))

def matrixRow (t : Matrix) (i : Nat) : Matrix :=
  (List.range' 1 hypothesis.length).foldl (matrixCell reference hypothesis i) t

def matrixTable : Matrix :=
  let t := (List.range' 1 reference.length).foldl (fun t i => t.set i 0 (asU32 i, 1)) .new
  let t := (List.range' 1 hypothesis.length).foldl (fun t j => t.set 0 j (asU32 j, 2)) t
  (List.range' 1 reference.length).foldl (matrixRow reference hypothesis) t

end

/-! ## the traceback -/

structure Counts where
  insertions : Nat
  deletions : Nat
  substitutions : Nat
deriving DecidableEq, Repr

def Counts.total (c : Counts) : Nat := c.insertions + c.deletions + c.substitutions

/-- how the loop ends: both indices at zero, the `break` arm, or an index below zero, a panic -/
inductive TraceEnd where
  | returned (counts : Counts)
  | broke (counts : Counts)
  | underflow
deriving DecidableEq, Repr

section
variable (reference hypothesis : List Text)

def traceback (back : Nat → Nat → Nat) (i j : Nat) (c : Counts) : TraceEnd :=
  if i = 0 ∧ j = 0 then .returned c
  else if back i j = 1 then
    if 0 < i then traceback back (i - 1) j { c with deletions := c.deletions + 1 }
    else .underflow
  else if back i j = 2 then
    if 0 < j then traceback back i (j - 1) { c with insertions := c.insertions + 1 }
    else .underflow
  else if back i j = 3 then
    if 0 < i ∧ 0 < j then
      traceback back (i - 1) (j - 1)
        { c with substitutions := c.substitutions + substitution reference hypothesis i j }
    else .underflow
  else .broke c
termination_by i + j

def levenshteinOps : TraceEnd :=
  traceback reference hypothesis
    (fun i j => (rollingTable reference hypothesis).back (idx hypothesis i j))
    reference.length hypothesis.length ⟨0, 0, 0⟩

def matrixOps : TraceEnd :=
  traceback reference hypothesis (matrixTable reference hypothesis).back
    reference.length hypothesis.length ⟨0, 0, 0⟩

end

/-! ## the cells -/

section
variable (reference hypothesis : List Text)

def cost (i j : Nat) : Nat :=
  match i, j with
  | 0, j => asU32 j
  | i + 1, 0 => asU32 (i + 1)
  | i + 1, j + 1 =>
    (choose (add32 (cost i (j + 1)) 1) (add32 (cost (i + 1) j) 1)
      (add32 (cost i j) (substitution reference hypothesis (i + 1) (j + 1)))).1
termination_by (i, j)

def pointer (i j : Nat) : Nat :=
  match i, j with
  | 0, 0 => 0
  | 0, _ + 1 => 2
  | _ + 1, 0 => 1
  | i + 1, j + 1 =>
    (choose (add32 (cost reference hypothesis i (j + 1)) 1)
      (add32 (cost reference hypothesis (i + 1) j) 1)
      (add32 (cost reference hypothesis i j)
        (substitution reference hypothesis (i + 1) (j + 1)))).2

end

section
variable {reference hypothesis : List Text} {i j : Nat}

theorem cost_zero (j : Nat) : cost reference hypothesis 0 j = asU32 j := by
  rw [cost]

theorem cost_succ_zero (i : Nat) : cost reference hypothesis (i + 1) 0 = asU32 (i + 1) := by
  rw [cost]

variable (reference hypothesis) in
theorem cost_pointer (i j : Nat) :
    (cost reference hypothesis (i + 1) (j + 1), pointer reference hypothesis (i + 1) (j + 1)) =
      choose (add32 (cost reference hypothesis i (j + 1)) 1)
        (add32 (cost reference hypothesis (i + 1) j) 1)
        (add32 (cost reference hypothesis i j)
          (substitution reference hypothesis (i + 1) (j + 1))) := by
  rw [cost, pointer]

/-- the flat index tells the cells of the table apart -/
theorem idx_inj {i' j' : Nat} (hj : j ≤ hypothesis.length) (hj' : j' ≤ hypothesis.length) :
    idx hypothesis i j = idx hypothesis i' j' ↔ i = i' ∧ j = j' := by
  constructor
  · intro h
    rw [idx, idx] at h
    have hdiv (a b : Nat) (hb : b ≤ hypothesis.length) :
        (a * (hypothesis.length + 1) + b) / (hypothesis.length + 1) = a := by
      rw [Nat.add_comm, Nat.add_mul_div_right _ _ (Nat.succ_pos _),
        Nat.div_eq_of_lt (Nat.lt_succ_of_le hb), Nat.zero_add]
    have hi : i = i' := by
      rw [← hdiv i j hj, h, hdiv i' j' hj']
    subst hi
    exact ⟨rfl, Nat.add_left_cancel h⟩
  · rintro ⟨rfl, rfl⟩
    rfl

@[simp] theorem setCost_dp (t : Table) (row column value r c : Nat) :
    (t.setCost row column value).dp r c = if r = row ∧ c = column then value else t.dp r c := rfl

@[simp] theorem setCost_back (t : Table) (row column value : Nat) :
    (t.setCost row column value).back = t.back := rfl

@[simp] theorem setBack_dp (t : Table) (index value : Nat) :
    (t.setBack index value).dp = t.dp := rfl

theorem setBack_idx {r c : Nat} (hj : j ≤ hypothesis.length) (hc : c ≤ hypothesis.length)
    (t : Table) (value : Nat) : (t.setBack (idx hypothesis i j) value).back (idx hypothesis r c) =
      if r = i ∧ c = j then value else t.back (idx hypothesis r c) := by
  simp only [Table.setBack, idx_inj hc hj]

/-! ## the rolling table -/

/-- the rows up to `i`, the last of them up to column `j`, and the row before it -/
structure Filled (reference hypothesis : List Text) (i j : Nat) (t : Table) : Prop where
  current : ∀ c ≤ j, t.dp (i % 2) c = cost reference hypothesis i c
  previous : 0 < i → ∀ c ≤ hypothesis.length,
    t.dp (1 - i % 2) c = cost reference hypothesis (i - 1) c
  back : ∀ r c, c ≤ hypothesis.length → r < i ∨ r = i ∧ c ≤ j →
    t.back (idx hypothesis r c) = pointer reference hypothesis r c

theorem first_fills (n : Nat) (hn : n ≤ hypothesis.length) :
    Filled reference hypothesis 0 n
      ((List.range' 1 n).foldl (rollingFirst hypothesis) .new) := by
  induction n with
  | zero =>
    refine ⟨fun c hc => ?_, fun h => absurd h (Nat.lt_irrefl 0), fun r c _ h => ?_⟩
    · obtain rfl : c = 0 := Nat.le_zero.1 hc
      rw [cost_zero]
      rfl
    · obtain ⟨rfl, rfl⟩ : r = 0 ∧ c = 0 := by omega
      rfl
  | succ n ih =>
    have h := ih (Nat.le_of_succ_le hn)
    rw [List.range'_1_concat, List.foldl_concat, Nat.add_comm 1 n]
    generalize (List.range' 1 n).foldl (rollingFirst hypothesis) .new = t at h
    refine ⟨fun c hc => ?_, fun h => absurd h (Nat.lt_irrefl 0), fun r c hlen hrc => ?_⟩
    · rw [rollingFirst, setBack_dp, setCost_dp]
      by_cases hlast : c = n + 1
      · rw [if_pos ⟨rfl, hlast⟩, cost_zero, hlast]
      · rw [if_neg fun h => hlast h.2]
        exact h.current c (by omega)
    · obtain rfl : r = 0 := by omega
      rw [rollingFirst, setBack_idx hn hlen, setCost_back]
      by_cases hlast : c = n + 1
      · rw [if_pos ⟨rfl, hlast⟩, hlast, pointer]
      · rw [if_neg fun h => hlast h.2]
        exact h.back 0 c hlen (.inr ⟨rfl, by omega⟩)

/-- one more cell of a row -/
theorem Filled.cell {t : Table} (hi : 0 < i) (hj : j + 1 ≤ hypothesis.length)
    (h : Filled reference hypothesis i j t) :
    Filled reference hypothesis i (j + 1) (rollingCell reference hypothesis i t (j + 1)) := by
  obtain ⟨i, rfl⟩ : ∃ n, i = n + 1 := ⟨i - 1, by omega⟩
  have hother : 1 - (i + 1) % 2 ≠ (i + 1) % 2 := by omega
  have hcell : choose (add32 (t.dp (1 - (i + 1) % 2) (j + 1)) 1)
      (add32 (t.dp ((i + 1) % 2) (j + 1 - 1)) 1)
      (add32 (t.dp (1 - (i + 1) % 2) (j + 1 - 1))
        (substitution reference hypothesis (i + 1) (j + 1))) =
      (cost reference hypothesis (i + 1) (j + 1), pointer reference hypothesis (i + 1) (j + 1)) := by
    rw [Nat.add_sub_cancel, h.previous hi (j + 1) hj, h.current j (Nat.le_refl j),
      h.previous hi j (Nat.le_of_succ_le hj), cost_pointer, Nat.add_sub_cancel]
  rw [rollingCell]
  simp only [hcell]
  refine ⟨fun c hc => ?_, fun _ c hc => ?_, fun r c hlen hrc => ?_⟩
  · rw [setBack_dp, setCost_dp]
    by_cases hlast : c = j + 1
    · rw [if_pos ⟨rfl, hlast⟩, hlast]
    · rw [if_neg fun h => hlast h.2]
      exact h.current c (by omega)
  · rw [setBack_dp, setCost_dp, if_neg fun h => hother h.1]
    exact h.previous hi c hc
  · rw [setBack_idx hj hlen, setCost_back]
    by_cases hlast : r = i + 1 ∧ c = j + 1
    · rw [if_pos hlast, hlast.1, hlast.2]
    · rw [if_neg hlast]
      exact h.back r c hlen (by omega)

theorem Filled.cells {t : Table} (hi : 0 < i) (h : Filled reference hypothesis i 0 t) (n : Nat)
    (hn : n ≤ hypothesis.length) : Filled reference hypothesis i n
      ((List.range' 1 n).foldl (rollingCell reference hypothesis i) t) := by
  induction n with
  | zero => exact h
  | succ n ih =>
    rw [List.range'_1_concat, List.foldl_concat, Nat.add_comm 1 n]
    exact (ih (Nat.le_of_succ_le hn)).cell hi hn

/-- **the rows change their roles at the first cell of a row** -/
theorem Filled.row {t : Table} (h : Filled reference hypothesis i hypothesis.length t) :
    Filled reference hypothesis (i + 1) hypothesis.length
      (rollingRow reference hypothesis t (i + 1)) := by
  have hturn : 1 - (i + 1) % 2 = i % 2 := by omega
  have hother : i % 2 ≠ (i + 1) % 2 := by omega
  refine Filled.cells (Nat.succ_pos i) ⟨fun c hc => ?_, fun _ c hc => ?_, fun r c hlen hrc => ?_⟩ _
    (Nat.le_refl _)
  · obtain rfl : c = 0 := Nat.le_zero.1 hc
    rw [setBack_dp, setCost_dp, if_pos ⟨rfl, rfl⟩, cost_succ_zero]
  · rw [setBack_dp, setCost_dp, hturn, if_neg fun h => hother h.1]
    exact h.current c hc
  · rw [setBack_idx (Nat.zero_le _) hlen, setCost_back]
    by_cases hlast : r = i + 1 ∧ c = 0
    · rw [if_pos hlast, hlast.1, hlast.2, pointer]
    · rw [if_neg hlast]
      exact h.back r c hlen (by omega)

variable (reference hypothesis) in
/-- **the two rows and the flat array give the cells of the matrix** -/
theorem rolling_fills (n : Nat) : Filled reference hypothesis n hypothesis.length
    ((List.range' 1 n).foldl (rollingRow reference hypothesis)
      ((List.range' 1 hypothesis.length).foldl (rollingFirst hypothesis) .new)) := by
  induction n with
  | zero => exact first_fills hypothesis.length (Nat.le_refl _)
  | succ n ih =>
    rw [List.range'_1_concat, List.foldl_concat, Nat.add_comm 1 n]
    exact ih.row

/-! ## the matrix -/

/-- the cells that are done -/
def MatrixFilled (reference hypothesis : List Text) (done : Nat → Nat → Prop) (t : Matrix) :
    Prop :=
  ∀ r c, done r c →
    t.dp r c = cost reference hypothesis r c ∧ t.back r c = pointer reference hypothesis r c

theorem MatrixFilled.set {done done' : Nat → Nat → Prop} {t : Matrix} {cell : Nat × Nat}
    (h : MatrixFilled reference hypothesis done t)
    (hcell : cell = (cost reference hypothesis i j, pointer reference hypothesis i j))
    (hdone : ∀ r c, done' r c → r = i ∧ c = j ∨ done r c) :
    MatrixFilled reference hypothesis done' (t.set i j cell) := by
  intro r c hrc
  show (if r = i ∧ c = j then cell.1 else t.dp r c) = _ ∧
    (if r = i ∧ c = j then cell.2 else t.back r c) = _
  by_cases hlast : r = i ∧ c = j
  · rw [if_pos hlast, if_pos hlast, hcell, hlast.1, hlast.2]
    exact ⟨rfl, rfl⟩
  · rw [if_neg hlast, if_neg hlast]
    exact h r c ((hdone r c hrc).resolve_left hlast)

variable (reference hypothesis) in
theorem left_fills (n : Nat) : MatrixFilled reference hypothesis (fun r c => c = 0 ∧ r ≤ n)
    ((List.range' 1 n).foldl (fun t i => t.set i 0 (asU32 i, 1)) .new) := by
  induction n with
  | zero =>
    rintro r c ⟨rfl, hr⟩
    obtain rfl : r = 0 := Nat.le_zero.1 hr
    rw [cost_zero, pointer]
    exact ⟨rfl, rfl⟩
  | succ n ih =>
    rw [List.range'_1_concat, List.foldl_concat, Nat.add_comm 1 n]
    exact ih.set (by rw [cost_succ_zero, pointer]) fun r c h => by omega

theorem top_fills {t : Matrix} (k : Nat)
    (h : MatrixFilled reference hypothesis (fun r c => c = 0 ∧ r ≤ k) t) (n : Nat) :
    MatrixFilled reference hypothesis (fun r c => c = 0 ∧ r ≤ k ∨ r = 0 ∧ c ≤ n)
      ((List.range' 1 n).foldl (fun t j => t.set 0 j (asU32 j, 2)) t) := by
  induction n with
  | zero => exact fun r c hrc => h r c (by omega)
  | succ n ih =>
    rw [List.range'_1_concat, List.foldl_concat, Nat.add_comm 1 n]
    exact ih.set (by rw [cost_zero, pointer]) fun r c h => by omega

/-- the borders, the rows before `i`, and row `i` up to column `j` -/
def DoneUpTo (n m i j : Nat) (r c : Nat) : Prop :=
  c = 0 ∧ r ≤ n ∨ r = 0 ∧ c ≤ m ∨ r < i ∧ c ≤ m ∨ r = i ∧ c ≤ j

theorem matrix_cells {t : Matrix} (hi : i + 1 ≤ reference.length)
    (h : MatrixFilled reference hypothesis
      (DoneUpTo reference.length hypothesis.length (i + 1) 0) t) (n : Nat)
    (hn : n ≤ hypothesis.length) :
    MatrixFilled reference hypothesis (DoneUpTo reference.length hypothesis.length (i + 1) n)
      ((List.range' 1 n).foldl (matrixCell reference hypothesis (i + 1)) t) := by
  induction n with
  | zero => exact h
  | succ n ih =>
    have hrow := ih (Nat.le_of_succ_le hn)
    rw [List.range'_1_concat, List.foldl_concat, Nat.add_comm 1 n]
    generalize (List.range' 1 n).foldl (matrixCell reference hypothesis (i + 1)) t = t at hrow
    refine hrow.set ?_ fun r c h => by unfold DoneUpTo at h ⊢; omega
    have hdel := (hrow i (n + 1) (by unfold DoneUpTo; omega)).1
    have hins := (hrow (i + 1) n (by unfold DoneUpTo; omega)).1
    have hsub := (hrow i n (by unfold DoneUpTo; omega)).1
    rw [Nat.add_sub_cancel, Nat.add_sub_cancel, hdel, hins, hsub, cost_pointer]

/-- **the matrix holds the same cells** -/
theorem matrix_fills (n : Nat) (hn : n ≤ reference.length) {t : Matrix}
    (h : MatrixFilled reference hypothesis
      (fun r c => c = 0 ∧ r ≤ reference.length ∨ r = 0 ∧ c ≤ hypothesis.length) t) :
    MatrixFilled reference hypothesis
      (DoneUpTo reference.length hypothesis.length n hypothesis.length)
      ((List.range' 1 n).foldl (matrixRow reference hypothesis) t) := by
  induction n with
  | zero => exact fun r c hrc => h r c (by unfold DoneUpTo at hrc; omega)
  | succ n ih =>
    have hrows := ih (Nat.le_of_succ_le hn)
    rw [List.range'_1_concat, List.foldl_concat, Nat.add_comm 1 n]
    refine matrix_cells hn (fun r c hrc => hrows r c ?_) _ (Nat.le_refl _)
    unfold DoneUpTo at hrc ⊢
    omega

/-! ## the path -/

theorem traceback_congr {back back' : Nat → Nat → Nat} {n m : Nat}
    (h : ∀ r c, r ≤ n → c ≤ m → back r c = back' r c) (c : Counts) (hi : i ≤ n) (hj : j ≤ m) :
    traceback reference hypothesis back i j c = traceback reference hypothesis back' i j c := by
  fun_induction traceback reference hypothesis back i j c with
  | case1 i j c hend => rw [traceback, if_pos hend]
  | case2 i j c hend hdel hpos ih =>
    conv_rhs => rw [traceback, if_neg hend, ← h i j hi hj, if_pos hdel, if_pos hpos]
    exact ih (by omega) hj
  | case3 i j c hend hdel hpos =>
    rw [traceback, if_neg hend, ← h i j hi hj, if_pos hdel, if_neg hpos]
  | case4 i j c hend hdel hins hpos ih =>
    conv_rhs => rw [traceback, if_neg hend, ← h i j hi hj, if_neg hdel, if_pos hins, if_pos hpos]
    exact ih hi (by omega)
  | case5 i j c hend hdel hins hpos =>
    rw [traceback, if_neg hend, ← h i j hi hj, if_neg hdel, if_pos hins, if_neg hpos]
  | case6 i j c hend hdel hins hsub hpos ih =>
    conv_rhs =>
      rw [traceback, if_neg hend, ← h i j hi hj, if_neg hdel, if_neg hins, if_pos hsub, if_pos hpos]
    exact ih (by omega) (by omega)
  | case7 i j c hend hdel hins hsub hpos =>
    rw [traceback, if_neg hend, ← h i j hi hj, if_neg hdel, if_neg hins, if_pos hsub, if_neg hpos]
  | case8 i j c hend hdel hins hsub =>
    rw [traceback, if_neg hend, ← h i j hi hj, if_neg hdel, if_neg hins, if_neg hsub]

/-- the path along the pointers of the cells -/
theorem levenshteinOps_eq (reference hypothesis : List Text) :
    levenshteinOps reference hypothesis =
      traceback reference hypothesis (pointer reference hypothesis) reference.length
        hypothesis.length ⟨0, 0, 0⟩ := by
  have hfilled := rolling_fills reference hypothesis reference.length
  exact traceback_congr (fun r c hr hc => hfilled.back r c hc (by omega)) _ (Nat.le_refl _)
    (Nat.le_refl _)

theorem matrixOps_eq (reference hypothesis : List Text) :
    matrixOps reference hypothesis =
      traceback reference hypothesis (pointer reference hypothesis) reference.length
        hypothesis.length ⟨0, 0, 0⟩ := by
  have hborders := top_fills reference.length
    (left_fills reference hypothesis reference.length)
    hypothesis.length
  have hfilled := matrix_fills reference.length (Nat.le_refl _) hborders
  exact traceback_congr (fun r c hr hc => (hfilled r c (by unfold DoneUpTo; omega)).2) _
    (Nat.le_refl _) (Nat.le_refl _)

/-- an alignment of two sequences, built up at its end -/
inductive Alignment : List Text → List Text → Counts → Prop
  | nil : Alignment [] [] ⟨0, 0, 0⟩
  | keep (a : Text) {as bs : List Text} {c : Counts} : Alignment as bs c →
      Alignment (as ++ [a]) (bs ++ [a]) c
  | sub {a b : Text} {as bs : List Text} {c : Counts} : a ≠ b → Alignment as bs c →
      Alignment (as ++ [a]) (bs ++ [b]) { c with substitutions := c.substitutions + 1 }
  | del (a : Text) {as bs : List Text} {c : Counts} : Alignment as bs c →
      Alignment (as ++ [a]) bs { c with deletions := c.deletions + 1 }
  | ins (b : Text) {as bs : List Text} {c : Counts} : Alignment as bs c →
      Alignment as (bs ++ [b]) { c with insertions := c.insertions + 1 }

theorem Alignment.lengths {as bs : List Text} {c : Counts} (h : Alignment as bs c) :
    c.insertions + as.length = c.deletions + bs.length := by
  induction h with
  | nil => rfl
  | keep a _ ih =>
    simp only [List.length_append, List.length_singleton]
    omega
  | sub _ _ ih =>
    simp only [List.length_append, List.length_singleton]
    omega
  | del a _ ih =>
    simp only [List.length_append, List.length_singleton]
    omega
  | ins b _ ih =>
    simp only [List.length_append, List.length_singleton]
    omega

theorem Alignment.script {as bs : List Text} {c : Counts} (h : Alignment as bs c) :
    Script as bs c.total := by
  induction h with
  | nil => exact .nil
  | keep a _ ih => exact ih.append (.keep a .nil)
  | @sub a b as bs c _ _ ih =>
    have htotal : Counts.total { c with substitutions := c.substitutions + 1 } = c.total + 1 := rfl
    rw [htotal]
    exact ih.append (.sub a b .nil)
  | @del a as bs c _ ih =>
    have htotal : Counts.total { c with deletions := c.deletions + 1 } = c.total + 1 := by
      simp only [Counts.total]
      omega
    have hscript := ih.append (.del a .nil)
    rw [List.append_nil] at hscript
    rw [htotal]
    exact hscript
  | @ins b as bs c _ ih =>
    have htotal : Counts.total { c with insertions := c.insertions + 1 } = c.total + 1 := by
      simp only [Counts.total]
      omega
    have hscript := ih.append (.ins b .nil)
    rw [List.append_nil] at hscript
    rw [htotal]
    exact hscript

/-- counts on top of others -/
def Counts.plus (c d : Counts) : Counts :=
  ⟨c.insertions + d.insertions, c.deletions + d.deletions, c.substitutions + d.substitutions⟩

theorem take_succ_getD {l : List Text} {k : Nat} (hk : k + 1 ≤ l.length) :
    l.take (k + 1) = l.take k ++ [l.getD k []] := by
  rw [List.take_add_one, List.getElem?_eq_getElem hk, List.getD_eq_getElem?_getD,
    List.getElem?_eq_getElem hk]
  rfl

variable (reference hypothesis) in
theorem pointer_cases (i j : Nat) (h : ¬(i = 0 ∧ j = 0)) :
    pointer reference hypothesis i j = 1 ∧ 0 < i ∨ pointer reference hypothesis i j = 2 ∧ 0 < j ∨
      pointer reference hypothesis i j = 3 ∧ 0 < i ∧ 0 < j := by
  match i, j, h with
  | 0, 0, h => exact absurd ⟨rfl, rfl⟩ h
  | 0, j + 1, _ => exact .inr (.inl ⟨by rw [pointer], Nat.succ_pos j⟩)
  | i + 1, 0, _ => exact .inl ⟨by rw [pointer], Nat.succ_pos i⟩
  | i + 1, j + 1, _ =>
    rw [pointer, choose]
    split
    · exact .inl ⟨rfl, Nat.succ_pos i⟩
    · split
      · exact .inr (.inl ⟨rfl, Nat.succ_pos j⟩)
      · exact .inr (.inr ⟨rfl, Nat.succ_pos i, Nat.succ_pos j⟩)

/-- what one step of the traceback does to the prefixes -/
theorem traceback_step (i j : Nat) (c : Counts) (h : ¬(i = 0 ∧ j = 0)) :
    traceback reference hypothesis (pointer reference hypothesis) i j c =
      if pointer reference hypothesis i j = 1 then
        traceback reference hypothesis (pointer reference hypothesis) (i - 1) j
          { c with deletions := c.deletions + 1 }
      else if pointer reference hypothesis i j = 2 then
        traceback reference hypothesis (pointer reference hypothesis) i (j - 1)
          { c with insertions := c.insertions + 1 }
      else traceback reference hypothesis (pointer reference hypothesis) (i - 1) (j - 1)
          { c with substitutions := c.substitutions + substitution reference hypothesis i j } := by
  rw [traceback, if_neg h]
  rcases pointer_cases reference hypothesis i j h with
    ⟨hptr, hi⟩ | ⟨hptr, hj⟩ | ⟨hptr, hi, hj⟩
  · rw [if_pos hptr, if_pos hptr, if_pos hi]
  · have hne : pointer reference hypothesis i j ≠ 1 := by omega
    rw [if_neg hne, if_neg hne, if_pos hptr, if_pos hptr, if_pos hj]
  · have hne : pointer reference hypothesis i j ≠ 1 := by omega
    have hne' : pointer reference hypothesis i j ≠ 2 := by omega
    rw [if_neg hne, if_neg hne, if_neg hne', if_neg hne', if_pos hptr, if_pos ⟨hi, hj⟩]

variable (reference hypothesis) in
/-- **the path never breaks off, and it aligns the prefixes** -/
theorem traceback_aligns (n : Nat) {i j : Nat} (hn : i + j = n) (hi : i ≤ reference.length)
    (hj : j ≤ hypothesis.length) (c : Counts) :
    ∃ d, traceback reference hypothesis (pointer reference hypothesis) i j c =
        .returned (d.plus c) ∧
      Alignment (reference.take i) (hypothesis.take j) d := by
  induction n using Nat.strong_induction_on generalizing i j c with
  | _ n ih =>
  by_cases hend : i = 0 ∧ j = 0
  · obtain ⟨rfl, rfl⟩ := hend
    refine ⟨⟨0, 0, 0⟩, ?_, .nil⟩
    rw [traceback, if_pos ⟨rfl, rfl⟩]
    simp [Counts.plus]
  · rw [traceback_step i j c hend]
    rcases pointer_cases reference hypothesis i j hend with
      ⟨hptr, hpos⟩ | ⟨hptr, hpos⟩ | ⟨hptr, hpos, hpos'⟩
    · obtain ⟨i, rfl⟩ : ∃ k, i = k + 1 := ⟨i - 1, by omega⟩
      obtain ⟨d, hd, halign⟩ := ih (i + j) (by omega) rfl (Nat.le_of_succ_le hi) hj
        { c with deletions := c.deletions + 1 }
      refine ⟨{ d with deletions := d.deletions + 1 }, ?_, ?_⟩
      · rw [if_pos hptr, Nat.add_sub_cancel, hd]
        simp [Counts.plus]
        omega
      · rw [take_succ_getD hi]
        exact halign.del _
    · obtain ⟨j, rfl⟩ : ∃ k, j = k + 1 := ⟨j - 1, by omega⟩
      obtain ⟨d, hd, halign⟩ := ih (i + j) (by omega) rfl hi (Nat.le_of_succ_le hj)
        { c with insertions := c.insertions + 1 }
      refine ⟨{ d with insertions := d.insertions + 1 }, ?_, ?_⟩
      · rw [if_neg (by omega), if_pos hptr, Nat.add_sub_cancel, hd]
        simp [Counts.plus]
        omega
      · rw [take_succ_getD hj]
        exact halign.ins _
    · obtain ⟨i, rfl⟩ : ∃ k, i = k + 1 := ⟨i - 1, by omega⟩
      obtain ⟨j, rfl⟩ : ∃ k, j = k + 1 := ⟨j - 1, by omega⟩
      obtain ⟨d, hd, halign⟩ := ih (i + j) (by omega) rfl (Nat.le_of_succ_le hi)
        (Nat.le_of_succ_le hj)
        { c with
          substitutions := c.substitutions + substitution reference hypothesis (i + 1) (j + 1) }
      rw [if_neg (by omega), if_neg (by omega), Nat.add_sub_cancel, Nat.add_sub_cancel, hd,
        take_succ_getD hi, take_succ_getD hj]
      by_cases hsame : reference.getD i [] = hypothesis.getD j []
      · refine ⟨d, ?_, ?_⟩
        · have hprice : substitution reference hypothesis (i + 1) (j + 1) = 0 := if_pos hsame
          rw [hprice]
          rfl
        · rw [hsame]
          exact halign.keep _
      · refine ⟨{ d with substitutions := d.substitutions + 1 }, ?_, halign.sub hsame⟩
        have hprice : substitution reference hypothesis (i + 1) (j + 1) = 1 := if_neg hsame
        rw [hprice]
        simp [Counts.plus]
        omega

/-! ## the costs -/

theorem choose_eq (del ins sub : Nat) : (choose del ins sub).1 = min sub (min del ins) := by
  rw [choose]
  split
  · simp only
    omega
  · split
    · simp only
      omega
    · simp only
      omega

/-- no addition overflows below the limit -/
theorem add32_levenshtein {i j k : Nat} (hi : i ≤ reference.length) (hj : j ≤ hypothesis.length)
    (hlimit : max reference.length hypothesis.length + 1 < 2 ^ 32) (hk : k ≤ 1) :
    add32 (levenshtein (reference.take i) (hypothesis.take j)) k =
      levenshtein (reference.take i) (hypothesis.take j) + k := by
  have hmax := levenshtein_le_max (reference.take i) (hypothesis.take j)
  rw [List.length_take_of_le hi, List.length_take_of_le hj] at hmax
  exact Nat.mod_eq_of_lt (by omega)

/-- **below the limit of the 32 bits a cell costs the distance of its prefixes** -/
theorem cost_eq (n : Nat) {i j : Nat} (hn : i + j = n) (hi : i ≤ reference.length)
    (hj : j ≤ hypothesis.length) (hlimit : max reference.length hypothesis.length + 1 < 2 ^ 32) :
    cost reference hypothesis i j = levenshtein (reference.take i) (hypothesis.take j) := by
  induction n using Nat.strong_induction_on generalizing i j with
  | _ n ih =>
  match i, j with
  | 0, j =>
    rw [cost_zero, List.take_zero, nil_levenshtein, List.length_take_of_le hj]
    exact Nat.mod_eq_of_lt (by omega)
  | i + 1, 0 =>
    rw [cost_succ_zero, List.take_zero, levenshtein_nil, List.length_take_of_le hi]
    exact Nat.mod_eq_of_lt (by omega)
  | i + 1, j + 1 =>
    have hi' := Nat.le_of_succ_le hi
    have hj' := Nat.le_of_succ_le hj
    have hprice : substitution reference hypothesis (i + 1) (j + 1) ≤ 1 := by
      rw [substitution]
      split <;> omega
    have hcell := congrArg Prod.fst (cost_pointer reference hypothesis i j)
    rw [ih (i + (j + 1)) (by omega) rfl hi' hj, ih (i + 1 + j) (by omega) rfl hi hj',
      ih (i + j) (by omega) rfl hi' hj', add32_levenshtein hi' hj hlimit (Nat.le_refl 1),
      add32_levenshtein hi hj' hlimit (Nat.le_refl 1), add32_levenshtein hi' hj' hlimit hprice,
      choose_eq] at hcell
    have hlast := levenshtein_concat (reference.take i) (hypothesis.take j)
      (reference.getD i []) (hypothesis.getD j [])
    rw [← take_succ_getD hi, ← take_succ_getD hj] at hlast
    rw [hlast]
    exact hcell

theorem choose_pointer (del ins sub : Nat) :
    (choose del ins sub).1 =
      if (choose del ins sub).2 = 1 then del
      else if (choose del ins sub).2 = 2 then ins else sub := by
  rw [choose]
  split
  · rfl
  · split <;> rfl

/-- the distance of two prefixes, read off the pointer -/
theorem pointer_price {i j : Nat} (hi : i ≤ reference.length) (hj : j ≤ hypothesis.length)
    (hlimit : max reference.length hypothesis.length + 1 < 2 ^ 32) (hend : ¬(i = 0 ∧ j = 0)) :
    levenshtein (reference.take i) (hypothesis.take j) =
      if pointer reference hypothesis i j = 1 then
        levenshtein (reference.take (i - 1)) (hypothesis.take j) + 1
      else if pointer reference hypothesis i j = 2 then
        levenshtein (reference.take i) (hypothesis.take (j - 1)) + 1
      else levenshtein (reference.take (i - 1)) (hypothesis.take (j - 1)) +
        substitution reference hypothesis i j := by
  match i, j, hend with
  | 0, 0, h => exact absurd ⟨rfl, rfl⟩ h
  | 0, j + 1, _ =>
    have hptr : pointer reference hypothesis 0 (j + 1) = 2 := by rw [pointer]
    rw [hptr, if_neg (by omega), if_pos rfl, List.take_zero, nil_levenshtein, nil_levenshtein,
      List.length_take_of_le hj, Nat.add_sub_cancel, List.length_take_of_le (Nat.le_of_succ_le hj)]
  | i + 1, 0, _ =>
    have hptr : pointer reference hypothesis (i + 1) 0 = 1 := by rw [pointer]
    rw [hptr, if_pos rfl, List.take_zero, levenshtein_nil, levenshtein_nil,
      List.length_take_of_le hi, Nat.add_sub_cancel, List.length_take_of_le (Nat.le_of_succ_le hi)]
  | i + 1, j + 1, _ =>
    have hi' := Nat.le_of_succ_le hi
    have hj' := Nat.le_of_succ_le hj
    have hcell := cost_pointer reference hypothesis i j
    have hchoose := choose_pointer (add32 (cost reference hypothesis i (j + 1)) 1)
      (add32 (cost reference hypothesis (i + 1) j) 1)
      (add32 (cost reference hypothesis i j)
        (substitution reference hypothesis (i + 1) (j + 1)))
    rw [← hcell] at hchoose
    simp only at hchoose
    have hprice : substitution reference hypothesis (i + 1) (j + 1) ≤ 1 := by
      rw [substitution]
      split <;> omega
    rw [cost_eq _ rfl hi hj hlimit, cost_eq _ rfl hi' hj hlimit, cost_eq _ rfl hi hj' hlimit,
      cost_eq _ rfl hi' hj' hlimit, add32_levenshtein hi' hj hlimit (Nat.le_refl 1),
      add32_levenshtein hi hj' hlimit (Nat.le_refl 1), add32_levenshtein hi' hj' hlimit hprice]
      at hchoose
    exact hchoose

/-- **and the path to it has that many edits** -/
theorem traceback_total (n : Nat) {i j : Nat} (hn : i + j = n) (hi : i ≤ reference.length)
    (hj : j ≤ hypothesis.length) (hlimit : max reference.length hypothesis.length + 1 < 2 ^ 32)
    (c d : Counts)
    (h : traceback reference hypothesis (pointer reference hypothesis) i j c = .returned d) :
    d.total = levenshtein (reference.take i) (hypothesis.take j) + c.total := by
  induction n using Nat.strong_induction_on generalizing i j c with
  | _ n ih =>
  by_cases hend : i = 0 ∧ j = 0
  · obtain ⟨rfl, rfl⟩ := hend
    rw [traceback, if_pos ⟨rfl, rfl⟩] at h
    rw [← TraceEnd.returned.inj h, List.take_zero, nil_levenshtein]
    simp
  · rw [traceback_step i j c hend] at h
    have hprice := pointer_price hi hj hlimit hend
    rcases pointer_cases reference hypothesis i j hend with
      ⟨hptr, hpos⟩ | ⟨hptr, hpos⟩ | ⟨hptr, hpos, hpos'⟩
    · rw [if_pos hptr] at h hprice
      have hrest := ih (i - 1 + j) (by omega) rfl (by omega) hj _ h
      rw [hrest, hprice]
      simp only [Counts.total]
      omega
    · have hne : pointer reference hypothesis i j ≠ 1 := by omega
      rw [if_neg hne, if_pos hptr] at h hprice
      have hrest := ih (i + (j - 1)) (by omega) rfl hi (by omega) _ h
      rw [hrest, hprice]
      simp only [Counts.total]
      omega
    · have hne : pointer reference hypothesis i j ≠ 1 := by omega
      have hne' : pointer reference hypothesis i j ≠ 2 := by omega
      rw [if_neg hne, if_neg hne'] at h hprice
      have hrest := ih (i - 1 + (j - 1)) (by omega) rfl (by omega) (by omega) _ h
      rw [hrest, hprice]
      simp only [Counts.total]
      omega

/-- **the counts of an alignment, the same as with the whole matrix, and their total is the edit
distance as long as no cost leaves its 32 bits** -/
theorem levenshteinOps_spec (reference hypothesis : List Text) :
    ∃ c, levenshteinOps reference hypothesis = .returned c ∧
      matrixOps reference hypothesis = .returned c ∧ Alignment reference hypothesis c ∧
      c.insertions + reference.length = c.deletions + hypothesis.length ∧
      (max reference.length hypothesis.length + 1 < 2 ^ 32 →
        c.total = levenshtein reference hypothesis) := by
  obtain ⟨d, hd, halign⟩ := traceback_aligns reference hypothesis _
    rfl (Nat.le_refl _) (Nat.le_refl _) ⟨0, 0, 0⟩
  have hplus : d.plus ⟨0, 0, 0⟩ = d := rfl
  rw [hplus] at hd
  rw [List.take_length, List.take_length] at halign
  refine ⟨d, ?_, ?_, halign, halign.lengths, fun hlimit => ?_⟩
  · rw [levenshteinOps_eq, hd]
  · rw [matrixOps_eq, hd]
  · have htotal := traceback_total _ rfl (Nat.le_refl _) (Nat.le_refl _) hlimit _ _ hd
    rw [List.take_length, List.take_length] at htotal
    rw [htotal]
    simp [Counts.total]

end

theorem levenshteinOps_two : ∃ c,
    levenshteinOps ["one".toList, "two".toList] ["two".toList] = .returned c ∧
      c.total = levenshtein ["one".toList, "two".toList] ["two".toList] := by
  obtain ⟨c, hc, -, -, -, htotal⟩ :=
    levenshteinOps_spec ["one".toList, "two".toList] ["two".toList]
  exact ⟨c, hc, htotal (by decide)⟩

/-- a deletion that wraps around is the cheapest edit -/
theorem pointer_overflow {reference hypothesis : List Text} {j : Nat} (hj : j + 2 = 2 ^ 32) :
    pointer reference hypothesis 1 (j + 1) = 1 := by
  have hdel : add32 (cost reference hypothesis 0 (j + 1)) 1 = 0 := by
    have hmod : (j + 1) % 2 ^ 32 = j + 1 := Nat.mod_eq_of_lt (by omega)
    rw [cost_zero, add32, asU32, hmod, hj, Nat.mod_self]
  rw [pointer, hdel, choose, if_pos ⟨Nat.zero_le _, Nat.zero_le _⟩]

theorem levenshteinOps_overflow {j : Nat} (hj : j + 2 = 2 ^ 32) (b : Text) :
    ∃ c, levenshteinOps [b] (List.replicate (j + 1) b) = .returned c ∧
      c.total ≠ levenshtein [b] (List.replicate (j + 1) b) := by
  have hlen : (List.replicate (j + 1) b).length = j + 1 := List.length_replicate
  obtain ⟨d, hd, halign⟩ := traceback_aligns [b] (List.replicate (j + 1) b) _ rfl
    (Nat.zero_le 1) (Nat.le_of_eq hlen.symm) ⟨0, 1, 0⟩
  refine ⟨d.plus ⟨0, 1, 0⟩, ?_, fun htotal => ?_⟩
  · rw [levenshteinOps_eq, hlen, List.length_singleton,
      traceback_step _ _ _ (by omega), if_pos (pointer_overflow hj)]
    exact hd
  · -- one token is kept, and all the others are inserted
    have hscript : Script [b] (b :: List.replicate j b) j := by
      have hins := (Script.nil_right (List.replicate j b)).symm
      rw [List.length_replicate] at hins
      exact hins.keep b
    have hle : levenshtein [b] (List.replicate (j + 1) b) ≤ j := levenshtein_le hscript
    have hlengths := halign.lengths
    rw [List.take_zero, List.length_nil, List.length_take_of_le (Nat.le_of_eq hlen.symm)]
      at hlengths
    rw [← htotal] at hle
    simp only [Counts.total, Counts.plus] at hle
    omega

/-- one token against as many as the 32 bits count -/
theorem levenshteinOps_limit :
    ∃ c, levenshteinOps ["b".toList] (List.replicate (2 ^ 32 - 1) "b".toList) = .returned c ∧
      c.total ≠ levenshtein ["b".toList] (List.replicate (2 ^ 32 - 1) "b".toList) :=
  @levenshteinOps_overflow (2 ^ 32 - 2) (by decide) "b".toList

end Voisu.TranscriptQuality
