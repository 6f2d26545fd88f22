import Mathlib.Tactic.Common
import Mathlib.Order.MinMax

/-!
# Edit distance

* `Script as bs n`     `as` becomes `bs` by insertions, deletions and substitutions, `n` in all;
* `levenshtein as bs`  the least number of edits;
* `distanceRow`        a row of the table that computes it, over the prefixes of one list.

The table works on prefixes and the definition on heads: a prefix is read backwards here, and
`levenshtein_reverse` turns the last cell into the distance of the lists themselves.
-/

namespace Voisu.Lib

variable {α : Type}

/-- `n` edits turn the first list into the second -/
inductive Script : List α → List α → Nat → Prop
  | nil : Script [] [] 0
  | keep (a : α) {as bs : List α} {n : Nat} : Script as bs n → Script (a :: as) (a :: bs) n
  | sub (a b : α) {as bs : List α} {n : Nat} : Script as bs n → Script (a :: as) (b :: bs) (n + 1)
  | del (a : α) {as bs : List α} {n : Nat} : Script as bs n → Script (a :: as) bs (n + 1)
  | ins (b : α) {as bs : List α} {n : Nat} : Script as bs n → Script as (b :: bs) (n + 1)

namespace Script

variable {as bs cs ds : List α} {m n : Nat}

theorem append (h : Script as bs m) (h' : Script cs ds n) :
    Script (as ++ cs) (bs ++ ds) (m + n) := by
  induction h with
  | nil => simpa using h'
  | keep a _ ih => exact keep a ih
  | sub a b _ ih =>
    rw [Nat.add_right_comm]
    exact sub a b ih
  | del a _ ih =>
    rw [Nat.add_right_comm]
    exact del a ih
  | ins b _ ih =>
    rw [Nat.add_right_comm]
    exact ins b ih

theorem reverse (h : Script as bs n) : Script as.reverse bs.reverse n := by
  induction h with
  | nil => exact nil
  | keep a _ ih =>
    rw [List.reverse_cons, List.reverse_cons]
    exact ih.append (keep a nil)
  | sub a b _ ih =>
    rw [List.reverse_cons, List.reverse_cons]
    exact ih.append (sub a b nil)
  | del a _ ih =>
    rw [List.reverse_cons]
    simpa using ih.append (del a nil)
  | ins b _ ih =>
    rw [List.reverse_cons]
    simpa using ih.append (ins b nil)

theorem symm (h : Script as bs n) : Script bs as n := by
  induction h with
  | nil => exact nil
  | keep a _ ih => exact keep a ih
  | sub a b _ ih => exact sub b a ih
  | del a _ ih => exact ins a ih
  | ins b _ ih => exact del b ih

/-- no edit, no change -/
theorem eq_of_zero (h : Script as bs n) (hn : n = 0) : as = bs := by
  induction h with
  | nil => rfl
  | keep a _ ih => rw [ih hn]
  | sub a b _ _ => cases hn
  | del a _ _ => cases hn
  | ins b _ _ => cases hn

/-- the head of the target dropped, at the price of one edit -/
theorem drop_head {b : α} (h : Script as (b :: bs) n) : ∃ m ≤ n + 1, Script as bs m := by
  generalize hcs : b :: bs = cs at h
  induction h with
  | nil => cases hcs
  | keep a h _ =>
    obtain ⟨rfl, rfl⟩ := List.cons.inj hcs
    exact ⟨_, le_refl _, del b h⟩
  | @sub a c _ _ k h _ =>
    obtain ⟨rfl, rfl⟩ := List.cons.inj hcs
    exact ⟨k + 1, by omega, del a h⟩
  | del a _ ih =>
    obtain ⟨m, hm, h⟩ := ih hcs
    exact ⟨m + 1, by omega, del a h⟩
  | @ins c _ _ k h _ =>
    obtain ⟨rfl, rfl⟩ := List.cons.inj hcs
    exact ⟨k, by omega, h⟩

theorem nil_right : ∀ as : List α, Script as [] as.length
  | [] => nil
  | a :: as => del a (nil_right as)

theorem refl : ∀ as : List α, Script as as 0
  | [] => nil
  | a :: as => keep a (refl as)

theorem deletions (dels : List α) (h : Script as bs n) :
    Script (dels ++ as) bs (n + dels.length) := by
  induction dels with
  | nil => exact h
  | cons a dels ih => exact ih.del a

/-- the first symbol of the result is kept, put in the place of another one, or inserted, behind
some deletions -/
theorem cons_inv {b : α} (h : Script as (b :: bs) n) :
    ∃ dels rest k, as = dels ++ rest ∧
      ((∃ as', rest = b :: as' ∧ Script as' bs k ∧ dels.length + k ≤ n) ∨
        (∃ a as', rest = a :: as' ∧ Script as' bs k ∧ dels.length + k + 1 ≤ n) ∨
        (Script rest bs k ∧ dels.length + k + 1 ≤ n)) := by
  generalize hcs : b :: bs = cs at h
  induction h with
  | nil => cases hcs
  | @keep a as' bs' n h =>
    obtain ⟨rfl, rfl⟩ := List.cons.inj hcs
    exact ⟨[], b :: as', n, rfl, .inl ⟨as', rfl, h, by simp⟩⟩
  | @sub a c as' bs' n h =>
    obtain ⟨rfl, rfl⟩ := List.cons.inj hcs
    exact ⟨[], a :: as', n, rfl, .inr (.inl ⟨a, as', rfl, h, by simp⟩)⟩
  | @del a as' bs' n h ih =>
    obtain ⟨dels, rest, k, rfl, hcase⟩ := ih hcs
    refine ⟨a :: dels, rest, k, rfl, ?_⟩
    rw [List.length_cons]
    rcases hcase with ⟨as', hrest, h, hle⟩ | ⟨c, as', hrest, h, hle⟩ | ⟨h, hle⟩
    · exact .inl ⟨as', hrest, h, by omega⟩
    · exact .inr (.inl ⟨c, as', hrest, h, by omega⟩)
    · exact .inr (.inr ⟨h, by omega⟩)
  | @ins c as' bs' n h =>
    obtain ⟨rfl, rfl⟩ := List.cons.inj hcs
    exact ⟨[], as', n, rfl, .inr (.inr ⟨h, by simp⟩)⟩

/-- **one script after the other** -/
theorem trans (h : Script as bs m) (h' : Script bs cs n) : ∃ k ≤ m + n, Script as cs k := by
  induction h' generalizing as m with
  | nil => exact ⟨m, Nat.le_refl m, h⟩
  | ins c _ ih =>
    obtain ⟨k, hk, hscript⟩ := ih h
    exact ⟨k + 1, by omega, hscript.ins c⟩
  | keep b _ ih =>
    obtain ⟨dels, rest, j, rfl, ⟨as', rfl, h, hle⟩ | ⟨a, as', rfl, h, hle⟩ | ⟨h, hle⟩⟩ := h.cons_inv
    · obtain ⟨k, hk, hscript⟩ := ih h
      exact ⟨k + dels.length, by omega, deletions dels (hscript.keep b)⟩
    · obtain ⟨k, hk, hscript⟩ := ih h
      exact ⟨k + 1 + dels.length, by omega, deletions dels (hscript.sub a b)⟩
    · obtain ⟨k, hk, hscript⟩ := ih h
      exact ⟨k + 1 + dels.length, by omega, deletions dels (hscript.ins b)⟩
  | sub b c _ ih =>
    obtain ⟨dels, rest, j, rfl, ⟨as', rfl, h, hle⟩ | ⟨a, as', rfl, h, hle⟩ | ⟨h, hle⟩⟩ := h.cons_inv
    · obtain ⟨k, hk, hscript⟩ := ih h
      exact ⟨k + 1 + dels.length, by omega, deletions dels (hscript.sub b c)⟩
    · obtain ⟨k, hk, hscript⟩ := ih h
      exact ⟨k + 1 + dels.length, by omega, deletions dels (hscript.sub a c)⟩
    · obtain ⟨k, hk, hscript⟩ := ih h
      exact ⟨k + 1 + dels.length, by omega, deletions dels (hscript.ins c)⟩
  | del b _ ih =>
    obtain ⟨dels, rest, j, rfl, ⟨as', rfl, h, hle⟩ | ⟨a, as', rfl, h, hle⟩ | ⟨h, hle⟩⟩ := h.cons_inv
    · obtain ⟨k, hk, hscript⟩ := ih h
      exact ⟨k + 1 + dels.length, by omega, deletions dels (hscript.del b)⟩
    · obtain ⟨k, hk, hscript⟩ := ih h
      exact ⟨k + 1 + dels.length, by omega, deletions dels (hscript.del a)⟩
    · obtain ⟨k, hk, hscript⟩ := ih h
      exact ⟨k + dels.length, by omega, deletions dels hscript⟩

/-- symbol by symbol, and then the rest of the longer list -/
theorem exists_le_max (as bs : List α) :
    ∃ n, n ≤ max as.length bs.length ∧ Script as bs n := by
  induction as generalizing bs with
  | nil => exact ⟨bs.length, Nat.le_max_right _ _, (nil_right bs).symm⟩
  | cons a as ih =>
    cases bs with
    | nil => exact ⟨(a :: as).length, Nat.le_max_left _ _, nil_right (a :: as)⟩
    | cons b bs =>
      obtain ⟨n, hn, h⟩ := ih bs
      refine ⟨n + 1, ?_, h.sub a b⟩
      rw [List.length_cons, List.length_cons, Nat.add_max_add_right]
      omega

end Script

variable [DecidableEq α]

/-- the edit distance of two lists -/
def levenshtein : List α → List α → Nat
  | [], bs => bs.length
  | _ :: as, [] => as.length + 1
  | a :: as, b :: bs =>
    min (levenshtein as bs + if a = b then 0 else 1)
      (min (levenshtein as (b :: bs) + 1) (levenshtein (a :: as) bs + 1))
termination_by as bs => as.length + bs.length

theorem levenshtein_nil (as : List α) : levenshtein as [] = as.length := by
  cases as <;> simp [levenshtein]

theorem nil_levenshtein (bs : List α) : levenshtein [] bs = bs.length := by
  simp [levenshtein]

/-- the distance is the number of edits of some script -/
theorem script_levenshtein (as bs : List α) : Script as bs (levenshtein as bs) := by
  fun_induction levenshtein as bs with
  | case1 bs => exact (Script.nil_right bs).symm
  | case2 a as => exact Script.nil_right (a :: as)
  | case3 a as b bs ihd ihs ihi =>
    have hdiag : Script (a :: as) (b :: bs) (levenshtein as bs + if a = b then 0 else 1) := by
      split
      · rename_i hab
        rw [hab]
        exact ihd.keep b
      · exact ihd.sub a b
    rcases min_choice (levenshtein as bs + if a = b then 0 else 1)
      (min (levenshtein as (b :: bs) + 1) (levenshtein (a :: as) bs + 1)) with h | h
    · rw [h]
      exact hdiag
    · rw [h]
      rcases min_choice (levenshtein as (b :: bs) + 1) (levenshtein (a :: as) bs + 1) with h | h
      · rw [h]
        exact ihs.del a
      · rw [h]
        exact ihi.ins b

theorem levenshtein_del (a : α) (as bs : List α) :
    levenshtein (a :: as) bs ≤ levenshtein as bs + 1 := by
  cases bs with
  | nil => simp [levenshtein_nil]
  | cons b bs =>
    rw [levenshtein]
    omega

theorem levenshtein_ins (b : α) (as bs : List α) :
    levenshtein as (b :: bs) ≤ levenshtein as bs + 1 := by
  cases as with
  | nil => simp [nil_levenshtein]
  | cons a as =>
    rw [levenshtein]
    omega

/-- **and no script has fewer** -/
theorem levenshtein_le {as bs : List α} {n : Nat} (h : Script as bs n) : levenshtein as bs ≤ n := by
  induction h with
  | nil => simp [nil_levenshtein]
  | keep a _ ih =>
    rw [levenshtein, if_pos rfl]
    omega
  | sub a b _ ih =>
    rw [levenshtein]
    split <;> omega
  | @del a as bs n _ ih =>
    have := levenshtein_del a as bs
    omega
  | @ins b as bs n _ ih =>
    have := levenshtein_ins b as bs
    omega

theorem levenshtein_reverse (as bs : List α) :
    levenshtein as.reverse bs.reverse = levenshtein as bs := by
  apply le_antisymm
  · exact levenshtein_le (script_levenshtein as bs).reverse
  · have h := (script_levenshtein as.reverse bs.reverse).reverse
    rw [List.reverse_reverse, List.reverse_reverse] at h
    exact levenshtein_le h

/-- the recurrence at the ends -/
theorem levenshtein_concat (as bs : List α) (a b : α) :
    levenshtein (as ++ [a]) (bs ++ [b]) =
      min (levenshtein as bs + if a = b then 0 else 1)
        (min (levenshtein as (bs ++ [b]) + 1) (levenshtein (as ++ [a]) bs + 1)) := by
  have hcons (as bs : List α) (a b : α) : levenshtein (a :: as) (b :: bs) =
      min (levenshtein as bs + if a = b then 0 else 1)
        (min (levenshtein as (b :: bs) + 1) (levenshtein (a :: as) bs + 1)) := by
    rw [levenshtein]
  have hsides : levenshtein (as ++ [a]) (bs ++ [b]) =
      levenshtein (a :: as.reverse) (b :: bs.reverse) := by
    rw [← levenshtein_reverse, List.reverse_concat, List.reverse_concat]
  rw [hsides, hcons, levenshtein_reverse, ← levenshtein_reverse as (bs ++ [b]),
    ← levenshtein_reverse (as ++ [a]) bs, List.reverse_concat, List.reverse_concat]

theorem levenshtein_comm (as bs : List α) : levenshtein as bs = levenshtein bs as :=
  le_antisymm (levenshtein_le (script_levenshtein bs as).symm)
    (levenshtein_le (script_levenshtein as bs).symm)

theorem levenshtein_eq_zero {as bs : List α} : levenshtein as bs = 0 ↔ as = bs := by
  constructor
  · exact fun h => (script_levenshtein as bs).eq_of_zero h
  · rintro rfl
    exact Nat.le_zero.mp (levenshtein_le (Script.refl as))

theorem levenshtein_triangle (as bs cs : List α) :
    levenshtein as cs ≤ levenshtein as bs + levenshtein bs cs := by
  obtain ⟨k, hk, h⟩ := (script_levenshtein as bs).trans (script_levenshtein bs cs)
  exact (levenshtein_le h).trans hk

theorem levenshtein_le_max (as bs : List α) :
    levenshtein as bs ≤ max as.length bs.length := by
  obtain ⟨n, hn, h⟩ := Script.exists_le_max as bs
  exact (levenshtein_le h).trans hn

/-- equal heads are kept -/
theorem levenshtein_cons_self (a : α) (as bs : List α) :
    levenshtein (a :: as) (a :: bs) = levenshtein as bs := by
  apply le_antisymm
  · exact levenshtein_le ((script_levenshtein as bs).keep a)
  · have hins : levenshtein as bs ≤ levenshtein as (a :: bs) + 1 := by
      obtain ⟨m, hm, h⟩ := (script_levenshtein as (a :: bs)).drop_head
      exact (levenshtein_le h).trans hm
    have hdel : levenshtein as bs ≤ levenshtein (a :: as) bs + 1 := by
      obtain ⟨m, hm, h⟩ := (script_levenshtein (a :: as) bs).symm.drop_head
      exact (levenshtein_le h.symm).trans hm
    rw [levenshtein, if_pos rfl]
    omega

theorem levenshtein_cons_cons {a b : α} (h : a ≠ b) (as bs : List α) :
    levenshtein (a :: as) (b :: bs) =
      1 + min (min (levenshtein as bs) (levenshtein (a :: as) bs)) (levenshtein as (b :: bs)) := by
  rw [levenshtein, if_neg h]
  omega

/-! ## rows of the table -/

/-- the distances of `x` to `y`, then to `y` with each prefix of `bs` before it -/
def distanceRow (x y : List α) : List α → List Nat
  | [] => [levenshtein x y]
  | b :: bs => levenshtein x y :: distanceRow x (b :: y) bs

theorem distanceRow_eq (x y bs : List α) :
    distanceRow x y bs = levenshtein x y :: (distanceRow x y bs).tail := by
  cases bs <;> rfl

theorem distanceRow_getLastD (x y bs : List α) (d : Nat) :
    (distanceRow x y bs).getLastD d = levenshtein x (bs.reverse ++ y) := by
  induction bs generalizing y d with
  | nil => rfl
  | cons b bs ih =>
    rw [distanceRow, List.getLastD_cons, ih, List.reverse_cons, List.append_assoc]
    rfl

/-- the first row counts up -/
theorem distanceRow_nil (y bs : List α) :
    distanceRow [] y bs = (List.range (bs.length + 1)).map fun j => y.length + j := by
  induction bs generalizing y with
  | nil => simp [distanceRow, nil_levenshtein]
  | cons b bs ih =>
    have hstep : (fun j => (b :: y).length + j) = (fun j => y.length + j) ∘ Nat.succ := by
      funext j
      show y.length + 1 + j = y.length + (j + 1)
      omega
    rw [distanceRow, ih, hstep, nil_levenshtein,
      show (b :: bs).length = bs.length + 1 from rfl]
    conv_rhs => rw [List.range_succ_eq_map, List.map_cons, List.map_map]
    rfl

end Voisu.Lib
