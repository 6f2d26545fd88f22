import Mathlib
import Voisu.Arbitration.Arbitrate

/-!
# The regions of an alignment and the tokens under them

* `Apart`               regions in range, in order, a matched word between two of them;
* `divergentRegions_apart`   the regions of an alignment are apart;
* `take_start`, `take_stop`  a normalized word that starts (ends) its token cuts the words where the
                        tokens are cut, which is how a region of words becomes a range of tokens.
-/

set_option linter.unusedSectionVars false

namespace Voisu.Arbitration
open Lib Decision

/-! ## regions -/

/-- the regions lie between the words `i`, `j` and the ends `n`, `m`, a word apart -/
def Apart (n m : Nat) : Nat → Nat → List Region → Prop
  | _, _, [] => True
  | i, j, r :: rs =>
    i ≤ r.aStart ∧ r.aStart ≤ r.aStop ∧ r.aStop ≤ n ∧
      j ≤ r.bStart ∧ r.bStart ≤ r.bStop ∧ r.bStop ≤ m ∧ Apart n m (r.aStop + 1) (r.bStop + 1) rs

/-- the words of either side that the operations consume -/
def opsA : List Op → Nat
  | [] => 0
  | .ins :: ops => opsA ops
  | _ :: ops => opsA ops + 1

def opsB : List Op → Nat
  | [] => 0
  | .del :: ops => opsB ops
  | _ :: ops => opsB ops + 1

theorem opsA_append (xs ys : List Op) : opsA (xs ++ ys) = opsA xs + opsA ys := by
  induction xs with
  | nil => simp [opsA]
  | cons op xs ih => cases op <;> simp only [List.cons_append, opsA, ih] <;> omega

theorem opsB_append (xs ys : List Op) : opsB (xs ++ ys) = opsB xs + opsB ys := by
  induction xs with
  | nil => simp [opsB]
  | cons op xs ih => cases op <;> simp only [List.cons_append, opsB, ih] <;> omega

theorem ops_reverse (ops : List Op) : opsA ops.reverse = opsA ops ∧ opsB ops.reverse = opsB ops := by
  induction ops with
  | nil => exact ⟨rfl, rfl⟩
  | cons op ops ih =>
    rw [List.reverse_cons, opsA_append, opsB_append, ih.1, ih.2]
    cases op <;> simp [opsA, opsB]

/-- a traceback never leaves the table -/
theorem traceback_ops (table : List (List Cell)) (as bs : List Text) (i j : Nat) :
    opsA (traceback table as bs i j) ≤ i ∧ opsB (traceback table as bs i j) ≤ j := by
  fun_induction traceback table as bs i j with
  | case1 i j hb ih =>
    rw [hb]
    show opsA (.del :: _) ≤ _ ∧ opsB (.del :: _) ≤ _
    simp only [opsA, opsB]
    omega
  | case2 i j hb ih =>
    rw [hb]
    cases i <;> simp only [opsA, opsB] <;> omega
  | case3 i j hb ih =>
    rw [hb]
    show opsA ((if _ then _ else _) :: _) ≤ _ ∧ opsB ((if _ then _ else _) :: _) ≤ _
    split <;> simp only [opsA, opsB] <;> omega
  | case4 i j h1 h2 h3 =>
    split
    · rename_i hb; exact (h1 _ hb rfl).elim
    · rename_i hb; exact (h2 _ hb rfl).elim
    · rename_i hb; exact (h3 _ _ hb rfl rfl).elim
    · simp [opsA, opsB]

theorem align_ops {as bs : List Text} {ops : List Op} (h : align as bs = some ops) :
    opsA ops ≤ as.length ∧ opsB ops ≤ bs.length := by
  unfold align at h
  split at h
  · cases h
  · obtain rfl := Option.some.inj h
    rw [(ops_reverse _).1, (ops_reverse _).2]
    exact traceback_ops _ _ _ _ _

/-- the region that is open ends at the current words -/
def OpenAt (i j i₀ j₀ : Nat) : Option Region → Prop
  | none => i₀ ≤ i ∧ j₀ ≤ j
  | some r => i₀ ≤ r.aStart ∧ r.aStart ≤ r.aStop ∧ r.aStop = i ∧
      j₀ ≤ r.bStart ∧ r.bStart ≤ r.bStop ∧ r.bStop = j

theorem OpenAt.openRegion {i j i₀ j₀ : Nat} {current : Option Region}
    (h : OpenAt i j i₀ j₀ current) : OpenAt i j i₀ j₀ (some (openRegion current i j)) := by
  cases current with
  | none => exact ⟨h.1, le_refl _, rfl, h.2, le_refl _, rfl⟩
  | some r => exact h

theorem regionsFrom_apart {ops : List Op} {i j i₀ j₀ n m : Nat} {current : Option Region}
    (h : OpenAt i j i₀ j₀ current) (hn : i + opsA ops ≤ n) (hm : j + opsB ops ≤ m) :
    Apart n m i₀ j₀ (regionsFrom current i j ops) := by
  induction ops generalizing i j i₀ j₀ current with
  | nil =>
    cases current with
    | none => exact trivial
    | some r =>
      obtain ⟨h1, h2, h3, h4, h5, h6⟩ := h
      simp only [opsA, opsB] at hn hm
      exact ⟨h1, h2, by omega, h4, h5, by omega, trivial⟩
  | cons op ops ih =>
    cases op with
    | «match» =>
      simp only [opsA, opsB] at hn hm
      rw [regionsFrom]
      cases current with
      | none => exact ih ⟨by have := h.1; omega, by have := h.2; omega⟩ (by omega) (by omega)
      | some r =>
        obtain ⟨h1, h2, h3, h4, h5, h6⟩ := h
        refine ⟨h1, h2, by omega, h4, h5, by omega, ?_⟩
        exact ih ⟨by omega, by omega⟩ (by omega) (by omega)
    | sub =>
      simp only [opsA, opsB] at hn hm
      obtain ⟨h1, h2, h3, h4, h5, h6⟩ := h.openRegion
      rw [regionsFrom]
      apply ih _ (by omega) (by omega)
      exact ⟨h1, by simp only; omega, rfl, h4, by simp only; omega, rfl⟩
    | del =>
      simp only [opsA, opsB] at hn hm
      obtain ⟨h1, h2, h3, h4, h5, h6⟩ := h.openRegion
      rw [regionsFrom]
      apply ih _ (by omega) (by omega)
      exact ⟨h1, by simp only; omega, rfl, h4, h5, h6⟩
    | ins =>
      simp only [opsA, opsB] at hn hm
      obtain ⟨h1, h2, h3, h4, h5, h6⟩ := h.openRegion
      rw [regionsFrom]
      apply ih _ (by omega) (by omega)
      exact ⟨h1, h2, h3, h4, by simp only; omega, rfl⟩

/-- **the regions of an alignment are in range, in order and a word apart** -/
theorem divergentRegions_apart {as bs : List Text} {ops : List Op} (h : align as bs = some ops) :
    Apart as.length bs.length 0 0 (divergentRegions ops) := by
  obtain ⟨h1, h2⟩ := align_ops h
  exact regionsFrom_apart ⟨le_refl _, le_refl _⟩ (by omega) (by omega)

theorem Apart.bounds {n m i j : Nat} {rs : List Region} (h : Apart n m i j rs) :
    ∀ r ∈ rs, r.aStart ≤ r.aStop ∧ r.aStop ≤ n ∧ r.bStart ≤ r.bStop ∧ r.bStop ≤ m := by
  induction rs generalizing i j with
  | nil =>
    intro r hr
    cases hr
  | cons s rs ih =>
    obtain ⟨-, h2, h3, -, h5, h6, h7⟩ := h
    intro r hr
    rcases List.mem_cons.mp hr with rfl | hr
    · exact ⟨h2, h3, h5, h6⟩
    · exact ih h7 r hr

theorem Apart.mono {n m i j i' j' : Nat} {rs : List Region} (h : Apart n m i j rs) (hi : i' ≤ i)
    (hj : j' ≤ j) : Apart n m i' j' rs := by
  cases rs with
  | nil => exact trivial
  | cons r rs =>
    obtain ⟨h1, h2, h3, h4, h5, h6, h7⟩ := h
    exact ⟨by omega, h2, h3, by omega, h5, h6, h7⟩

theorem Apart.filter {n m i j : Nat} {rs : List Region} (h : Apart n m i j rs) (f : Region → Bool) :
    Apart n m i j (rs.filter f) := by
  induction rs generalizing i j with
  | nil => exact trivial
  | cons r rs ih =>
    obtain ⟨h1, h2, h3, h4, h5, h6, h7⟩ := h
    rw [List.filter_cons]
    split
    · exact ⟨h1, h2, h3, h4, h5, h6, ih h7⟩
    · exact (ih h7).mono (by omega) (by omega)

/-! ## from words to tokens -/

section
variable {b k : Nat} {rs : List (Run Char)} {w : NormWord}

theorem normWordsFrom_append (b : Nat) (rs qs : List (Run Char)) :
    normWordsFrom b (rs ++ qs) = normWordsFrom b rs ++ normWordsFrom (b + rs.length) qs := by
  induction rs generalizing b with
  | nil => rfl
  | cons r rs ih =>
    rw [List.cons_append, normWordsFrom, normWordsFrom, ih, List.append_assoc, List.length_cons,
      show b + 1 + rs.length = b + (rs.length + 1) by omega]

theorem normWordsOf_words (b : Nat) (parts : List Text) :
    (normWordsOf b parts).map NormWord.word = parts := by
  apply List.ext_getElem
  · simp [normWordsOf]
  · intro k h1 h2
    simp [normWordsOf]

/-- the words of the tokens -/
theorem normWordsFrom_words (b : Nat) (rs : List (Run Char)) :
    (normWordsFrom b rs).map NormWord.word = rs.flatMap fun r => tokenParts r.text := by
  induction rs generalizing b with
  | nil => rfl
  | cons r rs ih => rw [normWordsFrom, List.map_append, normWordsOf_words, ih, List.flatMap_cons]

theorem normWordsOf_getElem? {parts : List Text} (h : (normWordsOf b parts)[k]? = some w) :
    k < parts.length ∧ w.token = b ∧ w.startsToken = (k == 0) ∧
      w.endsToken = (k + 1 == parts.length) := by
  unfold normWordsOf at h
  rw [List.getElem?_mapIdx] at h
  obtain ⟨part, hp, rfl⟩ := Option.map_eq_some_iff.mp h
  exact ⟨(List.getElem?_eq_some_iff.mp hp).1, rfl, rfl, rfl⟩

theorem normWordsOf_length (b : Nat) (parts : List Text) :
    (normWordsOf b parts).length = parts.length := by
  unfold normWordsOf
  rw [List.length_mapIdx]

/-- **a word that starts its token cuts the words where the tokens are cut** -/
theorem take_start (h : (normWordsFrom b rs)[k]? = some w) (hw : w.startsToken = true) :
    ∃ n, n < rs.length ∧ w.token = b + n ∧
      (normWordsFrom b rs).take k = normWordsFrom b (rs.take n) := by
  induction rs generalizing b k with
  | nil => exact absurd h (by simp [normWordsFrom])
  | cons r rs ih =>
    rw [normWordsFrom] at h ⊢
    by_cases hk : k < (normWordsOf b (tokenParts r.text)).length
    · rw [List.getElem?_append_left hk] at h
      obtain ⟨-, h2, h3, -⟩ := normWordsOf_getElem? h
      have hk0 : k = 0 := by rw [hw] at h3; simpa using h3.symm
      subst hk0
      exact ⟨0, by simp, h2, rfl⟩
    · rw [List.getElem?_append_right (by omega)] at h
      obtain ⟨n, h1, h2, h3⟩ := ih h
      refine ⟨n + 1, by simpa using h1, by omega, ?_⟩
      rw [List.take_append, List.take_of_length_le (by omega), h3, List.take_succ_cons,
        normWordsFrom]

theorem take_stop (h : (normWordsFrom b rs)[k]? = some w) (hw : w.endsToken = true) :
    ∃ n, n < rs.length ∧ w.token = b + n ∧
      (normWordsFrom b rs).take (k + 1) = normWordsFrom b (rs.take (n + 1)) := by
  induction rs generalizing b k with
  | nil => exact absurd h (by simp [normWordsFrom])
  | cons r rs ih =>
    rw [normWordsFrom] at h ⊢
    by_cases hk : k < (normWordsOf b (tokenParts r.text)).length
    · rw [List.getElem?_append_left hk] at h
      obtain ⟨-, h2, -, h4⟩ := normWordsOf_getElem? h
      have hk1 : k + 1 = (normWordsOf b (tokenParts r.text)).length := by
        rw [hw] at h4
        rw [normWordsOf_length]
        simpa using h4.symm
      refine ⟨0, by simp, h2, ?_⟩
      rw [hk1, List.take_left']
      · simp [normWordsFrom]
      · rfl
    · rw [List.getElem?_append_right (by omega)] at h
      obtain ⟨n, h1, h2, h3⟩ := ih h
      refine ⟨n + 1, by simpa using h1, by omega, ?_⟩
      rw [List.take_append, List.take_of_length_le (by omega), List.take_succ_cons, normWordsFrom,
        show k + 1 - (normWordsOf b (tokenParts r.text)).length =
          k - (normWordsOf b (tokenParts r.text)).length + 1 by omega, h3]

end

end Voisu.Arbitration
