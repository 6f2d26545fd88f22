import Mathlib
import Voisu.Lib.Casing

/-!
# Lowercasing

* `notAlphanumeric_lower`      lowercasing moves letters only;
* `alphanumeric_lower_cases`   it maps an alphanumeric character to one, a dot above after it at most;
* `medialSigma_toLowercase`    the place of a sigma apart, a text is lowercased character by character.
-/

namespace Voisu.Lib

/-! ## one character -/

/-- a shift whose sources are letters: one progression of `table` holds them all, or one each -/
def shiftsFrom (table : Progressions) (p : Nat × Nat × Nat × Int) : Bool :=
  (table.any fun q => q.1 ≤ p.1 && p.2.1 ≤ q.2.1 && q.2.2 == 1) ||
    (0 < p.2.2.1 &&
      (List.range ((p.2.1 - p.1) / p.2.2.1 + 1)).all fun k => table.has (p.1 + k * p.2.2.1))

/-- the letterlike symbols among the sources -/
def letterlikeRanges : Progressions := [(0x2124, 0x2128, 2), (0x212a, 0x212d, 1)]

theorem letterlikeRanges_sublist : letterlikeRanges.isSublist alphabeticTable = true := by
  decide +kernel

theorem lowercaseShifts_sources :
    lowercaseShifts.all (fun p => shiftsFrom caseRanges p || shiftsFrom letterlikeRanges p) =
      true := by
  decide +kernel

theorem isAlphabetic_of_shiftsFrom {table : Progressions}
    (htable : table.isSublist alphabeticTable = true) {p : Nat × Nat × Nat × Int} {c : Char}
    (h : shiftsFrom table p = true) (hc : 0x7F < c.toNat) (h1 : p.1 ≤ c.toNat)
    (h2 : c.toNat ≤ p.2.1) (h3 : (c.toNat - p.1) % p.2.2.1 = 0) : isAlphabetic c = true := by
  have hhas : table.has c.toNat = true := by
    rcases Bool.or_eq_true_iff.mp h with h | h
    · obtain ⟨q, hq, hin⟩ := List.any_eq_true.mp h
      simp only [Bool.and_eq_true, decide_eq_true_eq, beq_iff_eq] at hin
      refine List.any_eq_true.mpr ⟨q, hq, ?_⟩
      rw [hin.2, Nat.mod_one]
      simp only [Bool.and_eq_true, decide_eq_true_eq, beq_iff_eq]
      exact ⟨⟨by omega, by omega⟩, trivial⟩
    · rw [Bool.and_eq_true, decide_eq_true_eq] at h
      have hk : (c.toNat - p.1) / p.2.2.1 < (p.2.1 - p.1) / p.2.2.1 + 1 :=
        Nat.lt_succ_of_le (Nat.div_le_div_right (by omega))
      have hpoint := List.all_eq_true.mp h.2 _ (List.mem_range.mpr hk)
      rwa [Nat.div_mul_cancel (Nat.dvd_of_mod_eq_zero h3), Nat.add_sub_cancel' h1] at hpoint
  obtain ⟨q, hq, hin⟩ := List.any_eq_true.mp hhas
  rw [isAlphabetic, Bool.or_eq_true, Bool.and_eq_true, decide_eq_true_eq]
  exact Or.inr ⟨hc, List.any_eq_true.mpr
    ⟨q, (List.isSublist_iff_sublist.mp htable).subset hq, hin⟩⟩

/-- the map moves letters only -/
theorem isAlphabetic_of_lowercaseShift {p : Nat × Nat × Nat × Int} (hp : p ∈ lowercaseShifts)
    {c : Char} (hc : 0x7F < c.toNat) (h1 : p.1 ≤ c.toNat) (h2 : c.toNat ≤ p.2.1)
    (h3 : (c.toNat - p.1) % p.2.2.1 = 0) : isAlphabetic c = true := by
  rcases Bool.or_eq_true_iff.mp (List.all_eq_true.mp lowercaseShifts_sources p hp) with h | h
  · exact isAlphabetic_of_shiftsFrom caseRanges_sublist h hc h1 h2 h3
  · exact isAlphabetic_of_shiftsFrom letterlikeRanges_sublist h hc h1 h2 h3

theorem notAlphanumeric_lower {c : Char} (h : isAlphanumeric c = false) :
    charToLowercase c = [c] := by
  unfold charToLowercase
  split
  · unfold toAsciiLowercase
    split
    · rename_i hc hu
      have hascii : isAsciiAlphanumeric c = true := by
        rw [isAsciiAlphanumeric, isAsciiAlphabetic, hu]
        rfl
      rw [isAlphanumeric_of_ascii hascii] at h
      cases h
    · rfl
  · rename_i hc
    have hletter : isAlphabetic c = true → False := by
      intro hal
      rw [isAlphanumeric_of_isAlphabetic hal] at h
      cases h
    split
    · rename_i hdot
      rw [beq_iff_eq] at hdot
      exfalso
      have hc' : c = Char.ofNat 0x130 := by
        rw [← hdot]
        exact (Char.ofNat_toNat c).symm
      rw [hc'] at h
      revert h
      decide +kernel
    · split
      · rename_i p hp
        have hrange := List.find?_some hp
        simp only [Bool.and_eq_true, decide_eq_true_eq, beq_iff_eq] at hrange
        exact (hletter (isAlphabetic_of_lowercaseShift (List.mem_of_find?_eq_some hp)
          (by omega) hrange.1.1 hrange.1.2 hrange.2)).elim
      · rfl

/-- a dot above, the only character that lowercasing adds -/
def dotAbove : Char := Char.ofNat 0x307

/-- **the lowercase of an alphanumeric character: one, and a dot above where it was on `İ`** -/
theorem alphanumeric_lower_cases {c : Char} (h : isAlphanumeric c = true) :
    ∃ d, isAlphanumeric d = true ∧
      (charToLowercase c = [d] ∨ d = 'i' ∧ charToLowercase c = [d, dotAbove]) := by
  obtain ⟨d, hd, halnum⟩ := alphanumeric_lower h
  unfold charToLowercase at hd ⊢
  split at hd
  · rename_i hc
    rw [if_pos hc]
    obtain rfl := List.mem_singleton.mp hd
    exact ⟨_, halnum, Or.inl rfl⟩
  · rename_i hc
    rw [if_neg hc]
    split at hd
    · rename_i hdot
      rw [if_pos hdot]
      exact ⟨'i', by decide, Or.inr ⟨rfl, rfl⟩⟩
    · rename_i hdot
      rw [if_neg hdot]
      split at hd
      · obtain rfl := List.mem_singleton.mp hd
        exact ⟨_, halnum, Or.inl rfl⟩
      · obtain rfl := List.mem_singleton.mp hd
        exact ⟨_, halnum, Or.inl rfl⟩

/-! ## lowercasing character by character -/

/-- the lowercase of a text whose sigmas are never final -/
def lowercaseChars (s : List Char) : List Char := s.flatMap charToLowercase

/-- a final sigma as any other -/
def medialSigma (c : Char) : Char := if c.toNat = 0x3C2 then Char.ofNat 0x3C3 else c

/-- **the place of a sigma apart, lowercasing works character by character** -/
theorem medialSigma_toLowercase (s : List Char) :
    (toLowercase s).map medialSigma = (lowercaseChars s).map medialSigma := by
  unfold toLowercase
  generalize ([] : List Char) = before
  induction s generalizing before with
  | nil => rfl
  | cons c s ih =>
    rw [toLowercaseFrom, lowercaseChars, List.flatMap_cons, List.map_append, List.map_append, ih]
    congr 1
    split
    · rename_i hsigma
      rw [beq_iff_eq] at hsigma
      have hc : c = Char.ofNat 0x3A3 := by
        rw [← hsigma]
        exact (Char.ofNat_toNat c).symm
      rw [hc]
      split <;> decide +kernel
    · rfl
theorem lowercaseChars_append (s t : List Char) :
    lowercaseChars (s ++ t) = lowercaseChars s ++ lowercaseChars t := List.flatMap_append

theorem lowercaseChars_ne_nil (c : Char) (s : List Char) : lowercaseChars (c :: s) ≠ [] := by
  rw [lowercaseChars, List.flatMap_cons]
  cases hc : isAlphanumeric c with
  | false => simp [notAlphanumeric_lower hc]
  | true =>
    obtain ⟨d, -, h | ⟨-, h⟩⟩ := alphanumeric_lower_cases hc
    · simp [h]
    · simp [h]

example : lowercaseChars ['İ'] = ['i', dotAbove] := by decide +kernel

theorem lowercaseChars_singleton (c : Char) : lowercaseChars [c] = charToLowercase c :=
  by simp [lowercaseChars]

theorem lowercaseChars_notAlphanumeric {s : List Char} (h : ∀ c ∈ s, isAlphanumeric c = false) :
    lowercaseChars s = s := by
  induction s with
  | nil => rfl
  | cons c s ih =>
    rw [lowercaseChars, List.flatMap_cons, notAlphanumeric_lower (h c List.mem_cons_self)]
    show c :: lowercaseChars s = c :: s
    rw [ih fun d hd => h d (List.mem_cons_of_mem _ hd)]

end Voisu.Lib
