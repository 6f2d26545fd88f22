import Mathlib
import Voisu.Lib.Casing
import Voisu.Lib.Lines

/-!
# The letters and digits of a text

`letters s` is the sequence of the alphanumeric characters of a text, ignoring ASCII case.  A rewrite
that moves punctuation, white space and case about keeps it.

* `letters_append`, `letters_flatMap`   text after text;
* `letters_of_lower`                    ASCII case does not matter;
* `letters_mute`                        a text without letters and digits;
* `letters_trimMatches`, `letters_words`, `letters_splitOn`, `letters_strLines`, `letters_splitStr`
                                        what the string library leaves out.
-/

namespace Voisu.Lib

def letters (s : List Char) : List Char := asciiLowercase (s.filter isAlphanumeric)

@[simp] theorem letters_nil : letters [] = [] := rfl

@[simp] theorem letters_append (s t : List Char) : letters (s ++ t) = letters s ++ letters t := by
  simp [letters, asciiLowercase]

theorem letters_cons (c : Char) (s : List Char) : letters (c :: s) = letters [c] ++ letters s :=
  letters_append [c] s

example : letters "Don't stop".toList = "dontstop".toList := by decide +kernel

theorem letters_flatMap {α : Type} (f : α → List Char) (l : List α) :
    letters (l.flatMap f) = l.flatMap fun a => letters (f a) := by
  induction l with
  | nil => rfl
  | cons a l ih => rw [List.flatMap_cons, letters_append, ih, List.flatMap_cons]

/-! ## case -/

theorem letters_eq (s : List Char) : letters s = (asciiLowercase s).filter isAlphanumeric := by
  induction s with
  | nil => rfl
  | cons c s ih =>
    rw [letters_cons, ih]
    simp only [letters, asciiLowercase, List.map_cons, List.filter_cons, List.filter_nil,
      isAlphanumeric_lower]
    split <;> rfl

/-- **ASCII case does not matter** -/
theorem letters_of_lower {s t : List Char} (h : asciiLowercase s = asciiLowercase t) :
    letters s = letters t := by
  rw [letters_eq, letters_eq, h]

theorem letters_upper_cons (c : Char) (s : List Char) :
    letters (toAsciiUppercase c :: s) = letters (c :: s) := by
  apply letters_of_lower
  simp [asciiLowercase, toAsciiLowercase_upper]

/-! ## texts without letters and digits -/

theorem letters_mute {s : List Char} (h : ∀ c ∈ s, isAlphanumeric c = false) : letters s = [] := by
  have hnone : s.filter isAlphanumeric = [] :=
    List.filter_eq_nil_iff.mpr fun c hc => by rw [h c hc]; exact Bool.false_ne_true
  rw [letters, hnone]
  rfl

theorem letters_mute_all {p : Char → Bool} (hp : ∀ c, p c = true → isAlphanumeric c = false)
    {s : List Char} (h : s.all p = true) : letters s = [] :=
  letters_mute fun c hc => hp c (List.all_eq_true.mp h c hc)

theorem letters_eq_nil {s : List Char} : letters s = [] ↔ ∀ c ∈ s, isAlphanumeric c = false := by
  constructor
  · intro h c hc
    by_contra halnum
    have hmem : c ∈ s.filter isAlphanumeric := List.mem_filter.mpr ⟨hc, by simpa using halnum⟩
    rw [List.map_eq_nil_iff.mp h] at hmem
    cases hmem
  · exact letters_mute

/-! ## what the string library leaves out -/

section
variable {p : Char → Bool} (hp : ∀ c, p c = true → isAlphanumeric c = false)
include hp

theorem letters_trimStartMatches (s : List Char) : letters (trimStartMatches p s) = letters s := by
  obtain ⟨g, h, hg, -⟩ := trimStartMatches_split p s
  conv_rhs => rw [h]
  rw [letters_append, letters_mute_all hp hg, List.nil_append]

theorem letters_trimEndMatches (s : List Char) : letters (trimEndMatches p s) = letters s := by
  obtain ⟨g, h, hg, -⟩ := trimEndMatches_split p s
  conv_rhs => rw [h]
  rw [letters_append, letters_mute_all hp hg, List.append_nil]

theorem letters_trimMatches (s : List Char) : letters (trimMatches p s) = letters s := by
  rw [trimMatches, letters_trimEndMatches hp, letters_trimStartMatches hp]

end

theorem letters_trim (s : List Char) : letters (trim s) = letters s :=
  letters_trimMatches isAlphanumeric_of_whitespace s

theorem letters_trimStart (s : List Char) : letters (trimStart s) = letters s :=
  letters_trimStartMatches isAlphanumeric_of_whitespace s

/-- the words of a text hold its letters and digits, when a separator holds none -/
theorem letters_words {p : Char → Bool} (hp : ∀ c, p c = false → isAlphanumeric c = false)
    (s : List Char) : (words p s).flatMap letters = letters s := by
  have h := runs_spec p 0 s
  unfold words
  generalize runs p 0 s = rs at h
  generalize (0 : Nat) = off at h
  induction h with
  | gap hg =>
    rw [List.map_nil, List.flatMap_nil]
    refine (letters_mute fun c hc => hp c ?_).symm
    simpa using List.all_eq_true.mp hg c hc
  | run hg ht hne hs h ih =>
    have hmute := letters_mute fun c hc => hp c (by simpa using List.all_eq_true.mp hg c hc)
    rw [List.map_cons, List.flatMap_cons, ih, letters_append, letters_append, hmute, List.nil_append]

theorem letters_splitWhitespace (s : List Char) :
    (splitWhitespace s).flatMap letters = letters s :=
  letters_words (fun c h => isAlphanumeric_of_whitespace c (by simpa [notWhitespace] using h)) s

/-- `slice::join` with a separator without letters and digits -/
theorem letters_intercalate {sep : List Char} (hsep : letters sep = []) (l : List (List Char)) :
    letters (sep.intercalate l) = l.flatMap letters := by
  induction l with
  | nil => rfl
  | cons a l ih =>
    cases l with
    | nil => simp [List.intercalate]
    | cons b l =>
      rw [List.intercalate_cons_cons, letters_append, letters_append, hsep, ih]
      simp

theorem letters_splitOn {sep : Char} (hsep : letters [sep] = []) (s : List Char) :
    (s.splitOn sep).flatMap letters = letters s := by
  rw [← letters_intercalate hsep, List.intercalate_splitOn]

theorem letters_chompReturn (line : List Char) : letters (chompReturn line) = letters line := by
  unfold chompReturn
  split
  · rename_i h
    obtain ⟨front, rfl⟩ := List.getLast?_eq_some_iff.mp h
    have hmute : letters ['\r'] = [] := by decide
    rw [List.dropLast_concat, letters_append, hmute, List.append_nil]
  · rfl

theorem letters_strLines (s : List Char) : (strLines s).flatMap letters = letters s := by
  have hbreak : letters ['\n'] = [] := by decide
  rw [← letters_splitOn hbreak s]
  unfold strLines
  rcases List.eq_nil_or_concat (s.splitOn '\n') with h | ⟨front, last, h⟩
  · simp [h]
  · rw [h, List.concat_eq_append]
    simp only [List.dropLast_concat, List.getLast?_concat, Option.getD_some, List.flatMap_append,
      List.flatMap_map, letters_chompReturn, List.flatMap_cons, List.flatMap_nil, List.append_nil]
    congr 1
    split
    · rename_i hempty
      rw [List.isEmpty_iff.mp hempty]
      rfl
    · simp

theorem letters_splitStrFrom {sep : List Char} (hsep : ∀ c ∈ sep, isAlphanumeric c = false)
    (hne : sep ≠ []) (cur : List Char) (skip : Nat) (s : List Char)
    (hskip : ∀ c ∈ s.take skip, isAlphanumeric c = false) :
    (splitStrFrom sep cur skip s).flatMap letters = letters cur ++ letters s := by
  induction s generalizing cur skip with
  | nil => cases skip <;> simp [splitStrFrom]
  | cons c s ih =>
    cases skip with
    | succ skip =>
      have hc : letters [c] = [] := letters_mute (by simpa using hskip c (by simp))
      rw [splitStrFrom, ih cur skip fun d hd => hskip d (by simp [hd]), letters_cons c, hc]
      rfl
    | zero =>
      rw [splitStrFrom]
      split
      · rename_i hstarts
        obtain ⟨rest, hrest⟩ := List.isPrefixOf_iff_prefix.mp hstarts
        obtain ⟨d, sep', rfl⟩ := List.exists_cons_of_ne_nil hne
        obtain ⟨rfl, rfl⟩ := List.cons.inj hrest
        have hc : letters [d] = [] := letters_mute (by simpa using hsep d (by simp))
        rw [List.flatMap_cons, ih, letters_cons d, hc]
        · rfl
        · intro e he
          refine hsep e (List.mem_cons_of_mem _ ?_)
          simpa using he
      · rw [ih (cur ++ [c]) 0 (by simp), letters_append, List.append_assoc, ← letters_cons]

theorem letters_splitStr {sep : List Char} (hsep : ∀ c ∈ sep, isAlphanumeric c = false)
    (hne : sep ≠ []) (s : List Char) : (splitStr sep s).flatMap letters = letters s := by
  rw [splitStr, letters_splitStrFrom hsep hne _ _ _ (by simp), letters_nil, List.nil_append]

end Voisu.Lib
