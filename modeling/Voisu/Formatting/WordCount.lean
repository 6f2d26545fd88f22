import Mathlib
import Voisu.Formatting.Layout
import Voisu.Lib.Letters

/-!
# How many words a text has

* `wordTokens_split`     what is behind a word has the words of its own;
* `wordCount_append`     the words of two texts add up, when white space is at the joint;
* `wordCount_append_le`  else two of them can only become one.
-/

namespace Voisu.Formatting
open Lib

def wordCount (s : Text) : Nat := (wordTokens s).length

/-! ## the words behind a word -/

/-- the marks of a text within another, and the marks of what follows -/
theorem markWords_cut (inWord : Bool) (s t : Text) : ∃ m, m.map Prod.fst = s ∧
    markWords inWord (s ++ t) = m ++ markWords (lastInWord inWord m) t := by
  induction s generalizing inWord with
  | nil => exact ⟨[], rfl, rfl⟩
  | cons c s ih =>
    obtain ⟨m, hm, hmarks⟩ := ih (isWordChar c || (inWord && isApostrophe c && startsWord (s ++ t)))
    refine ⟨(c, isWordChar c || (inWord && isApostrophe c && startsWord (s ++ t))) :: m, ?_, ?_⟩
    · rw [List.map_cons, hm]
    · rw [List.cons_append, markWords]
      simp only [hmarks]
      rfl

theorem lastInWord_of_run {m : List (Char × Bool)} (hne : m ≠ []) (hall : m.all Prod.snd = true)
    (inWord : Bool) : lastInWord inWord m = true := by
  induction m generalizing inWord with
  | nil => exact absurd rfl hne
  | cons p m ih =>
    rw [List.all_cons, Bool.and_eq_true] at hall
    rw [lastInWord]
    cases m with
    | nil => exact hall.1
    | cons q m => exact ih (by simp) hall.2 _

theorem lastInWord_append (inWord : Bool) (m m' : List (Char × Bool)) :
    lastInWord inWord (m ++ m') = lastInWord (lastInWord inWord m) m' := by
  induction m generalizing inWord with
  | nil => rfl
  | cons p m ih => exact ih _

/-- behind the end of a word the marks begin anew -/
theorem markWords_fresh {t : Text} (h : headSep Prod.snd (markWords true t) = true) :
    markWords true t = markWords false t := by
  cases t with
  | nil => rfl
  | cons c t =>
    simp only [markWords, headSep, Bool.not_eq_true', Bool.or_eq_false_iff] at h
    simp only [markWords, h.1, h.2, Bool.false_and, Bool.or_self]

theorem runs_shift (m : List (Char × Bool)) (off : Nat) :
    runs Prod.snd off m = (runs Prod.snd 0 m).map fun r => ⟨r.start + off, r.text⟩ := by
  have h := (runs_spec Prod.snd 0 m).shift off
  rw [Nat.zero_add] at h
  exact (runs_spec Prod.snd off m).unique h

/-- **what is behind a word has the words of its own** -/
theorem wordTokens_split {s : Text} {before after : List Token} {tok : Token}
    (h : wordTokens s = before ++ tok :: after) :
    ∃ a c, s = a ++ tok.text ++ c ∧ byteLen a = tok.start ∧ tok.text ≠ [] ∧
      after.length = wordCount c := by
  obtain ⟨rs₁, rs₂, hrs, rfl, hrs₂⟩ := List.map_eq_append_iff.mp h
  obtain ⟨r, rs₃, rfl, rfl, rfl⟩ := List.map_eq_cons_iff.mp hrs₂
  have hruns := runs_spec Prod.snd 0 (markWords false s)
  rw [hrs] at hruns
  obtain ⟨a, c, hs, hstart, -, -, ht, hne, hsep, hrest⟩ := hruns.split
  have htext : s = a.map Prod.fst ++ r.text.map Prod.fst ++ c.map Prod.fst := by
    rw [← List.map_append, ← List.map_append, ← hs, markWords_fst]
  refine ⟨a.map Prod.fst, c.map Prod.fst, htext, ?_, by simpa [unmark] using hne, ?_⟩
  · rw [byteLen_fst]
    simpa [unmark] using hstart
  · obtain ⟨m, hm, hmarks⟩ := markWords_cut false (a.map Prod.fst ++ r.text.map Prod.fst) (c.map Prod.fst)
    rw [← htext, hs] at hmarks
    have hlen : m.length = (a ++ r.text).length := by
      rw [← List.length_map Prod.fst, hm]
      simp
    obtain ⟨rfl, hc⟩ := List.append_inj hmarks.symm hlen
    rw [lastInWord_append, lastInWord_of_run hne ht] at hc
    rw [← hc] at hsep
    rw [List.length_map, wordCount, wordTokens, ← markWords_fresh hsep, hc, List.length_map,
      hrest.unique (runs_spec _ _ _), runs_shift, List.length_map]

/-! ## two texts, one after the other -/

theorem isSeparator_of_whitespace {c : Char} (h : isWhitespace c = true) : isSeparator c = true := by
  have halnum := isAlphanumeric_of_whitespace c h
  have hword : isWordChar c = false := by
    by_contra hc
    rw [Bool.not_eq_false] at hc
    rw [isAlphanumeric_of_ascii hc] at halnum
    cases halnum
  have hmark : isApostrophe c = false := by
    by_contra hc
    simp only [isApostrophe, Bool.not_eq_false, Bool.or_eq_true, beq_iff_eq] at hc
    rcases hc with rfl | rfl <;> revert h <;> decide
  rw [isSeparator, hword, hmark]
  rfl

theorem startsWord_of_headSep {t : Text} (h : headSep notWhitespace t = true) :
    startsWord t = false ∧ ∀ inWord, markWords inWord t = markWords false t ∧
      headSep Prod.snd (markWords inWord t) = true := by
  cases t with
  | nil => exact ⟨rfl, fun _ => ⟨rfl, rfl⟩⟩
  | cons c t =>
    have hc : isSeparator c = true := isSeparator_of_whitespace (by simpa [headSep, notWhitespace] using h)
    refine ⟨?_, fun inWord => ?_⟩
    · simp only [isSeparator, Bool.and_eq_true, Bool.not_eq_true'] at hc
      exact hc.1
    · rw [markWords_separator hc, markWords_separator hc]
      exact ⟨rfl, rfl⟩

/-- the marks of two texts with white space at the joint -/
theorem markWords_joint {s t : Text}
    (h : (lastSep notWhitespace s || headSep notWhitespace t) = true) :
    markWords false (s ++ t) = markWords false s ++ markWords false t ∧
      (lastSep Prod.snd (markWords false s) || headSep Prod.snd (markWords false t)) = true := by
  rw [Bool.or_eq_true] at h
  rcases h with h | h
  · rcases List.eq_nil_or_concat s with rfl | ⟨front, c, rfl⟩
    · exact ⟨rfl, rfl⟩
    · rw [List.concat_eq_append] at h ⊢
      have hc : isSeparator c = true :=
        isSeparator_of_whitespace (by simpa [lastSep, headSep, notWhitespace] using h)
      have hstarts (t : Text) : startsWord (c :: t) = false := by
        simp only [isSeparator, Bool.and_eq_true, Bool.not_eq_true'] at hc
        exact hc.1
      rw [List.append_assoc, List.singleton_append, markWords_append false front (c :: t) (hstarts t),
        markWords_append false front [c] (hstarts []), markWords_separator hc, markWords_separator hc]
      refine ⟨by simp [markWords], ?_⟩
      simp [markWords, lastSep, headSep]
  · obtain ⟨hstarts, hmarks⟩ := startsWord_of_headSep h
    rw [markWords_append false s t hstarts, (hmarks _).1]
    exact ⟨rfl, by rw [(hmarks false).2, Bool.or_true]⟩

/-- **with white space at the joint the words add up** -/
theorem wordCount_append {s t : Text}
    (h : (lastSep notWhitespace s || headSep notWhitespace t) = true) :
    wordCount (s ++ t) = wordCount s + wordCount t := by
  obtain ⟨hmarks, hjoint⟩ := markWords_joint h
  have hruns := (runs_spec Prod.snd 0 (markWords false s)).append
    (runs_spec Prod.snd _ (markWords false t)) hjoint
  rw [wordCount, wordTokens, hmarks, List.length_map, (runs_spec _ _ _).unique hruns,
    List.length_append, runs_shift (markWords false t), List.length_map]
  simp only [wordCount, wordTokens, List.length_map]

example : wordCount "one  two\nthree".toList = 3 := by decide +kernel

/-! ## the beginnings of the words -/

/-- the symbols of `p` behind one that is not; `prev` says whether the symbol before the list is -/
def starts {α : Type} (p : α → Bool) (prev : Bool) : List α → Nat
  | [] => 0
  | a :: s => (if p a && !prev then 1 else 0) + starts p (p a) s

theorem runsFrom_length {α : Type} [ByteSized α] (p : α → Bool) (off : Nat) (cur s : List α) :
    (runsFrom p off cur s).length = (if cur.isEmpty then 0 else 1) + starts p (!cur.isEmpty) s := by
  induction s generalizing off cur with
  | nil =>
    rw [runsFrom, starts]
    split <;> rfl
  | cons a s ih =>
    rw [runsFrom, starts]
    by_cases ha : p a = true
    · rw [if_pos ha, ih, ha]
      cases cur <;> simp
    · rw [if_neg ha]
      cases cur with
      | nil => simp [ih, ha]
      | cons c cur => simp [ih, ha]; omega

theorem wordCount_eq_starts (s : Text) : wordCount s = starts Prod.snd false (markWords false s) := by
  rw [wordCount, wordTokens, List.length_map, runs, runsFrom_length]
  simp

/-- a word that goes on is not another one -/
theorem starts_inWord (inWord : Bool) (t : Text) : starts Prod.snd inWord (markWords inWord t) ≤
    starts Prod.snd false (markWords false t) := by
  cases inWord with
  | false => exact le_rfl
  | true =>
    cases t with
    | nil => exact le_rfl
    | cons c t =>
      simp only [markWords, starts]
      by_cases hc : isWordChar c = true
      · simp [hc]
      by_cases hmark : (isApostrophe c && startsWord t) = true
      · -- the mark ties the word behind it to the one before it
        cases t with
        | nil => simp [startsWord] at hmark
        | cons d t =>
          have hd : isWordChar d = true := by
            rw [Bool.and_eq_true] at hmark
            exact hmark.2
          simp [hc, hmark, markWords, starts, hd]
      · simp [hc, hmark]

/-- **two words at a joint can only become one** -/
theorem wordCount_append_le (s t : Text) : wordCount (s ++ t) ≤ wordCount s + wordCount t := by
  have hmain (inWord : Bool) : starts Prod.snd inWord (markWords inWord (s ++ t)) ≤
      starts Prod.snd inWord (markWords inWord s) + starts Prod.snd false (markWords false t) := by
    induction s generalizing inWord with
    | nil =>
      have := starts_inWord inWord t
      simpa [markWords, starts] using this
    | cons c s ih =>
      rw [List.cons_append, markWords, markWords]
      cases s with
      | cons d s =>
        have := ih (isWordChar c || (inWord && isApostrophe c && startsWord (d :: s)))
        simp only [starts]
        show _ + starts Prod.snd _ (markWords _ (d :: s ++ t)) ≤ _
        have hstarts : startsWord (d :: s ++ t) = startsWord (d :: s) := rfl
        rw [hstarts]
        omega
      | nil =>
        have h := starts_inWord (isWordChar c || (inWord && isApostrophe c && startsWord t)) t
        have hnil : startsWord ([] : Text) = false := rfl
        simp only [List.nil_append, markWords, starts, hnil, Bool.and_false, Bool.or_false]
        have hstart : (if (isWordChar c || inWord && isApostrophe c && startsWord t) && !inWord then 1
            else 0) ≤ if isWordChar c && !inWord then 1 else 0 := by
          cases inWord <;> simp
        omega
  rw [wordCount_eq_starts, wordCount_eq_starts, wordCount_eq_starts]
  exact hmain false

theorem wordCount_pos {s : Text} {c : Char} (hc : c ∈ s) (hword : isWordChar c = true) :
    1 ≤ wordCount s := by
  by_contra hnone
  have hempty : wordTokens s = [] := List.length_eq_zero_iff.mp (by rw [wordCount] at hnone; omega)
  have hlayout := wordTokens_layout s
  rw [hempty] at hlayout
  rw [hlayout.nil c hc] at hword
  cases hword

end Voisu.Formatting
