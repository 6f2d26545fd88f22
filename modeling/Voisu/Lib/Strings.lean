import Voisu.Lib.Chars
import Voisu.Lib.Runs

/-!
# Operations on strings

The string methods of the Rust standard library that the source uses, on lists of characters.

* `trim`, `trimStart`, `trimEnd`   without the whitespace at the ends;
* `splitWhitespace`                the maximal runs without whitespace;
* `contains`, `findSub`            substrings.
-/

namespace Voisu.Lib

section
variable {α : Type} (p : α → Bool)

def trimStartMatches (s : List α) : List α := s.dropWhile p
def trimEndMatches (s : List α) : List α := (s.reverse.dropWhile p).reverse
def trimMatches (s : List α) : List α := trimEndMatches p (trimStartMatches p s)

variable {p}

theorem trimStartMatches_split (p : α → Bool) (s : List α) :
    ∃ g, s = g ++ trimStartMatches p s ∧ g.all p = true ∧
      headSep p (trimStartMatches p s) = true := by
  refine ⟨s.takeWhile p, (List.takeWhile_append_dropWhile).symm, ?_, ?_⟩
  · exact List.all_takeWhile
  · unfold trimStartMatches
    induction s with
    | nil => rfl
    | cons a s ih =>
      by_cases h : p a = true
      · rw [List.dropWhile_cons_of_pos h]
        exact ih
      · rw [List.dropWhile_cons_of_neg h]
        simpa [headSep] using h

theorem trimEndMatches_split (p : α → Bool) (s : List α) :
    ∃ g, s = trimEndMatches p s ++ g ∧ g.all p = true ∧
      lastSep p (trimEndMatches p s) = true := by
  obtain ⟨g, h1, h2, h3⟩ := trimStartMatches_split p s.reverse
  refine ⟨g.reverse, ?_, by rw [List.all_reverse]; exact h2, ?_⟩
  · unfold trimEndMatches
    rw [← List.reverse_append]
    exact List.reverse_eq_iff.mp h1
  · unfold lastSep trimEndMatches
    rw [List.reverse_reverse]
    exact h3

theorem trimStartMatches_of_headSep {s : List α} (h : headSep p s = true) :
    trimStartMatches p s = s := by
  cases s with
  | nil => rfl
  | cons a s => exact List.dropWhile_cons_of_neg (by simpa [headSep] using h)

theorem trimEndMatches_of_lastSep {s : List α} (h : lastSep p s = true) :
    trimEndMatches p s = s := by
  unfold trimEndMatches
  rw [show s.reverse.dropWhile p = s.reverse from trimStartMatches_of_headSep h,
    List.reverse_reverse]

/-- a text is trimmed when neither end is in `p` -/
def Trimmed (p : α → Bool) (s : List α) : Prop := headSep p s = true ∧ lastSep p s = true

theorem trimMatches_of_trimmed {s : List α} (h : Trimmed p s) : trimMatches p s = s := by
  unfold trimMatches
  rw [trimStartMatches_of_headSep h.1, trimEndMatches_of_lastSep h.2]

theorem headSep_of_append {s t : List α} (h : headSep p (s ++ t) = true) : headSep p s = true := by
  cases s with
  | nil => rfl
  | cons a s => exact h

theorem trimMatches_trimmed (p : α → Bool) (s : List α) : Trimmed p (trimMatches p s) := by
  obtain ⟨g, -, -, h1⟩ := trimStartMatches_split p s
  obtain ⟨g', h2, -, h3⟩ := trimEndMatches_split p (trimStartMatches p s)
  refine ⟨?_, h3⟩
  rw [h2] at h1
  exact headSep_of_append h1

/-- **what trimming removes** -/
theorem trimMatches_split (p : α → Bool) (s : List α) :
    ∃ g g', s = g ++ trimMatches p s ++ g' ∧ g.all p = true ∧ g'.all p = true := by
  obtain ⟨g, h1, h2, -⟩ := trimStartMatches_split p s
  obtain ⟨g', h3, h4, -⟩ := trimEndMatches_split p (trimStartMatches p s)
  refine ⟨g, g', ?_, h2, h4⟩
  rw [List.append_assoc]
  unfold trimMatches
  rw [← h3]
  exact h1

theorem trimMatches_concat {a : α} (ha : p a = true) (s : List α) :
    trimMatches p (s ++ [a]) = trimMatches p s := by
  unfold trimMatches trimStartMatches trimEndMatches
  rw [List.dropWhile_append]
  split
  · rename_i h
    rw [List.isEmpty_iff.mp h]
    simp [ha]
  · rw [List.reverse_append]
    simp [ha]

theorem trimMatches_append {w : List α} (hw : ∀ a ∈ w, p a = true) (s : List α) :
    trimMatches p (s ++ w) = trimMatches p s := by
  induction w generalizing s with
  | nil => rw [List.append_nil]
  | cons a w ih =>
    rw [← trimMatches_concat (hw a List.mem_cons_self) s,
      ← ih (fun d hd => hw d (List.mem_cons_of_mem _ hd)) (s ++ [a]), List.append_assoc,
      List.singleton_append]

example : trimMatches (· == '"') "\"a\"b\"".toList = "a\"b".toList := by decide +kernel

theorem trimEndMatches_append {s : List α} (hs : lastSep p s = true) (t : List α) :
    trimEndMatches p (s ++ t) = s ++ trimEndMatches p t := by
  obtain ⟨g, hg, hall, hlast⟩ := trimEndMatches_split p t
  have hstop : trimEndMatches p (s ++ trimEndMatches p t) = s ++ trimEndMatches p t := by
    apply trimEndMatches_of_lastSep
    by_cases hne : trimEndMatches p t = []
    · rwa [hne, List.append_nil]
    · rwa [lastSep_append_of_ne_nil hne]
  rw [← hstop]
  conv_lhs => rw [hg, ← List.append_assoc]
  unfold trimEndMatches
  rw [List.reverse_append, List.dropWhile_append_of_pos]
  intro a ha
  exact List.all_eq_true.mp hall a (List.mem_reverse.mp ha)

end

def trim (s : List Char) : List Char := trimMatches isWhitespace s
def trimStart (s : List Char) : List Char := trimStartMatches isWhitespace s
def trimEnd (s : List Char) : List Char := trimEndMatches isWhitespace s

theorem trim_trim (s : List Char) : trim (trim s) = trim s :=
  trimMatches_of_trimmed (trimMatches_trimmed _ s)

theorem trim_concat {c : Char} (hc : isWhitespace c = true) (s : List Char) :
    trim (s ++ [c]) = trim s := trimMatches_concat hc s

theorem trim_append {w : List Char} (hw : ∀ c ∈ w, isWhitespace c = true) (s : List Char) :
    trim (s ++ w) = trim s := trimMatches_append hw s

/-! ## whitespace tokens -/

def notWhitespace (c : Char) : Bool := !isWhitespace c

def splitWhitespace (s : List Char) : List (List Char) := words notWhitespace s

theorem all_notWhitespace_iff {g : List Char} :
    g.all (fun c => !notWhitespace c) = g.all isWhitespace := by
  simp [notWhitespace]

theorem splitWhitespace_trim (s : List Char) : splitWhitespace (trim s) = splitWhitespace s := by
  obtain ⟨g, g', h, hg, hg'⟩ := trimMatches_split isWhitespace s
  have h1 : g.all (fun c => !notWhitespace c) = true := by rw [all_notWhitespace_iff, hg]
  have h2 : g'.all (fun c => !notWhitespace c) = true := by rw [all_notWhitespace_iff, hg']
  unfold splitWhitespace
  rw [show trim s = trimMatches isWhitespace s from rfl]
  conv_rhs => rw [h]
  rw [words_append (by rw [headSep_of_all h2, Bool.or_true]),
    words_append (by rw [lastSep_of_all h1, Bool.true_or]), words_gap h1, words_gap h2,
    List.nil_append, List.append_nil]

/-! ## substrings -/

section
variable {α : Type} [DecidableEq α]

def startsWith (s t : List α) : Bool := t.isPrefixOf s
def endsWith (s t : List α) : Bool := t.isSuffixOf s

def contains : List α → List α → Bool
  | [], t => t.isEmpty
  | a :: s, t => startsWith (a :: s) t || contains s t

end

/-! ## numbers in texts -/

def natText (n : Nat) : List Char := (toString n).toList

theorem natText_eq (n : Nat) : natText n = Nat.toDigits 10 n := by
  show (Nat.repr n).toList = _
  rw [Nat.toList_repr]

theorem natText_isDigit {n : Nat} {c : Char} (hc : c ∈ natText n) : c.isDigit = true := by
  rw [natText_eq] at hc
  exact Nat.isDigit_of_mem_toDigits (by decide) (by decide) hc

theorem natText_injective {m n : Nat} (h : natText m = natText n) : m = n := by
  rw [natText_eq, natText_eq] at h
  rw [← Nat.ofDigitChars_toDigits (b := 10) (n := m) (by decide) (by decide), h,
    Nat.ofDigitChars_toDigits (by decide) (by decide)]

/-- a number ends before what is no digit -/
theorem natText_append_cons {m n : Nat} {c : Char} (hc : c.isDigit = false) {s t : List Char}
    (h : natText m ++ c :: s = natText n ++ c :: t) : m = n ∧ s = t := by
  have htake (k : Nat) (v : List Char) :
      (natText k ++ c :: v).takeWhile Char.isDigit = natText k := by
    rw [List.takeWhile_append_of_pos fun d hd => natText_isDigit hd,
      List.takeWhile_cons_of_neg (by simp [hc]), List.append_nil]
  have hsame : natText m = natText n := by rw [← htake m s, h, htake]
  rw [hsame] at h
  exact ⟨natText_injective hsame, (List.cons.inj (List.append_cancel_left h)).2⟩

/-- `str::parse` for an unsigned number up to `most`: digits, with at most a plus before them -/
def parseUnsigned (most : Nat) (s : List Char) : Option Nat :=
  let digits := if s.head? = some '+' then s.tail else s
  if digits.isEmpty || !digits.all Char.isDigit then none
  else
    let n := Nat.ofDigitChars 10 digits 0
    if n ≤ most then some n else none

theorem parseUnsigned_le {most n : Nat} {s : List Char} (h : parseUnsigned most s = some n) :
    n ≤ most := by
  unfold parseUnsigned at h
  generalize (if s.head? = some '+' then s.tail else s) = digits at h
  simp only at h
  split at h
  · cases h
  · split at h
    · rename_i hle
      exact Option.some.inj h ▸ hle
    · cases h

theorem natText_ne_nil (n : Nat) : natText n ≠ [] := by
  rw [natText_eq]
  exact Nat.toDigits_ne_nil

theorem parseUnsigned_natText {most n : Nat} (h : n ≤ most) :
    parseUnsigned most (natText n) = some n := by
  have hall : (natText n).all Char.isDigit = true :=
    List.all_eq_true.mpr fun c hc => natText_isDigit hc
  have hplus : (natText n).head? ≠ some '+' := by
    intro hhead
    have := natText_isDigit (List.mem_of_head? hhead)
    exact absurd this (by decide)
  have hvalue : Nat.ofDigitChars 10 (natText n) 0 = n := by
    rw [natText_eq]
    exact Nat.ofDigitChars_toDigits (by decide) (by decide)
  simp [parseUnsigned, hplus, hall, hvalue, h, natText_ne_nil]

example : parseUnsigned 65535 "+080".toList = some 80 ∧ parseUnsigned 65535 "65536".toList = none := by
  decide +kernel

/-- lexicographic order by code point, which is the order of the UTF-8 bytes -/
def textLe : List Char → List Char → Bool
  | [], _ => true
  | _ :: _, [] => false
  | a :: s, b :: t => a.toNat < b.toNat || (a == b && textLe s t)

theorem textLe_cons {a b : Char} {s t : List Char} :
    textLe (a :: s) (b :: t) = true ↔ a.toNat < b.toNat ∨ a = b ∧ textLe s t = true := by
  simp [textLe]

theorem textLe_total (s t : List Char) : textLe s t = true ∨ textLe t s = true := by
  induction s generalizing t with
  | nil => exact Or.inl rfl
  | cons a s ih =>
    cases t with
    | nil => exact Or.inr rfl
    | cons b t =>
      rw [textLe_cons, textLe_cons]
      rcases Nat.lt_trichotomy a.toNat b.toNat with h | h | h
      · exact Or.inl (Or.inl h)
      · have hab : a = b := Char.toNat_inj.mp h
        exact (ih t).imp (fun hst => Or.inr ⟨hab, hst⟩) fun hts => Or.inr ⟨hab.symm, hts⟩
      · exact Or.inr (Or.inl h)

theorem textLe_antisymm {s t : List Char} (h : textLe s t = true) (h' : textLe t s = true) :
    s = t := by
  induction s generalizing t with
  | nil =>
    cases t with
    | nil => rfl
    | cons b t => cases h'
  | cons a s ih =>
    cases t with
    | nil => cases h
    | cons b t =>
      rcases textLe_cons.mp h with hlt | ⟨rfl, hst⟩
      · rcases textLe_cons.mp h' with hlt' | ⟨rfl, -⟩ <;> omega
      · rcases textLe_cons.mp h' with hlt' | ⟨-, hts⟩
        · omega
        · rw [ih hst hts]

theorem textLe_trans {s t u : List Char} (h : textLe s t = true) (h' : textLe t u = true) :
    textLe s u = true := by
  induction s generalizing t u with
  | nil => rfl
  | cons a s ih =>
    cases t with
    | nil => cases h
    | cons b t =>
      cases u with
      | nil => cases h'
      | cons c u =>
        rw [textLe_cons] at *
        rcases h with h | ⟨rfl, h⟩
        · rcases h' with h' | ⟨rfl, -⟩
          · exact Or.inl (Nat.lt_trans h h')
          · exact Or.inl h
        · rcases h' with h' | ⟨rfl, h'⟩
          · exact Or.inl h'
          · exact Or.inr ⟨rfl, ih h h'⟩

end Voisu.Lib
