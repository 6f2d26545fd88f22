import Voisu.Formatting.Tokens

/-!
# Where the words of the formatter stand

* `WordLayout off s toks`   the words of a text that starts at offset `off`: between them no
                            character of a word, in them nothing else but apostrophes;
* `wordTokens_layout`       the layout of the words that `wordTokens` finds.
-/

namespace Voisu.Formatting
open Lib

/-! ## the marks -/

theorem markWords_fst (inWord : Bool) (s : Text) : (markWords inWord s).map Prod.fst = s := by
  induction s generalizing inWord with
  | nil => rfl
  | cons c s ih => rw [markWords, List.map_cons, ih]

theorem markWords_mem {inWord : Bool} {s : Text} {p : Char × Bool} (h : p ∈ markWords inWord s) :
    (isWordChar p.1 = true → p.2 = true) ∧
      (p.2 = true → isWordChar p.1 = true ∨ isApostrophe p.1 = true) := by
  induction s generalizing inWord with
  | nil => cases h
  | cons c s ih =>
    rw [markWords] at h
    rcases List.mem_cons.mp h with rfl | h
    · constructor
      · intro hc
        simp only [hc, Bool.true_or]
      · intro hb
        simp only [Bool.or_eq_true, Bool.and_eq_true] at hb
        exact hb.imp_right fun h => h.1.2
    · exact ih h

/-- whether the last character of a text belongs to a word -/
def lastInWord (inWord : Bool) : List (Char × Bool) → Bool
  | [] => inWord
  | p :: ps => lastInWord p.2 ps

/-- the marks of a text do not depend on what follows it, when no word begins there -/
theorem markWords_append (inWord : Bool) (s t : Text) (ht : startsWord t = false) :
    markWords inWord (s ++ t) =
      markWords inWord s ++ markWords (lastInWord inWord (markWords inWord s)) t := by
  induction s generalizing inWord with
  | nil => rfl
  | cons c s ih =>
    have hstarts : startsWord (s ++ t) = startsWord s := by
      cases s with
      | nil => exact ht
      | cons d s => rfl
    simp only [List.cons_append, markWords, hstarts, ih]
    rfl

/-- a character that neither belongs to a word nor may stand in one -/
def isSeparator (c : Char) : Bool := !isWordChar c && !isApostrophe c

theorem markWords_separator {c : Char} (hc : isSeparator c = true) (inWord : Bool) (s : Text) :
    markWords inWord (c :: s) = (c, false) :: markWords false s := by
  simp only [isSeparator, Bool.and_eq_true, Bool.not_eq_true'] at hc
  simp only [markWords, hc.1, hc.2, Bool.and_false, Bool.false_and, Bool.or_self]

/-! ## layouts -/

theorem byteLen_fst (s : List (Char × Bool)) : byteLen (s.map Prod.fst) = byteLen s :=
  byteLen_map Prod.fst (fun _ => rfl) s

theorem unmark_stop (r : Run (Char × Bool)) : (unmark r).stop = r.stop := by
  rw [Run.stop, Run.stop, unmark, byteLen_fst]

/-- the words of a text that starts at offset `off` -/
def WordLayout (off : Nat) (s : Text) (toks : List Token) : Prop :=
  ∃ (m : List (Char × Bool)) (rs : List (Run (Char × Bool))), m.map Prod.fst = s ∧
    rs.map unmark = toks ∧ Runs Prod.snd off m rs ∧ ∀ p ∈ m, (isWordChar p.1 = true → p.2 = true) ∧
      (p.2 = true → isWordChar p.1 = true ∨ isApostrophe p.1 = true)

theorem wordTokens_layout (text : Text) : WordLayout 0 text (wordTokens text) :=
  ⟨markWords false text, runs Prod.snd 0 (markWords false text), markWords_fst false text, rfl,
    runs_spec _ _ _, fun _ => markWords_mem⟩

example : (wordTokens "it's 5".toList).length = 2 := by decide +kernel

section
variable {off : Nat} {s : Text} {tok : Token} {toks : List Token}

theorem WordLayout.nil (h : WordLayout off s []) : ∀ c ∈ s, isWordChar c = false := by
  obtain ⟨m, rs, rfl, hrs, hruns, hmarks⟩ := h
  obtain rfl := List.map_eq_nil_iff.mp hrs
  intro c hc
  obtain ⟨p, hp, rfl⟩ := List.mem_map.mp hc
  have hgap := List.all_eq_true.mp hruns.nil_inv p hp
  by_contra hword
  rw [(hmarks p hp).1 (by simpa using hword)] at hgap
  cases hgap

/-- **the first word of a layout, the gap before it and the rest** -/
theorem WordLayout.cons (h : WordLayout off s (tok :: toks)) : ∃ g rest, s = g ++ tok.text ++ rest ∧
    off + byteLen g = tok.start ∧ (∀ c ∈ g, isWordChar c = false) ∧
    (∀ c ∈ tok.text, isWordChar c = true ∨ isApostrophe c = true) ∧ tok.text ≠ [] ∧
    startsWord rest = false ∧ WordLayout tok.stop rest toks := by
  obtain ⟨m, rs, rfl, hrs, hruns, hmarks⟩ := h
  cases rs with
  | nil => cases hrs
  | cons r rs =>
    obtain ⟨rfl, rfl⟩ := List.cons.inj hrs
    obtain ⟨g, m', rfl, hstart, hg, ht, hne, hsep, hrest⟩ := hruns.cons_inv
    refine ⟨g.map Prod.fst, m'.map Prod.fst, by simp [unmark], by rw [byteLen_fst, hstart]; rfl, ?_,
      ?_, by simpa [unmark] using hne, ?_,
      ⟨m', rs, rfl, rfl, by rw [unmark_stop]; exact hrest, fun p hp => hmarks p (by simp [hp])⟩⟩
    · intro c hc
      obtain ⟨p, hp, rfl⟩ := List.mem_map.mp hc
      have hgap := List.all_eq_true.mp hg p hp
      by_contra hword
      rw [(hmarks p (by simp [hp])).1 (by simpa using hword)] at hgap
      cases hgap
    · intro c hc
      obtain ⟨p, hp, rfl⟩ := List.mem_map.mp hc
      exact (hmarks p (by simp [hp])).2 (List.all_eq_true.mp ht p hp)
    · cases m' with
      | nil => rfl
      | cons p m' =>
        show isWordChar p.1 = false
        by_contra hword
        have := (hmarks p (by simp)).1 (by simpa using hword)
        simp [headSep, this] at hsep

/-- **at each word the text falls into the part before it, the word and the part after** -/
theorem WordLayout.split {before : List Token} (h : WordLayout off s (before ++ tok :: toks)) :
    ∃ a rest, s = a ++ tok.text ++ rest ∧ off + byteLen a = tok.start ∧ WordLayout off a before ∧
      (∀ c ∈ tok.text, isWordChar c = true ∨ isApostrophe c = true) ∧ tok.text ≠ [] ∧
      startsWord rest = false ∧ WordLayout tok.stop rest toks := by
  obtain ⟨m, rs, rfl, hrs, hruns, hmarks⟩ := h
  obtain ⟨rs₁, rs₂, rfl, rfl, hrs₂⟩ := List.map_eq_append_iff.mp hrs
  obtain ⟨r, rs₃, rfl, rfl, rfl⟩ := List.map_eq_cons_iff.mp hrs₂
  obtain ⟨a, b, rfl, hstart, ha, -, ht, hne, hsep, hrest⟩ := hruns.split
  refine ⟨a.map Prod.fst, b.map Prod.fst, by simp [unmark], by rw [byteLen_fst, hstart]; rfl,
    ⟨a, rs₁, rfl, rfl, ha, fun p hp => hmarks p (by simp [hp])⟩, ?_, by simpa [unmark] using hne, ?_,
    ⟨b, rs₃, rfl, rfl, by rw [unmark_stop]; exact hrest, fun p hp => hmarks p (by simp [hp])⟩⟩
  · intro c hc
    obtain ⟨p, hp, rfl⟩ := List.mem_map.mp hc
    exact (hmarks p (by simp [hp])).2 (List.all_eq_true.mp ht p hp)
  · cases b with
    | nil => rfl
    | cons p b =>
      show isWordChar p.1 = false
      by_contra hword
      have := (hmarks p (by simp)).1 (by simpa using hword)
      simp [headSep, this] at hsep

end

end Voisu.Formatting
