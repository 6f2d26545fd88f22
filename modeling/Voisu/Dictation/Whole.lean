import Mathlib
import Voisu.Dictation.Rewrite

/-!
# Numbers are converted whole

A decimal or a cardinal run never starts behind a number word, and a cardinal run ends where the
number words end.  The digits of a decimal end earlier where a digit word carries punctuation, or
where a number word is no single digit.

* `Whole`                 no number word stands beside a rewritten number;
* `cutsFraction`          the tokens that end the digits of a decimal and go on with the number;
* `numberSpans_whole_iff` all numbers are whole exactly when no decimal is cut short.
-/

namespace Voisu.Dictation
open Lib
open Baseline (Token wordTokens)

def isDigitToken (tok : Token) : Bool := (digitString (lowerCore tok.text)).isSome

/-- no number word before the span or behind it, and no digit behind a decimal -/
def Whole (tokens : List Token) (kind : CueKind) (m : CueSpan) : Prop :=
  (0 < m.start → isCardinalAt tokens (m.start - 1) = false) ∧
  isCardinalAt tokens m.stop = false ∧
  (kind = .decimal → tokens[m.stop]?.any isDigitToken = false)

/-- a digit word with punctuation behind it, or a number word that is no single digit -/
def cutsFraction (tok : Token) : Bool :=
  (!isBare tok.text && isDigitToken tok) || (isCardinalToken tok.text && !isDigitToken tok)

section
variable {tokens : List Token} {masks : Masks} {i : Nat} {m : CueSpan}

theorem tokenCore_core (tok : Text) : tokenCore (tokenCore tok).1 = ((tokenCore tok).1, []) := by
  have htrim : trimEndMatches isTailMark (trimEndMatches isTailMark tok) =
      trimEndMatches isTailMark tok := by
    obtain ⟨-, -, -, hlast⟩ := trimEndMatches_split isTailMark tok
    exact trimEndMatches_of_lastSep hlast
  simp only [tokenCore, htrim, List.drop_length]

theorem numberish_of_cardinal {tok : Text} (h : isCardinalToken tok = true) :
    isNumberishToken tok = true := by
  have hcore : isCardinalToken (tokenCore tok).1 = isCardinalToken tok := by
    simp only [isCardinalToken, cardinalValue, lowerCore, tokenCore_core]
  have hne : (tokenCore tok).1.isEmpty = false := by
    unfold isCardinalToken cardinalValue at h
    by_contra hempty
    rw [if_pos (by simpa using hempty)] at h
    cases h
  simp [isNumberishToken, hne, hcore, h]

example : cutsFraction ⟨0, "five,".toList⟩ = true := by decide +kernel

/-- a phrase that does not start behind a number word -/
theorem cardinal_before (h : numberishBefore tokens i = false) (hi : 0 < i) :
    isCardinalAt tokens (i - 1) = false := by
  unfold numberishBefore at h
  unfold isCardinalAt
  cases htok : tokens[i - 1]? with
  | none => rfl
  | some tok =>
    have hnot : isNumberishToken tok.text = false := by simpa [hi, htok] using h
    cases hcard : isCardinalToken tok.text with
    | false => exact hcard
    | true => rw [numberish_of_cardinal hcard] at hnot; cases hnot

/-- a run of number words ends in front of a token that is none -/
theorem cardinal_stop (tokens : List Token) (i : Nat) :
    isCardinalAt tokens (cardinalStop tokens i) = false := by
  have hstop : ∀ l : List Token, (l[(l.takeWhile fun tok => isCardinalToken tok.text).length]?).any
      (fun tok => isCardinalToken tok.text) = false := by
    intro l
    induction l with
    | nil => rfl
    | cons a l ih =>
      cases ha : isCardinalToken a.text with
      | false => simp [ha]
      | true => simpa [ha] using ih
  unfold isCardinalAt cardinalStop
  rw [← List.getElem?_drop]
  exact hstop (tokens.drop i)

/-- the digits of a decimal end in front of a token that is no bare digit -/
theorem fractionDigits_stop (l : List Token) :
    ∀ tok, l[(fractionDigits l).length]? = some tok →
      isBare tok.text = false ∨ isDigitToken tok = false := by
  induction l with
  | nil => intro tok h; simp at h
  | cons a l ih =>
    intro tok h
    unfold fractionDigits at h
    split at h
    · rename_i hbare
      obtain rfl : a = tok := by simpa using h
      exact Or.inl (by simpa using hbare)
    · split at h
      · rename_i hdigit
        obtain rfl : a = tok := by simpa using h
        exact Or.inr (by simp [isDigitToken, hdigit])
      · exact ih tok (by simpa using h)

theorem tryCardinalRun_whole (hbefore : numberishBefore tokens i = false)
    (h : tryCardinalRun tokens masks i = some m) : Whole tokens .cardinal m := by
  obtain ⟨-, -, value, rfl, -⟩ := tryCardinalRun_spec h
  exact ⟨fun hi => cardinal_before hbefore hi, cardinal_stop tokens i, nofun⟩

theorem tryDecimalSpan_whole_iff (hbefore : numberishBefore tokens i = false)
    (h : tryDecimalSpan tokens masks i = some m) :
    Whole tokens .decimal m ↔ tokens[m.stop]?.any cutsFraction = false := by
  obtain ⟨shape, value, hshape, -, -, rfl⟩ := tryDecimalSpan_spec h
  have hstop : ∀ tok, tokens[shape.stop]? = some tok →
      isBare tok.text = false ∨ isDigitToken tok = false := by
    intro tok htok
    apply fractionDigits_stop (tokens.drop (cardinalStop tokens i + 1)) tok
    rw [List.getElem?_drop]
    rw [(decimalShape_spec hshape).1] at htok
    exact htok
  have hleft : 0 < i → isCardinalAt tokens (i - 1) = false := cardinal_before hbefore
  show ((0 < i → isCardinalAt tokens (i - 1) = false) ∧ isCardinalAt tokens shape.stop = false ∧
    (CueKind.decimal = .decimal → tokens[shape.stop]?.any isDigitToken = false)) ↔
      tokens[shape.stop]?.any cutsFraction = false
  cases htok : tokens[shape.stop]? with
  | none => simpa [isCardinalAt, htok] using hleft
  | some tok =>
    have hend := hstop tok htok
    have hcard : isCardinalAt tokens shape.stop = isCardinalToken tok.text := by
      simp [isCardinalAt, htok]
    rw [hcard]
    simp only [Option.any_some, cutsFraction, forall_const]
    cases hbare : isBare tok.text <;> cases hdigit : isDigitToken tok <;>
      cases hword : isCardinalToken tok.text <;> simp_all

end

/-- **all numbers are whole exactly when no decimal is cut short** -/
theorem numberSpans_whole_iff (text : Text) :
    (∀ kind m, (kind, m) ∈ grammarRewrites text → kind = .decimal ∨ kind = .cardinal →
      Whole (wordTokens text) kind m) ↔
    ∀ m, (CueKind.decimal, m) ∈ grammarRewrites text →
      (wordTokens text)[m.stop]?.any cutsFraction = false := by
  have hfound : ∀ {kind m}, (kind, m) ∈ grammarRewrites text → kind = .decimal ∨ kind = .cardinal →
      numberishBefore (wordTokens text) m.start = false ∧
      ((kind = .decimal ∧ tryDecimalSpan (wordTokens text) (masksOf (wordTokens text)) m.start =
          some m) ∨
        (kind = .cardinal ∧ tryCardinalRun (wordTokens text) (masksOf (wordTokens text)) m.start =
          some m)) := by
    intro kind m hmem hkind
    rcases matchAt_cases (mem_grammarRewrites hmem).2 with ⟨rfl, -⟩ |
      ⟨hbefore, ⟨rfl, -⟩ | ⟨rfl, -⟩ | h | h⟩
    · simp at hkind
    · simp at hkind
    · simp at hkind
    · exact ⟨hbefore, Or.inl h⟩
    · exact ⟨hbefore, Or.inr h⟩
  constructor
  · intro h m hmem
    obtain ⟨hbefore, ⟨-, hspan⟩ | ⟨hno, -⟩⟩ := hfound hmem (Or.inl rfl)
    · exact (tryDecimalSpan_whole_iff hbefore hspan).mp (h _ m hmem (Or.inl rfl))
    · cases hno
  · intro h kind m hmem hkind
    obtain ⟨hbefore, ⟨rfl, hspan⟩ | ⟨rfl, hspan⟩⟩ := hfound hmem hkind
    · exact (tryDecimalSpan_whole_iff hbefore hspan).mpr (h m hmem)
    · exact tryCardinalRun_whole hbefore hspan

def dottedList : Text := "three point one four, five".toList

/-- the digit before the comma is left behind -/
theorem numberSpans_dottedList : ¬ ∀ kind m, (kind, m) ∈ grammarRewrites dottedList →
    kind = .decimal ∨ kind = .cardinal → Whole (wordTokens dottedList) kind m := by
  intro h
  have hmem : (CueKind.decimal, CueSpan.mk 0 3 "3.1".toList) ∈ grammarRewrites dottedList := by
    decide +kernel
  have hcut : isCardinalAt (wordTokens dottedList) 3 = true := by decide +kernel
  have hwhole := (h _ _ hmem (Or.inl rfl)).2.1
  rw [hcut] at hwhole
  cases hwhole

end Voisu.Dictation
