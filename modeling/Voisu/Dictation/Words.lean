import Mathlib
import Voisu.Baseline.Tokens
import Voisu.Lib.Substrings
import Voisu.Lib.U32

/-!
# Spoken numbers

The words of the dictation grammar and the values of their runs.

* `tokenCore`         a token without the sentence punctuation behind it;
* `smallTokenValue`   the value of a small word or of a hyphenated compound;
* `parseRun`          the one-pass reading of a run of number words, over any 32-bit arithmetic;
* `parseCardinalRun`  the reading in a build that wraps;
* `parseCardinalRunChecked`   the reading in a build that checks, `none` on overflow.
-/

namespace Voisu.Dictation
open Lib
open Baseline (Token)

/-- the largest value that is written in digits -/
def maxRenderedValue : Nat := 9999

def smalls : List (Text × Nat) :=
  [("zero", 0), ("one", 1), ("two", 2), ("three", 3), ("four", 4), ("five", 5), ("six", 6),
    ("seven", 7), ("eight", 8), ("nine", 9), ("ten", 10), ("eleven", 11), ("twelve", 12),
    ("thirteen", 13), ("fourteen", 14), ("fifteen", 15), ("sixteen", 16), ("seventeen", 17),
    ("eighteen", 18), ("nineteen", 19), ("twenty", 20), ("thirty", 30), ("forty", 40),
    ("fifty", 50), ("sixty", 60), ("seventy", 70), ("eighty", 80), ("ninety", 90)].map
    fun p => (p.1.toList, p.2)

def scales : List (Text × Nat) :=
  [("hundred", 100), ("thousand", 1000), ("million", 1000000)].map fun p => (p.1.toList, p.2)

/-! ## tokens -/

def isTailMark (c : Char) : Bool :=
  c == ',' || c == '.' || c == '!' || c == '?' || c == ';' || c == ':'

/-- the token, and the punctuation behind it -/
def tokenCore (tok : Text) : Text × Text :=
  let core := trimEndMatches isTailMark tok
  (core, tok.drop core.length)

def lowerCore (tok : Text) : Text := asciiLowercase (tokenCore tok).1

/-- no punctuation behind the token -/
def isBare (tok : Text) : Bool := (tokenCore tok).2.isEmpty

/-! ## values -/

def smallValue (word : Text) : Option Nat := (smalls.find? fun e => e.1 == word).map Prod.snd
def scaleValue (word : Text) : Option Nat := (scales.find? fun e => e.1 == word).map Prod.snd

/-- `twenty`, `thirty`, … may be followed by a unit -/
def isTens (v : Nat) : Bool := 20 ≤ v && v % 10 == 0

def compoundValue (word : Text) : Option Nat := do
  let (tens, unit) ← splitOnceAt '-' word
  let t ← smallValue tens
  let u ← smallValue unit
  if isTens t && u < 10 then some (t + u) else none

def smallTokenValue (word : Text) : Option Nat := (smallValue word).or (compoundValue word)

def cardinalValue (tok : Text) : Option Nat :=
  if (tokenCore tok).1.isEmpty then none
  else (smallTokenValue (lowerCore tok)).or (scaleValue (lowerCore tok))

def isCardinalToken (tok : Text) : Bool := (cardinalValue tok).isSome

/-- a number word or a decimal `point` -/
def isNumberishToken (tok : Text) : Bool :=
  let core := (tokenCore tok).1
  !core.isEmpty && (isCardinalToken core || asciiLowercase core == "point".toList)

/-! ## runs of number words -/

structure RunState where
  total : Nat
  current : Nat
  first : Bool
  prevSmall : Option Nat
deriving DecidableEq, Repr

def RunState.start : RunState := ⟨0, 0, true, none⟩

section
variable {m : Type → Type} [Monad m] (u32 : U32 m)

/-- one word of a run; an inner `none` rejects the run -/
def runWord (st : RunState) (word : Text) : m (Option RunState) :=
  match scaleValue word with
  | some scale =>
    -- a scale needs a pending small, or the head of the run
    if st.current = 0 ∧ st.first = false then pure none
    else if scale = 100 then do
      let current ← u32.mul (max st.current 1) 100
      pure (some ⟨st.total, current, false, none⟩)
    else do
      let scaled ← u32.mul (max st.current 1) scale
      let total ← u32.add st.total scaled
      pure (some ⟨total, 0, false, none⟩)
  | none =>
    match smallTokenValue word with
    | none => pure none
    | some v =>
      if st.prevSmall.any fun p => !(isTens p && v < 10) then pure none
      else do
        let current ← u32.add st.current v
        pure (some ⟨st.total, current, false, some v⟩)

def parseRun (st : RunState) : List Text → m (Option Nat)
  | [] => do
    let value ← u32.add st.total st.current
    pure (some value)
  | word :: rest => do
    match ← runWord u32 st word with
    | none => pure none
    | some st => parseRun st rest

end

section
variable {m : Type → Type} [Monad m] {u32 : U32 m} {st : RunState} {word : Text}

theorem runWord_hundred (hs : scaleValue word = some 100) :
    runWord u32 st word = if st.current = 0 ∧ st.first = false then pure none
      else u32.mul (max st.current 1) 100 >>= fun current =>
        pure (some ⟨st.total, current, false, none⟩) := by
  rw [runWord, hs]
  rfl

theorem runWord_commit {scale : Nat} (hs : scaleValue word = some scale) (hne : scale ≠ 100) :
    runWord u32 st word = if st.current = 0 ∧ st.first = false then pure none
      else u32.mul (max st.current 1) scale >>= fun scaled =>
        u32.add st.total scaled >>= fun total => pure (some ⟨total, 0, false, none⟩) := by
  rw [runWord, hs]
  simp only [if_neg hne]

theorem runWord_small {v : Nat} (hs : scaleValue word = none) (hv : smallTokenValue word = some v) :
    runWord u32 st word =
      if st.prevSmall.any fun p => !(isTens p && v < 10) then pure none
      else u32.add st.current v >>= fun current =>
        pure (some ⟨st.total, current, false, some v⟩) := by
  rw [runWord, hs, hv]

theorem runWord_other (hs : scaleValue word = none) (hv : smallTokenValue word = none) :
    runWord u32 st word = pure none := by
  rw [runWord, hs, hv]

end

theorem scaleValue_cases {word : Text} {scale : Nat} (h : scaleValue word = some scale) :
    (word, scale) ∈ scales := by
  obtain ⟨e, he, rfl⟩ := Option.map_eq_some_iff.mp h
  have hword : e.1 = word := by simpa using List.find?_some he
  rw [← hword]
  exact List.mem_of_find?_eq_some he

theorem smallValue_cases {word : Text} {v : Nat} (h : smallValue word = some v) :
    (word, v) ∈ smalls := by
  obtain ⟨e, he, rfl⟩ := Option.map_eq_some_iff.mp h
  have hword : e.1 = word := by simpa using List.find?_some he
  rw [← hword]
  exact List.mem_of_find?_eq_some he

def parseCardinalRun (words : List Text) : Option Nat :=
  Id.run (parseRun U32.wrapping RunState.start words)

def parseCardinalRunChecked (words : List Text) : Option (Option Nat) :=
  parseRun U32.checked RunState.start words

example : parseCardinalRun (splitWhitespace "twenty five hundred".toList) = some 2500 := by
  decide +kernel
example : parseCardinalRun (splitWhitespace "thousand thousand".toList) = none := by
  decide +kernel

end Voisu.Dictation
