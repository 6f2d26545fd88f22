import Voisu.Hyprland.Lua
import Mathlib.Data.Nat.Bitwise

/-!
# Chords

A chord is written `SUPER + V`.  Discovery reads it with one parser, and the press path reads it
again with a stricter one before it hands it to Hyprland.

* `shortcutParts`            the modifiers, as a mask, and the key;
* `sanitizedSendKeyTokens`   what is sent to Hyprland to press;
* `Pressable`                the two agree on a chord;
* `pressable_iff`            they do when the key is one token.
-/

namespace Voisu.Hyprland
open Lib

/-! ## the two parsers -/

def chordPieces (binding : Text) : List Text :=
  ((binding.splitOn '+').map trim).filter fun piece => !piece.isEmpty

def asciiUppercase (s : Text) : Text := s.map toAsciiUppercase

def modifierBit (modifier : Text) : Option Nat :=
  let name := asciiUppercase modifier
  if name = "SHIFT".toList then some 1
  -- a bit of the mask that nothing can press
  else if name = "CAPS".toList ∨ name = "CAPSLOCK".toList then none
  else if name = "CTRL".toList ∨ name = "CONTROL".toList then some 4
  else if name = "ALT".toList then some 8
  else if name = "SUPER".toList ∨ name = "META".toList ∨ name = "WIN".toList ∨
      name = "MOD4".toList then some 64
  else none

def shortcutParts (binding : Text) : Option (Nat × Text) := do
  let key ← (chordPieces binding).getLast?
  let bits ← (chordPieces binding).dropLast.mapM modifierBit
  return (bits.foldl (· ||| ·) 0, key)

def isSafeLuaToken (token : Text) : Bool := !token.isEmpty && token.all isIdentifierChar

def modifierToken (modifier : Text) : Option Text :=
  let name := asciiUppercase modifier
  if name = "SHIFT".toList then some "SHIFT".toList
  else if name = "CTRL".toList ∨ name = "CONTROL".toList then some "CTRL".toList
  else if name = "ALT".toList then some "ALT".toList
  else if name = "SUPER".toList ∨ name = "META".toList ∨ name = "WIN".toList ∨
      name = "MOD4".toList then some "SUPER".toList
  else none

def joinChord (pieces : List Text) : Text := " + ".toList.intercalate pieces

def sanitizedSendKeyTokens (binding : Text) : Option (Text × Text) := do
  let _ ← shortcutParts binding
  let key ← (chordPieces binding).getLast?
  if !isSafeLuaToken key then none
  else
    let mods ← (chordPieces binding).dropLast.mapM fun modifier =>
      if !isSafeLuaToken modifier then none else modifierToken modifier
    return (joinChord mods, key)

/-! ## modifiers -/

inductive Modifier where
  | shift
  | ctrl
  | alt
  | super
deriving DecidableEq, Repr

namespace Modifier

def token : Modifier → Text
  | shift => "SHIFT".toList
  | ctrl => "CTRL".toList
  | alt => "ALT".toList
  | super => "SUPER".toList

/-- its bit in a mask of Hyprland -/
def bit : Modifier → Nat
  | shift => 0
  | ctrl => 2
  | alt => 3
  | super => 6

/-- the names of a modifier, in upper case -/
def names : Modifier → List Text
  | shift => ["SHIFT".toList]
  | ctrl => ["CTRL".toList, "CONTROL".toList]
  | alt => ["ALT".toList]
  | super => ["SUPER".toList, "META".toList, "WIN".toList, "MOD4".toList]

def all : List Modifier := [shift, ctrl, alt, super]

/-- the modifier with a name -/
def named (name : Text) : Option Modifier := all.find? fun m => name ∈ m.names

theorem bit_injective {m n : Modifier} (h : m.bit = n.bit) : m = n := by
  cases m <;> cases n <;> first | rfl | cases h

end Modifier

theorem modifierBit_eq (modifier : Text) :
    modifierBit modifier = (Modifier.named (asciiUppercase modifier)).map fun m => 2 ^ m.bit := by
  unfold modifierBit
  generalize asciiUppercase modifier = name
  dsimp only
  split
  · rename_i h
    subst h
    rfl
  split
  · rename_i h
    rcases h with rfl | rfl <;> rfl
  split
  · rename_i h
    rcases h with rfl | rfl <;> rfl
  split
  · rename_i h
    subst h
    rfl
  split
  · rename_i h
    rcases h with rfl | rfl | rfl | rfl <;> rfl
  · rename_i h1 h2 h3 h4 h5
    simp only [not_or] at h3 h5
    simp only [Modifier.named, Modifier.all, Modifier.names, List.find?_cons, List.mem_cons,
      List.not_mem_nil, or_false, h1, h3, h4, h5, decide_false, List.find?_nil]
    rfl

theorem modifierToken_eq (modifier : Text) :
    modifierToken modifier = (Modifier.named (asciiUppercase modifier)).map Modifier.token := by
  unfold modifierToken
  generalize asciiUppercase modifier = name
  dsimp only
  split
  · rename_i h
    subst h
    rfl
  split
  · rename_i h
    rcases h with rfl | rfl <;> rfl
  split
  · rename_i h
    subst h
    rfl
  split
  · rename_i h
    rcases h with rfl | rfl | rfl | rfl <;> rfl
  · rename_i h1 h3 h4 h5
    simp only [not_or] at h3 h5
    simp only [Modifier.named, Modifier.all, Modifier.names, List.find?_cons, List.mem_cons,
      List.not_mem_nil, or_false, h1, h3, h4, h5, decide_false, List.find?_nil]
    rfl

theorem isIdentifierChar_of_upper {c : Char} (h : isIdentifierChar (toAsciiUppercase c) = true) :
    isIdentifierChar c = true := by
  unfold toAsciiUppercase at h
  split at h
  · rename_i hlower
    unfold isIdentifierChar isAsciiAlphanumeric isAsciiAlphabetic
    rw [hlower]
    simp
  · exact h

/-- the name of a modifier is one token -/
theorem isSafe_of_named {modifier : Text} {m : Modifier}
    (h : Modifier.named (asciiUppercase modifier) = some m) : isSafeLuaToken modifier = true := by
  have hmem : asciiUppercase modifier ∈ m.names := by
    have := List.find?_some h
    simpa using this
  have hsafe : ∀ name ∈ m.names, name ≠ [] ∧ name.all isIdentifierChar = true := by
    cases m <;> decide
  obtain ⟨hne, hall⟩ := hsafe _ hmem
  unfold isSafeLuaToken
  rw [Bool.and_eq_true, List.all_eq_true]
  constructor
  · cases modifier with
    | nil => exact absurd rfl hne
    | cons c s => rfl
  · intro c hc
    exact isIdentifierChar_of_upper
      (List.all_eq_true.mp hall _ (List.mem_map.mpr ⟨c, hc, rfl⟩))

/-- a reading of each modifier is a reading of all of them -/
theorem mapM_modifiers {β : Type} {f : Text → Option β} {g : Modifier → β}
    (h : ∀ t, f t = (Modifier.named (asciiUppercase t)).map g) (l : List Text) :
    l.mapM f = (l.mapM fun t => Modifier.named (asciiUppercase t)).map (List.map g) := by
  induction l with
  | nil => rfl
  | cons t l ih =>
    rw [List.mapM_cons, List.mapM_cons, h, ih]
    cases Modifier.named (asciiUppercase t) with
    | none => rfl
    | some m => cases l.mapM fun t => Modifier.named (asciiUppercase t) <;> rfl

/-- the modifiers of a chord -/
def chordModifiers (binding : Text) : Option (List Modifier) :=
  (chordPieces binding).dropLast.mapM fun t => Modifier.named (asciiUppercase t)

def maskOf (mods : List Modifier) : Nat := (mods.map fun m => 2 ^ m.bit).foldl (· ||| ·) 0

theorem testBit_foldl (mods : List Modifier) (mask i : Nat) :
    ((mods.map fun m => 2 ^ m.bit).foldl (· ||| ·) mask).testBit i =
      (mask.testBit i || mods.any fun m => m.bit == i) := by
  induction mods generalizing mask with
  | nil => simp
  | cons m mods ih =>
    rw [List.map_cons, List.foldl_cons, ih, Nat.testBit_or, Nat.testBit_two_pow, List.any_cons,
      Bool.or_assoc]
    rfl

/-- **a modifier is in the mask when it is among the modifiers** -/
theorem testBit_maskOf (mods : List Modifier) (m : Modifier) :
    (maskOf mods).testBit m.bit = true ↔ m ∈ mods := by
  unfold maskOf
  rw [testBit_foldl, Nat.zero_testBit, Bool.false_or, List.any_eq_true]
  constructor
  · rintro ⟨n, hn, hbit⟩
    rw [← Modifier.bit_injective (beq_iff_eq.mp hbit)]
    exact hn
  · intro hm
    exact ⟨m, hm, beq_self_eq_true _⟩

theorem shortcutParts_eq (binding : Text) :
    shortcutParts binding = (chordPieces binding).getLast?.bind fun key =>
      (chordModifiers binding).bind fun mods => some (maskOf mods, key) := by
  unfold shortcutParts chordModifiers
  rw [mapM_modifiers modifierBit_eq]
  cases (chordPieces binding).getLast? with
  | none => rfl
  | some key =>
    cases (chordPieces binding).dropLast.mapM fun t => Modifier.named (asciiUppercase t) <;> rfl

theorem sanitizedSendKeyTokens_eq (binding : Text) :
    sanitizedSendKeyTokens binding = (chordPieces binding).getLast?.bind fun key =>
      (chordModifiers binding).bind fun mods =>
        if isSafeLuaToken key then some (joinChord (mods.map Modifier.token), key) else none := by
  have htoken : ∀ t, (if (!isSafeLuaToken t) = true then none else modifierToken t) =
      (Modifier.named (asciiUppercase t)).map Modifier.token := by
    intro t
    rw [modifierToken_eq]
    cases h : Modifier.named (asciiUppercase t) with
    | none => split <;> rfl
    | some m => rw [isSafe_of_named h]; rfl
  unfold sanitizedSendKeyTokens
  rw [shortcutParts_eq, mapM_modifiers htoken]
  cases (chordPieces binding).getLast? with
  | none => rfl
  | some key =>
    unfold chordModifiers
    cases (chordPieces binding).dropLast.mapM fun t => Modifier.named (asciiUppercase t) with
    | none => rfl
    | some mods =>
      show (if (!isSafeLuaToken key) = true then none else _) =
        if isSafeLuaToken key = true then _ else _
      cases isSafeLuaToken key <;> rfl

/-! ## chords that can be pressed -/

/-- the chord is sent to Hyprland with the modifiers that discovery reads from it -/
def Pressable (chord : Text) : Prop :=
  ∃ (mods : List Modifier) (mask : Nat) (key : Text),
    sanitizedSendKeyTokens chord = some (joinChord (mods.map Modifier.token), key) ∧
      shortcutParts chord = some (mask, key) ∧ ∀ m : Modifier, m ∈ mods ↔ mask.testBit m.bit = true

/-- the key of a chord that discovery reads is one token -/
def hasSafeKey (chord : Text) : Bool :=
  (shortcutParts chord).any fun parts => isSafeLuaToken parts.2

/-- **a chord can be pressed when its key is one token** -/
theorem pressable_iff (chord : Text) : Pressable chord ↔ hasSafeKey chord = true := by
  unfold Pressable hasSafeKey
  rw [shortcutParts_eq, sanitizedSendKeyTokens_eq]
  cases hkey : (chordPieces chord).getLast? with
  | none =>
    constructor
    · rintro ⟨mods, mask, key, h, -⟩
      cases h
    · intro h
      cases h
  | some key =>
    cases hmods : chordModifiers chord with
    | none =>
      constructor
      · rintro ⟨mods, mask, key, h, -⟩
        cases h
      · intro h
        cases h
    | some mods =>
      show (∃ mods' mask key', (if isSafeLuaToken key = true then
        some (joinChord (mods.map Modifier.token), key) else none) = _ ∧
          some (maskOf mods, key) = some (mask, key') ∧ _) ↔ isSafeLuaToken key = true
      constructor
      · rintro ⟨mods', mask, key', h, -⟩
        split at h
        · assumption
        · cases h
      · intro hsafe
        exact ⟨mods, maskOf mods, key, if_pos hsafe, rfl, fun m => (testBit_maskOf mods m).symm⟩

/-- what is sent to Hyprland can be pressed -/
theorem pressable_of_sanitized {chord : Text} {sent : Text × Text}
    (h : sanitizedSendKeyTokens chord = some sent) : Pressable chord := by
  rw [pressable_iff]
  unfold hasSafeKey
  rw [sanitizedSendKeyTokens_eq] at h
  obtain ⟨key, hkey, h⟩ := Option.bind_eq_some_iff.mp h
  obtain ⟨mods, hmods, h⟩ := Option.bind_eq_some_iff.mp h
  split at h
  · rename_i hsafe
    rw [shortcutParts_eq, hkey, hmods]
    exact hsafe
  · cases h

end Voisu.Hyprland
