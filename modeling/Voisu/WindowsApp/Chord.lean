import Voisu.WindowsApp.Gesture
import Mathlib.Logic.Function.Basic

/-!
# The chord tracker of the keyboard hook

Raw key transitions become chord signals, and every event is passed on or swallowed.

* `TriggerChord`, `scanCode`   the configured chord;
* `ChordTracker`               what the hook remembers;
* `ChordTracker.handle`        one key transition, by the kind of its key;
* `setChord`, `reset`          the two ways to start over.
-/

namespace Voisu.WindowsApp

/-! ## chords -/

inductive Modifier where
  | ctrl
  | alt
  | shift
  | win
deriving DecidableEq, Repr

def Modifier.all : List Modifier := [.ctrl, .alt, .shift, .win]

theorem Modifier.mem_all (m : Modifier) : m ∈ Modifier.all := by cases m <;> decide

inductive Side where
  | left
  | right
deriving DecidableEq, Repr

/-- how a chord needs one of its modifiers held -/
inductive Need where
  | either
  | only (side : Side)
deriving DecidableEq, Repr

structure TriggerChord where
  mods : Modifier → Option Need
  key : Option UInt8

namespace TriggerChord

def need (chord : TriggerChord) (m : Modifier) : Option Need := chord.mods m

def uses (chord : TriggerChord) (m : Modifier) : Bool := (chord.need m).isSome

def needsMask (chord : TriggerChord) : Bool := 0 < (Modifier.all.filter chord.uses).length

end TriggerChord

def keys : List (UInt8 × UInt16) :=
  [(0x20, 0x39), (0x2D, 0x152), (0x24, 0x147), (0x21, 0x149), (0x22, 0x151), (0x23, 0x14F),
   (0x13, 0x45), (0x91, 0x46), (0x14, 0x3A), (0x5D, 0x15D), (0xC0, 0x29), (0xBD, 0x0C), (0xBB, 0x0D),
   (0xDB, 0x1A), (0xDD, 0x1B), (0xDC, 0x2B), (0xBA, 0x27), (0xDE, 0x28), (0xBC, 0x33), (0xBE, 0x34),
   (0xBF, 0x35)]

def letterScans : List UInt16 :=
  [0x1E, 0x30, 0x2E, 0x20, 0x12, 0x21, 0x22, 0x23, 0x17, 0x24, 0x25, 0x26, 0x32, 0x31, 0x18, 0x19,
   0x10, 0x13, 0x1F, 0x14, 0x16, 0x2F, 0x11, 0x2D, 0x15, 0x2C]

def fScans : List UInt16 :=
  [0x3B, 0x3C, 0x3D, 0x3E, 0x3F, 0x40, 0x41, 0x42, 0x43, 0x44, 0x57, 0x58, 0x64, 0x65, 0x66, 0x67,
   0x68, 0x69, 0x6A, 0x6B, 0x6C, 0x6D, 0x6E, 0x76]

/-- the scan code of a chord key's position on a US layout -/
def scanCode (vk : UInt8) : Option UInt16 :=
  if vk = 0x30 then some 0x0B
  else if 0x31 ≤ vk ∧ vk ≤ 0x39 then some (vk - 0x31 + 0x02).toUInt16
  else if 0x41 ≤ vk ∧ vk ≤ 0x5A then letterScans[(vk - 0x41).toNat]?
  else if 0x70 ≤ vk ∧ vk < 0x70 + 24 then fScans[(vk - 0x70).toNat]?
  else (keys.find? fun k => k.1 = vk).map Prod.snd

/-! ## keys and verdicts -/

inductive Key where
  | mod (m : Modifier) (side : Side)
  | escape
  | other (vk : UInt8) (scan : UInt16)
deriving DecidableEq, Repr

def vkPacket : UInt8 := 0xE7

def sameKey (vk : UInt8) (scan : UInt16) (keyVk : UInt8) (keyScan : UInt16) : Bool :=
  if vk = vkPacket then false else if scan = 0 ∨ keyScan = 0 then vk = keyVk else scan = keyScan

structure Verdict where
  pass : Bool
  injectMask : Bool
  signal : Option ChordSignal
deriving DecidableEq, Repr

namespace Verdict

def passOn : Verdict := { pass := true, injectMask := false, signal := none }
def swallow : Verdict := { pass := false, injectMask := false, signal := none }

end Verdict

structure SideSet where
  left : Bool
  right : Bool
deriving DecidableEq, Repr

namespace SideSet

def none : SideSet := { left := false, right := false }

def any (s : SideSet) : Bool := s.left || s.right

def set (s : SideSet) (side : Side) (down : Bool) : SideSet :=
  match side with
  | .left => { s with left := down }
  | .right => { s with right := down }

def get (s : SideSet) : Side → Bool
  | .left => s.left
  | .right => s.right

def meets (s : SideSet) : Option Need → Bool
  | .none => !s.any
  | some .either => s.any
  | some (.only .left) => s.left && !s.right
  | some (.only .right) => s.right && !s.left

end SideSet

/-! ## the tracker -/

structure ChordTracker where
  chord : TriggerChord
  held : Modifier → SideSet
  keyScan : UInt16
  keyHeld : Bool
  keySwallowed : Bool
  active : Bool
  poisoned : Bool
  escapeSwallowed : Bool
  carried : Option (UInt8 × UInt16)

namespace ChordTracker

def new (chord : TriggerChord) : ChordTracker :=
  { chord, keyScan := (chord.key.bind scanCode).getD 0, held := fun _ => .none, keyHeld := false,
    keySwallowed := false, active := false, poisoned := false, escapeSwallowed := false,
    carried := none }

def interruption (t : ChordTracker) : Option ChordSignal :=
  if t.active then some .interrupted else none

def reset (t : ChordTracker) : ChordTracker × Option ChordSignal := (new t.chord, t.interruption)

def setChord (t : ChordTracker) (chord : TriggerChord) : ChordTracker × Option ChordSignal :=
  let carried :=
    match t.chord.key with
    | some vk => if t.keySwallowed then some (vk, t.keyScan) else t.carried
    | none => t.carried
  ({ new chord with carried, escapeSwallowed := t.escapeSwallowed }, t.interruption)

def isCarried (t : ChordTracker) (vk : UInt8) (scan : UInt16) : Bool :=
  match t.carried with
  | some (keyVk, keyScan) => sameKey vk scan keyVk keyScan
  | none => false

def isChordKey (t : ChordTracker) (vk : UInt8) (scan : UInt16) : Bool :=
  match t.chord.key with
  | some key => sameKey vk scan key t.keyScan
  | none => false

/-- drops every tracked modifier but `keep` that the OS reports as up -/
def reconcile (t : ChordTracker) (os : Modifier → Bool) (keep : Option Modifier) : ChordTracker :=
  { t with held := fun m => if some m ≠ keep ∧ os m = false then .none else t.held m }

def modsSatisfied (t : ChordTracker) : Bool :=
  Modifier.all.all fun m => (t.held m).meets (t.chord.need m)

def holding (t : ChordTracker) : Bool :=
  if t.chord.key.isSome then t.keyHeld else t.modsSatisfied

def chordModHeld (t : ChordTracker) : Bool :=
  Modifier.all.any fun m => t.chord.uses m && (t.held m).any

def press (t : ChordTracker) (pass : Bool) : ChordTracker × Verdict :=
  ({ t with active := true },
    { pass, injectMask := t.chord.needsMask, signal := some .pressed })

/-- ends a chord whose keys went up, and lifts the poison once they all are -/
def afterRelease (t : ChordTracker) (verdict : Verdict) : ChordTracker × Verdict :=
  let ended := t.active && !t.holding
  let t' := { t with active := t.active && !ended }
  ({ t' with poisoned := t'.poisoned && (t'.chordModHeld || t'.keyHeld) },
    if ended then { verdict with signal := some .released } else verdict)

def other (t : ChordTracker) (down : Bool) : ChordTracker × Verdict :=
  if !down || !(t.chordModHeld || t.active) then (t, .passOn)
  else
    ({ t with poisoned := true, active := false },
      if t.active then { Verdict.passOn with signal := some .interrupted } else .passOn)

def setHeld (t : ChordTracker) (m : Modifier) (side : Side) (down : Bool) : ChordTracker :=
  { t with held := Function.update t.held m ((t.held m).set side down) }

/-- the tracker as a fresh press of a modifier finds it -/
def withModifier (t : ChordTracker) (m : Modifier) (side : Side) (os : Modifier → Bool) : ChordTracker :=
  if !(t.held m).any then (t.setHeld m side true).reconcile os (some m) else t.setHeld m side true

def modifier (t : ChordTracker) (m : Modifier) (side : Side) (down : Bool) (os : Modifier → Bool) :
    ChordTracker × Verdict :=
  if !down then (t.setHeld m side false).afterRelease .passOn
  else if (t.held m).get side then (t, .passOn)
  else
    let t' := t.withModifier m side os
    if !t'.chord.uses m || (t'.active && !t'.holding) then t'.other true
    else if t'.chord.key.isNone && !t'.active && !t'.poisoned && t'.modsSatisfied then t'.press true
    else (t', .passOn)

/-- the tracker as a fresh press of the chord's key finds it -/
def settled (t : ChordTracker) (os : Modifier → Bool) : ChordTracker :=
  let t' := t.reconcile os none
  { t' with poisoned := t'.poisoned && t'.chordModHeld, keyHeld := true }

/-- whether a fresh press of the chord's key forms the chord -/
def forms (t : ChordTracker) (os : Modifier → Bool) : Bool :=
  !(t.settled os).active && !(t.settled os).poisoned && (t.settled os).modsSatisfied

def chordKey (t : ChordTracker) (down : Bool) (os : Modifier → Bool) : ChordTracker × Verdict :=
  if !down then
    ({ t with keyHeld := false, keySwallowed := false }).afterRelease
      { Verdict.passOn with pass := !t.keySwallowed }
  else if t.keyHeld then (t, if t.keySwallowed then .swallow else .passOn)
  else if t.forms os then { t.settled os with keySwallowed := true }.press false
  else (t.settled os).other true

def escape (t : ChordTracker) (down armed : Bool) : ChordTracker × Verdict :=
  if down then
    if t.escapeSwallowed then (t, .swallow)
    else if armed || t.active then
      ({ t with escapeSwallowed := true }, { Verdict.swallow with signal := some .escape })
    else t.other true
  else ({ t with escapeSwallowed := false }, if t.escapeSwallowed then .swallow else .passOn)

def handle (t : ChordTracker) (key : Key) (down : Bool) (os : Modifier → Bool) (armed : Bool) :
    ChordTracker × Verdict :=
  match key with
  | .mod m side => t.modifier m side down os
  | .escape => t.escape down armed
  | .other vk scan =>
    if t.isCarried vk scan then (if down then t else { t with carried := none }, .swallow)
    else if t.isChordKey vk scan then t.chordKey down os
    else t.other down

section
variable (t : ChordTracker) (m : Modifier) (side : Side) (os : Modifier → Bool)

@[simp] theorem withModifier_chord : (t.withModifier m side os).chord = t.chord := by
  unfold withModifier
  split <;> rfl

@[simp] theorem withModifier_active : (t.withModifier m side os).active = t.active := by
  unfold withModifier
  split <;> rfl

@[simp] theorem withModifier_poisoned : (t.withModifier m side os).poisoned = t.poisoned := by
  unfold withModifier
  split <;> rfl

theorem withModifier_held : ((t.withModifier m side os).held m).any = true := by
  have hset : ∀ s : SideSet, (s.set side true).any = true := by
    intro s
    cases side <;> simp [SideSet.set, SideSet.any]
  unfold withModifier
  split <;> simp [setHeld, reconcile, hset]

end

end ChordTracker

end Voisu.WindowsApp
