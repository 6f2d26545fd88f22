import Voisu.WindowsApp.ChordRuns

/-!
# No half keys

The focused app should see a press of a physical key whole or not at all: the key-down, its repeats and
its key-up.  The tracker decides at the first event and remembers the decision in three places: for
`Esc`, for the chord's key, and for the key of a previous chord.  It knows a key by what the events
report, and two keys may report the same, or one key first this and then that.

* `Slot`             the places, and what an event counts as;
* `Typed`            a tracker with the keys that are down and the verdict on their key-down;
* `Whole`            an event of a press gets the verdict of its key-down;
* `Clean`            the moves at which the memory does not suffice, left out;
* `run_whole`        every run of clean moves keeps every press whole;
* `halfEscape`       an `Esc` of which the app sees a half.
-/

namespace Voisu.WindowsApp

/-! ## the memory of the tracker -/

/-- what the tracker remembers a swallowed key as -/
inductive Slot where
  | escape
  | chordKey
  | carried
deriving DecidableEq, Repr

namespace ChordTracker

/-- what an event of a key counts as -/
def slot (t : ChordTracker) : Key → Option Slot
  | .mod _ _ => none
  | .escape => some .escape
  | .other vk scan =>
    if t.isCarried vk scan then some .carried
    else if t.isChordKey vk scan then some .chordKey
    else none

def swallowing (t : ChordTracker) : Slot → Bool
  | .escape => t.escapeSwallowed
  | .chordKey => t.keySwallowed
  | .carried => t.carried.isSome

/-- whether an event counts as a key that is swallowed -/
def remembers (t : ChordTracker) (key : Key) : Bool := (t.slot key).any t.swallowing

/-- whether a first press is swallowed: an `Esc` that cancels, or the key that forms the chord -/
def seizes (t : ChordTracker) (e : KeyEvent) : Bool :=
  e.down &&
    match t.slot e.key with
    | some .escape => !t.escapeSwallowed && (e.armed || t.active)
    | some .chordKey => !t.keyHeld && t.forms e.os
    | _ => false

end ChordTracker

/-- two trackers that agree on what they swallow -/
structure SameKeys (t t' : ChordTracker) : Prop where
  chord : t'.chord = t.chord
  keyScan : t'.keyScan = t.keyScan
  carried : t'.carried = t.carried
  escapeSwallowed : t'.escapeSwallowed = t.escapeSwallowed
  keySwallowed : t'.keySwallowed = t.keySwallowed
  keyHeld : t.keyHeld = true → t'.keyHeld = true

namespace SameKeys
variable {t t' t'' : ChordTracker}

theorem refl (t : ChordTracker) : SameKeys t t := ⟨rfl, rfl, rfl, rfl, rfl, id⟩

theorem trans (h : SameKeys t t') (h' : SameKeys t' t'') : SameKeys t t'' :=
  ⟨h'.chord.trans h.chord, h'.keyScan.trans h.keyScan, h'.carried.trans h.carried,
   h'.escapeSwallowed.trans h.escapeSwallowed, h'.keySwallowed.trans h.keySwallowed,
   fun hheld => h'.keyHeld (h.keyHeld hheld)⟩

theorem other (t : ChordTracker) (down : Bool) : SameKeys t (t.other down).1 := by
  unfold ChordTracker.other
  split
  · exact refl t
  · exact ⟨rfl, rfl, rfl, rfl, rfl, id⟩

theorem afterRelease (t : ChordTracker) (v : Verdict) : SameKeys t (t.afterRelease v).1 :=
  ⟨rfl, rfl, rfl, rfl, rfl, id⟩

theorem withModifier (t : ChordTracker) (m : Modifier) (side : Side) (os : Modifier → Bool) :
    SameKeys t (t.withModifier m side os) := by
  unfold ChordTracker.withModifier
  split <;> exact ⟨rfl, rfl, rfl, rfl, rfl, id⟩

theorem modifier (t : ChordTracker) (m : Modifier) (side : Side) (down : Bool) (os : Modifier → Bool) :
    SameKeys t (t.modifier m side down os).1 := by
  unfold ChordTracker.modifier
  split
  · exact ⟨rfl, rfl, rfl, rfl, rfl, id⟩
  split
  · exact refl t
  have hmod := withModifier t m side os
  dsimp only
  split
  · exact hmod.trans (other _ true)
  split
  · exact hmod.trans ⟨rfl, rfl, rfl, rfl, rfl, id⟩
  · exact hmod

theorem settled (t : ChordTracker) (os : Modifier → Bool) : SameKeys t (t.settled os) :=
  ⟨rfl, rfl, rfl, rfl, rfl, fun _ => rfl⟩

theorem slot (h : SameKeys t t') : t'.slot = t.slot := by
  funext key
  cases key with
  | other vk scan =>
    unfold ChordTracker.slot ChordTracker.isCarried ChordTracker.isChordKey
    rw [h.carried, h.chord, h.keyScan]
  | _ => rfl

theorem swallowing (h : SameKeys t t') : t'.swallowing = t.swallowing := by
  funext s
  cases s with
  | escape => exact h.escapeSwallowed
  | chordKey => exact h.keySwallowed
  | carried => exact congrArg Option.isSome h.carried

end SameKeys

/-- what one event does to the memory -/
structure Remembered (t : ChordTracker) (e : KeyEvent) (r : ChordTracker × Verdict) : Prop where
  pass : r.2.pass = !(t.remembers e.key || t.seizes e)
  slot : ∀ key, r.1.slot key = t.slot key ∨
    (t.slot key = t.slot e.key ∧ t.remembers e.key = true ∧ e.down = false)
  swallowing : ∀ s, r.1.swallowing s =
    if t.slot e.key = some s then e.down && (t.swallowing s || t.seizes e) else t.swallowing s
  held : r.1.keySwallowed = true → r.1.keyHeld = true

section
variable {t : ChordTracker} {e : KeyEvent}

theorem other_pass (t : ChordTracker) (down : Bool) : (t.other down).2.pass = true := by
  unfold ChordTracker.other
  split
  · rfl
  split <;> rfl

theorem afterRelease_pass (t : ChordTracker) (v : Verdict) : (t.afterRelease v).2.pass = v.pass := by
  unfold ChordTracker.afterRelease
  dsimp only
  split <;> rfl

/-- an event that is passed on and changes nothing of the memory -/
theorem Remembered.of_same {r : ChordTracker × Verdict} (hheld : t.keySwallowed = true → t.keyHeld = true)
    (hpass : r.2.pass = true) (hsame : SameKeys t r.1) (hr : t.remembers e.key = false)
    (hs : t.seizes e = false) : Remembered t e r where
  pass := by rw [hpass, hr, hs]; rfl
  slot key := .inl (congrFun hsame.slot key)
  swallowing s := by
    rw [hsame.swallowing]
    split
    · rename_i hslot
      have : t.swallowing s = false := by
        rw [ChordTracker.remembers, hslot] at hr
        exact hr
      rw [this, hs, Bool.or_self, Bool.and_false]
    · rfl
  held hsw := hsame.keyHeld (hheld (hsame.keySwallowed.symm.trans hsw))

theorem remembered_escape (hheld : t.keySwallowed = true → t.keyHeld = true) (hkey : e.key = .escape) :
    Remembered t e (t.escape e.down e.armed) := by
  have hslot : t.slot e.key = some .escape := by rw [hkey]; rfl
  have hremembers : t.remembers e.key = t.escapeSwallowed := by
    rw [ChordTracker.remembers, hslot]
    rfl
  have hslots : ∀ (b : Bool) (key : Key),
      ({ t with escapeSwallowed := b } : ChordTracker).slot key = t.slot key := by
    intro b key
    cases key <;> rfl
  cases hdown : e.down with
  | false =>
    refine ⟨?_, fun key => .inl (hslots false key), fun s => ?_, hheld⟩
    · rw [hremembers, ChordTracker.seizes, hdown]
      show (if t.escapeSwallowed then Verdict.swallow else Verdict.passOn).pass = _
      cases t.escapeSwallowed <;> rfl
    · rw [hslot, hdown]
      cases s <;> rfl
  | true =>
    unfold ChordTracker.escape
    rw [if_pos rfl]
    cases hs : t.escapeSwallowed with
    | true =>
      refine ⟨?_, fun key => .inl rfl, fun s => ?_, hheld⟩
      · rw [hremembers, hs]
        rfl
      · rw [hslot, hdown]
        cases s with
        | escape =>
          show t.escapeSwallowed = (true && (t.escapeSwallowed || _))
          rw [hs]
          rfl
        | _ => rfl
    | false =>
      have hseizes : t.seizes e = (e.armed || t.active) := by
        rw [ChordTracker.seizes, hdown, hslot]
        simp only [hs, Bool.not_false, Bool.true_and]
      rw [if_neg (by decide)]
      cases hcancel : e.armed || t.active with
      | true =>
        refine ⟨?_, fun key => .inl (hslots true key), fun s => ?_, hheld⟩
        · rw [hremembers, hs, hseizes, hcancel]
          rfl
        · rw [hslot, hdown, hseizes, hcancel]
          cases s with
          | escape =>
            show true = (true && (t.escapeSwallowed || true))
            rw [Bool.or_true]
            rfl
          | _ => rfl
      | false =>
        exact .of_same hheld (other_pass t true) (.other t true) (hremembers.trans hs)
          (hseizes.trans hcancel)

theorem slot_dropCarried (key : Key) : ({ t with carried := none } : ChordTracker).slot key = t.slot key ∨
    t.slot key = some .carried := by
  cases key with
  | other vk scan =>
    cases hc : t.isCarried vk scan with
    | true => exact .inr (if_pos hc)
    | false =>
      left
      show (if t.isChordKey vk scan then some Slot.chordKey else none) = t.slot (.other vk scan)
      exact (if_neg (by rw [hc]; decide)).symm
  | _ => exact .inl rfl

/-- an event of the carried key -/
theorem remembered_carried (hheld : t.keySwallowed = true → t.keyHeld = true)
    (hslot : t.slot e.key = some .carried) (hsome : t.carried.isSome = true) :
    Remembered t e (if e.down then t else { t with carried := none }, .swallow) := by
  have hremembers : t.remembers e.key = true := by
    rw [ChordTracker.remembers, hslot]
    exact hsome
  cases hdown : e.down with
  | false =>
    refine ⟨?_, fun key => ?_, fun s => ?_, hheld⟩
    · rw [hremembers]
      rfl
    · refine (slot_dropCarried key).imp_right fun hkey => ?_
      exact ⟨hkey.trans hslot.symm, hremembers, hdown⟩
    · rw [hslot, hdown]
      cases s <;> rfl
  | true =>
    refine ⟨?_, fun key => .inl rfl, fun s => ?_, hheld⟩
    · rw [hremembers]
      rfl
    · rw [hslot, hdown]
      cases s with
      | carried =>
        show t.carried.isSome = (true && (t.carried.isSome || _))
        rw [hsome]
        rfl
      | _ => rfl

/-- an event of the chord's key -/
theorem remembered_chordKey (hheld : t.keySwallowed = true → t.keyHeld = true)
    (hslot : t.slot e.key = some .chordKey) : Remembered t e (t.chordKey e.down e.os) := by
  have hremembers : t.remembers e.key = t.keySwallowed := by
    rw [ChordTracker.remembers, hslot]
    rfl
  unfold ChordTracker.chordKey
  cases hdown : e.down with
  | false =>
    have hsame := SameKeys.afterRelease { t with keyHeld := false, keySwallowed := false }
      { Verdict.passOn with pass := !t.keySwallowed }
    refine ⟨?_, fun key => .inl ?_, fun s => ?_, ?_⟩
    · show (ChordTracker.afterRelease _ _).2.pass = _
      rw [afterRelease_pass, hremembers, ChordTracker.seizes, hdown]
      simp
    · refine (congrFun hsame.slot key).trans ?_
      cases key <;> rfl
    · refine (congrFun hsame.swallowing s).trans ?_
      rw [hslot, hdown]
      cases s <;> rfl
    · intro hs
      cases hsame.keySwallowed.symm.trans hs
  | true =>
    rw [if_neg (by decide)]
    cases hkeyHeld : t.keyHeld with
    | true =>
      have hseizes : t.seizes e = false := by
        rw [ChordTracker.seizes, hslot]
        simp [hkeyHeld]
      refine ⟨?_, fun key => .inl rfl, fun s => ?_, hheld⟩
      · rw [hremembers, hseizes]
        cases t.keySwallowed <;> rfl
      · rw [hseizes, hdown, Bool.or_false, Bool.true_and, ite_self]
        rfl
    | false =>
      have hs : t.keySwallowed = false := by
        cases hs : t.keySwallowed with
        | false => rfl
        | true =>
          rw [hheld hs] at hkeyHeld
          cases hkeyHeld
      have hseizes : t.seizes e = t.forms e.os := by
        rw [ChordTracker.seizes, hdown, hslot]
        simp only [hkeyHeld, Bool.not_false, Bool.true_and]
      rw [if_neg (by decide)]
      cases hforms : t.forms e.os with
      | true =>
        refine ⟨?_, fun key => .inl ?_, fun s => ?_, fun _ => rfl⟩
        · rw [hremembers, hs, hseizes, hforms]
          rfl
        · cases key <;> rfl
        · rw [hslot, hdown, hseizes, hforms]
          cases s with
          | chordKey =>
            show true = (true && (t.keySwallowed || true))
            rw [Bool.or_true]
            rfl
          | _ => rfl
      | false =>
        rw [if_neg (by decide)]
        exact .of_same hheld (other_pass _ true) ((SameKeys.settled t e.os).trans (.other _ true))
          (hremembers.trans hs) (hseizes.trans hforms)

/-- **one event, seen from the memory** -/
theorem remembered_feed (hheld : t.keySwallowed = true → t.keyHeld = true) (e : KeyEvent) :
    Remembered t e (t.feed e) := by
  unfold ChordTracker.feed ChordTracker.handle
  cases hkey : e.key with
  | mod m side =>
    have hslot : t.slot e.key = none := by rw [hkey]; rfl
    refine .of_same hheld ?_ (.modifier t m side e.down e.os) ?_ ?_
    · exact ChordTracker.modifier_pass m side e.down e.os
    · rw [ChordTracker.remembers, hslot]
      rfl
    · rw [ChordTracker.seizes, hslot, Bool.and_false]
  | escape => exact remembered_escape hheld hkey
  | other vk scan =>
    dsimp only
    cases hcarried : t.isCarried vk scan with
    | true =>
      have hsome : t.carried.isSome = true := by
        unfold ChordTracker.isCarried at hcarried
        split at hcarried
        · rename_i h
          rw [h]
          rfl
        · cases hcarried
      exact remembered_carried hheld (by rw [hkey, ChordTracker.slot, if_pos hcarried]) hsome
    | false =>
      rw [if_neg (by decide)]
      cases hchord : t.isChordKey vk scan with
      | true =>
        refine remembered_chordKey hheld ?_
        rw [hkey, ChordTracker.slot, hcarried, if_neg (by decide), if_pos hchord]
      | false =>
        have hslot : t.slot e.key = none := by
          rw [hkey, ChordTracker.slot, hcarried, hchord]
          rfl
        refine .of_same hheld (other_pass t e.down) (.other t e.down) ?_ ?_
        · rw [ChordTracker.remembers, hslot]
          rfl
        · rw [ChordTracker.seizes, hslot, Bool.and_false]

end

/-! ## presses -/

/-- a key that is down: what its key-down reported, and the verdict on it -/
structure Press where
  key : Key
  pass : Bool
deriving DecidableEq, Repr

/-- `presses` holds the physical keys that are down -/
structure Typed (Position : Type) where
  tracker : ChordTracker
  presses : Position → Option Press

/-- an event comes from a physical key, whatever it reports -/
inductive Move (Position : Type) where
  | key (position : Position) (event : KeyEvent)
  | chord (chord : TriggerChord)

section runs
variable {Position : Type} [DecidableEq Position]

namespace Typed

def start (chord : TriggerChord) : Typed Position :=
  { tracker := .new chord, presses := fun _ => none }

/-- the press of a key behind an event with the verdict `pass` -/
def pressAfter (press : Option Press) (e : KeyEvent) (pass : Bool) : Option Press :=
  if e.down then some (press.getD ⟨e.key, pass⟩) else none

def step (w : Typed Position) : Move Position → Typed Position
  | .key p e =>
    { tracker := (w.tracker.feed e).1
      presses := Function.update w.presses p
        (pressAfter (w.presses p) e (w.tracker.feed e).2.pass) }
  | .chord chord => { w with tracker := (w.tracker.setChord chord).1 }

/-- a property of every move of a run -/
def Along (P : Typed Position → Move Position → Prop) (w : Typed Position) :
    List (Move Position) → Prop
  | [] => True
  | move :: moves => P w move ∧ (w.step move).Along P moves

end Typed

/-- an event of a press gets the verdict of its key-down -/
def Whole (w : Typed Position) : Move Position → Prop
  | .key p e => ∀ press ∈ w.presses p, (w.tracker.feed e).2.pass = press.pass
  | .chord _ => True

/-- a key event after which the tracker still knows every press -/
structure CleanKey (w : Typed Position) (p : Position) (e : KeyEvent) : Prop where
  /-- a swallowed key that is down counts as what its key-down counts as -/
  steady : ∀ press ∈ w.presses p, press.pass = false →
    w.tracker.slot e.key = w.tracker.slot press.key
  /-- no other key that is down counts as the key that is swallowed -/
  alone : w.tracker.remembers e.key = true ∨ w.tracker.seizes e = true → ∀ q, q ≠ p →
    ∀ press ∈ w.presses q, w.tracker.slot press.key ≠ w.tracker.slot e.key
  /-- a key that is down already does not repeat where a first press is swallowed -/
  fresh : w.tracker.seizes e = true → w.presses p = none

/-- a change of the chord does not forget a carried key -/
def Clean (w : Typed Position) : Move Position → Prop
  | .key p e => CleanKey w p e
  | .chord _ => w.tracker.keySwallowed = true → w.tracker.carried = none

/-- the tracker remembers every press that it swallowed, and each of its memories is of one press -/
structure Kept (w : Typed Position) : Prop where
  held : w.tracker.keySwallowed = true → w.tracker.keyHeld = true
  swallowed : ∀ p, ∀ press ∈ w.presses p, press.pass = false →
    w.tracker.remembers press.key = true
  one : ∀ s, w.tracker.swallowing s = true →
    ∃ p, (∃ press ∈ w.presses p, press.pass = false ∧ w.tracker.slot press.key = some s) ∧
      ∀ q, ∀ press ∈ w.presses q, w.tracker.slot press.key = some s → q = p

omit [DecidableEq Position] in
theorem kept_start (chord : TriggerChord) : Kept (Typed.start chord : Typed Position) where
  held := nofun
  swallowed := nofun
  one s h := by cases s <;> cases h

theorem ChordTracker.remembers_iff {t : ChordTracker} {key : Key} :
    t.remembers key = true ↔ ∃ s, t.slot key = some s ∧ t.swallowing s = true := by
  unfold ChordTracker.remembers
  cases t.slot key with
  | none => exact ⟨nofun, nofun⟩
  | some s => exact ⟨fun h => ⟨s, rfl, h⟩, fun ⟨s', h, hs⟩ => by rwa [Option.some.inj h]⟩

/-! ## one key event -/

section key
variable {w : Typed Position} {p : Position} {e : KeyEvent}

omit [DecidableEq Position] in
/-- an event that counts as a swallowed key is an event of the press that was swallowed -/
theorem Kept.remembered_press (h : Kept w) (hclean : CleanKey w p e)
    (hr : w.tracker.remembers e.key = true) : ∃ press ∈ w.presses p, press.pass = false := by
  obtain ⟨s, hslot, hs⟩ := ChordTracker.remembers_iff.1 hr
  obtain ⟨q, ⟨press, hpress, hpass, hq⟩, -⟩ := h.one s hs
  by_cases hqp : q = p
  · subst hqp
    exact ⟨press, hpress, hpass⟩
  · exact absurd (hq.trans hslot.symm) (hclean.alone (.inl hr) q hqp press hpress)

omit [DecidableEq Position] in
/-- an event of a swallowed press counts as a swallowed key -/
theorem Kept.press_passed (h : Kept w) (hclean : CleanKey w p e)
    (hr : w.tracker.remembers e.key = false) : ∀ press ∈ w.presses p, press.pass = true := by
  intro press hpress
  cases hpass : press.pass with
  | true => rfl
  | false =>
    have := h.swallowed p press hpress hpass
    rw [ChordTracker.remembers, ← hclean.steady press hpress hpass] at this
    rw [ChordTracker.remembers, this] at hr
    cases hr

theorem presses_step (q : Position) :
    (w.step (.key p e)).presses q =
      if q = p then Typed.pressAfter (w.presses p) e (w.tracker.feed e).2.pass else w.presses q := by
  show Function.update w.presses p _ q = _
  rw [Function.update_apply]

/-- an event of a key that is neither swallowed nor becomes swallowed -/
theorem Kept.passed (h : Kept w) (hclean : CleanKey w p e)
    (hm : Remembered w.tracker e (w.tracker.feed e)) (hr : w.tracker.remembers e.key = false)
    (hs : w.tracker.seizes e = false) : Kept (w.step (.key p e)) := by
  have hpassed := h.press_passed hclean hr
  have hpass : (w.tracker.feed e).2.pass = true := by rw [hm.pass, hr, hs]; rfl
  have hslot : ∀ key, (w.tracker.feed e).1.slot key = w.tracker.slot key := by
    intro key
    rcases hm.slot key with hsame | ⟨-, hr', -⟩
    · exact hsame
    · rw [hr] at hr'
      cases hr'
  have hswallowing : ∀ s, (w.tracker.feed e).1.swallowing s = w.tracker.swallowing s := by
    intro s
    rw [hm.swallowing]
    split
    · rename_i heq
      have : w.tracker.swallowing s = false := by
        rw [ChordTracker.remembers, heq] at hr
        exact hr
      rw [this, hs, Bool.or_self, Bool.and_false]
    · rfl
  -- the press of the event's key is passed, and counts as no swallowed key
  have hnew : ∀ press ∈ Typed.pressAfter (w.presses p) e (w.tracker.feed e).2.pass,
      press.pass = true ∧ (press ∈ w.presses p ∨ press.key = e.key) := by
    intro press hpress
    unfold Typed.pressAfter at hpress
    split at hpress
    · obtain rfl := Option.some.inj hpress
      cases hp : w.presses p with
      | none => exact ⟨hpass, .inr rfl⟩
      | some old => exact ⟨hpassed old hp, .inl rfl⟩
    · cases hpress
  refine ⟨hm.held, ?_, ?_⟩
  · intro q press hpress hfalse
    rw [presses_step] at hpress
    split at hpress
    · rw [(hnew press hpress).1] at hfalse
      cases hfalse
    · show (w.tracker.feed e).1.remembers press.key = true
      obtain ⟨s, hslots, hsw⟩ := ChordTracker.remembers_iff.1 (h.swallowed q press hpress hfalse)
      exact ChordTracker.remembers_iff.2 ⟨s, (hslot _).trans hslots, (hswallowing s).trans hsw⟩
  · intro s hsw
    have hsw : w.tracker.swallowing s = true := (hswallowing s).symm.trans hsw
    obtain ⟨q, ⟨press, hpress, hfalse, hq⟩, huniq⟩ := h.one s hsw
    have hqp : q ≠ p := by
      rintro rfl
      rw [hpassed press hpress] at hfalse
      cases hfalse
    refine ⟨q, ⟨press, ?_, hfalse, (hslot _).trans hq⟩, ?_⟩
    · rw [presses_step, if_neg hqp]
      exact hpress
    · intro q' press' hpress' hq'
      have hq' : w.tracker.slot press'.key = some s := (hslot _).symm.trans hq'
      rw [presses_step] at hpress'
      split at hpress'
      · rename_i hq'p
        rcases (hnew press' hpress').2 with hold | hkey
        · exact huniq q' press' (by rw [hq'p]; exact hold) hq'
        · rw [hkey] at hq'
          rw [ChordTracker.remembers_iff.2 ⟨s, hq', hsw⟩] at hr
          cases hr
      · exact huniq q' press' hpress' hq'

/-- an event of the press that was swallowed -/
theorem Kept.remembered (h : Kept w) (hclean : CleanKey w p e)
    (hm : Remembered w.tracker e (w.tracker.feed e)) (hr : w.tracker.remembers e.key = true) :
    Kept (w.step (.key p e)) := by
  obtain ⟨s, hslot, hs⟩ := ChordTracker.remembers_iff.1 hr
  obtain ⟨old, hold, hfalse⟩ := h.remembered_press hclean hr
  have hoth : ∀ q, q ≠ p → ∀ press ∈ w.presses q, w.tracker.slot press.key ≠ some s := by
    intro q hq press hpress
    rw [← hslot]
    exact hclean.alone (.inl hr) q hq press hpress
  cases hdown : e.down with
  | true =>
    have hsame : (w.step (.key p e)).presses = w.presses := by
      funext q
      rw [presses_step]
      split
      · rename_i hqp
        rw [Typed.pressAfter, hdown, if_pos rfl, hqp, Option.mem_def.1 hold]
        rfl
      · rfl
    have hslots : (w.tracker.feed e).1.slot = w.tracker.slot := by
      funext key
      rcases hm.slot key with hsame | ⟨-, -, hup⟩
      · exact hsame
      · rw [hdown] at hup
        cases hup
    have hswallowing : (w.tracker.feed e).1.swallowing = w.tracker.swallowing := by
      funext s'
      rw [hm.swallowing]
      split
      · rename_i heq
        obtain rfl := Option.some.inj (hslot.symm.trans heq)
        rw [hdown, hs]
        rfl
      · rfl
    refine ⟨hm.held, ?_, ?_⟩
    · rw [hsame]
      intro q press hpress hpass
      show ((w.tracker.feed e).1.slot press.key).any (w.tracker.feed e).1.swallowing = true
      rw [hslots, hswallowing]
      exact h.swallowed q press hpress hpass
    · rw [hsame]
      show ∀ s', (w.tracker.feed e).1.swallowing s' = true → ∃ q, (∃ press ∈ w.presses q, _ ∧
        (w.tracker.feed e).1.slot press.key = some s') ∧ ∀ q', ∀ press ∈ w.presses q',
          (w.tracker.feed e).1.slot press.key = some s' → q' = q
      rw [hslots, hswallowing]
      exact h.one
  | false =>
    -- the press is over, and with it the memory of it
    have hpress : ∀ q, ∀ press ∈ (w.step (.key p e)).presses q, q ≠ p ∧ press ∈ w.presses q := by
      intro q press hpress
      rw [presses_step] at hpress
      split at hpress
      · rw [Typed.pressAfter, hdown] at hpress
        cases hpress
      · rename_i hqp
        exact ⟨hqp, hpress⟩
    have hslots : ∀ key, w.tracker.slot key ≠ some s →
        (w.tracker.feed e).1.slot key = w.tracker.slot key := by
      intro key hkey
      rcases hm.slot key with hsame | ⟨heq, -, -⟩
      · exact hsame
      · exact absurd (heq.trans hslot) hkey
    have hswallowing : ∀ s', (w.tracker.feed e).1.swallowing s' = true ↔
        s' ≠ s ∧ w.tracker.swallowing s' = true := by
      intro s'
      rw [hm.swallowing, hslot, hdown]
      by_cases hss : s' = s
      · rw [hss, if_pos rfl]
        exact ⟨nofun, fun hne => absurd rfl hne.1⟩
      · rw [if_neg fun heq => hss (Option.some.inj heq).symm]
        exact ⟨fun hsw => ⟨hss, hsw⟩, And.right⟩
    refine ⟨hm.held, ?_, ?_⟩
    · intro q press hq hpass
      obtain ⟨hqp, hq⟩ := hpress q press hq
      have hne := hoth q hqp press hq
      obtain ⟨s', hs', hsw'⟩ := ChordTracker.remembers_iff.1 (h.swallowed q press hq hpass)
      refine ChordTracker.remembers_iff.2 ⟨s', (hslots _ hne).trans hs', (hswallowing s').2 ⟨?_, hsw'⟩⟩
      rintro rfl
      exact hne hs'
    · intro s' hsw'
      obtain ⟨hss, hsw'⟩ := (hswallowing s').1 hsw'
      obtain ⟨q, ⟨press, hq, hpass, hslotq⟩, huniq⟩ := h.one s' hsw'
      have hqp : q ≠ p := by
        rintro rfl
        have hkept := hclean.steady press hq hpass
        rw [hslot, hslotq] at hkept
        exact hss (Option.some.inj hkept).symm
      refine ⟨q, ⟨press, ?_, hpass, (hslots _ (hoth q hqp press hq)).trans hslotq⟩, ?_⟩
      · rw [presses_step, if_neg hqp]
        exact hq
      · intro q' press' hq' hslot'
        obtain ⟨hq'p, hq'⟩ := hpress q' press' hq'
        exact huniq q' press' hq' ((hslots _ (hoth q' hq'p press' hq')).symm.trans hslot')

/-- a first press that is swallowed -/
theorem Kept.seized (h : Kept w) (hclean : CleanKey w p e)
    (hm : Remembered w.tracker e (w.tracker.feed e)) (hr : w.tracker.remembers e.key = false)
    (hseizes : w.tracker.seizes e = true) : Kept (w.step (.key p e)) := by
  have hpass : (w.tracker.feed e).2.pass = false := by rw [hm.pass, hr, hseizes]; rfl
  have hdown : e.down = true := ((Bool.and_eq_true _ _).mp hseizes).1
  obtain ⟨s, hslot⟩ : ∃ s, w.tracker.slot e.key = some s := by
    cases hslot : w.tracker.slot e.key with
    | none =>
      rw [ChordTracker.seizes, hslot, Bool.and_false] at hseizes
      cases hseizes
    | some s => exact ⟨s, rfl⟩
  have hnew : (w.step (.key p e)).presses p = some ⟨e.key, false⟩ := by
    rw [presses_step, if_pos rfl, Typed.pressAfter, hdown, if_pos rfl, hclean.fresh hseizes, hpass]
    rfl
  have hoth : ∀ q, q ≠ p → (w.step (.key p e)).presses q = w.presses q := by
    intro q hq
    rw [presses_step, if_neg hq]
  have hslots : ∀ key, (w.tracker.feed e).1.slot key = w.tracker.slot key := by
    intro key
    rcases hm.slot key with hsame | ⟨-, -, hup⟩
    · exact hsame
    · rw [hdown] at hup
      cases hup
  have hswallowing : ∀ s', (w.tracker.feed e).1.swallowing s' = true ↔
      s' = s ∨ w.tracker.swallowing s' = true := by
    intro s'
    rw [hm.swallowing, hslot, hdown, hseizes]
    by_cases hss : s' = s
    · rw [hss, if_pos rfl, Bool.or_true]
      exact ⟨fun _ => .inl rfl, fun _ => rfl⟩
    · rw [if_neg fun heq => hss (Option.some.inj heq).symm]
      exact ⟨.inr, fun hsw => hsw.resolve_left hss⟩
  refine ⟨hm.held, ?_, ?_⟩
  · intro q press hq hpassed
    by_cases hqp : q = p
    · rw [hqp, hnew] at hq
      obtain rfl := Option.some.inj hq
      exact ChordTracker.remembers_iff.2 ⟨s, (hslots _).trans hslot, (hswallowing s).2 (.inl rfl)⟩
    · rw [hoth q hqp] at hq
      obtain ⟨s', hs', hsw'⟩ := ChordTracker.remembers_iff.1 (h.swallowed q press hq hpassed)
      exact ChordTracker.remembers_iff.2
        ⟨s', (hslots _).trans hs', (hswallowing s').2 (.inr hsw')⟩
  · intro s' hsw'
    by_cases hss : s' = s
    · subst hss
      refine ⟨p, ⟨⟨e.key, false⟩, hnew, rfl, (hslots _).trans hslot⟩, ?_⟩
      intro q press hq hslotq
      by_contra hqp
      rw [hoth q hqp] at hq
      exact hclean.alone (.inr hseizes) q hqp press hq
        ((hslots _).symm.trans (hslotq.trans hslot.symm))
    · obtain ⟨q, ⟨press, hq, hpassed, hslotq⟩, huniq⟩ :=
        h.one s' (((hswallowing s').1 hsw').resolve_left hss)
      have hqp : q ≠ p := by
        rintro rfl
        rw [hclean.fresh hseizes] at hq
        cases hq
      refine ⟨q, ⟨press, ?_, hpassed, (hslots _).trans hslotq⟩, ?_⟩
      · rw [hoth q hqp]
        exact hq
      · intro q' press' hq' hslot'
        have hslot' : w.tracker.slot press'.key = some s' := (hslots _).symm.trans hslot'
        by_cases hq'p : q' = p
        · rw [hq'p, hnew] at hq'
          obtain rfl := Option.some.inj hq'
          exact absurd (Option.some.inj (hslot'.symm.trans hslot)) hss
        · rw [hoth q' hq'p] at hq'
          exact huniq q' press' hq' hslot'

/-- **a clean key event keeps its press whole** -/
theorem Kept.key (h : Kept w) (hclean : CleanKey w p e) :
    Whole w (.key p e) ∧ Kept (w.step (.key p e)) := by
  have hm := remembered_feed h.held e
  cases hr : w.tracker.remembers e.key with
  | true =>
    refine ⟨?_, h.remembered hclean hm hr⟩
    obtain ⟨old, hold, hfalse⟩ := h.remembered_press hclean hr
    intro press hpress
    obtain rfl := Option.some.inj (hold.symm.trans hpress)
    rw [hm.pass, hr, hfalse]
    rfl
  | false =>
    cases hs : w.tracker.seizes e with
    | true =>
      refine ⟨?_, h.seized hclean hm hr hs⟩
      intro press hpress
      rw [hclean.fresh hs] at hpress
      cases hpress
    | false =>
      refine ⟨?_, h.passed hclean hm hr hs⟩
      intro press hpress
      rw [hm.pass, hr, hs, h.press_passed hclean hr press hpress]
      rfl

end key

/-! ## a change of the chord -/

theorem carried_setChord {t : ChordTracker} (hs : t.keySwallowed = false) (chord : TriggerChord) :
    (t.setChord chord).1.carried = t.carried := by
  unfold ChordTracker.setChord
  dsimp only
  split
  · rw [hs]
    rfl
  · rfl

theorem slot_carried_iff {t : ChordTracker} {vk : UInt8} {scan : UInt16} :
    t.slot (.other vk scan) = some .carried ↔ t.isCarried vk scan = true := by
  show (if t.isCarried vk scan then some Slot.carried
    else if t.isChordKey vk scan then some .chordKey else none) = _ ↔ _
  by_cases hc : t.isCarried vk scan = true
  · rw [if_pos hc]
    exact ⟨fun _ => hc, fun _ => rfl⟩
  · rw [if_neg hc]
    refine ⟨fun h => ?_, fun h => absurd h hc⟩
    split at h <;> cases h

theorem slot_escape_iff {t : ChordTracker} {key : Key} : t.slot key = some .escape ↔ key = .escape := by
  cases key with
  | other vk scan =>
    refine ⟨fun h => ?_, nofun⟩
    unfold ChordTracker.slot at h
    cases hc : t.isCarried vk scan <;> cases hk : t.isChordKey vk scan <;> simp [hc, hk] at h
  | mod m side => exact ⟨nofun, nofun⟩
  | escape => exact ⟨fun _ => rfl, fun _ => rfl⟩

theorem chord_key_of_slot {t : ChordTracker} {key : Key} (h : t.slot key = some .chordKey) :
    ∃ vk, t.chord.key = some vk := by
  cases key with
  | other vk scan =>
    cases hk : t.chord.key with
    | some vk => exact ⟨vk, rfl⟩
    | none =>
      have hnot : t.isChordKey vk scan = false := by
        unfold ChordTracker.isChordKey
        rw [hk]
      cases hc : t.isCarried vk scan <;> simp [ChordTracker.slot, hc, hnot] at h
  | _ => cases h

/-- the swallowed key of the old chord is the carried key of the new one -/
theorem slot_setChord {t : ChordTracker} (hs : t.keySwallowed = true) (hnone : t.carried = none)
    {key : Key} (hkey : t.slot key = some .chordKey) (chord : TriggerChord) (key' : Key) :
    (t.setChord chord).1.slot key' = some .carried ↔ t.slot key' = some .chordKey := by
  have hcarried : ∀ vk scan, t.isCarried vk scan = false := by
    intro vk scan
    unfold ChordTracker.isCarried
    rw [hnone]
  obtain ⟨chordVk, hvk⟩ := chord_key_of_slot hkey
  cases key' with
  | other vk scan =>
    have hnew : (t.setChord chord).1.isCarried vk scan = t.isChordKey vk scan := by
      unfold ChordTracker.isCarried ChordTracker.isChordKey ChordTracker.setChord
      simp only [hvk, hs, if_true]
    rw [slot_carried_iff, hnew, ChordTracker.slot, hcarried vk scan]
    cases t.isChordKey vk scan with
    | true => exact ⟨fun _ => rfl, fun _ => rfl⟩
    | false => exact ⟨nofun, nofun⟩
  | _ => exact ⟨nofun, nofun⟩

/-- which memory of the old chord is the carried key of the new one -/
def ChordTracker.kept (t : ChordTracker) : Slot := if t.keySwallowed then .chordKey else .carried

section change
variable {w : Typed Position} {chord : TriggerChord}

omit [DecidableEq Position] in
theorem Kept.setChord_slot (h : Kept w)
    (hclean : w.tracker.keySwallowed = true → w.tracker.carried = none)
    (hkept : w.tracker.swallowing w.tracker.kept = true) (key : Key) :
    (w.tracker.setChord chord).1.slot key = some .carried ↔
      w.tracker.slot key = some w.tracker.kept := by
  cases hs : w.tracker.keySwallowed with
  | true =>
    rw [ChordTracker.kept, hs, if_pos rfl] at hkept ⊢
    obtain ⟨-, ⟨press, -, -, hpress⟩, -⟩ := h.one .chordKey hkept
    exact slot_setChord hs (hclean hs) hpress chord key
  | false =>
    rw [ChordTracker.kept, hs, if_neg (by decide)]
    cases key with
    | other vk scan =>
      rw [slot_carried_iff, slot_carried_iff]
      unfold ChordTracker.isCarried
      rw [carried_setChord hs]
    | _ => exact ⟨nofun, nofun⟩

theorem swallowing_setChord (t : ChordTracker) (chord : TriggerChord)
    (hkey : t.keySwallowed = true → ∃ vk, t.chord.key = some vk) :
    (t.setChord chord).1.swallowing .carried = t.swallowing t.kept := by
  cases hs : t.keySwallowed with
  | true =>
    obtain ⟨vk, hvk⟩ := hkey hs
    rw [ChordTracker.kept, hs, if_pos rfl]
    show (t.setChord chord).1.carried.isSome = t.keySwallowed
    unfold ChordTracker.setChord
    simp [hvk, hs]
  | false =>
    rw [ChordTracker.kept, hs, if_neg (by decide)]
    exact congrArg Option.isSome (carried_setChord hs chord)

omit [DecidableEq Position] in
/-- the chord of a swallowed key has a key -/
theorem Kept.chord_key (h : Kept w) (hs : w.tracker.keySwallowed = true) :
    ∃ vk, w.tracker.chord.key = some vk := by
  obtain ⟨-, ⟨press, -, -, hpress⟩, -⟩ := h.one .chordKey hs
  exact chord_key_of_slot hpress

omit [DecidableEq Position] in
/-- **a change of the chord keeps every memory** -/
theorem Kept.setChord (h : Kept w)
    (hclean : w.tracker.keySwallowed = true → w.tracker.carried = none) :
    Kept ({ w with tracker := (w.tracker.setChord chord).1 } : Typed Position) := by
  have hcarried := swallowing_setChord w.tracker chord h.chord_key
  have hescape : ∀ key, (w.tracker.setChord chord).1.slot key = some .escape ↔
      w.tracker.slot key = some .escape := fun key => slot_escape_iff.trans slot_escape_iff.symm
  have hkept : ∀ s, w.tracker.swallowing s = true → s = .escape ∨ s = w.tracker.kept := by
    intro s hsw
    cases s with
    | escape => exact .inl rfl
    | chordKey =>
      right
      exact (if_pos hsw).symm
    | carried =>
      right
      cases hs : w.tracker.keySwallowed with
      | true =>
        have hsw : w.tracker.carried.isSome = true := hsw
        rw [hclean hs] at hsw
        cases hsw
      | false => rw [ChordTracker.kept, hs, if_neg (by decide)]
  refine ⟨nofun, ?_, ?_⟩
  · intro p press hpress hpass
    obtain ⟨s, hslot, hsw⟩ := ChordTracker.remembers_iff.1 (h.swallowed p press hpress hpass)
    rcases hkept s hsw with rfl | rfl
    · exact ChordTracker.remembers_iff.2 ⟨.escape, (hescape _).2 hslot, hsw⟩
    · exact ChordTracker.remembers_iff.2
        ⟨.carried, (h.setChord_slot hclean hsw _).2 hslot, hcarried.trans hsw⟩
  · intro s hsw
    cases s with
    | escape =>
      obtain ⟨p, ⟨press, hpress, hpass, hslot⟩, huniq⟩ := h.one .escape hsw
      exact ⟨p, ⟨press, hpress, hpass, (hescape _).2 hslot⟩,
        fun q press hq hslotq => huniq q press hq ((hescape _).1 hslotq)⟩
    | chordKey => cases hsw
    | carried =>
      have hsw : w.tracker.swallowing w.tracker.kept = true := hcarried.symm.trans hsw
      obtain ⟨p, ⟨press, hpress, hpass, hslot⟩, huniq⟩ := h.one w.tracker.kept hsw
      exact ⟨p, ⟨press, hpress, hpass, (h.setChord_slot hclean hsw _).2 hslot⟩,
        fun q press hq hslotq => huniq q press hq ((h.setChord_slot hclean hsw _).1 hslotq)⟩

end change

/-! ## runs -/

theorem Kept.step {w : Typed Position} (h : Kept w) {move : Move Position} (hclean : Clean w move) :
    Whole w move ∧ Kept (w.step move) := by
  cases move with
  | key p e => exact h.key hclean
  | chord chord => exact ⟨trivial, h.setChord hclean⟩

theorem Kept.run {w : Typed Position} (h : Kept w) {moves : List (Move Position)}
    (hclean : w.Along Clean moves) : w.Along Whole moves := by
  induction moves generalizing w with
  | nil => trivial
  | cons move moves ih =>
    obtain ⟨hwhole, hkept⟩ := h.step hclean.1
    exact ⟨hwhole, ih hkept hclean.2⟩

/-- **in a run of clean moves the focused app sees every press whole or not at all** -/
theorem run_whole (chord : TriggerChord) (moves : List (Move Position))
    (h : (Typed.start chord).Along Clean moves) : (Typed.start chord).Along Whole moves :=
  (kept_start chord).run h

end runs

/-! ## runs that are whole, or not -/

/-- no other key is down, and nothing is seized of a key that is -/
theorem CleanKey.of_alone {Position : Type} {w : Typed Position} {p : Position} {e : KeyEvent}
    (halone : ∀ q, q ≠ p → w.presses q = none)
    (hsteady : ∀ press ∈ w.presses p, w.tracker.slot e.key = w.tracker.slot press.key)
    (hfresh : w.tracker.seizes e = true → w.presses p = none) : CleanKey w p e where
  steady press hpress _ := hsteady press hpress
  alone := by
    intro _ q hq press hpress
    rw [halone q hq] at hpress
    cases hpress
  fresh := hfresh

def capsLock : TriggerChord := { mods := fun _ => none, key := some 0x14 }

def capsLockKey (down : Bool) : KeyEvent := ⟨.other 0x14 0x3A, down, fun _ => false, false⟩

/-- the Trigger Key changes while `CapsLock`, the key at position 58, is held -/
def heldCapsLock : List (Move Nat) :=
  [.key 58 (capsLockKey true), .chord ctrlWin, .key 58 (capsLockKey true),
   .key 58 (capsLockKey false)]

theorem heldCapsLock_clean : (Typed.start capsLock).Along Clean heldCapsLock := by
  have halone : ∀ {v : Option Press} (q : Nat), q ≠ 58 →
      Function.update (fun _ => none) 58 v q = none := fun q hq => Function.update_of_ne hq _ _
  have hagain : ∀ {v v' : Option Press} (q : Nat), q ≠ 58 →
      Function.update (Function.update (fun _ => none) 58 v) 58 v' q = none :=
    fun q hq => (Function.update_of_ne hq _ _).trans (halone q hq)
  refine ⟨?_, fun _ => rfl, ?_, ?_, trivial⟩
  · exact .of_alone (fun _ _ => rfl) nofun fun _ => rfl
  · exact .of_alone halone (by decide) (by decide)
  · exact .of_alone hagain (by decide) (by decide)

theorem run_whole_heldCapsLock : (Typed.start capsLock).Along Clean heldCapsLock ∧
    (Typed.start capsLock).Along Whole heldCapsLock :=
  ⟨heldCapsLock_clean, run_whole capsLock heldCapsLock heldCapsLock_clean⟩

/-- an `Esc` goes down, and a Recording starts while it repeats -/
def halfEscape : List (Move Nat) :=
  [.key 1 ⟨.escape, true, fun _ => false, false⟩, .key 1 ⟨.escape, true, fun _ => false, true⟩]

/-- the app sees the key-down and never the key-up -/
theorem halfEscape_split : ¬ (Typed.start ctrlWin).Along Whole halfEscape := by
  intro h
  have hpass := h.2.1 ⟨.escape, true⟩ rfl
  exact absurd hpass (by decide)

/-- the chord's key has no position on the scan code table, and `NumLock` changes what it reports -/
example : ¬ (Typed.start { mods := fun _ => none, key := some 0x60 }).Along Whole
    [.key 82 ⟨.other 0x60 0x52, true, fun _ => false, false⟩,
     .key 82 ⟨.other 0x2D 0x52, false, fun _ => false, false⟩] := by
  intro h
  have hpass := h.2.1 ⟨.other 0x60 0x52, false⟩ rfl
  exact absurd hpass (by decide)

end Voisu.WindowsApp
