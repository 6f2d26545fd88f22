import Voisu.WindowsApp.Chord

/-!
# Every run of the chord tracker

Between two changes of the chord the tracker is fed key transitions of any kind: any keys and sides,
repeats, any view of the OS, armed or not.

* `Watched`            a tracker with what an observer of the chord remembers: whether another key went
                       down while a modifier of the chord was tracked as held;
* `Lawful`             what one transition keeps;
* `Fit`                the invariant of the tracker;
* `run_lawful`         every run is lawful, and its signals alternate;
* `swallowedEscape`    why a swallowed `Esc` does not count as another key.
-/

namespace Voisu.WindowsApp

/-! ## an observer -/

structure KeyEvent where
  key : Key
  down : Bool
  os : Modifier → Bool
  armed : Bool

namespace ChordTracker

def feed (t : ChordTracker) (e : KeyEvent) : ChordTracker × Verdict := t.handle e.key e.down e.os e.armed

/-- no modifier of the chord and no chord key is tracked as held -/
def quiet (t : ChordTracker) : Bool := !t.chordModHeld && !t.keyHeld

/-- a key that is neither the chord's key nor one of its modifiers goes down -/
def disturbs (t : ChordTracker) (e : KeyEvent) : Bool :=
  e.down && match e.key with
    | .mod m side => !t.chord.uses m && !(t.held m).get side
    | .escape => true
    | .other vk scan => !t.isChordKey vk scan

/-- the chord's key goes down -/
def pressesKey (t : ChordTracker) (e : KeyEvent) : Bool :=
  e.down && !t.keyHeld && match e.key with
    | .other vk scan => !t.isCarried vk scan && t.isChordKey vk scan
    | _ => false

end ChordTracker

/-- `disturbed` since the last moment at which the tracker was quiet -/
structure Watched where
  tracker : ChordTracker
  disturbed : Bool

namespace Watched

/-- `disturbed` as an event is looked at: a press of the chord's key first drops the modifiers that the
OS reports as up, and nothing may be held then -/
def disturbedAt (w : Watched) (e : KeyEvent) : Bool :=
  w.disturbed && !(w.tracker.pressesKey e && (w.tracker.reconcile e.os none).quiet)

/-- `counts` says which verdicts make another key count -/
def step (counts : Verdict → Bool) (w : Watched) (e : KeyEvent) : Watched :=
  { tracker := (w.tracker.feed e).1
    disturbed := (w.disturbedAt e || (w.tracker.disturbs e && counts (w.tracker.feed e).2 &&
      (w.tracker.feed e).1.chordModHeld)) && !(w.tracker.feed e).1.quiet }

/-- a property of every step of a run -/
def Along (counts : Verdict → Bool) (P : Watched → KeyEvent → Prop) (w : Watched) : List KeyEvent → Prop
  | [] => True
  | e :: events => P w e ∧ (w.step counts e).Along counts P events

end Watched

/-- the verdicts of a run -/
def ChordTracker.verdicts (t : ChordTracker) : List KeyEvent → List Verdict
  | [] => []
  | e :: events => (t.feed e).2 :: (t.feed e).1.verdicts events

/-- `Pressed` and its end alternate -/
def alternates : Bool → List ChordSignal → Bool
  | _, [] => true
  | false, .pressed :: signals => alternates true signals
  | true, .released :: signals => alternates false signals
  | true, .interrupted :: signals => alternates false signals
  | on, .escape :: signals => alternates on signals
  | _, _ => false

/-- what a transition of the tracker keeps -/
structure Lawful (w : Watched) (e : KeyEvent) : Prop where
  /-- an active chord is held -/
  held : (w.tracker.feed e).1.active = true → (w.tracker.feed e).1.holding = true
  /-- a modifier passes -/
  modifiers : ∀ m side, e.key = .mod m side → (w.tracker.feed e).2.pass = true
  /-- the mask goes with a press of a chord that holds a modifier -/
  mask : (w.tracker.feed e).2.injectMask = true ↔
    (w.tracker.feed e).2.signal = some .pressed ∧ w.tracker.chord.needsMask = true
  /-- no chord forms once another key went down -/
  pressed : (w.tracker.feed e).2.signal = some .pressed → w.disturbedAt e = false
  /-- nothing is left once no modifier and no chord key is held -/
  rests : (∀ m, ((w.tracker.feed e).1.held m).any = false) → (w.tracker.feed e).1.keyHeld = false →
    (w.tracker.feed e).1.active = false ∧ (w.tracker.feed e).1.poisoned = false

/-- a tracker right after `new`, `reset` or `set_chord` -/
def ChordTracker.begun (chord : TriggerChord) (carried : Option (UInt8 × UInt16))
    (escapeSwallowed : Bool) : ChordTracker :=
  { ChordTracker.new chord with carried, escapeSwallowed }

theorem begun_new (chord : TriggerChord) : ChordTracker.begun chord none false = .new chord := rfl

theorem begun_reset (t : ChordTracker) : t.reset.1 = .begun t.chord none false := rfl

theorem begun_setChord (t : ChordTracker) (chord : TriggerChord) :
    (t.setChord chord).1 = .begun chord (t.setChord chord).1.carried t.escapeSwallowed := rfl

/-! ## the invariant -/

namespace ChordTracker
variable {t : ChordTracker}

/-- a modifier or the chord's key is tracked as held -/
def Busy (t : ChordTracker) : Prop := t.keyHeld = true ∨ ∃ m, (t.held m).any = true

structure Fit (t : ChordTracker) : Prop where
  held : t.active = true → t.holding = true
  formed : t.active = true → t.chord.key = none → ∃ m, t.chord.uses m = true
  poisoned : t.poisoned = true → t.Busy

theorem busy_of_chordModHeld (h : t.chordModHeld = true) : t.Busy := by
  obtain ⟨m, -, hm⟩ := List.any_eq_true.mp h
  exact .inr ⟨m, (Bool.and_eq_true_iff.mp hm).2⟩

/-- a chord of modifiers that is satisfied holds each of them -/
theorem any_of_modsSatisfied (h : t.modsSatisfied = true) {m : Modifier} (hm : t.chord.uses m = true) :
    (t.held m).any = true := by
  have hmeets := List.all_eq_true.mp h m m.mem_all
  unfold TriggerChord.uses at hm
  cases hneed : t.chord.need m with
  | none =>
    rw [hneed] at hm
    cases hm
  | some need =>
    rw [hneed] at hmeets
    cases need with
    | either => exact hmeets
    | only side => cases side <;> simp_all [SideSet.meets, SideSet.any]

theorem Fit.busy (h : t.Fit) (hactive : t.active = true) : t.Busy := by
  have hheld := h.held hactive
  unfold holding at hheld
  cases hkey : t.chord.key with
  | none =>
    obtain ⟨m, hm⟩ := h.formed hactive hkey
    rw [hkey] at hheld
    exact .inr ⟨m, any_of_modsSatisfied hheld hm⟩
  | some key =>
    rw [hkey] at hheld
    exact .inl hheld

theorem fit_begun (chord : TriggerChord) (carried : Option (UInt8 × UInt16)) (escapeSwallowed : Bool) :
    (begun chord carried escapeSwallowed).Fit := by
  refine ⟨?_, ?_, ?_⟩ <;> intro h <;> cases h

/-! ### the handlers -/

/-- what a verdict reports about the chord -/
def Reports (t t' : ChordTracker) (v : Verdict) : Prop :=
  match v.signal with
  | some .pressed => t.active = false ∧ t'.active = true
  | some .released => t.active = true ∧ t'.active = false
  | some .interrupted => t.active = true ∧ t'.active = false
  | _ => t'.active = t.active

/-- a verdict with the mask exactly where the chord is pressed -/
def Masks (t : ChordTracker) (v : Verdict) : Prop :=
  v.injectMask = true ↔ v.signal = some .pressed ∧ t.chord.needsMask = true

/-- what every handler does to a tracker that is fit -/
structure Handled (t : ChordTracker) (result : ChordTracker × Verdict) : Prop where
  chord : result.1.chord = t.chord
  fit : result.1.Fit
  reports : t.Reports result.1 result.2
  masks : t.Masks result.2

theorem handled_same (h : t.Fit) {v : Verdict} (hsignal : v.signal = none ∨ v.signal = some .escape)
    (hmask : v.injectMask = false) : t.Handled (t, v) := by
  refine ⟨rfl, h, ?_, ?_⟩
  · rcases hsignal with hs | hs <;> simp [Reports, hs]
  · rcases hsignal with hs | hs <;> simp [Masks, hs, hmask]

theorem afterRelease_handled {v : Verdict} (hsignal : v.signal = none) (hmask : v.injectMask = false)
    (hformed : t.active = true → t.chord.key = none → ∃ m, t.chord.uses m = true) :
    t.Handled (t.afterRelease v) := by
  have hholding : ∀ p a, ({ t with active := a, poisoned := p } : ChordTracker).holding = t.holding :=
    fun _ _ => rfl
  refine ⟨rfl, ⟨?_, ?_, ?_⟩, ?_, ?_⟩
  · intro hactive
    have : (t.active && !(t.active && !t.holding)) = true := hactive
    show t.holding = true
    cases hh : t.holding <;> simp_all
  · intro hactive hkey
    have : (t.active && !(t.active && !t.holding)) = true := hactive
    exact hformed (Bool.and_eq_true_iff.mp this).1 hkey
  · intro hpoisoned
    have : (t.poisoned && (t.chordModHeld || t.keyHeld)) = true := hpoisoned
    rcases (Bool.or_eq_true _ _).mp (Bool.and_eq_true_iff.mp this).2 with hm | hk
    · exact busy_of_chordModHeld hm
    · exact .inl hk
  · unfold Reports afterRelease
    cases t.active <;> cases t.holding <;> simp [hsignal]
  · unfold Masks afterRelease
    cases t.active <;> cases t.holding <;> simp [hsignal, hmask]

theorem other_handled (hbusy : t.active = true ∨ t.poisoned = true → t.Busy) :
    t.Handled (t.other true) := by
  unfold other
  split
  · rename_i h
    have hquiet : t.chordModHeld = false ∧ t.active = false := by simpa using h
    refine handled_same ⟨?_, ?_, fun hp => hbusy (.inr hp)⟩ (.inl rfl) rfl
    · intro ha
      rw [hquiet.2] at ha
      cases ha
    · intro ha
      rw [hquiet.2] at ha
      cases ha
  · rename_i h
    refine ⟨rfl, ⟨nofun, nofun, ?_⟩, ?_, ?_⟩
    · intro _
      show t.Busy
      cases ha : t.active with
      | true => exact hbusy (.inl ha)
      | false =>
        have hheld : t.chordModHeld = true := by simpa [ha] using h
        exact busy_of_chordModHeld hheld
    · unfold Reports
      cases ha : t.active <;> simp [Verdict.passOn]
    · unfold Masks
      cases ha : t.active <;> simp [Verdict.passOn]

theorem press_handled {pass : Bool} (hactive : t.active = false) (hholding : t.holding = true)
    (hformed : t.chord.key = none → ∃ m, t.chord.uses m = true) (hpoisoned : t.poisoned = false) :
    t.Handled (t.press pass) := by
  refine ⟨rfl, ⟨fun _ => hholding, fun _ => hformed, ?_⟩, ⟨hactive, rfl⟩, ?_⟩
  · intro hp
    have hp' : t.poisoned = true := hp
    rw [hpoisoned] at hp'
    cases hp'
  · unfold Masks press
    simp

/-- a handler that starts from a tracker with the same chord and the same activity -/
theorem Handled.of_same {t' : ChordTracker} {result : ChordTracker × Verdict} (h : t'.Handled result)
    (hchord : t'.chord = t.chord) (hactive : t'.active = t.active) : t.Handled result := by
  refine ⟨h.chord.trans hchord, h.fit, ?_, ?_⟩
  · have := h.reports
    unfold Reports at this ⊢
    rw [hactive] at this
    exact this
  · have := h.masks
    unfold Masks at this ⊢
    rw [hchord] at this
    exact this

theorem modifier_handled (h : t.Fit) (m : Modifier) (side : Side) (down : Bool) (os : Modifier → Bool) :
    t.Handled (t.modifier m side down os) := by
  unfold modifier
  split
  · have hrel : (t.setHeld m side false).Handled ((t.setHeld m side false).afterRelease .passOn) :=
      afterRelease_handled rfl rfl h.formed
    exact hrel.of_same rfl rfl
  split
  · exact handled_same h (.inl rfl) rfl
  dsimp only
  have hchord := t.withModifier_chord m side os
  have hactive := t.withModifier_active m side os
  have hbusy : (t.withModifier m side os).Busy := .inr ⟨m, t.withModifier_held m side os⟩
  generalize t.withModifier m side os = t' at *
  split
  · exact (other_handled fun _ => hbusy).of_same hchord hactive
  · rename_i hnot
    have huses : t'.chord.uses m = true := by
      cases hu : t'.chord.uses m <;> simp_all
    have hhold : t'.active = true → t'.holding = true := by
      intro ha
      cases hh : t'.holding <;> simp_all
    split
    · rename_i hforms
      simp only [Bool.and_eq_true, Bool.not_eq_true', Option.isNone_iff_eq_none] at hforms
      obtain ⟨⟨⟨hkey, hidle⟩, hpoison⟩, hmods⟩ := hforms
      have hholding : t'.holding = true := by
        unfold holding
        rw [hkey]
        exact hmods
      exact (press_handled hidle hholding (fun _ => ⟨m, huses⟩) hpoison).of_same hchord hactive
    · have hfit : t'.Fit := ⟨hhold, fun _ _ => ⟨m, huses⟩, fun _ => hbusy⟩
      exact (handled_same hfit (.inl rfl) rfl).of_same hchord hactive

theorem chordKey_handled (h : t.Fit) (hkey : t.chord.key.isSome = true) (down : Bool)
    (os : Modifier → Bool) : t.Handled (t.chordKey down os) := by
  have hnone : t.chord.key ≠ none := by
    intro hn
    rw [hn] at hkey
    cases hkey
  unfold chordKey
  split
  · have hrel := afterRelease_handled (t := { t with keyHeld := false, keySwallowed := false })
      (v := { Verdict.passOn with pass := !t.keySwallowed }) rfl rfl h.formed
    exact hrel.of_same rfl rfl
  split
  · refine handled_same h ?_ ?_
    · split <;> exact .inl rfl
    · split <;> rfl
  split
  · rename_i hforms
    simp only [forms, Bool.and_eq_true, Bool.not_eq_true'] at hforms
    obtain ⟨⟨hidle, hpoison⟩, -⟩ := hforms
    have hholding : ({ t.settled os with keySwallowed := true } : ChordTracker).holding = true := by
      show (if t.chord.key.isSome then true else _) = true
      rw [if_pos hkey]
    exact (press_handled (t := { t.settled os with keySwallowed := true }) hidle hholding
      (fun hn => absurd hn hnone) hpoison).of_same rfl rfl
  · have hbusy : (t.settled os).Busy := .inl rfl
    exact (other_handled fun _ => hbusy).of_same rfl rfl

theorem Fit.busy_or (h : t.Fit) : t.active = true ∨ t.poisoned = true → t.Busy := by
  rintro (ha | hp)
  · exact h.busy ha
  · exact h.poisoned hp

theorem escape_handled (h : t.Fit) (down armed : Bool) : t.Handled (t.escape down armed) := by
  have hset : ∀ b, ({ t with escapeSwallowed := b } : ChordTracker).Fit :=
    fun _ => ⟨h.held, h.formed, h.poisoned⟩
  unfold escape
  split
  · split
    · exact handled_same h (.inl rfl) rfl
    · split
      · exact (handled_same (hset true) (.inr rfl) rfl).of_same rfl rfl
      · exact other_handled h.busy_or
  · refine (handled_same (hset false) ?_ ?_).of_same rfl rfl
    · split <;> exact .inl rfl
    · split <;> rfl

theorem isSome_of_isChordKey {vk : UInt8} {scan : UInt16} (h : t.isChordKey vk scan = true) :
    t.chord.key.isSome = true := by
  unfold isChordKey at h
  cases hk : t.chord.key with
  | none =>
    rw [hk] at h
    cases h
  | some key => rfl

theorem feed_handled (h : t.Fit) (e : KeyEvent) : t.Handled (t.feed e) := by
  obtain ⟨key, down, os, armed⟩ := e
  unfold feed handle
  cases key with
  | mod m side => exact modifier_handled h m side down os
  | escape => exact escape_handled h down armed
  | other vk scan =>
    dsimp only
    split
    · cases down with
      | true => exact handled_same h (.inl rfl) rfl
      | false =>
        have hfit : ({ t with carried := none } : ChordTracker).Fit := ⟨h.held, h.formed, h.poisoned⟩
        exact (handled_same hfit (.inl rfl) rfl).of_same rfl rfl
    · split
      · rename_i hkey
        exact chordKey_handled h (isSome_of_isChordKey hkey) down os
      · cases down with
        | true => exact other_handled h.busy_or
        | false => exact handled_same h (.inl rfl) rfl

/-! ### the poison -/

/-- the moment in the middle of a press of the chord's key at which nothing is held -/
def clears (t : ChordTracker) (e : KeyEvent) : Bool := t.pressesKey e && (t.reconcile e.os none).quiet

/-- the poison stays while something is held, comes with another key that passes, and forbids a press -/
structure Poisons (t : ChordTracker) (e : KeyEvent) (result : ChordTracker × Verdict) : Prop where
  stays : t.poisoned = true → t.clears e = false → result.1.quiet = false → result.1.poisoned = true
  comes : t.disturbs e = true → result.2.pass = true → result.1.chordModHeld = true →
    result.1.poisoned = true
  forbids : result.2.signal = some .pressed → t.poisoned = true → t.clears e = true

theorem other_poisoned (down : Bool) (h : t.poisoned = true) : (t.other down).1.poisoned = true := by
  unfold other
  split
  · exact h
  · rfl

theorem other_comes (h : (t.other true).1.chordModHeld = true) : (t.other true).1.poisoned = true := by
  unfold other at h ⊢
  split
  · rename_i hnot
    rw [if_pos hnot] at h
    have h' : t.chordModHeld = true := h
    simp [h'] at hnot
  · rfl

theorem other_signal (down : Bool) : (t.other down).2.signal ≠ some .pressed := by
  unfold other
  split
  · exact nofun
  · dsimp only
    split <;> exact nofun

theorem other_poisons {e : KeyEvent} {t' : ChordTracker} (down : Bool) (hdown : e.down = down)
    (hp : t'.poisoned = t.poisoned) : t.Poisons e (t'.other down) where
  stays := by
    intro hpoisoned _ _
    exact other_poisoned down (hp.trans hpoisoned)
  comes := by
    intro hdisturbs _ hheld
    have : e.down = true := (Bool.and_eq_true_iff.mp hdisturbs).1
    obtain rfl : down = true := hdown.symm.trans this
    exact other_comes hheld
  forbids := fun hsignal => absurd hsignal (other_signal down)

theorem afterRelease_signal {v : Verdict} (h : v.signal = none) :
    (t.afterRelease v).2.signal ≠ some .pressed := by
  unfold afterRelease
  dsimp only
  split
  · exact nofun
  · rw [h]
    exact nofun

/-- a release keeps the poison while something is held -/
theorem afterRelease_poisons {e : KeyEvent} {t' : ChordTracker} {v : Verdict} (hdown : e.down = false)
    (hp : t'.poisoned = t.poisoned) (hsignal : v.signal = none) : t.Poisons e (t'.afterRelease v) where
  stays := by
    intro hpoisoned _ hquiet
    show (t'.poisoned && (t'.chordModHeld || t'.keyHeld)) = true
    have hquiet' : (!t'.chordModHeld && !t'.keyHeld) = false := hquiet
    rw [hp, hpoisoned]
    cases h1 : t'.chordModHeld <;> cases h2 : t'.keyHeld <;> simp_all
  comes := by
    intro hdisturbs
    rw [disturbs, hdown] at hdisturbs
    cases hdisturbs
  forbids := fun hs => absurd hs (afterRelease_signal hsignal)

/-- nothing changes but what the poison does not look at -/
theorem same_poisons {e : KeyEvent} {t' : ChordTracker} {v : Verdict} (hp : t'.poisoned = t.poisoned)
    (hsignal : v.signal ≠ some .pressed) (hquiet : t.disturbs e = true → v.pass = false) :
    t.Poisons e (t', v) where
  stays := fun hpoisoned _ _ => hp.trans hpoisoned
  comes := by
    intro hd hpass
    rw [hquiet hd] at hpass
    cases hpass
  forbids := fun hs => absurd hs hsignal

theorem modifier_poisons (m : Modifier) (side : Side) (down : Bool) (os : Modifier → Bool) (armed : Bool) :
    t.Poisons ⟨.mod m side, down, os, armed⟩ (t.modifier m side down os) := by
  unfold modifier
  split
  · rename_i hdown
    exact afterRelease_poisons (by simpa using hdown) rfl rfl
  split
  · rename_i hrepeat
    refine same_poisons rfl nofun ?_
    intro hd
    simp [disturbs, hrepeat] at hd
  rename_i hdown hnew
  dsimp only
  have hpoisoned := t.withModifier_poisoned m side os
  have hchord := t.withModifier_chord m side os
  generalize t.withModifier m side os = t' at *
  have hdown' : down = true := by simpa using hdown
  split
  · exact other_poisons true hdown' hpoisoned
  · rename_i hnot
    have huses : t.disturbs ⟨.mod m side, down, os, armed⟩ = false := by
      have : t.chord.uses m = true := by
        rw [← hchord]
        cases hu : t'.chord.uses m <;> simp_all
      simp [disturbs, this]
    split
    · rename_i hforms
      simp only [Bool.and_eq_true, Bool.not_eq_true'] at hforms
      refine ⟨?_, ?_, ?_⟩
      · intro hp
        rw [← hpoisoned, hforms.1.2] at hp
        cases hp
      · intro hd
        rw [huses] at hd
        cases hd
      · intro _ hp
        rw [← hpoisoned, hforms.1.2] at hp
        cases hp
    · refine same_poisons hpoisoned nofun ?_
      intro hd
      rw [huses] at hd
      cases hd

theorem chordKey_poisons {vk : UInt8} {scan : UInt16} (down : Bool) (os : Modifier → Bool) (armed : Bool)
    (hcarried : t.isCarried vk scan = false) (hkey : t.isChordKey vk scan = true) :
    t.Poisons ⟨.other vk scan, down, os, armed⟩ (t.chordKey down os) := by
  have hcalm : t.disturbs ⟨.other vk scan, down, os, armed⟩ = false := by simp [disturbs, hkey]
  unfold chordKey
  split
  · rename_i hdown
    exact afterRelease_poisons (by simpa using hdown) rfl rfl
  split
  · refine same_poisons rfl ?_ ?_
    · split <;> exact nofun
    · intro hd
      rw [hcalm] at hd
      cases hd
  rename_i hdown hup
  have hdown' : down = true := by simpa using hdown
  have hup' : t.keyHeld = false := by simpa using hup
  -- a press: nothing is held in the middle of it unless a modifier of the chord is
  have hclears : t.clears ⟨.other vk scan, down, os, armed⟩ = !(t.reconcile os none).chordModHeld := by
    have hk : (t.reconcile os none).keyHeld = false := hup'
    simp [clears, pressesKey, hdown', hup', hcarried, hkey, quiet, hk]
  have hsettled : (t.settled os).poisoned = (t.poisoned && (t.reconcile os none).chordModHeld) := rfl
  split
  · rename_i hforms
    simp only [forms, Bool.and_eq_true, Bool.not_eq_true'] at hforms
    have hpoison := hforms.1.2
    rw [hsettled] at hpoison
    refine ⟨?_, ?_, ?_⟩
    · intro hp hc
      rw [hclears] at hc
      simp [hp] at hpoison
      simp [hpoison] at hc
    · intro hd
      rw [hcalm] at hd
      cases hd
    · intro _ hp
      rw [hclears]
      simp [hp] at hpoison
      simp [hpoison]
  · refine ⟨?_, ?_, fun hs => absurd hs (other_signal true)⟩
    · intro hp hc _
      refine other_poisoned true ?_
      rw [hclears] at hc
      rw [hsettled, hp]
      simpa using hc
    · intro hd
      rw [hcalm] at hd
      cases hd

theorem feed_poisons (t : ChordTracker) (e : KeyEvent) : t.Poisons e (t.feed e) := by
  obtain ⟨key, down, os, armed⟩ := e
  unfold feed handle
  cases key with
  | mod m side => exact modifier_poisons m side down os armed
  | escape =>
    dsimp only
    unfold escape
    split
    · rename_i hdown
      split
      · exact same_poisons rfl nofun fun _ => rfl
      · split
        · exact same_poisons rfl nofun fun _ => rfl
        · exact other_poisons true hdown rfl
    · rename_i hdown
      refine same_poisons rfl ?_ ?_
      · split <;> exact nofun
      · intro hd
        simp [disturbs, hdown] at hd
  | other vk scan =>
    dsimp only
    split
    · refine same_poisons ?_ nofun fun _ => rfl
      split <;> rfl
    · rename_i hcarried
      split
      · rename_i hkey
        exact chordKey_poisons down os armed (by simpa using hcarried) hkey
      · exact other_poisons down rfl rfl

theorem modifier_pass (m : Modifier) (side : Side) (down : Bool) (os : Modifier → Bool) :
    (t.modifier m side down os).2.pass = true := by
  have hrelease : ∀ t' : ChordTracker, (t'.afterRelease .passOn).2.pass = true := by
    intro t'
    unfold afterRelease
    dsimp only
    split <;> rfl
  have hother : ∀ t' : ChordTracker, (t'.other true).2.pass = true := by
    intro t'
    unfold other
    split
    · rfl
    · dsimp only
      split <;> rfl
  unfold modifier
  split
  · exact hrelease _
  split
  · rfl
  dsimp only
  split
  · exact hother _
  · split <;> rfl

end ChordTracker

/-! ## runs -/

/-- what a watched tracker keeps -/
structure Watched.Sound (w : Watched) : Prop where
  fit : w.tracker.Fit
  disturbed : w.disturbed = true → w.tracker.poisoned = true

theorem Watched.Sound.step {w : Watched} (h : w.Sound) (e : KeyEvent) :
    (w.step Verdict.pass e).Sound := by
  have hpoisons := ChordTracker.feed_poisons w.tracker e
  refine ⟨(ChordTracker.feed_handled h.fit e).fit, ?_⟩
  intro hd
  obtain ⟨hcause, hloud⟩ := Bool.and_eq_true_iff.mp hd
  have hloud : (w.tracker.feed e).1.quiet = false := by simpa using hloud
  rcases (Bool.or_eq_true _ _).mp hcause with hold | hnew
  · obtain ⟨hw, hclears⟩ := Bool.and_eq_true_iff.mp hold
    have hclears : w.tracker.clears e = false := (Bool.not_eq_true' _).mp hclears
    exact hpoisons.stays (h.disturbed hw) hclears hloud
  · simp only [Bool.and_eq_true] at hnew
    exact hpoisons.comes hnew.1.1 hnew.1.2 hnew.2

theorem Watched.Sound.lawful {w : Watched} (h : w.Sound) (e : KeyEvent) : Lawful w e := by
  have hhandled := ChordTracker.feed_handled h.fit e
  have hpoisons := ChordTracker.feed_poisons w.tracker e
  refine ⟨hhandled.fit.held, ?_, hhandled.masks, ?_, ?_⟩
  · intro m side hkey
    unfold ChordTracker.feed ChordTracker.handle
    rw [hkey]
    exact ChordTracker.modifier_pass m side e.down e.os
  · intro hpressed
    cases hd : w.disturbed with
    | false => simp [Watched.disturbedAt, hd]
    | true =>
      have hclears := hpoisons.forbids hpressed (h.disturbed hd)
      unfold ChordTracker.clears at hclears
      simp [Watched.disturbedAt, hclears]
  · intro hmods hkey
    have hnot : ¬ (w.tracker.feed e).1.Busy := by
      rintro (hk | ⟨m, hm⟩)
      · rw [hkey] at hk
        cases hk
      · rw [hmods m] at hm
        cases hm
    refine ⟨?_, ?_⟩
    · exact Bool.eq_false_iff.mpr fun ha => hnot (hhandled.fit.busy ha)
    · exact Bool.eq_false_iff.mpr fun hp => hnot (hhandled.fit.poisoned hp)

theorem Watched.Sound.along {w : Watched} (h : w.Sound) (events : List KeyEvent) :
    w.Along Verdict.pass Lawful events := by
  induction events generalizing w with
  | nil => exact trivial
  | cons e events ih => exact ⟨h.lawful e, ih (h.step e)⟩

/-- the signals of a run alternate, from the activity of the tracker on -/
theorem alternates_verdicts {t : ChordTracker} (h : t.Fit) (events : List KeyEvent) :
    alternates t.active ((t.verdicts events).filterMap Verdict.signal) = true := by
  induction events generalizing t with
  | nil => cases t.active <;> rfl
  | cons e events ih =>
    have hhandled := ChordTracker.feed_handled h e
    have hrest := ih hhandled.fit
    have hreports := hhandled.reports
    unfold ChordTracker.Reports at hreports
    show alternates t.active (((t.feed e).2 :: (t.feed e).1.verdicts events).filterMap _) = true
    rw [List.filterMap_cons]
    cases hs : (t.feed e).2.signal with
    | none =>
      rw [hs] at hreports
      dsimp only at hreports ⊢
      rw [← hreports]
      exact hrest
    | some signal =>
      rw [hs] at hreports
      cases signal with
      | escape =>
        dsimp only at hreports ⊢
        rw [hreports] at hrest
        cases ha : t.active <;> rw [ha] at hrest <;> exact hrest
      | _ =>
        dsimp only at hreports ⊢
        rw [hreports.1]
        rw [hreports.2] at hrest
        exact hrest

/-- **between two changes of the chord: presses and their ends alternate, an active chord is held,
modifiers pass, the mask goes with a press, no chord forms once another key passed, and nothing is left
when nothing is held** -/
theorem run_lawful (chord : TriggerChord) (carried : Option (UInt8 × UInt16)) (escapeSwallowed : Bool)
    (events : List KeyEvent) :
    Watched.Along Verdict.pass Lawful ⟨.begun chord carried escapeSwallowed, false⟩ events ∧
      alternates false
        (((ChordTracker.begun chord carried escapeSwallowed).verdicts events).filterMap
          Verdict.signal) = true := by
  have hfit := ChordTracker.fit_begun chord carried escapeSwallowed
  refine ⟨?_, alternates_verdicts hfit events⟩
  have hsound : Watched.Sound ⟨.begun chord carried escapeSwallowed, false⟩ := ⟨hfit, nofun⟩
  exact hsound.along events

/-! ## a swallowed `Esc` -/

def ctrlWin : TriggerChord :=
  { mods := fun m => if m = .ctrl ∨ m = .win then some .either else none, key := none }

/-- `Ctrl` goes down, then an `Esc` that cancels a Recording, then `Win` -/
def swallowedEscape : List KeyEvent :=
  [⟨.mod .ctrl .left, true, fun m => m = .ctrl, true⟩, ⟨.escape, true, fun m => m = .ctrl, true⟩,
   ⟨.mod .win .left, true, fun m => m = .ctrl ∨ m = .win, true⟩]

/-- the chord forms although `Esc` went down while `Ctrl` was held -/
theorem swallowedEscape_presses :
    ¬ Watched.Along (fun _ => true) Lawful ⟨.begun ctrlWin none false, false⟩ swallowedEscape := by
  rintro ⟨-, -, h, -⟩
  have hpressed := h.pressed (by decide)
  exact absurd hpressed (by decide)

end Voisu.WindowsApp
