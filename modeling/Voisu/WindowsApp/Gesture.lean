import Mathlib.Data.List.Induction
import Mathlib.Order.Nat

/-!
# The gesture machine of the Windows trigger key

Chord signals become commands for the engine.  The clock is a parameter: an instant is a number of
nanoseconds.

* `GestureMachine.onSignal`, `onTimeout`, `onEngineEnded`   the machine;
* `Course`                  what may be said about one Recording, with the instants;
* `Tells`                   the machine has told only courses, of ids that grow.
-/

namespace Voisu.WindowsApp

inductive ChordSignal where
  | pressed
  | released
  | interrupted
  | escape
deriving DecidableEq, Repr

inductive Action where
  | start (id : Nat)
  | handsFree (id : Nat)
  | stop (id : Nat)
  | cancel (id : Nat)
deriving DecidableEq, Repr

def Action.id : Action → Nat
  | .start id => id
  | .handsFree id => id
  | .stop id => id
  | .cancel id => id

inductive State where
  | idle
  | holding (id since : Nat)
  | tapPending (id till : Nat)
  | handsFree (id : Nat)
deriving DecidableEq, Repr

/-- the Recording that a state is about -/
def State.carried : State → Option Nat
  | .idle => none
  | .holding id _ => some id
  | .tapPending id _ => some id
  | .handsFree id => some id

structure GestureMachine where
  state : State
  nextId : Nat
deriving DecidableEq, Repr

def minHold : Nat := 300000000
def doubleTap : Nat := 400000000

namespace GestureMachine

def initial : GestureMachine := { state := .idle, nextId := 1 }

def armed (m : GestureMachine) : Bool := m.state ≠ .idle

def nextDeadline (m : GestureMachine) : Option Nat :=
  match m.state with
  | .tapPending _ till => some till
  | _ => none

/-- a lapsed double-tap window is settled: the tap was not a Recording -/
def onTimeout (m : GestureMachine) (now : Nat) : GestureMachine × Option Action :=
  match m.state with
  | .tapPending id till =>
    if till ≤ now then ({ m with state := .idle }, some (.cancel id)) else (m, none)
  | _ => (m, none)

def step (m : GestureMachine) (signal : ChordSignal) (now : Nat) : GestureMachine × Option Action :=
  match m.state, signal with
  | .idle, .pressed =>
    ({ state := .holding m.nextId now, nextId := m.nextId + 1 }, some (.start m.nextId))
  | .holding id since, .released =>
    if minHold ≤ now - since then ({ m with state := .idle }, some (.stop id))
    else ({ m with state := .tapPending id (now + doubleTap) }, none)
  | .tapPending id _, .pressed => ({ m with state := .handsFree id }, some (.handsFree id))
  | .handsFree id, .pressed => ({ m with state := .idle }, some (.stop id))
  | .holding id _, .escape => ({ m with state := .idle }, some (.cancel id))
  | .tapPending id _, .escape => ({ m with state := .idle }, some (.cancel id))
  | .handsFree id, .escape => ({ m with state := .idle }, some (.cancel id))
  | .holding id _, .interrupted => ({ m with state := .idle }, some (.cancel id))
  | .tapPending id _, .interrupted => ({ m with state := .idle }, some (.cancel id))
  | .handsFree id, .interrupted => ({ m with state := .idle }, some (.cancel id))
  | _, _ => (m, none)

/-- a lapsed window is settled first, so that a late second press starts a fresh Recording -/
def onSignal (m : GestureMachine) (signal : ChordSignal) (now : Nat) :
    GestureMachine × List Action :=
  let lapsed := m.onTimeout now
  let stepped := lapsed.1.step signal now
  (stepped.1, lapsed.2.toList ++ stepped.2.toList)

/-- the engine ended the Recording on its own -/
def onEngineEnded (m : GestureMachine) (ended : Nat) : GestureMachine :=
  if m.state.carried = some ended then { m with state := .idle } else m

end GestureMachine

/-! ## what is told about a Recording -/

/-- the commands about a Recording, with their instants: a start, at most one change to hands-free,
at most one end; a stop without hands-free is the end of a hold -/
inductive Course (id : Nat) : List (Action × Nat) → Prop where
  | unheard : Course id []
  | started (t : Nat) : Course id [(.start id, t)]
  | free (t u : Nat) : Course id [(.start id, t), (.handsFree id, u)]
  | held (t v : Nat) (h : t + minHold ≤ v) : Course id [(.start id, t), (.stop id, v)]
  | cancelled (t v : Nat) : Course id [(.start id, t), (.cancel id, v)]
  | freeStopped (t u v : Nat) : Course id [(.start id, t), (.handsFree id, u), (.stop id, v)]
  | freeCancelled (t u v : Nat) : Course id [(.start id, t), (.handsFree id, u), (.cancel id, v)]

abbrev Told := List (Action × Nat)

/-- what was told about one Recording -/
def Told.about (told : Told) (id : Nat) : Told := told.filter fun p => p.1.id = id

def startId : Action × Nat → Option Nat
  | (.start id, _) => some id
  | _ => none

def Told.starts (told : Told) : List Nat := told.filterMap startId

/-- what was told about the Recording that the machine carries -/
def State.Open (told : Told) : State → Prop
  | .idle => True
  | .holding id since => told.about id = [(.start id, since)]
  | .tapPending id _ => ∃ t, told.about id = [(.start id, t)]
  | .handsFree id => ∃ t u, told.about id = [(.start id, t), (.handsFree id, u)]

structure Tells (m : GestureMachine) (told : Told) : Prop where
  fresh : ∀ p ∈ told, p.1.id < m.nextId
  carried_lt : ∀ id, m.state.carried = some id → id < m.nextId
  starts : told.starts.Pairwise (· < ·)
  courses : ∀ id, Course id (told.about id)
  opened : m.state.Open told

section
variable {m : GestureMachine} {told : Told} {now id : Nat}

theorem tells_initial : Tells GestureMachine.initial [] where
  fresh := by simp
  carried_lt := by simp [GestureMachine.initial, State.carried]
  starts := List.Pairwise.nil
  courses := fun id => Course.unheard
  opened := trivial

theorem about_append (told : Told) (p : Action × Nat) (id : Nat) :
    Told.about (told ++ [p]) id = told.about id ++ if p.1.id = id then [p] else [] := by
  unfold Told.about
  rw [List.filter_append]
  by_cases h : p.1.id = id <;> simp [h]

theorem Tells.about_fresh (h : Tells m told) (hid : m.nextId ≤ id) : told.about id = [] := by
  refine List.filter_eq_nil_iff.mpr ?_
  intro p hp
  have := h.fresh p hp
  simp only [decide_eq_true_eq]
  omega

/-- a command that only ends or prolongs the carried Recording -/
theorem Tells.tell (h : Tells m told) (hcarried : m.state.carried = some id) {action : Action}
    {state : State} (hid : action.id = id) (hstart : startId (action, now) = none)
    (hcourse : Course id (told.about id ++ [(action, now)]))
    (hstate : state.carried = none ∨ state.carried = some id)
    (hopen : state.Open (told ++ [(action, now)])) :
    Tells { m with state } (told ++ [(action, now)]) where
  fresh := by
    intro p hp
    rcases List.mem_append.mp hp with hp | hp
    · exact h.fresh p hp
    · obtain rfl := List.mem_singleton.mp hp
      show action.id < m.nextId
      rw [hid]
      exact h.carried_lt id hcarried
  carried_lt := by
    intro other hother
    have hother' : state.carried = some other := hother
    rcases hstate with hnone | hsome
    · rw [hnone] at hother'
      cases hother'
    · obtain rfl : id = other := Option.some.inj (hsome.symm.trans hother')
      exact h.carried_lt id hcarried
  starts := by
    have : Told.starts (told ++ [(action, now)]) = told.starts := by
      simp [Told.starts, List.filterMap_append, hstart]
    rw [this]
    exact h.starts
  courses := by
    intro other
    rw [about_append]
    by_cases hother : action.id = other
    · rw [if_pos hother]
      obtain rfl : id = other := hid.symm.trans hother
      exact hcourse
    · rw [if_neg hother, List.append_nil]
      exact h.courses other
  opened := hopen

/-- the end of the carried Recording -/
theorem Tells.over (h : Tells m told) (hcarried : m.state.carried = some id) {action : Action}
    (haction : action = .stop id ∨ action = .cancel id)
    (hcourse : Course id (told.about id ++ [(action, now)])) :
    Tells { m with state := .idle } (told ++ [(action, now)]) := by
  have hid : action.id = id := by rcases haction with rfl | rfl <;> rfl
  have hstart : startId (action, now) = none := by rcases haction with rfl | rfl <;> rfl
  exact h.tell hcarried hid hstart hcourse (.inl rfl) trivial

theorem Tells.cancel (h : Tells m told) (hcarried : m.state.carried = some id) :
    Tells { m with state := .idle } (told ++ [(.cancel id, now)]) := by
  refine h.over hcarried (.inr rfl) ?_
  have hopen := h.opened
  cases hstate : m.state with
  | idle =>
    rw [hstate] at hcarried
    cases hcarried
  | holding other since =>
    rw [hstate] at hcarried hopen
    obtain rfl : other = id := Option.some.inj hcarried
    rw [show told.about other = _ from hopen]
    exact Course.cancelled since now
  | tapPending other till =>
    rw [hstate] at hcarried hopen
    obtain rfl : other = id := Option.some.inj hcarried
    obtain ⟨t, ht⟩ := hopen
    rw [ht]
    exact Course.cancelled t now
  | handsFree other =>
    rw [hstate] at hcarried hopen
    obtain rfl : other = id := Option.some.inj hcarried
    obtain ⟨t, u, ht⟩ := hopen
    rw [ht]
    exact Course.freeCancelled t u now

/-- a state that says no more about what was told -/
theorem Tells.settle (h : Tells m told) {state : State}
    (hstate : ∀ id, state.carried = some id → m.state.carried = some id)
    (hopen : state.Open told) : Tells { m with state } told where
  fresh := h.fresh
  carried_lt := fun id hid => h.carried_lt id (hstate id hid)
  starts := h.starts
  courses := h.courses
  opened := hopen

theorem Tells.start (h : Tells m told) :
    Tells { state := .holding m.nextId now, nextId := m.nextId + 1 }
      (told ++ [(.start m.nextId, now)]) where
  fresh := by
    intro p hp
    rcases List.mem_append.mp hp with hp | hp
    · exact Nat.lt_succ_of_lt (h.fresh p hp)
    · obtain rfl := List.mem_singleton.mp hp
      exact Nat.lt_succ_self m.nextId
  carried_lt := by
    intro id hid
    obtain rfl : m.nextId = id := Option.some.inj hid
    exact Nat.lt_succ_self m.nextId
  starts := by
    show (List.filterMap startId (told ++ [(.start m.nextId, now)])).Pairwise (· < ·)
    rw [List.filterMap_append]
    refine List.pairwise_append.mpr ⟨h.starts, List.pairwise_singleton _ _, ?_⟩
    intro a ha b hb
    obtain rfl : b = m.nextId := by simpa [startId] using hb
    obtain ⟨⟨action, t⟩, hp, hpa⟩ := List.mem_filterMap.mp ha
    have hlt := h.fresh _ hp
    cases action <;> simp only [startId, reduceCtorEq, Option.some.injEq] at hpa
    exact hpa ▸ hlt
  courses := by
    intro id
    rw [about_append]
    show Course id (told.about id ++ if m.nextId = id then [(.start m.nextId, now)] else [])
    by_cases hid : m.nextId = id
    · rw [if_pos hid, h.about_fresh hid.le]
      subst hid
      exact Course.started now
    · rw [if_neg hid, List.append_nil]
      exact h.courses id
  opened := by
    show Told.about (told ++ [(.start m.nextId, now)]) m.nextId = _
    rw [about_append, h.about_fresh le_rfl]
    exact if_pos rfl

/-! ## the machine tells courses -/

/-- what was told, with the commands of one call at the instant `now` -/
def Told.add (told : Told) (actions : List Action) (now : Nat) : Told :=
  told ++ actions.map fun action => (action, now)

theorem Tells.onTimeout (h : Tells m told) (now : Nat) :
    Tells (m.onTimeout now).1 (told.add (m.onTimeout now).2.toList now) := by
  unfold GestureMachine.onTimeout
  cases hstate : m.state with
  | tapPending id till =>
    dsimp only
    split
    · exact h.cancel (by rw [hstate]; rfl)
    · simpa [Told.add] using h
  | _ => simpa [Told.add] using h

theorem Tells.step (h : Tells m told) (signal : ChordSignal) (now : Nat) :
    Tells (m.step signal now).1 (told.add (m.step signal now).2.toList now) := by
  have hopen := h.opened
  have hsame : Tells m (told.add ([] : List Action) now) := by simpa [Told.add] using h
  unfold GestureMachine.step
  cases hstate : m.state with
  | idle => cases signal with
    | pressed => exact h.start
    | _ => exact hsame
  | holding id since =>
    rw [hstate] at hopen
    have hcarried : m.state.carried = some id := by rw [hstate]; rfl
    cases signal with
    | pressed => exact hsame
    | released =>
      dsimp only
      split
      · rename_i hhold
        refine h.over hcarried (.inl rfl) ?_
        rw [show told.about id = _ from hopen]
        have hlong : since + minHold ≤ now := by
          have : 0 < minHold := by decide
          omega
        exact Course.held since now hlong
      · have hpending : Tells { m with state := .tapPending id (now + doubleTap) } told := by
          refine h.settle ?_ ⟨since, hopen⟩
          intro other hother
          rw [hcarried]
          exact hother
        simpa [Told.add] using hpending
    | interrupted => exact h.cancel hcarried
    | escape => exact h.cancel hcarried
  | tapPending id till =>
    rw [hstate] at hopen
    have hcarried : m.state.carried = some id := by rw [hstate]; rfl
    cases signal with
    | pressed =>
      obtain ⟨t, ht⟩ := hopen
      have habout : Told.about (told ++ [(.handsFree id, now)]) id =
          [(.start id, t), (.handsFree id, now)] := by
        rw [about_append, ht]
        exact congrArg _ (if_pos rfl)
      refine h.tell hcarried rfl rfl ?_ (.inr rfl) ⟨t, now, habout⟩
      rw [ht]
      exact Course.free t now
    | released => exact hsame
    | interrupted => exact h.cancel hcarried
    | escape => exact h.cancel hcarried
  | handsFree id =>
    rw [hstate] at hopen
    have hcarried : m.state.carried = some id := by rw [hstate]; rfl
    cases signal with
    | pressed =>
      obtain ⟨t, u, ht⟩ := hopen
      refine h.over hcarried (.inl rfl) ?_
      rw [ht]
      exact Course.freeStopped t u now
    | released => exact hsame
    | interrupted => exact h.cancel hcarried
    | escape => exact h.cancel hcarried

theorem Tells.onSignal (h : Tells m told) (signal : ChordSignal) (now : Nat) :
    Tells (m.onSignal signal now).1 (told.add (m.onSignal signal now).2 now) := by
  have hstep := (h.onTimeout now).step signal now
  unfold GestureMachine.onSignal
  have hadd : told.add ((m.onTimeout now).2.toList ++
      ((m.onTimeout now).1.step signal now).2.toList) now =
      (told.add (m.onTimeout now).2.toList now).add
        ((m.onTimeout now).1.step signal now).2.toList now := by
    simp [Told.add, List.append_assoc]
  rw [hadd]
  exact hstep

theorem Tells.onEngineEnded (h : Tells m told) (ended : Nat) : Tells (m.onEngineEnded ended) told := by
  unfold GestureMachine.onEngineEnded
  split
  · refine h.settle ?_ trivial
    intro id hid
    cases hid
  · exact h

/-! ## what the machine carries -/

/-- the machine carries what it carried, nothing, or a Recording that was not heard of before -/
def Renews (m m' : GestureMachine) : Prop :=
  m.nextId ≤ m'.nextId ∧ ∀ id, m'.state.carried = some id → m.state.carried = some id ∨ m.nextId ≤ id

theorem Renews.refl (m : GestureMachine) : Renews m m := ⟨le_rfl, fun _ h => .inl h⟩

theorem Renews.trans {m m' m'' : GestureMachine} (h : Renews m m') (h' : Renews m' m'') :
    Renews m m'' := by
  refine ⟨h.1.trans h'.1, ?_⟩
  intro id hid
  rcases h'.2 id hid with hid | hid
  · exact h.2 id hid
  · exact .inr (h.1.trans hid)

theorem renews_settle {state : State}
    (hstate : ∀ id, state.carried = some id → m.state.carried = some id) :
    Renews m { m with state } :=
  ⟨le_rfl, fun id hid => .inl (hstate id hid)⟩

theorem renews_idle : Renews m { m with state := .idle } :=
  renews_settle fun _ h => by cases h

theorem renews_onTimeout (m : GestureMachine) (now : Nat) : Renews m (m.onTimeout now).1 := by
  unfold GestureMachine.onTimeout
  split
  · split
    · exact renews_idle
    · exact Renews.refl m
  · exact Renews.refl m

theorem renews_step (m : GestureMachine) (signal : ChordSignal) (now : Nat) :
    Renews m (m.step signal now).1 := by
  unfold GestureMachine.step
  split
  case h_1 =>
    refine ⟨Nat.le_succ _, ?_⟩
    intro id hid
    exact .inr (Option.some.inj hid).le
  case h_2 id since hstate =>
    split
    · exact renews_idle
    · exact renews_settle fun other hother => by rw [hstate]; exact hother
  case h_3 id till hstate => exact renews_settle fun other hother => by rw [hstate]; exact hother
  case h_11 => exact Renews.refl m
  all_goals exact renews_idle

theorem renews_onSignal (m : GestureMachine) (signal : ChordSignal) (now : Nat) :
    Renews m (m.onSignal signal now).1 :=
  (renews_onTimeout m now).trans (renews_step _ signal now)

theorem renews_onEngineEnded (m : GestureMachine) (ended : Nat) : Renews m (m.onEngineEnded ended) := by
  unfold GestureMachine.onEngineEnded
  split
  · exact renews_idle
  · exact Renews.refl m

theorem carried_onEngineEnded (m : GestureMachine) (ended : Nat) :
    (m.onEngineEnded ended).state.carried ≠ some ended := by
  unfold GestureMachine.onEngineEnded
  split
  · intro h
    cases h
  · rename_i h
    exact h

end

end Voisu.WindowsApp
