import Mathlib
import Voisu.WindowsApp.Engine

/-!
# Every run of the gesture thread and the engine

What the two sides say to each other is read off the record of a run.

* `captures`      the record as the life of capture phases: none while another one is open;
* `Advances`      what a step of the engine adds to the record;
* `Linked`        the invariant: the machine, the queues, the phase and the record belong together;
* `run_orderly`   starts grow, every Recording has its course, every start is answered once.
-/

namespace Voisu.WindowsApp

/-! ## reading the record -/

def emittedOf : Happening → Option (Action × Nat)
  | .emitted action now => some (action, now)
  | _ => none

/-- what the machine told, with the instants -/
def told (log : List Happening) : Told := log.filterMap emittedOf

def receivedOf : Happening → Option Action
  | .received action => some action
  | _ => none

/-- what the engine has read -/
def received (log : List Happening) : List Action := log.filterMap receivedOf

def captureStep : Option Nat → Happening → Option (Option Nat)
  | none, .captureBegan id => some (some id)
  | some _, .captureBegan _ => none
  | none, .captureOver _ => none
  | some id, .captureOver id' => if id = id' then some none else none
  | open_, _ => some open_

/-- the Recording in its capture phase after the record; nothing where two of them were at once -/
def captures (log : List Happening) : Option (Option Nat) := log.foldlM captureStep none

theorem captures_append (log more : List Happening) :
    captures (log ++ more) = (captures log).bind fun c => more.foldlM captureStep c :=
  List.foldlM_append

/-- happenings that are not about capture phases -/
theorem foldlM_captureStep {hs : List Happening} (h : ∀ x ∈ hs, ∀ c, captureStep c x = some c)
    (c : Option Nat) : hs.foldlM captureStep c = some c := by
  induction hs with
  | nil => rfl
  | cons x hs ih =>
    rw [List.foldlM_cons, h x List.mem_cons_self c]
    exact ih fun y hy => h y (List.mem_cons_of_mem x hy)

/-- how many times `id` is in the capture phase -/
def Phase.captured (phase : Phase) (id : Nat) : Nat := if phase.capturing = some id then 1 else 0

/-! ## a step of the engine -/

/-- the happenings that only the engine causes while it works -/
def Happening.byEngine : Happening → Bool
  | .emitted _ _ => false
  | .forgot _ => false
  | .received _ => false
  | _ => true

/-- `phase` becomes `result.1` with the happenings `result.2`, after `read id` starts of `id` -/
structure Advances (phase : Phase) (result : Phase × List Happening) (read : Nat → Nat) : Prop where
  byEngine : ∀ h ∈ result.2, h.byEngine = true
  capture : result.2.foldlM captureStep phase.capturing = some result.1.capturing
  answers : ∀ id, result.2.count (.ended id) + result.1.captured id = phase.captured id + read id

theorem advances_stay {phase phase' : Phase} {hs : List Happening}
    (h : phase'.capturing = phase.capturing)
    (hs1 : ∀ h ∈ hs, h.byEngine = true)
    (hs2 : hs.foldlM captureStep phase.capturing = some phase.capturing)
    (hs3 : ∀ id, hs.count (.ended id) = 0) : Advances phase (phase', hs) fun _ => 0 where
  byEngine := hs1
  capture := by rw [hs2, ← h]
  answers := by
    intro id
    show hs.count (.ended id) + phase'.captured id = phase.captured id + 0
    rw [hs3 id, Phase.captured, Phase.captured, h]
    omega

theorem fail_eq (error : BoundaryError) : fail error = .state .idle ∨ fail error = .state .error := by
  unfold fail
  split <;> simp

/-- a state that is told and nothing else -/
theorem advances_state {phase phase' : Phase} {state : RecordingState}
    (h : phase'.capturing = phase.capturing) :
    Advances phase (phase', [.state state]) fun _ => 0 := by
  refine advances_stay h ?_ ?_ ?_
  · simp [Happening.byEngine]
  · cases hc : phase.capturing <;> rfl
  · simp

theorem advances_fail {phase phase' : Phase} (error : BoundaryError)
    (h : phase'.capturing = phase.capturing) : Advances phase (phase', [fail error]) fun _ => 0 := by
  rcases fail_eq error with hf | hf <;> rw [hf] <;> exact advances_state h

theorem advances_silent {phase phase' : Phase} (h : phase'.capturing = phase.capturing) :
    Advances phase (phase', []) fun _ => 0 :=
  advances_stay h (by simp) rfl (by simp)

/-- `record` returns, the last state told before it -/
theorem advances_leave {phase : Phase} {i : Nat} (h : phase.capturing = some i)
    (captured : Captured) (last : List RecordingState) :
    Advances phase ((leave i captured).1, last.map .state ++ (leave i captured).2) fun _ => 0 := by
  have hstates : ∀ open_, (last.map Happening.state).foldlM captureStep open_ = some open_ := by
    refine foldlM_captureStep ?_
    intro x hx c
    obtain ⟨state, -, rfl⟩ := List.mem_map.mp hx
    cases c <;> rfl
  have hnone : ∀ other, (last.map Happening.state).count (.ended other) = 0 := by
    intro other
    refine List.count_eq_zero.mpr ?_
    simp
  refine ⟨?_, ?_, ?_⟩
  · intro happening hmem
    rcases List.mem_append.mp hmem with hmem | hmem
    · obtain ⟨state, -, rfl⟩ := List.mem_map.mp hmem
      rfl
    · cases captured <;> simp [leave] at hmem <;> rcases hmem with rfl | rfl | rfl <;> rfl
  · rw [List.foldlM_append, hstates, h]
    cases captured <;> simp [leave, captureStep, Phase.capturing]
  · intro other
    have hphase : phase.captured other = if i = other then 1 else 0 := by
      rw [Phase.captured, h]
      simp
    rw [List.count_append, hnone, hphase]
    by_cases hother : i = other
    · subst hother
      cases captured <;> simp [leave, Phase.captured, Phase.capturing]
    · cases captured <;> simp [leave, Phase.captured, Phase.capturing, hother]

theorem advances_works (phase : Phase) (answer : Answer) :
    Advances phase (works phase answer) fun _ => 0 := by
  unfold works
  split
  case h_1 => exact advances_state rfl
  case h_2 id => exact advances_leave (i := id) rfl .done [.error]
  case h_3 id error =>
    rcases fail_eq error with hf | hf <;> rw [hf]
    · exact advances_leave (i := id) rfl .done [.idle]
    · exact advances_leave (i := id) rfl .done [.error]
  case h_5 id error =>
    rcases fail_eq error with hf | hf <;> rw [hf]
    · exact advances_leave (i := id) rfl .done [.idle]
    · exact advances_leave (i := id) rfl .done [.error]
  case h_8 id => exact advances_leave (i := id) rfl (.process none) []
  case h_9 id error =>
    split
    · exact advances_leave (i := id) rfl (.process (some .recordingDeadline)) []
    · exact advances_leave (i := id) rfl (.abort (some error)) []
  case h_11 id error => exact advances_leave (i := id) rfl (.abort (some error)) []
  case h_12 error => exact advances_fail error rfl
  case h_13 => exact advances_state rfl
  case h_16 id _ => exact advances_stay rfl (by simp [Happening.byEngine]) rfl (by simp)
  case h_17 error => exact advances_fail error rfl
  case h_18 id => exact advances_stay rfl (by simp [Happening.byEngine]) rfl (by simp)
  case h_19 id _ => exact advances_stay rfl (by simp [Happening.byEngine]) rfl (by simp)
  all_goals exact advances_silent rfl

/-- how many starts of `id` a command is -/
def Action.startsOf (action : Action) (id : Nat) : Nat := if action = .start id then 1 else 0

theorem advances_refuse {phase : Phase} (other : Nat) :
    Advances phase (phase, [.ended other]) (Action.start other).startsOf where
  byEngine := by simp [Happening.byEngine]
  capture := by cases hc : phase.capturing <;> rfl
  answers := by
    intro id
    show List.count (Happening.ended id) [.ended other] + phase.captured id = phase.captured id + _
    by_cases h : other = id
    · subst h
      simp [Action.startsOf, Nat.add_comm]
    · simp [Action.startsOf, h]

theorem Advances.of_read {phase : Phase} {result : Phase × List Happening} {action : Action}
    (h : Advances phase result fun _ => 0) (haction : ∀ id, action ≠ .start id) :
    Advances phase result action.startsOf where
  byEngine := h.byEngine
  capture := h.capture
  answers := by
    intro id
    rw [h.answers id, Action.startsOf, if_neg (haction id)]

theorem advances_receives {phase : Phase} (hreads : phase.reads = true) (action : Action) :
    Advances phase (receives phase action) action.startsOf := by
  cases action with
  | start other =>
    cases phase with
    | idle =>
      refine ⟨by simp [receives, Happening.byEngine], rfl, ?_⟩
      intro id
      by_cases h : other = id <;>
        simp [receives, Phase.captured, Phase.capturing, Action.startsOf, h]
    | starting id => cases hreads
    | opening id begun => cases hreads
    | pumping id sending => exact advances_refuse other
    | settling id rest => exact advances_refuse other
    | draining => exact advances_refuse other
  | handsFree current =>
    refine Advances.of_read ?_ (by simp)
    cases phase with
    | pumping id sending =>
      show Advances _ (_, if current = id then _ else _) _
      split
      · exact advances_state rfl
      · exact advances_silent rfl
    | _ => exact advances_silent rfl
  | stop current =>
    refine Advances.of_read ?_ (by simp)
    cases phase with
    | pumping id sending =>
      show Advances _ (if current = id then _ else _) _
      split
      · exact advances_leave (i := id) rfl (.process none) []
      · exact advances_silent rfl
    | _ => exact advances_silent rfl
  | cancel current =>
    refine Advances.of_read ?_ (by simp)
    cases phase with
    | pumping id sending =>
      show Advances _ (if current = id then _ else _) _
      split
      · exact advances_leave (i := id) rfl (.abort none) []
      · exact advances_silent rfl
    | _ => exact advances_silent rfl

/-! ## the invariant -/

structure Linked (s : System) : Prop where
  tells : Tells s.machine (told s.log)
  queued : received s.log ++ (s.actions ++ s.outbox) = (told s.log).map Prod.fst
  captures : captures s.log = some s.phase.capturing
  answered : ∀ id, s.log.count (.ended id) + s.phase.captured id =
    s.log.count (.received (.start id))
  reported : ∀ id, Input.ended id ∈ s.inputs → Happening.ended id ∈ s.log
  forgotten : ∀ id, Happening.forgot id ∈ s.log →
    Happening.ended id ∈ s.log ∧ s.machine.state.carried ≠ some id

theorem mem_received {log : List Happening} {action : Action} :
    action ∈ received log ↔ Happening.received action ∈ log := by
  unfold received
  rw [List.mem_filterMap]
  constructor
  · rintro ⟨h, hmem, heq⟩
    cases h <;> simp only [receivedOf, reduceCtorEq, Option.some.injEq] at heq
    exact heq ▸ hmem
  · intro h
    exact ⟨_, h, rfl⟩

section
variable {s : System}

/-- only a Recording that was started is ever ended -/
theorem Linked.ended_lt (h : Linked s) {id : Nat} (hid : Happening.ended id ∈ s.log) :
    id < s.machine.nextId := by
  have hcount : 0 < s.log.count (.received (.start id)) := by
    have := h.answered id
    have := List.count_pos_iff.mpr hid
    omega
  have hreceived := mem_received.mpr (List.count_pos_iff.mp hcount)
  have htold : Action.start id ∈ (told s.log).map Prod.fst := by
    rw [← h.queued]
    exact List.mem_append_left _ hreceived
  obtain ⟨p, hp, hpid⟩ := List.mem_map.mp htold
  have := h.tells.fresh p hp
  rw [hpid] at this
  exact this

theorem count_starts (told : Told) (id : Nat) :
    (told.map Prod.fst).count (.start id) = told.starts.count id := by
  induction told with
  | nil => rfl
  | cons p told ih =>
    obtain ⟨action, now⟩ := p
    cases action with
    | start other =>
      have hstarts : Told.starts ((Action.start other, now) :: told) = other :: Told.starts told := rfl
      rw [List.map_cons, List.count_cons, ih, hstarts, List.count_cons]
      simp
    | _ =>
      rw [List.map_cons, List.count_cons, ih]
      simp [Told.starts, List.filterMap_cons, startId]

theorem count_received (log : List Happening) (action : Action) :
    log.count (.received action) = (received log).count action := by
  induction log with
  | nil => rfl
  | cons h log ih =>
    cases h with
    | received other =>
      have hrec : received (Happening.received other :: log) = other :: received log := rfl
      rw [hrec, List.count_cons, List.count_cons, ih]
      simp
    | _ =>
      rw [List.count_cons, ih]
      simp [received, List.filterMap_cons, receivedOf]

/-- a start is read at most once -/
theorem Linked.received_le (h : Linked s) (id : Nat) : s.log.count (.received (.start id)) ≤ 1 := by
  have hnodup : (told s.log).starts.Nodup := h.tells.starts.imp fun hlt => Nat.ne_of_lt hlt
  have hle : (received s.log).count (.start id) ≤ ((told s.log).map Prod.fst).count (.start id) := by
    rw [← h.queued, List.count_append]
    omega
  rw [count_starts] at hle
  rw [count_received]
  exact hle.trans (List.nodup_iff_count.mp hnodup id)

theorem linked_initial : Linked System.initial where
  tells := tells_initial
  queued := rfl
  captures := rfl
  answered := by
    intro id
    simp [System.initial, Phase.captured, Phase.capturing]
  reported := by simp [System.initial]
  forgotten := by simp [System.initial]

/-! ### the gesture thread -/

theorem told_append (log more : List Happening) : told (log ++ more) = told log ++ told more :=
  List.filterMap_append

theorem received_append (log more : List Happening) :
    received (log ++ more) = received log ++ received more :=
  List.filterMap_append

theorem told_commands (actions : List Action) (now : Nat) :
    told (actions.map fun action => .emitted action now) = actions.map fun action => (action, now) := by
  unfold told
  rw [List.filterMap_map]
  exact congrFun List.filterMap_eq_map actions

theorem received_commands (actions : List Action) (now : Nat) :
    received (actions.map fun action => .emitted action now) = [] := by
  unfold received
  rw [List.filterMap_map]
  exact List.filterMap_eq_nil_iff.mpr fun _ _ => rfl

/-- a call of the machine whose commands go to the outbox -/
theorem Linked.commands (h : Linked s) (houtbox : s.outbox = []) {m : GestureMachine}
    {actions : List Action} {now : Nat}
    (htells : Tells m ((told s.log).add actions now)) (hrenews : Renews s.machine m) :
    Linked (s.commands (m, actions) now) where
  tells := by
    show Tells m (told (s.log ++ actions.map fun action => .emitted action now))
    rw [told_append, told_commands]
    exact htells
  queued := by
    show received (s.log ++ actions.map fun action => .emitted action now) ++ (s.actions ++ actions) =
      (told (s.log ++ actions.map fun action => .emitted action now)).map Prod.fst
    rw [told_append, received_append, told_commands, received_commands, List.map_append, ← h.queued,
      houtbox, List.map_map]
    simp [Function.comp_def]
  captures := by
    show WindowsApp.captures (s.log ++ actions.map fun action => .emitted action now) = _
    rw [captures_append, h.captures]
    refine foldlM_captureStep ?_ s.phase.capturing
    intro x hx c
    obtain ⟨action, -, rfl⟩ := List.mem_map.mp hx
    cases c <;> rfl
  answered := by
    intro id
    have := h.answered id
    show List.count _ (s.log ++ actions.map fun action => Happening.emitted action now) + _ =
      List.count _ (s.log ++ actions.map fun action => Happening.emitted action now)
    rw [List.count_append, List.count_append]
    have h1 : (actions.map fun action => Happening.emitted action now).count (.ended id) = 0 :=
      List.count_eq_zero.mpr (by simp)
    have h2 : (actions.map fun action => Happening.emitted action now).count (.received (.start id)) = 0 :=
      List.count_eq_zero.mpr (by simp)
    rw [h1, h2]
    exact this
  reported := by
    intro id hid
    exact List.mem_append_left _ (h.reported id hid)
  forgotten := by
    intro id hid
    have hold : Happening.forgot id ∈ s.log := by
      rcases List.mem_append.mp hid with hid | hid
      · exact hid
      · simp at hid
    obtain ⟨hended, hcarried⟩ := h.forgotten id hold
    refine ⟨List.mem_append_left _ hended, ?_⟩
    intro hm
    rcases hrenews.2 id hm with hm | hm
    · exact hcarried hm
    · have := h.ended_lt hended
      omega

theorem Linked.inputs_tail (h : Linked s) {input : Input} {inputs : List Input}
    (hinputs : s.inputs = input :: inputs) : Linked { s with inputs } := by
  refine ⟨h.tells, h.queued, h.captures, h.answered, ?_, h.forgotten⟩
  intro id hid
  refine h.reported id ?_
  rw [hinputs]
  exact List.mem_cons_of_mem _ hid

theorem Linked.readInput (h : Linked s) (houtbox : s.outbox = []) {input : Input}
    {inputs : List Input} (hinputs : s.inputs = input :: inputs) :
    Linked (s.readInput input inputs) := by
  have hless := h.inputs_tail hinputs
  cases input with
  | chord signal now =>
    exact hless.commands houtbox (h.tells.onSignal signal now) (renews_onSignal s.machine signal now)
  | ended id =>
    have hended : Happening.ended id ∈ s.log := h.reported id (by rw [hinputs]; exact List.mem_cons_self)
    have htold : told (s.log ++ [Happening.forgot id]) = told s.log := by
      rw [told_append]
      exact List.append_nil _
    have hreceived : received (s.log ++ [Happening.forgot id]) = received s.log := by
      rw [received_append]
      exact List.append_nil _
    refine ⟨?_, ?_, ?_, ?_, ?_, ?_⟩
    · show Tells (s.machine.onEngineEnded id) (told (s.log ++ [Happening.forgot id]))
      rw [htold]
      exact h.tells.onEngineEnded id
    · show received (s.log ++ [Happening.forgot id]) ++ (s.actions ++ s.outbox) =
        (told (s.log ++ [Happening.forgot id])).map Prod.fst
      rw [htold, hreceived]
      exact h.queued
    · show WindowsApp.captures (s.log ++ [Happening.forgot id]) = some s.phase.capturing
      rw [captures_append, h.captures]
      cases hc : s.phase.capturing <;> rfl
    · intro other
      have := h.answered other
      show List.count _ (s.log ++ [Happening.forgot id]) + s.phase.captured other =
        List.count _ (s.log ++ [Happening.forgot id])
      rw [List.count_append, List.count_append]
      simpa using this
    · intro other hother
      exact List.mem_append_left _ (hless.reported other hother)
    · intro other hother
      rcases List.mem_append.mp hother with hold | hnew
      · obtain ⟨h1, h2⟩ := h.forgotten other hold
        refine ⟨List.mem_append_left _ h1, ?_⟩
        intro hm
        rcases (renews_onEngineEnded s.machine id).2 other hm with hm | hm
        · exact h2 hm
        · have := h.ended_lt h1
          omega
      · obtain rfl : other = id := by simpa using hnew
        exact ⟨List.mem_append_left _ hended, carried_onEngineEnded s.machine other⟩

/-! ### the engine -/

theorem Linked.advance {result : Phase × List Happening} {r : List Action} {actions : List Action}
    (h : Linked s) (hread : s.actions = r ++ actions)
    (hadv : Advances s.phase result fun id => r.count (.start id)) :
    Linked ({ s with actions, log := s.log ++ r.map Happening.received }.advance result) := by
  have htold : told result.2 = [] ∧ received result.2 = [] := by
    refine ⟨List.filterMap_eq_nil_iff.mpr ?_, List.filterMap_eq_nil_iff.mpr ?_⟩
    · intro x hx
      have := hadv.byEngine x hx
      cases x <;> simp_all [Happening.byEngine, emittedOf]
    · intro x hx
      have := hadv.byEngine x hx
      cases x <;> simp_all [Happening.byEngine, receivedOf]
  have hread1 : told (r.map Happening.received) = [] := by
    refine List.filterMap_eq_nil_iff.mpr ?_
    intro x hx
    obtain ⟨action, -, rfl⟩ := List.mem_map.mp hx
    rfl
  have hread2 : received (r.map Happening.received) = r := by
    unfold received
    rw [List.filterMap_map]
    exact List.filterMap_some
  have hread3 : ∀ c, (r.map Happening.received).foldlM captureStep c = some c := by
    refine foldlM_captureStep ?_
    intro x hx c
    obtain ⟨action, -, rfl⟩ := List.mem_map.mp hx
    cases c <;> rfl
  refine ⟨?_, ?_, ?_, ?_, ?_, ?_⟩
  · show Tells s.machine (told (s.log ++ r.map Happening.received ++ result.2))
    rw [told_append, told_append, hread1, htold.1]
    simpa using h.tells
  · show received (s.log ++ r.map Happening.received ++ result.2) ++ (actions ++ s.outbox) =
      (told (s.log ++ r.map Happening.received ++ result.2)).map Prod.fst
    rw [told_append, told_append, received_append, received_append, hread1, hread2, htold.1, htold.2]
    have := h.queued
    rw [hread] at this
    simpa using this
  · show WindowsApp.captures (s.log ++ r.map Happening.received ++ result.2) = _
    rw [captures_append, captures_append, h.captures]
    show (List.foldlM captureStep s.phase.capturing (r.map Happening.received)).bind _ = _
    rw [hread3]
    exact hadv.capture
  · intro id
    have hold := h.answered id
    have hnew := hadv.answers id
    have h1 : (r.map Happening.received).count (.ended id) = 0 := List.count_eq_zero.mpr (by simp)
    have h2 : (r.map Happening.received).count (.received (.start id)) = r.count (.start id) := by
      rw [count_received, hread2]
    have h3 : result.2.count (.received (.start id)) = 0 := by
      rw [count_received, htold.2]
      rfl
    show List.count _ (s.log ++ r.map Happening.received ++ result.2) + result.1.captured id =
      List.count _ (s.log ++ r.map Happening.received ++ result.2)
    rw [List.count_append, List.count_append, List.count_append, List.count_append, h1, h2, h3]
    omega
  · intro id hid
    show Happening.ended id ∈ s.log ++ r.map Happening.received ++ result.2
    rcases List.mem_append.mp hid with hid | hid
    · exact List.mem_append_left _ (List.mem_append_left _ (h.reported id hid))
    · obtain ⟨x, hx, hxid⟩ := List.mem_filterMap.mp hid
      cases x <;> simp only [endedInput, reduceCtorEq, Option.some.injEq, Input.ended.injEq] at hxid
      exact List.mem_append_right _ (hxid ▸ hx)
  · intro id hid
    have hold : Happening.forgot id ∈ s.log := by
      rcases List.mem_append.mp hid with hid | hid
      · rcases List.mem_append.mp hid with hid | hid
        · exact hid
        · simp at hid
      · have := hadv.byEngine _ hid
        cases this
    obtain ⟨h1, h2⟩ := h.forgotten id hold
    exact ⟨List.mem_append_left _ (List.mem_append_left _ h1), h2⟩

/-! ### runs -/

theorem Linked.step {s' : System} {event : Event} (h : Linked s) (hstep : s.Steps event s') :
    Linked s' := by
  cases hstep with
  | stay => exact h
  | signal signal now =>
    refine ⟨h.tells, h.queued, h.captures, h.answered, ?_, h.forgotten⟩
    intro id hid
    rcases List.mem_append.mp hid with hid | hid
    · exact h.reported id hid
    · simp at hid
  | read houtbox hinputs => exact h.readInput houtbox hinputs
  | timer now houtbox =>
    exact h.commands houtbox (h.tells.onTimeout now) (renews_onTimeout s.machine now)
  | send houtbox =>
    refine ⟨h.tells, ?_, h.captures, h.answered, h.reported, h.forgotten⟩
    have := h.queued
    rw [houtbox] at this
    simpa using this
  | @receive action actions hreads hactions =>
    refine h.advance (r := [action]) hactions ?_
    have hcount : (fun id => [action].count (.start id)) = action.startsOf := by
      funext id
      rw [List.count_singleton, Action.startsOf]
      simp
    rw [hcount]
    exact advances_receives hreads action
  | work answer =>
    have hadv := h.advance (r := []) rfl (advances_works s.phase answer)
    simpa using hadv

theorem linked_run (events : List Event) : Linked (System.initial.run events) := by
  induction events using List.reverseRecOn with
  | nil => exact linked_initial
  | append_singleton events event ih =>
    rw [System.run_snoc]
    exact ih.step (System.steps _ event)

end

/-- what every run of the two sides keeps -/
structure Orderly (s : System) : Prop where
  /-- the ids of the starts grow -/
  starts : (told s.log).starts.Pairwise (· < ·)
  /-- every Recording has its course -/
  courses : ∀ id, Course id ((told s.log).about id)
  /-- no two Recordings are in the capture phase -/
  captures : captures s.log = some s.phase.capturing
  /-- a start that the engine read is answered once, when its capture phase is over -/
  answered : ∀ id, s.log.count (.ended id) + s.phase.captured id =
    s.log.count (.received (.start id)) ∧ s.log.count (.received (.start id)) ≤ 1
  /-- a Recording whose end was read is not carried again -/
  forgotten : ∀ id, Happening.forgot id ∈ s.log → s.machine.state.carried ≠ some id

/-- **starts grow, every Recording has its course, at most one is captured, every start that is read is
answered exactly once, and an ended Recording is forgotten** -/
theorem run_orderly (events : List Event) : Orderly (System.initial.run events) := by
  have h := linked_run events
  refine ⟨h.tells.starts, h.tells.courses, h.captures, ?_, ?_⟩
  · intro id
    exact ⟨h.answered id, h.received_le id⟩
  · intro id hid
    exact (h.forgotten id hid).2

end Voisu.WindowsApp
