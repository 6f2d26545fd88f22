import Mathlib
import Voisu.WindowsApp.Runs

/-!
# A cancelled Recording and its Transcript

The engine may end a capture by itself, at the byte cap or at the Recording Deadline, while the
gesture still carries the Recording.  A cancel that is told from then on, or that was in flight, is
read by a loop that refuses every command.

* `Honoured`            no Transcript is stored or delivered after a cancel, unless that had begun;
* `Heeds`               the steps at which this can go wrong, left out;
* `run_honoured`        every run of the other steps honours the cancels;
* `lateCancel`          a run that does not.
-/

namespace Voisu.WindowsApp

def Happening.delivers : Happening → Option Nat
  | .stored id => some id
  | .delivered id => some id
  | _ => none

/-- a cancel of `id` is in the record -/
def Cancelled (id : Nat) (log : List Happening) : Prop := ∃ now, Happening.emitted (.cancel id) now ∈ log

/-- the Transcript of `id` was stored, which is how its delivery begins, before any cancel -/
def Begun (id : Nat) (log : List Happening) : Prop :=
  ∃ before after, log = before ++ .stored id :: after ∧ ¬ Cancelled id before

def Honoured (log : List Happening) : Prop :=
  ∀ before happening after id, log = before ++ happening :: after →
    happening.delivers = some id → Cancelled id before → Begun id before

/-! ## the steps at which it can go wrong -/

/-- the Recording whose Transcript is being made -/
def Phase.transcribing : Phase → Option Nat
  | .settling id (.finishing _) => some id
  | .settling id .deciding => some id
  | _ => none

/-- the Recording of a tap whose window has lapsed -/
def GestureMachine.lapsed (m : GestureMachine) (now : Nat) : Option Nat :=
  match m.state with
  | .tapPending id till => if till ≤ now then some id else none
  | _ => none

/-- `Esc` or another key gives the carried Recording up -/
def ChordSignal.givesUp : ChordSignal → Bool
  | .escape => true
  | .interrupted => true
  | _ => false

/-- the Recording that an event of the gesture thread gives up -/
def System.givenUp (s : System) (event : Event) (id : Nat) : Prop :=
  match event with
  | .timer now => s.machine.lapsed now = some id
  | .read =>
    match s.inputs with
    | .chord signal now :: _ =>
      s.machine.lapsed now = some id ∨
        (signal.givesUp = true ∧ s.machine.state.carried = some id)
    | _ => False
  | _ => False

/-- the capture ends by itself, with a Recording to process -/
def Answer.stopsItself : Answer → Bool
  | .chunk (.ok none) => true
  | .chunk (.error error) => error.kind = .recordingDeadline
  | _ => false

/-- no Recording is given up while its Transcript is being made, and none stops by itself with its
cancel in flight -/
structure Heeds (s : System) (event : Event) : Prop where
  transcribing : ∀ id, s.givenUp event id → s.phase.transcribing ≠ some id
  stopping : ∀ answer id, event = .work answer → answer.stopsItself = true →
    s.phase = .pumping id false → Action.cancel id ∉ s.actions ++ s.outbox

/-! ## the record -/

section
variable {log more : List Happening} {id : Nat}

theorem mem_told {action : Action} {now : Nat} :
    (action, now) ∈ told log ↔ Happening.emitted action now ∈ log := by
  unfold told
  rw [List.mem_filterMap]
  constructor
  · rintro ⟨h, hmem, heq⟩
    cases h <;> simp only [emittedOf, reduceCtorEq, Option.some.injEq, Prod.mk.injEq] at heq
    obtain ⟨rfl, rfl⟩ := heq
    exact hmem
  · intro h
    exact ⟨_, h, rfl⟩

theorem cancelled_iff : Cancelled id log ↔ Action.cancel id ∈ (told log).map Prod.fst := by
  constructor
  · rintro ⟨now, h⟩
    exact List.mem_map.mpr ⟨_, mem_told.mpr h, rfl⟩
  · intro h
    obtain ⟨⟨action, now⟩, hp, rfl⟩ := List.mem_map.mp h
    exact ⟨now, mem_told.mp hp⟩

theorem Begun.append (h : Begun id log) (more : List Happening) : Begun id (log ++ more) := by
  obtain ⟨before, after, rfl, hnot⟩ := h
  exact ⟨before, after ++ more, by simp, hnot⟩

theorem Honoured.snoc (h : Honoured log) {happening : Happening}
    (hnew : ∀ id, happening.delivers = some id → Cancelled id log → Begun id log) :
    Honoured (log ++ [happening]) := by
  intro before x after id heq hdel hcan
  rcases List.append_eq_append_iff.mp heq with ⟨rest, hbefore, hrest⟩ | ⟨rest, hlog, hrest⟩
  · cases rest with
    | nil =>
      rw [List.append_nil] at hbefore
      obtain ⟨rfl, -⟩ : happening = x ∧ after = [] := by simpa using hrest
      rw [hbefore] at hcan ⊢
      exact hnew id hdel hcan
    | cons y rest => simp at hrest
  · cases rest with
    | nil =>
      rw [List.append_nil] at hlog
      obtain ⟨rfl, -⟩ : x = happening ∧ after = [] := by simpa using hrest
      rw [← hlog] at hcan ⊢
      exact hnew id hdel hcan
    | cons y rest =>
      obtain ⟨rfl, -⟩ : x = y ∧ _ := by simpa using hrest
      exact h before x rest id hlog hdel hcan

theorem Honoured.quiet (h : Honoured log) (hmore : ∀ x ∈ more, x.delivers = none) :
    Honoured (log ++ more) := by
  induction more using List.reverseRecOn with
  | nil => simpa using h
  | append_singleton more x ih =>
    rw [← List.append_assoc]
    refine (ih fun y hy => hmore y (List.mem_append_left _ hy)).snoc ?_
    intro id hid
    rw [hmore x (by simp)] at hid
    cases hid

end

/-! ## one step -/

theorem fail_delivers (error : BoundaryError) : (fail error).delivers = none := by
  rcases fail_eq error with h | h <;> rw [h] <;> rfl

theorem leave_delivers {id : Nat} {captured : Captured} : ∀ x ∈ (leave id captured).2, x.delivers = none := by
  intro x hx
  cases captured <;> simp [leave] at hx <;> rcases hx with rfl | rfl | rfl <;> rfl

/-- a step of the engine that neither stores nor delivers anything -/
structure Plain (phase : Phase) (result : Phase × List Happening) (stops : Nat → Prop) : Prop where
  quiet : ∀ x ∈ result.2, x.delivers = none
  delivering : ∀ id, result.1 = .settling id .delivering → phase = .settling id .delivering
  transcribing : ∀ id, result.1.transcribing = some id → phase.transcribing = some id ∨ stops id
  capturing : ∀ id, result.1.capturing = some id → phase.capturing = some id

theorem plain_leave {phase : Phase} {id : Nat} (captured : Captured) (last : List Happening)
    {stops : Nat → Prop} (hlast : ∀ x ∈ last, x.delivers = none)
    (hstops : ∀ limit, captured = .process limit → stops id) :
    Plain phase ((leave id captured).1, last ++ (leave id captured).2) stops where
  quiet := by
    intro x hx
    rcases List.mem_append.mp hx with hx | hx
    · exact hlast x hx
    · exact leave_delivers x hx
  delivering := by
    intro other hother
    cases captured <;> simp [leave] at hother
  transcribing := by
    intro other hother
    cases captured with
    | process limit =>
      obtain rfl : id = other := Option.some.inj hother
      exact .inr (hstops limit rfl)
    | _ => cases hother
  capturing := by
    intro other hother
    cases captured <;> cases hother

theorem plain_stay {phase phase' : Phase} {hs : List Happening} {stops : Nat → Prop}
    (hs1 : ∀ x ∈ hs, x.delivers = none)
    (h1 : ∀ id, phase' = .settling id .delivering → phase = .settling id .delivering)
    (h2 : ∀ id, phase'.transcribing = some id → phase.transcribing = some id)
    (h3 : ∀ id, phase'.capturing = some id → phase.capturing = some id) :
    Plain phase (phase', hs) stops :=
  ⟨hs1, h1, fun id hid => .inl (h2 id hid), h3⟩

theorem plain_refl (phase : Phase) {hs : List Happening} {stops : Nat → Prop}
    (hs1 : ∀ x ∈ hs, x.delivers = none) : Plain phase (phase, hs) stops :=
  plain_stay hs1 (fun _ h => h) (fun _ h => h) fun _ h => h

/-- the Transcript is stored, it is delivered, or the step is plain -/
theorem works_cases (phase : Phase) (answer : Answer) :
    (∃ id, phase = .settling id .deciding ∧
      works phase answer = (.settling id .delivering, [.stored id])) ∨
    (∃ id state, phase = .settling id .delivering ∧
      works phase answer = (.draining, [.delivered id, .state state])) ∨
    Plain phase (works phase answer) fun id => phase = .pumping id false ∧ answer.stopsItself = true := by
  unfold works
  split
  case h_16 id _ => exact .inl ⟨id, rfl, rfl⟩
  case h_18 id => exact .inr (.inl ⟨id, .done, rfl, rfl⟩)
  case h_19 id _ => exact .inr (.inl ⟨id, .error, rfl, rfl⟩)
  case h_2 id => exact .inr (.inr (plain_leave .done [.state .error] (by simp [Happening.delivers]) (by simp)))
  case h_3 id error =>
    exact .inr (.inr (plain_leave .done [fail error] (by simp [fail_delivers]) (by simp)))
  case h_5 id error =>
    exact .inr (.inr (plain_leave .done [fail error] (by simp [fail_delivers]) (by simp)))
  case h_8 id => exact .inr (.inr (plain_leave (.process none) [] (by simp) fun _ _ => ⟨rfl, rfl⟩))
  case h_9 id error =>
    refine .inr (.inr ?_)
    split
    · rename_i hkind
      exact plain_leave (.process (some .recordingDeadline)) [] (by simp)
        fun _ _ => ⟨rfl, decide_eq_true hkind⟩
    · exact plain_leave (.abort (some error)) [] (by simp) (by simp)
  case h_11 id error => exact .inr (.inr (plain_leave (.abort (some error)) [] (by simp) (by simp)))
  case h_12 id error =>
    refine .inr (.inr (plain_stay ?_ ?_ ?_ ?_)) <;>
      simp [fail_delivers, Phase.transcribing, Phase.capturing]
  case h_17 id error =>
    refine .inr (.inr (plain_stay ?_ ?_ ?_ ?_)) <;>
      simp [fail_delivers, Phase.transcribing, Phase.capturing]
  case h_21 => exact .inr (.inr (plain_refl phase fun _ hx => by cases hx))
  all_goals
    refine .inr (.inr (plain_stay ?_ ?_ ?_ ?_)) <;>
      simp [Happening.delivers, Phase.transcribing, Phase.capturing]

theorem receives_cases (phase : Phase) (action : Action) :
    (phase = .idle ∧ ∃ id, action = .start id ∧
      receives phase action = (.starting id, [.captureBegan id, .previewEnded])) ∨
    (Plain phase (receives phase action) (fun id => action = .stop id) ∧
      ∀ id, (receives phase action).1.capturing = some id → action ≠ .cancel id ∨ phase.reads = false) := by
  have hnone : ∀ x ∈ ([] : List Happening), x.delivers = none := by simp
  cases action with
  | start other =>
    cases phase with
    | idle => exact .inl ⟨rfl, other, rfl, rfl⟩
    | starting id => exact .inr ⟨plain_refl _ hnone, by simp⟩
    | opening id begun => exact .inr ⟨plain_refl _ hnone, by simp⟩
    | _ => exact .inr ⟨plain_refl _ (by simp [Happening.delivers]), by simp⟩
  | handsFree current =>
    cases phase with
    | pumping id sending =>
      refine .inr ⟨plain_refl _ ?_, by simp⟩
      intro x hx
      split at hx
      · obtain rfl : x = .state .handsFree := by simpa using hx
        rfl
      · cases hx
    | _ => exact .inr ⟨plain_refl _ hnone, by simp⟩
  | stop current =>
    cases phase with
    | pumping id sending =>
      refine .inr ⟨?_, by simp⟩
      show Plain _ (if current = id then _ else _) _
      split
      · rename_i h
        exact plain_leave (.process none) [] (by simp) fun _ _ => congrArg _ h
      · exact plain_refl _ hnone
    | _ => exact .inr ⟨plain_refl _ hnone, by simp⟩
  | cancel current =>
    cases phase with
    | pumping id sending =>
      show _ ∨ Plain _ (if current = id then _ else _) _ ∧
        ∀ other, (if current = id then _ else _ : Phase × List Happening).1.capturing = some other → _
      split
      · exact .inr ⟨plain_leave (.abort none) [] (by simp) (by simp), fun other hother => by cases hother⟩
      · rename_i h
        refine .inr ⟨plain_refl _ hnone, ?_⟩
        intro other hother
        obtain rfl : id = other := Option.some.inj hother
        exact .inl fun hc => h (Action.cancel.inj hc)
    | starting id => exact .inr ⟨plain_refl _ hnone, fun _ _ => .inr rfl⟩
    | opening id begun => exact .inr ⟨plain_refl _ hnone, fun _ _ => .inr rfl⟩
    | _ => exact .inr ⟨plain_refl _ hnone, fun other hother => by cases hother⟩

/-! ## what a course excludes -/

theorem Course.not_cancel {id : Nat} {l : Told} (h : Course id l)
    (hstop : Action.stop id ∈ l.map Prod.fst) : Action.cancel id ∉ l.map Prod.fst := by
  cases h <;> simp_all

/-- a start comes first -/
theorem Course.start_first {id : Nat} {l : Told} (h : Course id l) {a b : List Action}
    (hl : l.map Prod.fst = a ++ .start id :: b) : a = [] := by
  cases a with
  | nil => rfl
  | cons x a =>
    have hmem : Action.start id ∈ (l.map Prod.fst).tail := by
      rw [hl]
      simp
    have hnot : Action.start id ∉ (l.map Prod.fst).tail := by cases h <;> simp
    exact absurd hmem hnot

theorem map_about (told : Told) (id : Nat) :
    (told.about id).map Prod.fst = (told.map Prod.fst).filter fun action => action.id = id := by
  unfold Told.about
  rw [List.filter_map]
  rfl

theorem mem_about {told : Told} {action : Action} :
    action ∈ (told.about action.id).map Prod.fst ↔ action ∈ told.map Prod.fst := by
  rw [map_about, List.mem_filter]
  simp

section
variable {s : System}

/-- a Recording that was stopped is not cancelled -/
theorem Linked.not_cancelled_of_stop (h : Linked s) {id : Nat} (hstop : Action.stop id ∈ s.actions) :
    ¬ Cancelled id s.log := by
  have htold : Action.stop id ∈ (told s.log).map Prod.fst := by
    rw [← h.queued]
    exact List.mem_append_right _ (List.mem_append_left _ hstop)
  have hcourse := h.tells.courses id
  rw [cancelled_iff]
  intro hcancel
  exact hcourse.not_cancel (mem_about.mpr htold) (mem_about.mpr hcancel)

/-- a start that is next in the queue was not preceded by a cancel -/
theorem Linked.not_received_cancel (h : Linked s) {id : Nat} {actions : List Action}
    (hactions : s.actions = .start id :: actions) : Action.cancel id ∉ received s.log := by
  have hcourse := h.tells.courses id
  have hqueued := h.queued
  rw [hactions] at hqueued
  have hsplit : ((told s.log).about id).map Prod.fst =
      (received s.log).filter (fun action => action.id = id) ++
        .start id :: (actions ++ s.outbox).filter (fun action => action.id = id) := by
    rw [map_about, ← hqueued, List.filter_append, List.cons_append, List.filter_cons_of_pos]
    exact decide_eq_true rfl
  have hnil := hcourse.start_first hsplit
  intro hmem
  have : Action.cancel id ∈ (received s.log).filter fun action => action.id = id :=
    List.mem_filter.mpr ⟨hmem, decide_eq_true rfl⟩
  rw [hnil] at this
  cases this

/-! ## the invariant -/

structure Heeded (s : System) : Prop where
  linked : Linked s
  unheard : ∀ id, s.phase.capturing = some id → Action.cancel id ∉ received s.log
  transcribing : ∀ id, s.phase.transcribing = some id → ¬ Cancelled id s.log
  delivering : ∀ id, s.phase = .settling id .delivering → Begun id s.log
  honoured : Honoured s.log

theorem heeded_initial : Heeded System.initial where
  linked := linked_initial
  unheard := by simp [System.initial, Phase.capturing]
  transcribing := by simp [System.initial, Phase.transcribing]
  delivering := by simp [System.initial]
  honoured := by
    have h : Honoured [] := by
      intro before x after id heq
      simp at heq
    exact h.snoc (by simp [Happening.delivers])

/-- the machine cancels only what is given up -/
theorem onTimeout_cancel {m : GestureMachine} {now id : Nat}
    (h : Action.cancel id ∈ (m.onTimeout now).2.toList) : m.lapsed now = some id := by
  unfold GestureMachine.onTimeout at h
  unfold GestureMachine.lapsed
  cases hstate : m.state with
  | tapPending tapped till =>
    simp only [hstate] at h ⊢
    split_ifs at h ⊢ with hle
    · obtain rfl : id = tapped := by simpa using h
      rfl
    · simp at h
  | _ => simp [hstate] at h

theorem step_cancel {m : GestureMachine} {signal : ChordSignal} {now id : Nat}
    (h : Action.cancel id ∈ (m.step signal now).2.toList) :
    signal.givesUp = true ∧ m.state.carried = some id := by
  unfold GestureMachine.step at h
  cases hstate : m.state <;> cases signal <;> rw [hstate] at h <;>
    simp_all [ChordSignal.givesUp, State.carried]
  split at h <;> simp at h

theorem onSignal_cancel {m : GestureMachine} {signal : ChordSignal} {now id : Nat}
    (h : Action.cancel id ∈ (m.onSignal signal now).2) :
    m.lapsed now = some id ∨ (signal.givesUp = true ∧ m.state.carried = some id) := by
  rcases List.mem_append.mp h with h | h
  · exact .inl (onTimeout_cancel h)
  · obtain ⟨hgives, hcarried⟩ := step_cancel h
    refine .inr ⟨hgives, ?_⟩
    -- settling a lapsed tap leaves nothing to carry
    unfold GestureMachine.onTimeout at hcarried
    split at hcarried
    · split at hcarried
      · cases hcarried
      · exact hcarried
    · exact hcarried

theorem Heeded.commands (h : Heeded s) {m : GestureMachine} {actions : List Action} {now : Nat}
    (hlinked : Linked (s.commands (m, actions) now))
    (hgiven : ∀ id, Action.cancel id ∈ actions → s.phase.transcribing ≠ some id) :
    Heeded (s.commands (m, actions) now) where
  linked := hlinked
  unheard := by
    intro id hid
    show Action.cancel id ∉ received (s.log ++ actions.map fun action => .emitted action now)
    rw [received_append, received_commands, List.append_nil]
    exact h.unheard id hid
  transcribing := by
    rintro id hid ⟨t, ht⟩
    rcases List.mem_append.mp ht with ht | ht
    · exact h.transcribing id hid ⟨t, ht⟩
    · obtain ⟨action, haction, heq⟩ := List.mem_map.mp ht
      obtain ⟨rfl, -⟩ := Happening.emitted.inj heq
      exact hgiven id haction hid
  delivering := fun id hid => (h.delivering id hid).append _
  honoured := by
    refine h.honoured.quiet ?_
    intro x hx
    obtain ⟨action, -, rfl⟩ := List.mem_map.mp hx
    rfl

/-- a step of the engine that is plain, after it read the commands `r` -/
theorem Heeded.plain {result : Phase × List Happening} {r actions : List Action}
    {stops : Nat → Prop} (h : Heeded s)
    (hlinked : Linked ({ s with actions, log := s.log ++ r.map Happening.received }.advance result))
    (hadv : ∀ x ∈ result.2, x.byEngine = true) (hplain : Plain s.phase result stops)
    (hstops : ∀ id, stops id → ¬ Cancelled id s.log)
    (hcancel : ∀ id, result.1.capturing = some id → Action.cancel id ∉ r) :
    Heeded ({ s with actions, log := s.log ++ r.map Happening.received }.advance result) := by
  have hsame : ∀ id, Cancelled id (s.log ++ r.map Happening.received ++ result.2) → Cancelled id s.log := by
    rintro id ⟨now, hnow⟩
    rcases List.mem_append.mp hnow with hnow | hnow
    · rcases List.mem_append.mp hnow with hnow | hnow
      · exact ⟨now, hnow⟩
      · simp at hnow
    · have := hadv _ hnow
      cases this
  refine ⟨hlinked, ?_, ?_, ?_, ?_⟩
  · intro id hid
    have hold := h.unheard id (hplain.capturing id hid)
    intro hmem
    rcases List.mem_append.mp (mem_received.mp hmem) with hmem | hmem
    · rcases List.mem_append.mp hmem with hmem | hmem
      · exact hold (mem_received.mpr hmem)
      · obtain ⟨action, haction, heq⟩ := List.mem_map.mp hmem
        obtain rfl := Happening.received.inj heq
        exact hcancel id hid haction
    · have := hadv _ hmem
      cases this
  · intro id hid hcan
    rcases hplain.transcribing id hid with hold | hstop
    · exact h.transcribing id hold (hsame id hcan)
    · exact hstops id hstop (hsame id hcan)
  · intro id hid
    have := (h.delivering id (hplain.delivering id hid)).append (r.map Happening.received)
    exact this.append result.2
  · refine (h.honoured.quiet ?_).quiet hplain.quiet
    intro x hx
    obtain ⟨action, -, rfl⟩ := List.mem_map.mp hx
    rfl

theorem Heeded.receive (h : Heeded s) {action : Action} {actions : List Action}
    (hreads : s.phase.reads = true) (hactions : s.actions = action :: actions)
    (hlinked : Linked ({ s with actions, log := s.log ++ [Happening.received action] }.advance
      (receives s.phase action))) :
    Heeded ({ s with actions, log := s.log ++ [Happening.received action] }.advance
      (receives s.phase action)) := by
  have hadv := (advances_receives hreads action).byEngine
  rcases receives_cases s.phase action with ⟨hidle, id, rfl, hres⟩ | ⟨hplain, hcancel⟩
  · rw [hres] at hlinked ⊢
    have hnot := h.linked.not_received_cancel hactions
    refine ⟨hlinked, ?_, ?_, ?_, ?_⟩
    · intro other hother
      obtain rfl : id = other := Option.some.inj hother
      show Action.cancel id ∉
        received (s.log ++ [Happening.received (.start id)] ++ [.captureBegan id, .previewEnded])
      rw [received_append, received_append]
      simpa [received, List.filterMap_cons, receivedOf] using hnot
    · intro other hother
      cases hother
    · intro other hother
      cases hother
    · refine (h.honoured.quiet ?_).quiet ?_
      · simp [Happening.delivers]
      · simp [Happening.delivers]
  · refine h.plain (r := [action]) hlinked hadv hplain ?_ ?_
    · rintro id rfl
      refine h.linked.not_cancelled_of_stop ?_
      rw [hactions]
      exact List.mem_cons_self
    · intro id hid hmem
      obtain rfl := List.mem_singleton.mp hmem
      rcases hcancel id hid with hne | hnot
      · exact hne rfl
      · rw [hreads] at hnot
        cases hnot

theorem Heeded.work (h : Heeded s) (answer : Answer) (hheeds : Heeds s (.work answer))
    (hlinked : Linked (s.advance (works s.phase answer))) :
    Heeded (s.advance (works s.phase answer)) := by
  have hadv := (advances_works s.phase answer).byEngine
  rcases works_cases s.phase answer with ⟨id, hphase, hres⟩ | ⟨id, state, hphase, hres⟩ | hplain
  · rw [hres] at hlinked ⊢
    have hnot : ¬ Cancelled id s.log := h.transcribing id (by rw [hphase]; rfl)
    refine ⟨hlinked, ?_, ?_, ?_, ?_⟩
    · intro other hother
      cases hother
    · intro other hother
      cases hother
    · intro other hother
      obtain rfl : id = other := by simpa [System.advance] using hother
      exact ⟨s.log, [], rfl, hnot⟩
    · refine h.honoured.snoc ?_
      intro other hother hcan
      obtain rfl : id = other := Option.some.inj hother
      exact absurd hcan hnot
  · rw [hres] at hlinked ⊢
    have hbegun := h.delivering id hphase
    refine ⟨hlinked, ?_, ?_, ?_, ?_⟩
    · intro other hother
      cases hother
    · intro other hother
      cases hother
    · intro other hother
      cases hother
    · have hsnoc : Honoured (s.log ++ [Happening.delivered id]) := by
        refine h.honoured.snoc ?_
        intro other hother _
        obtain rfl : id = other := Option.some.inj hother
        exact hbegun
      have hdone : Honoured (s.log ++ [Happening.delivered id] ++ [Happening.state state]) :=
        hsnoc.quiet (by simp [Happening.delivers])
      rw [List.append_assoc] at hdone
      exact hdone
  -- the commands in flight hold no cancel, and those read so far hold none either
  · have hclear : ∀ id, s.phase = .pumping id false ∧ answer.stopsItself = true →
        ¬ Cancelled id s.log := by
      rintro id ⟨hphase, hstops⟩
      rw [cancelled_iff, ← h.linked.queued]
      intro hmem
      rcases List.mem_append.mp hmem with hmem | hmem
      · exact h.unheard id (by rw [hphase]; rfl) hmem
      · exact hheeds.stopping answer id rfl hstops hphase hmem
    have hsame : { s with actions := s.actions, log := s.log ++ [].map Happening.received } = s := by
      rw [List.map_nil, List.append_nil]
    rw [← hsame] at hlinked
    have hheeded := h.plain (r := []) hlinked hadv hplain hclear (by simp)
    rw [hsame] at hheeded
    exact hheeded

theorem Heeded.step {s' : System} {event : Event} (h : Heeded s) (hheeds : Heeds s event)
    (hstep : s.Steps event s') : Heeded s' := by
  have hlinked := h.linked.step hstep
  cases hstep with
  | stay => exact h
  | signal signal now => exact ⟨hlinked, h.unheard, h.transcribing, h.delivering, h.honoured⟩
  | @read input inputs houtbox hinputs =>
    cases input with
    | chord signal now =>
      have hless : Heeded { s with inputs } := by
        refine ⟨?_, h.unheard, h.transcribing, h.delivering, h.honoured⟩
        exact h.linked.inputs_tail hinputs
      refine hless.commands hlinked ?_
      intro id hid
      refine hheeds.transcribing id ?_
      unfold System.givenUp
      rw [hinputs]
      exact onSignal_cancel hid
    | ended id =>
      have hnot : ∀ other, Cancelled other (s.log ++ [Happening.forgot id]) → Cancelled other s.log := by
        rintro other ⟨now, hnow⟩
        refine ⟨now, ?_⟩
        simpa using hnow
      refine ⟨hlinked, ?_, ?_, ?_, ?_⟩
      · intro other hother
        show Action.cancel other ∉ received (s.log ++ [Happening.forgot id])
        rw [received_append]
        simpa [received, List.filterMap_cons, receivedOf] using h.unheard other hother
      · intro other hother hcan
        exact h.transcribing other hother (hnot other hcan)
      · intro other hother
        exact (h.delivering other hother).append [.forgot id]
      · exact h.honoured.quiet (by simp [Happening.delivers])
  | timer now houtbox =>
    refine h.commands hlinked ?_
    intro id hid
    exact hheeds.transcribing id (onTimeout_cancel hid)
  | send houtbox => exact ⟨hlinked, h.unheard, h.transcribing, h.delivering, h.honoured⟩
  | receive hreads hactions => exact h.receive hreads hactions hlinked
  | work answer => exact h.work answer hheeds hlinked

end

/-! ## runs -/

/-- every step of a run heeds the cancels -/
def HeedsAll (s : System) : List Event → Prop
  | [] => True
  | event :: events => Heeds s event ∧ HeedsAll (s.step event) events

theorem Heeded.run {s : System} (h : Heeded s) (events : List Event) (hall : HeedsAll s events) :
    Heeded (s.run events) := by
  induction events generalizing s with
  | nil => exact h
  | cons event events ih => exact ih (h.step hall.1 (s.steps event)) hall.2

/-- **a run in which no Recording is given up while its Transcript is being made, and none stops by
itself with its cancel in flight, honours every cancel** -/
theorem run_honoured (events : List Event) (h : HeedsAll System.initial events) :
    Honoured (System.initial.run events).log :=
  (heeded_initial.run events h).honoured

/-- a hold that is released in time -/
def heldEvents : List Event :=
  [.signal .pressed 0, .read, .send, .receive, .work (.keys true), .work (.begun (.ok ())),
   .work (.providers (.ok ())), .signal .released 500000000, .read, .send, .receive,
   .work (.finished (.ok ())), .work (.decided (.ok ())), .work (.delivered none)]

/-- the run of a hold heeds the cancels, and it delivers its Transcript -/
theorem run_honoured_held :
    HeedsAll System.initial heldEvents ∧ Honoured (System.initial.run heldEvents).log ∧
      Happening.delivered 1 ∈ (System.initial.run heldEvents).log := by
  have hheeds : HeedsAll System.initial heldEvents := by
    refine ⟨?_, ?_, ?_, ?_, ?_, ?_, ?_, ?_, ?_, ?_, ?_, ?_, ?_, ?_, trivial⟩
    all_goals
      refine ⟨?_, ?_⟩
      -- nothing is given up at all but while no Transcript is being made
      · intro id hgiven
        first
          | exact hgiven.elim
          | exact nofun
      · intro answer id heq hstops
        cases heq <;> cases hstops
  exact ⟨hheeds, run_honoured heldEvents hheeds, by decide⟩

/-- `Esc` is in the queue of the gesture thread when the capture reaches its byte cap -/
def lateCancel : List Event :=
  [.signal .pressed 0, .read, .send, .receive, .work (.keys true), .work (.begun (.ok ())),
   .work (.providers (.ok ())), .signal .escape 1000000000, .work (.chunk (.ok none)), .read, .send,
   .receive, .work (.finished (.ok ())), .work (.decided (.ok ())), .work (.delivered none)]

/-- the Recording is cancelled, and its Transcript is stored and delivered all the same -/
theorem lateCancel_delivers : ¬ Honoured (System.initial.run lateCancel).log := by
  intro h
  have hlog : (System.initial.run lateCancel).log =
      (System.initial.run lateCancel).log.take 11 ++ .stored 1 :: [.delivered 1, .state .done] := by
    decide
  obtain ⟨before, after, heq, -⟩ := h _ _ _ 1 hlog rfl ⟨1000000000, by decide⟩
  have hmem : Happening.stored 1 ∈ (System.initial.run lateCancel).log.take 11 := by
    rw [heq]
    simp
  exact absurd hmem (by decide)

end Voisu.WindowsApp
