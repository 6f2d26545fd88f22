import Mathlib
import Voisu.WindowsApp.Runs

/-!
# The tray preview beside a real Recording

A preview checks that no Recording is on screen, then takes a token from the gate, then a thread of its
own plays fake events while the token is current.  The engine closes the gate before it tells that it
records.  What is on screen is known to the presenter only once the main thread has worked through its
queue.

* `Presenter`, `PreviewGate`   the two guarded states;
* `Desk.step`                  one step of the engine, the main thread, a timer, a caller or a player;
* `Isolated`                   no fake event between a real `recording` and its terminal state;
* `run_isolated`               every run in which no token is taken while the engine has a Recording;
* `lateBegin`                  a run with a token taken after the check and after the `recording`.
-/

namespace Voisu.WindowsApp

/-! ## the presenter -/

structure Presenter where
  visible : Bool
  generation : Nat
  terminalShowing : Bool
deriving DecidableEq, Repr

/-- `done` and `error` stay up on their own for a while -/
def RecordingState.displays : RecordingState → Bool
  | .done => true
  | .error => true
  | _ => false

namespace Presenter

def initial : Presenter := { visible := false, generation := 0, terminalShowing := false }

def isLive (p : Presenter) : Bool := p.visible && !p.terminalShowing

/-- the presenter after a state, and the generation that a timer for hiding has to carry -/
def onState (p : Presenter) (state : RecordingState) : Presenter × Option Nat :=
  if state = .idle ∧ p.terminalShowing then (p, none)
  else
    let generation := p.generation + 1
    let terminalShowing := state.displays
    if state = .idle then ({ visible := false, generation, terminalShowing }, none)
    else
      ({ visible := true, generation, terminalShowing },
        if terminalShowing then some generation else none)

def onHideTimer (p : Presenter) (generation : Nat) : Presenter :=
  if generation = p.generation then { p with terminalShowing := false, visible := false } else p

end Presenter

/-! ## the gate -/

structure PreviewGate where
  generation : Nat
  running : Bool
deriving DecidableEq, Repr

namespace PreviewGate

def initial : PreviewGate := { generation := 0, running := false }

def begin (gate : PreviewGate) : PreviewGate × Option Nat :=
  if gate.running then (gate, none)
  else ({ running := true, generation := gate.generation + 1 }, some (gate.generation + 1))

def isCurrent (gate : PreviewGate) (token : Nat) : Bool := gate.running && gate.generation == token

def ends (gate : PreviewGate) : PreviewGate :=
  { running := false, generation := gate.generation + 1 }

def finish (gate : PreviewGate) (token : Nat) : PreviewGate :=
  if gate.isCurrent token then { gate with running := false } else gate

end PreviewGate

/-! ## the player -/

/-- what a preview emits -/
inductive Fake where
  | state (state : RecordingState)
  | level
deriving DecidableEq, Repr

/-- where `play_preview` stands -/
inductive Stage where
  | recording
  | levels
  | done
  | finishing
  | over
deriving DecidableEq, Repr

/-- the next emit and the stage after it; `more` while the levels are still to be played -/
def Stage.next (stage : Stage) (more : Bool) : Option (Fake × Stage) :=
  match stage with
  | .recording => some (.state .recording, .levels)
  | .levels => if more then some (.level, .levels) else some (.state .processing, .done)
  | .done => some (.state .done, .finishing)
  | _ => none

structure Player where
  token : Nat
  stage : Stage
deriving DecidableEq, Repr

/-! ## everything together -/

/-- the work queued for the main thread -/
inductive MainWork where
  | state (state : RecordingState)
  | hide (generation : Nat)
deriving DecidableEq, Repr

/-- what the webviews see, and the steps of the real Recording -/
inductive Seen where
  | real (happening : Happening)
  | fake (event : Fake)
deriving DecidableEq, Repr

/-- `checked` counts the callers that saw no Recording on screen and have not taken a token yet -/
structure Desk where
  system : System
  presenter : Presenter
  gate : PreviewGate
  queue : List MainWork
  timers : List Nat
  checked : Nat
  players : List Player
  log : List Seen

inductive DeskEvent where
  | system (event : Event)
  | main
  | timer (generation : Nat)
  | check
  | begin
  | play (index : Nat) (more : Bool)
deriving DecidableEq

def stateWork : Happening → Option MainWork
  | .state state => some (.state state)
  | _ => none

namespace Desk

def initial : Desk :=
  { system := .initial, presenter := .initial, gate := .initial, queue := [.state .idle], timers := [],
    checked := 0, players := [], log := [.real (.state .idle)] }

/-- the engine and the gesture thread: an end of the preview closes the gate, a state is posted -/
def systemStep (d : Desk) (event : Event) : Desk :=
  let system := d.system.step event
  let news := system.log.drop d.system.log.length
  { d with
    system
    gate := if Happening.previewEnded ∈ news then d.gate.ends else d.gate
    queue := d.queue ++ news.filterMap stateWork
    log := d.log ++ news.map .real }

def mainStep (d : Desk) : Desk :=
  match d.queue with
  | [] => d
  | .state state :: queue =>
    { d with
      queue
      presenter := (d.presenter.onState state).1
      timers := d.timers ++ (d.presenter.onState state).2.toList }
  | .hide generation :: queue => { d with queue, presenter := d.presenter.onHideTimer generation }

/-- `emit_preview` of a player, or its `finish` -/
def playStep (d : Desk) (index : Nat) (more : Bool) : Desk :=
  match d.players[index]? with
  | none => d
  | some player =>
    match player.stage.next more with
    | some (fake, stage) =>
      if d.gate.isCurrent player.token then
        { d with
          players := d.players.set index { player with stage }
          queue := d.queue ++ (match fake with | .state state => [.state state] | .level => [])
          log := d.log ++ [.fake fake] }
      else { d with players := d.players.set index { player with stage := .over } }
    | none =>
      if player.stage = .finishing then
        { d with
          players := d.players.set index { player with stage := .over }
          gate := d.gate.finish player.token }
      else d

def step (d : Desk) : DeskEvent → Desk
  | .system event => d.systemStep event
  | .main => d.mainStep
  | .timer generation =>
    if generation ∈ d.timers then
      { d with timers := d.timers.erase generation, queue := d.queue ++ [.hide generation] }
    else d
  | .check => if d.presenter.isLive then d else { d with checked := d.checked + 1 }
  | .begin =>
    if d.checked = 0 then d
    else
      { d with
        checked := d.checked - 1
        gate := d.gate.begin.1
        players := d.players ++ d.gate.begin.2.toList.map fun token => ⟨token, .recording⟩ }
  | .play index more => d.playStep index more

def run (d : Desk) (events : List DeskEvent) : Desk := events.foldl step d

end Desk

/-! ## isolation -/

/-- whether a real Recording is between its `recording` and its terminal state after an event -/
def sessionStep (on : Bool) : Seen → Bool
  | .real (.state .recording) => true
  | .real (.state .idle) => false
  | .real (.state .done) => false
  | .real (.state .error) => false
  | _ => on

def session (log : List Seen) : Bool := log.foldl sessionStep false

def Isolated (log : List Seen) : Prop :=
  ∀ before fake after, log = before ++ .fake fake :: after → session before = false

/-- the engine has told `recording` and no terminal state yet -/
def Phase.live : Phase → Bool
  | .opening _ _ => true
  | .pumping _ _ => true
  | .settling _ _ => true
  | _ => false

/-- the engine has closed the gate for a Recording that is not over -/
def Phase.engaged : Phase → Bool
  | .starting _ => true
  | phase => phase.live

/-- no caller takes a token while the engine is engaged -/
def Desk.allows (d : Desk) (event : DeskEvent) : Bool :=
  event ≠ .begin || d.checked = 0 || !d.system.phase.engaged

def Desk.allowsAll (d : Desk) : List DeskEvent → Bool
  | [] => true
  | event :: events => d.allows event && (d.step event).allowsAll events

/-! ## the engine's part -/

theorem session_append (log : List Seen) (more : List Seen) :
    session (log ++ more) = more.foldl sessionStep (session log) :=
  List.foldl_append

/-- the session over the happenings of the engine -/
def sessionOver (on : Bool) (news : List Happening) : Bool :=
  (news.map Seen.real).foldl sessionStep on

/-- the happenings take the session along with the phase, and a Recording that starts closes the gate -/
structure Follows (phase phase' : Phase) (news : List Happening) : Prop where
  session : sessionOver phase.live news = phase'.live
  engaged : phase'.engaged = true → phase.engaged = true ∨ Happening.previewEnded ∈ news

theorem follows_refl (phase : Phase) : Follows phase phase [] := ⟨rfl, .inl⟩

theorem follows_fail {phase phase' : Phase} {error : BoundaryError} {news : List Happening}
    (hnews : ∀ on, sessionOver on news = on) (hlive : phase'.live = false)
    (hengaged : phase'.engaged = false) : Follows phase phase' (fail error :: news) := by
  refine ⟨?_, fun h => by rw [hengaged] at h; cases h⟩
  have hfail : ∀ on, sessionStep on (.real (fail error)) = false := by
    intro on
    rcases fail_eq error with h | h <;> rw [h] <;> rfl
  show (news.map Seen.real).foldl sessionStep (sessionStep phase.live (.real (fail error))) = _
  rw [hfail, hlive]
  exact hnews false

theorem follows_works (phase : Phase) (answer : Answer) :
    Follows phase (works phase answer).1 (works phase answer).2 := by
  unfold works
  split
  case h_3 => exact follows_fail (fun _ => rfl) rfl rfl
  case h_5 => exact follows_fail (fun _ => rfl) rfl rfl
  case h_9 =>
    split
    · exact ⟨rfl, fun _ => .inl rfl⟩
    · exact ⟨rfl, fun _ => .inl rfl⟩
  case h_12 => exact follows_fail (fun _ => rfl) rfl rfl
  case h_17 => exact follows_fail (fun _ => rfl) rfl rfl
  case h_20 => exact ⟨rfl, nofun⟩
  case h_21 => exact follows_refl phase
  all_goals exact ⟨rfl, fun _ => .inl rfl⟩

theorem follows_receives (phase : Phase) (action : Action) :
    Follows phase (receives phase action).1 (receives phase action).2 := by
  unfold receives
  split
  case h_1 => exact ⟨rfl, fun _ => .inr (by simp)⟩
  case h_2 =>
    refine ⟨?_, fun _ => .inl rfl⟩
    split <;> rfl
  case h_3 =>
    split
    · exact ⟨rfl, fun _ => .inl rfl⟩
    · exact follows_refl _
  case h_4 =>
    split
    · exact ⟨rfl, fun _ => .inl rfl⟩
    · exact follows_refl _
  case h_7 => exact ⟨rfl, nofun⟩
  case h_8 => exact follows_refl phase
  all_goals exact ⟨rfl, fun _ => .inl rfl⟩

theorem sessionOver_commands (on : Bool) (actions : List Action) (now : Nat) :
    sessionOver on (actions.map fun action => .emitted action now) = on := by
  induction actions with
  | nil => rfl
  | cons action actions ih => exact ih

/-- what a step of the two sides adds to the record -/
theorem step_follows {s s' : System} {event : Event} (hstep : s.Steps event s') :
    ∃ news, s'.log = s.log ++ news ∧ Follows s.phase s'.phase news := by
  cases hstep with
  | stay => exact ⟨[], (List.append_nil _).symm, follows_refl _⟩
  | signal => exact ⟨[], (List.append_nil _).symm, follows_refl _⟩
  | @read input inputs =>
    cases input with
    | chord signal now => exact ⟨_, rfl, sessionOver_commands _ _ _, .inl⟩
    | ended id => exact ⟨[.forgot id], rfl, rfl, .inl⟩
  | timer => exact ⟨_, rfl, sessionOver_commands _ _ _, .inl⟩
  | send => exact ⟨[], (List.append_nil _).symm, follows_refl _⟩
  | @receive action =>
    have h := follows_receives s.phase action
    refine ⟨.received action :: (receives s.phase action).2, ?_, h.session, ?_⟩
    · show s.log ++ [.received action] ++ (receives s.phase action).2 = _
      rw [List.append_assoc]
      rfl
    · intro hengaged
      rcases h.engaged hengaged with hold | hnew
      · exact .inl hold
      · exact .inr (List.mem_cons_of_mem _ hnew)
  | work answer => exact ⟨_, rfl, follows_works s.phase answer⟩

/-! ## the invariant -/

structure Apart (d : Desk) : Prop where
  session : session d.log = d.system.phase.live
  closed : d.system.phase.engaged = true → d.gate.running = false
  isolated : Isolated d.log

theorem engaged_of_live {phase : Phase} (h : phase.live = true) : phase.engaged = true := by
  cases phase <;> first | exact h | rfl

theorem apart_initial : Apart Desk.initial where
  session := rfl
  closed := fun _ => rfl
  isolated := by
    intro before fake after heq
    cases before with
    | nil => cases heq
    | cons x before => simp [Desk.initial] at heq

theorem Isolated.append_real {log : List Seen} (h : Isolated log) (news : List Happening) :
    Isolated (log ++ news.map Seen.real) := by
  intro before fake after heq
  rcases List.append_eq_append_iff.mp heq with ⟨rest, -, hrest⟩ | ⟨rest, hlog, hrest⟩
  · have hmem : Seen.fake fake ∈ news.map Seen.real := by
      rw [hrest]
      simp
    simp at hmem
  · cases rest with
    | nil =>
      rw [List.nil_append] at hrest
      have hmem : Seen.fake fake ∈ news.map Seen.real := by
        rw [← hrest]
        exact List.mem_cons_self
      simp at hmem
    | cons x rest =>
      obtain ⟨rfl, -⟩ : Seen.fake fake = x ∧ _ := List.cons.inj hrest
      exact h before fake rest hlog

theorem Isolated.append_fake {log : List Seen} (h : Isolated log) (hsession : session log = false)
    (fake : Fake) : Isolated (log ++ [.fake fake]) := by
  intro before other after heq
  rcases List.append_eq_append_iff.mp heq with ⟨rest, hbefore, hrest⟩ | ⟨rest, hlog, hrest⟩
  · cases rest with
    | nil =>
      rw [hbefore, List.append_nil]
      exact hsession
    | cons x rest => simp at hrest
  · cases rest with
    | nil =>
      rw [List.append_nil] at hlog
      rw [← hlog]
      exact hsession
    | cons x rest =>
      obtain ⟨rfl, -⟩ : Seen.fake other = x ∧ _ := List.cons.inj hrest
      exact h before other rest hlog

section
variable {d : Desk}

theorem Apart.systemStep (h : Apart d) (event : Event) : Apart (d.systemStep event) := by
  obtain ⟨news, hlog, hfollows⟩ := step_follows (d.system.steps event)
  have hnews : (d.system.step event).log.drop d.system.log.length = news := by
    rw [hlog, List.drop_left]
  unfold Desk.systemStep
  dsimp only
  rw [hnews]
  refine ⟨?_, ?_, h.isolated.append_real news⟩
  · show WindowsApp.session (d.log ++ news.map Seen.real) = _
    rw [session_append, h.session]
    exact hfollows.session
  · intro hengaged
    show (if Happening.previewEnded ∈ news then d.gate.ends else d.gate).running = false
    split
    · rfl
    · rename_i hnot
      rcases hfollows.engaged hengaged with hold | hnew
      · exact h.closed hold
      · exact absurd hnew hnot

theorem Apart.playStep (h : Apart d) (index : Nat) (more : Bool) : Apart (d.playStep index more) := by
  unfold Desk.playStep
  split
  · exact h
  · split
    · split
      · rename_i hcurrent
        have hrunning : d.gate.running = true := (Bool.and_eq_true_iff.mp hcurrent).1
        have hfree : d.system.phase.engaged ≠ true := by
          intro hengaged
          rw [h.closed hengaged] at hrunning
          cases hrunning
        have hsession : WindowsApp.session d.log = false := by
          rw [h.session]
          exact Bool.eq_false_iff.mpr fun hlive => hfree (engaged_of_live hlive)
        refine ⟨?_, h.closed, h.isolated.append_fake hsession _⟩
        show WindowsApp.session (d.log ++ [.fake _]) = _
        rw [session_append]
        exact h.session
      · exact ⟨h.session, h.closed, h.isolated⟩
    · split
      · refine ⟨h.session, ?_, h.isolated⟩
        intro hengaged
        show (d.gate.finish _).running = false
        unfold PreviewGate.finish
        split
        · rfl
        · exact h.closed hengaged
      · exact h

theorem Apart.step (h : Apart d) {event : DeskEvent} (hallows : d.allows event = true) :
    Apart (d.step event) := by
  cases event with
  | system event => exact h.systemStep event
  | main =>
    show Apart d.mainStep
    unfold Desk.mainStep
    split
    · exact h
    · exact ⟨h.session, h.closed, h.isolated⟩
    · exact ⟨h.session, h.closed, h.isolated⟩
  | timer generation =>
    unfold Desk.step
    dsimp only
    split
    · exact ⟨h.session, h.closed, h.isolated⟩
    · exact h
  | check =>
    unfold Desk.step
    dsimp only
    split
    · exact h
    · exact ⟨h.session, h.closed, h.isolated⟩
  | begin =>
    unfold Desk.step
    dsimp only
    split
    · exact h
    · rename_i hchecked
      have hfree : d.system.phase.engaged = false := by simpa [Desk.allows, hchecked] using hallows
      refine ⟨h.session, ?_, h.isolated⟩
      intro hengaged
      rw [show d.system.phase.engaged = true from hengaged] at hfree
      cases hfree
  | play index more => exact h.playStep index more

theorem Apart.run (h : Apart d) (events : List DeskEvent) (hall : d.allowsAll events = true) :
    Apart (d.run events) := by
  induction events generalizing d with
  | nil => exact h
  | cons event events ih =>
    obtain ⟨hallows, hrest⟩ := Bool.and_eq_true_iff.mp hall
    exact ih (h.step hallows) hrest

end

/-- **a run in which no preview takes its token while the engine has a Recording shows no fake event
between a real `recording` and its terminal state** -/
theorem run_isolated (events : List DeskEvent) (h : Desk.initial.allowsAll events = true) :
    Isolated (Desk.initial.run events).log :=
  (apart_initial.run events h).isolated

/-- a preview that a real Recording interrupts -/
def interruptedPreview : List DeskEvent :=
  [.check, .begin, .play 0 true, .play 0 true, .system (.signal .pressed 0), .system .read,
   .system .send, .system .receive, .play 0 true, .system (.work (.keys true)), .play 0 true, .main,
   .main, .main, .check, .begin]

theorem run_isolated_interrupted :
    Desk.initial.allowsAll interruptedPreview = true ∧
      Isolated (Desk.initial.run interruptedPreview).log ∧
      Seen.real (.state .recording) ∈ (Desk.initial.run interruptedPreview).log ∧
      Seen.fake .level ∈ (Desk.initial.run interruptedPreview).log := by
  have hall : Desk.initial.allowsAll interruptedPreview = true := by decide
  exact ⟨hall, run_isolated interruptedPreview hall, by decide, by decide⟩

/-- the check passes, a Recording starts, and only then the token is taken -/
def lateBegin : List DeskEvent :=
  [.check, .system (.signal .pressed 0), .system .read, .system .send, .system .receive,
   .system (.work (.keys true)), .begin, .play 0 true]

theorem lateBegin_fake : ¬ Isolated (Desk.initial.run lateBegin).log := by
  intro h
  have hlog : (Desk.initial.run lateBegin).log =
      (Desk.initial.run lateBegin).log.take 6 ++ .fake (.state .recording) :: [] := by
    decide
  exact absurd (h _ _ _ hlog) (by decide)

end Voisu.WindowsApp
