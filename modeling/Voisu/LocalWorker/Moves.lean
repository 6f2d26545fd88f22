import Voisu.LocalWorker.Supervisor

/-!
# What a call to the supervisor can do

Every call ends in one of a few ways, whichever of its exits it takes: nothing is heard of the child,
a child is attached, an exchange is made and perhaps followed by a reap, or a reap is made.

* `Ends`         how an exchange that is over can leave the supervisor;
* `Moves`        what a call can do to the log, the child and the state;
* `run_moves`    **every call is one of these moves**.
-/

namespace Voisu.LocalWorker
open Lib LocalGate

/-! ## what a call can do -/

/-- the supervisor and its child after a reap with the outcome given -/
def ReapedTo {C : Type} (s : WorkerSupervisor C) (outcome : ReapOutcome) : Prop :=
  if outcome = .unreaped then s.child.isSome ∧ s.state = .unavailable
  else s.child = none ∧ (s.state = .absent ∨ s.state = .unavailable)

/-- which exchange a call makes, and from which states -/
inductive Sends {C : Type} (s : WorkerSupervisor C) : Call C → ControlFrame → Prop where
  | prepare (correlation : Correlation) (clock : Clock) (hbusy : s.state ≠ .busy)
      (hstopping : s.state ≠ .stopping) :
      Sends s (.prepare correlation clock) (.prepare correlation)
  | transcribe (request : TranscribeRequest) (clock : Clock) (hready : s.state = .ready) :
      Sends s (.transcribe request clock) (.transcribe request.correlation request.pcm.length)

inductive Moves {C : Type} (s s' : WorkerSupervisor C) (call : Call C) : Prop where
  | quiet (hlog : s'.log = s.log) (hchild : s'.child.isSome = s.child.isSome)
      (hstate : s'.state = s.state ∨ s'.state = .unavailable ∨
        (s.child = none ∧ s'.state = .absent))
  | attach (hnone : s.child = none) (hlog : s'.log = s.log ++ [Event.attached])
      (hchild : s'.child.isSome) (hstate : s'.state = .ready ∨ s'.state = .loading)
  | exchange (control : ControlFrame) (reply : Except SupervisorError WorkerFrame)
      (hsome : s.child.isSome) (hsends : Sends s call control)
      (hlog : s'.log = s.log ++ [Event.exchanged control reply]) (hchild : s'.child.isSome)
      (hstate : s'.state = .ready ∨ s'.state = .unavailable)
  | exchangeReap (control : ControlFrame) (reply : Except SupervisorError WorkerFrame)
      (outcome : ReapOutcome) (hsome : s.child.isSome) (hsends : Sends s call control)
      (hlog : s'.log = s.log ++ [Event.exchanged control reply, .reaped outcome])
      (hreaped : ReapedTo s' outcome)
  | reap (outcome : ReapOutcome) (hsome : s.child.isSome)
      (hlog : s'.log = s.log ++ [Event.reaped outcome]) (hreaped : ReapedTo s' outcome)
  | reapFailed (error : SupervisorError) (hsome : s.child.isSome)
      (hlog : s'.log = s.log ++ [Event.reapFailed error]) (hchild : s'.child.isSome)
      (hstate : s'.state = s.state ∨ s'.state = .stopping)

section
variable {C : Type} (ops : WorkerChild C) (s : WorkerSupervisor C)

theorem applyReap_spec (hsome : s.child.isSome) (outcome : ReapOutcome) :
    (s.applyReap outcome).log = s.log ∧ ReapedTo (s.applyReap outcome) outcome := by
  cases outcome with
  | exited => exact ⟨rfl, rfl, Or.inl rfl⟩
  | killed => exact ⟨rfl, rfl, Or.inl rfl⟩
  | unreaped => exact ⟨rfl, hsome, rfl⟩

theorem seen_applyReap (child : C) (outcome : ReapOutcome) :
    ((s.seen child (.reaped outcome)).applyReap outcome).log = s.log ++ [Event.reaped outcome] ∧
      ReapedTo ((s.seen child (.reaped outcome)).applyReap outcome) outcome :=
  applyReap_spec (s.seen child (.reaped outcome)) rfl outcome

theorem reapOrUnreaped_spec {s : WorkerSupervisor C} (hsome : s.child.isSome) : ∃ outcome,
    (s.reapOrUnreaped ops).log = s.log ++ [Event.reaped outcome] ∧
      ReapedTo (s.reapOrUnreaped ops) outcome := by
  obtain ⟨child, hchild⟩ := Option.isSome_iff_exists.mp hsome
  unfold WorkerSupervisor.reapOrUnreaped
  rw [hchild]
  exact ⟨_, seen_applyReap s _ _⟩

theorem failAndReap_spec {s : WorkerSupervisor C} (hsome : s.child.isSome) (error : SupervisorError) :
    ∃ outcome, (s.failAndReap ops error).1.log = s.log ++ [Event.reaped outcome] ∧
      ReapedTo (s.failAndReap ops error).1 outcome := by
  obtain ⟨outcome, hlog, hreaped⟩ := reapOrUnreaped_spec ops hsome
  refine ⟨outcome, hlog, ?_⟩
  cases outcome with
  | exited => exact ⟨hreaped.1, Or.inr rfl⟩
  | killed => exact ⟨hreaped.1, Or.inr rfl⟩
  | unreaped => exact ⟨hreaped.1, rfl⟩

/-- what has been heard of the child since `s`: nothing more, or the outcome of a reap -/
inductive Ends (s s' : WorkerSupervisor C) : Prop where
  | kept (hlog : s'.log = s.log) (hchild : s'.child.isSome)
      (hstate : s'.state = .ready ∨ s'.state = .unavailable)
  | reaped (outcome : ReapOutcome) (hlog : s'.log = s.log ++ [Event.reaped outcome])
      (hreaped : ReapedTo s' outcome)

variable {s}

theorem concludeExchange_cases (hsome : s.child.isSome) (result : Except SupervisorError WorkerFrame)
    (late : Bool) {onProtocol : WorkerState} (hon : onProtocol = .ready ∨ onProtocol = .unavailable) :
    (∃ frame, result = .ok frame ∧ s.concludeExchange ops result late onProtocol = (s, .ok frame)) ∨
    ∃ s' error, s.concludeExchange ops result late onProtocol = (s', .error error) ∧ Ends s s' := by
  have htimeout : Ends s (s.timeoutAndReap ops).1 := by
    obtain ⟨outcome, hlog, hreaped⟩ := reapOrUnreaped_spec ops hsome
    exact .reaped outcome hlog hreaped
  have hfail (error : SupervisorError) : Ends s (s.failAndReap ops error).1 := by
    obtain ⟨outcome, hlog, hreaped⟩ := failAndReap_spec ops hsome error
    exact .reaped outcome hlog hreaped
  unfold WorkerSupervisor.concludeExchange
  split
  · exact Or.inr ⟨_, _, rfl, htimeout⟩
  · split
    · exact Or.inl ⟨_, rfl, rfl⟩
    · exact Or.inr ⟨_, _, rfl, htimeout⟩
    · exact Or.inr ⟨_, _, rfl, .kept rfl hsome hon⟩
    · exact Or.inr ⟨_, _, rfl, hfail _⟩
    · exact Or.inr ⟨_, _, rfl, hfail _⟩
    · exact Or.inr ⟨_, _, rfl, hfail _⟩
    · exact Or.inr ⟨_, _, rfl, .kept rfl hsome (Or.inr rfl)⟩

theorem mapWorkerError_ends (hsome : s.child.isSome) (code : Text) (metadata : List (Text × Value))
    {unknown : WorkerState} (hunknown : unknown = .ready ∨ unknown = .unavailable) :
    Ends s (s.mapWorkerError ops code metadata unknown).1 := by
  have hfail (error : SupervisorError) : Ends s (s.failAndReap ops error).1 := by
    obtain ⟨outcome, hlog, hreaped⟩ := failAndReap_spec ops hsome error
    exact .reaped outcome hlog hreaped
  unfold WorkerSupervisor.mapWorkerError
  split
  · exact hfail _
  · split
    · exact hfail _
    · split
      · exact hfail _
      · exact .kept rfl hsome hunknown

theorem settle_ends (hsome : s.child.isSome) (request : TranscribeRequest) (frame : WorkerFrame) :
    Ends s (s.settle ops request frame).1 := by
  cases frame with
  | ready got observedDevice => exact .kept rfl hsome (Or.inl rfl)
  | error code metadata => exact mapWorkerError_ends ops hsome code metadata (Or.inl rfl)
  | transcript got text =>
    simp only [WorkerSupervisor.settle]
    split
    · exact .kept rfl hsome (Or.inl rfl)
    · exact .kept rfl hsome (Or.inl rfl)
  | noText got reason =>
    simp only [WorkerSupervisor.settle]
    split
    · exact .kept rfl hsome (Or.inl rfl)
    · exact .kept rfl hsome (Or.inl rfl)

/-- an exchange and what follows it -/
theorem Ends.moves {t s' : WorkerSupervisor C} {call : Call C} {control : ControlFrame}
    {reply : Except SupervisorError WorkerFrame} (hsome : s.child.isSome)
    (hsends : Sends s call control) (ht : t.log = s.log ++ [Event.exchanged control reply])
    (h : Ends t s') : Moves s s' call := by
  cases h with
  | kept hlog hchild hstate => exact .exchange control reply hsome hsends (hlog.trans ht) hchild hstate
  | reaped outcome hlog hreaped =>
    refine .exchangeReap control reply outcome hsome hsends ?_ hreaped
    rw [hlog, ht, List.append_assoc]
    rfl

variable (s)

theorem attach_moves (child : C) (now : Nat) {state : WorkerState}
    (hstate : state = .ready ∨ state = .loading) (call : Call C) :
    Moves s (s.attach child now state).1 call := by
  unfold WorkerSupervisor.attach
  split
  · exact .quiet rfl rfl (Or.inl rfl)
  · rename_i hnone
    split
    · exact .quiet rfl rfl (Or.inl rfl)
    · exact .attach (by simpa using hnone) rfl rfl hstate

/-- a reap that a call makes; `busy` and `stopping` are the states it may pass through -/
theorem reap_cases : (s.child = none ∧ (s.reap ops).1 = s.applyReap .exited) ∨
    (∃ outcome, s.child.isSome ∧ (s.reap ops).2 = .ok outcome ∧
      (s.reap ops).1.log = s.log ++ [Event.reaped outcome] ∧ ReapedTo (s.reap ops).1 outcome) ∨
    ∃ error, s.child.isSome ∧ (s.reap ops).2 = .error error ∧
      (s.reap ops).1.log = s.log ++ [Event.reapFailed error] ∧ (s.reap ops).1.child.isSome ∧
      (s.reap ops).1.state = s.state := by
  unfold WorkerSupervisor.reap
  cases hchild : s.child with
  | none => exact Or.inl ⟨rfl, rfl⟩
  | some child =>
    refine Or.inr ?_
    rcases hreap : ops.cancelAndReap child with ⟨error | outcome, next⟩
    · simp only [hreap]
      exact Or.inr ⟨error, rfl, rfl, rfl, rfl, rfl⟩
    · simp only [hreap]
      obtain ⟨hlog, hreaped⟩ := seen_applyReap s next outcome
      exact Or.inl ⟨outcome, rfl, rfl, hlog, hreaped⟩

theorem unloadIdle_moves (call : Call C) : Moves s (s.unloadIdle ops).1 call := by
  unfold WorkerSupervisor.unloadIdle
  split
  · exact .quiet rfl rfl (Or.inl rfl)
  · split
    · exact .quiet rfl rfl (Or.inl rfl)
    · rcases reap_cases ops s with ⟨hnone, hreap⟩ | ⟨outcome, hsome, -, hlog, hreaped⟩ |
        ⟨error, hsome, -, hlog, hchild, hstate⟩
      · rw [hreap]
        exact .quiet rfl (by rw [hnone]; rfl) (Or.inr (Or.inr ⟨hnone, rfl⟩))
      · exact .reap outcome hsome hlog hreaped
      · exact .reapFailed error hsome hlog hchild (Or.inl hstate)

theorem cancel_moves (call : Call C) : Moves s (s.cancel ops).1 call := by
  unfold WorkerSupervisor.cancel
  rcases reap_cases ops { s with state := .stopping } with ⟨hnone, hreap⟩ |
    ⟨outcome, hsome, -, hlog, hreaped⟩ | ⟨error, hsome, -, hlog, hchild, hstate⟩
  · rw [hreap]
    have hnone : s.child = none := hnone
    exact .quiet rfl (by rw [hnone]; rfl) (Or.inr (Or.inr ⟨hnone, rfl⟩))
  · exact .reap outcome hsome hlog hreaped
  · exact .reapFailed error hsome hlog hchild (Or.inr hstate)

theorem drainForSwitch_moves (call : Call C) : Moves s (s.drainForSwitch ops).1 call := by
  unfold WorkerSupervisor.drainForSwitch
  split
  · exact .quiet rfl rfl (Or.inl rfl)
  · rename_i hbusy
    split
    · exact .quiet rfl rfl (Or.inl rfl)
    · rename_i hunreaped
      have hunload : s.unloadIdle ops = s.reap ops := by
        rw [WorkerSupervisor.unloadIdle, if_neg hbusy, if_neg hunreaped]
      have hmoves := unloadIdle_moves ops s call
      split
      · rename_i heq
        rwa [heq] at hmoves
      · rename_i t outcome heq
        split
        · rename_i hsome
          rw [hunload] at heq
          rcases reap_cases ops s with ⟨-, hreap⟩ | ⟨reported, hchild, -, hlog, hreaped⟩ |
            ⟨error, -, herror, -⟩
          · rw [heq] at hreap
            rw [show t = s.applyReap .exited from hreap] at hsome
            exact absurd hsome (by simp [WorkerSupervisor.applyReap])
          · rw [heq] at hlog hreaped
            refine .reap reported hchild hlog ?_
            cases reported with
            | exited => exact ⟨hreaped.1, Or.inr rfl⟩
            | killed => exact ⟨hreaped.1, Or.inr rfl⟩
            | unreaped => exact ⟨hreaped.1, rfl⟩
          · rw [heq] at herror
            cases herror
        · rwa [heq] at hmoves

/-- a `prepare` that finds a child and no other call talks to it -/
theorem prepare_exchange {correlation : Correlation} {clock : Clock}
    (hidle : ¬ (s.state = .busy ∨ s.state = .stopping)) (hsome : s.child.isSome) : ∃ t reply,
    t.log = s.log ++ [Event.exchanged (.prepare correlation) reply] ∧
      Ends t (s.prepare ops correlation clock).1 := by
  obtain ⟨child, hchild⟩ := Option.isSome_iff_exists.mp hsome
  rw [WorkerSupervisor.prepare, if_neg hidle, hchild]
  dsimp only
  generalize hreply : ops.exchange child (.prepare correlation) none _ = reply
  generalize ht : WorkerSupervisor.seen _ reply.2 _ = t
  have htsome : t.child.isSome := by rw [← ht]; rfl
  refine ⟨t, reply.1, by rw [← ht]; rfl, ?_⟩
  rcases concludeExchange_cases ops htsome reply.1
    (decide (clock.now + loadDeadlineMs < clock.replied)) (Or.inr rfl) with
    ⟨frame, -, heq⟩ | ⟨s', error, heq, hends⟩
  · rw [heq]
    cases frame with
    | ready got observedDevice =>
      dsimp only
      split
      · exact .kept rfl htsome (Or.inr rfl)
      · exact .kept rfl htsome (Or.inl rfl)
    | error code metadata => exact mapWorkerError_ends ops htsome code metadata (Or.inr rfl)
    | transcript got text => exact .kept rfl htsome (Or.inr rfl)
    | noText got reason => exact .kept rfl htsome (Or.inr rfl)
  · rw [heq]
    exact hends

theorem prepare_moves (correlation : Correlation) (clock : Clock) :
    Moves s (s.prepare ops correlation clock).1 (.prepare correlation clock) := by
  by_cases hidle : s.state = .busy ∨ s.state = .stopping
  · rw [WorkerSupervisor.prepare, if_pos hidle]
    exact .quiet rfl rfl (Or.inl rfl)
  · cases hchild : s.child with
    | none =>
      rw [WorkerSupervisor.prepare, if_neg hidle, hchild]
      exact .quiet rfl rfl (Or.inl rfl)
    | some child =>
      have hsome : s.child.isSome := by rw [hchild]; rfl
      obtain ⟨t, reply, htlog, hends⟩ :=
        @prepare_exchange C ops s correlation clock hidle hsome
      exact Ends.moves hsome
        (.prepare correlation clock (fun h => hidle (Or.inl h)) (fun h => hidle (Or.inr h)))
        htlog hends

theorem transcribe_moves (request : TranscribeRequest) (clock : Clock) :
    Moves s (s.transcribe ops request clock).1 (.transcribe request clock) := by
  unfold WorkerSupervisor.transcribe
  split
  · exact .quiet rfl rfl (Or.inl rfl)
  · rename_i hready
    split
    · exact .quiet rfl rfl (Or.inl rfl)
    · split
      · exact .quiet rfl rfl (Or.inl rfl)
      · cases hchild : s.child with
        | none => exact .quiet rfl rfl (Or.inl rfl)
        | some child =>
          have hsome : s.child.isSome := by rw [hchild]; rfl
          have hsends := Sends.transcribe (s := s) request clock (by simpa using hready)
          dsimp only
          generalize hreply : ops.exchange child _ _ _ = reply
          generalize ht : WorkerSupervisor.seen _ reply.2 _ = t
          have htsome : t.child.isSome := by rw [← ht]; rfl
          have htlog : t.log = s.log ++ [Event.exchanged
              (.transcribe request.correlation request.pcm.length) reply.1] := by rw [← ht]; rfl
          rcases concludeExchange_cases ops htsome reply.1
            (decide (clock.now + stopProcessingMs < clock.replied)) (Or.inl rfl) with
            ⟨frame, -, heq⟩ | ⟨s', error, heq, hends⟩
          · rw [heq]
            exact Ends.moves hsome hsends htlog (settle_ends ops htsome request frame)
          · rw [heq]
            exact Ends.moves hsome hsends htlog hends

/-- **what a call can do** -/
theorem run_moves (call : Call C) : Moves s (call.run ops s).1 call := by
  cases call with
  | attachReady child now => exact attach_moves s child now (Or.inl rfl) _
  | attachPending child now => exact attach_moves s child now (Or.inr rfl) _
  | prepare correlation clock => exact prepare_moves ops s correlation clock
  | transcribe request clock => exact transcribe_moves ops s request clock
  | cancel => exact cancel_moves ops s _
  | unloadIdle => exact unloadIdle_moves ops s _
  | drainForSwitch => exact drainForSwitch_moves ops s _
  | markUnavailable => exact .quiet rfl rfl (Or.inr (Or.inl rfl))

end

end Voisu.LocalWorker
