import Mathlib.Data.List.Induction
import Voisu.LocalWorker.Moves

/-!
# Runs of the supervisor

* `OneChild`, `Settled`    **the invariants of every run**;
* `NoWorkToUnreaped`       no exchange reaches a child behind a report that it could not be reaped;
* `noWorkToUnreaped_iff`   that holds just when `prepare` is never called on such a child;
* `runCalls_supervised`    the laws of a run together.
-/

namespace Voisu.LocalWorker
open Lib LocalGate

/-! ## the log -/

/-- a child is attached only where none is, and is heard of only while it is; `held` says whether one
is attached before the events, the last argument whether one is behind them -/
inductive OneChild : Bool → List Event → Bool → Prop
  | nil (held : Bool) : OneChild held [] held
  | attached {log : List Event} {held : Bool} (h : OneChild true log held) :
      OneChild false (.attached :: log) held
  | exchanged {log : List Event} {held : Bool} (control : ControlFrame)
      (reply : Except SupervisorError WorkerFrame) (h : OneChild true log held) :
      OneChild true (.exchanged control reply :: log) held
  | unreaped {log : List Event} {held : Bool} (h : OneChild true log held) :
      OneChild true (.reaped .unreaped :: log) held
  | reaped {log : List Event} {held : Bool} {outcome : ReapOutcome} (hgone : outcome ≠ .unreaped)
      (h : OneChild false log held) : OneChild true (.reaped outcome :: log) held
  | reapFailed {log : List Event} {held : Bool} (error : SupervisorError) (h : OneChild true log held) :
      OneChild true (.reapFailed error :: log) held

theorem OneChild.append {a b c : Bool} {l m : List Event} (h : OneChild a l b) (h' : OneChild b m c) :
    OneChild a (l ++ m) c := by
  induction h with
  | nil => exact h'
  | attached _ ih => exact .attached (ih h')
  | exchanged control reply _ ih => exact .exchanged control reply (ih h')
  | unreaped _ ih => exact .unreaped (ih h')
  | reaped hgone _ ih => exact .reaped hgone (ih h')
  | reapFailed error _ ih => exact .reapFailed error (ih h')

/-- behind a report of an unreaped child no exchange reaches it before a reap succeeds -/
def NoWorkToUnreaped (log : List Event) : Prop :=
  ∀ l₁ l₂ l₃ control reply,
    log = l₁ ++ .reaped .unreaped :: (l₂ ++ .exchanged control reply :: l₃) →
    ∃ outcome, outcome ≠ .unreaped ∧ .reaped outcome ∈ l₂

def Event.unreapedAfter (flag : Bool) : Event → Bool
  | .reaped outcome => outcome == .unreaped
  | _ => flag

/-- the last reap has reported the child unreaped -/
def unreaped (log : List Event) : Bool := log.foldl Event.unreapedAfter false

theorem unreaped_snoc (log : List Event) (e : Event) :
    unreaped (log ++ [e]) = e.unreapedAfter (unreaped log) := by
  rw [unreaped, List.foldl_append]
  rfl

theorem unreaped_iff (log : List Event) : unreaped log = true ↔
    ∃ l₁ l₂, log = l₁ ++ .reaped .unreaped :: l₂ ∧
      ∀ outcome, .reaped outcome ∈ l₂ → outcome = .unreaped := by
  induction log using List.reverseRecOn with
  | nil => simp [unreaped]
  | append_singleton log e ih =>
    rw [unreaped_snoc]
    constructor
    · intro h
      cases e with
      | reaped outcome =>
        obtain rfl : outcome = .unreaped := by simpa [Event.unreapedAfter] using h
        exact ⟨log, [], rfl, by simp⟩
      | attached =>
        obtain ⟨l₁, l₂, hlog, hl₂⟩ := ih.mp h
        exact ⟨l₁, l₂ ++ [Event.attached], by rw [hlog]; simp, by simpa using hl₂⟩
      | exchanged control reply =>
        obtain ⟨l₁, l₂, hlog, hl₂⟩ := ih.mp h
        exact ⟨l₁, l₂ ++ [Event.exchanged control reply], by rw [hlog]; simp, by simpa using hl₂⟩
      | reapFailed error =>
        obtain ⟨l₁, l₂, hlog, hl₂⟩ := ih.mp h
        exact ⟨l₁, l₂ ++ [Event.reapFailed error], by rw [hlog]; simp, by simpa using hl₂⟩
    · rintro ⟨l₁, l₂, hlog, hl₂⟩
      rcases List.eq_nil_or_concat l₂ with rfl | ⟨l₂, e', rfl⟩
      · obtain ⟨-, he⟩ := List.append_inj' hlog rfl
        obtain rfl : e = .reaped .unreaped := by simpa using he
        rfl
      · rw [List.concat_eq_append] at hlog hl₂
        have hsplit : log ++ [e] = (l₁ ++ .reaped .unreaped :: l₂) ++ [e'] := by rw [hlog]; simp
        obtain ⟨rfl, he⟩ := List.append_inj' hsplit rfl
        obtain rfl : e = e' := by simpa using he
        have hbefore : unreaped (l₁ ++ .reaped .unreaped :: l₂) = true :=
          ih.mpr ⟨l₁, l₂, rfl, fun outcome h => hl₂ outcome (by simp [h])⟩
        cases e with
        | reaped outcome =>
          rw [hl₂ outcome (by simp)]
          rfl
        | attached => exact hbefore
        | exchanged control reply => exact hbefore
        | reapFailed error => exact hbefore

theorem OneChild.held {a b : Bool} {log : List Event} (h : OneChild a log b) {flag : Bool}
    (hflag : flag = true → a = true) (hlog : log.foldl Event.unreapedAfter flag = true) : b = true := by
  induction h generalizing flag with
  | nil held => exact hflag hlog
  | attached _ ih => exact ih (fun _ => rfl) hlog
  | exchanged control reply _ ih => exact ih (fun _ => rfl) hlog
  | unreaped _ ih => exact ih (fun _ => rfl) hlog
  | @reaped log held outcome hgone _ ih =>
    refine ih (fun h => ?_) hlog
    exact absurd (by simpa [Event.unreapedAfter] using h) hgone
  | reapFailed error _ ih => exact ih (fun _ => rfl) hlog

def Event.isExchange : Event → Bool
  | .exchanged .. => true
  | _ => false

theorem noWork_snoc (log : List Event) (e : Event) : NoWorkToUnreaped (log ++ [e]) ↔
    NoWorkToUnreaped log ∧ (e.isExchange = true → unreaped log = false) := by
  constructor
  · intro h
    refine ⟨?_, ?_⟩
    · intro l₁ l₂ l₃ control reply hlog
      exact h l₁ l₂ (l₃ ++ [e]) control reply (by rw [hlog]; simp)
    · intro he
      rw [Bool.eq_false_iff]
      intro hunreaped
      obtain ⟨l₁, l₂, hlog, hl₂⟩ := (unreaped_iff log).mp hunreaped
      cases e with
      | exchanged control reply =>
        obtain ⟨outcome, hne, hmem⟩ := h l₁ l₂ [] control reply (by rw [hlog]; simp)
        exact hne (hl₂ outcome hmem)
      | attached => cases he
      | reaped outcome => cases he
      | reapFailed error => cases he
  · rintro ⟨h, he⟩ l₁ l₂ l₃ control reply hlog
    rcases List.eq_nil_or_concat l₃ with rfl | ⟨l₃, e', rfl⟩
    · have hsplit : log ++ [e] =
          (l₁ ++ .reaped .unreaped :: l₂) ++ [Event.exchanged control reply] := by
        rw [hlog]; simp
      obtain ⟨rfl, hlast⟩ := List.append_inj' hsplit rfl
      obtain rfl : e = .exchanged control reply := by simpa using hlast
      by_contra hnone
      have : unreaped (l₁ ++ .reaped .unreaped :: l₂) = true := by
        refine (unreaped_iff _).mpr ⟨l₁, l₂, rfl, fun outcome hmem => ?_⟩
        by_contra hne
        exact hnone ⟨outcome, hne, hmem⟩
      rw [he rfl] at this
      cases this
    · rw [List.concat_eq_append] at hlog
      have hsplit : log ++ [e] =
          (l₁ ++ .reaped .unreaped :: (l₂ ++ .exchanged control reply :: l₃)) ++ [e'] := by
        rw [hlog]; simp
      obtain ⟨rfl, -⟩ := List.append_inj' hsplit rfl
      exact h l₁ l₂ l₃ control reply rfl

/-! ## runs -/

section
variable {C : Type} (ops : WorkerChild C)

/-- what holds of the supervisor between two calls -/
structure Settled (s : WorkerSupervisor C) : Prop where
  oneChild : OneChild false s.log s.child.isSome
  attached : s.state = .ready ∨ s.state = .loading ∨ s.state = .busy → s.child.isSome
  notBusy : s.state ≠ .busy

/-- a child that is reported unreaped stays where no exchange can reach it -/
structure Guarded (s : WorkerSupervisor C) : Prop where
  clean : NoWorkToUnreaped s.log
  away : unreaped s.log = true → s.state = .unavailable ∨ s.state = .stopping

/-- `prepare` is called while the last reap has reported the child unreaped -/
def preparesUnreaped (s : WorkerSupervisor C) : Call C → Bool
  | .prepare .. => unreaped s.log && s.state == .unavailable
  | _ => false

theorem settled_absent : Settled (WorkerSupervisor.absent : WorkerSupervisor C) :=
  ⟨.nil false, fun h => absurd h (by simp [WorkerSupervisor.absent]), by
    simp [WorkerSupervisor.absent]⟩

theorem guarded_absent : Guarded (WorkerSupervisor.absent : WorkerSupervisor C) := by
  refine ⟨fun l₁ l₂ l₃ control reply h => ?_, fun h => by cases h⟩
  exact absurd h (by simp [WorkerSupervisor.absent])

variable {s s' : WorkerSupervisor C} {call : Call C}

/-- the invariants of the state a reap leaves -/
theorem ReapedTo.attached {outcome : ReapOutcome} (h : ReapedTo s outcome) :
    (s.state = .ready ∨ s.state = .loading ∨ s.state = .busy → s.child.isSome) ∧ s.state ≠ .busy := by
  cases outcome with
  | exited => rcases h with ⟨-, h | h⟩ <;> simp [h]
  | killed => rcases h with ⟨-, h | h⟩ <;> simp [h]
  | unreaped => simp [show s.state = .unavailable from h.2]

theorem ReapedTo.oneChild {outcome : ReapOutcome} (h : ReapedTo s outcome) :
    OneChild true [.reaped outcome] s.child.isSome := by
  cases outcome with
  | exited =>
    rw [show s.child = none from h.1]
    exact .reaped (by simp) (.nil false)
  | killed =>
    rw [show s.child = none from h.1]
    exact .reaped (by simp) (.nil false)
  | unreaped =>
    rw [show s.child.isSome = true from h.1]
    exact .unreaped (.nil true)

theorem Moves.settled (h : Moves s s' call) (hs : Settled s) : Settled s' := by
  obtain ⟨hone, hattached, hbusy⟩ := hs
  cases h with
  | quiet hlog hchild hstate =>
    refine ⟨by rw [hlog, hchild]; exact hone, ?_, ?_⟩
    · rcases hstate with h | h | ⟨-, h⟩
      · rw [h, hchild]
        exact hattached
      · simp [h]
      · simp [h]
    · rcases hstate with h | h | ⟨-, h⟩
      · rwa [h]
      · simp [h]
      · simp [h]
  | attach hnone hlog hchild hstate =>
    rw [hnone] at hone
    refine ⟨by rw [hlog, hchild]; exact hone.append (.attached (.nil true)), fun _ => hchild, ?_⟩
    rcases hstate with h | h <;> simp [h]
  | exchange control reply hsome hsends hlog hchild hstate =>
    rw [hsome] at hone
    refine ⟨?_, fun _ => hchild, ?_⟩
    · rw [hlog, hchild]
      exact hone.append (.exchanged control reply (.nil true))
    · rcases hstate with h | h <;> simp [h]
  | exchangeReap control reply outcome hsome hsends hlog hreaped =>
    rw [hsome] at hone
    refine ⟨?_, hreaped.attached.1, hreaped.attached.2⟩
    rw [hlog]
    exact hone.append (.exchanged control reply hreaped.oneChild)
  | reap outcome hsome hlog hreaped =>
    rw [hsome] at hone
    refine ⟨?_, hreaped.attached.1, hreaped.attached.2⟩
    rw [hlog]
    exact hone.append hreaped.oneChild
  | reapFailed error hsome hlog hchild hstate =>
    rw [hsome] at hone
    refine ⟨?_, fun _ => hchild, ?_⟩
    · rw [hlog, hchild]
      exact hone.append (.reapFailed error (.nil true))
    · rcases hstate with h | h
      · rwa [h]
      · simp [h]

/-- an unreaped child is still attached -/
theorem Settled.held (hs : Settled s) (h : unreaped s.log = true) : s.child.isSome :=
  hs.oneChild.held (fun h => h) h

/-- an exchange meets an unreaped child just when it is a `prepare` -/
theorem Sends.unreaped_iff {control : ControlFrame} (h : Sends s call control) (hs : Guarded s) :
    unreaped s.log = false ↔ preparesUnreaped s call = false := by
  cases h with
  | prepare correlation clock hbusy hstopping =>
    constructor
    · intro h
      simp [preparesUnreaped, h]
    · intro h
      by_contra hunreaped
      rw [Bool.not_eq_false] at hunreaped
      rcases hs.away hunreaped with hstate | hstate
      · simp [preparesUnreaped, hunreaped, hstate] at h
      · exact hstopping hstate
  | transcribe request clock hready =>
    refine ⟨fun _ => rfl, fun _ => ?_⟩
    by_contra hunreaped
    rcases hs.away (by simpa using hunreaped) with hstate | hstate
    · rw [hready] at hstate
      cases hstate
    · rw [hready] at hstate
      cases hstate

theorem NoWorkToUnreaped.of_append {l m : List Event} (h : NoWorkToUnreaped (l ++ m)) :
    NoWorkToUnreaped l := by
  intro l₁ l₂ l₃ control reply hl
  exact h l₁ l₂ (l₃ ++ m) control reply (by rw [hl]; simp)

/-- the state behind a reap, and the log with its report -/
theorem ReapedTo.guarded {outcome : ReapOutcome} (h : ReapedTo s' outcome) {log : List Event}
    (hlog : s'.log = log ++ [Event.reaped outcome]) (hclean : NoWorkToUnreaped log) : Guarded s' := by
  refine ⟨?_, fun hunreaped => ?_⟩
  · rw [hlog]
    exact (noWork_snoc _ _).mpr ⟨hclean, fun h => by cases h⟩
  · rw [hlog, unreaped_snoc] at hunreaped
    cases outcome with
    | exited => cases hunreaped
    | killed => cases hunreaped
    | unreaped => exact Or.inl h.2

theorem Moves.guarded (h : Moves s s' call) (hsettled : Settled s) (hs : Guarded s)
    (hcall : preparesUnreaped s call = false) : Guarded s' := by
  have hexchange {control : ControlFrame} (hsends : Sends s call control)
      (reply : Except SupervisorError WorkerFrame) :
      NoWorkToUnreaped (s.log ++ [Event.exchanged control reply]) :=
    (noWork_snoc _ _).mpr ⟨hs.clean, fun _ => (hsends.unreaped_iff hs).mpr hcall⟩
  cases h with
  | quiet hlog hchild hstate =>
    refine ⟨by rw [hlog]; exact hs.clean, fun hunreaped => ?_⟩
    rw [hlog] at hunreaped
    rcases hstate with h | h | ⟨hnone, h⟩
    · rw [h]
      exact hs.away hunreaped
    · exact Or.inl h
    · have := hsettled.held hunreaped
      rw [hnone] at this
      cases this
  | attach hnone hlog hchild hstate =>
    refine ⟨by rw [hlog]; exact (noWork_snoc _ _).mpr ⟨hs.clean, fun h => by cases h⟩, ?_⟩
    intro hunreaped
    rw [hlog, unreaped_snoc] at hunreaped
    have := hsettled.held hunreaped
    rw [hnone] at this
    cases this
  | exchange control reply hsome hsends hlog hchild hstate =>
    refine ⟨by rw [hlog]; exact hexchange hsends reply, fun hunreaped => ?_⟩
    rw [hlog, unreaped_snoc] at hunreaped
    exact absurd hunreaped (by
      rw [Bool.not_eq_true]
      exact (hsends.unreaped_iff hs).mpr hcall)
  | exchangeReap control reply outcome hsome hsends hlog hreaped =>
    exact hreaped.guarded (by rw [hlog]; simp) (hexchange hsends reply)
  | reap outcome hsome hlog hreaped => exact hreaped.guarded hlog hs.clean
  | reapFailed error hsome hlog hchild hstate =>
    refine ⟨by rw [hlog]; exact (noWork_snoc _ _).mpr ⟨hs.clean, fun h => by cases h⟩, ?_⟩
    intro hunreaped
    rw [hlog, unreaped_snoc] at hunreaped
    rcases hstate with h | h
    · rw [h]
      exact hs.away hunreaped
    · exact Or.inr h

variable (s)

/-- the other way round: such a `prepare` does talk to the unreaped child -/
theorem run_preparesUnreaped (hsettled : Settled s) (hcall : preparesUnreaped s call = true) :
    ¬ NoWorkToUnreaped (call.run ops s).1.log := by
  cases call with
  | prepare correlation clock =>
    simp only [preparesUnreaped, Bool.and_eq_true, beq_iff_eq] at hcall
    obtain ⟨hunreaped, hstate⟩ := hcall
    obtain ⟨t, reply, htlog, hends⟩ := @prepare_exchange C ops s correlation clock
      (by simp [hstate]) (hsettled.held hunreaped)
    intro hclean
    have hexchange : NoWorkToUnreaped (s.log ++ [Event.exchanged (.prepare correlation) reply]) := by
      rw [← htlog]
      cases hends with
      | kept hlog _ _ => exact hlog ▸ hclean
      | reaped outcome hlog _ =>
        have hclean : NoWorkToUnreaped (s.prepare ops correlation clock).1.log := hclean
        rw [hlog] at hclean
        exact hclean.of_append
    have := ((noWork_snoc _ _).mp hexchange).2 rfl
    rw [hunreaped] at this
    cases this
  | _ => cases hcall

theorem runCalls_snoc (calls : List (Call C)) (call : Call C) :
    runCalls ops s (calls ++ [call]) = (call.run ops (runCalls ops s calls)).1 := by
  rw [runCalls, List.foldl_append]
  rfl

theorem runCalls_settled (calls : List (Call C)) :
    Settled (runCalls ops (WorkerSupervisor.absent : WorkerSupervisor C) calls) := by
  induction calls using List.reverseRecOn with
  | nil => exact settled_absent
  | append_singleton calls call ih =>
    rw [runCalls_snoc]
    exact (run_moves ops _ call).settled ih

theorem run_log (call : Call C) : s.log <+: (call.run ops s).1.log := by
  cases run_moves ops s call with
  | quiet hlog _ _ => exact hlog ▸ List.prefix_rfl
  | attach _ hlog _ _ => exact ⟨_, hlog.symm⟩
  | exchange _ _ _ _ hlog _ _ => exact ⟨_, hlog.symm⟩
  | exchangeReap _ _ _ _ _ hlog _ => exact ⟨_, hlog.symm⟩
  | reap _ _ hlog _ => exact ⟨_, hlog.symm⟩
  | reapFailed _ _ hlog _ _ => exact ⟨_, hlog.symm⟩

theorem runCalls_guarded {calls : List (Call C)}
    (h : NoWorkToUnreaped (runCalls ops (WorkerSupervisor.absent : WorkerSupervisor C) calls).log) :
    Guarded (runCalls ops (WorkerSupervisor.absent : WorkerSupervisor C) calls) := by
  induction calls using List.reverseRecOn with
  | nil => exact guarded_absent
  | append_singleton calls call ih =>
    rw [runCalls_snoc] at h ⊢
    obtain ⟨rest, hrest⟩ := run_log ops (runCalls ops .absent calls) call
    have hbefore := ih (by rw [← hrest] at h; exact h.of_append)
    refine (run_moves ops _ call).guarded (runCalls_settled ops calls) hbefore ?_
    rw [← Bool.not_eq_true]
    exact fun hcall => run_preparesUnreaped ops _ (runCalls_settled ops calls) hcall h

theorem noWorkToUnreaped_iff (calls : List (Call C)) :
    NoWorkToUnreaped (runCalls ops (WorkerSupervisor.absent : WorkerSupervisor C) calls).log ↔
      ∀ before call after, calls = before ++ call :: after →
        preparesUnreaped (runCalls ops .absent before) call = false := by
  induction calls using List.reverseRecOn with
  | nil =>
    refine ⟨fun _ before call after h => absurd h (by simp), fun _ => ?_⟩
    exact guarded_absent.clean
  | append_singleton calls last ih =>
    rw [runCalls_snoc]
    constructor
    · intro h before call after hsplit
      obtain ⟨rest, hrest⟩ := run_log ops (runCalls ops .absent calls) last
      have hbefore := ih.mp (by rw [← hrest] at h; exact h.of_append)
      rcases List.eq_nil_or_concat after with rfl | ⟨after, e, rfl⟩
      · obtain ⟨rfl, hlast⟩ := List.append_inj' hsplit rfl
        obtain rfl : last = call := by simpa using hlast
        rw [← Bool.not_eq_true]
        exact fun hcall => run_preparesUnreaped ops _ (runCalls_settled ops calls) hcall h
      · rw [List.concat_eq_append] at hsplit
        have hsplit' : calls ++ [last] = (before ++ call :: after) ++ [e] := by rw [hsplit]; simp
        obtain ⟨hcalls, -⟩ := List.append_inj' hsplit' rfl
        exact hbefore before call after hcalls
    · intro h
      have hclean := ih.mpr fun before call after hsplit =>
        h before call (after ++ [last]) (by rw [hsplit]; simp)
      exact ((run_moves ops _ last).guarded (runCalls_settled ops calls)
        (runCalls_guarded ops hclean) (h calls last [] rfl)).clean

/-! ## outcomes -/

/-- the outcome a frame stands for, for the request with the correlation given -/
inductive Produces (correlation : Correlation) : WorkerFrame → WorkerOutcome → Prop where
  | transcript (text device : Text) (metrics : InferenceMetrics) :
      Produces correlation (.transcript correlation text) (.transcript text device metrics)
  | blank (text device : Text) (metrics : InferenceMetrics) (hblank : (trim text).isEmpty = true) :
      Produces correlation (.transcript correlation text) (.noText "empty".toList device metrics)
  | noText (reason device : Text) (metrics : InferenceMetrics) :
      Produces correlation (.noText correlation reason) (.noText reason device metrics)

theorem settle_ok {request : TranscribeRequest} {frame : WorkerFrame} {outcome : WorkerOutcome}
    (h : (s.settle ops request frame).2 = .ok outcome) :
    (s.settle ops request frame).1.log = s.log ∧ Produces request.correlation frame outcome := by
  cases frame with
  | ready got observedDevice => cases h
  | error code metadata => cases h
  | transcript got text =>
    by_cases hmatch : request.correlation = got
    · subst hmatch
      simp only [WorkerSupervisor.settle, correlationsMatch, if_true, Except.ok.injEq] at h ⊢
      refine ⟨trivial, ?_⟩
      split at h
      · rename_i hblank
        exact h ▸ .blank text _ _ hblank
      · exact h ▸ .transcript text _ _
    · simp [WorkerSupervisor.settle, correlationsMatch, hmatch] at h
  | noText got reason =>
    by_cases hmatch : request.correlation = got
    · subst hmatch
      simp only [WorkerSupervisor.settle, correlationsMatch, if_true, Except.ok.injEq] at h ⊢
      exact ⟨trivial, h ▸ .noText reason _ _⟩
    · simp [WorkerSupervisor.settle, correlationsMatch, hmatch] at h

/-- an outcome comes from the frame that answered the request, with the request's correlation -/
theorem transcribe_ok {request : TranscribeRequest} {clock : Clock} {outcome : WorkerOutcome}
    (h : (s.transcribe ops request clock).2 = .ok outcome) : ∃ frame,
    (s.transcribe ops request clock).1.log = s.log ++
        [.exchanged (.transcribe request.correlation request.pcm.length) (.ok frame)] ∧
      Produces request.correlation frame outcome := by
  unfold WorkerSupervisor.transcribe at h ⊢
  split at h
  · cases h
  · rename_i hready
    rw [if_neg hready]
    split at h
    · cases h
    · split at h
      · cases h
      · rename_i hduplicate
        rw [if_neg hduplicate]
        cases hchild : s.child with
        | none =>
          rw [hchild] at h
          cases h
        | some child =>
          rw [hchild] at h
          dsimp only at h ⊢
          generalize hreply : ops.exchange child _ _ _ = reply at h ⊢
          generalize ht : WorkerSupervisor.seen _ reply.2 _ = t at h ⊢
          have htsome : t.child.isSome := by rw [← ht]; rfl
          rcases concludeExchange_cases ops htsome reply.1
            (decide (clock.now + stopProcessingMs < clock.replied)) (Or.inl rfl) with
            ⟨frame, hframe, heq⟩ | ⟨s', error, heq, hends⟩
          · rw [heq] at h ⊢
            obtain ⟨hlog, hproduces⟩ := settle_ok ops t h
            refine ⟨frame, ?_, hproduces⟩
            dsimp only
            rw [hlog, ← ht, hframe]
            rfl
          · rw [heq] at h
            cases h

/-- **in every run the supervisor has one child at a time, has it where its state says so, is never
left busy and takes an outcome only from the frame of its own request; and an exchange reaches an
unreaped child just when `prepare` is called on it** -/
theorem runCalls_supervised (calls : List (Call C)) :
    Settled (runCalls ops (WorkerSupervisor.absent : WorkerSupervisor C) calls) ∧
    (∀ before request clock after outcome, calls = before ++ .transcribe request clock :: after →
      (Call.run ops (runCalls ops .absent before) (.transcribe request clock)).2 =
        .transcribed (.ok outcome) →
      ∃ frame, Produces request.correlation frame outcome ∧
        .exchanged (.transcribe request.correlation request.pcm.length) (.ok frame) ∈
          (runCalls ops (WorkerSupervisor.absent : WorkerSupervisor C)
            (before ++ [.transcribe request clock])).log) ∧
    (NoWorkToUnreaped (runCalls ops (WorkerSupervisor.absent : WorkerSupervisor C) calls).log ↔
      ∀ before call after, calls = before ++ call :: after →
        preparesUnreaped (runCalls ops .absent before) call = false) := by
  refine ⟨runCalls_settled ops calls, ?_, noWorkToUnreaped_iff ops calls⟩
  intro before request clock after outcome _ hanswer
  obtain ⟨frame, hlog, hproduces⟩ := transcribe_ok ops (runCalls ops .absent before)
    (show (WorkerSupervisor.transcribe ops _ request clock).2 = .ok outcome by
      simpa [Call.run] using hanswer)
  refine ⟨frame, hproduces, ?_⟩
  rw [runCalls_snoc]
  show _ ∈ (WorkerSupervisor.transcribe ops _ request clock).1.log
  rw [hlog]
  simp

end

/-! ## an unreaped child that is prepared -/

/-- a child that times out and cannot be reaped -/
def hungChild : WorkerChild Unit :=
  { exchange := fun child _ _ _ => (.error .timedOut, child)
    cancelAndReap := fun child => (.ok .unreaped, child)
    lastInferenceMetrics := fun _ => .unset }

def someCorrelation : Correlation := ⟨"n".toList, 1, "q".toList, "rec-1".toList, "hash".toList⟩

def prepareTwice : List (Call Unit) :=
  [.attachPending () 0, .prepare someCorrelation ⟨0, 0⟩, .prepare someCorrelation ⟨1, 1⟩]

/-- **the second `prepare` reaches the child that the first one could not reap** -/
theorem prepare_reaches_unreaped : ¬ NoWorkToUnreaped
    (runCalls hungChild (WorkerSupervisor.absent : WorkerSupervisor Unit) prepareTwice).log := by
  intro h
  obtain ⟨outcome, -, hmem⟩ := h
    [.attached, .exchanged (.prepare someCorrelation) (.error .timedOut)] []
    [.reaped .unreaped] (.prepare someCorrelation) (.error .timedOut) rfl
  cases hmem

end Voisu.LocalWorker
