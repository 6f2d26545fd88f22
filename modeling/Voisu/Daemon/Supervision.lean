import Mathlib
import Voisu.Daemon.Handlers

/-!
# One workflow for every state that waits

What the actor waits for is outstanding, in every run in which no workflow without a supervisor
panics.

* `Obeys`               the laws of a run;
* `Inv.step`            one message;
* `run_obeys`           **a run without an unsupervised panic obeys the laws**;
* `startupPanic_wedges` **a start-up that panics leaves the actor waiting for nobody**.
-/

namespace Voisu.Daemon

/-! ## the laws -/

/-- no workflow that nobody supervises panics -/
def Event.isSupervised : Event → Bool
  | .jobPanics _ | .statusPanics _ | .startupPanics .. | .recoveryPanics _ => false
  | _ => true

/-- what holds between two messages, after the messages `es` -/
structure Lawful (es : List Event) (a : Actor) : Prop where
  carried : a.state.waits = true → a.outstanding.countP (carries a.state) = 1
  replied : a.accounted.Perm (es.flatMap Event.replies)

/-- what holds of one message -/
structure LawfulStep (a : Actor) (e : Event) (a' : Actor) : Prop where
  moves : ∀ w, e.ends = some w → carries a.state w = true → a'.state ≠ a.state
  authorized : ∀ id correlationId, (id, correlationId, true) ∈ a'.authorizations →
    (id, correlationId, true) ∈ a.authorizations ∨
      ∃ evidence, a.state = .processing evidence ∧ evidence.recordingId = id ∧
        evidence.correlationId = correlationId
  acknowledged : a'.acknowledged = true → a.acknowledged = true ∨ a'.state = .idle

/-- **the laws of a run**: no message finds an empty slot, and every state and every step is
lawful -/
structure Obeys (cfg : Config) (es : List Event) : Prop where
  lawful : ∀ before, before <+: es → ∃ a, Actor.new.run cfg before = .ok a ∧ Lawful before a
  step : ∀ before e a, before ++ [e] <+: es → Actor.new.run cfg before = .ok a →
    ∃ a', a.step cfg e = .ok a' ∧ LawfulStep a e a'

/-! ## one step -/

section
variable {cfg : Config} {a a' : Actor} {e : Event}

theorem mem_queue_of_enabled (h : a.enabled e = true) {job : AsrModeJob}
    (hends : e.ends = some (.job job)) : job ∈ a.queue := by
  simpa [Actor.enabled, hends, Actor.outstanding] using (Bool.and_eq_true_iff.mp h).2

theorem mem_tasks_of_enabled (h : a.enabled e = true) {task : Task}
    (hends : e.ends = some (.task task)) : task ∈ a.tasks := by
  simpa [Actor.enabled, hends, Actor.outstanding] using (Bool.and_eq_true_iff.mp h).2

theorem mem_statuses_of_enabled (h : a.enabled e = true) {status : StatusReply}
    (hends : e.ends = some (.status status)) : status ∈ a.statuses := by
  simpa [Actor.enabled, hends, Actor.outstanding] using (Bool.and_eq_true_iff.mp h).2

theorem Inv.handle (h : Inv cfg a) (hbound : a.nextAdmissionToken < u64Max)
    (henabled : a.enabled e = true) (hsupervised : e.isSupervised = true) :
    ∃ a' skips, (a.closeEnded e).handle cfg e = .ok (a', skips) ∧ Handles cfg a e skips a' := by
  cases e with
  | command c read reply =>
    obtain ⟨a', hok, hhandles⟩ := @Inv.command cfg a c read reply h hbound
    exact ⟨a', false, by
      show (a.command cfg read reply c).map (·, false) = _
      rw [hok]
      rfl, hhandles⟩
  | persisted mode reply response =>
    exact ⟨_, _, rfl, h.persisted (mem_queue_of_enabled henabled rfl) response⟩
  | captureAdmitted token admission => exact h.captureAdmitted (mem_queue_of_enabled henabled rfl)
  | statusAttached status =>
    exact ⟨_, _, rfl, h.statusAttached (mem_statuses_of_enabled henabled rfl)⟩
  | started id asrMode reply result =>
    exact ⟨_, _, rfl, h.started (mem_tasks_of_enabled henabled rfl) result⟩
  | recovered id => exact ⟨_, _, rfl, h.recovered (mem_tasks_of_enabled henabled rfl)⟩
  | completed evidence reply result =>
    cases result with
    | ok delivered =>
      have hid : (delivered.into evidence).recordingId = evidence.recordingId := rfl
      exact ⟨_, _, rfl, h.completed (mem_tasks_of_enabled henabled rfl) rfl hid _⟩
    | error failure =>
      exact ⟨_, _, rfl, h.completed (mem_tasks_of_enabled henabled rfl) rfl rfl _⟩
  | processingPanics evidence reply =>
    exact ⟨_, _, rfl, h.completed (mem_tasks_of_enabled henabled rfl) rfl rfl _⟩
  | replayCompleted id reply response =>
    exact ⟨_, _, rfl, h.replayCompleted (mem_tasks_of_enabled henabled rfl) rfl _⟩
  | replayPanics id reply =>
    exact ⟨_, _, rfl, h.replayCompleted (mem_tasks_of_enabled henabled rfl) rfl _⟩
  | pumpTerminated id => exact ⟨_, _, rfl, h.pumpTerminated id⟩
  | authorizeDelivery id correlationId => exact ⟨_, _, rfl, h.authorizeDelivery id correlationId⟩
  | deliveryLanded id correlationId method fallbackReason truncated =>
    exact ⟨_, _, rfl, h.deliveryLanded id correlationId method fallbackReason truncated⟩
  | shortcutBound binding => exact ⟨_, _, rfl, h.stays rfl rfl rfl (fun _ _ _ hmem => .inl hmem)⟩
  | shutdown => exact ⟨_, _, rfl, h.shutdown⟩
  | jobPanics | statusPanics | startupPanics | recoveryPanics => cases hsupervised

/-- the end of the loop's body answers a shutdown that finds the actor idle -/
theorem Handles.acknowledge (hhandles : Handles cfg a e false a') :
    Inv cfg a'.acknowledgeShutdown := by
  unfold Actor.acknowledgeShutdown
  split
  · exact ⟨hhandles.awaits, hhandles.queued, hhandles.alive, fun hack => by cases hack⟩
  · rename_i hpending
    refine ⟨hhandles.awaits, hhandles.queued, hhandles.alive, fun hack => ?_⟩
    rcases hhandles.winding hack with hwinds | ⟨hidle, -⟩
    · exact hwinds
    · simp [hack, hidle] at hpending

theorem acknowledgeShutdown_cases (a : Actor) : a.acknowledgeShutdown = a ∨
    (a.state = .idle ∧
      a.acknowledgeShutdown = { a with shutdownAck := false, acknowledged := true }) := by
  unfold Actor.acknowledgeShutdown
  split
  · rename_i hack
    exact .inr ⟨by simpa using (Bool.and_eq_true_iff.mp hack).2, rfl⟩
  · exact .inl rfl

/-- **a step without an unsupervised panic keeps the invariant, accounts for its reply and is
lawful** -/
theorem Inv.step (h : Inv cfg a) (hbound : a.nextAdmissionToken < u64Max)
    (henabled : a.enabled e = true) (hsupervised : e.isSupervised = true) :
    ∃ a', a.step cfg e = .ok a' ∧ Inv cfg a' ∧ LawfulStep a e a' ∧
      (∀ r, a'.accounted.count r = a.accounted.count r + e.replies.count r) ∧
      a'.nextAdmissionToken ≤ a.nextAdmissionToken + 1 := by
  obtain ⟨a', skips, hok, hhandles⟩ := h.handle hbound henabled hsupervised
  have hauthorized : ∀ id correlationId, (id, correlationId, true) ∈ a'.authorizations →
      (id, correlationId, true) ∈ a.authorizations ∨ ∃ evidence, a.state = .processing evidence ∧
        evidence.recordingId = id ∧ evidence.correlationId = correlationId := by
    intro id correlationId hmem
    refine (hhandles.authorized id correlationId true hmem).imp_right fun hanswer => ?_
    unfold isProcessing at hanswer
    split at hanswer
    · rename_i evidence hstate
      have hboth := Bool.and_eq_true_iff.mp hanswer.symm
      exact ⟨evidence, hstate, by simpa using hboth.1, by simpa using hboth.2⟩
    · cases hanswer
  have hstep : a.step cfg e = .ok (if skips then a' else a'.acknowledgeShutdown) := by
    rw [Actor.step, hok]
    rfl
  refine ⟨_, hstep, ?_⟩
  cases skips with
  | true =>
    refine ⟨⟨hhandles.awaits, hhandles.queued, hhandles.alive, fun hack => ?_⟩,
      ⟨hhandles.moves, hauthorized, fun hack => .inl (hhandles.acknowledged ▸ hack)⟩,
      hhandles.replied, hhandles.counter⟩
    exact (hhandles.winding hack).resolve_right (fun hidle => by cases hidle.2)
  | false =>
    refine ⟨hhandles.acknowledge, ?_⟩
    rcases acknowledgeShutdown_cases a' with heq | ⟨hidle, heq⟩
    · simp only [Bool.false_eq_true, if_false, heq]
      exact ⟨⟨hhandles.moves, hauthorized, fun hack => .inl (hhandles.acknowledged ▸ hack)⟩,
        hhandles.replied, hhandles.counter⟩
    · simp only [Bool.false_eq_true, if_false, heq]
      exact ⟨⟨hhandles.moves, hauthorized, fun _ => .inr hidle⟩, hhandles.replied, hhandles.counter⟩

end

/-! ## whole runs -/

theorem countP_outstanding (a : Actor) (p : Workflow → Bool) : a.outstanding.countP p =
    a.queue.countP (p ∘ .job) + a.tasks.countP (p ∘ .task) + a.statuses.countP (p ∘ .status) := by
  simp only [Actor.outstanding, List.countP_append, List.countP_map]

/-- in a state that waits, exactly one outstanding workflow carries its token or Recording id -/
theorem Inv.carried {cfg : Config} {a : Actor} (h : Inv cfg a) (hwaits : a.state.waits = true) :
    a.outstanding.countP (carries a.state) = 1 := by
  have hawaits := h.awaits
  have hpending := h.queued.pending
  rw [countP_outstanding]
  generalize a.state = state, a.tasks = tasks, a.capture = capture, a.validator = validator,
    a.delivery = delivery at hawaits hpending hwaits ⊢
  cases hawaits with
  | idle | recording => cases hwaits
  | admitting token pending reply =>
    have hcount : a.queue.countP (carries (.admitting token pending reply) ∘ .job) = 1 := by
      have hsame : carries (.admitting token pending reply) ∘ .job =
          (· == AsrModeJob.admission token) := by
        funext job
        cases job with
        | persist mode reply => rfl
        | admission admitted =>
          show decide (admitted = token) = (AsrModeJob.admission admitted == .admission token)
          rw [Bool.eq_iff_iff]
          simp
      rw [hsame]
      have hmem := (hpending token pending reply rfl).1
      have hpos := List.count_pos_iff.mpr hmem
      have honce := h.queued.once token
      unfold List.count at hpos honce
      omega
    rw [hcount, List.countP_nil, List.countP_eq_zero.mpr (fun _ _ => by simp [carries])]
  | starting | processing | recovering | replaying =>
    rw [List.countP_eq_zero.mpr (fun job _ => by simp [carries]),
      List.countP_eq_zero.mpr (fun (status : StatusReply) _ => by simp [carries])]
    simp [carries, Task.recordingId]

theorem feasible_append {cfg : Config} {a a' : Actor} {es es' : List Event}
    (h : a.feasible cfg (es ++ es') = true) (hrun : a.run cfg es = .ok a') :
    a'.feasible cfg es' = true := by
  induction es generalizing a with
  | nil =>
    obtain rfl : a = a' := by simpa [Actor.run, pure, Except.pure] using hrun
    exact h
  | cons e es ih =>
    cases hstep : a.step cfg e with
    | error panic =>
      simp [Actor.run, hstep, bind, Except.bind] at hrun
    | ok next =>
      have hrest : next.feasible cfg (es ++ es') = true := by
        simp only [List.cons_append, Actor.feasible, hstep, Bool.and_eq_true] at h
        exact h.2
      exact ih hrest (by simpa [Actor.run, hstep, bind, Except.bind] using hrun)

theorem enabled_of_feasible {cfg : Config} {a a' : Actor} {before after : List Event} {e : Event}
    (h : a.feasible cfg (before ++ [e] ++ after) = true) (hrun : a.run cfg before = .ok a') :
    a'.enabled e = true := by
  rw [List.append_assoc] at h
  have hrest := feasible_append h hrun
  simp only [List.singleton_append, Actor.feasible, Bool.and_eq_true] at hrest
  exact hrest.1

theorem run_snoc (cfg : Config) (a : Actor) (es : List Event) (e : Event) :
    a.run cfg (es ++ [e]) = (a.run cfg es).bind (fun a' => a'.step cfg e) := by
  simp only [Actor.run, List.foldlM_append, List.foldlM_cons, List.foldlM_nil]
  cases h : es.foldlM (Actor.step cfg) a with
  | error panic => rfl
  | ok a' =>
    cases hstep : a'.step cfg e with
    | error panic => simp [bind, Except.bind, hstep]
    | ok a'' => simp [bind, Except.bind, pure, Except.pure, hstep]

/-- the invariant and the account of the replies, along a run -/
theorem run_inv {cfg : Config} {es : List Event} (hfeasible : Actor.new.feasible cfg es = true)
    (hsupervised : ∀ e ∈ es, e.isSupervised = true) (hlength : es.length ≤ u64Max)
    {before : List Event} (hbefore : before <+: es) : ∃ a, Actor.new.run cfg before = .ok a ∧
      Inv cfg a ∧ (∀ r, a.accounted.count r = (before.flatMap Event.replies).count r) ∧
      a.nextAdmissionToken ≤ before.length := by
  induction before using List.reverseRecOn with
  | nil => exact ⟨Actor.new, rfl, Inv.new cfg, fun r => rfl, Nat.le_refl _⟩
  | append_singleton before e ih =>
    obtain ⟨a, hrun, hinv, hreplied, hcounter⟩ := ih ((List.prefix_append _ _).trans hbefore)
    obtain ⟨after, rfl⟩ := hbefore
    have hlength' : before.length < u64Max := by
      simp only [List.length_append, List.length_singleton] at hlength
      omega
    have henabled : a.enabled e = true := enabled_of_feasible hfeasible hrun
    obtain ⟨a', hstep, hinv', -, hreplied', hcounter'⟩ := hinv.step
      (Nat.lt_of_le_of_lt hcounter hlength') henabled (hsupervised e (by simp))
    refine ⟨a', by rw [run_snoc, hrun]; exact hstep, hinv', fun r => ?_, ?_⟩
    · rw [hreplied', hreplied, List.flatMap_append, List.count_append, List.flatMap_singleton]
    · simp only [List.length_append, List.length_singleton]
      omega

/-- **a run in which no workflow without a supervisor panics obeys the laws** -/
theorem run_obeys (cfg : Config) (es : List Event) (hfeasible : Actor.new.feasible cfg es = true)
    (hsupervised : ∀ e ∈ es, e.isSupervised = true) (hlength : es.length ≤ u64Max) :
    Obeys cfg es where
  lawful := by
    intro before hbefore
    obtain ⟨a, hrun, hinv, hreplied, -⟩ := run_inv hfeasible hsupervised hlength hbefore
    exact ⟨a, hrun, hinv.carried, List.perm_iff_count.mpr hreplied⟩
  step := by
    intro before e a hbefore hrun
    obtain ⟨a', hrun', hinv, -, hcounter⟩ :=
      run_inv hfeasible hsupervised hlength ((List.prefix_append _ _).trans hbefore)
    obtain rfl : a' = a := Except.ok.inj (hrun'.symm.trans hrun)
    obtain ⟨after, rfl⟩ := hbefore
    have henabled : a'.enabled e = true := enabled_of_feasible hfeasible hrun
    have hbound : a'.nextAdmissionToken < u64Max := by
      simp only [List.length_append, List.length_singleton] at hlength
      omega
    obtain ⟨a'', hstep, -, hlawful, -⟩ := hinv.step hbound henabled (hsupervised e (by simp))
    exact ⟨a'', hstep, hlawful⟩

/-- a Recording started, stopped and delivered, and a shutdown -/
def oneRecording : List Event :=
  [.command .start .found 0,
    .captureAdmitted 0 { result := .ok .cloud, quota := none, refusal := none,
                         correlationId := [] },
    .started 1 .cloud 0 (.ok ()), .command .stop .found 1,
    .authorizeDelivery 1 [],
    .completed (baseEvidence 1 []) (some 1) (.ok { deliveryMethod := none,
                                                   deliveryFallbackReason := none,
                                                   truncatedBy := false }),
    .shutdown]

theorem run_obeys_oneRecording :
    Actor.new.feasible { controlled := false, diagnostics := true } oneRecording = true ∧
      Obeys { controlled := false, diagnostics := true } oneRecording :=
  ⟨by decide, run_obeys _ _ (by decide) (by decide) (by decide)⟩

/-- a start-up that panics -/
def startupPanic : List Event :=
  [.command .start .found 0,
    .captureAdmitted 0 { result := .ok .cloud, quota := none, refusal := none,
                         correlationId := [] },
    .startupPanics 1 .cloud 0]

/-- **the actor is left in Starting, nothing is outstanding that could move it on, and the client's
reply is neither answered nor held** -/
theorem startupPanic_wedges :
    Actor.new.feasible { controlled := false, diagnostics := true } startupPanic = true ∧
      ¬ Obeys { controlled := false, diagnostics := true } startupPanic := by
  refine ⟨by decide, fun h => ?_⟩
  obtain ⟨a, hrun, hlawful⟩ := h.lawful startupPanic (List.prefix_refl _)
  have hleft : (Actor.new.run { controlled := false, diagnostics := true } startupPanic).map
      (fun a => (a.state, a.outstanding)) = .ok (.starting 1 [] .cloud, []) := rfl
  rw [hrun] at hleft
  obtain ⟨hstate, houtstanding⟩ := Prod.mk.inj (Except.ok.inj hleft)
  have hcarried := hlawful.carried (by rw [hstate]; rfl)
  rw [houtstanding] at hcarried
  cases hcarried

end Voisu.Daemon
