import Mathlib
import Voisu.Daemon.Supervision

/-!
# What the Overlay is shown

What one message does to the event the actor retains for the Overlay and to the Recording in hand,
also a message that a workflow's panic stands behind.

* `published`          the events of a run, in order;
* `Shows`              what a message can do;
* `Waited`             the processing that is outstanding is the one the actor waits for;
* `step_shows`         **every message does one of these**;
* `Shows.waited`       and keeps `Waited`.
-/

namespace Voisu.Daemon

/-! ## the events of a run -/

/-- the event that a step has retained, if any -/
def retained (a a' : Actor) : List OverlayEvent :=
  if a'.nextOverlayEventId = a.nextOverlayEventId then [] else a'.lastOverlayEvent.toList

def published (cfg : Config) (a : Actor) : List Event → List OverlayEvent
  | [] => []
  | e :: es =>
    match a.step cfg e with
    | .error _ => []
    | .ok a' => retained a a' ++ published cfg a' es

/-! ## a message -/

def Task.isProcessing : Task → Bool
  | .processing .. => true
  | _ => false

def Actor.processing (a : Actor) : List Task := a.tasks.filter Task.isProcessing

/-- the Recording in hand, with its correlation id -/
def live : ActorState → Option (Nat × Text)
  | .starting id correlationId _ => some (id, correlationId)
  | .recording recording => some (recording.evidence.recordingId, recording.evidence.correlationId)
  | .processing evidence => some (evidence.recordingId, evidence.correlationId)
  | _ => none

def SameOverlay (a a' : Actor) : Prop :=
  a'.nextOverlayEventId = a.nextOverlayEventId ∧ a'.lastOverlayEvent = a.lastOverlayEvent

/-- an event for the Recording with the correlation id given, or for none -/
def Retains (a a' : Actor) (correlationId : Option Text) : Prop :=
  a'.nextOverlayEventId = a.nextOverlayEventId + 1 ∧
    ∃ event, a'.lastOverlayEvent = some event ∧ event.id = a.nextOverlayEventId ∧
      event.correlationId = correlationId

/-- a processing reports, or its supervisor for it: an event is retained unless the Delivery has been
announced -/
structure Concludes (evidence : LifecycleEvidence) (reply : Option Reply) (a : Actor) (e : Event)
    (a' : Actor) : Prop where
  ends : e.ends = some (.task (.processing evidence reply))
  overlay : SameOverlay a a' ∧
      a.lastOverlayEvent.any (·.correlationId = some evidence.correlationId) = true ∨
    Retains a a' (some evidence.correlationId) ∧
      ((∃ delivered, e = .completed evidence reply (.ok delivered)) →
        a.lastOverlayEvent.any (·.correlationId = some evidence.correlationId) = false)
  nextId : a'.nextId = a.nextId
  tasks : a'.processing = a.processing.erase (.processing evidence reply)
  was : a.state = .processing evidence
  live : live a'.state = none

/-- what a message can do -/
inductive Shows (a : Actor) (e : Event) (a' : Actor) : Prop where
  | quiet (hoverlay : SameOverlay a a') (hid : a.nextId ≤ a'.nextId)
      (htasks : a'.processing = a.processing)
      (hlive : live a'.state = live a.state ∨ live a'.state = none)
      (hstate : ∀ evidence, a'.state = .processing evidence ↔ a.state = .processing evidence)
  | begins (token : Nat) (admission : Admission) (he : e = .captureAdmitted token admission)
      (hoverlay : SameOverlay a a') (hid : a'.nextId = a.nextId + 1)
      (htasks : a'.processing = a.processing) (hnone : live a.state = none)
      (hlive : live a'.state = some (a.nextId, admission.correlationId))
  | processes (recording : ActiveRecording) (reply : Option Reply) (hoverlay : SameOverlay a a')
      (hid : a'.nextId = a.nextId)
      (htasks : a'.processing = a.processing ++ [.processing recording.evidence reply])
      (hwas : a.state = .recording recording) (hstate : a'.state = .processing recording.evidence)
  | startFails (hretains : Retains a a' none) (hid : a'.nextId = a.nextId)
      (htasks : a'.processing = a.processing) (hwas : ∀ evidence, a.state ≠ .processing evidence)
      (hlive : live a'.state = none)
  | lands (evidence : LifecycleEvidence) (method : DeliveryMethod) (fallbackReason : Option Text)
      (truncated : Bool)
      (he : e = .deliveryLanded evidence.recordingId evidence.correlationId method fallbackReason
        truncated)
      (hretains : Retains a a' (some evidence.correlationId)) (hid : a'.nextId = a.nextId)
      (htasks : a'.processing = a.processing) (hwas : a.state = .processing evidence)
      (hstate : a'.state = a.state)
  | concludes (evidence : LifecycleEvidence) (reply : Option Reply)
      (h : Concludes evidence reply a e a')

/-- a processing that is outstanding is the one the actor waits for, and the only one -/
def Waited (a : Actor) : Prop :=
  a.processing = [] ∨
    ∃ evidence reply, a.state = .processing evidence ∧ a.processing = [.processing evidence reply]

/-! ## the handlers -/

/-- all that `Shows` looks at is left alone -/
structure Frame (a a' : Actor) : Prop where
  state : a'.state = a.state
  nextId : a'.nextId = a.nextId
  tasks : a'.processing = a.processing
  event : a'.nextOverlayEventId = a.nextOverlayEventId
  last : a'.lastOverlayEvent = a.lastOverlayEvent

section
variable {a b a' : Actor} {e : Event}

theorem Frame.refl (a : Actor) : Frame a a := ⟨rfl, rfl, rfl, rfl, rfl⟩

theorem Frame.quiet (h : Frame a a') : Shows a e a' :=
  .quiet ⟨h.event, h.last⟩ (Nat.le_of_eq h.nextId.symm) h.tasks (Or.inl (by rw [h.state]))
    (fun evidence => by rw [h.state])

theorem Retains.frame {c : Option Text} (h : Retains b a' c) (hf : Frame a b) : Retains a a' c := by
  unfold Retains at h ⊢
  rwa [hf.event] at h

theorem SameOverlay.frame (h : SameOverlay b a') (hf : Frame a b) : SameOverlay a a' :=
  ⟨h.1.trans hf.event, h.2.trans hf.last⟩

/-- a message handled from a state that looks the same -/
theorem Shows.of_frame (hf : Frame a b) (h : Shows b e a') : Shows a e a' := by
  cases h with
  | quiet hoverlay hid htasks hlive hstate =>
    exact .quiet (hoverlay.frame hf) (hf.nextId ▸ hid) (htasks.trans hf.tasks)
      (by rw [← hf.state]; exact hlive) (by rw [← hf.state]; exact hstate)
  | begins token admission he hoverlay hid htasks hnone hlive =>
    exact .begins token admission he (hoverlay.frame hf) (hf.nextId ▸ hid) (htasks.trans hf.tasks)
      (hf.state ▸ hnone) (hf.nextId ▸ hlive)
  | processes recording reply hoverlay hid htasks hwas hstate =>
    exact .processes recording reply (hoverlay.frame hf) (hid.trans hf.nextId)
      (by rw [htasks, hf.tasks]) (hf.state ▸ hwas) hstate
  | startFails hretains hid htasks hwas hlive =>
    exact .startFails (hretains.frame hf) (hid.trans hf.nextId) (htasks.trans hf.tasks)
      (hf.state ▸ hwas) hlive
  | lands evidence method fallbackReason truncated he hretains hid htasks hwas hstate =>
    exact .lands evidence method fallbackReason truncated he (hretains.frame hf)
      (hid.trans hf.nextId) (htasks.trans hf.tasks) (hf.state ▸ hwas) (hstate.trans hf.state)
  | concludes evidence reply h =>
    refine .concludes evidence reply ⟨h.ends, ?_, h.nextId.trans hf.nextId,
      by rw [h.tasks, hf.tasks], hf.state ▸ h.was, h.live⟩
    have hoverlay := h.overlay
    rw [hf.last] at hoverlay
    exact hoverlay.imp (fun h => ⟨h.1.frame hf, h.2⟩) fun h => ⟨h.1.frame hf, h.2⟩

theorem SameOverlay.and_frame (h : SameOverlay a b) (hf : Frame b a') : SameOverlay a a' :=
  ⟨hf.event.trans h.1, hf.last.trans h.2⟩

theorem Retains.and_frame {c : Option Text} (h : Retains a b c) (hf : Frame b a') :
    Retains a a' c := by
  unfold Retains at h ⊢
  rwa [hf.event, hf.last]

theorem Concludes.and_frame {evidence : LifecycleEvidence} {reply : Option Reply}
    (h : Concludes evidence reply a e b) (hf : Frame b a') : Concludes evidence reply a e a' where
  ends := h.ends
  overlay := h.overlay.imp (fun h => ⟨h.1.and_frame hf, h.2⟩) fun h => ⟨h.1.and_frame hf, h.2⟩
  nextId := hf.nextId.trans h.nextId
  tasks := hf.tasks.trans h.tasks
  was := h.was
  live := by
    rw [hf.state]
    exact h.live

/-- a message, and then the end of the loop's body -/
theorem Shows.and_frame (h : Shows a e b) (hf : Frame b a') : Shows a e a' := by
  cases h with
  | quiet ho hid htasks hlive hstate =>
    exact .quiet (ho.and_frame hf) (by rw [hf.nextId]; exact hid) (hf.tasks.trans htasks)
      (by rw [hf.state]; exact hlive) (by rw [hf.state]; exact hstate)
  | begins token admission he ho hid htasks hnone hlive =>
    exact .begins token admission he (ho.and_frame hf) (hf.nextId.trans hid)
      (hf.tasks.trans htasks) hnone (by rw [hf.state]; exact hlive)
  | processes recording reply ho hid htasks hwas hstate =>
    exact .processes recording reply (ho.and_frame hf) (hf.nextId.trans hid)
      (hf.tasks.trans htasks) hwas (hf.state.trans hstate)
  | startFails hr hid htasks hwas hlive =>
    exact .startFails (hr.and_frame hf) (hf.nextId.trans hid) (hf.tasks.trans htasks) hwas
      (by rw [hf.state]; exact hlive)
  | lands evidence method fallbackReason truncated he hr hid htasks hwas hstate =>
    exact .lands evidence method fallbackReason truncated he (hr.and_frame hf) (hf.nextId.trans hid)
      (hf.tasks.trans htasks) hwas (hf.state.trans hstate)
  | concludes evidence reply h => exact .concludes evidence reply (h.and_frame hf)

theorem Frame.answer (a : Actor) (reply : Reply) (response : Response) :
    Frame a (a.answer reply response) := ⟨rfl, rfl, rfl, rfl, rfl⟩

theorem Frame.answerOptional (a : Actor) (reply : Option Reply) (response : Response) :
    Frame a (answerOptional a reply response) := by
  cases reply with
  | none => exact .refl a
  | some reply => exact .answer a reply response

theorem Frame.persist (a : Actor) (mode : AsrMode) (reply : Reply) :
    Frame a (a.persist mode reply) := by
  unfold Actor.persist
  split
  · exact ⟨rfl, rfl, rfl, rfl, rfl⟩
  · exact .answer a reply _

theorem Frame.buildProviders (cfg : Config) (a : Actor) : Frame a (a.buildProviders cfg) := by
  unfold Actor.buildProviders
  split
  · exact ⟨rfl, rfl, rfl, rfl, rfl⟩
  · exact .refl a

theorem Frame.returnStartup (cfg : Config) (a : Actor) (mode : AsrMode) :
    Frame a (a.returnStartup cfg mode) := by
  unfold Actor.returnStartup
  split <;> exact ⟨rfl, rfl, rfl, rfl, rfl⟩

theorem Frame.acknowledgeShutdown (a : Actor) : Frame a a.acknowledgeShutdown := by
  unfold Actor.acknowledgeShutdown
  split
  · exact ⟨rfl, rfl, rfl, rfl, rfl⟩
  · exact .refl a

theorem processing_spawn (a : Actor) {task : Task} (h : task.isProcessing = false) :
    (a.spawn task).processing = a.processing := by
  show (a.tasks ++ [task]).filter Task.isProcessing = a.tasks.filter Task.isProcessing
  rw [List.filter_append, List.filter_cons_of_neg (by simp [h]), List.filter_nil, List.append_nil]

/-- the end of a workflow that is not a processing -/
theorem Frame.closeEnded (a : Actor) (e : Event)
    (h : ∀ task, e.ends = some (.task task) → task.isProcessing = false) :
    Frame a (a.closeEnded e) := by
  have hclose : ∀ w, e.ends = some w → Frame a (a.close w) := by
    intro w hw
    cases w with
    | job job => exact ⟨rfl, rfl, rfl, rfl, rfl⟩
    | status status => exact ⟨rfl, rfl, rfl, rfl, rfl⟩
    | task task =>
      refine ⟨rfl, rfl, ?_, rfl, rfl⟩
      show (a.tasks.erase task).filter Task.isProcessing = a.tasks.filter Task.isProcessing
      rw [← List.erase_filter, List.erase_of_not_mem]
      intro hmem
      rw [List.mem_filter, h task hw] at hmem
      exact absurd hmem.2 (by decide)
  have hends : Frame a ((e.ends.map a.close).getD a) := by
    cases hw : e.ends with
    | none => exact .refl a
    | some w => exact hclose w hw
  cases e with
  | jobPanics job => exact ⟨rfl, rfl, rfl, rfl, rfl⟩
  | _ => exact hends

/-- a message that leaves no Recording in hand, where none was being processed -/
theorem quiet_of_none (hoverlay : SameOverlay a a') (hid : a.nextId ≤ a'.nextId)
    (htasks : a'.processing = a.processing) (hwas : ∀ evidence, a.state ≠ .processing evidence)
    (hlive : live a'.state = none) : Shows a e a' :=
  .quiet hoverlay hid htasks (Or.inr hlive) fun evidence =>
    ⟨fun h => by simp [h, live] at hlive, fun h => absurd h (hwas evidence)⟩

theorem beginAdmission_shows {pending : PendingCapture} {reply : Reply} (hidle : a.state = .idle)
    (h : a.beginAdmission pending reply = .ok a') : Shows a e a' := by
  simp only [Actor.beginAdmission, Actor.enqueueCaptureAdmission] at h
  cases halive : a.queueAlive with
  | true =>
    rw [halive] at h
    obtain rfl := Except.ok.inj h
    exact quiet_of_none ⟨rfl, rfl⟩ (Nat.le_refl _) rfl (by simp [hidle]) rfl
  | false =>
    rw [halive] at h
    cases h

theorem cancelPendingAdmission_shows (a : Actor) (message : String) :
    Shows a e (a.cancelPendingAdmission message) := by
  unfold Actor.cancelPendingAdmission
  split
  · rename_i hstate
    exact quiet_of_none ⟨rfl, rfl⟩ (Nat.le_refl _) rfl (by simp [hstate]) rfl
  · exact (Frame.refl a).quiet

example : live .idle = none := by decide +kernel

theorem stopUnattended_shows {recording : ActiveRecording} (hstate : a.state = .recording recording) :
    Shows a e (a.stopUnattended recording) := by
  unfold Actor.stopUnattended Actor.spawnRecordingProcessing
  split
  · refine .processes recording none ⟨rfl, rfl⟩ rfl ?_ hstate rfl
    exact List.filter_append _ _
  · exact (Frame.refl a).quiet

theorem stopFor_shows {recording : ActiveRecording} (hstate : a.state = .recording recording)
    (reply : Reply) : Shows a e (a.stopFor recording reply) := by
  unfold Actor.stopFor Actor.spawnRecordingProcessing
  split
  · rename_i hspawn
    split at hspawn
    · obtain rfl := Option.some.inj hspawn
      refine .processes recording (some reply) ⟨rfl, rfl⟩ rfl ?_ hstate rfl
      exact List.filter_append _ _
    · cases hspawn
  · exact (Frame.answer a reply _).quiet

theorem stopCommand_shows (a : Actor) (reply : Reply) : Shows a e (a.stopCommand reply) := by
  unfold Actor.stopCommand
  split
  · exact (cancelPendingAdmission_shows a _).and_frame (.answer _ reply _)
  · rename_i hstate
    exact stopFor_shows hstate reply
  · exact (Frame.answer a reply _).quiet
  · exact (Frame.answer a reply _).quiet

theorem command_shows {cfg : Config} {read : StoreRead} {reply : Reply} {command : Command}
    (h : a.command cfg read reply command = .ok a') : Shows a e a' := by
  have hanswer (response : Response)
      (h : (Except.ok (a.answer reply response) : Except Panic Actor) = .ok a') : Shows a e a' := by
    obtain rfl := Except.ok.inj h
    exact (Frame.answer a reply response).quiet
  cases command with
  | status | overlayStatus =>
    obtain rfl := Except.ok.inj h
    have hframe : Frame a (a.replyWithAsrStatus (statusResponse a.state) reply) :=
      ⟨rfl, rfl, rfl, rfl, rfl⟩
    exact hframe.quiet
  | setAsrMode mode =>
    obtain rfl := Except.ok.inj h
    exact (Frame.persist a mode reply).quiet
  | level | shortcut | history | exportRecord => exact hanswer _ h
  | replay fixture =>
    simp only [Actor.command, Actor.replayCommand] at h
    split at h
    · exact hanswer _ h
    · split at h
      · rename_i hidle
        exact beginAdmission_shows hidle h
      · exact hanswer _ h
  | start =>
    simp only [Actor.command, Actor.startCommand] at h
    split at h
    · exact hanswer _ h
    · exact hanswer _ h
    · rename_i hidle
      exact beginAdmission_shows hidle h
    · exact hanswer _ h
  | stop =>
    obtain rfl := Except.ok.inj h
    exact stopCommand_shows a reply
  | toggle =>
    simp only [Actor.command, Actor.toggleCommand] at h
    split at h
    · exact hanswer _ h
    · exact hanswer _ h
    · rename_i hidle
      exact beginAdmission_shows hidle h
    · obtain rfl := Except.ok.inj h
      exact (cancelPendingAdmission_shows a _).and_frame (.answer _ reply _)
    · rename_i hstate
      obtain rfl := Except.ok.inj h
      exact stopFor_shows hstate reply
    · exact hanswer _ h
    · exact hanswer _ h

theorem beginLocalReplay_shows {cfg : Config} {reply : Reply}
    (hwas : ∀ evidence, a.state ≠ .processing evidence)
    (h : a.beginLocalReplay cfg reply = .ok a') : Shows a e a' := by
  cases hdiagnostics : cfg.diagnostics with
  | false =>
    simp only [Actor.beginLocalReplay, hdiagnostics] at h
    cases h
  | true =>
    cases hvalidator : a.validator with
    | false =>
      simp only [Actor.beginLocalReplay, hdiagnostics, hvalidator, demand] at h
      cases h
    | true =>
      rw [beginLocalReplay_ok hdiagnostics hvalidator] at h
      obtain rfl := Except.ok.inj h
      exact quiet_of_none ⟨rfl, rfl⟩ (Nat.le_succ _) (processing_spawn _ rfl) hwas rfl

theorem beginCloudReplay_shows {cfg : Config} {reply : Reply}
    (hwas : ∀ evidence, a.state ≠ .processing evidence)
    (h : a.beginCloudReplay cfg reply = .ok a') : Shows a e a' := by
  cases hvalidator : a.validator with
  | false => simp [Actor.beginCloudReplay, hvalidator, demand, bind, Except.bind] at h
  | true =>
    cases hdiagnostics : cfg.diagnostics with
    | false =>
      simp only [Actor.beginCloudReplay, demand, hdiagnostics, hvalidator, buildProviders_eq] at h
      cases h
    | true =>
      rw [beginCloudReplay_ok hdiagnostics hvalidator] at h
      obtain rfl := Except.ok.inj h
      exact quiet_of_none ⟨rfl, rfl⟩ (Nat.le_succ _) (processing_spawn _ rfl) hwas rfl

theorem beginStart_shows {cfg : Config} {token : Nat} {admission : Admission} {mode : AsrMode}
    {reply : Reply} (hnone : live a.state = none)
    (h : a.beginStart cfg mode admission.correlationId reply = .ok a') :
    Shows a (.captureAdmitted token admission) a' := by
  cases hvalidator : a.validator with
  | false => simp [Actor.beginStart, hvalidator, demand, bind, Except.bind] at h
  | true =>
    cases hcapture : a.capture with
    | false =>
      cases mode <;> simp [Actor.beginStart, demand, hvalidator, hcapture, buildProviders_eq, bind,
        Except.bind] at h
    | true =>
      obtain ⟨deepgram, groq, hok⟩ := beginStart_ok cfg hvalidator hcapture mode
        admission.correlationId reply
      rw [hok] at h
      obtain rfl := Except.ok.inj h
      exact .begins token admission rfl ⟨rfl, rfl⟩ rfl (processing_spawn _ rfl) hnone rfl

theorem beginCapture_shows {cfg : Config} {token : Nat} {admission : Admission} {mode : AsrMode}
    {reply : Reply} {pending : PendingCapture} {skips : Bool} (hidle : a.state = .idle)
    (h : a.beginCapture cfg admission reply pending mode = .ok (a', skips)) :
    Shows a (.captureAdmitted token admission) a' := by
  have hwas : ∀ evidence, a.state ≠ .processing evidence := by simp [hidle]
  have hnone : live a.state = none := by rw [hidle]; rfl
  have hmap {x : Except Panic Actor} {b : Bool} (h : x.map (·, b) = .ok (a', skips)) :
      x = .ok a' := by
    cases x with
    | error panic => cases h
    | ok b => rw [(Prod.mk.inj (Except.ok.inj h)).1]
  have hanswer {response : Response}
      (h : (Except.ok (a.answer reply response, true) : Except Panic _) = .ok (a', skips)) :
      Shows a (.captureAdmitted token admission) a' := by
    obtain ⟨rfl, -⟩ := Prod.mk.inj (Except.ok.inj h)
    exact (Frame.answer a reply response).quiet
  cases pending with
  | replay fixture =>
    cases mode with
    | localMode => exact beginLocalReplay_shows hwas (hmap h)
    | cloud =>
      simp only [Actor.beginCapture] at h
      split at h
      · exact hanswer h
      · exact beginCloudReplay_shows hwas (hmap h)
  | start =>
    cases mode with
    | cloud => exact beginStart_shows hnone (hmap h)
    | localMode =>
      simp only [Actor.beginCapture] at h
      split at h
      · exact hanswer h
      · exact beginStart_shows hnone (hmap h)

/-- an admission that has been reported leaves the actor idle, for what follows -/
theorem Shows.of_admitting {token : Nat} {pending : PendingCapture} {reply : Reply}
    (hwas : a.state = .admitting token pending reply) (h : Shows { a with state := .idle } e a') :
    Shows a e a' := by
  cases h with
  | quiet hoverlay hid htasks hlive hstate =>
    refine .quiet hoverlay hid htasks (Or.inr (hlive.elim id id)) fun evidence => ?_
    rw [hstate evidence, hwas]
    simp
  | begins token admission he hoverlay hid htasks hnone hlive =>
    exact .begins token admission he hoverlay hid htasks (by rw [hwas]; rfl) hlive
  | startFails hretains hid htasks hwas' hlive =>
    exact .startFails hretains hid htasks (by simp [hwas]) hlive
  | processes recording reply hoverlay hid htasks hwas' hstate => cases hwas'
  | lands evidence method fallbackReason truncated he hretains hid htasks hwas' hstate => cases hwas'
  | concludes evidence reply h => cases h.was

theorem captureAdmitted_shows {cfg : Config} {token : Nat} {admission : Admission} {skips : Bool}
    (h : a.captureAdmitted cfg token admission = .ok (a', skips)) :
    Shows a (.captureAdmitted token admission) a' := by
  unfold Actor.captureAdmitted at h
  split at h
  · rename_i current pending reply hstate
    split at h
    · obtain ⟨rfl, -⟩ := Prod.mk.inj (Except.ok.inj h)
      exact (Frame.refl a).quiet
    · refine Shows.of_admitting hstate ?_
      have hanswer {response : Response} (h : (Except.ok
          (Actor.answer { a with state := .idle } reply response, true) : Except Panic _) =
          .ok (a', skips)) : Shows { a with state := .idle } (.captureAdmitted token admission) a' := by
        obtain ⟨rfl, -⟩ := Prod.mk.inj (Except.ok.inj h)
        exact (Frame.answer _ reply response).quiet
      simp only at h
      split at h
      · exact hanswer h
      · split at h
        · exact hanswer h
        · exact beginCapture_shows rfl h
  · obtain ⟨rfl, -⟩ := Prod.mk.inj (Except.ok.inj h)
    exact (Frame.refl a).quiet

theorem concludeStart_shows {id : Nat} {correlationId : Text} {mode was : AsrMode} {reply : Reply}
    (hstate : a.state = .starting id correlationId was) (result : Except StartFailure Unit) :
    Shows a e (a.concludeStart id correlationId mode reply result) := by
  have hwas : ∀ evidence, a.state ≠ .processing evidence := by simp [hstate]
  unfold Actor.concludeStart
  split
  · split
    · exact quiet_of_none ⟨rfl, rfl⟩ (Nat.le_refl _) (processing_spawn _ rfl) hwas rfl
    · refine .quiet ⟨rfl, rfl⟩ (Nat.le_refl _) rfl (Or.inl (by rw [hstate]; rfl)) fun evidence => ?_
      rw [hstate]
      simp [Actor.answer]
  · rename_i failed
    have hretains : Retains a (a.retainOverlayEvent (overlayOutcome failed.failure)
        (publicMessage failed.failure.error) none) none := ⟨rfl, _, rfl, rfl, rfl⟩
    simp only
    split
    · exact .startFails hretains rfl (processing_spawn _ rfl) hwas rfl
    · exact .startFails hretains rfl rfl hwas rfl

theorem started_shows (cfg : Config) (a : Actor) (id : Nat) (mode : AsrMode) (reply : Reply)
    (result : Except StartFailure Unit) : Shows a e (a.started cfg id mode reply result) := by
  have hframe := Frame.returnStartup cfg a mode
  refine Shows.of_frame hframe ?_
  unfold Actor.started
  simp only
  split
  · rename_i startingId correlationId was hstate
    split
    · rename_i hid
      exact concludeStart_shows (hid ▸ hstate) result
    · exact (Frame.refl _).quiet
  · exact (Frame.refl _).quiet

theorem recovered_shows (a : Actor) (id : Nat) : Shows a e (a.recovered id) := by
  unfold Actor.recovered
  split
  · rename_i hstate
    exact quiet_of_none ⟨rfl, rfl⟩ (Nat.le_refl _) rfl (by simp [hstate]) rfl
  · exact (Frame.refl a).quiet

theorem replayCompleted_shows (cfg : Config) (a : Actor) (id : Nat) (reply : Reply)
    (response : Response) : Shows a e (a.replayCompleted cfg id reply response) := by
  have hslots : Frame a (if cfg.controlled then
      { a with deepgram := true, groq := true, validator := true }
      else { a with validator := true }) := by
    split <;> exact ⟨rfl, rfl, rfl, rfl, rfl⟩
  have hidle (b : Actor) :
      Shows b e (if b.state = .replaying id then { b with state := .idle } else b) := by
    split
    · rename_i hstate
      exact quiet_of_none ⟨rfl, rfl⟩ (Nat.le_refl _) rfl (by simp [hstate]) rfl
    · exact (Frame.refl b).quiet
  exact Shows.of_frame hslots ((hidle _).and_frame (.answer _ reply response))

theorem pumpTerminated_shows (a : Actor) (id : Nat) : Shows a e (a.pumpTerminated id) := by
  unfold Actor.pumpTerminated
  split
  · rename_i hstate
    split
    · exact stopUnattended_shows hstate
    · exact (Frame.refl a).quiet
  · exact (Frame.refl a).quiet

theorem deliveryLanded_shows (a : Actor) (id : Nat) (correlationId : Text) (method : DeliveryMethod)
    (fallbackReason : Option Text) (truncated : Bool) :
    Shows a (.deliveryLanded id correlationId method fallbackReason truncated)
      (a.deliveryLanded id correlationId method fallbackReason truncated) := by
  unfold Actor.deliveryLanded
  split
  · rename_i hprocessing
    unfold isProcessing at hprocessing
    split at hprocessing
    · rename_i evidence hstate
      obtain ⟨rfl, rfl⟩ : evidence.recordingId = id ∧ evidence.correlationId = correlationId := by
        simpa using hprocessing
      exact .lands evidence method fallbackReason truncated rfl ⟨rfl, _, rfl, rfl, rfl⟩ rfl rfl hstate
        rfl
    · cases hprocessing
  · exact (Frame.refl a).quiet

theorem shutdown_shows (a : Actor) : Shows a e a.shutdown := by
  have hframe : Frame a { a with shutdownAck := true } := ⟨rfl, rfl, rfl, rfl, rfl⟩
  refine Shows.of_frame hframe ?_
  unfold Actor.shutdown
  simp only
  by_cases hpending : ∃ token pending reply, a.state = .admitting token pending reply
  · obtain ⟨token, pending, reply, hstate⟩ := hpending
    have hcancel := cancelPendingAdmission_shows (e := e) { a with shutdownAck := true }
      "daemon is shutting down"
    simp only [Actor.cancelPendingAdmission, hstate] at hcancel ⊢
    exact hcancel
  · have hsame : Actor.cancelPendingAdmission { a with shutdownAck := true }
        "daemon is shutting down" = { a with shutdownAck := true } := by
      unfold Actor.cancelPendingAdmission
      split
      · rename_i token pending reply hstate
        exact absurd ⟨token, pending, reply, hstate⟩ hpending
      · rfl
    rw [hsame]
    split
    · rename_i hstate
      exact stopUnattended_shows hstate
    · exact (Frame.refl _).quiet

/-- a processing that reports is the one the actor waits for -/
theorem Waited.current (h : Waited a) {evidence : LifecycleEvidence} {reply : Option Reply}
    (hmem : Task.processing evidence reply ∈ a.tasks) : a.state = .processing evidence := by
  have hmem' : Task.processing evidence reply ∈ a.processing := List.mem_filter.mpr ⟨hmem, rfl⟩
  rcases h with h | ⟨current, held, hstate, hone⟩
  · rw [h] at hmem'
    cases hmem'
  · rw [hone, List.mem_singleton] at hmem'
    obtain ⟨rfl, -⟩ := Task.processing.inj hmem'
    exact hstate

theorem concludeProcessing_concludes {evidence evidence' : LifecycleEvidence}
    {reply : Option Reply} {result : Except Failure Unit} {b : Actor}
    (hstate : a.state = .processing evidence)
    (hb : b = { a with tasks := a.tasks.erase (.processing evidence reply), validator := true,
                       delivery := true, state := .idle })
    (hevidence : evidence'.correlationId = evidence.correlationId)
    (he : e.ends = some (.task (.processing evidence reply)))
    (hok : (∃ delivered, e = .completed evidence reply (.ok delivered)) → result = .ok ()) :
    Concludes evidence reply a e (b.concludeProcessing evidence' reply result) := by
  subst hb
  have htasks : (a.tasks.erase (.processing evidence reply)).filter Task.isProcessing =
      a.processing.erase (.processing evidence reply) := (List.erase_filter ..).symm
  cases result with
  | ok u =>
    simp only [Actor.concludeProcessing]
    split
    · rename_i hannounced
      refine Concludes.and_frame ?_ (.answerOptional _ reply _)
      refine ⟨he, .inl ⟨⟨rfl, rfl⟩, ?_⟩, rfl, htasks, hstate, rfl⟩
      rw [← hevidence]
      exact hannounced
    · rename_i hannounced
      refine Concludes.and_frame ?_ (.answerOptional _ reply _)
      refine ⟨he, .inr ⟨⟨rfl, _, rfl, rfl, by rw [← hevidence]⟩, fun _ => ?_⟩, rfl, htasks, hstate,
        rfl⟩
      rw [← hevidence]
      exact Bool.eq_false_iff.mpr hannounced
  | error failure =>
    simp only [Actor.concludeProcessing]
    refine Concludes.and_frame ?_ (.answerOptional _ reply _)
    refine ⟨he, .inr ⟨⟨rfl, _, rfl, rfl, by rw [← hevidence]⟩, fun h => ?_⟩, rfl, htasks, hstate,
      rfl⟩
    cases hok h

theorem completed_concludes {evidence evidence' : LifecycleEvidence} {reply : Option Reply}
    {result : Except Failure Unit} (hstate : a.state = .processing evidence)
    (hid : evidence'.recordingId = evidence.recordingId)
    (hevidence : evidence'.correlationId = evidence.correlationId)
    (he : e.ends = some (.task (.processing evidence reply)))
    (hok : (∃ delivered, e = .completed evidence reply (.ok delivered)) → result = .ok ()) :
    Concludes evidence reply a e
      ((a.close (.task (.processing evidence reply))).completed evidence' reply result) := by
  simp only [Actor.completed, Actor.close, hstate, hid, if_true]
  exact concludeProcessing_concludes hstate rfl hevidence he hok

/-- the message of a processing that has ended -/
theorem handle_concludes {cfg : Config} {skips : Bool} (hw : Waited a) (henabled : a.enabled e = true)
    {evidence : LifecycleEvidence} {reply : Option Reply}
    (he : e.ends = some (.task (.processing evidence reply)))
    (h : (a.closeEnded e).handle cfg e = .ok (a', skips)) : Concludes evidence reply a e a' := by
  have hstate := hw.current (mem_tasks_of_enabled henabled he)
  cases e with
  | completed evidence' reply' result =>
    cases he
    cases result with
    | ok delivered =>
      obtain ⟨rfl, -⟩ := Prod.mk.inj (Except.ok.inj h)
      exact completed_concludes hstate rfl rfl rfl fun _ => rfl
    | error failure =>
      obtain ⟨rfl, -⟩ := Prod.mk.inj (Except.ok.inj h)
      exact completed_concludes hstate rfl rfl rfl (by simp)
  | processingPanics evidence' reply' =>
    cases he
    obtain ⟨rfl, -⟩ := Prod.mk.inj (Except.ok.inj h)
    exact completed_concludes hstate rfl rfl rfl (by simp)
  | _ => cases he

theorem handle_shows {cfg : Config} {skips : Bool} (hw : Waited a) (henabled : a.enabled e = true)
    (h : (a.closeEnded e).handle cfg e = .ok (a', skips)) : Shows a e a' := by
  have hquiet {b : Actor} {skip : Bool} (hends : ∀ task, e.ends = some (.task task) →
      task.isProcessing = false) (hshows : Shows (a.closeEnded e) e b)
      (h : (Except.ok (b, skip) : Except Panic _) = .ok (a', skips)) : Shows a e a' := by
    obtain ⟨rfl, -⟩ := Prod.mk.inj (Except.ok.inj h)
    exact hshows.of_frame (.closeEnded a e hends)
  cases e with
  | command command read reply =>
    refine Shows.of_frame (Frame.closeEnded a (.command command read reply) (by simp [Event.ends])) ?_
    simp only [Actor.handle] at h
    cases hcommand : (a.closeEnded (.command command read reply)).command cfg read reply command with
    | error panic => rw [hcommand] at h; cases h
    | ok b =>
      rw [hcommand] at h
      obtain ⟨rfl, -⟩ := Prod.mk.inj (Except.ok.inj h)
      exact command_shows hcommand
  | captureAdmitted token admission =>
    exact Shows.of_frame (Frame.closeEnded a _ (by simp [Event.ends])) (captureAdmitted_shows h)
  | persisted mode reply response => exact hquiet (by simp [Event.ends]) (Frame.answer ..).quiet h
  | jobPanics job => exact hquiet (by simp [Event.ends]) (Frame.refl _).quiet h
  | statusAttached status => exact hquiet (by simp [Event.ends]) (Frame.answer ..).quiet h
  | statusPanics status => exact hquiet (by simp [Event.ends]) (Frame.refl _).quiet h
  | started id asrMode reply result =>
    exact hquiet (by simp [Event.ends, Task.isProcessing]) (started_shows ..) h
  | startupPanics id asrMode reply =>
    exact hquiet (by simp [Event.ends, Task.isProcessing]) (Frame.refl _).quiet h
  | recovered id => exact hquiet (by simp [Event.ends, Task.isProcessing]) (recovered_shows ..) h
  | recoveryPanics id => exact hquiet (by simp [Event.ends, Task.isProcessing]) (Frame.refl _).quiet h
  | completed evidence reply result =>
    exact .concludes evidence reply (handle_concludes hw henabled rfl h)
  | processingPanics evidence reply =>
    exact .concludes evidence reply (handle_concludes hw henabled rfl h)
  | replayCompleted id reply response =>
    exact hquiet (by simp [Event.ends, Task.isProcessing]) (replayCompleted_shows ..) h
  | replayPanics id reply =>
    exact hquiet (by simp [Event.ends, Task.isProcessing]) (replayCompleted_shows ..) h
  | pumpTerminated id => exact hquiet (by simp [Event.ends]) (pumpTerminated_shows ..) h
  | authorizeDelivery id correlationId =>
    exact hquiet (b := (a.closeEnded _).authorizeDelivery id correlationId) (by simp [Event.ends])
      (Frame.quiet ⟨rfl, rfl, rfl, rfl, rfl⟩) h
  | deliveryLanded id correlationId method fallbackReason truncated =>
    exact hquiet (by simp [Event.ends]) (deliveryLanded_shows ..) h
  | shortcutBound binding =>
    exact hquiet (b := { a.closeEnded (.shortcutBound binding) with shortcutBinding := binding })
      (by simp [Event.ends]) (Frame.quiet ⟨rfl, rfl, rfl, rfl, rfl⟩) h
  | shutdown => exact hquiet (by simp [Event.ends]) (shutdown_shows _) h

theorem step_eq_ok {cfg : Config} (h : a.step cfg e = .ok a') :
    ∃ b skips, (a.closeEnded e).handle cfg e = .ok (b, skips) ∧ Frame b a' := by
  unfold Actor.step at h
  cases hhandle : (a.closeEnded e).handle cfg e with
  | error panic => rw [hhandle] at h; cases h
  | ok result =>
    obtain ⟨b, skips⟩ := result
    rw [hhandle] at h
    refine ⟨b, skips, rfl, ?_⟩
    cases skips with
    | true =>
      obtain rfl := Except.ok.inj h
      exact .refl b
    | false =>
      obtain rfl := Except.ok.inj h
      exact .acknowledgeShutdown b

/-- **what a message does to the Overlay** -/
theorem step_shows {cfg : Config} (hw : Waited a) (henabled : a.enabled e = true)
    (h : a.step cfg e = .ok a') : Shows a e a' := by
  obtain ⟨b, skips, hhandle, hframe⟩ := step_eq_ok h
  exact (handle_shows hw henabled hhandle).and_frame hframe

theorem step_concludes {cfg : Config} (hw : Waited a) (henabled : a.enabled e = true)
    {evidence : LifecycleEvidence} {reply : Option Reply}
    (he : e.ends = some (.task (.processing evidence reply))) (h : a.step cfg e = .ok a') :
    Concludes evidence reply a e a' := by
  obtain ⟨b, skips, hhandle, hframe⟩ := step_eq_ok h
  exact (handle_concludes hw henabled he hhandle).and_frame hframe

theorem Waited.nil (hw : Waited a) (hwas : ∀ evidence, a.state ≠ .processing evidence) :
    a.processing = [] := by
  rcases hw with hnil | ⟨evidence, reply, hstate, -⟩
  · exact hnil
  · exact absurd hstate (hwas evidence)

theorem Shows.waited (h : Shows a e a') (hw : Waited a) (henabled : a.enabled e = true) :
    Waited a' := by
  cases h with
  | quiet hoverlay hid htasks hlive hstate =>
    rcases hw with hnil | ⟨evidence, reply, hwas, hone⟩
    · exact .inl (htasks.trans hnil)
    · exact .inr ⟨evidence, reply, (hstate evidence).mpr hwas, htasks.trans hone⟩
  | begins token admission he hoverlay hid htasks hnone hlive =>
    refine .inl (htasks.trans (hw.nil fun evidence hwas => ?_))
    rw [hwas] at hnone
    cases hnone
  | processes recording reply hoverlay hid htasks hwas hstate =>
    refine .inr ⟨recording.evidence, reply, hstate, ?_⟩
    rw [htasks, hw.nil (by simp [hwas])]
    rfl
  | startFails hretains hid htasks hwas hlive => exact .inl (htasks.trans (hw.nil hwas))
  | lands evidence method fallbackReason truncated he hretains hid htasks hwas hstate =>
    rcases hw with hnil | ⟨evidence', reply, hwas', hone⟩
    · exact .inl (htasks.trans hnil)
    · exact .inr ⟨evidence', reply, hstate.trans hwas', htasks.trans hone⟩
  | concludes evidence reply h =>
    have hmem : Task.processing evidence reply ∈ a.processing :=
      List.mem_filter.mpr ⟨mem_tasks_of_enabled henabled h.ends, rfl⟩
    rcases hw with hnil | ⟨evidence', reply', -, hone⟩
    · rw [hnil] at hmem
      cases hmem
    · rw [hone, List.mem_singleton] at hmem
      refine .inl (h.tasks.trans ?_)
      rw [hone, hmem, List.erase_cons_head]

end

end Voisu.Daemon
