import Mathlib
import Voisu.Daemon.Actor

/-!
# What every handler of the actor keeps

Each state waits for one task, the pending admission is in the queue, and a reply that a handler
takes out of one place it puts into another.

* `Awaits`          each state with the one task it waits for and the adapters that task has out;
* `Queued`          the tokens of the outstanding admissions, the pending one among them;
* `Actor.accounted` the replies that are answered or that something still holds;
* `Handles`         what a handler comes to;
* `Inv.command`, `Inv.captureAdmitted`, `Inv.started`, …   one lemma for each message.
-/

namespace Voisu.Daemon

/-! ## who carries a state, who holds a reply -/

def Task.recordingId : Task → Nat
  | .startup id _ _ | .recovery id | .replay id _ => id
  | .processing evidence _ => evidence.recordingId

/-- the workflow carries the token or the Recording id of the state -/
def carries : ActorState → Workflow → Bool
  | .admitting token _ _, .job (.admission admitted) => admitted = token
  | .starting id _ _, .task task | .recovering id, .task task | .replaying id, .task task =>
    task.recordingId = id
  | .processing evidence, .task task => task.recordingId = evidence.recordingId
  | _, _ => false

/-- the states other than Idle and Recording -/
def ActorState.waits : ActorState → Bool
  | .idle | .recording _ => false
  | .admitting .. | .starting .. | .processing _ | .recovering _ | .replaying _ => true

def ActorState.replies : ActorState → List Reply
  | .admitting _ _ reply => [reply]
  | _ => []

def AsrModeJob.replies : AsrModeJob → List Reply
  | .persist _ reply => [reply]
  | .admission _ => []

def Task.replies : Task → List Reply
  | .startup _ _ reply | .replay _ reply => [reply]
  | .recovery _ => []
  | .processing _ reply => reply.toList

def Actor.held (a : Actor) : List Reply :=
  a.state.replies ++ a.queue.flatMap AsrModeJob.replies ++ a.tasks.flatMap Task.replies ++
    a.statuses.map StatusReply.reply

/-- the replies that are answered or held -/
def Actor.accounted (a : Actor) : List Reply := a.answered.map Prod.fst ++ a.held

def Event.replies : Event → List Reply
  | .command _ _ reply => [reply]
  | _ => []

/-! ## the invariant -/

/-- each state with the task it waits for, and whether the capture, the validator and the Delivery
adapter are in their slots -/
inductive Awaits : ActorState → List Task → Bool → Bool → Bool → Prop where
  | idle : Awaits .idle [] true true true
  | admitting token pending reply : Awaits (.admitting token pending reply) [] true true true
  | starting id correlationId asrMode reply :
      Awaits (.starting id correlationId asrMode) [.startup id asrMode reply] false true true
  | recording recording : Awaits (.recording recording) [] true true true
  | processing evidence reply :
      Awaits (.processing evidence) [.processing evidence reply] true false false
  | recovering id : Awaits (.recovering id) [.recovery id] true true true
  | replaying id reply : Awaits (.replaying id) [.replay id reply] true false true

structure Queued (cfg : Config) (state : ActorState) (queue : List AsrModeJob) (next : Nat) :
    Prop where
  once : ∀ token, queue.count (.admission token) ≤ 1
  fresh : ∀ token, AsrModeJob.admission token ∈ queue → token < next
  pending : ∀ token pending reply, state = .admitting token pending reply →
    AsrModeJob.admission token ∈ queue ∧ (pending = .start ∨ cfg.diagnostics = true)

/-- the states in which a shutdown is waited for -/
def ActorState.winds : ActorState → Bool
  | .starting .. | .processing _ | .recovering _ | .replaying _ => true
  | .idle | .admitting .. | .recording _ => false

structure Inv (cfg : Config) (a : Actor) : Prop where
  awaits : Awaits a.state a.tasks a.capture a.validator a.delivery
  queued : Queued cfg a.state a.queue a.nextAdmissionToken
  alive : a.queueAlive = true
  winding : a.shutdownAck = true → a.state.winds = true

theorem Inv.new (cfg : Config) : Inv cfg Actor.new where
  awaits := .idle
  queued := ⟨by simp [Actor.new], by simp [Actor.new], by simp [Actor.new]⟩
  alive := rfl
  winding := by simp [Actor.new]

/-! ## the queue of admissions -/

section
variable {cfg : Config} {state state' : ActorState} {queue : List AsrModeJob} {next : Nat}

/-- a state that waits for no admission asks nothing of the queue -/
theorem Queued.leave (h : Queued cfg state queue next) (hs : state'.replies = []) :
    Queued cfg state' queue next where
  once := h.once
  fresh := h.fresh
  pending := by
    intro token pending reply heq
    rw [heq] at hs
    exact absurd hs (List.cons_ne_nil _ _)

theorem Queued.push (h : Queued cfg .idle queue next) {pending : PendingCapture} {reply : Reply}
    (hpending : pending = .start ∨ cfg.diagnostics = true) :
    Queued cfg (.admitting next pending reply) (queue ++ [.admission next]) (next + 1) where
  once := by
    intro token
    rw [List.count_append]
    by_cases htoken : token = next
    · have hnone : queue.count (.admission token) = 0 := by
        refine List.count_eq_zero.mpr fun hmem => ?_
        have := h.fresh token hmem
        omega
      rw [hnone, htoken]
      simp
    · have hnew : [AsrModeJob.admission next].count (.admission token) = 0 := by
        simpa [List.count_eq_zero] using htoken
      rw [hnew]
      exact h.once token
  fresh := by
    intro token hmem
    rcases List.mem_append.mp hmem with hold | hnew
    · have := h.fresh token hold
      omega
    · obtain rfl : token = next := by simpa using hnew
      omega
  pending := by
    intro token pending' reply' heq
    cases heq
    exact ⟨by simp, hpending⟩

theorem Queued.pushPersist (h : Queued cfg state queue next) (mode : AsrMode) (reply : Reply) :
    Queued cfg state (queue ++ [.persist mode reply]) next where
  once := by
    intro token
    have hnew : [AsrModeJob.persist mode reply].count (.admission token) = 0 := by
      simp
    rw [List.count_append, hnew]
    exact h.once token
  fresh := by
    intro token hmem
    exact h.fresh token (by simpa using hmem)
  pending := by
    intro token pending reply' heq
    obtain ⟨hmem, hpending⟩ := h.pending token pending reply' heq
    exact ⟨List.mem_append_left _ hmem, hpending⟩

/-- a job other than the pending admission ends -/
theorem Queued.erase (h : Queued cfg state queue next) {job : AsrModeJob}
    (hjob : ∀ token pending reply, state = .admitting token pending reply → job ≠ .admission token) :
    Queued cfg state (queue.erase job) next where
  once := fun token => Nat.le_trans (List.erase_sublist.count_le _) (h.once token)
  fresh := fun token hmem => h.fresh token (List.mem_of_mem_erase hmem)
  pending := by
    intro token pending reply heq
    obtain ⟨hmem, hpending⟩ := h.pending token pending reply heq
    exact ⟨(List.mem_erase_of_ne (hjob token pending reply heq).symm).mpr hmem, hpending⟩

end

/-! ## the states and their tasks -/

section
variable {cfg : Config} {a : Actor}

theorem Inv.of_startup (h : Inv cfg a) {id : Nat} {asrMode : AsrMode} {reply : Reply}
    (hmem : Task.startup id asrMode reply ∈ a.tasks) : ∃ correlationId,
    a.state = .starting id correlationId asrMode ∧ a.tasks = [.startup id asrMode reply] ∧
      a.validator = true ∧ a.delivery = true := by
  have hawaits := h.awaits
  generalize a.state = state, a.tasks = tasks, a.capture = capture, a.validator = validator,
    a.delivery = delivery at hawaits hmem ⊢
  cases hawaits with
  | starting id' correlationId asrMode' reply' =>
    obtain ⟨rfl, rfl, rfl⟩ : id = id' ∧ asrMode = asrMode' ∧ reply = reply' := by simpa using hmem
    exact ⟨correlationId, rfl, rfl, rfl, rfl⟩
  | idle | admitting | recording | processing | recovering | replaying => simp at hmem

theorem Inv.of_recovery (h : Inv cfg a) {id : Nat} (hmem : Task.recovery id ∈ a.tasks) :
    a.state = .recovering id ∧ a.tasks = [.recovery id] ∧ a.capture = true ∧
      a.validator = true ∧ a.delivery = true := by
  have hawaits := h.awaits
  generalize a.state = state, a.tasks = tasks, a.capture = capture, a.validator = validator,
    a.delivery = delivery at hawaits hmem ⊢
  cases hawaits with
  | recovering id' =>
    obtain rfl : id = id' := by simpa using hmem
    exact ⟨rfl, rfl, rfl, rfl, rfl⟩
  | idle | admitting | recording | processing | starting | replaying => simp at hmem

theorem Inv.of_processing (h : Inv cfg a) {evidence : LifecycleEvidence} {reply : Option Reply}
    (hmem : Task.processing evidence reply ∈ a.tasks) :
    a.state = .processing evidence ∧ a.tasks = [.processing evidence reply] ∧ a.capture = true := by
  have hawaits := h.awaits
  generalize a.state = state, a.tasks = tasks, a.capture = capture, a.validator = validator,
    a.delivery = delivery at hawaits hmem ⊢
  cases hawaits with
  | processing evidence' reply' =>
    obtain ⟨rfl, rfl⟩ : evidence = evidence' ∧ reply = reply' := by simpa using hmem
    exact ⟨rfl, rfl, rfl⟩
  | idle | admitting | recording | recovering | starting | replaying => simp at hmem

theorem Inv.of_replay (h : Inv cfg a) {id : Nat} {reply : Reply}
    (hmem : Task.replay id reply ∈ a.tasks) :
    a.state = .replaying id ∧ a.tasks = [.replay id reply] ∧ a.capture = true ∧
      a.delivery = true := by
  have hawaits := h.awaits
  generalize a.state = state, a.tasks = tasks, a.capture = capture, a.validator = validator,
    a.delivery = delivery at hawaits hmem ⊢
  cases hawaits with
  | replaying id' reply' =>
    obtain ⟨rfl, rfl⟩ : id = id' ∧ reply = reply' := by simpa using hmem
    exact ⟨rfl, rfl, rfl, rfl⟩
  | idle | admitting | recording | processing | starting | recovering => simp at hmem

/-- the states without a task have every adapter in its slot -/
theorem Inv.at_rest (h : Inv cfg a) (hstate : a.state.winds = false) :
    a.tasks = [] ∧ a.capture = true ∧ a.validator = true ∧ a.delivery = true := by
  have hawaits := h.awaits
  generalize a.state = state, a.tasks = tasks, a.capture = capture, a.validator = validator,
    a.delivery = delivery at hawaits hstate ⊢
  cases hawaits with
  | idle | admitting | recording => exact ⟨rfl, rfl, rfl, rfl⟩
  | starting | processing | recovering | replaying => cases hstate

theorem Inv.no_shutdown (h : Inv cfg a) (hstate : a.state.winds = false) :
    a.shutdownAck = false := by
  by_contra hack
  have := h.winding (by simpa using hack)
  rw [hstate] at this
  cases this

end

/-! ## where the replies are -/

theorem Actor.count_accounted (a : Actor) (r : Reply) : a.accounted.count r =
    (a.answered.map Prod.fst).count r + a.state.replies.count r +
      (a.queue.flatMap AsrModeJob.replies).count r + (a.tasks.flatMap Task.replies).count r +
      (a.statuses.map StatusReply.reply).count r := by
  simp only [Actor.accounted, Actor.held, List.count_append]
  omega

theorem count_flatMap_erase {α : Type} [DecidableEq α] (f : α → List Reply) {x : α} {xs : List α}
    (hx : x ∈ xs) (r : Reply) :
    (xs.flatMap f).count r = (f x).count r + ((xs.erase x).flatMap f).count r := by
  have hperm := (List.perm_cons_erase hx).flatMap_right f
  rw [hperm.count_eq, List.flatMap_cons, List.count_append]

/-! ## what handling a message comes to -/

/-- the handler of `e` leads from `a` to `a'`: the invariant, up to a shutdown that is about to be
acknowledged, and the account of the replies -/
structure Handles (cfg : Config) (a : Actor) (e : Event) (skips : Bool) (a' : Actor) : Prop where
  awaits : Awaits a'.state a'.tasks a'.capture a'.validator a'.delivery
  queued : Queued cfg a'.state a'.queue a'.nextAdmissionToken
  alive : a'.queueAlive = true
  winding : a'.shutdownAck = true → a'.state.winds = true ∨ (a'.state = .idle ∧ skips = false)
  replied : ∀ r, a'.accounted.count r = a.accounted.count r + e.replies.count r
  counter : a'.nextAdmissionToken ≤ a.nextAdmissionToken + 1
  authorized : ∀ id correlationId answer, (id, correlationId, answer) ∈ a'.authorizations →
    (id, correlationId, answer) ∈ a.authorizations ∨ answer = isProcessing a.state id correlationId
  acknowledged : a'.acknowledged = a.acknowledged
  moves : ∀ w, e.ends = some w → carries a.state w = true → a'.state ≠ a.state

section
variable {cfg : Config} {a : Actor} {c : Command} {read : StoreRead} {reply : Reply}

/-- a command that is answered at once -/
theorem Inv.answers (h : Inv cfg a) (response : Response) :
    Handles cfg a (.command c read reply) false (a.answer reply response) where
  awaits := h.awaits
  queued := h.queued
  alive := h.alive
  winding := fun hack => .inl (h.winding hack)
  replied := by
    intro r
    simp only [Actor.count_accounted, Actor.answer, Event.replies, List.map_append, List.map_cons,
      List.map_nil, List.count_append]
    omega
  counter := Nat.le_succ _
  authorized := fun _ _ _ hmem => .inl hmem
  acknowledged := rfl
  moves := fun _ hends => by cases hends

theorem Inv.asksStatus (h : Inv cfg a) (response : Response) :
    Handles cfg a (.command c read reply) false (a.replyWithAsrStatus response reply) where
  awaits := h.awaits
  queued := h.queued
  alive := h.alive
  winding := fun hack => .inl (h.winding hack)
  replied := by
    intro r
    simp only [Actor.count_accounted, Actor.replyWithAsrStatus, Event.replies, List.map_append,
      List.map_cons, List.map_nil, List.count_append]
    omega
  counter := Nat.le_succ _
  authorized := fun _ _ _ hmem => .inl hmem
  acknowledged := rfl
  moves := fun _ hends => by cases hends

theorem Inv.persists (h : Inv cfg a) (mode : AsrMode) :
    Handles cfg a (.command c read reply) false (a.persist mode reply) := by
  rw [Actor.persist, if_pos h.alive]
  exact
    { awaits := h.awaits
      queued := h.queued.pushPersist mode reply
      alive := h.alive
      winding := fun hack => .inl (h.winding hack)
      replied := by
        intro r
        simp only [Actor.count_accounted, Event.replies, List.flatMap_append, List.flatMap_cons,
          List.flatMap_nil, AsrModeJob.replies, List.append_nil, List.count_append]
        omega
      counter := Nat.le_succ _
      authorized := fun _ _ _ hmem => .inl hmem
      acknowledged := rfl
      moves := fun _ hends => by cases hends }

theorem saturatingSucc_eq {n : Nat} (h : n < u64Max) : saturatingSucc n = n + 1 := by
  rw [saturatingSucc]
  omega

example : saturatingSucc u64Max = u64Max := by decide +kernel

theorem Inv.admits (h : Inv cfg a) (hidle : a.state = .idle)
    (hbound : a.nextAdmissionToken < u64Max) {pending : PendingCapture} (hpending : pending = .start ∨ cfg.diagnostics = true) :
    ∃ a', a.beginAdmission pending reply = .ok a' ∧
      Handles cfg a (.command c read reply) false a' := by
  have hrest := h.at_rest (by rw [hidle]; rfl)
  have hack := h.no_shutdown (by rw [hidle]; rfl)
  refine ⟨_, by simp only [Actor.beginAdmission, Actor.enqueueCaptureAdmission, h.alive]; rfl, ?_⟩
  exact
    { awaits := by
        simp only [hrest]
        exact .admitting _ _ _
      queued := by
        simp only [saturatingSucc_eq hbound]
        exact (hidle ▸ h.queued).push hpending
      alive := rfl
      winding := fun hpend => absurd (hack.symm.trans hpend) Bool.false_ne_true
      replied := by
        intro r
        simp only [Actor.count_accounted, hidle, Event.replies, ActorState.replies,
          List.flatMap_append, List.flatMap_cons, List.flatMap_nil, AsrModeJob.replies,
          List.append_nil, List.count_nil]
        omega
      counter := by
        simp only [saturatingSucc_eq hbound]
        exact Nat.le_refl _
      authorized := fun _ _ _ hmem => .inl hmem
      acknowledged := rfl
      moves := fun _ hends => by cases hends }

/-- a stop or a toggle while the admission is pending: both clients are answered -/
theorem Inv.cancels (h : Inv cfg a) {token : Nat} {pending : PendingCapture} {waiting : Reply}
    (hstate : a.state = .admitting token pending waiting) (message message' : String) :
    Handles cfg a (.command c read reply) false
      ((a.cancelPendingAdmission message).reject reply .idle message') := by
  have hrest := h.at_rest (by rw [hstate]; rfl)
  have hack := h.no_shutdown (by rw [hstate]; rfl)
  simp only [Actor.cancelPendingAdmission, hstate, Actor.reject, Actor.answer]
  exact
    { awaits := by
        simp only [hrest]
        exact .idle
      queued := h.queued.leave rfl
      alive := h.alive
      winding := fun hpend => absurd (hack.symm.trans hpend) Bool.false_ne_true
      replied := by
        intro r
        simp only [Actor.count_accounted, hstate, Event.replies, ActorState.replies,
          List.map_append, List.map_cons, List.map_nil, List.count_append, List.count_nil]
        omega
      counter := Nat.le_succ _
      authorized := fun _ _ _ hmem => .inl hmem
      acknowledged := rfl
      moves := fun _ hends => by cases hends }

theorem Inv.stops (h : Inv cfg a) {recording : ActiveRecording}
    (hstate : a.state = .recording recording) :
    Handles cfg a (.command c read reply) false (a.stopFor recording reply) := by
  obtain ⟨htasks, hcapture, hvalidator, hdelivery⟩ := h.at_rest (by rw [hstate]; rfl)
  have hack := h.no_shutdown (by rw [hstate]; rfl)
  simp only [Actor.stopFor, Actor.spawnRecordingProcessing, hvalidator, hdelivery, Bool.and_self,
    if_true, Actor.spawn, htasks, List.nil_append]
  exact
    { awaits := by
        simp only [hcapture]
        exact .processing _ _
      queued := h.queued.leave rfl
      alive := h.alive
      winding := fun _ => .inl rfl
      replied := by
        intro r
        simp only [Actor.count_accounted, hstate, htasks, Event.replies, ActorState.replies,
          List.flatMap_cons, List.flatMap_nil, Task.replies, Option.toList_some, List.append_nil,
          List.count_nil]
        omega
      counter := Nat.le_succ _
      authorized := fun _ _ _ hmem => .inl hmem
      acknowledged := rfl
      moves := fun _ hends => by cases hends }

theorem Inv.replayCommand (h : Inv cfg a) (hbound : a.nextAdmissionToken < u64Max)
    (fixture : Text) : ∃ a', a.replayCommand cfg fixture reply = .ok a' ∧
      Handles cfg a (.command c read reply) false a' := by
  by_cases hdiagnostics : cfg.diagnostics = true
  · cases hstate : a.state with
    | idle =>
      simp only [Actor.replayCommand, hdiagnostics, hstate, Bool.not_true, Bool.false_eq_true,
        if_false]
      exact h.admits hstate hbound (.inr hdiagnostics)
    | admitting | starting | recording | processing | recovering | replaying =>
      simp only [Actor.replayCommand, hdiagnostics, hstate, Bool.not_true, Bool.false_eq_true,
        if_false]
      exact ⟨_, rfl, h.answers _⟩
  · simp only [Actor.replayCommand, hdiagnostics, Bool.not_false, if_true]
    exact ⟨_, rfl, h.answers _⟩

theorem Inv.startCommand (h : Inv cfg a) (hbound : a.nextAdmissionToken < u64Max) :
    ∃ a', a.startCommand reply = .ok a' ∧ Handles cfg a (.command c read reply) false a' := by
  cases hstate : a.state with
  | idle =>
    simp only [Actor.startCommand, hstate]
    exact h.admits hstate hbound (.inl rfl)
  | admitting | starting | recording | processing | recovering | replaying =>
    simp only [Actor.startCommand, hstate]
    exact ⟨_, rfl, h.answers _⟩

theorem Inv.stopCommand (h : Inv cfg a) :
    Handles cfg a (.command c read reply) false (a.stopCommand reply) := by
  cases hstate : a.state with
  | admitting =>
    simp only [Actor.stopCommand, hstate]
    exact h.cancels hstate _ _
  | recording =>
    simp only [Actor.stopCommand, hstate]
    exact h.stops hstate
  | idle | starting | processing | recovering | replaying =>
    simp only [Actor.stopCommand, hstate]
    exact h.answers _

theorem Inv.toggleCommand (h : Inv cfg a) (hbound : a.nextAdmissionToken < u64Max) :
    ∃ a', a.toggleCommand reply = .ok a' ∧ Handles cfg a (.command c read reply) false a' := by
  cases hstate : a.state with
  | idle =>
    simp only [Actor.toggleCommand, hstate]
    exact h.admits hstate hbound (.inl rfl)
  | admitting =>
    simp only [Actor.toggleCommand, hstate]
    exact ⟨_, rfl, h.cancels hstate _ _⟩
  | recording =>
    simp only [Actor.toggleCommand, hstate]
    exact ⟨_, rfl, h.stops hstate⟩
  | starting | processing | recovering | replaying =>
    simp only [Actor.toggleCommand, hstate]
    exact ⟨_, rfl, h.answers _⟩

theorem Inv.command (h : Inv cfg a) (hbound : a.nextAdmissionToken < u64Max) :
    ∃ a', a.command cfg read reply c = .ok a' ∧
      Handles cfg a (.command c read reply) false a' := by
  cases c with
  | status | overlayStatus => exact ⟨_, rfl, h.asksStatus _⟩
  | setAsrMode mode => exact ⟨_, rfl, h.persists mode⟩
  | level | shortcut | history | exportRecord => exact ⟨_, rfl, h.answers _⟩
  | replay fixture => exact h.replayCommand hbound fixture
  | start => exact h.startCommand hbound
  | stop => exact ⟨_, rfl, h.stopCommand⟩
  | toggle => exact h.toggleCommand hbound

end

/-! ## a capture is admitted -/

theorem beginLocalReplay_ok {cfg : Config} {a : Actor} (hdiagnostics : cfg.diagnostics = true)
    (hvalidator : a.validator = true) (reply : Reply) :
    a.beginLocalReplay cfg reply = .ok ({ a with
      nextId := a.nextId + 1, state := .replaying a.nextId, validator := false }.spawn
        (.replay a.nextId reply)) := by
  simp only [Actor.beginLocalReplay, demand, hdiagnostics, hvalidator]
  rfl

theorem buildProviders_eq (cfg : Config) (a : Actor) :
    a.buildProviders cfg = { a with deepgram := true, groq := true } := by
  unfold Actor.buildProviders
  split
  · rfl
  · rename_i hbuilt
    obtain ⟨⟨-, hdeepgram⟩, hgroq⟩ :
        (cfg.controlled = true ∧ a.deepgram = true) ∧ a.groq = true := by simpa using hbuilt
    cases a
    subst hdeepgram hgroq
    rfl

theorem beginCloudReplay_ok {cfg : Config} {a : Actor} (hdiagnostics : cfg.diagnostics = true)
    (hvalidator : a.validator = true) (reply : Reply) :
    a.beginCloudReplay cfg reply = .ok ({ a with
      nextId := a.nextId + 1, state := .replaying a.nextId, deepgram := false, groq := false,
      validator := false }.spawn (.replay a.nextId reply)) := by
  simp only [Actor.beginCloudReplay, demand, hdiagnostics, hvalidator, buildProviders_eq]
  rfl

theorem beginStart_ok (cfg : Config) {a : Actor} (hvalidator : a.validator = true)
    (hcapture : a.capture = true) (mode : AsrMode) (correlationId : Text) (reply : Reply) :
    ∃ deepgram groq, a.beginStart cfg mode correlationId reply = .ok ({ a with
      nextId := a.nextId + 1, state := .starting a.nextId correlationId mode, capture := false,
      deepgram, groq }.spawn (.startup a.nextId mode reply)) := by
  cases mode with
  | cloud =>
    refine ⟨false, false, ?_⟩
    simp only [Actor.beginStart, demand, hvalidator, hcapture, buildProviders_eq]
    rfl
  | localMode =>
    refine ⟨a.deepgram, a.groq, ?_⟩
    simp only [Actor.beginStart, demand, hvalidator, hcapture, if_true, bind, Except.bind, pure,
      Except.pure]

section
variable {cfg : Config} {a : Actor} {token : Nat} {admission : Admission}

/-- an admission nobody waits for any more -/
theorem Inv.ignores (h : Inv cfg a) (hmem : AsrModeJob.admission token ∈ a.queue)
    (hstale : ∀ token' pending reply, a.state = .admitting token' pending reply → token' ≠ token) :
    Handles cfg a (.captureAdmitted token admission) true
      { a with queue := a.queue.erase (.admission token) } where
  awaits := h.awaits
  queued := by
    refine h.queued.erase fun token' pending reply hstate heq => ?_
    cases heq
    exact hstale _ _ _ hstate rfl
  alive := h.alive
  winding := fun hack => .inl (h.winding hack)
  replied := by
    intro r
    have := count_flatMap_erase AsrModeJob.replies hmem r
    simp only [Actor.count_accounted, Event.replies, AsrModeJob.replies, List.count_nil] at this ⊢
    omega
  counter := Nat.le_succ _
  authorized := fun _ _ _ hmem => .inl hmem
  acknowledged := rfl
  moves := by
    intro w hends hcarries
    obtain rfl : Workflow.job (.admission token) = w := by simpa [Event.ends] using hends
    cases hstate : a.state with
    | admitting token' pending reply =>
      rw [hstate] at hcarries
      exact absurd (by simpa [carries] using hcarries) (hstale _ _ _ hstate).symm
    | idle | starting | recording | processing | recovering | replaying =>
      rw [hstate] at hcarries
      cases hcarries

variable {pending : PendingCapture} {reply : Reply}

/-- the pending admission ends and its client is answered -/
theorem Inv.refuses (h : Inv cfg a) (hmem : AsrModeJob.admission token ∈ a.queue)
    (hstate : a.state = .admitting token pending reply) (response : Response) :
    Handles cfg a (.captureAdmitted token admission) true
      ({ a with queue := a.queue.erase (.admission token), state := .idle }.answer reply response) := by
  have hrest := h.at_rest (by rw [hstate]; rfl)
  have hack := h.no_shutdown (by rw [hstate]; rfl)
  exact
    { awaits := by
        simp only [Actor.answer, hrest]
        exact .idle
      queued := (h.queued.leave rfl : Queued cfg .idle _ _).erase (fun _ _ _ heq => by cases heq)
      alive := h.alive
      winding := fun hpend => absurd (hack.symm.trans hpend) Bool.false_ne_true
      replied := by
        intro r
        have := count_flatMap_erase AsrModeJob.replies hmem r
        simp only [Actor.count_accounted, Actor.answer, hstate, Event.replies, AsrModeJob.replies,
          ActorState.replies, List.map_append, List.map_cons, List.map_nil, List.count_append,
          List.count_nil] at this ⊢
        omega
      counter := Nat.le_succ _
      authorized := fun _ _ _ hmem => .inl hmem
      acknowledged := rfl
      moves := by
        intro _ _ _ heq
        rw [hstate] at heq
        cases heq }

/-- the pending admission ends and its reply moves to the task that is spawned -/
theorem Inv.launches (h : Inv cfg a) (hmem : AsrModeJob.admission token ∈ a.queue)
    (hstate : a.state = .admitting token pending reply) {a' : Actor} (task : Task)
    (hawaits : Awaits a'.state [task] a'.capture a'.validator a'.delivery)
    (hwinds : a'.state.winds = true) (hstateReplies : a'.state.replies = [])
    (hreply : task.replies = [reply]) (htasks : a'.tasks = [task])
    (hfields : (a'.queue, a'.nextAdmissionToken, a'.queueAlive, a'.answered, a'.statuses,
      a'.authorizations, a'.acknowledged) = (a.queue.erase (.admission token), a.nextAdmissionToken,
      a.queueAlive, a.answered, a.statuses, a.authorizations, a.acknowledged)) :
    Handles cfg a (.captureAdmitted token admission) false a' := by
  have hrest := h.at_rest (by rw [hstate]; rfl)
  simp only [Prod.mk.injEq] at hfields
  obtain ⟨hqueue, hnext, halive, hanswered, hstatuses, hauthorizations, hacknowledged⟩ := hfields
  exact
    { awaits := htasks ▸ hawaits
      queued := by
        rw [hqueue, hnext]
        exact (h.queued.leave hstateReplies).erase
          (fun _ _ _ heq => by rw [heq] at hstateReplies; cases hstateReplies)
      alive := halive.trans h.alive
      winding := fun _ => .inl hwinds
      replied := by
        intro r
        have := count_flatMap_erase AsrModeJob.replies hmem r
        have hwaiting : a.state.replies = [reply] := by rw [hstate]; rfl
        simp only [Actor.count_accounted, hqueue, hanswered, hstatuses, htasks, hstateReplies,
          hreply, hwaiting, hrest, Event.replies, AsrModeJob.replies, List.flatMap_cons, List.flatMap_nil,
          List.append_nil, List.count_nil] at this ⊢
        omega
      counter := by
        rw [hnext]
        exact Nat.le_succ _
      authorized := by
        rw [hauthorizations]
        exact fun _ _ _ hmem => .inl hmem
      acknowledged := hacknowledged
      moves := by
        intro _ _ _ heq
        rw [heq, hstate] at hstateReplies
        cases hstateReplies }

theorem Inv.beginCapture (h : Inv cfg a) (hmem : AsrModeJob.admission token ∈ a.queue)
    (hstate : a.state = .admitting token pending reply) (mode : AsrMode) :
    ∃ a' skips, { a with queue := a.queue.erase (.admission token), state := .idle }.beginCapture cfg
      admission reply pending mode = .ok (a', skips) ∧
      Handles cfg a (.captureAdmitted token admission) skips a' := by
  obtain ⟨htasks, hcapture, hvalidator, hdelivery⟩ := h.at_rest (by rw [hstate]; rfl)
  obtain ⟨-, hdiagnostics⟩ := h.queued.pending _ _ _ hstate
  have hstart : ∀ mode, ∃ a', { a with queue := a.queue.erase (.admission token),
                                       state := .idle }.beginStart cfg mode admission.correlationId
      reply = .ok a' ∧ Handles cfg a (.captureAdmitted token admission) false a' := by
    intro mode
    obtain ⟨deepgram, groq, hok⟩ := beginStart_ok cfg
      (a := { a with queue := a.queue.erase (.admission token), state := .idle }) hvalidator hcapture
      mode admission.correlationId reply
    refine ⟨_, hok, h.launches hmem hstate _ ?_ rfl rfl rfl
      (by simp only [Actor.spawn, htasks]; rfl) rfl⟩
    simp only [Actor.spawn, hvalidator, hdelivery]
    exact .starting _ _ _ _
  cases pending with
  | start =>
    cases mode with
    | cloud =>
      obtain ⟨a', hok, hhandles⟩ := hstart .cloud
      exact ⟨a', false, by simp only [Actor.beginCapture, hok, Except.map], hhandles⟩
    | localMode =>
      cases hquota : admission.quota with
      | some message =>
        simp only [Actor.beginCapture, hquota]
        exact ⟨_, _, rfl, h.refuses hmem hstate _⟩
      | none =>
        obtain ⟨a', hok, hhandles⟩ := hstart .localMode
        exact ⟨a', false, by simp only [Actor.beginCapture, hquota, hok, Except.map], hhandles⟩
  | replay fixture =>
    have hdiagnostics : cfg.diagnostics = true := hdiagnostics.resolve_left (by simp)
    cases mode with
    | cloud =>
      cases hrefusal : admission.refusal with
      | some message =>
        simp only [Actor.beginCapture, hrefusal]
        exact ⟨_, _, rfl, h.refuses hmem hstate _⟩
      | none =>
        simp only [Actor.beginCapture, hrefusal]
        rw [beginCloudReplay_ok hdiagnostics]
        · refine ⟨_, _, rfl, h.launches hmem hstate (.replay a.nextId reply) ?_
          rfl rfl rfl ?_ rfl⟩
          · simp only [Actor.spawn, hcapture, hdelivery]
            exact .replaying _ _
          · simp only [Actor.spawn, htasks]
            rfl
        · exact hvalidator
    | localMode =>
      simp only [Actor.beginCapture]
      rw [beginLocalReplay_ok hdiagnostics]
      · refine ⟨_, _, rfl, h.launches hmem hstate (.replay a.nextId reply) ?_
          rfl rfl rfl ?_ rfl⟩
        · simp only [Actor.spawn, hcapture, hdelivery]
          exact .replaying _ _
        · simp only [Actor.spawn, htasks]
          rfl
      · exact hvalidator

theorem Inv.captureAdmitted (h : Inv cfg a) (hmem : AsrModeJob.admission token ∈ a.queue) :
    ∃ a' skips, { a with queue := a.queue.erase (.admission token) }.captureAdmitted cfg token
      admission = .ok (a', skips) ∧ Handles cfg a (.captureAdmitted token admission) skips a' := by
  cases hstate : a.state with
  | idle | starting | recording | processing | recovering | replaying =>
    simp only [Actor.captureAdmitted]
    exact ⟨_, _, rfl, hstate ▸ h.ignores hmem (fun _ _ _ heq => by rw [hstate] at heq; cases heq)⟩
  | admitting current pending reply =>
    by_cases hcurrent : current = token
    · subst hcurrent
      have hack : ¬ a.shutdownAck = true := by
        rw [h.no_shutdown (by rw [hstate]; rfl)]
        exact Bool.false_ne_true
      cases hresult : admission.result with
      | error response =>
        simp only [Actor.captureAdmitted, hresult, ne_eq, not_true_eq_false, if_false]
        exact ⟨_, _, rfl, h.refuses hmem hstate response⟩
      | ok mode =>
        simp only [Actor.captureAdmitted, hresult, ne_eq, not_true_eq_false, if_false]
        rw [if_neg hack]
        exact h.beginCapture hmem hstate mode
    · simp only [Actor.captureAdmitted, ne_eq, hcurrent, not_false_eq_true, if_true]
      refine ⟨_, _, rfl, hstate ▸ h.ignores hmem fun token' _ _ heq => ?_⟩
      rw [hstate] at heq
      cases heq
      exact hcurrent

end

/-! ## the queue and the blocking pool answer a client -/

section
variable {cfg : Config} {a : Actor}

theorem Inv.persisted (h : Inv cfg a) {mode : AsrMode} {reply : Reply}
    (hmem : AsrModeJob.persist mode reply ∈ a.queue) (response : Response) :
    Handles cfg a (.persisted mode reply response) true
      ({ a with queue := a.queue.erase (.persist mode reply) }.answer reply response) where
  awaits := h.awaits
  queued := h.queued.erase (fun _ _ _ _ heq => by cases heq)
  alive := h.alive
  winding := fun hack => .inl (h.winding hack)
  replied := by
    intro r
    have := count_flatMap_erase AsrModeJob.replies hmem r
    simp only [Actor.count_accounted, Actor.answer, Event.replies, AsrModeJob.replies,
      List.map_append, List.map_cons, List.map_nil, List.count_append, List.count_nil] at this ⊢
    omega
  counter := Nat.le_succ _
  authorized := fun _ _ _ hmem => .inl hmem
  acknowledged := rfl
  moves := by
    intro w hends hcarries
    obtain rfl : Workflow.job (.persist mode reply) = w := by simpa [Event.ends] using hends
    cases hstate : a.state <;> rw [hstate] at hcarries <;> cases hcarries

theorem Inv.statusAttached (h : Inv cfg a) {status : StatusReply} (hmem : status ∈ a.statuses) :
    Handles cfg a (.statusAttached status) true
      ({ a with statuses := a.statuses.erase status }.answer status.reply status.response) where
  awaits := h.awaits
  queued := h.queued
  alive := h.alive
  winding := fun hack => .inl (h.winding hack)
  replied := by
    intro r
    have hperm := ((List.perm_cons_erase hmem).map StatusReply.reply).count_eq r
    rw [List.map_cons, List.count_cons] at hperm
    simp only [Actor.count_accounted, Actor.answer, Event.replies, List.map_append, List.map_cons,
      List.map_nil, List.count_append, List.count_cons, List.count_nil]
    omega
  counter := Nat.le_succ _
  authorized := fun _ _ _ hmem => .inl hmem
  acknowledged := rfl
  moves := by
    intro w hends hcarries
    obtain rfl : Workflow.status status = w := by simpa [Event.ends] using hends
    cases hstate : a.state <;> rw [hstate] at hcarries <;> cases hcarries

/-! ## a task reports to the state that waits for it -/

/-- the task ends, the state moves on without a task or with another one, and the reply is
answered -/
theorem Inv.concludes (h : Inv cfg a) {e : Event} (he : e.replies = []) {task : Task}
    (hstate : a.state.replies = []) (htasks : a.tasks = [task]) {a' : Actor}
    (hmoves : a'.state ≠ a.state)
    (hawaits : Awaits a'.state a'.tasks a'.capture a'.validator a'.delivery)
    (hwinds : a'.shutdownAck = true → a'.state.winds = true ∨ a'.state = .idle)
    (hreplies : a'.state.replies = []) (htasks' : a'.tasks.flatMap Task.replies = [])
    (hanswered : a'.answered.map Prod.fst = a.answered.map Prod.fst ++ task.replies)
    (hfields : (a'.queue, a'.nextAdmissionToken, a'.queueAlive, a'.statuses, a'.authorizations,
      a'.acknowledged) = (a.queue, a.nextAdmissionToken, a.queueAlive, a.statuses, a.authorizations,
      a.acknowledged)) : Handles cfg a e false a' := by
  simp only [Prod.mk.injEq] at hfields
  obtain ⟨hqueue, hnext, halive, hstatuses, hauthorizations, hacknowledged⟩ := hfields
  exact
    { awaits := hawaits
      queued := by
        rw [hqueue, hnext]
        exact h.queued.leave hreplies
      alive := halive.trans h.alive
      winding := fun hack => (hwinds hack).imp_right (⟨·, rfl⟩)
      replied := by
        intro r
        simp only [Actor.count_accounted, hqueue, hanswered, hstatuses, htasks, htasks', hreplies,
          hstate, he, List.flatMap_cons, List.flatMap_nil, List.append_nil, List.count_append,
          List.count_nil]
        omega
      counter := by
        rw [hnext]
        exact Nat.le_succ _
      authorized := by
        rw [hauthorizations]
        exact fun _ _ _ hmem => .inl hmem
      acknowledged := hacknowledged
      moves := fun _ _ _ => hmoves }

theorem started_eq {a : Actor} {id : Nat} {correlationId : Text} {asrMode : AsrMode}
    (hstate : a.state = .starting id correlationId asrMode) (cfg : Config) (mode : AsrMode)
    (reply : Reply) (result : Except StartFailure Unit) : ∃ deepgram groq,
    a.started cfg id mode reply result = { a with
      capture := true, deepgram, groq }.concludeStart id correlationId mode reply result := by
  unfold Actor.started Actor.returnStartup
  split
  · exact ⟨true, true, by simp only [hstate, if_true]⟩
  · exact ⟨a.deepgram, a.groq, by simp only [hstate, if_true]⟩

theorem Inv.started (h : Inv cfg a) {id : Nat} {mode : AsrMode} {reply : Reply}
    (hmem : Task.startup id mode reply ∈ a.tasks) (result : Except StartFailure Unit) :
    Handles cfg a (.started id mode reply result) false
      ({ a with tasks := a.tasks.erase (.startup id mode reply) }.started cfg id mode reply
        result) := by
  obtain ⟨correlationId, hstate, htasks, hvalidator, hdelivery⟩ := h.of_startup hmem
  have hreplies : a.state.replies = [] := by rw [hstate]; rfl
  have herase : a.tasks.erase (.startup id mode reply) = [] := by rw [htasks]; simp
  rw [herase]
  obtain ⟨deepgram, groq, hreturn⟩ :=
    started_eq (a := { a with tasks := [] }) hstate cfg mode reply result
  rw [hreturn]
  cases result with
  | ok _ =>
    simp only [Actor.concludeStart]
    split
    · refine h.concludes rfl hreplies htasks (by rw [hstate]; nofun) ?_ (fun _ => .inl rfl)
        rfl rfl (by simp [Actor.answer, Actor.spawn, Task.replies]) rfl
      simp only [Actor.answer, Actor.spawn, hvalidator, hdelivery]
      exact .recovering _
    · rename_i hack
      refine h.concludes rfl hreplies htasks (by rw [hstate]; nofun) ?_
        (fun hpend => absurd hpend hack) rfl rfl (by simp [Actor.answer, Task.replies]) rfl
      simp only [Actor.answer, hvalidator, hdelivery]
      exact .recording _
  | error failed =>
    simp only [Actor.concludeStart]
    split
    · refine h.concludes rfl hreplies htasks (by rw [hstate]; nofun) ?_ (fun _ => .inl rfl)
        rfl rfl (by simp [Actor.answer, Actor.spawn, Actor.retainOverlayEvent, Task.replies]) rfl
      simp only [Actor.answer, Actor.spawn, Actor.retainOverlayEvent, hvalidator, hdelivery]
      exact .recovering _
    · refine h.concludes rfl hreplies htasks (by rw [hstate]; nofun) ?_ (fun _ => .inr rfl)
        rfl rfl (by simp [Actor.answer, Actor.retainOverlayEvent, Task.replies]) rfl
      simp only [Actor.answer, Actor.retainOverlayEvent, hvalidator, hdelivery]
      exact .idle

theorem Inv.recovered (h : Inv cfg a) {id : Nat} (hmem : Task.recovery id ∈ a.tasks) :
    Handles cfg a (.recovered id) false
      ({ a with tasks := a.tasks.erase (.recovery id) }.recovered id) := by
  obtain ⟨hstate, htasks, hcapture, hvalidator, hdelivery⟩ := h.of_recovery hmem
  have herase : a.tasks.erase (.recovery id) = [] := by rw [htasks]; simp
  rw [herase, Actor.recovered, if_pos hstate]
  refine h.concludes rfl (by rw [hstate]; rfl) htasks (by rw [hstate]; nofun) ?_ (fun _ => .inr rfl)
    rfl rfl (by simp [Task.replies]) rfl
  simp only [hcapture, hvalidator, hdelivery]
  exact .idle

theorem replayCompleted_eq {a : Actor} {id : Nat} (hstate : a.state = .replaying id) (cfg : Config)
    (reply : Reply) (response : Response) : ∃ deepgram groq,
    a.replayCompleted cfg id reply response = { a with
      deepgram, groq, validator := true, state := .idle }.answer reply response := by
  cases hcontrolled : cfg.controlled with
  | true => exact ⟨true, true, by simp only [Actor.replayCompleted, hcontrolled, hstate, if_true]⟩
  | false =>
    exact ⟨a.deepgram, a.groq, by simp only [Actor.replayCompleted, hcontrolled, hstate, if_true,
      Bool.false_eq_true, if_false]⟩

theorem Inv.replayCompleted (h : Inv cfg a) {id : Nat} {reply : Reply}
    (hmem : Task.replay id reply ∈ a.tasks) {e : Event} (he : e.replies = [])
    (response : Response) :
    Handles cfg a e false ({ a with tasks := a.tasks.erase (.replay id reply) }.replayCompleted cfg
      id reply response) := by
  obtain ⟨hstate, htasks, hcapture, hdelivery⟩ := h.of_replay hmem
  have herase : a.tasks.erase (.replay id reply) = [] := by rw [htasks]; simp
  obtain ⟨deepgram, groq, hreturn⟩ :=
    replayCompleted_eq (a := { a with tasks := [] }) hstate cfg reply response
  rw [herase, hreturn]
  refine h.concludes he (by rw [hstate]; rfl) htasks (by rw [hstate]; nofun) ?_ (fun _ => .inr rfl)
    rfl rfl (by simp [Actor.answer, Task.replies]) rfl
  simp only [Actor.answer, hcapture, hdelivery]
  exact .idle

/-- a processing that has ended leaves an Overlay event and an answer -/
theorem concludeProcessing_eq (a : Actor) (evidence : LifecycleEvidence) (reply : Option Reply)
    (result : Except Failure Unit) : ∃ nextOverlayEventId lastOverlayEvent answered,
    a.concludeProcessing evidence reply result = { a with
      nextOverlayEventId, lastOverlayEvent, answered } ∧
    answered.map Prod.fst = a.answered.map Prod.fst ++ reply.toList := by
  cases result with
  | ok _ =>
    simp only [Actor.concludeProcessing]
    cases reply with
    | none =>
      simp only [answerOptional]
      split
      · exact ⟨_, _, _, rfl, by simp⟩
      · exact ⟨_, _, _, rfl, by simp⟩
    | some reply =>
      simp only [answerOptional]
      split
      · exact ⟨_, _, _, rfl, by simp⟩
      · exact ⟨_, _, _, rfl, by simp [Actor.retainOverlayEvent]⟩
  | error failure =>
    cases reply with
    | none => exact ⟨_, _, _, rfl, by simp⟩
    | some reply => exact ⟨_, _, _, rfl, by simp [Actor.retainOverlayEvent]⟩

theorem Inv.completed (h : Inv cfg a) {evidence : LifecycleEvidence} {reply : Option Reply}
    (hmem : Task.processing evidence reply ∈ a.tasks) {e : Event} (he : e.replies = [])
    {evidence' : LifecycleEvidence} (hid : evidence'.recordingId = evidence.recordingId)
    (result : Except Failure Unit) :
    Handles cfg a e false ({ a with tasks := a.tasks.erase (.processing evidence reply) }.completed
      evidence' reply result) := by
  obtain ⟨hstate, htasks, hcapture⟩ := h.of_processing hmem
  have herase : a.tasks.erase (.processing evidence reply) = [] := by rw [htasks]; simp
  obtain ⟨nextOverlayEventId, lastOverlayEvent, answered, hreturn, hanswered⟩ :=
    concludeProcessing_eq { a with tasks := [], validator := true, delivery := true,
                                   state := .idle } evidence' reply result
  simp only [Actor.completed, hstate, hid, if_true, herase]
  rw [hreturn]
  refine h.concludes he (by rw [hstate]; rfl) htasks (by rw [hstate]; nofun) ?_ (fun _ => .inr rfl)
    rfl rfl hanswered rfl
  simp only [hcapture]
  exact .idle

/-! ## messages of no task -/

/-- a message that moves neither the state nor a workflow nor a reply -/
theorem Inv.stays (h : Inv cfg a) {e : Event} (he : e.replies = []) (hends : e.ends = none)
    {a' : Actor}
    (hfields : (a'.state, a'.tasks, a'.capture, a'.validator, a'.delivery, a'.queue,
      a'.nextAdmissionToken, a'.queueAlive, a'.shutdownAck, a'.answered, a'.statuses,
      a'.acknowledged) = (a.state, a.tasks, a.capture, a.validator, a.delivery, a.queue,
      a.nextAdmissionToken, a.queueAlive, a.shutdownAck, a.answered, a.statuses, a.acknowledged))
    (hauthorized : ∀ id correlationId answer, (id, correlationId, answer) ∈ a'.authorizations →
      (id, correlationId, answer) ∈ a.authorizations ∨
        answer = isProcessing a.state id correlationId) : Handles cfg a e false a' := by
  simp only [Prod.mk.injEq] at hfields
  obtain ⟨hstate, htasks, hcapture, hvalidator, hdelivery, hqueue, hnext, halive, hack, hanswered,
    hstatuses, hacknowledged⟩ := hfields
  exact
    { awaits := by
        rw [hstate, htasks, hcapture, hvalidator, hdelivery]
        exact h.awaits
      queued := by
        rw [hstate, hqueue, hnext]
        exact h.queued
      alive := halive.trans h.alive
      winding := by
        rw [hack, hstate]
        exact fun hpend => .inl (h.winding hpend)
      replied := by
        intro r
        simp only [Actor.count_accounted, hstate, htasks, hqueue, hanswered, hstatuses, he,
          List.count_nil, Nat.add_zero]
      counter := by
        rw [hnext]
        exact Nat.le_succ _
      authorized := hauthorized
      acknowledged := hacknowledged
      moves := fun _ hsome => by rw [hends] at hsome; cases hsome }

/-- the Recording ends without a client, as a shutdown is asked for or not -/
theorem Inv.stopsUnattended (h : Inv cfg a) {e : Event} (he : e.replies = [])
    (hends : e.ends = none) {recording : ActiveRecording} (hstate : a.state = .recording recording) (ack : Bool) :
    Handles cfg a e false ({ a with shutdownAck := ack }.stopUnattended recording) := by
  obtain ⟨htasks, hcapture, hvalidator, hdelivery⟩ := h.at_rest (by rw [hstate]; rfl)
  simp only [Actor.stopUnattended, Actor.spawnRecordingProcessing, hvalidator, hdelivery,
    Bool.and_self, if_true, Actor.spawn, htasks, List.nil_append, Option.getD_some]
  exact
    { awaits := by
        simp only [hcapture]
        exact .processing _ _
      queued := h.queued.leave rfl
      alive := h.alive
      winding := fun _ => .inl rfl
      replied := by
        intro r
        simp only [Actor.count_accounted, hstate, htasks, he, ActorState.replies, List.flatMap_cons,
          List.flatMap_nil, Task.replies, Option.toList_none, List.append_nil, List.count_nil,
          Nat.add_zero]
      counter := Nat.le_succ _
      authorized := fun _ _ _ hmem => .inl hmem
      acknowledged := rfl
      moves := fun _ hsome => by rw [hends] at hsome; cases hsome }

theorem Inv.pumpTerminated (h : Inv cfg a) (id : Nat) :
    Handles cfg a (.pumpTerminated id) false (a.pumpTerminated id) := by
  unfold Actor.pumpTerminated
  split
  · rename_i recording hstate
    split
    · exact h.stopsUnattended rfl rfl hstate a.shutdownAck
    · exact h.stays rfl rfl rfl (fun _ _ _ hmem => .inl hmem)
  · exact h.stays rfl rfl rfl (fun _ _ _ hmem => .inl hmem)

theorem Inv.authorizeDelivery (h : Inv cfg a) (id : Nat) (correlationId : Text) :
    Handles cfg a (.authorizeDelivery id correlationId) false
      (a.authorizeDelivery id correlationId) := by
  refine h.stays rfl rfl rfl fun id' correlationId' answer hmem => ?_
  rcases List.mem_append.mp hmem with hold | hnew
  · exact .inl hold
  · obtain ⟨rfl, rfl, hanswer⟩ : id' = id ∧ correlationId' = correlationId ∧
        answer = isProcessing a.state id correlationId := by simpa using hnew
    exact .inr hanswer

theorem Inv.deliveryLanded (h : Inv cfg a) (id : Nat) (correlationId : Text)
    (method : DeliveryMethod) (fallbackReason : Option Text) (truncated : Bool) :
    Handles cfg a (.deliveryLanded id correlationId method fallbackReason truncated) false
      (a.deliveryLanded id correlationId method fallbackReason truncated) := by
  unfold Actor.deliveryLanded
  split
  · exact h.stays rfl rfl rfl (fun _ _ _ hmem => .inl hmem)
  · exact h.stays rfl rfl rfl (fun _ _ _ hmem => .inl hmem)

theorem Inv.shutdown (h : Inv cfg a) : Handles cfg a .shutdown false a.shutdown := by
  cases hstate : a.state with
  | recording recording =>
    simp only [Actor.shutdown, Actor.cancelPendingAdmission, hstate]
    rw [← hstate]
    exact h.stopsUnattended rfl rfl hstate true
  | admitting token pending reply =>
    have hrest := h.at_rest (by rw [hstate]; rfl)
    simp only [Actor.shutdown, Actor.cancelPendingAdmission, hstate, Actor.reject, Actor.answer]
    exact
      { awaits := by
          simp only [hrest]
          exact .idle
        queued := h.queued.leave rfl
        alive := h.alive
        winding := fun _ => .inr ⟨rfl, rfl⟩
        replied := by
          intro r
          simp only [Actor.count_accounted, hstate, Event.replies, ActorState.replies,
            List.map_append, List.map_cons, List.map_nil, List.count_append, List.count_nil]
          omega
        counter := Nat.le_succ _
        authorized := fun _ _ _ hmem => .inl hmem
        acknowledged := rfl
        moves := fun _ hends => by cases hends }
  | idle | starting | processing | recovering | replaying =>
    simp only [Actor.shutdown, Actor.cancelPendingAdmission, hstate]
    rw [← hstate]
    exact
      { awaits := h.awaits
        queued := h.queued
        alive := h.alive
        winding := fun _ => by rw [hstate]; first | exact .inl rfl | exact .inr ⟨rfl, rfl⟩
        replied := fun r => rfl
        counter := Nat.le_succ _
        authorized := fun _ _ _ hmem => .inl hmem
        acknowledged := rfl
        moves := fun _ hends => by cases hends }

end

end Voisu.Daemon
