import Voisu.Json

/-!
# The Local gate

The gate behind its lock, and the inference sessions that were taken out of it and not yet given
back.  Every operation runs under the lock, so a run of the system is a list of operations in the
order in which they got it.  Readiness is shown to the user and read by no operation here, and is
left out; a poisoned lock is left out too.

* `DeliveryCoordinator`      the single-use authorization of the live Recording;
* `takeInferenceSession`, `restoreInferenceSession`   the coordinator moves out with the worker, and
                             back over whatever stands in its place;
* `System.step`              one operation, with its result;
* `stepOk`                   no begin and no abandon that the session in flight will overwrite;
* `run_keepsLive`            **in a run of such steps no begin and no abandon is lost**.
-/

namespace Voisu.LocalGate

/-! ## the coordinator -/

inductive TailError where
  | duplicateDecision
  | unauthorizedDelivery
  | duplicateDelivery
  | cloudCapabilityUsed
deriving DecidableEq, Repr

structure DeliveryCoordinator where
  live : Option Text
  authorized : List Text
  spent : List Text
  decided : List Text
deriving DecidableEq, Repr

def DeliveryCoordinator.new : DeliveryCoordinator :=
  { live := none, authorized := [], spent := [], decided := [] }

/-- a permit is the Recording it is for -/
abbrev DeliveryPermit := Text

def DeliveryCoordinator.beginLive (c : DeliveryCoordinator) (recordingId : Text) :
    DeliveryCoordinator :=
  { c with live := some recordingId }

def DeliveryCoordinator.abandonLive (c : DeliveryCoordinator) (recordingId : Text) :
    DeliveryCoordinator :=
  if c.live == some recordingId then { c with live := none } else c

def DeliveryCoordinator.authorizeLive (c : DeliveryCoordinator) (recordingId : Text) :
    DeliveryCoordinator × Except TailError DeliveryPermit :=
  if c.spent.contains recordingId || c.authorized.contains recordingId then
    (c, .error .duplicateDelivery)
  else if c.live == some recordingId then
    ({ c with live := none, authorized := c.authorized.insert recordingId }, .ok recordingId)
  else (c, .error .unauthorizedDelivery)

def DeliveryCoordinator.confirmDelivery (c : DeliveryCoordinator) (permit : DeliveryPermit) :
    DeliveryCoordinator × Except TailError Unit :=
  if c.spent.contains permit then (c, .error .duplicateDelivery)
  else if !c.authorized.contains permit then (c, .error .unauthorizedDelivery)
  else ({ c with authorized := c.authorized.erase permit, spent := c.spent.insert permit }, .ok ())

def DeliveryCoordinator.rememberDecision (c : DeliveryCoordinator) (recordingId : Text) :
    DeliveryCoordinator × Except TailError Unit :=
  if c.decided.contains recordingId then (c, .error .duplicateDecision)
  else ({ c with decided := c.decided.insert recordingId }, .ok ())

/-! ## the gate -/

inductive WorkerState where
  | absent
  | verifying
  | loading
  | ready
  | busy
  | stopping
  | unavailable
deriving DecidableEq, Repr

structure ActiveReceipt where
  receiptHash : Text
  catalogId : Text
  language : Text
deriving DecidableEq, Repr

/-- the supervisor by the state of its worker, and the generation of the lifecycle around it -/
structure Gate where
  receipt : Option ActiveReceipt
  supervisor : WorkerState
  generation : Nat
  coordinator : DeliveryCoordinator
  sentinelClean : Bool
  admittedGeneration : Option Nat
  admittedRecording : Option Text
  pendingPermit : Option DeliveryPermit
  userTerms : List Text
  inferenceCheckedOut : Bool
deriving DecidableEq, Repr

def Gate.new : Gate :=
  { receipt := none
    supervisor := .absent
    generation := 0
    coordinator := DeliveryCoordinator.new
    sentinelClean := true
    admittedGeneration := none
    admittedRecording := none
    pendingPermit := none
    userTerms := []
    inferenceCheckedOut := false }

structure InferenceSession where
  receipt : ActiveReceipt
  sentinelClean : Bool
  supervisor : WorkerState
  coordinator : DeliveryCoordinator
deriving DecidableEq, Repr

inductive LocalError where
  | unavailable
  | cloudCapability
  | recovery
  | tail (error : TailError)
deriving DecidableEq, Repr

def Gate.releaseAdmission (gate : Gate) : Gate :=
  { gate with admittedGeneration := none, admittedRecording := none }

/-- what a refresh finds and installs; a worker that is admitted, checked out, busy or stopping is
left alone -/
def Gate.refresh (gate : Gate) (receipt : Option ActiveReceipt) (supervisor : WorkerState)
    (generation : Nat) : Gate :=
  if gate.admittedGeneration.isSome || gate.inferenceCheckedOut || gate.supervisor == .busy ||
      gate.supervisor == .stopping then gate
  else { gate with receipt, supervisor, generation }

/-- an admission after its refresh -/
def Gate.admission (gate : Gate) : Gate × Except LocalError Unit :=
  if gate.admittedGeneration.isNone && !gate.inferenceCheckedOut && gate.supervisor == .ready &&
      gate.receipt.isSome then
    ({ gate with admittedGeneration := some gate.generation }, .ok ())
  else (gate, .error .unavailable)

def Gate.beginLiveWithTerms (gate : Gate) (recordingId : Text) (userTerms : List Text) : Gate :=
  { gate with
    coordinator := gate.coordinator.beginLive recordingId
    admittedRecording := some recordingId
    userTerms
    pendingPermit := none
    sentinelClean := true }

def Gate.abandonLive (gate : Gate) (recordingId : Text) : Gate :=
  let gate := { gate with coordinator := gate.coordinator.abandonLive recordingId }
  if gate.admittedRecording.all (· == recordingId) then gate.releaseAdmission else gate

def Gate.takeInferenceSession (gate : Gate) : Gate × Except LocalError InferenceSession :=
  if !gate.sentinelClean then (gate.releaseAdmission, .error .cloudCapability)
  else
    match gate.receipt with
    | none => (gate.releaseAdmission, .error .unavailable)
    | some receipt =>
      if gate.supervisor != .ready then (gate.releaseAdmission, .error .unavailable)
      else if gate.admittedGeneration.any (· != gate.generation) then
        (gate.releaseAdmission, .error .unavailable)
      else
        ({ gate with
            supervisor := .absent
            coordinator := DeliveryCoordinator.new
            inferenceCheckedOut := true },
          .ok
            { receipt
              sentinelClean := gate.sentinelClean
              supervisor := gate.supervisor
              coordinator := gate.coordinator })

def Gate.restoreInferenceSession (gate : Gate) (session : InferenceSession) : Gate :=
  Gate.releaseAdmission
    { gate with
      supervisor := session.supervisor
      coordinator := session.coordinator
      inferenceCheckedOut := false }

/-- `markDeliveryStarted` is the answer of the recovery store, asked when recovery is enabled -/
def Gate.prepareDelivery (gate : Gate) (recordingId : Text) (recoveryEnabled : Bool)
    (markDeliveryStarted : Except LocalError Unit) : Gate × Except LocalError Unit :=
  match gate.coordinator.authorizeLive recordingId with
  | (_, .error error) => (gate, .error (.tail error))
  | (coordinator, .ok permit) =>
    ({ gate with coordinator, pendingPermit := some permit },
      if recoveryEnabled then markDeliveryStarted else .ok ())

def Gate.finishDelivery (gate : Gate) (recoveryEnabled : Bool)
    (markDelivered : Except LocalError Unit) : Gate × Except LocalError Unit :=
  match gate.pendingPermit with
  | none => (gate, .error (.tail .unauthorizedDelivery))
  | some permit =>
    match gate.coordinator.confirmDelivery permit with
    | (_, .error error) => ({ gate with pendingPermit := none }, .error (.tail error))
    | (coordinator, .ok ()) =>
      ({ gate with coordinator, pendingPermit := none },
        if recoveryEnabled then markDelivered else .ok ())

/-! ## the system -/

/-- the gate, and the sessions that are checked out -/
structure System where
  gate : Gate
  sessions : List InferenceSession
deriving DecidableEq, Repr

def System.new : System := { gate := Gate.new, sessions := [] }

inductive Op where
  | refresh (receipt : Option ActiveReceipt) (supervisor : WorkerState) (generation : Nat)
  | admission
  | noteCloudCapabilityUsed
  | beginLive (recordingId : Text) (userTerms : List Text)
  | abandonLive (recordingId : Text)
  | take
  /-- the holder of a session records the decision for a Recording in it -/
  | decision (index : Nat) (recordingId : Text)
  | restore (index : Nat)
  | prepareDelivery (recordingId : Text) (recoveryEnabled : Bool) (store : Except LocalError Unit)
  | finishDelivery (recoveryEnabled : Bool) (store : Except LocalError Unit)

def InferenceSession.rememberDecision (session : InferenceSession) (recordingId : Text) :
    InferenceSession :=
  { session with coordinator := (session.coordinator.rememberDecision recordingId).1 }

def System.step (s : System) : Op → System × Except LocalError Unit
  | .refresh receipt supervisor generation =>
    ({ s with gate := s.gate.refresh receipt supervisor generation }, .ok ())
  | .admission => ({ s with gate := s.gate.admission.1 }, s.gate.admission.2)
  | .noteCloudCapabilityUsed => ({ s with gate := { s.gate with sentinelClean := false } }, .ok ())
  | .beginLive recordingId userTerms =>
    ({ s with gate := s.gate.beginLiveWithTerms recordingId userTerms }, .ok ())
  | .abandonLive recordingId => ({ s with gate := s.gate.abandonLive recordingId }, .ok ())
  | .take =>
    match s.gate.takeInferenceSession with
    | (gate, .ok session) => ({ gate, sessions := s.sessions ++ [session] }, .ok ())
    | (gate, .error error) => ({ s with gate }, .error error)
  | .decision index recordingId =>
    ({ s with sessions := s.sessions.modify index (·.rememberDecision recordingId) }, .ok ())
  | .restore index =>
    match s.sessions[index]? with
    | none => (s, .ok ())
    | some session =>
      ({ gate := s.gate.restoreInferenceSession session, sessions := s.sessions.eraseIdx index },
        .ok ())
  | .prepareDelivery recordingId recoveryEnabled store =>
    let result := s.gate.prepareDelivery recordingId recoveryEnabled store
    ({ s with gate := result.1 }, result.2)
  | .finishDelivery recoveryEnabled store =>
    let result := s.gate.finishDelivery recoveryEnabled store
    ({ s with gate := result.1 }, result.2)

def System.run (s : System) (ops : List Op) : System := ops.foldl (fun s op => (s.step op).1) s

@[simp] theorem System.run_nil (s : System) : s.run [] = s := rfl

@[simp] theorem System.run_cons (s : System) (op : Op) (ops : List Op) :
    s.run (op :: ops) = (s.step op).1.run ops := rfl

theorem System.run_append (s : System) (ops ops' : List Op) :
    s.run (ops ++ ops') = (s.run ops).run ops' := List.foldl_append

/-! ## one step -/

/-- what a step does to the slot of the live Recording, in the gate and in the sessions -/
inductive Moves (s s' : System) : Op → Prop where
  | keep (op : Op) (hgate : s'.gate.coordinator.live = s.gate.coordinator.live)
      (hsessions : s'.sessions.map (·.coordinator.live) = s.sessions.map (·.coordinator.live)) :
      Moves s s' op
  | beginLive (r : Text) (terms : List Text) (hgate : s'.gate.coordinator.live = some r)
      (hsessions : s'.sessions = s.sessions) : Moves s s' (.beginLive r terms)
  | abandonLive (r : Text) (hgate : s'.gate.coordinator.live =
        if s.gate.coordinator.live = some r then none else s.gate.coordinator.live)
      (hsessions : s'.sessions = s.sessions) : Moves s s' (.abandonLive r)
  | take (session : InferenceSession) (hready : s.gate.supervisor = .ready)
      (habsent : s'.gate.supervisor = .absent) (hout : s'.gate.inferenceCheckedOut = true)
      (hlive : session.coordinator.live = s.gate.coordinator.live)
      (hgate : s'.gate.coordinator.live = none)
      (hsessions : s'.sessions = s.sessions ++ [session]) : Moves s s' .take
  | restore (index : Nat) (session : InferenceSession) (hget : s.sessions[index]? = some session)
      (hgate : s'.gate.coordinator.live = session.coordinator.live)
      (hsessions : s'.sessions = s.sessions.eraseIdx index) : Moves s s' (.restore index)
  | prepare (r : Text) (recovery : Bool) (store : Except LocalError Unit)
      (hlive : s.gate.coordinator.live = some r) (hgate : s'.gate.coordinator.live = none)
      (hsessions : s'.sessions = s.sessions) : Moves s s' (.prepareDelivery r recovery store)

theorem live_abandonLive (gate : Gate) (r : Text) : (gate.abandonLive r).coordinator.live =
    if gate.coordinator.live = some r then none else gate.coordinator.live := by
  have h : (gate.coordinator.abandonLive r).live =
      if gate.coordinator.live = some r then none else gate.coordinator.live := by
    unfold DeliveryCoordinator.abandonLive
    by_cases hr : gate.coordinator.live = some r <;> simp [hr]
  rw [← h]
  unfold Gate.abandonLive
  dsimp only
  split <;> rfl

theorem takeInferenceSession_cases (gate : Gate) :
    (∃ error, gate.takeInferenceSession = (gate.releaseAdmission, .error error)) ∨
    ∃ session, gate.supervisor = .ready ∧ session.coordinator = gate.coordinator ∧
      gate.takeInferenceSession =
        ({ gate with supervisor := .absent, coordinator := DeliveryCoordinator.new
                     inferenceCheckedOut := true }, .ok session) := by
  unfold Gate.takeInferenceSession
  split
  · exact Or.inl ⟨_, rfl⟩
  · split
    · exact Or.inl ⟨_, rfl⟩
    · split
      · exact Or.inl ⟨_, rfl⟩
      · rename_i hready
        split
        · exact Or.inl ⟨_, rfl⟩
        · exact Or.inr ⟨_, by simpa using hready, rfl, rfl⟩

theorem authorizeLive_cases (c : DeliveryCoordinator) (r : Text) :
    (∃ error, c.authorizeLive r = (c, .error error)) ∨
    c.live = some r ∧
      c.authorizeLive r = ({ c with live := none, authorized := c.authorized.insert r }, .ok r) := by
  unfold DeliveryCoordinator.authorizeLive
  split
  · exact Or.inl ⟨_, rfl⟩
  · split
    · rename_i hlive
      exact Or.inr ⟨by simpa using hlive, rfl⟩
    · exact Or.inl ⟨_, rfl⟩

theorem live_finishDelivery (gate : Gate) (recovery : Bool) (store : Except LocalError Unit) :
    (gate.finishDelivery recovery store).1.coordinator.live = gate.coordinator.live := by
  have h : ∀ permit, (gate.coordinator.confirmDelivery permit).1.live = gate.coordinator.live := by
    intro permit
    unfold DeliveryCoordinator.confirmDelivery
    split
    · rfl
    · split <;> rfl
  unfold Gate.finishDelivery
  split
  · rfl
  · rename_i permit _
    have hp := h permit
    split
    · rfl
    · rename_i coordinator heq
      rw [heq] at hp
      exact hp

/-- **every step moves the slot in one of these ways** -/
theorem System.step_moves (s : System) (op : Op) : Moves s (s.step op).1 op := by
  cases op with
  | refresh receipt supervisor generation =>
    refine Moves.keep _ ?_ rfl
    show (s.gate.refresh receipt supervisor generation).coordinator.live = _
    unfold Gate.refresh
    split <;> rfl
  | admission =>
    refine Moves.keep _ ?_ rfl
    show s.gate.admission.1.coordinator.live = _
    unfold Gate.admission
    split <;> rfl
  | noteCloudCapabilityUsed => exact Moves.keep _ rfl rfl
  | beginLive r terms => exact Moves.beginLive r terms rfl rfl
  | abandonLive r => exact Moves.abandonLive r (live_abandonLive s.gate r) rfl
  | take =>
    rcases takeInferenceSession_cases s.gate with ⟨error, h⟩ | ⟨session, hready, hc, h⟩
    · refine Moves.keep _ ?_ ?_ <;> simp [System.step, h, Gate.releaseAdmission]
    · apply Moves.take session hready <;> simp [System.step, h, hc, DeliveryCoordinator.new]
  | decision index r =>
    refine Moves.keep _ rfl ?_
    show (s.sessions.modify index _).map _ = _
    apply List.ext_getElem?
    intro i
    rw [List.getElem?_map, List.getElem?_modify, List.getElem?_map]
    show Option.map _ (Option.map _ s.sessions[i]?) = _
    rw [Option.map_map]
    congr 1
    funext session
    show (if index = i then session.rememberDecision r else session).coordinator.live = _
    split
    · show (session.coordinator.rememberDecision r).1.live = _
      unfold DeliveryCoordinator.rememberDecision
      split <;> rfl
    · rfl
  | restore index =>
    cases h : s.sessions[index]? with
    | none => refine Moves.keep _ ?_ ?_ <;> simp [System.step, h]
    | some session =>
      apply Moves.restore index session h <;>
        simp [System.step, h, Gate.restoreInferenceSession, Gate.releaseAdmission]
  | prepareDelivery r recovery store =>
    rcases authorizeLive_cases s.gate.coordinator r with ⟨error, h⟩ | ⟨hlive, h⟩
    · refine Moves.keep _ ?_ ?_ <;> simp [System.step, Gate.prepareDelivery, h]
    · apply Moves.prepare r recovery store hlive <;> simp [System.step, Gate.prepareDelivery, h]
  | finishDelivery recovery store =>
    exact Moves.keep _ (live_finishDelivery s.gate recovery store) rfl

/-- a delivery is prepared for the live Recording only -/
theorem System.prepare_ok {s : System} {r : Text} {recovery : Bool}
    {store : Except LocalError Unit}
    (h : (s.step (.prepareDelivery r recovery store)).2 = .ok ()) :
    s.gate.coordinator.live = some r := by
  rcases authorizeLive_cases s.gate.coordinator r with ⟨error, he⟩ | ⟨hlive, -⟩
  · simp [System.step, Gate.prepareDelivery, he] at h
  · exact hlive

/-! ## at most one session is out -/

/-- a session in flight is the only one, and a take finds no worker -/
structure SingleSession (s : System) : Prop where
  single : s.sessions.length ≤ 1
  absent : s.sessions ≠ [] → s.gate.supervisor = .absent ∧ s.gate.inferenceCheckedOut = true

theorem SingleSession.new : SingleSession System.new :=
  { single := Nat.zero_le 1
    absent := fun h => absurd rfl h }

theorem SingleSession.of_gate {s s' : System} (h : SingleSession s)
    (hsessions : s'.sessions = s.sessions) (hsupervisor : s'.gate.supervisor = s.gate.supervisor)
    (hout : s'.gate.inferenceCheckedOut = s.gate.inferenceCheckedOut) : SingleSession s' := by
  constructor
  · rw [hsessions]
    exact h.single
  · rw [hsessions, hsupervisor, hout]
    exact h.absent

theorem SingleSession.nil_of_ready {s : System} (h : SingleSession s)
    (hready : s.gate.supervisor = .ready) : s.sessions = [] := by
  by_contra hne
  rw [(h.absent hne).1] at hready
  cases hready

theorem SingleSession.eraseIdx {s : System} (h : SingleSession s) {index : Nat}
    {session : InferenceSession} (hget : s.sessions[index]? = some session) :
    s.sessions = [session] ∧ s.sessions.eraseIdx index = [] := by
  have hlen := h.single
  cases hs : s.sessions with
  | nil =>
    rw [hs] at hget
    cases hget
  | cons x xs =>
    rw [hs] at hget hlen
    obtain rfl : xs = [] := by
      cases xs with
      | nil => rfl
      | cons _ _ => exact absurd hlen (by simp)
    cases index with
    | zero =>
      obtain rfl := Option.some.inj hget
      exact ⟨rfl, rfl⟩
    | succ index => cases hget

theorem SingleSession.step {s : System} (h : SingleSession s) (op : Op) :
    SingleSession (s.step op).1 := by
  cases op with
  | refresh receipt supervisor generation =>
    by_cases hs : s.sessions = []
    · refine ⟨?_, fun hne => absurd hs hne⟩
      show s.sessions.length ≤ 1
      exact h.single
    · have hgate : s.gate.refresh receipt supervisor generation = s.gate := by
        unfold Gate.refresh
        rw [if_pos]
        simp [(h.absent hs).2]
      exact h.of_gate rfl (by simp [System.step, hgate]) (by simp [System.step, hgate])
  | admission =>
    refine h.of_gate rfl ?_ ?_
    · show s.gate.admission.1.supervisor = _
      unfold Gate.admission
      split <;> rfl
    · show s.gate.admission.1.inferenceCheckedOut = _
      unfold Gate.admission
      split <;> rfl
  | noteCloudCapabilityUsed => exact h.of_gate rfl rfl rfl
  | beginLive r terms => exact h.of_gate rfl rfl rfl
  | abandonLive r =>
    refine h.of_gate rfl ?_ ?_
    · show (s.gate.abandonLive r).supervisor = _
      unfold Gate.abandonLive
      dsimp only
      split <;> rfl
    · show (s.gate.abandonLive r).inferenceCheckedOut = _
      unfold Gate.abandonLive
      dsimp only
      split <;> rfl
  | take =>
    rcases takeInferenceSession_cases s.gate with ⟨error, ht⟩ | ⟨session, hready, -, ht⟩
    · apply h.of_gate <;> simp [System.step, ht, Gate.releaseAdmission]
    · have hs := h.nil_of_ready hready
      constructor <;> simp [System.step, ht, hs]
  | decision index r =>
    constructor
    · show (s.sessions.modify index _).length ≤ 1
      rw [List.length_modify]
      exact h.single
    · intro hne
      apply h.absent
      intro hs
      apply hne
      show s.sessions.modify index _ = []
      rw [hs]
      cases index <;> rfl
  | restore index =>
    cases hget : s.sessions[index]? with
    | none => apply h.of_gate <;> simp [System.step, hget]
    | some session =>
      have hs := (h.eraseIdx hget).2
      constructor <;> simp [System.step, hget, hs]
  | prepareDelivery r recovery store =>
    rcases authorizeLive_cases s.gate.coordinator r with ⟨error, ha⟩ | ⟨-, ha⟩
    · apply h.of_gate <;> simp [System.step, Gate.prepareDelivery, ha]
    · apply h.of_gate <;> simp [System.step, Gate.prepareDelivery, ha]
  | finishDelivery recovery store =>
    refine h.of_gate rfl ?_ ?_
    · show (s.gate.finishDelivery recovery store).1.supervisor = _
      unfold Gate.finishDelivery
      split
      · rfl
      · split <;> rfl
    · show (s.gate.finishDelivery recovery store).1.inferenceCheckedOut = _
      unfold Gate.finishDelivery
      split
      · rfl
      · split <;> rfl

/-- **in every run at most one session is out** -/
theorem SingleSession.run {s : System} (h : SingleSession s) (ops : List Op) :
    SingleSession (s.run ops) := by
  induction ops generalizing s with
  | nil => exact h
  | cons op ops ih => exact ih (h.step op)

/-! ## the slot that stands in the end -/

/-- the live Recording once the session in flight is back -/
def System.settled (s : System) : Option Text :=
  match s.sessions with
  | [] => s.gate.coordinator.live
  | session :: _ => session.coordinator.live

/-- another Recording begins, or this one is abandoned or delivered -/
def Op.supersedes (r : Text) : Op → Bool
  | .beginLive r' _ => r' != r
  | .abandonLive r' => r' == r
  | .prepareDelivery r' _ _ => r' == r
  | _ => false

/-- a session that is out holds the Recording that begins, and not the one that is abandoned -/
def stepOk (s : System) : Op → Bool
  | .beginLive r _ => s.sessions.all fun session => session.coordinator.live == some r
  | .abandonLive r => s.sessions.all fun session => session.coordinator.live != some r
  | _ => true

def stepsOk (s : System) : List Op → Bool
  | [] => true
  | op :: ops => stepOk s op && stepsOk (s.step op).1 ops

theorem stepsOk_append {s : System} {ops ops' : List Op} :
    stepsOk s (ops ++ ops') = true ↔ stepsOk s ops = true ∧ stepsOk (s.run ops) ops' = true := by
  induction ops generalizing s with
  | nil => simp [stepsOk]
  | cons op ops ih => simp [stepsOk, ih, and_assoc]

theorem settled_congr {s s' : System} (hgate : s'.gate.coordinator.live = s.gate.coordinator.live)
    (hsessions : s'.sessions.map (·.coordinator.live) = s.sessions.map (·.coordinator.live)) :
    s'.settled = s.settled := by
  unfold System.settled
  cases hs : s.sessions with
  | nil =>
    rw [hs] at hsessions
    rw [List.map_eq_nil_iff.mp hsessions]
    exact hgate
  | cons x xs =>
    rw [hs, List.map_cons] at hsessions
    obtain ⟨x', xs', hs', hx, -⟩ := List.map_eq_cons_iff.mp hsessions
    rw [hs']
    exact hx

/-- the gate settles where no session is out -/
theorem settled_of_sessions {s s' : System} (hsessions : s'.sessions = s.sessions)
    (hgate : s.sessions = [] → s.settled = s'.gate.coordinator.live) : s'.settled = s.settled := by
  unfold System.settled at hgate ⊢
  rw [hsessions]
  cases hs : s.sessions with
  | nil =>
    rw [hs] at hgate
    exact (hgate rfl).symm
  | cons x xs => rfl

theorem settled_begin {s : System} {r : Text} {terms : List Text}
    (hok : stepOk s (.beginLive r terms) = true) :
    (s.step (.beginLive r terms)).1.settled = some r := by
  show (match s.sessions with
    | [] => some r
    | session :: _ => session.coordinator.live) = some r
  cases hs : s.sessions with
  | nil => rfl
  | cons session rest =>
    have := List.all_eq_true.mp hok session (by rw [hs]; exact List.mem_cons_self)
    simpa using this

/-- **a Recording stays live until it is superseded** -/
theorem settled_step {s : System} (h : SingleSession s) {r : Text} {op : Op}
    (hok : stepOk s op = true) (hop : op.supersedes r = false) (hlive : s.settled = some r) :
    (s.step op).1.settled = some r := by
  have hgate_of (hs : s.sessions = []) : s.gate.coordinator.live = some r := by
    unfold System.settled at hlive
    rwa [hs] at hlive
  cases s.step_moves op with
  | keep _ hgate hsessions => rw [settled_congr hgate hsessions, hlive]
  | beginLive r' terms hgate hsessions =>
    obtain rfl : r' = r := by simpa [Op.supersedes] using hop
    exact settled_begin hok
  | abandonLive r' hgate hsessions =>
    have hne : r' ≠ r := by simpa [Op.supersedes] using hop
    rw [settled_of_sessions hsessions fun hs => ?_, hlive]
    rw [hgate, hgate_of hs, if_neg fun heq => hne (Option.some.inj heq).symm, hlive]
  | take session hready _ _ hsession _ hsessions =>
    rw [h.nil_of_ready hready] at hsessions
    unfold System.settled
    rw [hsessions]
    exact hsession.trans (hgate_of (h.nil_of_ready hready))
  | restore index session hget hgate hsessions =>
    obtain ⟨hs, herase⟩ := h.eraseIdx hget
    rw [herase] at hsessions
    unfold System.settled at hlive ⊢
    rw [hsessions]
    rw [hs] at hlive
    exact hgate.trans hlive
  | prepare r' recovery store hprepared hgate hsessions =>
    have hne : r' ≠ r := by simpa [Op.supersedes] using hop
    rw [settled_of_sessions hsessions fun hs => ?_, hlive]
    rw [hgate_of hs] at hprepared
    exact absurd (Option.some.inj hprepared).symm hne

theorem settled_run {s : System} (h : SingleSession s) {r : Text} {ops : List Op}
    (hok : stepsOk s ops = true) (hops : ∀ op ∈ ops, op.supersedes r = false)
    (hlive : s.settled = some r) : (s.run ops).settled = some r := by
  induction ops generalizing s with
  | nil => exact hlive
  | cons op ops ih =>
    rw [stepsOk, Bool.and_eq_true] at hok
    obtain ⟨hop, hops⟩ := List.forall_mem_cons.mp hops
    exact ih (h.step op) hok.2 hops (settled_step h hok.1 hop hlive)

/-! ## Recordings that are abandoned -/

/-- no slot, in the gate or in a session, holds a Recording -/
def Dead (r : Text) (s : System) : Prop :=
  s.gate.coordinator.live ≠ some r ∧ ∀ session ∈ s.sessions, session.coordinator.live ≠ some r

theorem Dead.step {r : Text} {s : System} (h : Dead r s) {op : Op}
    (hop : ∀ terms, op ≠ .beginLive r terms) : Dead r (s.step op).1 := by
  obtain ⟨hgate0, hsessions0⟩ := h
  cases s.step_moves op with
  | keep _ hgate hsessions =>
    refine ⟨by rwa [hgate], ?_⟩
    intro session hmem hlive
    have hmem : some r ∈ s.sessions.map (·.coordinator.live) := by
      rw [← hsessions, ← hlive]
      exact List.mem_map_of_mem hmem
    obtain ⟨session', hmem', hlive'⟩ := List.mem_map.mp hmem
    exact hsessions0 session' hmem' hlive'
  | beginLive r' terms hgate hsessions =>
    refine ⟨?_, by rwa [hsessions]⟩
    rw [hgate]
    intro heq
    obtain rfl := Option.some.inj heq
    exact hop terms rfl
  | abandonLive r' hgate hsessions =>
    refine ⟨?_, by rwa [hsessions]⟩
    rw [hgate]
    split
    · exact nofun
    · exact hgate0
  | take session _ _ _ hlive hgate hsessions =>
    refine ⟨by rw [hgate]; exact nofun, ?_⟩
    rw [hsessions]
    intro x hx
    rcases List.mem_append.mp hx with hx | hx
    · exact hsessions0 x hx
    · rw [List.mem_singleton.mp hx, hlive]
      exact hgate0
  | restore index session hget hgate hsessions =>
    refine ⟨?_, ?_⟩
    · rw [hgate]
      exact hsessions0 session (List.mem_of_getElem? hget)
    · rw [hsessions]
      exact fun x hx => hsessions0 x (List.mem_of_mem_eraseIdx hx)
  | prepare r' recovery store hlive hgate hsessions =>
    refine ⟨by rw [hgate]; exact nofun, by rwa [hsessions]⟩

theorem Dead.run {r : Text} {s : System} (h : Dead r s) {ops : List Op}
    (hops : ∀ terms, Op.beginLive r terms ∉ ops) : Dead r (s.run ops) := by
  induction ops generalizing s with
  | nil => exact h
  | cons op ops ih =>
    apply ih
    · apply h.step
      rintro terms rfl
      exact hops terms List.mem_cons_self
    · exact fun terms hmem => hops terms (List.mem_cons_of_mem _ hmem)

/-! ## the law -/

/-- a prepared delivery of an abandoned Recording has a begin between -/
def AbandonHolds (ops : List Op) : Prop :=
  ∀ before middle r recovery store,
    before ++ Op.abandonLive r :: middle ++ [Op.prepareDelivery r recovery store] <+: ops →
    (∀ terms, Op.beginLive r terms ∉ middle) →
    ((System.new.run (before ++ Op.abandonLive r :: middle)).step
      (.prepareDelivery r recovery store)).2 ≠ .ok ()

/-- a begin or an abandon while a session is out is still in effect when it is back: the Recording that
began is live unless it was superseded, and the one that was abandoned is not unless it began again -/
def WindowHolds (ops : List Op) : Prop :=
  (∀ before r terms middle, before ++ Op.beginLive r terms :: middle <+: ops →
    (System.new.run before).sessions ≠ [] →
    (System.new.run (before ++ .beginLive r terms :: middle)).sessions = [] →
    (∀ op ∈ middle, op.supersedes r = false) →
    (System.new.run (before ++ .beginLive r terms :: middle)).gate.coordinator.live = some r) ∧
  ∀ before r middle, before ++ Op.abandonLive r :: middle <+: ops →
    (System.new.run before).sessions ≠ [] →
    (System.new.run (before ++ .abandonLive r :: middle)).sessions = [] →
    (∀ terms, Op.beginLive r terms ∉ middle) →
    (System.new.run (before ++ .abandonLive r :: middle)).gate.coordinator.live ≠ some r

/-- the condition at one step of a run, and behind it -/
theorem stepOk_of_run {ops before middle : List Op} {op : Op} (h : stepsOk System.new ops = true)
    (hp : before ++ op :: middle <+: ops) : stepOk (System.new.run before) op = true ∧
      stepsOk ((System.new.run before).step op).1 middle = true := by
  obtain ⟨rest, rfl⟩ := hp
  have h1 := (stepsOk_append.mp h).1
  have h2 := (stepsOk_append.mp h1).2
  rwa [stepsOk, Bool.and_eq_true] at h2

theorem dead_of_abandon {s : System} {r : Text} (h : stepOk s (.abandonLive r) = true) :
    Dead r (s.step (.abandonLive r)).1 := by
  constructor
  · show (s.gate.abandonLive r).coordinator.live ≠ some r
    rw [live_abandonLive]
    split
    · exact nofun
    · assumption
  · intro session hmem
    have := List.all_eq_true.mp h session hmem
    simpa using this

/-- an abandoned Recording is nowhere until it begins again -/
theorem dead_of_run {ops before middle : List Op} {r : Text} (h : stepsOk System.new ops = true)
    (hp : before ++ Op.abandonLive r :: middle <+: ops)
    (hmiddle : ∀ terms, Op.beginLive r terms ∉ middle) :
    Dead r (System.new.run (before ++ .abandonLive r :: middle)) := by
  rw [System.run_append, System.run_cons]
  exact (dead_of_abandon (stepOk_of_run h hp).1).run hmiddle

theorem abandonHolds_of_ok {ops : List Op} (h : stepsOk System.new ops = true) :
    AbandonHolds ops := by
  intro before middle r recovery store hp hmiddle hok
  have hp' : before ++ Op.abandonLive r :: middle <+: ops :=
    (List.prefix_append _ _).trans hp
  exact (dead_of_run h hp' hmiddle).1 (System.prepare_ok hok)

theorem windowHolds_of_ok {ops : List Op} (h : stepsOk System.new ops = true) :
    WindowHolds ops := by
  constructor
  · intro before r terms middle hp _ hback hmiddle
    obtain ⟨hok, hoks⟩ := stepOk_of_run h hp
    have hsingle := SingleSession.new.run before
    have hsettled := settled_run (hsingle.step _) hoks hmiddle (settled_begin hok)
    rw [System.run_append, System.run_cons] at hback ⊢
    unfold System.settled at hsettled
    rwa [hback] at hsettled
  · intro before r middle hp _ _ hmiddle
    exact (dead_of_run h hp hmiddle).1

/-- **in a run of such steps no begin and no abandon is lost** -/
theorem run_keepsLive (ops : List Op) (h : stepsOk System.new ops = true) :
    AbandonHolds ops ∧ WindowHolds ops :=
  ⟨abandonHolds_of_ok h, windowHolds_of_ok h⟩

/-! ## two runs -/

def aReceipt : ActiveReceipt :=
  { receiptHash := ['h'], catalogId := ['c'], language := ['e', 'n'] }

/-- while the inference of a Recording runs, it begins once more, and another one is abandoned -/
def beginMeanwhile : List Op :=
  [.refresh (some aReceipt) .ready 1, .admission, .beginLive ['a'] [], .take, .beginLive ['a'] [],
    .abandonLive ['b'], .decision 0 ['a'], .restore 0, .prepareDelivery ['a'] false (.ok ())]

theorem run_keepsLive_beginMeanwhile : AbandonHolds beginMeanwhile ∧ WindowHolds beginMeanwhile :=
  run_keepsLive beginMeanwhile (by decide)

/-- a Recording that is abandoned while its inference runs -/
def abandonMeanwhile : List Op :=
  [.refresh (some aReceipt) .ready 1, .admission, .beginLive ['a'] [], .take, .abandonLive ['a'],
    .decision 0 ['a'], .restore 0]

theorem abandonMeanwhile_delivered :
    ¬ AbandonHolds (abandonMeanwhile ++ [.prepareDelivery ['a'] false (.ok ())]) := by
  intro h
  refine h [.refresh (some aReceipt) .ready 1, .admission, .beginLive ['a'] [], .take]
    [.decision 0 ['a'], .restore 0] ['a'] false (.ok ()) (List.prefix_refl _) ?_ ?_
  · intro terms hmem
    simp at hmem
  · rfl

end Voisu.LocalGate
