import Mathlib
import Voisu.Json

/-!
# Direct Delivery with the clipboard behind it

`PortalClipboardDelivery` of `system/delivery.rs`: the clipboard first, then the text to the session
that the RemoteDesktop portal grants.  The session comes from a background setup or, when there is
none to wait for, from a connection made in the call.

* `deliver`        one call; `Call` holds what the boundaries and the clock answer in it;
* `Effect`         what a call does to the world, in order;
* `run`            the records of a sequence of calls;
* `Lawful`         one submission behind one preserved text, nothing after a terminal failure, a
                   new attempt after every other one;
* `adapter_lawful` **every run of the default adapter is lawful.**
-/

namespace Voisu.Delivery

/-! ## the adapter -/

def terminalRemoteDesktopFailure (reason : String) : Bool :=
  reason == "permission denied" || reason == "permission revoked" ||
    reason == "keyboard permission unavailable"

/-- 30 seconds, in nanoseconds -/
def remoteDesktopRetryBackoff : Nat := 30 * 10 ^ 9

def noPasteShortcutReason : String := "no paste shortcut found in your Hyprland config"
def setupPanicReason : String := "this desktop doesn't let apps paste for you"
def setupPendingReason : String := "waiting for you to allow keyboard control"

inductive DeliveryOutcome where
  | compositorSubmitted
  | clipboardFallback (reason : String)
deriving DecidableEq

section
variable {σ τ : Type}

/-- sessions are of type `σ`, background tasks of type `τ`; `paste` holds both the boundary and the
action of a Hyprland binding -/
structure PortalClipboardDelivery (σ τ : Type) where
  paste : Bool
  directEnabled : Bool
  clipboardFallbackReason : String
  session : Option σ
  setup : Option τ
  setupFailure : Option String
  setupFailureTerminal : Bool
  setupRetryAfter : Option Nat
  backgroundSetup : Bool

/-- `task` is the setup that the constructor starts -/
def PortalClipboardDelivery.default (task : τ) : PortalClipboardDelivery σ τ where
  paste := false
  directEnabled := true
  clipboardFallbackReason := noPasteShortcutReason
  session := none
  setup := some task
  setupFailure := none
  setupFailureTerminal := false
  setupRetryAfter := none
  backgroundSetup := true

/-- how a background setup stands when it is looked at -/
inductive SetupPoll (σ : Type) where
  | running
  | finished (result : Except String σ)
  | panicked

/-- the answers of one call: `checkedAt` is the clock read against the retry time, `failedAt` the
clock read when a failure is remembered -/
structure Call (σ τ : Type) where
  transcript : Text
  startedAt : Nat
  preserve : Except String Unit
  paste : Except String Unit
  checkedAt : Nat
  spawned : τ
  poll : τ → SetupPoll σ
  connect : Except String σ
  deliverText : σ → Except String Unit
  failedAt : Nat
  clock : startedAt ≤ checkedAt

inductive Effect (σ τ : Type) where
  | preserve (result : Except String Unit)
  | paste (result : Except String Unit)
  | spawnSetup (task : τ)
  | awaitSetup (task : τ) (outcome : SetupPoll σ)
  | connect (result : Except String σ)
  | submit (session : σ) (text : Text) (result : Except String Unit)
  | clearRestoreToken

/-- what a call leaves, returns and does -/
structure Delivered (σ τ : Type) where
  after : PortalClipboardDelivery σ τ
  result : Except String DeliveryOutcome
  effects : List (Effect σ τ)

def fallback (d : PortalClipboardDelivery σ τ) (reason : String) (effects : List (Effect σ τ)) :
    Delivered σ τ := ⟨d, .ok (.clipboardFallback reason), effects⟩

/-- a failure that is remembered, with the time of the next setup unless it is terminal -/
def PortalClipboardDelivery.remember (d : PortalClipboardDelivery σ τ) (reason : String)
    (now : Nat) : PortalClipboardDelivery σ τ :=
  { d with
    setupFailure := some reason
    setupFailureTerminal := terminalRemoteDesktopFailure reason
    setupRetryAfter := if terminalRemoteDesktopFailure reason then none
      else some (now + remoteDesktopRetryBackoff) }

def tokenCleared (d : PortalClipboardDelivery σ τ) (reason : String) : List (Effect σ τ) :=
  if d.backgroundSetup && terminalRemoteDesktopFailure reason then [.clearRestoreToken] else []

/-- the text is given to the session that the call has found or made -/
def submitText (d : PortalClipboardDelivery σ τ) (c : Call σ τ) (session : σ)
    (before : List (Effect σ τ)) : Delivered σ τ :=
  let effects := before ++ [Effect.submit session c.transcript (c.deliverText session)]
  match c.deliverText session with
  | .ok () => ⟨{ d with session := some session }, .ok .compositorSubmitted, effects⟩
  | .error reason =>
    fallback ({ d with session := none }.remember reason c.failedAt) reason
      (effects ++ tokenCleared d reason)

/-- a failure is remembered: when its time has come, a new setup is started behind this call -/
def retrySetup (d : PortalClipboardDelivery σ τ) (c : Call σ τ) (reason : String)
    (before : List (Effect σ τ)) : Delivered σ τ :=
  let retryDue := d.setupRetryAfter.any fun deadline => decide (deadline ≤ c.checkedAt)
  if !d.setupFailureTerminal && d.backgroundSetup && retryDue then
    fallback { d with setupFailure := none, setupRetryAfter := none, setup := some c.spawned } reason
      (before ++ [Effect.spawnSetup c.spawned])
  else fallback d reason before

/-- a setup that has ended gives the session or a failure -/
def takeSetup (d : PortalClipboardDelivery σ τ) (c : Call σ τ) (task : τ)
    (before : List (Effect σ τ)) : Delivered σ τ :=
  let effects := before ++ [Effect.awaitSetup task (c.poll task)]
  match c.poll task with
  | .running => fallback d setupPendingReason effects
  | .finished (.ok session) => submitText { d with setup := none } c session effects
  | .finished (.error reason) =>
    fallback ({ d with setup := none }.remember reason c.failedAt) reason
      (effects ++ tokenCleared d reason)
  | .panicked => fallback { d with setup := none } setupPanicReason effects

def connectPortal (d : PortalClipboardDelivery σ τ) (c : Call σ τ)
    (before : List (Effect σ τ)) : Delivered σ τ :=
  let effects := before ++ [Effect.connect c.connect]
  match c.connect with
  | .ok session => submitText d c session effects
  | .error reason =>
    if terminalRemoteDesktopFailure reason then
      fallback { d with setupFailure := some reason, setupFailureTerminal := true } reason effects
    else fallback d reason effects

/-- what follows once the clipboard holds the text and direct Delivery is enabled -/
def deliverDirect (d : PortalClipboardDelivery σ τ) (c : Call σ τ)
    (before : List (Effect σ τ)) : Delivered σ τ :=
  match d.session, d.setupFailure, d.setup with
  | some session, _, _ => submitText d c session before
  | none, some reason, _ => retrySetup d c reason before
  | none, none, some task => takeSetup d c task before
  | none, none, none => connectPortal d c before

def deliver (d : PortalClipboardDelivery σ τ) (c : Call σ τ) : Delivered σ τ :=
  let preserved := [.preserve c.preserve]
  match c.preserve with
  | .error error => ⟨d, .error error, preserved⟩
  | .ok () =>
    if d.paste then
      match c.paste with
      | .ok () => ⟨d, .ok .compositorSubmitted, preserved ++ [Effect.paste c.paste]⟩
      | .error reason => fallback d reason (preserved ++ [Effect.paste c.paste])
    else if !d.directEnabled then fallback d d.clipboardFallbackReason preserved
    else deliverDirect d c preserved

/-! ## runs -/

/-- a call of a run, with the state before it -/
structure Record (σ τ : Type) where
  before : PortalClipboardDelivery σ τ
  call : Call σ τ

def Record.done (r : Record σ τ) : Delivered σ τ := deliver r.before r.call

def run (d : PortalClipboardDelivery σ τ) : List (Call σ τ) → List (Record σ τ)
  | [] => []
  | c :: calls => ⟨d, c⟩ :: run (deliver d c).after calls

/-! ## what is asked of a run -/

/-- the failure that an effect shows -/
def Effect.failure : Effect σ τ → Option String
  | .awaitSetup _ (.finished (.error reason)) => some reason
  | .awaitSetup _ .panicked => some setupPanicReason
  | .connect (.error reason) => some reason
  | .submit _ _ (.error reason) => some reason
  | _ => none

def Effect.isSubmit : Effect σ τ → Bool
  | .submit .. => true
  | _ => false

/-- a setup is started or the portal is connected -/
def Effect.isAttempt : Effect σ τ → Bool
  | .spawnSetup _ | .connect _ => true
  | _ => false

def Record.fails (r : Record σ τ) (terminal : Bool) : Prop :=
  ∃ e ∈ r.done.effects, ∃ reason, e.failure = some reason ∧
    terminalRemoteDesktopFailure reason = terminal

def Record.attempts (r : Record σ τ) : Prop := ∃ e ∈ r.done.effects, e.isAttempt = true

/-- **the laws of a run** -/
structure Lawful (records : List (Record σ τ)) : Prop where
  once : ∀ r ∈ records, r.done.effects.countP Effect.isSubmit ≤ 1
  preserved : ∀ r ∈ records, ∀ session text result, .submit session text result ∈ r.done.effects →
    text = r.call.transcript ∧ ∃ rest, r.done.effects = .preserve (.ok ()) :: rest
  submitted : ∀ r ∈ records, r.done.result = .ok .compositorSubmitted ↔
    ∃ session, .submit session r.call.transcript (.ok ()) ∈ r.done.effects
  refused : ∀ r ∈ records, ∀ error, r.call.preserve = .error error →
    r.done.result = .error error ∧ r.done.after = r.before ∧
      r.done.effects = [.preserve (.error error)]
  terminal : records.Pairwise fun r r' => r.fails true →
    ∀ e ∈ r'.done.effects, e.isAttempt = false ∧ e.isSubmit = false
  retried : ∀ l r mid r' rest, records = l ++ r :: (mid ++ r' :: rest) → r.fails false →
    r'.call.preserve = .ok () → r.call.failedAt + remoteDesktopRetryBackoff ≤ r'.call.startedAt →
    ∃ q ∈ mid ++ [r'], q.attempts

/-! ## the exits of a call -/

/-- the adapter that the default constructor makes keeps these settings -/
structure Direct (d : PortalClipboardDelivery σ τ) : Prop where
  noPaste : d.paste = false
  enabled : d.directEnabled = true
  background : d.backgroundSetup = true

/-- how a call comes to a session: it has one, the setup has one, the portal grants one -/
inductive Finds (d : PortalClipboardDelivery σ τ) (c : Call σ τ) (session : σ) :
    PortalClipboardDelivery σ τ → List (Effect σ τ) → Prop
  | kept (h : d.session = some session) : Finds d c session d []
  | fromSetup {task : τ} (h : d.setup = some task) (hpoll : c.poll task = .finished (.ok session)) :
      Finds d c session { d with setup := none } [.awaitSetup task (.finished (.ok session))]
  | granted (h : c.connect = .ok session) : Finds d c session d [.connect (.ok session)]

/-- **every exit of a call** whose adapter delivers directly -/
inductive Exits (d : PortalClipboardDelivery σ τ) (c : Call σ τ) : Delivered σ τ → Prop
  | refused {error : String} (h : c.preserve = .error error) :
      Exits d c ⟨d, .error error, [.preserve (.error error)]⟩
  | submitted {session : σ} {d' : PortalClipboardDelivery σ τ} {pre : List (Effect σ τ)}
      (hfinds : Finds d c session d' pre) :
      Exits d c ⟨{ d' with session := some session }, .ok .compositorSubmitted,
        Effect.preserve (.ok ()) :: pre ++ [Effect.submit session c.transcript (.ok ())]⟩
  | rejected {session : σ} {d' : PortalClipboardDelivery σ τ} {pre : List (Effect σ τ)}
      {reason : String} (hfinds : Finds d c session d' pre) :
      Exits d c (fallback ({ d' with session := none }.remember reason c.failedAt) reason
        (Effect.preserve (.ok ()) :: pre ++ [Effect.submit session c.transcript (.error reason)] ++
          tokenCleared d' reason))
  | waits {reason : String} (post : List (Effect σ τ)) (d' : PortalClipboardDelivery σ τ)
      (hsession : d'.session = d.session) (hpost : ∀ e ∈ post, e.failure = none ∧ e.isSubmit = false)
      (hpaste : d'.paste = d.paste) (henabled : d'.directEnabled = d.directEnabled)
      (hback : d'.backgroundSetup = d.backgroundSetup) :
      Exits d c (fallback d' reason (.preserve (.ok ()) :: post))
  | setupFails {task : τ} {reason : String} (h : d.session = none) :
      Exits d c (fallback ({ d with setup := none }.remember reason c.failedAt) reason
        (Effect.preserve (.ok ()) :: [Effect.awaitSetup task (.finished (.error reason))] ++
          tokenCleared d reason))
  | setupPanics {task : τ} (h : d.session = none) (hf : d.setupFailure = none) :
      Exits d c (fallback { d with setup := none } setupPanicReason
        [.preserve (.ok ()), .awaitSetup task .panicked])
  | deniedForGood {reason : String} (h : d.session = none)
      (hterm : terminalRemoteDesktopFailure reason = true) :
      Exits d c (fallback { d with setupFailure := some reason, setupFailureTerminal := true } reason
        [.preserve (.ok ()), .connect (.error reason)])
  | unconnected {reason : String} (h : d.session = none) (hf : d.setupFailure = none)
      (hset : d.setup = none) (hterm : terminalRemoteDesktopFailure reason = false) :
      Exits d c (fallback d reason [.preserve (.ok ()), .connect (.error reason)])

theorem submitText_exits {d d' : PortalClipboardDelivery σ τ} {c : Call σ τ} {session : σ}
    {pre : List (Effect σ τ)} (hfinds : Finds d c session d' pre) :
    Exits d c (submitText d' c session (.preserve (.ok ()) :: pre)) := by
  unfold submitText
  split
  · rename_i hok
    rw [hok]
    exact .submitted hfinds
  · rename_i reason herr
    rw [herr]
    exact .rejected hfinds

theorem retrySetup_exits (d : PortalClipboardDelivery σ τ) (c : Call σ τ) (reason : String) :
    Exits d c (retrySetup d c reason [.preserve (.ok ())]) := by
  unfold retrySetup
  dsimp only
  split
  · exact .waits [.spawnSetup c.spawned] _ rfl (by simp [Effect.failure, Effect.isSubmit]) rfl rfl rfl
  · exact .waits [] d rfl (by simp) rfl rfl rfl

theorem takeSetup_exits {d : PortalClipboardDelivery σ τ} {c : Call σ τ} {task : τ}
    (hs : d.session = none) (hf : d.setupFailure = none) (htask : d.setup = some task) :
    Exits d c (takeSetup d c task [.preserve (.ok ())]) := by
  unfold takeSetup
  dsimp only
  split
  · rename_i hpoll
    rw [hpoll]
    exact .waits [.awaitSetup task .running] d rfl (by simp [Effect.failure, Effect.isSubmit])
      rfl rfl rfl
  · rename_i session hpoll
    rw [hpoll]
    exact submitText_exits (.fromSetup htask hpoll)
  · rename_i reason hpoll
    rw [hpoll]
    exact .setupFails hs
  · rename_i hpoll
    rw [hpoll]
    exact .setupPanics hs hf

theorem connectPortal_exits {d : PortalClipboardDelivery σ τ} {c : Call σ τ}
    (hs : d.session = none) (hf : d.setupFailure = none) (hset : d.setup = none) :
    Exits d c (connectPortal d c [.preserve (.ok ())]) := by
  unfold connectPortal
  dsimp only
  split
  · rename_i session hok
    rw [hok]
    exact submitText_exits (.granted hok)
  · rename_i reason herr
    rw [herr]
    split
    · rename_i hterm
      exact .deniedForGood hs hterm
    · rename_i hterm
      exact .unconnected hs hf hset (Bool.not_eq_true _ ▸ hterm)

theorem deliver_exits {d : PortalClipboardDelivery σ τ} (hd : Direct d) (c : Call σ τ) :
    Exits d c (deliver d c) := by
  unfold deliver
  dsimp only
  split
  · rename_i error herr
    rw [herr]
    exact .refused herr
  · rename_i hok
    rw [hok, hd.noPaste, hd.enabled, if_neg Bool.false_ne_true, if_neg (by simp)]
    unfold deliverDirect
    split
    · rename_i session hs
      exact submitText_exits (.kept hs)
    · exact retrySetup_exits d c _
    · rename_i task hs hf htask
      exact takeSetup_exits hs hf htask
    · rename_i hs hf hset
      exact connectPortal_exits hs hf hset

/-! ## one call -/

section
variable {d d' : PortalClipboardDelivery σ τ} {c : Call σ τ} {out : Delivered σ τ}

theorem mem_tokenCleared {reason : String} {e : Effect σ τ} (he : e ∈ tokenCleared d reason) :
    e = .clearRestoreToken := by
  unfold tokenCleared at he
  split at he
  · simpa using he
  · cases he

theorem Finds.quiet {session : σ} {pre : List (Effect σ τ)} (h : Finds d c session d' pre)
    {e : Effect σ τ} (he : e ∈ pre) : e.failure = none ∧ e.isSubmit = false := by
  cases h with
  | kept => cases he
  | fromSetup | granted =>
    rw [List.mem_singleton] at he
    subst he
    exact ⟨rfl, rfl⟩

theorem Finds.direct {session : σ} {pre : List (Effect σ τ)} (h : Finds d c session d' pre)
    (hd : Direct d) : Direct d' := by
  cases h with
  | kept | granted => exact hd
  | fromSetup => exact ⟨hd.noPaste, hd.enabled, hd.background⟩

theorem Exits.direct (h : Exits d c out) (hd : Direct d) : Direct out.after := by
  cases h with
  | refused | unconnected => exact hd
  | submitted hfinds | rejected hfinds =>
    have hd' := hfinds.direct hd
    exact ⟨hd'.noPaste, hd'.enabled, hd'.background⟩
  | waits post d' hsession hpost hpaste henabled hback =>
    exact ⟨hpaste.trans hd.noPaste, henabled.trans hd.enabled, hback.trans hd.background⟩
  | setupFails | setupPanics | deniedForGood => exact ⟨hd.noPaste, hd.enabled, hd.background⟩

/-- a call without a submission among its effects -/
theorem countP_isSubmit_eq_zero {effects : List (Effect σ τ)}
    (h : ∀ e ∈ effects, e.isSubmit = false) : effects.countP Effect.isSubmit = 0 :=
  List.countP_eq_zero.mpr fun e he => by rw [h e he]; exact Bool.false_ne_true

/-- what the effects of a call say about its submission -/
inductive Submission (c : Call σ τ) (out : Delivered σ τ) : Prop
  | none (h : ∀ e ∈ out.effects, e.isSubmit = false) (hr : out.result ≠ .ok .compositorSubmitted)
  | one {session : σ} {result : Except String Unit} {pre post : List (Effect σ τ)}
      (heffects : out.effects =
        Effect.preserve (.ok ()) :: (pre ++ Effect.submit session c.transcript result :: post))
      (hpre : ∀ e ∈ pre, e.isSubmit = false) (hpost : ∀ e ∈ post, e.isSubmit = false)
      (hr : out.result = .ok .compositorSubmitted ↔ result = .ok ())

theorem Exits.submission (h : Exits d c out) : Submission c out := by
  cases h with
  | refused | setupPanics | deniedForGood | unconnected =>
    exact .none (by simp [fallback, Effect.isSubmit]) (by simp [fallback])
  | submitted hfinds =>
    exact .one rfl (fun e he => (hfinds.quiet he).2) (fun e he => by cases he) (by simp)
  | rejected hfinds =>
    refine .one (by simp only [fallback, List.cons_append, List.append_assoc, List.nil_append]; rfl)
      (fun e he => (hfinds.quiet he).2)
      (fun e he => by rw [mem_tokenCleared he]; rfl) ?_
    simp [fallback]
  | waits post d' hsession hpost =>
    refine .none (fun e he => ?_) (by simp [fallback])
    rcases List.mem_cons.mp he with rfl | he
    · rfl
    · exact (hpost e he).2
  | setupFails =>
    refine .none (fun e he => ?_) (by simp [fallback])
    rcases List.mem_append.mp he with he | he
    · simp only [List.mem_cons, List.not_mem_nil, or_false] at he
      obtain rfl | rfl := he <;> rfl
    · rw [mem_tokenCleared he]
      rfl

theorem Submission.once (h : Submission c out) : out.effects.countP Effect.isSubmit ≤ 1 := by
  cases h with
  | none h => rw [countP_isSubmit_eq_zero h]; exact Nat.zero_le 1
  | one heffects hpre hpost =>
    rw [heffects, List.countP_cons, List.countP_append, List.countP_cons,
      countP_isSubmit_eq_zero hpre, countP_isSubmit_eq_zero hpost]
    exact Nat.le_refl 1

/-- the one submission of a call -/
theorem Submission.unique (h : Submission c out) {session : σ} {text : Text}
    {result : Except String Unit} (hmem : .submit session text result ∈ out.effects) :
    text = c.transcript ∧ (∃ rest, out.effects = .preserve (.ok ()) :: rest) ∧
      (out.result = .ok .compositorSubmitted ↔ result = .ok ()) := by
  cases h with
  | none h => exact absurd (h _ hmem) (by simp [Effect.isSubmit])
  | @one session' result' pre post heffects hpre hpost hr =>
    have hsame : (.submit session text result : Effect σ τ) =
        .submit session' c.transcript result' := by
      rw [heffects] at hmem
      rcases List.mem_cons.mp hmem with hmem | hmem
      · cases hmem
      rcases List.mem_append.mp hmem with hmem | hmem
      · exact absurd (hpre _ hmem) (by simp [Effect.isSubmit])
      rcases List.mem_cons.mp hmem with hmem | hmem
      · exact hmem
      · exact absurd (hpost _ hmem) (by simp [Effect.isSubmit])
    cases hsame
    exact ⟨rfl, ⟨_, heffects⟩, hr⟩

theorem Submission.submitted_iff (h : Submission c out) :
    out.result = .ok .compositorSubmitted ↔
      ∃ session, .submit session c.transcript (.ok ()) ∈ out.effects := by
  constructor
  · intro hok
    cases h with
    | none h hr => exact absurd hok hr
    | @one session result pre post heffects hpre hpost hr =>
      rw [hr.mp hok] at heffects
      exact ⟨session, by rw [heffects]; simp⟩
  · rintro ⟨session, hmem⟩
    exact (h.unique hmem).2.2.mpr rfl

/-! ## after a failure -/

/-- nothing is tried any more -/
structure Dead (d : PortalClipboardDelivery σ τ) : Prop where
  session : d.session = none
  failure : d.setupFailure.isSome = true
  terminal : d.setupFailureTerminal = true

/-- the portal is connected by the next call, or a setup is started by a call from `deadline` on -/
structure Waiting (deadline : Nat) (d : PortalClipboardDelivery σ τ) : Prop where
  session : d.session = none
  retry : (d.setupFailure = none ∧ d.setup = none) ∨
    (d.setupFailure.isSome = true ∧ d.setupFailureTerminal = false ∧
      d.setupRetryAfter = some deadline)

theorem remember_dead (hs : d.session = none) {reason : String}
    (hterm : terminalRemoteDesktopFailure reason = true) (now : Nat) :
    Dead (d.remember reason now) := ⟨hs, rfl, hterm⟩

theorem remember_waiting (hs : d.session = none) {reason : String}
    (hterm : terminalRemoteDesktopFailure reason = false) (now : Nat) :
    Waiting (now + remoteDesktopRetryBackoff) (d.remember reason now) := by
  refine ⟨hs, .inr ⟨rfl, hterm, ?_⟩⟩
  show (if terminalRemoteDesktopFailure reason then none else _) = _
  rw [hterm]
  rfl

/-- **what a failure leaves behind** -/
theorem Exits.failed (h : Exits d c out) {e : Effect σ τ} {reason : String}
    (he : e ∈ out.effects) (hf : e.failure = some reason) :
    (terminalRemoteDesktopFailure reason = true → Dead out.after) ∧
      (terminalRemoteDesktopFailure reason = false →
        Waiting (c.failedAt + remoteDesktopRetryBackoff) out.after) := by
  cases h with
  | refused =>
    rw [List.mem_singleton.mp he] at hf
    cases hf
  | submitted hfinds =>
    rcases List.mem_append.mp he with he | he
    · rcases List.mem_cons.mp he with rfl | he
      · cases hf
      · rw [(hfinds.quiet he).1] at hf
        cases hf
    · rw [List.mem_singleton.mp he] at hf
      cases hf
  | rejected hfinds =>
    rcases List.mem_append.mp he with he | he
    · rcases List.mem_append.mp he with he | he
      · rcases List.mem_cons.mp he with rfl | he
        · cases hf
        · rw [(hfinds.quiet he).1] at hf
          cases hf
      · rw [List.mem_singleton.mp he] at hf
        cases hf
        exact ⟨fun hterm => remember_dead rfl hterm _, fun hterm => remember_waiting rfl hterm _⟩
    · rw [mem_tokenCleared he] at hf
      cases hf
  | waits post d' hsession hpost =>
    rcases List.mem_cons.mp he with rfl | he
    · cases hf
    · rw [(hpost e he).1] at hf
      cases hf
  | setupFails hs =>
    rcases List.mem_append.mp he with he | he
    · simp only [List.mem_cons, List.not_mem_nil, or_false] at he
      obtain rfl | rfl := he
      · cases hf
      · cases hf
        exact ⟨fun hterm => remember_dead (d := { d with setup := none }) hs hterm _,
          fun hterm => remember_waiting (d := { d with setup := none }) hs hterm _⟩
    · rw [mem_tokenCleared he] at hf
      cases hf
  | setupPanics hs hnone =>
    simp only [fallback, List.mem_cons, List.not_mem_nil, or_false] at he
    obtain rfl | rfl := he
    · cases hf
    · cases hf
      exact ⟨fun hterm => absurd hterm (by decide), fun _ => ⟨hs, .inl ⟨hnone, rfl⟩⟩⟩
  | deniedForGood hs hterm =>
    simp only [fallback, List.mem_cons, List.not_mem_nil, or_false] at he
    obtain rfl | rfl := he
    · cases hf
    · cases hf
      exact ⟨fun _ => ⟨hs, rfl, rfl⟩, fun hfalse => absurd (hfalse.symm.trans hterm) (by decide)⟩
  | unconnected hs hnone hset hterm =>
    simp only [fallback, List.mem_cons, List.not_mem_nil, or_false] at he
    obtain rfl | rfl := he
    · cases hf
    · cases hf
      exact ⟨fun htrue => absurd htrue (by rw [hterm]; exact Bool.false_ne_true),
        fun _ => ⟨hs, .inl ⟨hnone, hset⟩⟩⟩

theorem deliver_dead (hd : Direct d) (hdead : Dead d) (c : Call σ τ) :
    (deliver d c).after = d ∧ (deliver d c).effects = [.preserve c.preserve] := by
  obtain ⟨reason, hreason⟩ := Option.isSome_iff_exists.mp hdead.failure
  unfold deliver
  dsimp only
  split
  · exact ⟨rfl, rfl⟩
  · simp [hd.noPaste, hd.enabled, deliverDirect, hdead.session, hreason, retrySetup, hdead.terminal,
      fallback]

/-- a call that finds the adapter waiting makes an attempt, or it leaves the adapter as it was and
was too early or had no clipboard -/
theorem deliver_waiting (hd : Direct d) {deadline : Nat} (hw : Waiting deadline d) (c : Call σ τ) :
    (∃ e ∈ (deliver d c).effects, e.isAttempt = true) ∨
      ((deliver d c).after = d ∧ (c.preserve = .ok () → c.checkedAt < deadline)) := by
  unfold deliver
  dsimp only
  split
  · rename_i error herr
    exact .inr ⟨rfl, fun hok => by rw [herr] at hok; cases hok⟩
  · rename_i hok
    rw [hok, hd.noPaste, hd.enabled, if_neg Bool.false_ne_true, if_neg (by simp)]
    rcases hw.retry with ⟨hnone, hset⟩ | ⟨hsome, hterm, hretry⟩
    · left
      refine ⟨.connect c.connect, ?_, rfl⟩
      simp only [deliverDirect, hw.session, hnone, hset, connectPortal]
      split
      · unfold submitText
        split <;> simp [fallback]
      · split <;> simp [fallback]
    · obtain ⟨reason, hreason⟩ := Option.isSome_iff_exists.mp hsome
      simp only [deliverDirect, hw.session, hreason, retrySetup, hterm, hd.background, hretry]
      by_cases hdue : deadline ≤ c.checkedAt
      · left
        refine ⟨.spawnSetup c.spawned, ?_, rfl⟩
        simp [hdue, fallback]
      · right
        simp only [Option.any_some, hdue, fallback]
        exact ⟨rfl, fun _ => Nat.lt_of_not_le hdue⟩

end

/-! ## every run -/

theorem direct_default (task : τ) : Direct (.default task : PortalClipboardDelivery σ τ) :=
  ⟨rfl, rfl, rfl⟩

theorem run_direct {d : PortalClipboardDelivery σ τ} (hd : Direct d) (calls : List (Call σ τ)) :
    ∀ r ∈ run d calls, Direct r.before := by
  induction calls generalizing d with
  | nil => intro r hr; cases hr
  | cons c calls ih =>
    intro r hr
    rcases List.mem_cons.mp hr with rfl | hr
    · exact hd
    · exact ih ((deliver_exits hd c).direct hd) r hr

theorem run_dead {d : PortalClipboardDelivery σ τ} (hd : Direct d) (hdead : Dead d)
    (calls : List (Call σ τ)) : ∀ r ∈ run d calls, r.done.effects = [.preserve r.call.preserve] := by
  induction calls with
  | nil => intro r hr; cases hr
  | cons c calls ih =>
    obtain ⟨hafter, heffects⟩ := deliver_dead hd hdead c
    intro r hr
    rw [run, hafter] at hr
    rcases List.mem_cons.mp hr with rfl | hr
    · exact heffects
    · exact ih r hr

theorem run_terminal {d : PortalClipboardDelivery σ τ} (hd : Direct d) (calls : List (Call σ τ)) :
    (run d calls).Pairwise fun r r' => r.fails true →
      ∀ e ∈ r'.done.effects, e.isAttempt = false ∧ e.isSubmit = false := by
  induction calls generalizing d with
  | nil => exact List.Pairwise.nil
  | cons c calls ih =>
    have hexit := deliver_exits hd c
    refine List.Pairwise.cons ?_ (ih (hexit.direct hd))
    rintro r' hr' ⟨e, he, reason, hfail, hterm⟩ e' he'
    have hdead := (hexit.failed he hfail).1 hterm
    rw [run_dead (hexit.direct hd) hdead calls r' hr', List.mem_singleton] at he'
    rw [he']
    exact ⟨rfl, rfl⟩

/-- a waiting adapter waits until an attempt, or until the calls are over -/
theorem run_waiting {d : PortalClipboardDelivery σ τ} (hd : Direct d) {deadline : Nat}
    (hw : Waiting deadline d) {calls : List (Call σ τ)} {mid rest : List (Record σ τ)}
    {r : Record σ τ} (hrun : run d calls = mid ++ r :: rest) (hok : r.call.preserve = .ok ())
    (hdue : deadline ≤ r.call.startedAt) : ∃ q ∈ mid ++ [r], q.attempts := by
  induction mid generalizing d calls with
  | nil =>
    cases calls with
    | nil => cases hrun
    | cons c calls =>
      obtain ⟨rfl, -⟩ := List.cons.inj hrun
      rcases deliver_waiting hd hw c with hattempt | ⟨-, hearly⟩
      · exact ⟨_, List.mem_singleton.mpr rfl, hattempt⟩
      · have hclock := c.clock
        have := hearly hok
        exact absurd hdue (by simp only; omega)
  | cons q mid ih =>
    cases calls with
    | nil => cases hrun
    | cons c calls =>
      obtain ⟨rfl, htail⟩ := List.cons.inj hrun
      rcases deliver_waiting hd hw c with hattempt | ⟨hafter, -⟩
      · exact ⟨_, List.mem_cons_self, hattempt⟩
      · rw [hafter] at htail
        obtain ⟨q, hq, hattempt⟩ := ih hd hw htail
        exact ⟨q, List.mem_cons_of_mem _ hq, hattempt⟩

theorem run_retried {d : PortalClipboardDelivery σ τ} (hd : Direct d) (calls : List (Call σ τ))
    (l : List (Record σ τ)) (r : Record σ τ) (mid : List (Record σ τ)) (r' : Record σ τ)
    (rest : List (Record σ τ)) (hrun : run d calls = l ++ r :: (mid ++ r' :: rest))
    (hfails : r.fails false) (hok : r'.call.preserve = .ok ())
    (hdue : r.call.failedAt + remoteDesktopRetryBackoff ≤ r'.call.startedAt) :
    ∃ q ∈ mid ++ [r'], q.attempts := by
  induction l generalizing d calls with
  | nil =>
    cases calls with
    | nil => cases hrun
    | cons c calls =>
      obtain ⟨rfl, htail⟩ := List.cons.inj hrun
      have hexit := deliver_exits hd c
      obtain ⟨e, he, reason, hfail, hterm⟩ := hfails
      exact run_waiting (hexit.direct hd) ((hexit.failed he hfail).2 hterm) htail hok hdue
  | cons q l ih =>
    cases calls with
    | nil => cases hrun
    | cons c calls =>
      obtain ⟨rfl, htail⟩ := List.cons.inj hrun
      exact ih ((deliver_exits hd c).direct hd) calls htail

/-- **every run of the default adapter is lawful** -/
theorem adapter_lawful (task : τ) (calls : List (Call σ τ)) :
    Lawful (run (.default task) calls) where
  once r hr := (deliver_exits (run_direct (direct_default task) calls r hr) r.call).submission.once
  preserved r hr session text result hmem := by
    have hsub := (deliver_exits (run_direct (direct_default task) calls r hr) r.call).submission
    exact ⟨(hsub.unique hmem).1, (hsub.unique hmem).2.1⟩
  submitted r hr :=
    (deliver_exits (run_direct (direct_default task) calls r hr) r.call).submission.submitted_iff
  refused r _ error herr := by
    simp [Record.done, deliver, herr]
  terminal := run_terminal (direct_default task) calls
  retried := run_retried (direct_default task) calls

end

end Voisu.Delivery
