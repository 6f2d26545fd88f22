import Mathlib
import Voisu.Daemon.Overlay
import Voisu.Lib.Strings

/-!
# A Recording that is delivered is announced once

Along every run, whichever of `DeliveryLanded` and `Completed` comes first.

* `correlationId`   the text that joins the events of one Recording;
* `Stamped`         it holds the id of the Recording, so no two Recordings share one;
* `Pending`         a Recording that is still to be completed, and how often it has been announced;
* `Over`            a Recording that is in hand no more: nothing is published for it again;
* `run_announces_once`   **the ids increase, and a Recording that is completed without an error has
                    one event**.
-/

namespace Voisu.Daemon
open Lib

/-! ## correlation ids -/

/-- `correlation_id`, with the process id, the clock and the counter it reads -/
def correlationId (pid recordingId unixMillisNow sequence : Nat) : Text :=
  "rec-".toList ++ (natText pid ++ '-' :: (natText recordingId ++
    '-' :: natText ((unixMillisNow + sequence) % 2 ^ 64)))

def Stamped (correlation : Text) (recordingId : Nat) : Prop :=
  ∃ pid unixMillisNow sequence, correlation = correlationId pid recordingId unixMillisNow sequence

theorem Stamped.unique {correlation : Text} {i j : Nat} (hi : Stamped correlation i)
    (hj : Stamped correlation j) : i = j := by
  obtain ⟨pid, millis, sequence, rfl⟩ := hi
  obtain ⟨pid', millis', sequence', h⟩ := hj
  exact (natText_append_cons rfl (natText_append_cons rfl (List.append_cancel_left h)).2).1

/-- each capture that is admitted is given a correlation id made of the id the actor has just taken -/
def Stamps (cfg : Config) (a : Actor) : List Event → Prop
  | [] => True
  | e :: es =>
    (∀ token admission, e = .captureAdmitted token admission →
      Stamped admission.correlationId a.nextId) ∧
    match a.step cfg e with
    | .error _ => True
    | .ok a' => Stamps cfg a' es

/-- the Delivery of this Recording lands -/
def Event.lands (recordingId : Nat) (correlation : Text) : Event → Bool
  | .deliveryLanded id correlationId _ _ _ => id = recordingId && correlationId = correlation
  | _ => false

def OverlayEvent.isOf (correlation : Text) (event : OverlayEvent) : Bool :=
  event.correlationId = some correlation

/-! ## ids -/

section
variable {cfg : Config} {a a' : Actor} {e : Event} {es : List Event}

/-- the first message of a run that can happen -/
theorem feasible_cons (h : a.feasible cfg (e :: es) = true) : a.enabled e = true ∧
    ((∃ panic, a.step cfg e = .error panic ∧ es = []) ∨
      ∃ a', a.step cfg e = .ok a' ∧ a'.feasible cfg es = true) := by
  rw [Actor.feasible, Bool.and_eq_true] at h
  refine ⟨h.1, ?_⟩
  cases hstep : a.step cfg e with
  | error panic =>
    rw [hstep] at h
    exact .inl ⟨panic, rfl, List.isEmpty_iff.mp h.2⟩
  | ok a' =>
    rw [hstep] at h
    exact .inr ⟨a', rfl, h.2⟩

example : Event.lands 3 ['a'] (.deliveryLanded 3 ['b'] .clipboardFallback none true) = false := by decide +kernel

theorem retained_same (h : SameOverlay a a') : retained a a' = [] := by
  rw [retained, if_pos h.1]

theorem retained_event {c : Option Text} (h : Retains a a' c) :
    ∃ event, retained a a' = [event] ∧ a'.lastOverlayEvent = some event ∧
      event.id = a.nextOverlayEventId ∧ event.correlationId = c := by
  obtain ⟨hnext, event, hlast, hid, hc⟩ := h
  refine ⟨event, ?_, hlast, hid, hc⟩
  rw [retained, if_neg (by omega), hlast]
  rfl

/-- a message retains at most one event, under the next id -/
theorem Shows.overlay (h : Shows a e a') : SameOverlay a a' ∨ ∃ c, Retains a a' c := by
  cases h with
  | quiet hoverlay | begins _ _ _ hoverlay | processes _ _ hoverlay => exact .inl hoverlay
  | startFails hretains | lands _ _ _ _ _ hretains => exact .inr ⟨_, hretains⟩
  | concludes evidence reply h => exact h.overlay.imp (fun h => h.1) fun h => ⟨_, h.1⟩

theorem published_ids (hw : Waited a) (hfeasible : a.feasible cfg es = true) :
    ((published cfg a es).map (·.id)).Pairwise (· < ·) ∧
      ∀ event ∈ published cfg a es, a.nextOverlayEventId ≤ event.id := by
  induction es generalizing a with
  | nil => exact ⟨List.Pairwise.nil, by simp [published]⟩
  | cons e es ih =>
    obtain ⟨henabled, ⟨panic, hstep, -⟩ | ⟨a', hstep, hrest⟩⟩ := feasible_cons hfeasible
    · simp [published, hstep]
    · have hshows := step_shows hw henabled hstep
      obtain ⟨hpairs, hleast⟩ := ih (hshows.waited hw henabled) hrest
      simp only [published, hstep]
      rcases hshows.overlay with hsame | ⟨c, hretains⟩
      · rw [retained_same hsame, List.nil_append, ← hsame.1]
        exact ⟨hpairs, hleast⟩
      · obtain ⟨event, hevent, -, hid, -⟩ := retained_event hretains
        have hnext := hretains.1
        rw [hevent, List.singleton_append, List.map_cons, List.pairwise_cons]
        refine ⟨⟨fun id hmem => ?_, hpairs⟩, fun event' hmem => ?_⟩
        · obtain ⟨event', hmem', rfl⟩ := List.mem_map.mp hmem
          have := hleast event' hmem'
          omega
        · rcases List.mem_cons.mp hmem with rfl | hmem'
          · exact Nat.le_of_eq hid.symm
          · have := hleast event' hmem'
            omega

/-! ## the Recording in hand -/

/-- the Recording in hand has been given its id and a correlation id that holds it -/
def Issued (a : Actor) : Prop :=
  ∀ id c, live a.state = some (id, c) → id < a.nextId ∧ Stamped c id

/-- the Recording is in hand no more, and its id is not given again -/
def Over (id : Nat) (correlation : Text) (a : Actor) : Prop :=
  id < a.nextId ∧ ∀ id', live a.state ≠ some (id', correlation)

theorem Shows.nextId_le (h : Shows a e a') : a.nextId ≤ a'.nextId := by
  cases h with
  | quiet hoverlay hid => exact hid
  | begins _ _ _ _ hid => rw [hid]; exact Nat.le_succ _
  | processes _ _ _ hid | startFails _ hid | lands _ _ _ _ _ _ hid =>
    exact Nat.le_of_eq hid.symm
  | concludes _ _ h => exact Nat.le_of_eq h.nextId.symm

/-- the Recording in hand was there before, unless this message began it -/
theorem Shows.live_cases (h : Shows a e a') :
    (live a'.state = live a.state ∨ live a'.state = none) ∨
      ∃ token admission, e = .captureAdmitted token admission ∧ a'.nextId = a.nextId + 1 ∧
        live a'.state = some (a.nextId, admission.correlationId) := by
  cases h with
  | quiet hoverlay hid htasks hlive hstate => exact .inl hlive
  | begins token admission he hoverlay hid htasks hnone hlive =>
    exact .inr ⟨token, admission, he, hid, hlive⟩
  | processes recording reply hoverlay hid htasks hwas hstate =>
    exact .inl (.inl (by rw [hwas, hstate]; rfl))
  | startFails hretains hid htasks hwas hlive => exact .inl (.inr hlive)
  | lands evidence method fallbackReason truncated he hretains hid htasks hwas hstate =>
    exact .inl (.inl (by rw [hstate]))
  | concludes evidence reply h => exact .inl (.inr h.live)

theorem Shows.issued (h : Shows a e a') (hissued : Issued a)
    (hstamped : ∀ token admission, e = .captureAdmitted token admission →
      Stamped admission.correlationId a.nextId) : Issued a' := by
  intro id c hlive
  rcases h.live_cases with (hsame | hnone) | ⟨token, admission, he, hid, hnew⟩
  · obtain ⟨hlt, hstamp⟩ := hissued id c (hsame.symm.trans hlive)
    exact ⟨Nat.lt_of_lt_of_le hlt h.nextId_le, hstamp⟩
  · cases hnone.symm.trans hlive
  · obtain ⟨rfl, rfl⟩ := Prod.mk.inj (Option.some.inj (hnew.symm.trans hlive))
    exact ⟨by omega, hstamped token admission he⟩

theorem Shows.over {id : Nat} {c : Text} (h : Shows a e a') (hover : Over id c a)
    (hc : Stamped c id) (hstamped : ∀ token admission, e = .captureAdmitted token admission →
      Stamped admission.correlationId a.nextId) : Over id c a' := by
  refine ⟨Nat.lt_of_lt_of_le hover.1 h.nextId_le, fun id' hlive => ?_⟩
  rcases h.live_cases with (hsame | hnone) | ⟨token, admission, he, hid, hnew⟩
  · exact hover.2 id' (hsame.symm.trans hlive)
  · cases hnone.symm.trans hlive
  · obtain ⟨rfl, rfl⟩ := Prod.mk.inj (Option.some.inj (hnew.symm.trans hlive))
    have := (hstamped token admission he).unique hc
    have := hover.1
    omega

theorem Retains.not_same {c : Option Text} (h : Retains a a' c) : ¬ SameOverlay a a' := by
  intro hsame
  have := h.1
  have := hsame.1
  omega

theorem Retains.unique {c c' : Option Text} (h : Retains a a' c) (h' : Retains a a' c') : c = c' := by
  obtain ⟨-, event, hlast, -, rfl⟩ := h
  obtain ⟨-, event', hlast', -, rfl⟩ := h'
  rw [Option.some.inj (hlast.symm.trans hlast')]

/-- an event is for the Recording in hand, or for none -/
theorem Shows.retains_live {c : Text} (h : Shows a e a') (hretains : Retains a a' (some c)) :
    ∃ id, live a.state = some (id, c) := by
  cases h with
  | quiet hoverlay | begins _ _ _ hoverlay | processes _ _ hoverlay =>
    exact absurd hoverlay hretains.not_same
  | startFails hnone => cases hnone.unique hretains
  | lands evidence method fallbackReason truncated he hretains' hid htasks hwas hstate =>
    obtain rfl := Option.some.inj (hretains'.unique hretains)
    exact ⟨evidence.recordingId, by rw [hwas]; rfl⟩
  | concludes evidence reply h =>
    rcases h.overlay with ⟨hsame, -⟩ | ⟨hretains', -⟩
    · exact absurd hsame hretains.not_same
    · obtain rfl := Option.some.inj (hretains'.unique hretains)
      exact ⟨evidence.recordingId, by rw [h.was]; rfl⟩

/-- what is retained is not for a Recording that is not in hand -/
theorem Shows.silent {c : Text} (h : Shows a e a') (hlive : ∀ id, live a.state ≠ some (id, c)) :
    (retained a a').countP (OverlayEvent.isOf c) = 0 ∧
      (a.lastOverlayEvent.any (OverlayEvent.isOf c) = false →
        a'.lastOverlayEvent.any (OverlayEvent.isOf c) = false) := by
  rcases h.overlay with hsame | ⟨c', hretains⟩
  · rw [retained_same hsame, hsame.2]
    exact ⟨rfl, id⟩
  · obtain ⟨event, hevent, hlast, -, rfl⟩ := retained_event hretains
    have hother : OverlayEvent.isOf c event = false := by
      refine decide_eq_false fun hc => ?_
      obtain ⟨id, hid⟩ := h.retains_live (hc ▸ hretains)
      exact hlive id hid
    rw [hevent, hlast]
    exact ⟨by simp [hother], fun _ => hother⟩

/-- a processing that ends was that of the Recording in hand -/
theorem live_of_ends {evidence : LifecycleEvidence} {reply : Option Reply} (hw : Waited a)
    (henabled : a.enabled e = true) (he : e.ends = some (.task (.processing evidence reply))) :
    live a.state = some (evidence.recordingId, evidence.correlationId) := by
  rw [hw.current (mem_tasks_of_enabled henabled he)]
  rfl

/-! ## a Recording in hand no more -/

theorem over_silent {id : Nat} {c : Text} (hw : Waited a) (hover : Over id c a) (hc : Stamped c id)
    (hfeasible : a.feasible cfg es = true) (hstamps : Stamps cfg a es) :
    (published cfg a es).countP (OverlayEvent.isOf c) = 0 ∧
      ∀ evidence reply result, Event.completed evidence reply result ∈ es →
        evidence.correlationId ≠ c := by
  induction es generalizing a with
  | nil => exact ⟨rfl, by simp⟩
  | cons e es ih =>
    obtain ⟨henabled, hcases⟩ := feasible_cons hfeasible
    have hhead : ∀ evidence reply result, e = .completed evidence reply result →
        evidence.correlationId ≠ c := by
      rintro evidence reply result rfl rfl
      exact hover.2 _ (live_of_ends hw henabled rfl)
    rcases hcases with ⟨panic, hstep, rfl⟩ | ⟨a', hstep, hrest⟩
    · refine ⟨by simp [published, hstep], fun evidence reply result hmem => ?_⟩
      exact hhead evidence reply result (List.mem_singleton.mp hmem).symm
    · simp only [Stamps, hstep] at hstamps
      have hshows := step_shows hw henabled hstep
      obtain ⟨hnone, hlater⟩ := ih (hshows.waited hw henabled) (hshows.over hover hc hstamps.1)
        hrest hstamps.2
      refine ⟨?_, fun evidence reply result hmem => ?_⟩
      · simp only [published, hstep, List.countP_append, hnone, (hshows.silent hover.2).1]
      · rcases List.mem_cons.mp hmem with heq | hmem'
        · exact hhead evidence reply result heq.symm
        · exact hlater evidence reply result hmem'

/-- a Recording that is completed had a correlation id of its own -/
theorem completed_stamped {evidence : LifecycleEvidence} {reply : Option Reply}
    {result : Except Failure Delivered} (hw : Waited a) (hissued : Issued a)
    (hfeasible : a.feasible cfg es = true) (hstamps : Stamps cfg a es)
    (hmem : Event.completed evidence reply result ∈ es) :
    Stamped evidence.correlationId evidence.recordingId := by
  induction es generalizing a with
  | nil => cases hmem
  | cons e es ih =>
    obtain ⟨henabled, hcases⟩ := feasible_cons hfeasible
    rcases List.mem_cons.mp hmem with rfl | hmem'
    · exact (hissued _ _ (live_of_ends hw henabled rfl)).2
    · rcases hcases with ⟨panic, hstep, rfl⟩ | ⟨a', hstep, hrest⟩
      · cases hmem'
      · simp only [Stamps, hstep] at hstamps
        have hshows := step_shows hw henabled hstep
        exact ih (hshows.waited hw henabled) (hshows.issued hissued hstamps.1) hrest hstamps.2 hmem'

/-! ## a Recording still to be completed -/

/-- how often the Recording has been announced: once only while it is being processed, and then it is
the event the Overlay holds -/
inductive Pending (id : Nat) (c : Text) (a : Actor) : Nat → Prop where
  | before (hnext : a.nextId ≤ id)
      (hlast : a.lastOverlayEvent.any (OverlayEvent.isOf c) = false) : Pending id c a 0
  | inHand (hlive : live a.state = some (id, c))
      (hlast : a.lastOverlayEvent.any (OverlayEvent.isOf c) = false) : Pending id c a 0
  | announced (evidence : LifecycleEvidence) (hstate : a.state = .processing evidence)
      (hid : evidence.recordingId = id) (hc : evidence.correlationId = c)
      (hlast : a.lastOverlayEvent.any (OverlayEvent.isOf c) = true) : Pending id c a 1

/-- where a message leaves a Recording that has been announced `n` times -/
inductive Moved (id : Nat) (c : Text) (n : Nat) (a : Actor) (e : Event) (a' : Actor) : Prop where
  | pending (n' : Nat) (hpending : Pending id c a' n')
      (hcount : n' = n + (retained a a').countP (OverlayEvent.isOf c))
      (hle : n' ≤ n + if e.lands id c then 1 else 0)
      (hnot : ∀ evidence reply result, e = .completed evidence reply result →
        evidence.correlationId ≠ c)
  | past (hover : Over id c a')
      (hdone : ∀ evidence reply delivered, e = .completed evidence reply (.ok delivered) →
        evidence.correlationId = c → n + (retained a a').countP (OverlayEvent.isOf c) = 1)

theorem Issued.over {id : Nat} {c : Text} (h : Issued a) (hc : Stamped c id) (hid : id < a.nextId)
    (hlive : live a.state ≠ some (id, c)) : Over id c a := by
  refine ⟨hid, fun id' hlive' => ?_⟩
  obtain rfl := (h id' c hlive').2.unique hc
  exact hlive hlive'

/-- the Recording is not begun yet: no message is for it, unless it begins it -/
theorem moved_before {id : Nat} {c : Text} (hnext : a.nextId ≤ id)
    (hlast : a.lastOverlayEvent.any (OverlayEvent.isOf c) = false) (hw : Waited a)
    (hissued : Issued a) (hissued' : Issued a') (hc : Stamped c id) (henabled : a.enabled e = true)
    (hshows : Shows a e a') : Moved id c 0 a e a' := by
  have hnot : ∀ id', live a.state ≠ some (id', c) := by
    intro id' hlive
    obtain ⟨hlt, hstamp⟩ := hissued id' c hlive
    obtain rfl := hstamp.unique hc
    omega
  have hhead : ∀ evidence reply result, e = .completed evidence reply result →
      evidence.correlationId ≠ c := by
    rintro evidence reply result rfl rfl
    exact hnot _ (live_of_ends hw henabled rfl)
  obtain ⟨hnone, hlast'⟩ := hshows.silent hnot
  by_cases hnext' : a'.nextId ≤ id
  · exact .pending 0 (.before hnext' (hlast' hlast)) (by rw [hnone]) (Nat.zero_le _) hhead
  · by_cases hlive : live a'.state = some (id, c)
    · exact .pending 0 (.inHand hlive (hlast' hlast)) (by rw [hnone]) (Nat.zero_le _) hhead
    · refine .past (hissued'.over hc (Nat.lt_of_not_le hnext') hlive) ?_
      exact fun evidence reply delivered he hevidence => absurd hevidence (hhead _ _ _ he)

/-- the processing of the Recording ends: by now it has been announced, once -/
theorem moved_concludes {id n : Nat} {c : Text} {evidence : LifecycleEvidence}
    {reply : Option Reply} (h : Concludes evidence reply a e a')
    (hid : evidence.recordingId = id) (hc : evidence.correlationId = c) (hissued : Issued a)
    (hn : n = if a.lastOverlayEvent.any (OverlayEvent.isOf c) then 1 else 0) :
    Moved id c n a e a' := by
  subst hid hc
  have hlt := (hissued _ _ (by rw [h.was]; rfl)).1
  refine .past ⟨h.nextId ▸ hlt, by simp [h.live]⟩ ?_
  rintro evidence' reply' delivered rfl -
  obtain ⟨rfl, rfl⟩ := Task.processing.inj (Workflow.task.inj (Option.some.inj h.ends))
  rcases h.overlay with ⟨hsame, hlast⟩ | ⟨hretains, hlast⟩
  · have hannounced : a.lastOverlayEvent.any (OverlayEvent.isOf evidence'.correlationId) = true :=
      hlast
    rw [hn, hannounced, retained_same hsame]
    rfl
  · have hannounced : a.lastOverlayEvent.any (OverlayEvent.isOf evidence'.correlationId) = false :=
      hlast ⟨delivered, rfl⟩
    obtain ⟨event, hevent, -, -, hof⟩ := retained_event hretains
    rw [hn, hannounced, hevent]
    simp [OverlayEvent.isOf, hof]

/-- the Recording is in hand, and not announced -/
theorem moved_inHand {id : Nat} {c : Text} (hlive : live a.state = some (id, c))
    (hlast : a.lastOverlayEvent.any (OverlayEvent.isOf c) = false) (hw : Waited a)
    (hissued : Issued a) (henabled : a.enabled e = true)
    (hends : ∀ evidence reply, e.ends ≠ some (.task (.processing evidence reply)))
    (hshows : Shows a e a') : Moved id c 0 a e a' := by
  have hid := (hissued id c hlive).1
  have hhead : ∀ evidence reply result, e = .completed evidence reply result →
      evidence.correlationId ≠ c := by
    rintro evidence reply result rfl
    exact absurd rfl (hends evidence reply)
  have hover (hnone : live a'.state = none) : Moved id c 0 a e a' := by
    refine .past ⟨Nat.lt_of_lt_of_le hid hshows.nextId_le, by simp [hnone]⟩ ?_
    exact fun evidence reply delivered he hevidence => absurd hevidence (hhead _ _ _ he)
  have hstays (hsame : SameOverlay a a') (hlive' : live a'.state = live a.state) :
      Moved id c 0 a e a' :=
    .pending 0 (.inHand (hlive'.trans hlive) (by rw [hsame.2]; exact hlast))
      (by rw [retained_same hsame]; rfl) (Nat.zero_le _) hhead
  cases hshows with
  | quiet hoverlay _ htasks hlive' hstate => exact hlive'.elim (hstays hoverlay) hover
  | begins token admission he hoverlay _ htasks hnone => cases hnone.symm.trans hlive
  | processes recording reply hoverlay _ htasks hwas hstate =>
    exact hstays hoverlay (by rw [hwas, hstate]; rfl)
  | startFails hretains _ htasks hwas hnone => exact hover hnone
  | lands evidence method fallbackReason truncated he hretains _ htasks hwas hstate =>
    rw [hwas] at hlive
    obtain ⟨rfl, rfl⟩ := Prod.mk.inj (Option.some.inj hlive)
    obtain ⟨event, hevent, hlast', -, hof⟩ := retained_event hretains
    have hisOf : OverlayEvent.isOf evidence.correlationId event = true := decide_eq_true hof
    refine .pending 1 (.announced evidence (hstate.trans hwas) rfl rfl ?_) ?_ ?_ hhead
    · rw [hlast']
      exact hisOf
    · simp [hevent, hisOf]
    · simp [he, Event.lands]
  | concludes evidence reply h => exact absurd h.ends (hends evidence reply)

/-- the Recording is being processed, and announced -/
theorem moved_announced {id : Nat} {c : Text} {evidence : LifecycleEvidence}
    (hstate : a.state = .processing evidence) (hid : evidence.recordingId = id)
    (hc : evidence.correlationId = c)
    (hlast : a.lastOverlayEvent.any (OverlayEvent.isOf c) = true) (hlands : e.lands id c = false)
    (hends : ∀ evidence reply, e.ends ≠ some (.task (.processing evidence reply)))
    (hshows : Shows a e a') : Moved id c 1 a e a' := by
  cases hshows with
  | quiet hoverlay _ htasks hlive' hstate' =>
    refine .pending 1 (.announced evidence ((hstate' evidence).mpr hstate) hid hc ?_) ?_ ?_ ?_
    · rw [hoverlay.2]
      exact hlast
    · rw [retained_same hoverlay]
      rfl
    · exact Nat.le_add_right _ _
    · rintro evidence' reply result rfl
      exact absurd rfl (hends evidence' reply)
  | begins token admission he hoverlay _ htasks hnone =>
    rw [hstate] at hnone
    cases hnone
  | processes recording reply hoverlay _ htasks hwas => cases hwas.symm.trans hstate
  | startFails hretains _ htasks hwas => exact absurd hstate (hwas evidence)
  | lands evidence' method fallbackReason truncated he hretains _ htasks hwas =>
    obtain rfl := ActorState.processing.inj (hwas.symm.trans hstate)
    simp [he, Event.lands, hid, hc] at hlands
  | concludes evidence reply h => exact absurd h.ends (hends evidence reply)

/-- a message leaves the Recording pending, or it is in hand no more -/
theorem Pending.step {id : Nat} {c : Text} {n : Nat} (h : Pending id c a n) (hw : Waited a)
    (hissued : Issued a) (hissued' : Issued a') (hc : Stamped c id)
    (henabled : a.enabled e = true) (hstep : a.step cfg e = .ok a')
    (hlands : (if e.lands id c then 1 else 0) + n ≤ 1) : Moved id c n a e a' := by
  have hshows := step_shows hw henabled hstep
  by_cases hends : ∃ evidence reply, e.ends = some (.task (.processing evidence reply))
  · obtain ⟨evidence, reply, hends⟩ := hends
    have hconcludes := step_concludes hw henabled hends hstep
    cases h with
    | before hnext hlast => exact moved_before hnext hlast hw hissued hissued' hc henabled hshows
    | inHand hlive hlast =>
      rw [hconcludes.was] at hlive
      obtain ⟨hid, hc⟩ := Prod.mk.inj (Option.some.inj hlive)
      exact moved_concludes hconcludes hid hc hissued (by rw [hlast]; rfl)
    | announced evidence' hstate hid hc hlast =>
      obtain rfl := ActorState.processing.inj (hstate.symm.trans hconcludes.was)
      exact moved_concludes hconcludes hid hc hissued (by rw [hlast]; rfl)
  · have hends' : ∀ evidence reply, e.ends ≠ some (.task (.processing evidence reply)) :=
      fun evidence reply hends' => hends ⟨evidence, reply, hends'⟩
    cases h with
    | before hnext hlast => exact moved_before hnext hlast hw hissued hissued' hc henabled hshows
    | inHand hlive hlast => exact moved_inHand hlive hlast hw hissued henabled hends' hshows
    | announced evidence hstate hid hc hlast =>
      refine moved_announced hstate hid hc hlast ?_ hends' hshows
      cases hlanded : e.lands id c with
      | false => rfl
      | true => simp [hlanded] at hlands

theorem pending_announced {id : Nat} {c : Text} {n : Nat} {evidence : LifecycleEvidence}
    {reply : Option Reply} {delivered : Delivered} (h : Pending id c a n) (hw : Waited a)
    (hissued : Issued a) (hc : Stamped c id) (hfeasible : a.feasible cfg es = true)
    (hstamps : Stamps cfg a es) (hlands : es.countP (Event.lands id c) + n ≤ 1)
    (hevidence : evidence.correlationId = c)
    (hmem : Event.completed evidence reply (.ok delivered) ∈ es) :
    n + (published cfg a es).countP (OverlayEvent.isOf c) = 1 := by
  induction es generalizing a n with
  | nil => cases hmem
  | cons e es ih =>
    obtain ⟨henabled, ⟨panic, hstep, rfl⟩ | ⟨a', hstep, hrest⟩⟩ := feasible_cons hfeasible
    · obtain rfl := List.mem_singleton.mp hmem
      cases hstep
    · simp only [Stamps, hstep] at hstamps
      have hshows := step_shows hw henabled hstep
      have hw' := hshows.waited hw henabled
      rw [List.countP_cons] at hlands
      simp only [published, hstep, List.countP_append]
      have hissued' := hshows.issued hissued hstamps.1
      cases h.step hw hissued hissued' hc henabled hstep (by omega) with
      | pending n' hpending hcount hle hnot =>
        have hlater : Event.completed evidence reply (.ok delivered) ∈ es := by
          rcases List.mem_cons.mp hmem with rfl | hmem'
          · exact absurd hevidence (hnot evidence reply _ rfl)
          · exact hmem'
        have := ih hpending hw' hissued' hrest hstamps.2 (by omega) hlater
        omega
      | past hover hdone =>
        obtain ⟨hnone, hlater⟩ := over_silent hw' hover hc hrest hstamps.2
        rcases List.mem_cons.mp hmem with rfl | hmem'
        · have := hdone evidence reply delivered rfl hevidence
          omega
        · exact absurd hevidence (hlater evidence reply _ hmem')

end

/-! ## whole runs -/

/-- **along every run the ids of the events increase, and a Recording that is completed without an
error has exactly one event, if its Delivery is announced at most once** -/
theorem run_announces_once (cfg : Config) (es : List Event)
    (hfeasible : Actor.new.feasible cfg es = true) (hstamps : Stamps cfg Actor.new es) :
    ((published cfg Actor.new es).map (·.id)).Pairwise (· < ·) ∧
      ∀ evidence reply delivered, Event.completed evidence reply (.ok delivered) ∈ es →
        es.countP (Event.lands evidence.recordingId evidence.correlationId) ≤ 1 →
        (published cfg Actor.new es).countP (OverlayEvent.isOf evidence.correlationId) = 1 := by
  have hw : Waited Actor.new := .inl rfl
  have hissued : Issued Actor.new := by
    intro id c hlive
    cases hlive
  refine ⟨(published_ids hw hfeasible).1, fun evidence reply delivered hmem hlands => ?_⟩
  have hc := completed_stamped hw hissued hfeasible hstamps hmem
  by_cases hid : Actor.new.nextId ≤ evidence.recordingId
  · have hpending : Pending evidence.recordingId evidence.correlationId Actor.new 0 :=
      .before hid rfl
    have := pending_announced hpending hw hissued hc hfeasible hstamps hlands rfl hmem
    omega
  · have hover : Over evidence.recordingId evidence.correlationId Actor.new :=
      hissued.over hc (Nat.lt_of_not_le hid) (by simp [Actor.new, live])
    exact absurd rfl ((over_silent hw hover hc hfeasible hstamps).2 evidence reply _ hmem)

/-- a Recording whose Delivery lands before it is completed, with a late message of another -/
def landedRecording : List Event :=
  [.command .start .found 0,
    .captureAdmitted 0 { result := .ok .cloud, quota := none, refusal := none,
                         correlationId := correlationId 7 1 1000 0 },
    .started 1 .cloud 0 (.ok ()), .command .stop .found 1,
    .deliveryLanded 0 (correlationId 7 0 900 0) .clipboardFallback none false,
    .deliveryLanded 1 (correlationId 7 1 1000 0) .compositorSubmitted none false,
    .completed (baseEvidence 1 (correlationId 7 1 1000 0)) (some 1)
      (.ok { deliveryMethod := some .compositorSubmitted, deliveryFallbackReason := none,
             truncatedBy := false })]

theorem stamps_landedRecording :
    Stamps { controlled := false, diagnostics := true } Actor.new landedRecording := by
  have hother {a : Actor} {e : Event} (he : ∀ token admission, e ≠ .captureAdmitted token admission) :
      ∀ token admission, e = .captureAdmitted token admission →
        Stamped admission.correlationId a.nextId :=
    fun token admission h => absurd h (he token admission)
  refine And.intro (hother (by simp)) (And.intro ?_ ?_)
  · rintro token admission h
    cases h
    exact ⟨7, 1000, 0, rfl⟩
  · refine And.intro (hother (by simp)) (And.intro (hother (by simp)) (And.intro (hother (by simp))
      (And.intro (hother (by simp)) (And.intro (hother (by simp)) trivial))))

theorem run_announces_once_landedRecording :
    Actor.new.feasible { controlled := false, diagnostics := true } landedRecording = true ∧
      (published { controlled := false, diagnostics := true } Actor.new landedRecording).countP
        (OverlayEvent.isOf (correlationId 7 1 1000 0)) = 1 :=
  ⟨by decide +kernel, (run_announces_once _ landedRecording (by decide +kernel)
    stamps_landedRecording).2 (baseEvidence 1 (correlationId 7 1 1000 0)) (some 1)
    { deliveryMethod := some .compositorSubmitted, deliveryFallbackReason := none,
      truncatedBy := false } (by simp [landedRecording]) (by decide +kernel)⟩

end Voisu.Daemon
