import Mathlib
import Voisu.Decision.Quality
import Voisu.LocalWorker.Supervisor
import Voisu.Vocabulary

/-!
# The Local tail

The terminal decision on what the worker heard, and the coordinator that lets one Delivery through for
the live Recording.  A permit is a value: it can be cloned, kept and presented at any time, and here
any permit may be presented, issued or not.  The formatter is a parameter, since no state depends on
what it returns.

* `decideTranscript`, `decideReplay`   the decisions;
* `Tail`                the coordinator with the answers it has given;
* `run_delivers`        **at most one confirmation for a Recording, behind its own begin; and a replay
                        leaves the authorizations alone just where it could not take one**.
-/

namespace Voisu.LocalTail
open Lib LocalGate LocalWorker

/-! ## decisions -/

inductive WritingMode where
  | smart
  | literal
deriving DecidableEq, Repr

inductive TerminalDecision where
  | transcript (text : Text)
  | noText (reason : Text)
deriving DecidableEq, Repr

def whisperSilencePhrases : List String :=
  ["thank you", "thanks", "thank you very much", "thank you so much", "thanks for listening", "you",
    "bye", "bye bye"]

def isWholeSilencePhrase (text : Text) : Bool :=
  let spaced := toLowercase (text.map fun c => if isAlphanumeric c then c else ' ')
  let normalized := List.intercalate [' '] (splitWhitespace spaced)
  whisperSilencePhrases.any fun phrase => phrase.toList == normalized

def applyLocalDictionary (text : Text) (userTerms : List Text) : Text :=
  Vocabulary.applyUserVocabulary text userTerms []

/-- what a decision is made on -/
structure Request where
  recordingId : Text
  pcm : List UInt8
  outcome : WorkerOutcome
  userTerms : List Text
  writingMode : WritingMode
  sentinelClean : Bool
deriving DecidableEq, Repr

/-- the text of the worker, once the audio is not silence; `format` is the rendered text of
`format_validated` -/
def decideText (format : Text → WritingMode → Text) (request : Request) (text : Text) :
    TerminalDecision :=
  let trimmed := trim text
  if trimmed.isEmpty then .noText "empty".toList
  else
    let sanitized := Decision.sanitizeSourceTranscriptText trimmed
    if (trim sanitized).isEmpty then .noText "no words heard".toList
    else if isWholeSilencePhrase sanitized then .noText "no words heard".toList
    else
      let rendered :=
        trim (format (applyLocalDictionary sanitized request.userTerms) request.writingMode)
      if rendered.isEmpty then .noText "empty".toList else .transcript rendered

section
variable (format : Text → WritingMode → Text)

def decideTranscript (c : DeliveryCoordinator) (request : Request) :
    DeliveryCoordinator × Except TailError TerminalDecision :=
  if !request.sentinelClean then (c, .error .cloudCapabilityUsed)
  else match c.rememberDecision request.recordingId with
    | (c, .error error) => (c, .error error)
    | (c, .ok ()) =>
      (c, .ok (if isSilencePcm request.pcm then .noText "silence".toList
        else match request.outcome with
          | .noText reason _ _ => .noText reason
          | .transcript text _ _ => decideText format request text))

/-- the check that nothing is authorized IS an authorization -/
def decideReplay (c : DeliveryCoordinator) (request : Request) :
    DeliveryCoordinator × Except TailError TerminalDecision :=
  match decideTranscript format c request with
  | (c, .error error) => (c, .error error)
  | (c, .ok decision) =>
    match c.authorizeLive request.recordingId with
    | (c, .ok _) => (c, .error .unauthorizedDelivery)
    | (c, .error _) => (c, .ok decision)

/-! ## calls -/

inductive Call where
  | beginLive (recordingId : Text)
  | abandonLive (recordingId : Text)
  | authorizeLive (recordingId : Text)
  /-- the transcript that is delivered is not looked at -/
  | confirmDelivery (permit : DeliveryPermit) (transcript : Text)
  | decideTranscript (request : Request)
  | decideReplay (request : Request)

inductive Answer where
  | done
  | authorized (result : Except TailError DeliveryPermit)
  | confirmed (result : Except TailError Unit)
  | decided (result : Except TailError TerminalDecision)

/-- the coordinator, and the calls so far with their answers -/
structure Tail where
  coordinator : DeliveryCoordinator
  trace : List (Call × Answer)

def Tail.new : Tail := { coordinator := DeliveryCoordinator.new, trace := [] }

def Call.run (c : DeliveryCoordinator) : Call → DeliveryCoordinator × Answer
  | .beginLive recordingId => (c.beginLive recordingId, .done)
  | .abandonLive recordingId => (c.abandonLive recordingId, .done)
  | .authorizeLive recordingId =>
    ((c.authorizeLive recordingId).1, .authorized (c.authorizeLive recordingId).2)
  | .confirmDelivery permit _ =>
    ((c.confirmDelivery permit).1, .confirmed (c.confirmDelivery permit).2)
  | .decideTranscript request =>
    ((LocalTail.decideTranscript format c request).1,
      .decided (LocalTail.decideTranscript format c request).2)
  | .decideReplay request =>
    ((LocalTail.decideReplay format c request).1, .decided (LocalTail.decideReplay format c request).2)

def Tail.step (t : Tail) (call : Call) : Tail :=
  { coordinator := (call.run format t.coordinator).1
    trace := t.trace ++ [(call, (call.run format t.coordinator).2)] }

def Tail.run (t : Tail) (calls : List Call) : Tail := calls.foldl (Tail.step format) t

end

/-! ## what a call can do -/

/-- the Recording that a call confirmed -/
def confirmation : Call × Answer → Option Text
  | (.confirmDelivery permit _, .confirmed (.ok ())) => some permit
  | _ => none

def confirmations (trace : List (Call × Answer)) : List Text := trace.filterMap confirmation

/-- what a call can do to the slot, the authorizations and the spent Recordings -/
inductive Moves (c c' : DeliveryCoordinator) (entry : Call × Answer) : Prop where
  | keep (hlive : c'.live = c.live ∨ c'.live = none) (hauthorized : c'.authorized = c.authorized)
      (hspent : c'.spent = c.spent) (hconfirmed : confirmation entry = none)
  | beginLive (id : Text) (hcall : entry.1 = .beginLive id) (hlive : c'.live = some id)
      (hauthorized : c'.authorized = c.authorized) (hspent : c'.spent = c.spent)
      (hconfirmed : confirmation entry = none)
  | authorize (id : Text) (hwas : c.live = some id) (hlive : c'.live = none)
      (hfresh : id ∉ c.spent) (hauthorized : c'.authorized = c.authorized.insert id)
      (hspent : c'.spent = c.spent) (hconfirmed : confirmation entry = none)
  | confirm (id : Text) (hlive : c'.live = c.live) (hwas : id ∈ c.authorized) (hfresh : id ∉ c.spent)
      (hauthorized : c'.authorized = c.authorized.erase id) (hspent : c'.spent = c.spent.insert id)
      (hconfirmed : confirmation entry = some id)

theorem authorizeLive_cases (c : DeliveryCoordinator) (id : Text) :
    (∃ error, c.authorizeLive id = (c, .error error) ∧
      (id ∈ c.spent ∨ id ∈ c.authorized ∨ c.live ≠ some id)) ∨
    (id ∉ c.spent ∧ id ∉ c.authorized ∧ c.live = some id ∧
      c.authorizeLive id = ({ c with live := none, authorized := c.authorized.insert id }, .ok id)) := by
  unfold DeliveryCoordinator.authorizeLive
  by_cases hknown : id ∈ c.spent ∨ id ∈ c.authorized
  · refine Or.inl ⟨.duplicateDelivery, by simp [hknown], ?_⟩
    exact hknown.elim Or.inl fun h => Or.inr (Or.inl h)
  · obtain ⟨hspent, hauthorized⟩ := not_or.mp hknown
    by_cases hlive : c.live = some id
    · exact Or.inr ⟨hspent, hauthorized, hlive, by simp [hspent, hauthorized, hlive]⟩
    · exact Or.inl ⟨.unauthorizedDelivery, by simp [hspent, hauthorized, hlive],
        Or.inr (Or.inr hlive)⟩

section
variable (format : Text → WritingMode → Text) (c : DeliveryCoordinator)

/-- a decision writes down the Recording it is for, if it gets so far -/
theorem decideTranscript_cases (request : Request) :
    (∃ error, decideTranscript format c request = (c, .error error) ∧
      (request.sentinelClean = false ∨ request.recordingId ∈ c.decided)) ∨
    ∃ decision, request.sentinelClean = true ∧ request.recordingId ∉ c.decided ∧
      decideTranscript format c request =
        ({ c with decided := c.decided.insert request.recordingId }, .ok decision) := by
  by_cases hclean : request.sentinelClean = true
  · have hrun : decideTranscript format c request = match c.rememberDecision request.recordingId with
        | (c, .error error) => (c, .error error)
        | (c, .ok ()) =>
          (c, .ok (if isSilencePcm request.pcm then .noText "silence".toList
            else match request.outcome with
              | .noText reason _ _ => .noText reason
              | .transcript text _ _ => decideText format request text)) := by
      rw [decideTranscript, hclean]
      exact if_neg Bool.false_ne_true
    by_cases hdecided : request.recordingId ∈ c.decided
    · have hremember : c.rememberDecision request.recordingId = (c, .error .duplicateDecision) :=
        if_pos (List.contains_iff_mem.2 hdecided)
      rw [hremember] at hrun
      exact Or.inl ⟨.duplicateDecision, hrun, Or.inr hdecided⟩
    · have hremember : c.rememberDecision request.recordingId =
          ({ c with decided := c.decided.insert request.recordingId }, .ok ()) :=
        if_neg (mt List.contains_iff_mem.1 hdecided)
      rw [hremember] at hrun
      exact Or.inr ⟨_, hclean, hdecided, hrun⟩
  · rw [Bool.not_eq_true] at hclean
    refine Or.inl ⟨.cloudCapabilityUsed, ?_, Or.inl hclean⟩
    rw [decideTranscript, hclean]
    exact if_pos rfl

/-- a replay takes the authorization of the live Recording -/
def replayAuthorizes (request : Request) : Bool :=
  request.sentinelClean && !c.decided.contains request.recordingId &&
    c.live == some request.recordingId && !c.spent.contains request.recordingId &&
    !c.authorized.contains request.recordingId

theorem decideReplay_cases (request : Request) :
    (replayAuthorizes c request = false ∧
      ∃ result decided, decideReplay format c request = ({ c with decided }, result)) ∨
    (replayAuthorizes c request = true ∧ c.live = some request.recordingId ∧
      request.recordingId ∉ c.spent ∧ request.recordingId ∉ c.authorized ∧
      ∃ result decided, decideReplay format c request =
        ({ c with live := none, authorized := c.authorized.insert request.recordingId, decided },
          result)) := by
  unfold decideReplay
  rcases decideTranscript_cases format c request with ⟨error, heq, hwhy⟩ |
    ⟨decision, hclean, hdecided, heq⟩
  · refine Or.inl ⟨?_, .error error, c.decided, by rw [heq]⟩
    rcases hwhy with h | h <;> simp [replayAuthorizes, h]
  · rw [heq]
    dsimp only
    rcases authorizeLive_cases { c with decided := c.decided.insert request.recordingId }
      request.recordingId with ⟨error, hauth, hwhy⟩ | ⟨hspent, hauthorized, hlive, hauth⟩
    · refine Or.inl ⟨?_, .ok decision, _, by rw [hauth]⟩
      rcases hwhy with h | h | h
      · simp [replayAuthorizes, show request.recordingId ∈ c.spent from h]
      · simp [replayAuthorizes, show request.recordingId ∈ c.authorized from h]
      · simp [replayAuthorizes, show c.live ≠ some request.recordingId from h]
    · refine Or.inr ⟨?_, hlive, hspent, hauthorized, .error .unauthorizedDelivery, _, by rw [hauth]⟩
      have hlive : c.live = some request.recordingId := hlive
      have hspent : request.recordingId ∉ c.spent := hspent
      have hauthorized : request.recordingId ∉ c.authorized := hauthorized
      simp [replayAuthorizes, hclean, hdecided, hlive, hspent, hauthorized]

theorem run_moves (call : Call) : Moves c (call.run format c).1 (call, (call.run format c).2) := by
  cases call with
  | beginLive id => exact .beginLive id rfl rfl rfl rfl rfl
  | abandonLive id =>
    show Moves c (c.abandonLive id) _
    unfold DeliveryCoordinator.abandonLive
    split
    · exact .keep (Or.inr rfl) rfl rfl rfl
    · exact .keep (Or.inl rfl) rfl rfl rfl
  | authorizeLive id =>
    simp only [Call.run]
    rcases authorizeLive_cases c id with ⟨error, heq, -⟩ | ⟨hspent, -, hlive, heq⟩
    · rw [heq]
      exact .keep (Or.inl rfl) rfl rfl rfl
    · rw [heq]
      exact .authorize id hlive rfl hspent rfl rfl rfl
  | confirmDelivery permit transcript =>
    simp only [Call.run, DeliveryCoordinator.confirmDelivery]
    split
    · exact .keep (Or.inl rfl) rfl rfl rfl
    · rename_i hspent
      split
      · exact .keep (Or.inl rfl) rfl rfl rfl
      · rename_i hauthorized
        exact .confirm permit rfl (by simpa using hauthorized) (by simpa using hspent) rfl rfl rfl
  | decideTranscript request =>
    simp only [Call.run]
    rcases decideTranscript_cases format c request with ⟨error, heq, -⟩ | ⟨decision, -, -, heq⟩
    · rw [heq]
      exact .keep (Or.inl rfl) rfl rfl rfl
    · rw [heq]
      exact .keep (Or.inl rfl) rfl rfl rfl
  | decideReplay request =>
    simp only [Call.run]
    rcases decideReplay_cases format c request with ⟨-, result, decided, heq⟩ |
      ⟨-, hlive, hspent, -, result, decided, heq⟩
    · rw [heq]
      exact .keep (Or.inl rfl) rfl rfl rfl
    · rw [heq]
      exact .authorize request.recordingId hlive rfl hspent rfl rfl rfl

/-- **a replay leaves the slot and the authorizations alone just where it takes none** -/
theorem decideReplay_frame (request : Request) :
    ((decideReplay format c request).1.live = c.live ∧
      (decideReplay format c request).1.authorized = c.authorized ∧
      (decideReplay format c request).1.spent = c.spent) ↔ replayAuthorizes c request = false := by
  rcases decideReplay_cases format c request with ⟨hnot, result, decided, heq⟩ |
    ⟨hyes, hlive, -, -, result, decided, heq⟩
  · rw [heq, hnot]
    exact ⟨fun _ => rfl, fun _ => ⟨rfl, rfl, rfl⟩⟩
  · rw [heq, hyes, hlive]
    simp

/-! ## runs -/

/-- every Recording that is live, authorized or spent was begun, and what is spent is confirmed -/
structure Sound (t : Tail) : Prop where
  live : ∀ id, t.coordinator.live = some id → ∃ answer, (.beginLive id, answer) ∈ t.trace
  authorized : ∀ id ∈ t.coordinator.authorized, ∃ answer, (.beginLive id, answer) ∈ t.trace
  disjoint : ∀ id ∈ t.coordinator.authorized, id ∉ t.coordinator.spent
  nodup : t.coordinator.authorized.Nodup
  spent : ∀ id, id ∈ t.coordinator.spent ↔ id ∈ confirmations t.trace
  once : (confirmations t.trace).Nodup
  begun : ∀ before after entry id, t.trace = before ++ entry :: after → confirmation entry = some id →
    ∃ answer, (.beginLive id, answer) ∈ before

theorem sound_new : Sound Tail.new := by
  refine ⟨by simp [Tail.new, DeliveryCoordinator.new], by simp [Tail.new, DeliveryCoordinator.new],
    by simp [Tail.new, DeliveryCoordinator.new], by simp [Tail.new, DeliveryCoordinator.new], ?_,
    List.nodup_nil, ?_⟩
  · simp [Tail.new, DeliveryCoordinator.new, confirmations]
  · intro before after entry id h
    exact absurd h (by simp [Tail.new])

theorem begun_snoc {trace : List (Call × Answer)} {entry : Call × Answer}
    (h : ∀ before after entry id, trace = before ++ entry :: after → confirmation entry = some id →
      ∃ answer, (.beginLive id, answer) ∈ before)
    (hentry : ∀ id, confirmation entry = some id → ∃ answer, (.beginLive id, answer) ∈ trace) :
    ∀ before after e id, trace ++ [entry] = before ++ e :: after → confirmation e = some id →
      ∃ answer, (Call.beginLive id, answer) ∈ before := by
  intro before after e id hsplit he
  rcases List.eq_nil_or_concat after with rfl | ⟨after, last, rfl⟩
  · obtain ⟨rfl, hlast⟩ := List.append_inj' hsplit rfl
    obtain rfl : entry = e := by simpa using hlast
    exact hentry id he
  · rw [List.concat_eq_append] at hsplit
    have hsplit' : trace ++ [entry] = (before ++ e :: after) ++ [last] := by rw [hsplit]; simp
    obtain ⟨htrace, -⟩ := List.append_inj' hsplit' rfl
    exact h before after e id htrace he

variable {format}

theorem step_sound {t : Tail} (hs : Sound t) (call : Call) : Sound (t.step format call) := by
  have hmoves := run_moves format t.coordinator call
  unfold Tail.step
  generalize hentry : (call, (call.run format t.coordinator).2) = entry at hmoves
  generalize (call.run format t.coordinator).1 = c' at hmoves
  have hmono (id : Text) (h : ∃ answer, (Call.beginLive id, answer) ∈ t.trace) :
      ∃ answer, (Call.beginLive id, answer) ∈ t.trace ++ [entry] :=
    h.imp fun _ => List.mem_append_left _
  have hconf : confirmations (t.trace ++ [entry]) =
      confirmations t.trace ++ (confirmation entry).toList := by
    rw [confirmations, List.filterMap_append]
    cases hc : confirmation entry <;> simp [hc, confirmations]
  have hnone (h : confirmation entry = none) :
      confirmations (t.trace ++ [entry]) = confirmations t.trace := by rw [hconf, h]; simp
  have hbegun (h : confirmation entry = none) :=
    @begun_snoc t.trace entry hs.begun fun id hid => by rw [h] at hid; cases hid
  cases hmoves with
  | keep hlive hauthorized hspent hconfirmed =>
    refine ⟨fun id hid => hmono id ?_, fun id hid => hmono id ?_, ?_, ?_, ?_, ?_, hbegun hconfirmed⟩
    · rcases hlive with h | h
      · exact hs.live id (h ▸ hid)
      · exact absurd hid (by simp [h])
    · exact hs.authorized id (hauthorized ▸ hid)
    · simp only [hauthorized, hspent]
      exact hs.disjoint
    · simp only [hauthorized]
      exact hs.nodup
    · simp only [hspent, hnone hconfirmed]
      exact hs.spent
    · simp only [hnone hconfirmed]
      exact hs.once
  | beginLive id hcall hlive hauthorized hspent hconfirmed =>
    refine ⟨fun id' hid => ?_, fun id hid => hmono id ?_, ?_, ?_, ?_, ?_, hbegun hconfirmed⟩
    · obtain rfl : id = id' := by simpa [hlive] using hid
      exact ⟨entry.2, List.mem_append_right _ (by rw [← hcall]; simp)⟩
    · exact hs.authorized id (hauthorized ▸ hid)
    · simp only [hauthorized, hspent]
      exact hs.disjoint
    · simp only [hauthorized]
      exact hs.nodup
    · simp only [hspent, hnone hconfirmed]
      exact hs.spent
    · simp only [hnone hconfirmed]
      exact hs.once
  | authorize id hwas hlive hfresh hauthorized hspent hconfirmed =>
    refine ⟨fun id' hid => ?_, fun id' hid => hmono id' ?_, ?_, ?_, ?_, ?_, hbegun hconfirmed⟩
    · exact absurd hid (by simp [hlive])
    · rcases List.mem_insert_iff.mp (hauthorized ▸ hid) with rfl | h
      · exact hs.live _ hwas
      · exact hs.authorized id' h
    · intro id' hid
      simp only [hspent]
      rcases List.mem_insert_iff.mp (hauthorized ▸ hid) with rfl | h
      · exact hfresh
      · exact hs.disjoint id' h
    · simp only [hauthorized]
      exact hs.nodup.insert
    · simp only [hspent, hnone hconfirmed]
      exact hs.spent
    · simp only [hnone hconfirmed]
      exact hs.once
  | confirm id hlive hwas hfresh hauthorized hspent hconfirmed =>
    have hids : confirmations (t.trace ++ [entry]) = confirmations t.trace ++ [id] := by
      rw [hconf, hconfirmed]
      rfl
    have hnew : id ∉ confirmations t.trace := fun h => hfresh ((hs.spent id).mpr h)
    refine ⟨fun id' hid => hmono id' (hs.live id' (hlive ▸ hid)), fun id' hid => hmono id' ?_,
      ?_, ?_, ?_, ?_, begun_snoc hs.begun ?_⟩
    · exact hs.authorized id' (List.mem_of_mem_erase (hauthorized ▸ hid))
    · intro id' hid
      have hid' : id' ∈ t.coordinator.authorized.erase id := hauthorized ▸ hid
      obtain ⟨hne, hold⟩ := hs.nodup.mem_erase_iff.mp hid'
      simp only [hspent, List.mem_insert_iff]
      exact fun h => h.elim hne (hs.disjoint id' hold)
    · simp only [hauthorized]
      exact hs.nodup.erase id
    · intro id'
      simp only [hspent, List.mem_insert_iff, hids, List.mem_append, List.mem_singleton]
      rw [hs.spent id', or_comm]
    · simp only [hids]
      exact List.nodup_append.mpr ⟨hs.once, List.nodup_singleton id, by
        intro a ha b hb
        obtain rfl := List.mem_singleton.mp hb
        exact fun h => hnew (h ▸ ha)⟩
    · intro id' hid'
      obtain rfl : id = id' := by rw [hconfirmed] at hid'; simpa using hid'
      exact hs.authorized id hwas

variable (format)

theorem run_sound (calls : List Call) : Sound (Tail.new.run format calls) := by
  induction calls using List.reverseRecOn with
  | nil => exact sound_new
  | append_singleton calls call ih =>
    rw [Tail.run, List.foldl_append]
    exact step_sound ih call

/-- **in every run a Recording is confirmed at most once and behind its own begin, no Recording is
both authorized and spent, and the next replay leaves the slot and the authorizations as they are
just where it does not take the authorization of the live Recording** -/
theorem run_delivers (calls : List Call) :
    (confirmations (Tail.new.run format calls).trace).Nodup ∧
    (∀ before after entry id, (Tail.new.run format calls).trace = before ++ entry :: after →
      confirmation entry = some id → ∃ answer, (.beginLive id, answer) ∈ before) ∧
    (∀ id ∈ (Tail.new.run format calls).coordinator.authorized,
      id ∉ (Tail.new.run format calls).coordinator.spent) ∧
    ∀ request : Request,
      ((decideReplay format (Tail.new.run format calls).coordinator request).1.live =
          (Tail.new.run format calls).coordinator.live ∧
        (decideReplay format (Tail.new.run format calls).coordinator request).1.authorized =
          (Tail.new.run format calls).coordinator.authorized ∧
        (decideReplay format (Tail.new.run format calls).coordinator request).1.spent =
          (Tail.new.run format calls).coordinator.spent) ↔
      replayAuthorizes (Tail.new.run format calls).coordinator request = false := by
  have hs := run_sound format calls
  exact ⟨hs.once, hs.begun, hs.disjoint, fun request => decideReplay_frame format _ request⟩

end

/-! ## a replay of the live Recording -/

def silentReplay : Request :=
  { recordingId := "rec-1".toList
    pcm := [0, 0]
    outcome := .noText "silence".toList [] .unset
    userTerms := []
    writingMode := .literal
    sentinelClean := true }

/-- **the replay of the Recording that is live takes its authorization, and answers that there was
none** -/
theorem decideReplay_takes_authorization :
    ((decideReplay (fun text _ => text)
        (Tail.new.run (fun text _ => text) [.beginLive "rec-1".toList]).coordinator
        silentReplay).1.live,
      (decideReplay (fun text _ => text)
        (Tail.new.run (fun text _ => text) [.beginLive "rec-1".toList]).coordinator
        silentReplay).1.authorized) = (none, ["rec-1".toList]) ∧
    (Tail.new.run (fun text _ => text) [.beginLive "rec-1".toList]).coordinator.live =
      some "rec-1".toList := by
  decide

end Voisu.LocalTail
