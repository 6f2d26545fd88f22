import Voisu.Daemon.Exits

/-!
# No provider is silently absent

* `Accounted`               each provider has a source or one failure, not both;
* `accounts_missing`, `accounts_start`   the accounts of an end complete what is missing;
* `collect_accounts`        the workflow, wherever it stops;
* `record_accounts`         **every end leaves each provider one entry**.
-/

namespace Voisu.Daemon
open Coordinator Diagnostics

/-- the failures of a provider -/
def failuresOf (p : Provider) (failures : List ProviderFailure) : Nat :=
  failures.countP fun failure => failure.provider = p

def sourcesOf (p : Provider) (sources : List SourceTranscriptRecord) : Nat :=
  sources.countP fun source => source.provider = p

/-- each provider has a source or one failure, not both; a disabled Deepgram has its own failure -/
structure Accounted (deepgramEnabled : Bool) (record : DiagnosticRecord) : Prop where
  each : ∀ p : Provider,
    (∃ source ∈ record.sourceTranscripts, source.provider = p) ∧
        (∀ failure ∈ record.providerFailures, failure.provider ≠ p) ∨
      (∀ source ∈ record.sourceTranscripts, source.provider ≠ p) ∧
        ∃ failure, record.providerFailures.filter (fun failure => failure.provider = p) = [failure]
  disabled : deepgramEnabled = false →
    record.providerFailures.filter (fun failure => failure.provider = .deepgram) =
      [⟨.deepgram, .notStarted, deepgramDisabledDiagnostic⟩]

/-! ## counting -/

section counts
variable {p : Provider} {sources : List SourceTranscriptRecord} {failures : List ProviderFailure}

theorem sourcesOf_eq_zero :
    sourcesOf p sources = 0 ↔ ∀ source ∈ sources, source.provider ≠ p := by
  simp [sourcesOf, List.countP_eq_zero]

theorem failuresOf_eq_zero :
    failuresOf p failures = 0 ↔ ∀ failure ∈ failures, failure.provider ≠ p := by
  simp [failuresOf, List.countP_eq_zero]

theorem failuresOf_eq_one (h : failuresOf p failures = 1) :
    ∃ failure, failures.filter (fun failure => failure.provider = p) = [failure] := by
  rw [failuresOf, List.countP_eq_length_filter] at h
  exact List.length_eq_one_iff.1 h

theorem sourcesOf_records (sources : List SourceTranscript) :
    sourcesOf p (sources.map newSourceTranscriptRecord) =
      sources.countP fun source => source.provider = p := by
  rw [sourcesOf, List.countP_map]
  rfl

theorem any_source_iff :
    (sources.any fun source => source.provider = p) = false ↔ sourcesOf p sources = 0 := by
  rw [sourcesOf_eq_zero]
  simp

theorem any_failure_iff :
    (failures.any fun failure => failure.provider = p) = false ↔ failuresOf p failures = 0 := by
  rw [failuresOf_eq_zero]
  simp

theorem failuresOf_append (more : List ProviderFailure) :
    failuresOf p (failures ++ more) = failuresOf p failures + failuresOf p more :=
  List.countP_append

theorem failuresOf_singleton (failure : ProviderFailure) :
    failuresOf p [failure] = if failure.provider = p then 1 else 0 := by
  simp [failuresOf]

/-- one provider is accounted for, the others are left -/
theorem failuresOf_accountFor (diagnostic : Text) (q : Provider) :
    failuresOf p (accountFor sources diagnostic failures q) =
      failuresOf p failures +
        if q = p ∧ sourcesOf p sources = 0 ∧ failuresOf p failures = 0 then 1 else 0 := by
  simp only [accountFor]
  split
  next hmissing =>
    rw [Bool.and_eq_true, Bool.not_eq_true', Bool.not_eq_true', any_source_iff, any_failure_iff]
      at hmissing
    rw [failuresOf_append, failuresOf_singleton]
    by_cases hq : q = p
    · subst hq
      rw [if_pos rfl, if_pos ⟨rfl, hmissing⟩]
    · rw [if_neg hq, if_neg fun h => hq h.1]
  next hthere =>
    rw [Bool.and_eq_true, Bool.not_eq_true', Bool.not_eq_true', any_source_iff, any_failure_iff]
      at hthere
    have hno : ¬(q = p ∧ sourcesOf p sources = 0 ∧ failuresOf p failures = 0) := by
      rintro ⟨rfl, hmissing⟩
      exact hthere hmissing
    rw [if_neg hno]
    rfl

theorem failuresOf_accountForMissingProviders (diagnostic : Text) :
    failuresOf p (accountForMissingProviders sources failures diagnostic) =
      failuresOf p failures +
        if sourcesOf p sources = 0 ∧ failuresOf p failures = 0 then 1 else 0 := by
  show failuresOf p (accountFor sources diagnostic
    (accountFor sources diagnostic failures .deepgram) .groq) = _
  rw [failuresOf_accountFor, failuresOf_accountFor]
  cases p with
  | deepgram => simp
  | groq => simp

/-- what is missing is made up for -/
theorem accounts_missing (h : sourcesOf p sources + failuresOf p failures ≤ 1)
    (diagnostic : Text) :
    sourcesOf p sources +
      failuresOf p (accountForMissingProviders sources failures diagnostic) = 1 := by
  rw [failuresOf_accountForMissingProviders]
  split <;> omega

theorem failuresOf_normalizeDisabledDeepgram (h : p ≠ .deepgram) :
    failuresOf p (normalizeDisabledDeepgram failures) = failuresOf p failures := by
  rw [failuresOf, normalizeDisabledDeepgram, countP_sortByProvider, List.countP_append,
    List.countP_singleton, if_neg (by simpa using h.symm), Nat.add_zero, List.countP_filter]
  refine List.countP_congr fun failure _ => ?_
  constructor
  · intro hboth
    exact (Bool.and_eq_true _ _ ▸ hboth).1
  · intro hp
    have hp' : failure.provider = p := by simpa using hp
    simp [hp', h]

theorem filter_normalizeDisabledDeepgram :
    (normalizeDisabledDeepgram failures).filter (fun failure => failure.provider = .deepgram) =
      [⟨.deepgram, .notStarted, deepgramDisabledDiagnostic⟩] := by
  have hperm : (normalizeDisabledDeepgram failures).Perm
      (failures.filter (fun failure => failure.provider ≠ .deepgram) ++
        [⟨.deepgram, .notStarted, deepgramDisabledDiagnostic⟩]) := List.perm_insertionSort _ _
  refine List.perm_singleton.1 ((hperm.filter _).trans ?_)
  rw [List.filter_append, List.filter_filter]
  have hnone : failures.filter (fun failure =>
      decide (failure.provider = .deepgram) && decide (failure.provider ≠ .deepgram)) = [] := by
    rw [List.filter_eq_nil_iff]
    intro failure _
    simp
  rw [hnone]
  exact .refl _

end counts

/-! ## the accounts of an end -/

/-- the failures of an end, with one entry for each provider, make an accounted record -/
theorem accounted_settled {deepgramEnabled : Bool} {failures : List ProviderFailure}
    {record : DiagnosticRecord}
    (hfailures : record.providerFailures = settleDisabled deepgramEnabled failures)
    (hone : ∀ p, sourcesOf p record.sourceTranscripts + failuresOf p failures = 1)
    (hoff : deepgramEnabled = false → sourcesOf .deepgram record.sourceTranscripts = 0) :
    Accounted deepgramEnabled record := by
  have hsettled : ∀ p, sourcesOf p record.sourceTranscripts +
      failuresOf p record.providerFailures = 1 := by
    intro p
    rw [hfailures, settleDisabled]
    cases deepgramEnabled with
    | true => exact hone p
    | false =>
      rw [if_neg (by decide)]
      by_cases hp : p = .deepgram
      · subst hp
        rw [hoff rfl, failuresOf, List.countP_eq_length_filter, filter_normalizeDisabledDeepgram]
        rfl
      · rw [failuresOf_normalizeDisabledDeepgram hp]
        exact hone p
  refine ⟨fun p => ?_, ?_⟩
  · have hp := hsettled p
    rcases Nat.eq_zero_or_pos (failuresOf p record.providerFailures) with hnone | hsome
    · refine .inl ⟨?_, failuresOf_eq_zero.1 hnone⟩
      have hpos : 0 < sourcesOf p record.sourceTranscripts := by omega
      obtain ⟨source, hmem, hsource⟩ := List.countP_pos_iff.1 hpos
      exact ⟨source, hmem, by simpa using hsource⟩
    · exact .inr ⟨sourcesOf_eq_zero.1 (by omega), failuresOf_eq_one (by omega)⟩
  · rintro rfl
    rw [hfailures]
    exact filter_normalizeDisabledDeepgram

/-- a failed start leaves each provider one failure -/
theorem accounts_start (failure : StartSequenceFailure) (p : Provider) :
    failuresOf p (startFailures failure) = 1 := by
  obtain ⟨error, started, failed⟩ := failure
  cases failed with
  | none => cases p <;> cases started with
    | none => rfl
    | some q => cases q <;> rfl
  | some q => cases q <;> cases p <;> cases started with
    | none => rfl
    | some q => cases q <;> rfl

/-! ## the workflow -/

section workflow
variable {Confidence : Type} {streams : ProviderStreams Confidence} {p : Provider}

/-- each stream is that of its own provider -/
structure ProviderStreams.Owned (streams : ProviderStreams Confidence) : Prop where
  deepgram : streams.deepgram.provider = .deepgram
  groq : streams.groq.provider = .groq

theorem pollOf_tagged (h : streams.Owned) (ready : Ready) : (pollOf streams ready).Tagged := by
  intro p source hsource
  cases p with
  | deepgram =>
    simp only [Poll.ready, pollOf] at hsource
    split at hsource
    · exact (streams.deepgram.tagged source (Option.some.inj hsource)).trans h.deepgram
    · cases hsource
  | groq =>
    simp only [Poll.ready, pollOf] at hsource
    split at hsource
    · exact (streams.groq.tagged source (Option.some.inj hsource)).trans h.groq
    · cases hsource

theorem polls_tagged (h : streams.Owned) (polls : List Ready) :
    ∀ poll ∈ polls.map (pollOf streams), poll.Tagged := by
  intro poll hpoll
  obtain ⟨ready, -, rfl⟩ := List.mem_map.1 hpoll
  exact pollOf_tagged h ready

/-- the streaming failures name each provider at most once -/
theorem streamAudio_failures {k : Nat} {error : BoundaryError}
    (h : streamAudio streams k = .error error) : failuresOf p error.providerFailures ≤ 1 := by
  have hfailures : error.providerFailures =
      streamFailure .deepgram (streams.deepgram.sendAudio k) ++
        streamFailure .groq (streams.groq.sendAudio k) := by
    simp only [streamAudio] at h
    split at h
    · rw [← Except.error.inj h]
      rfl
    · rw [← Except.error.inj h]
      rfl
    · cases h
  have hsent : ∀ (q : Provider) (r : Except BoundaryError Unit),
      failuresOf p (streamFailure q r) ≤ if q = p then 1 else 0 := by
    intro q r
    cases r with
    | ok => exact Nat.zero_le _
    | error error => exact Nat.le_of_eq (failuresOf_singleton _)
  have hfirst := hsent .deepgram (streams.deepgram.sendAudio k)
  have hsecond := hsent .groq (streams.groq.sendAudio k)
  rw [hfailures, failuresOf_append]
  cases p with
  | deepgram => exact Nat.add_le_add hfirst hsecond
  | groq => exact Nat.add_le_add hfirst hsecond

theorem capturePump_failures {k : Nat} {polls : List Polled} {error : BoundaryError}
    (h : capturePump streams k polls = some error) : failuresOf p error.providerFailures ≤ 1 := by
  fun_induction capturePump streams k polls with
  | case1 | case2 | case3 | case6 => cases h
  | case4 k polls stopped hstop hsent ih => exact ih h
  | case5 k polls stopped hstop error' hsent =>
    obtain rfl := Option.some.inj h
    exact streamAudio_failures hsent
  | case7 => cases h
  | case8 k error' polls hkind =>
    rw [← Option.some.inj h, error'.plain]
    exact Nat.zero_le _

/-- an abort keeps the failures of its cause -/
theorem abortWork_failures (course : Course) (cause : BoundaryError) :
    (abortWork streams course cause).providerFailures = cause.providerFailures := by
  have hcapture : ∀ capture, (boundedAbort capture cause).providerFailures =
      cause.providerFailures := by
    intro capture
    rcases capture with (_ | _) | _ <;> rfl
  simp only [abortWork, abortRecordingWork]
  split
  · exact hcapture _
  · exact hcapture _
  · exact hcapture _

/-- the completion either has each provider once, or fails with each at most once -/
theorem completion_accounts (h : streams.Owned) (course : CompletionCourse) :
    (∀ completion, completeWithGrammarCapability streams course = .ok completion →
      ∀ p, entries p completion.sources completion.providerFailures = 1) ∧
    ∀ error, completeWithGrammarCapability streams course = .error error →
      ∀ p, failuresOf p error.providerFailures ≤ 1 := by
  have htagged := polls_tagged h course.polls
  simp only [completeWithGrammarCapability]
  split
  · refine ⟨nofun, fun error herror p => ?_⟩
    rw [← Except.error.inj herror]
    exact Nat.zero_le _
  · refine ⟨fun completion hok => (completeWithTimings_ok htagged hok).2.2, ?_⟩
    intro error herror p
    have hone := (completeWithTimings_error htagged herror).2 p
    simp only [entries, List.countP_nil, Nat.zero_add] at hone
    exact Nat.le_of_eq hone

/-- an error behind the completion changes nothing -/
theorem accounts_collected {collected : Collected}
    (hone : sourcesOf p collected.sources + failuresOf p collected.failures = 1)
    (hplain : ∀ error, collected.result = .error error → error.providerFailures = []) :
    sourcesOf p collected.sources + failuresOf p (accountCollected collected) = 1 := by
  simp only [accountCollected]
  split
  next => exact hone
  next error herror =>
    refine accounts_missing (Nat.le_of_eq ?_) error.diagnostic
    split
    next hnone => rwa [hplain error herror, ← List.isEmpty_iff.1 hnone]
    next => exact hone

theorem concludeCompletion_plain (deepgramEnabled : Bool) (course : Course)
    (completion : ProviderCompletion Confidence) (error : BoundaryError)
    (h : (concludeCompletion deepgramEnabled course completion).result = .error error) :
    error.providerFailures = [] := by
  simp only [concludeCompletion] at h
  split at h
  next e hprepare =>
    rw [← Except.error.inj h, silenceNeedsEveryProvider]
    split
    · rfl
    · exact e.plain
  next =>
    split at h
    next e hconclude => exact Except.error.inj h ▸ e.plain
    next => cases h

/-- **the workflow accounts for each provider, wherever it stops** -/
theorem collect_accounts (h : streams.Owned) (deepgramEnabled : Bool) (course : Course)
    (polls : List Polled) (p : Provider) :
    sourcesOf p (collect deepgramEnabled streams course polls).sources +
      failuresOf p (accountCollected (collect deepgramEnabled streams course polls)) = 1 := by
  -- nothing was collected, and the error names each provider at most once
  have hbare : ∀ error : BoundaryError, failuresOf p error.providerFailures ≤ 1 →
      sourcesOf p [] + failuresOf p (accountCollected
        { sources := [], failures := [], result := .error error }) = 1 := by
    intro error herror
    exact accounts_missing (by simpa [sourcesOf] using herror) error.diagnostic
  obtain ⟨hok, hfailed⟩ := completion_accounts h course.completion
  simp only [collect]
  split
  next error hpump =>
    refine hbare _ ?_
    rw [abortWork_failures]
    exact capturePump_failures hpump
  next =>
    split
    next error hfinish =>
      refine hbare _ ?_
      rw [abortWork_failures, error.plain]
      exact Nat.zero_le _
    next =>
      split
      next error hcompletion => exact hbare _ (hfailed error hcompletion p)
      next completion hcompletion =>
        have hone : sourcesOf p (completion.sources.map newSourceTranscriptRecord) +
            failuresOf p completion.providerFailures = 1 := by
          rw [sourcesOf_records]
          exact hok completion hcompletion p
        exact accounts_collected hone (concludeCompletion_plain deepgramEnabled course completion)

/-- a disabled Deepgram returns no source -/
theorem collect_disabled (h : streams.Owned)
    (hoff : ∀ source, streams.deepgram.complete ≠ .ok source) (deepgramEnabled : Bool)
    (course : Course) (polls : List Polled) :
    sourcesOf .deepgram (collect deepgramEnabled streams course polls).sources = 0 := by
  simp only [collect]
  split
  next => rfl
  next =>
    split
    next => rfl
    next =>
      split
      next => rfl
      next completion hcompletion =>
        show sourcesOf .deepgram (completion.sources.map newSourceTranscriptRecord) = 0
        rw [sourcesOf_records, List.countP_eq_zero]
        intro source hmem
        simp only [completeWithGrammarCapability] at hcompletion
        split at hcompletion
        next => cases hcompletion
        next =>
          have hperm := (completeWithTimings_ok (polls_tagged h _) hcompletion).2.1
          obtain ⟨q, poll, hpoll, hready⟩ := ready_of_mem_completedSources (hperm.mem_iff.1 hmem)
          obtain ⟨ready, -, rfl⟩ := List.mem_map.1 hpoll
          cases q with
          | deepgram =>
            simp only [Poll.ready, pollOf] at hready
            split at hready
            · exact absurd (Option.some.inj hready) (hoff source)
            · cases hready
          | groq =>
            rw [pollOf_tagged h ready .groq source hready]
            decide

end workflow

/-! ## every end -/

theorem beginRecording_owned {Confidence : Type} {capture : Except BoundaryError Unit}
    {deepgram : TranscriptProvider Confidence .deepgram}
    {groq : TranscriptProvider Confidence .groq} {streams : ProviderStreams Confidence}
    (h : beginRecording capture deepgram groq = .ok streams) :
    streams.Owned ∧ deepgram.start = .ok streams.deepgram := by
  simp only [beginRecording] at h
  split at h
  next => cases h
  next =>
    split at h
    next => cases h
    next deepgramStream hdeepgram =>
      split at h
      next => cases h
      next groqStream hgroq =>
        obtain rfl := Except.ok.inj h
        exact ⟨⟨deepgram.own _ hdeepgram, groq.own _ hgroq⟩, hdeepgram⟩

theorem failuresOf_panicFailures (p : Provider) : failuresOf p panicFailures = 1 := by
  cases p <;> rfl

/-- **every end of a Cloud Recording leaves each provider a source or one failure** -/
theorem record_accounts {Confidence : Type} (digest : Digest) (r : CloudRecording Confidence) :
    Accounted r.deepgramEnabled (r.record.prepared digest) := by
  simp only [CloudRecording.record]
  split
  next failure hstart =>
    refine accounted_settled rfl (fun p => ?_) fun _ => rfl
    exact (Nat.zero_add _).trans (accounts_start failure p)
  next streams hstart =>
    obtain ⟨howned, hdeepgram⟩ := beginRecording_owned hstart
    split
    next =>
      exact accounted_settled rfl (fun p => accounts_missing (Nat.zero_le _) _) fun _ => rfl
    next =>
      split
      next joinError hpanic =>
        refine accounted_settled rfl (fun p => ?_) fun _ => rfl
        exact (Nat.zero_add _).trans (failuresOf_panicFailures p)
      next =>
        simp only [processRecording]
        split
        next joinError hpump =>
          exact accounted_settled rfl (fun p => accounts_missing (Nat.zero_le _) _) fun _ => rfl
        next polls hpump =>
          refine accounted_settled rfl (collect_accounts howned _ _ polls) fun hoff => ?_
          refine collect_disabled howned (fun source hsource => ?_) _ _ polls
          rw [hoff] at hdeepgram
          rw [← Except.ok.inj hdeepgram] at hsource
          cases hsource

def completingStream (p : Provider) (text : Text) : ProviderStream Nat where
  provider := p
  sendAudio := fun _ => .ok ()
  abort := .ok ()
  complete := .ok ⟨p, text⟩
  wordConfidences := []
  tagged := fun _ h => by rw [← Except.ok.inj h]

def recordingDeadlineError : PlainError where
  error := BoundaryError.new .recordingDeadline "Recording Deadline elapsed".toList
  plain := rfl

/-- the Recording Deadline ends the capture, Deepgram completes, Groq is pending at the Provider
Deadline, and the text is delivered -/
def deliveredRecording : CloudRecording Nat where
  id := 1
  correlationId := "rec-1-1-1".toList
  deepgramEnabled := true
  capture := .ok ()
  deepgram := ⟨.ok (completingStream .deepgram "hi".toList), fun _ h => by
    rw [← Except.ok.inj h]; rfl⟩
  groq := ⟨.ok (completingStream .groq "hey".toList), fun _ h => by rw [← Except.ok.inj h]; rfl⟩
  shutdown := false
  panics := none
  course :=
    { pump := .ok [.chunk false, .failed recordingDeadlineError]
      captureAbort := .finished (.ok ())
      providerAbortElapsed := false
      providerAbortTimedOut := false
      finish := .ok ()
      completion :=
        { polls := [⟨true, false, false, 5⟩, ⟨false, false, true, 9⟩]
          cleanupTimedOut := false
          credentialNeeded := false
          panicked := false }
      prepare := .ok ()
      conclude := .ok ()
      notes := Notes.blank 1 }

theorem record_accounts_delivered :
    (deliveredRecording.record.prepared fun _ => []).sourceTranscripts =
        [⟨.deepgram, "hi".toList⟩] ∧
      (deliveredRecording.record.prepared fun _ => []).error = none ∧
      Accounted true (deliveredRecording.record.prepared fun _ => []) :=
  ⟨by decide, by decide, record_accounts _ deliveredRecording⟩

end Voisu.Daemon
