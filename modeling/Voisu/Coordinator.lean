import Voisu.Provider
import Mathlib.Data.List.Sort

/-!
# The provider coordinator

The model of `ProviderCoordinator::complete_with_timings`.  The biased `select!` of the source is
polled again and again; a `Poll` says which of its three futures are ready at one such poll, and
nothing is assumed about the order in which they become ready.  The list of polls is finite: when
it ends with a provider still pending, the deadline timer fires.

* `select`, `selectLoop`     one poll of the `select!`, and the `while` loop around it;
* `completions`              what the polls hand over, said of the polls alone;
* `LoopInv`                  every provider that is done has left exactly one entry;
* `completeWithTimings_accounts`   each provider is accounted for exactly once.
-/

namespace Voisu.Coordinator

abbrev Completion := Except BoundaryError SourceTranscript

/-- the futures that are ready at one poll of the `select!`, and the clock -/
structure Poll where
  deepgram : Option Completion
  groq : Option Completion
  deadline : Bool
  elapsedMs : Nat

structure SelectState where
  deepgramDone : Bool
  groqDone : Bool
  deadlineElapsed : Bool
  transcripts : List SourceTranscript
  timingsMs : List ProviderTiming
  providerFailures : List ProviderFailure

def SelectState.init : SelectState :=
  { deepgramDone := false, groqDone := false, deadlineElapsed := false,
    transcripts := [], timingsMs := [], providerFailures := [] }

def SelectState.done (st : SelectState) : Provider → Bool
  | .deepgram => st.deepgramDone
  | .groq => st.groqDone

def SelectState.setDone (st : SelectState) : Provider → SelectState
  | .deepgram => { st with deepgramDone := true }
  | .groq => { st with groqDone := true }

/-- the arm of the `select!` that takes the completion of provider `p` -/
def settle (p : Provider) (elapsedMs : Nat) (result : Completion) (st : SelectState) :
    SelectState :=
  let st := st.setDone p
  match result with
  | .ok source =>
    { st with
      timingsMs := st.timingsMs ++ [⟨source.provider, elapsedMs⟩]
      transcripts := st.transcripts ++ [source] }
  | .error error =>
    { st with
      providerFailures := st.providerFailures ++ [⟨p, .completion, error.diagnostic⟩] }

/-- one poll: the first ready arm in source order, a provider that is done being disabled -/
def select (st : SelectState) (poll : Poll) : SelectState :=
  match (if st.deepgramDone then none else poll.deepgram) with
  | some result => settle .deepgram poll.elapsedMs result st
  | none =>
    match (if st.groqDone then none else poll.groq) with
    | some result => settle .groq poll.elapsedMs result st
    | none => if poll.deadline then { st with deadlineElapsed := true } else st

def SelectState.finished (st : SelectState) : Bool :=
  (st.deepgramDone && st.groqDone) || st.deadlineElapsed

def selectLoop (st : SelectState) : List Poll → SelectState
  | [] => if st.finished then st else { st with deadlineElapsed := true }
  | poll :: polls => if st.finished then st else selectLoop (select st poll) polls

/-- how the aborts of the pending streams end within the abort deadline -/
inductive Cleanup where
  | finished (deepgram groq : Except BoundaryError Unit)
  | timedOut

def deadlineDiagnostic : Text := "Provider Deadline elapsed before completion".toList

/-- the failures recorded for the providers that the deadline found pending -/
def deadlineFailures (st : SelectState) : List ProviderFailure :=
  (if st.deepgramDone then [] else [⟨.deepgram, .providerDeadline, deadlineDiagnostic⟩]) ++
    (if st.groqDone then [] else [⟨.groq, .providerDeadline, deadlineDiagnostic⟩])

/-- `deepgram_result?; groq_result`, a stream that is done not being aborted -/
def cleanupError (st : SelectState) : Cleanup → Option BoundaryError
  | .timedOut => some (BoundaryError.new .provider "provider deadline cleanup timed out".toList)
  | .finished deepgram groq =>
    match (if st.deepgramDone then .ok () else deepgram) with
    | .error error => some error
    | .ok () =>
      match (if st.groqDone then .ok () else groq) with
      | .error error => some error
      | .ok () => none

def sortByProvider {α : Type} (key : α → Provider) (xs : List α) : List α :=
  xs.insertionSort fun a b => (key a).rank ≤ (key b).rank

structure ProviderCompletion (Confidence : Type) where
  sources : List SourceTranscript
  timingsMs : List ProviderTiming
  providerFailures : List ProviderFailure
  wordConfidences : List (ProviderWordConfidences Confidence)

/-- the entry of a provider that retained words -/
def wordEvidence {Confidence : Type} (p : Provider) (words : List (Text × Confidence)) :
    List (ProviderWordConfidences Confidence) :=
  if words.isEmpty then [] else [⟨p, words⟩]

def annotate (cleanup : Option BoundaryError) (failure : ProviderFailure) : ProviderFailure :=
  match cleanup with
  | none => failure
  | some error =>
    if failure.stage = .providerDeadline then
      { failure with
        diagnostic := failure.diagnostic ++ "; cleanup failed: ".toList ++ error.diagnostic }
    else failure

def noTranscriptDetail (failures : List ProviderFailure) : Text :=
  if failures.isEmpty then "Provider Deadline elapsed".toList
  else "; ".toList.intercalate (failures.map ProviderFailure.diagnostic)

def completeWithTimings {Confidence : Type} (polls : List Poll) (cleanup : Cleanup)
    (deepgramWords groqWords : List (Text × Confidence)) :
    Except BoundaryError (ProviderCompletion Confidence) :=
  let st := selectLoop SelectState.init polls
  let failures :=
    if st.deadlineElapsed then st.providerFailures ++ deadlineFailures st else st.providerFailures
  let cleanupErr := if st.deadlineElapsed then cleanupError st cleanup else none
  let transcripts := sortByProvider SourceTranscript.provider st.transcripts
  let timings := sortByProvider ProviderTiming.provider st.timingsMs
  let failures := sortByProvider ProviderFailure.provider failures
  if transcripts.isEmpty then
    let error :=
      cleanupErr.getD (BoundaryError.new .provider (noTranscriptDetail failures))
    .error (error.withProviderFailures failures)
  else
    .ok
      { sources := transcripts
        timingsMs := timings
        providerFailures := failures.map (annotate cleanupErr)
        wordConfidences := wordEvidence .deepgram deepgramWords ++ wordEvidence .groq groqWords }

/-! ## what the polls hand over -/

/-- what the future of provider `p` gives at one poll -/
def Poll.ready (poll : Poll) : Provider → Option Completion
  | .deepgram => poll.deepgram
  | .groq => poll.groq

/-- the completion a poll hands over: that of the first pending provider that is ready -/
def Poll.handsOver (poll : Poll) (pending : List Provider) : Option (Provider × Completion) :=
  pending.findSome? fun p => (poll.ready p).map fun result => (p, result)

/-- the completions that come before the deadline, in their order: a provider completes once, and
nothing completes behind the first poll at which the deadline alone is ready -/
def completions (pending : List Provider) : List Poll → List (Provider × Completion)
  | [] => []
  | poll :: polls =>
    match poll.handsOver pending with
    | some (p, result) => (p, result) :: completions (pending.erase p) polls
    | none => if poll.deadline then [] else completions pending polls

def completedSource : Provider × Completion → Option SourceTranscript
  | (_, .ok source) => some source
  | (_, .error _) => none

/-- the sources that completed -/
def completedSources (polls : List Poll) : List SourceTranscript :=
  (completions [.deepgram, .groq] polls).filterMap completedSource

theorem Poll.handsOver_ready {poll : Poll} {pending : List Provider} {p : Provider}
    {result : Completion} (h : poll.handsOver pending = some (p, result)) :
    p ∈ pending ∧ poll.ready p = some result := by
  obtain ⟨q, hq, hready⟩ := List.exists_of_findSome?_eq_some h
  rw [Option.map_eq_some_iff] at hready
  obtain ⟨result', hresult, heq⟩ := hready
  obtain ⟨rfl, rfl⟩ := Prod.mk.inj heq
  exact ⟨hq, hresult⟩

/-- what completes was ready at one of the polls -/
theorem ready_of_mem_completions {pending : List Provider} {polls : List Poll} {p : Provider}
    {result : Completion} (h : (p, result) ∈ completions pending polls) :
    ∃ poll ∈ polls, poll.ready p = some result := by
  induction polls generalizing pending with
  | nil => cases h
  | cons poll polls ih =>
    have later : ∀ pending', (p, result) ∈ completions pending' polls →
        ∃ poll' ∈ poll :: polls, poll'.ready p = some result := by
      intro pending' hmem
      obtain ⟨poll', hpoll', hready⟩ := ih hmem
      exact ⟨poll', List.mem_cons_of_mem _ hpoll', hready⟩
    unfold completions at h
    split at h
    · rename_i q result' hq
      rcases List.mem_cons.1 h with heq | hmem
      · obtain ⟨rfl, rfl⟩ := Prod.mk.inj heq
        exact ⟨poll, List.mem_cons_self, (Poll.handsOver_ready hq).2⟩
      · exact later _ hmem
    · split at h
      · cases h
      · exact later _ h

theorem completions_nil (polls : List Poll) : completions [] polls = [] := by
  induction polls with
  | nil => rfl
  | cons poll polls ih =>
    show (if poll.deadline then [] else completions [] polls) = []
    rw [ih, ite_self]

/-! ## the loop takes what the polls hand over -/

/-- the providers whose arm is enabled, in source order -/
def SelectState.pending (st : SelectState) : List Provider :=
  [Provider.deepgram, .groq].filter fun p => !st.done p

theorem select_eq (st : SelectState) (poll : Poll) :
    select st poll =
      match poll.handsOver st.pending with
      | some (p, result) => settle p poll.elapsedMs result st
      | none => if poll.deadline then { st with deadlineElapsed := true } else st := by
  unfold select SelectState.pending Poll.handsOver
  cases hd : st.deepgramDone <;> cases hg : st.groqDone <;> cases hpd : poll.deepgram <;>
    cases hpg : poll.groq <;> simp [SelectState.done, Poll.ready, hd, hg, hpd, hpg]

theorem done_settle (p q : Provider) (ms : Nat) (result : Completion) (st : SelectState) :
    (settle p ms result st).done q = if p = q then true else st.done q := by
  unfold settle
  cases result <;> cases p <;> cases q <;> rfl

theorem deadlineElapsed_settle (p : Provider) (ms : Nat) (result : Completion) (st : SelectState) :
    (settle p ms result st).deadlineElapsed = st.deadlineElapsed := by
  unfold settle
  cases result <;> cases p <;> rfl

theorem transcripts_settle (p : Provider) (ms : Nat) (result : Completion) (st : SelectState) :
    (settle p ms result st).transcripts =
      st.transcripts ++ (completedSource (p, result)).toList := by
  have hd : (st.setDone p).transcripts = st.transcripts := by cases p <;> rfl
  unfold settle completedSource
  cases result <;> simp [hd]

theorem pending_settle (p : Provider) (ms : Nat) (result : Completion) (st : SelectState) :
    (settle p ms result st).pending = st.pending.erase p := by
  unfold SelectState.pending
  simp only [done_settle]
  cases hd : st.done .deepgram <;> cases hg : st.done .groq <;> cases p <;> simp [hd, hg]

theorem selectLoop_finished {st : SelectState} (h : st.finished = true) (polls : List Poll) :
    selectLoop st polls = st := by
  cases polls <;> simp [selectLoop, h]

/-- **the loop collects exactly the sources among what the polls hand over** -/
theorem transcripts_selectLoop {st : SelectState} (hst : st.deadlineElapsed = false)
    (polls : List Poll) :
    (selectLoop st polls).transcripts =
      st.transcripts ++ (completions st.pending polls).filterMap completedSource := by
  induction polls generalizing st with
  | nil =>
    unfold selectLoop
    split <;> simp [completions]
  | cons poll polls ih =>
    unfold selectLoop
    split
    · rename_i hf
      have hnone : st.pending = [] := by
        simp only [SelectState.finished, hst, Bool.or_false, Bool.and_eq_true] at hf
        simp [SelectState.pending, SelectState.done, hf.1, hf.2]
      rw [hnone, completions_nil, List.filterMap_nil, List.append_nil]
    · rw [select_eq, completions]
      cases hh : poll.handsOver st.pending with
      | some handed =>
        obtain ⟨p, result⟩ := handed
        simp only
        rw [ih (by rw [deadlineElapsed_settle, hst]), transcripts_settle, pending_settle,
          List.filterMap_cons]
        cases completedSource (p, result) <;> simp
      | none =>
        simp only
        split
        · rw [selectLoop_finished (by simp [SelectState.finished]), List.filterMap_nil,
            List.append_nil]
        · exact ih hst

theorem transcripts_selectLoop_init (polls : List Poll) :
    (selectLoop SelectState.init polls).transcripts = completedSources polls := by
  rw [transcripts_selectLoop rfl polls]
  rfl

/-! ## one entry for each provider that is done -/

/-- a stream returns a source that is tagged with its own provider -/
def Poll.Tagged (poll : Poll) : Prop :=
  ∀ p source, poll.ready p = some (.ok source) → source.provider = p

/-- the entries of provider `p` among sources and failures -/
def entries (p : Provider) (sources : List SourceTranscript) (failures : List ProviderFailure) :
    Nat :=
  sources.countP (fun source => source.provider = p) +
    failures.countP fun failure => failure.provider = p

structure LoopInv (st : SelectState) : Prop where
  entries_eq : ∀ p, entries p st.transcripts st.providerFailures = if st.done p then 1 else 0

theorem LoopInv.init : LoopInv SelectState.init := ⟨fun p => by cases p <;> rfl⟩

theorem entries_settle {p : Provider} {ms : Nat} {result : Completion} {st : SelectState}
    (hr : ∀ source, result = .ok source → source.provider = p) (q : Provider) :
    entries q (settle p ms result st).transcripts (settle p ms result st).providerFailures =
      entries q st.transcripts st.providerFailures + if p = q then 1 else 0 := by
  have hd : (st.setDone p).transcripts = st.transcripts ∧
      (st.setDone p).providerFailures = st.providerFailures := by cases p <;> exact ⟨rfl, rfl⟩
  unfold settle entries
  cases result with
  | ok source =>
    simp only [hd, List.countP_append, List.countP_singleton, hr source rfl, decide_eq_true_eq]
    omega
  | error error =>
    simp only [hd, List.countP_append, List.countP_singleton, decide_eq_true_eq]
    omega

theorem LoopInv.settle {p : Provider} {ms : Nat} {result : Completion} {st : SelectState}
    (h : LoopInv st) (hp : st.done p = false)
    (hr : ∀ source, result = .ok source → source.provider = p) :
    LoopInv (settle p ms result st) := by
  refine ⟨fun q => ?_⟩
  rw [entries_settle hr, done_settle, h.entries_eq q]
  by_cases hpq : p = q
  · subst hpq
    rw [if_pos rfl, if_pos rfl, hp]
    rfl
  · rw [if_neg hpq, if_neg hpq]
    rfl

/-- **one poll keeps the invariant** -/
theorem LoopInv.select {st : SelectState} {poll : Poll} (h : LoopInv st) (ht : poll.Tagged) :
    LoopInv (select st poll) := by
  rw [select_eq]
  split
  · rename_i p result hh
    obtain ⟨hp, hready⟩ := Poll.handsOver_ready hh
    apply h.settle
    · simpa [SelectState.pending] using (List.mem_filter.1 hp).2
    · intro source hs
      exact ht p source (by rw [hready, hs])
  · split
    · exact ⟨fun p => by have := h.entries_eq p; cases p <;> exact this⟩
    · exact h

/-- **the loop keeps the invariant, and it ends with both providers done or at the deadline** -/
theorem LoopInv.selectLoop {st : SelectState} {polls : List Poll} (h : LoopInv st)
    (ht : ∀ poll ∈ polls, poll.Tagged) :
    LoopInv (selectLoop st polls) ∧ (selectLoop st polls).finished = true := by
  induction polls generalizing st with
  | nil =>
    unfold Coordinator.selectLoop
    split
    · rename_i hf
      exact ⟨h, hf⟩
    · refine ⟨⟨fun p => by have := h.entries_eq p; cases p <;> exact this⟩, ?_⟩
      simp [SelectState.finished]
  | cons poll polls ih =>
    unfold Coordinator.selectLoop
    split
    · rename_i hf
      exact ⟨h, hf⟩
    · apply ih (h.select (ht poll List.mem_cons_self))
      intro p hp
      exact ht p (List.mem_cons_of_mem _ hp)

/-- a completed source is one that its stream returned -/
theorem ready_of_mem_completedSources {polls : List Poll} {source : SourceTranscript}
    (h : source ∈ completedSources polls) :
    ∃ p, ∃ poll ∈ polls, poll.ready p = some (.ok source) := by
  obtain ⟨⟨p, result⟩, hmem, hsource⟩ := List.mem_filterMap.1 h
  cases result with
  | ok source' =>
    obtain rfl := Option.some.inj hsource
    exact ⟨p, ready_of_mem_completions hmem⟩
  | error error => cases hsource

/-! ## what the coordinator returns -/

theorem countP_sortByProvider {α : Type} (key : α → Provider) (f : α → Bool) (xs : List α) :
    (sortByProvider key xs).countP f = xs.countP f :=
  (List.perm_insertionSort _ xs).countP_eq f

theorem annotate_provider (cleanup : Option BoundaryError) (failure : ProviderFailure) :
    (annotate cleanup failure).provider = failure.provider := by
  unfold annotate
  split
  · rfl
  · split <;> rfl

/-- at the end of the loop the deadline failures complete the accounts -/
theorem LoopInv.final {st : SelectState} (h : LoopInv st) (hf : st.finished = true)
    (p : Provider) :
    entries p st.transcripts (if st.deadlineElapsed then st.providerFailures ++ deadlineFailures st
      else st.providerFailures) = 1 := by
  have he := h.entries_eq p
  have hdl : (deadlineFailures st).countP (fun failure => failure.provider = p) =
      if st.done p then 0 else 1 := by
    unfold deadlineFailures
    rw [List.countP_append]
    cases p <;> cases hd : st.deepgramDone <;> cases hg : st.groqDone <;>
      simp [SelectState.done, hd, hg]
  unfold entries at he ⊢
  split
  · rw [List.countP_append, hdl]
    split at he <;> rename_i hp <;> simp only [hp] <;> simp <;> omega
  · rename_i hde
    have hp : st.done p = true := by
      simp only [SelectState.finished, hde, Bool.or_false, Bool.and_eq_true] at hf
      cases p
      · exact hf.1
      · exact hf.2
    rw [hp] at he
    exact he

section returns
variable {Confidence : Type} {polls : List Poll} {cleanup : Cleanup}
  {deepgramWords groqWords : List (Text × Confidence)}

theorem sortByProvider_eq_nil {α : Type} {key : α → Provider} {xs : List α} :
    (sortByProvider key xs).isEmpty = true ↔ xs = [] := by
  rw [List.isEmpty_iff]
  constructor
  · intro h
    have hperm : (sortByProvider key xs).Perm xs := List.perm_insertionSort _ _
    rw [h] at hperm
    exact List.nil_perm.mp hperm
  · rintro rfl
    rfl

theorem completeWithTimings_ok (ht : ∀ poll ∈ polls, poll.Tagged)
    {completion : ProviderCompletion Confidence}
    (h : completeWithTimings polls cleanup deepgramWords groqWords = .ok completion) :
    completedSources polls ≠ [] ∧ completion.sources.Perm (completedSources polls) ∧
      ∀ p, entries p completion.sources completion.providerFailures = 1 := by
  obtain ⟨hinv, hfin⟩ := LoopInv.init.selectLoop ht
  rw [← transcripts_selectLoop_init]
  unfold completeWithTimings at h
  generalize selectLoop SelectState.init polls = st at h hinv hfin
  simp only at h
  split at h
  · cases h
  · rename_i hsome
    rw [sortByProvider_eq_nil] at hsome
    obtain rfl := Except.ok.inj h
    refine ⟨hsome, List.perm_insertionSort _ _, fun p => ?_⟩
    have := hinv.final hfin p
    simp only [entries, List.countP_map, Function.comp_def, annotate_provider,
      countP_sortByProvider] at this ⊢
    exact this

theorem completeWithTimings_error (ht : ∀ poll ∈ polls, poll.Tagged) {error : BoundaryError}
    (h : completeWithTimings polls cleanup deepgramWords groqWords = .error error) :
    completedSources polls = [] ∧ ∀ p, entries p [] error.providerFailures = 1 := by
  obtain ⟨hinv, hfin⟩ := LoopInv.init.selectLoop ht
  rw [← transcripts_selectLoop_init]
  unfold completeWithTimings at h
  generalize selectLoop SelectState.init polls = st at h hinv hfin
  simp only at h
  split at h
  · rename_i hnone
    rw [sortByProvider_eq_nil] at hnone
    obtain rfl := Except.error.inj h
    refine ⟨hnone, fun p => ?_⟩
    have := hinv.final hfin p
    rw [hnone] at this
    simp only [entries, BoundaryError.withProviderFailures, countP_sortByProvider] at this ⊢
    exact this
  · cases h

end returns

/-- **each provider is accounted for exactly once, and completed sources survive the cleanup** -/
theorem completeWithTimings_accounts {Confidence : Type} (polls : List Poll) (cleanup : Cleanup)
    (deepgramWords groqWords : List (Text × Confidence)) (ht : ∀ poll ∈ polls, poll.Tagged) :
    match completeWithTimings polls cleanup deepgramWords groqWords with
    | .ok completion =>
      completedSources polls ≠ [] ∧ completion.sources.Perm (completedSources polls) ∧
        ∀ p, entries p completion.sources completion.providerFailures = 1
    | .error error =>
      completedSources polls = [] ∧ ∀ p, entries p [] error.providerFailures = 1 := by
  split
  next completion h => exact completeWithTimings_ok ht h
  next error h => exact completeWithTimings_error ht h

/-- deepgram completes, groq is pending at the deadline and its abort fails -/
def deadlineRun : List Poll :=
  [⟨none, none, false, 5⟩, ⟨some (.ok ⟨.deepgram, "hi".toList⟩), none, true, 9⟩,
    ⟨none, none, true, 10⟩]

theorem completeWithTimings_accounts_deadlineRun :
    (∀ poll ∈ deadlineRun, poll.Tagged) ∧
      completedSources deadlineRun = [⟨.deepgram, "hi".toList⟩] ∧
      (let cleanup := Cleanup.finished (.ok ()) (.error (BoundaryError.new .provider ['x']))
       match completeWithTimings deadlineRun cleanup ([] : List (Text × Nat)) [] with
       | .ok completion =>
         completedSources deadlineRun ≠ [] ∧
           completion.sources.Perm (completedSources deadlineRun) ∧
           ∀ p, entries p completion.sources completion.providerFailures = 1
       | .error error =>
         completedSources deadlineRun = [] ∧ ∀ p, entries p [] error.providerFailures = 1) := by
  have ht : ∀ poll ∈ deadlineRun, poll.Tagged := by
    intro poll hp p source hs
    simp only [deadlineRun, List.mem_cons, List.not_mem_nil, or_false] at hp
    rcases hp with rfl | rfl | rfl <;> cases p <;> simp_all [Poll.ready]
    rw [← hs]
  exact ⟨ht, rfl, completeWithTimings_accounts deadlineRun _ _ _ ht⟩

end Voisu.Coordinator
