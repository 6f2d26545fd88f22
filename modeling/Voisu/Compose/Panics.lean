import Mathlib
import Voisu.Compose.Loop
import Voisu.Compose.Walk

/-!
# The gate does not panic

* `Progress.Tracks`     the accumulators hold what the adjudications so far say;
* `spanStep_eq`         an iteration does to them what its adjudication says;
* `conclude_eq`         the checks after the loop are those on the adjudications;
* `composeRun_ok`       the run does not panic, and its outcome is that of `composeImpl`.
-/

namespace Voisu.Compose
open Lib

/-! ## maps -/

theorem lookup_constMap {α : Type} (keys : List Text) (v : α) (p : Text) :
    (constMap keys v).lookup p = if p ∈ keys then some v else none := by
  induction keys with
  | nil => rfl
  | cons q keys ih =>
    show (AList.insert q v (constMap keys v)).lookup p = _
    by_cases h : p = q
    · subst h
      rw [AList.lookup_insert, if_pos List.mem_cons_self]
    · rw [AList.lookup_insert_ne h, ih]
      simp only [List.mem_cons, h, false_or]

theorem lookup_providerTextMap (sources : List ComposeSource) (p : Text) :
    (providerTextMap sources).lookup p = providerText sources p := by
  induction sources using List.reverseRecOn with
  | nil => rfl
  | append_singleton sources s ih =>
    unfold providerTextMap at ih ⊢
    unfold providerText at ih ⊢
    rw [List.foldl_append, List.filter_append]
    show AList.lookup p (if s.available = true then _ else _) = _
    cases hs : s.available with
    | false =>
      rw [if_neg Bool.false_ne_true, ih]
      simp [hs]
    | true =>
      rw [if_pos rfl, List.filter_cons_of_pos hs, List.reverse_append]
      by_cases h : p = s.provider.asStr
      · subst h
        rw [AList.lookup_insert]
        simp
      · rw [AList.lookup_insert_ne h, ih]
        simp [Ne.symm h]

theorem readKey_of_lookup {α : Type} {m : ByProvider α} {p : Text} {v : α}
    (h : m.lookup p = some v) : readKey m p = .ok v := by
  unfold readKey
  rw [h]

/-! ## what the accumulators hold -/

/-- the accumulators after the adjudications `as` of the first spans -/
structure Progress.Tracks (sourceMap : ByProvider Text) (total : Nat) (st : Progress)
    (as : List Adjudication) : Prop where
  parts : st.parts = as.map Adjudication.part
  atomsParts : st.atomsParts = as.filterMap Adjudication.judged
  discarded : st.discarded =
    as.map Adjudication.discarded ++ List.replicate (total - as.length) false
  claimed : ∀ p, st.claimed.lookup p =
    if p ∈ sourceMap then some (claimsOf p (claimsMade as)) else none
  prevStart : ∀ p, (st.prevStart.lookup p).getD (-1) =
    ((Compose.prevStart p (claimsMade as)).map Int.ofNat).getD (-1)
  appliedSpans : st.appliedSpans = (as.filter Adjudication.applied).length
  rejectedSpans : st.rejectedSpans = (spanSummaryOf as).rejected
  firstRejection : st.firstRejection = (as.filterMap Adjudication.rejection).head?.map Prod.fst

/-- one more adjudication -/
def Progress.record (st : Progress) (index : Nat) (a : Adjudication) : Progress :=
  { parts := st.parts ++ [a.part]
    atomsParts := st.atomsParts ++ a.judged.toList
    discarded := if a.discarded then st.discarded.set index true else st.discarded
    claimed :=
      match a.claim with
      | none => st.claimed
      | some c =>
        st.claimed.insert c.provider ((st.claimed.lookup c.provider).getD [] ++ [c.range])
    prevStart :=
      match a.claim with
      | none => st.prevStart
      | some c => st.prevStart.insert c.provider c.range.start
    appliedSpans := st.appliedSpans + if a.applied then 1 else 0
    rejectedSpans := st.rejectedSpans ++ (a.rejection.map fun r => ⟨index, r.2⟩).toList
    firstRejection := st.firstRejection.or (a.rejection.map Prod.fst) }

section
variable {sourceMap : ByProvider Text} {total : Nat} {st : Progress} {as : List Adjudication}

theorem Progress.start_tracks (sourceMap : ByProvider Text) (total : Nat) :
    (Progress.start sourceMap total).Tracks sourceMap total [] :=
  { parts := rfl
    atomsParts := rfl
    discarded := rfl
    claimed := by
      intro p
      show (constMap sourceMap.keys []).lookup p = _
      rw [lookup_constMap]
      by_cases h : p ∈ sourceMap
      · rw [if_pos h, if_pos (AList.mem_keys.mp h)]
        rfl
      · rw [if_neg h, if_neg (mt AList.mem_keys.mpr h)]
    prevStart := by
      intro p
      show ((constMap sourceMap.keys (-1)).lookup p).getD (-1) = _
      rw [lookup_constMap]
      split <;> rfl
    appliedSpans := rfl
    rejectedSpans := rfl
    firstRejection := rfl }

/-! ## one more adjudication -/

theorem claimsMade_snoc (as : List Adjudication) (a : Adjudication) :
    claimsMade (as ++ [a]) = claimsMade as ++ a.claim.toList := by
  unfold claimsMade
  rw [List.filterMap_append]
  cases h : a.claim <;> simp [h]

theorem claimsOf_snoc (p : Text) (claimed : List Claim) (c : Claim) :
    claimsOf p (claimed ++ [c]) =
      if c.provider = p then claimsOf p claimed ++ [c.range] else claimsOf p claimed := by
  unfold claimsOf
  rw [List.filter_append, List.map_append]
  by_cases h : c.provider = p
  · simp [h]
  · simp [h]

theorem spanSummaryOf_snoc (as : List Adjudication) (a : Adjudication) :
    (spanSummaryOf (as ++ [a])).rejected =
      (spanSummaryOf as).rejected ++ (a.rejection.map fun r => ⟨as.length, r.2⟩).toList := by
  show ((as ++ [a]).zipIdx).filterMap _ = _
  rw [List.zipIdx_append, List.filterMap_append, Nat.zero_add]
  show _ = (as.zipIdx).filterMap _ ++ _
  congr 1

/-- **one more adjudication is recorded by every accumulator** -/
theorem Progress.Tracks.record (h : st.Tracks sourceMap total as) (hlt : as.length < total)
    {a : Adjudication} (hclaim : ∀ c, a.claim = some c → c.provider ∈ sourceMap) :
    (st.record as.length a).Tracks sourceMap total (as ++ [a]) := by
  refine ⟨?_, ?_, ?_, ?_, ?_, ?_, ?_, ?_⟩
  · show st.parts ++ [a.part] = _
    rw [h.parts, List.map_append]
    rfl
  · show st.atomsParts ++ a.judged.toList = _
    rw [h.atomsParts, List.filterMap_append]
    cases hj : a.judged <;> simp [hj]
  · obtain ⟨n, hn⟩ : ∃ n, total - as.length = n + 1 := ⟨total - as.length - 1, by omega⟩
    have hn' : total - (as ++ [a]).length = n := by
      rw [List.length_append, List.length_singleton]
      omega
    show (if a.discarded = true then st.discarded.set as.length true else st.discarded) = _
    rw [h.discarded, hn, hn', List.map_append, List.append_assoc, List.replicate_succ]
    cases hd : a.discarded with
    | false =>
      rw [if_neg Bool.false_ne_true]
      simp [hd]
    | true =>
      rw [if_pos rfl, List.set_append_right _ _ (by simp)]
      simp [hd]
  · intro p
    rw [claimsMade_snoc]
    show AList.lookup p (match a.claim with
      | none => st.claimed
      | some c => st.claimed.insert c.provider
          ((st.claimed.lookup c.provider).getD [] ++ [c.range])) = _
    cases hc : a.claim with
    | none => simpa using h.claimed p
    | some c =>
      have hmem := hclaim c hc
      show AList.lookup p (st.claimed.insert c.provider _) = if p ∈ sourceMap then
        some (claimsOf p (claimsMade as ++ [c])) else none
      rw [claimsOf_snoc]
      by_cases hp : p = c.provider
      · subst hp
        rw [AList.lookup_insert, h.claimed, if_pos hmem, if_pos hmem, if_pos rfl]
        rfl
      · rw [AList.lookup_insert_ne hp, h.claimed, if_neg (Ne.symm hp)]
  · intro p
    rw [claimsMade_snoc]
    show (AList.lookup p (match a.claim with
      | none => st.prevStart
      | some c => st.prevStart.insert c.provider (c.range.start : Int))).getD (-1) = _
    cases hc : a.claim with
    | none => simpa using h.prevStart p
    | some c =>
      show (AList.lookup p (st.prevStart.insert c.provider _)).getD (-1) =
        (((claimsOf p (claimsMade as ++ [c])).getLast?.map Range.start).map Int.ofNat).getD (-1)
      rw [claimsOf_snoc]
      by_cases hp : p = c.provider
      · subst hp
        rw [AList.lookup_insert, if_pos rfl, List.getLast?_concat]
        rfl
      · rw [AList.lookup_insert_ne hp, if_neg (Ne.symm hp)]
        exact h.prevStart p
  · show st.appliedSpans + (if a.applied = true then 1 else 0) = _
    rw [h.appliedSpans, List.filter_append, List.length_append]
    congr 1
    cases ha : a.applied <;> simp [ha]
  · show st.rejectedSpans ++ _ = _
    rw [h.rejectedSpans, spanSummaryOf_snoc]
  · show st.firstRejection.or (a.rejection.map Prod.fst) = _
    rw [h.firstRejection, List.filterMap_append, List.head?_append]
    cases hr : a.rejection <;> cases (as.filterMap Adjudication.rejection).head? <;> simp [hr]

/-! ## one iteration -/

theorem mem_providerTextMap {sources : List ComposeSource} {p text : Text}
    (h : providerText sources p = some text) : p ∈ providerTextMap sources := by
  rw [← AList.lookup_isSome, lookup_providerTextMap, h]
  rfl

theorem placeInSource_eq {sources : List ComposeSource}
    (h : st.Tracks (providerTextMap sources) total as) (provider sourceText : Text) :
    placeInSource (providerTextMap sources) st.claimed st.prevStart provider sourceText =
      .ok (placeSpan (providerText sources provider) (claimsMade as) provider sourceText) := by
  unfold placeInSource placeSpan
  rw [lookup_providerTextMap]
  cases hs : providerText sources provider with
  | none => rfl
  | some hay =>
    have hclaimed := h.claimed provider
    rw [if_pos (mem_providerTextMap hs)] at hclaimed
    have hprev := h.prevStart provider
    dsimp only
    rw [searchLiteralSpans_ok, hclaimed, hprev]
    split
    · rfl
    dsimp only [bind, Except.bind, Option.getD_some]
    cases ((findLiteralSpans hay sourceText).insertionSort fun a b => a.start ≤ b.start).find?
      fun cand => !(claimsOf provider (claimsMade as)).any fun used => rangesOverlap cand used with
    | none => rfl
    | some range =>
      show Except.ok _ = Except.ok _
      congr 1
      cases Compose.prevStart provider (claimsMade as) with
      | none =>
        have hneg : ¬ (range.start : Int) < -1 := by omega
        simp [hneg]
      | some prev => simp

theorem foundInSource_eq (input : ComposeInput) (span : DerivationSpan) :
    foundInSource (providerTextMap input.sources) span = .ok (findable input span) := by
  unfold foundInSource findable
  rw [lookup_providerTextMap]
  cases h : providerText input.sources span.provider with
  | none => rfl
  | some text =>
    rw [readKey_of_lookup (by rw [lookup_providerTextMap, h])]
    rfl

theorem Progress.Tracks.discard_eq (h : st.Tracks sourceMap total as) (hlt : as.length < total)
    (reject : Reject) (reason : ComposeErrorCode) :
    (st.noteRejection as.length reject reason).discard as.length =
      .ok { st.noteRejection as.length reject reason with
        discarded := st.discarded.set as.length true } := by
  unfold Progress.discard
  rw [if_pos]
  · rfl
  · show as.length < st.discarded.length
    rw [h.discarded]
    simp
    omega

theorem dropStep_eq (h : st.Tracks sourceMap total as) (hlt : as.length < total) :
    dropStep st as.length = .ok (st.record as.length .dropUnverifiable) := by
  unfold dropStep
  rw [h.discard_eq hlt]
  simp [Progress.record, Adjudication.dropUnverifiable, Adjudication.applied,
    Progress.noteRejection, Progress.pushPart, pure, Except.pure, bind, Except.bind]

theorem Progress.Tracks.pushClaim_eq (h : st.Tracks sourceMap total as) {p : Text}
    (hp : p ∈ sourceMap) {st' : Progress} (hst : st'.claimed = st.claimed) (range : Range) :
    st'.pushClaim p range = .ok { st' with
      claimed := st.claimed.insert p ((st.claimed.lookup p).getD [] ++ [range])
      prevStart := st'.prevStart.insert p range.start } := by
  unfold Progress.pushClaim
  have hl := h.claimed p
  rw [if_pos hp] at hl
  rw [hst, readKey_of_lookup hl, hl]
  rfl

theorem breakStep_eq (candidate : StructuredCandidate) (h : st.Tracks sourceMap total as)
    (hlt : as.length < total) (span : DerivationSpan) :
    breakStep candidate st as.length span =
      (orReject (adjudicateBreak candidate span)).map (st.record as.length) := by
  unfold breakStep adjudicateBreak
  cases hl : isLayoutText span.outputText with
  | false =>
    rw [dropStep_eq h hlt]
    rfl
  | true =>
    simp only [Bool.not_true, Bool.false_eq_true, if_false, if_true]
    cases require (!(clearNatural candidate.layout && isMultiparagraphText span.outputText))
        .unsafeSemantics [.unsafeSemantics] with
    | error r => rfl
    | ok u =>
      simp [Progress.record, Adjudication.apply, Adjudication.applied, Progress.pushPart,
        Progress.pushAtoms, Progress.countApplied, pure, Except.pure, bind, Except.bind, orReject,
        Except.mapError, Except.map]

theorem protectStep_eq {input : ComposeInput}
    (h : st.Tracks (providerTextMap input.sources) total as) (hlt : as.length < total)
    (span : DerivationSpan) :
    protectStep (providerTextMap input.sources) st as.length span =
      .ok (st.record as.length (match placementOf input (claimsMade as) span with
        | .placed range => .dropProtected (some (span.sourceText, ⟨span.provider, range⟩))
        | .overlapped | .outOfOrder => .dropProtected none)) := by
  have hplace := placeInSource_eq h span.provider span.sourceText
  unfold protectStep
  rw [h.discard_eq hlt]
  dsimp only [bind, Except.bind]
  rw [Progress.noteRejection_claimed, Progress.noteRejection_prevStart, hplace]
  unfold placementOf
  cases hpl : placeSpan (providerText input.sources span.provider) (claimsMade as) span.provider
      span.sourceText with
  | placed range =>
    obtain ⟨hay, hs, -, -, -⟩ := placeSpan_spec hpl
    dsimp only
    rw [h.pushClaim_eq (mem_providerTextMap hs) ?_]
    · simp [Progress.record, Adjudication.dropProtected, Adjudication.applied,
        Progress.noteRejection, Progress.pushPart, pure, Except.pure]
    · rfl
  | overlapped =>
    simp [Progress.record, Adjudication.dropProtected, Adjudication.applied,
      Progress.noteRejection, Progress.pushPart, pure, Except.pure]
  | outOfOrder =>
    simp [Progress.record, Adjudication.dropProtected, Adjudication.applied,
      Progress.noteRejection, Progress.pushPart, pure, Except.pure]

theorem placeStep_eq {input : ComposeInput}
    (h : st.Tracks (providerTextMap input.sources) total as) (span : DerivationSpan) :
    placeStep (providerTextMap input.sources) st as.length span =
      (orReject (match placementOf input (claimsMade as) span with
        | .outOfOrder => .error ⟨some .unverifiableSourceDerivation, [.unverifiable]⟩
        | .overlapped => .ok (.dropOverlapped span.outputText)
        | .placed range => .ok (.apply span.outputText (some ⟨span.provider, range⟩)))).map
        (st.record as.length) := by
  unfold placeStep placementOf
  rw [placeInSource_eq h]
  cases hpl : placeSpan (providerText input.sources span.provider) (claimsMade as) span.provider
      span.sourceText with
  | placed range =>
    obtain ⟨hay, hs, -, -, -⟩ := placeSpan_spec hpl
    dsimp only [bind, Except.bind, orPanic, Except.mapError]
    rw [h.pushClaim_eq (mem_providerTextMap hs) rfl]
    simp [Progress.record, Adjudication.apply, Adjudication.applied, Progress.pushPart,
      Progress.pushAtoms, Progress.countApplied, pure, Except.pure, orReject, Except.mapError,
      Except.map]
  | overlapped =>
    simp [Progress.record, Adjudication.dropOverlapped, Adjudication.applied,
      Progress.noteRejection, Progress.pushPart, Progress.pushAtoms, pure, Except.pure, bind,
      Except.bind, orPanic, orReject, Except.mapError, Except.map]
  | outOfOrder => rfl

/-- **an iteration does to the accumulators what its adjudication says** -/
theorem spanStep_eq {input : ComposeInput} (candidate : StructuredCandidate)
    (h : st.Tracks (providerTextMap input.sources) total as) (hlt : as.length < total)
    (span : DerivationSpan) :
    spanStep input candidate (providerTextMap input.sources) st as.length span =
      (orReject (adjudicate input candidate (claimsMade as) span)).map (st.record as.length) := by
  unfold spanStep adjudicate
  split
  · exact breakStep_eq candidate h hlt span
  unfold consumingStep adjudicateConsuming
  rw [foundInSource_eq]
  cases hf : findable input span with
  | false =>
    dsimp only [bind, Except.bind, orPanic, Except.mapError]
    rw [dropStep_eq h hlt]
    rfl
  | true =>
    dsimp only [bind, Except.bind, orPanic, Except.mapError]
    simp only [Bool.not_true, Bool.false_eq_true, if_false, if_true]
    cases hk : checkKind candidate span span.provider with
    | error r => rfl
    | ok u =>
      dsimp only [orReject, Except.mapError]
      unfold adjudicatePlaced
      cases hp : spanPreservesProtectedTokens span input.protectedTokens with
      | false =>
        simp only [Bool.not_false, if_true, Bool.false_eq_true, if_false]
        rw [protectStep_eq h hlt]
        cases placementOf input (claimsMade as) span <;> rfl
      | true =>
        simp only [Bool.not_true, if_true, Bool.false_eq_true, if_false]
        exact placeStep_eq h span

/-- a claim is made on a provider of the source map -/
theorem adjudicate_provider {input : ComposeInput} {candidate : StructuredCandidate}
    {claimed : List Claim} {span : DerivationSpan} {a : Adjudication}
    (h : adjudicate input candidate claimed span = .ok a) {c : Claim} (hc : a.claim = some c) :
    c.provider ∈ providerTextMap input.sources := by
  have hplaced : ∀ range, placementOf input claimed span = .placed range →
      span.provider ∈ providerTextMap input.sources := by
    intro range hpl
    obtain ⟨hay, hs, -, -, -⟩ := placeSpan_spec hpl
    exact mem_providerTextMap hs
  cases adjudicate_ok h with
  | malformedBreak hk hl => cases hc
  | layout hk hl => cases hc
  | unfindable hk hf => cases hc
  | protectedKept hk hf hp range hpl =>
    obtain rfl := Option.some.inj hc
    exact hplaced range hpl
  | protectedLost hk hf hp hpl => cases hc
  | overlapped hk hf hp hpl => cases hc
  | placed hk hf hp hcheck range hpl =>
    obtain rfl := Option.some.inj hc
    exact hplaced range hpl

/-- **the loop does to the accumulators what the walk says** -/
theorem spanLoop_walk {input : ComposeInput} {candidate : StructuredCandidate}
    {spans : List DerivationSpan} (h : st.Tracks (providerTextMap input.sources) total as)
    (hlen : as.length + spans.length = total) :
    match walk input candidate (claimsMade as) spans with
    | .error r =>
      spanLoop input candidate (providerTextMap input.sources) as.length st spans =
        .error (.reject r)
    | .ok rest => ∃ st',
      spanLoop input candidate (providerTextMap input.sources) as.length st spans = .ok st' ∧
        st'.Tracks (providerTextMap input.sources) total (as ++ rest) := by
  induction spans generalizing st as with
  | nil => exact ⟨st, rfl, by rw [List.append_nil]; exact h⟩
  | cons span spans ih =>
    rw [List.length_cons] at hlen
    have hstep := spanStep_eq candidate h (by omega) span
    unfold spanLoop walk
    rw [hstep]
    cases ha : adjudicate input candidate (claimsMade as) span with
    | error r => rfl
    | ok a =>
      have hrec := h.record (by omega) (a := a) fun c hc => adjudicate_provider ha hc
      have hnext := ih hrec (by rw [List.length_append, List.length_singleton]; omega)
      rw [claimsMade_snoc, List.length_append, List.length_singleton] at hnext
      dsimp only [bind, Except.bind, orReject, Except.mapError, Except.map]
      cases hw : walk input candidate (claimsMade as ++ a.claim.toList) spans with
      | error r =>
        rw [hw] at hnext
        exact hnext
      | ok rest =>
        rw [hw] at hnext
        obtain ⟨st', h1, h2⟩ := hnext
        exact ⟨st', h1, by rw [List.append_assoc] at h2; exact h2⟩

/-! ## coverage -/

theorem anyM_ok {α : Type} {f : α → Except Trap Bool} {g : α → Bool} {l : List α}
    (h : ∀ a ∈ l, f a = .ok (g a)) : l.anyM f = .ok (l.any g) := by
  induction l with
  | nil => rfl
  | cons a l ih =>
    rw [List.anyM, h a List.mem_cons_self, List.any_cons]
    have hrest := ih fun b hb => h b (List.mem_cons_of_mem a hb)
    cases hg : g a with
    | true => rfl
    | false => exact hrest

theorem getElem?_marks (ranges : List Range) (flags : List Bool) (k : Nat) :
    (ranges.foldl markRange flags)[k]? = (flags[k]?).map fun flag => flag || covers ranges k := by
  induction ranges generalizing flags with
  | nil =>
    show flags[k]? = _
    cases flags[k]? <;> simp [covers]
  | cons r ranges ih =>
    rw [List.foldl_cons, ih, markRange, List.getElem?_mapIdx]
    cases flags[k]? <;> simp [covers, Bool.or_assoc]

theorem uncovered_chars {ranges : List Range} {n : Nat} {a s : Text}
    (hn : byteLen a + byteLen s = n) :
    ((charIndices (byteLen a) s).anyM fun p =>
      if isWhitespace p.2 then .ok false
      else (indexOf (ranges.foldl markRange (List.replicate n false)) p.1).map fun flag => !flag) =
      .ok (!coveredFrom ranges (byteLen a) s) := by
  induction s generalizing a with
  | nil => rfl
  | cons c s ih =>
    have hc := ByteSized.size_pos c
    rw [byteLen_cons] at hn
    have hnext : byteLen a + ByteSized.size c = byteLen (a ++ [c]) := by
      rw [byteLen_append]
      rfl
    have hih := @ih (a ++ [c]) (by rw [← hnext]; omega)
    rw [← hnext] at hih
    have hflag : indexOf (ranges.foldl markRange (List.replicate n false)) (byteLen a) =
        .ok (covers ranges (byteLen a)) := by
      unfold indexOf
      rw [getElem?_marks, List.getElem?_replicate, if_pos (by omega)]
      rfl
    rw [charIndices, List.anyM]
    dsimp only
    rw [hflag]
    unfold coveredFrom
    cases isWhitespace c with
    | true => exact hih
    | false =>
      cases hcov : covers ranges (byteLen a) with
      | true => exact hih
      | false => rfl

theorem uncoveredIn_ok {m : ByProvider Text} {claimed : ByProvider (List Range)} {p text : Text}
    {ranges : List Range} (ht : m.lookup p = some text) (hr : claimed.lookup p = some ranges) :
    uncoveredIn m claimed p = .ok (!coveredFrom ranges 0 text) := by
  unfold uncoveredIn
  rw [readKey_of_lookup ht]
  dsimp only [bind, Except.bind]
  cases text with
  | nil => rfl
  | cons c s =>
    rw [readKey_of_lookup hr]
    exact @uncovered_chars ranges (byteLen (c :: s)) [] (c :: s) (Nat.zero_add _)

/-- only the two providers have a source -/
theorem provider_of_text {sources : List ComposeSource} {p text : Text}
    (h : providerText sources p = some text) : ∃ q : SttProvider, q.asStr = p := by
  unfold providerText at h
  obtain ⟨s, hs, -⟩ := Option.map_eq_some_iff.mp h
  exact ⟨s.provider, by simpa using List.find?_some hs⟩

theorem Progress.Tracks.coverage_eq {input : ComposeInput}
    (h : st.Tracks (providerTextMap input.sources) total as) :
    coverageFailureIn (providerTextMap input.sources) st.claimed
        input.sourceSelection.selectedProvider.asStr =
      .ok (coverageFailure input (claimsMade as)) := by
  have hlookup := lookup_providerTextMap input.sources
  have hclaimed : ∀ p text, providerText input.sources p = some text →
      st.claimed.lookup p = some (claimsOf p (claimsMade as)) := by
    intro p text hp
    rw [h.claimed, if_pos (mem_providerTextMap hp)]
  have hentry : ∀ e ∈ st.claimed.entries, ∃ text, providerText input.sources e.1 = some text ∧
      e.2 = claimsOf e.1 (claimsMade as) := by
    intro e he
    have hl : st.claimed.lookup e.1 = some e.2 := AList.mem_lookup_iff.mpr he
    rw [h.claimed] at hl
    split at hl
    · rename_i hmem
      rw [← AList.lookup_isSome, hlookup] at hmem
      obtain ⟨text, ht⟩ := Option.isSome_iff_exists.mp hmem
      exact ⟨text, ht, (Option.some.inj hl).symm⟩
    · cases hl
  unfold coverageFailureIn
  dsimp only
  rw [anyM_ok (g := fun p => (providerText input.sources p).any fun text =>
    !coveredFrom (claimsOf p (claimsMade as)) 0 text)]
  · congr 1
    rw [Bool.eq_iff_iff]
    unfold coverageFailure
    rw [List.any_eq_true, List.any_eq_true]
    constructor
    · rintro ⟨p, hp, hbad⟩
      cases ht : providerText input.sources p with
      | none =>
        rw [ht] at hbad
        cases hbad
      | some text =>
        rw [ht] at hbad
        obtain ⟨q, rfl⟩ := provider_of_text ht
        refine ⟨q, by cases q <;> simp, ?_⟩
        rw [ht]
        rw [Option.any_some] at hbad
        dsimp only
        rw [hbad, Bool.and_true, Bool.or_eq_true]
        rcases List.mem_append.mp hp with hp | hp
        · split at hp
          · have hq := List.mem_singleton.mp hp
            left
            cases q <;> cases hs : input.sourceSelection.selectedProvider <;>
              first | rfl | (rw [hs] at hq; exact absurd hq (by decide))
          · cases hp
        · obtain ⟨e, he, hf⟩ := List.mem_filterMap.mp hp
          obtain ⟨text', -, he2⟩ := hentry e he
          split at hf
          · cases hf
          · rename_i hne
            right
            rw [← Option.some.inj hf, ← he2]
            simpa using hne
    · rintro ⟨q, -, hbad⟩
      cases ht : providerText input.sources q.asStr with
      | none =>
        rw [ht] at hbad
        cases hbad
      | some text =>
        rw [ht] at hbad
        obtain ⟨hwhy, hbad⟩ := Bool.and_eq_true_iff.mp hbad
        refine ⟨q.asStr, List.mem_append.mpr ?_, by rw [ht]; exact hbad⟩
        rcases Bool.or_eq_true_iff.mp hwhy with hq | hq
        · left
          obtain rfl : q = input.sourceSelection.selectedProvider := by simpa using hq
          rw [hlookup, ht]
          exact List.mem_singleton.mpr rfl
        · right
          refine List.mem_filterMap.mpr ⟨⟨q.asStr, claimsOf q.asStr (claimsMade as)⟩,
            AList.mem_lookup_iff.mp (hclaimed _ text ht), ?_⟩
          dsimp only
          rw [if_neg (by simpa using hq)]
  · intro p hp
    have hex : ∃ text, providerText input.sources p = some text := by
      rcases List.mem_append.mp hp with hp | hp
      · split at hp
        · rename_i hs
          rw [hlookup] at hs
          rw [List.mem_singleton.mp hp]
          exact Option.isSome_iff_exists.mp hs
        · cases hp
      · obtain ⟨e, he, hf⟩ := List.mem_filterMap.mp hp
        obtain ⟨text, ht, -⟩ := hentry e he
        split at hf
        · cases hf
        · rw [← Option.some.inj hf]
          exact ⟨text, ht⟩
    obtain ⟨text, ht⟩ := hex
    rw [ht]
    exact uncoveredIn_ok (by rw [hlookup, ht]) (hclaimed p text ht)

/-! ## after the loop -/

theorem unmatchedOutput_ok {spans : List DerivationSpan} {as : List Adjudication}
    (hlen : spans.length = as.length) (pre : List Bool) :
    unmatchedOutput (pre ++ as.map Adjudication.discarded) pre.length spans =
      .ok (!(spans.zip as).all fun p => p.2.discarded || outputMatches p.1) := by
  induction spans generalizing as pre with
  | nil => rfl
  | cons span spans ih =>
    cases as with
    | nil => cases hlen
    | cons a as =>
      have hrest := ih (Nat.succ.inj hlen) (pre ++ [a.discarded])
      rw [List.append_assoc, List.length_append] at hrest
      unfold unmatchedOutput
      rw [List.map_cons, indexOf_append, List.zip_cons_cons, List.all_cons]
      dsimp only [bind, Except.bind]
      cases hd : a.discarded with
      | true =>
        rw [hd] at hrest
        exact hrest
      | false =>
        rw [hd] at hrest
        cases hm : outputMatches span with
        | true => exact hrest
        | false => rfl

theorem checkRendered_eq {input : ComposeInput} {candidate : StructuredCandidate}
    (h : st.Tracks sourceMap total as) (hany : as.any Adjudication.applied = true) :
    checkRendered input candidate as =
      checkText input candidate st.parts.flatten st.atomsParts.flatten := by
  have hcomposed : composedText as = st.parts.flatten := by
    unfold composedText
    rw [h.parts, List.flatMap_def]
  have hproposed : proposedText as = st.atomsParts.flatten := by
    unfold proposedText
    rw [h.atomsParts]
    clear h hany hcomposed
    induction as with
    | nil => rfl
    | cons a as ih =>
      rw [List.flatMap_cons, ih]
      cases hj : a.judged <;> simp [hj]
  unfold checkRendered checkText nothingApplied
  rw [hany, hcomposed, hproposed]
  rfl

theorem acceptRun_eq {input : ComposeInput} {candidate : StructuredCandidate}
    (h : st.Tracks (providerTextMap input.sources) total as)
    (hlen : candidate.derivation.length = as.length) (htotal : total = as.length) :
    acceptRun input candidate (providerTextMap input.sources) st st.parts.flatten =
      orReject (accept input candidate as) := by
  have hcomposed : composedText as = st.parts.flatten := by
    unfold composedText
    rw [h.parts, List.flatMap_def]
  have hdiscarded : st.discarded = as.map Adjudication.discarded := by
    rw [h.discarded, htotal, Nat.sub_self, List.replicate_zero, List.append_nil]
  have hmatch := unmatchedOutput_ok hlen []
  unfold acceptRun accept
  dsimp only
  rw [h.coverage_eq, hdiscarded, hcomposed]
  rw [List.nil_append, List.length_nil] at hmatch
  rw [hmatch, hlen, h.appliedSpans, h.rejectedSpans]
  cases require (holdsProtected input.protectedTokens st.parts.flatten) .unsafeSemantics
    [.protectedFact, .unsafeSemantics] with
  | error r => rfl
  | ok u =>
    dsimp only [bind, Except.bind, orReject, orPanic, Except.mapError]
    cases require (!coverageFailure input (claimsMade as)) .unverifiableSourceDerivation
      [.unverifiable] with
    | error r => rfl
    | ok v =>
      dsimp only
      rw [Bool.not_not]
      cases require ((candidate.derivation.zip as).all
        fun p => p.2.discarded || outputMatches p.1) .unsafeSemantics
        [.inventedContent, .unsafeSemantics] <;> rfl

/-- **with no applied span the first of them was rejected** -/
theorem firstRejection_of_none_applied {a : Adjudication} {rest : List Adjudication}
    (hany : (a :: rest).any Adjudication.applied = false) :
    ∃ r, a.rejection = some r := by
  rw [List.any_cons, Bool.or_eq_false_iff] at hany
  cases hr : a.rejection with
  | none =>
    have h := hany.1
    unfold Adjudication.applied at h
    rw [hr] at h
    cases h
  | some r => exact ⟨r, rfl⟩

theorem conclude_eq {input : ComposeInput} {candidate : StructuredCandidate}
    (h : st.Tracks (providerTextMap input.sources) total as) (hne : as ≠ [])
    (hlen : candidate.derivation.length = as.length) (htotal : total = as.length) :
    conclude input candidate (providerTextMap input.sources) st =
      orReject (settle input candidate as) := by
  have hcount : st.appliedSpans = 0 ↔ as.any Adjudication.applied = false := by
    rw [h.appliedSpans, List.length_eq_zero_iff, List.filter_eq_nil_iff, List.any_eq_false]
  unfold conclude settle
  cases hany : as.any Adjudication.applied with
  | false =>
    obtain ⟨a, rest, rfl⟩ := List.exists_cons_of_ne_nil hne
    obtain ⟨r, hr⟩ := firstRejection_of_none_applied hany
    have hfirst : st.firstRejection = some r.1 := by
      rw [h.firstRejection, List.filterMap_cons, hr]
      rfl
    have hnothing : nothingApplied (a :: rest) = some r.1 := by
      unfold nothingApplied
      rw [hany, List.filterMap_cons, hr]
      rfl
    rw [if_pos (hcount.mpr hany), hfirst]
    unfold checkRendered
    rw [hnothing]
    rfl
  | true =>
    rw [if_neg (by rw [hcount, hany]; decide), checkRendered_eq h hany]
    dsimp only
    cases checkText input candidate st.parts.flatten st.atomsParts.flatten with
    | error r => rfl
    | ok u =>
      dsimp only [bind, Except.bind, orReject, Except.mapError]
      split
      · rfl
      split
      · rfl
      exact acceptRun_eq h hlen htotal

end

/-! ## the run -/

theorem admitCandidate_shape {digest : Digest} {input : ComposeInput}
    {candidate : StructuredCandidate} (h : admitCandidate digest input = .ok candidate) :
    validateCandidateShape candidate = none := by
  unfold admitCandidate at h
  obtain ⟨_, -, h⟩ := bind_eq_ok h
  split at h
  · cases h
  rename_i c hc
  obtain ⟨_, -, h⟩ := bind_eq_ok h
  obtain ⟨_, hshape, h⟩ := bind_eq_ok h
  obtain ⟨_, -, h⟩ := bind_eq_ok h
  obtain ⟨_, -, h⟩ := bind_eq_ok h
  obtain ⟨_, -, h⟩ := bind_eq_ok h
  obtain ⟨_, -, h⟩ := bind_eq_ok h
  obtain ⟨_, -, h⟩ := bind_eq_ok h
  obtain rfl := Except.ok.inj h
  exact Option.map_eq_none_iff.mp (refuse_ok hshape)

/-- a candidate in shape has a span -/
theorem derivation_ne_nil {candidate : StructuredCandidate}
    (h : validateCandidateShape candidate = none) : candidate.derivation ≠ [] := by
  intro hnil
  have hbad : candidateMalformed candidate = true := by
    unfold candidateMalformed
    rw [hnil]
    simp
  unfold validateCandidateShape at h
  split at h
  · cases h
  split at h
  · cases h
  cases h

theorem Walked.length_eq {input : ComposeInput} {candidate : StructuredCandidate}
    {claimed : List Claim} {spans : List DerivationSpan} {as : List Adjudication}
    (h : Walked input candidate claimed spans as) : spans.length = as.length := by
  induction h with
  | nil claimed => rfl
  | cons h hw ih => rw [List.length_cons, List.length_cons, ih]

/-- **the run does not panic, and its outcome is the gate's** -/
theorem composeRun_ok (digest : Digest) (input : ComposeInput) :
    composeRun digest input = .ok (composeImpl digest input) := by
  unfold composeRun composeImpl composeSteps composeChecks
  cases hadmit : admitCandidate digest input with
  | error r => rfl
  | ok candidate =>
    have hstart := Progress.start_tracks (providerTextMap input.sources)
      candidate.derivation.length
    have hwalk := @spanLoop_walk _ _ _ input candidate candidate.derivation hstart (Nat.zero_add _)
    dsimp only [bind, Except.bind, orReject, Except.mapError]
    cases hw : walk input candidate [] candidate.derivation with
    | error r =>
      rw [show claimsMade [] = [] from rfl, hw] at hwalk
      rw [show spanLoop input candidate _ 0 _ candidate.derivation = _ from hwalk]
    | ok as =>
      rw [show claimsMade [] = [] from rfl, hw] at hwalk
      obtain ⟨st, hloop, htracks⟩ := hwalk
      rw [List.nil_append] at htracks
      have hlen := (walk_ok hw).length_eq
      have hne : as ≠ [] := by
        intro h0
        rw [h0] at hlen
        exact derivation_ne_nil (admitCandidate_shape hadmit) (List.length_eq_zero_iff.mp hlen)
      rw [show spanLoop input candidate _ 0 _ candidate.derivation = _ from hloop]
      dsimp only
      rw [conclude_eq htracks hne hlen hlen]
      cases settle input candidate as <;> rfl

/-- **occurrences lie between characters and spell the needle, and neither the search nor the gate
panics** -/
theorem composeGate_noPanic :
    (∀ haystack needle : Text, ∃ out, searchLiteralSpans haystack needle = .ok out ∧
      ∀ r ∈ out, isBoundary r.start haystack = true ∧ isBoundary r.stop haystack = true ∧
        ∃ m, slice r.start r.stop haystack = some m ∧ SpellsAs needle m) ∧
    ∀ (digest : Digest) (input : ComposeInput),
      composeRun digest input = .ok (composeImpl digest input) := by
  refine ⟨fun haystack needle => ⟨_, searchLiteralSpans_ok haystack needle, ?_⟩, composeRun_ok⟩
  intro r hr
  obtain ⟨a, m, b, rfl, rfl, -, hspells⟩ := findLiteralSpans_spec hr
  refine ⟨?_, ?_, m, slice_append a m b, hspells⟩
  · rw [List.append_assoc]
    exact isBoundary_append a (m ++ b)
  · show isBoundary (byteLen a + byteLen m) (a ++ m ++ b) = true
    rw [← byteLen_append]
    exact isBoundary_append (a ++ m) b

end Voisu.Compose
