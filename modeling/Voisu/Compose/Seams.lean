import Mathlib
import Voisu.Compose.Atoms
import Voisu.Compose.Licence

/-!
# Candidates that only keep words

The claims on a source ascend, and an accepted candidate leaves only whitespace between them.  A
candidate of keeps and breaks therefore renders the words of its source, unless two pieces are glued
in the rendering and not in the source, or the other way round.

* `Ascending`        the claims on one source, in order and apart;
* `Laid`             a source as claimed pieces with whitespace between them;
* `seamAgrees`       a span is glued to the text rendered so far as its piece is in the source;
* `composeImpl_keepsWords`   the words of a keep-only candidate.
-/

namespace Voisu.Compose
open Lib

/-! ## claims on one source -/

/-- non-empty pieces of the source, one behind the other -/
structure Ascending (source : Text) (ranges : List Range) : Prop where
  pairwise : ranges.Pairwise fun a b => a.stop ≤ b.start
  pieces : ∀ r ∈ ranges, ∃ a m b, source = a ++ m ++ b ∧
    r = ⟨byteLen a, byteLen a + byteLen m⟩ ∧ m ≠ []

theorem Ascending.nil (source : Text) : Ascending source [] :=
  ⟨List.Pairwise.nil, fun r hr => by cases hr⟩

theorem Ascending.lt {source : Text} {ranges : List Range} (h : Ascending source ranges)
    {r : Range} (hr : r ∈ ranges) : r.start < r.stop := by
  obtain ⟨a, m, b, -, rfl, hm⟩ := h.pieces r hr
  have := byteLen_pos hm
  show byteLen a < byteLen a + byteLen m
  omega

/-- a free range that starts no earlier than the last claim starts behind all of them -/
theorem Ascending.concat {source : Text} {ranges : List Range} (h : Ascending source ranges)
    {a m b : Text} {r : Range} (hs : source = a ++ m ++ b)
    (hr : r = ⟨byteLen a, byteLen a + byteLen m⟩) (hm : m ≠ [])
    (hfree : ∀ used ∈ ranges, rangesOverlap r used = false)
    (hprev : ∀ prev, ranges.getLast?.map Range.start = some prev → prev ≤ r.start) :
    Ascending source (ranges ++ [r]) := by
  have hlt : r.start < r.stop := by
    have := byteLen_pos hm
    rw [hr]
    show byteLen a < byteLen a + byteLen m
    omega
  refine ⟨?_, ?_⟩
  · rw [List.pairwise_append]
    refine ⟨h.pairwise, List.pairwise_singleton _ _, ?_⟩
    intro x hx y hy
    obtain rfl := List.mem_singleton.mp hy
    obtain ⟨init, last, rfl⟩ : ∃ init last, ranges = init ++ [last] := by
      rcases List.eq_nil_or_concat ranges with h0 | ⟨init, last, h0⟩
      · rw [h0] at hx
        cases hx
      · exact ⟨init, last, by rw [h0, List.concat_eq_append]⟩
    have h1 := hprev last.start (by rw [List.getLast?_concat]; rfl)
    have h2 := hfree last (by simp)
    have h3 : last.stop ≤ y.start := by
      simp only [rangesOverlap, Bool.and_eq_false_iff, decide_eq_false_iff_not] at h2
      omega
    rcases List.mem_append.mp hx with hx | hx
    · have h4 := (List.pairwise_append.mp h.pairwise).2.2 x hx last (by simp)
      have h5 := h.lt (r := last) (by simp)
      omega
    · obtain rfl := List.mem_singleton.mp hx
      exact h3
  · intro x hx
    rcases List.mem_append.mp hx with hx | hx
    · exact h.pieces x hx
    · obtain rfl := List.mem_singleton.mp hx
      exact ⟨a, m, b, hs, hr, hm⟩

section
variable {input : ComposeInput} {candidate : StructuredCandidate} {source : Text} {provider : Text}

theorem claimsOf_append (provider : Text) (c d : List Claim) :
    claimsOf provider (c ++ d) = claimsOf provider c ++ claimsOf provider d := by
  unfold claimsOf
  rw [List.filter_append, List.map_append]

theorem spanClaim_placement {claimed : List Claim} {span : DerivationSpan} {claim : Claim}
    (h : spanClaim input claimed span = some claim) :
    claim.provider = span.provider ∧ placementOf input claimed span = .placed claim.range := by
  unfold spanClaim at h
  split at h
  · cases h
  · obtain ⟨range, hr, rfl⟩ := Option.map_eq_some_iff.mp h
    cases hpl : placementOf input claimed span with
    | placed r =>
      rw [hpl] at hr
      obtain rfl := Option.some.inj hr
      exact ⟨rfl, rfl⟩
    | overlapped => rw [hpl] at hr; cases hr
    | outOfOrder => rw [hpl] at hr; cases hr

/-- a step keeps the claims on a source ascending -/
theorem Ascending.step (hsrc : providerText input.sources provider = some source)
    {claimed : List Claim} {span : DerivationSpan}
    (h : Ascending source (claimsOf provider claimed)) :
    Ascending source
      (claimsOf provider (claimed ++ (spanClaim input claimed span).toList)) := by
  cases hc : spanClaim input claimed span with
  | none => simpa using h
  | some claim =>
    obtain ⟨hp, hpl⟩ := spanClaim_placement hc
    rw [claimsOf_append]
    by_cases hprov : claim.provider = provider
    · have hspan : span.provider = provider := by rw [← hp, hprov]
      unfold placementOf at hpl
      rw [hspan, hsrc] at hpl
      obtain ⟨hay, hhay, hmem, hfree, hprev⟩ := placeSpan_spec hpl
      obtain rfl := Option.some.inj hhay
      obtain ⟨a, m, b, hs, hr, hm, -⟩ := findLiteralSpans_spec hmem
      have hone : claimsOf provider (some claim).toList = [claim.range] := by
        simp [claimsOf, hprov]
      rw [hone]
      exact h.concat hs hr hm hfree hprev
    · have hone : claimsOf provider (some claim).toList = [] := by
        simp [claimsOf, hprov]
      rw [hone, List.append_nil]
      exact h

/-- **the claims of a walk ascend** -/
theorem Walked.ascending (hsrc : providerText input.sources provider = some source)
    {claimed : List Claim} {spans : List DerivationSpan} {as : List Adjudication}
    (hw : Walked input candidate claimed spans as)
    (h : Ascending source (claimsOf provider claimed)) :
    Ascending source (claimsOf provider (claimed ++ claimsMade as)) := by
  induction hw with
  | nil => simpa [claimsMade] using h
  | @cons claimed span spans a as ha hw ih =>
    have := ih (by rw [ha.claim_eq]; exact h.step hsrc)
    rwa [List.append_assoc, show a.claim.toList ++ claimsMade as = claimsMade (a :: as) by
      unfold claimsMade
      cases hc : a.claim <;> simp [hc]] at this

/-! ## a source laid out in pieces -/

/-- the text from offset `off` on: whitespace, the piece of the first range, and so on -/
inductive Laid : Nat → Text → List Range → Prop
  | gap {off : Nat} {g : Text} (hg : g.all isWhitespace = true) : Laid off g []
  | piece {off : Nat} {g m s : Text} {ranges : List Range} (hg : g.all isWhitespace = true)
      (h : Laid (off + byteLen g + byteLen m) s ranges) :
      Laid off (g ++ (m ++ s))
        (⟨off + byteLen g, off + byteLen g + byteLen m⟩ :: ranges)

theorem coveredFrom_append {ranges : List Range} {off : Nat} {s t : Text}
    (h : coveredFrom ranges off (s ++ t) = true) :
    coveredFrom ranges off s = true ∧ coveredFrom ranges (off + byteLen s) t = true := by
  induction s generalizing off with
  | nil => exact ⟨rfl, h⟩
  | cons c s ih =>
    obtain ⟨h1, h2⟩ := Bool.and_eq_true_iff.mp h
    obtain ⟨h3, h4⟩ := ih h2
    refine ⟨Bool.and_eq_true_iff.mpr ⟨h1, h3⟩, ?_⟩
    rwa [byteLen_cons, ← Nat.add_assoc]

/-- where no range reaches, only whitespace is covered -/
theorem whitespace_of_covered {ranges : List Range} {off : Nat} {s : Text}
    (h : coveredFrom ranges off s = true)
    (hout : ∀ k, off ≤ k → k < off + byteLen s → covers ranges k = false) :
    s.all isWhitespace = true := by
  induction s generalizing off with
  | nil => rfl
  | cons c s ih =>
    obtain ⟨h1, h2⟩ := Bool.and_eq_true_iff.mp h
    have hpos := ByteSized.size_pos c
    rw [byteLen_cons] at hout
    rw [hout off (le_refl _) (by omega), Bool.or_false] at h1
    rw [List.all_cons, h1, ih h2 (fun k hk1 hk2 => hout k (by omega) (by omega))]
    rfl

/-- a range that ends before the text covers none of it -/
theorem coveredFrom_cons {r : Range} {ranges : List Range} {off : Nat} {s : Text}
    (hr : r.stop ≤ off) (h : coveredFrom (r :: ranges) off s = true) :
    coveredFrom ranges off s = true := by
  induction s generalizing off with
  | nil => rfl
  | cons c s ih =>
    obtain ⟨h1, h2⟩ := Bool.and_eq_true_iff.mp h
    refine Bool.and_eq_true_iff.mpr ⟨?_, ih (by omega) h2⟩
    rcases Bool.or_eq_true_iff.mp h1 with h1 | h1
    · rw [h1]
      rfl
    · have h3 : covers ranges off = true := by
        rcases Bool.or_eq_true_iff.mp h1 with h0 | h0
        · simp only [Bool.and_eq_true, decide_eq_true_eq] at h0
          omega
        · exact h0
      rw [h3, Bool.or_true]

theorem laid_of_ascending {ranges : List Range} {pre rest : Text} (hs : source = pre ++ rest)
    (h : Ascending source ranges) (hle : ∀ r ∈ ranges, byteLen pre ≤ r.start)
    (hc : coveredFrom ranges (byteLen pre) rest = true) : Laid (byteLen pre) rest ranges := by
  induction ranges generalizing pre rest with
  | nil =>
    exact Laid.gap (whitespace_of_covered hc fun k _ _ => rfl)
  | cons r ranges ih =>
    obtain ⟨a, m, b, hsrc, hr, hm⟩ := h.pieces r List.mem_cons_self
    have hpre : byteLen pre ≤ byteLen a := by
      have := hle r List.mem_cons_self
      rwa [hr] at this
    -- the piece starts behind the text already laid out
    obtain ⟨g, rfl, hrest⟩ : ∃ g, a = pre ++ g ∧ rest = g ++ (m ++ b) := by
      have he : pre ++ rest = a ++ (m ++ b) := by rw [← hs, hsrc, List.append_assoc]
      exact prefix_of_byteLen_le he hpre
    subst hrest
    obtain ⟨hc1, hc2⟩ := coveredFrom_append hc
    obtain ⟨-, hc3⟩ := coveredFrom_append hc2
    have hpair := List.pairwise_cons.mp h.pairwise
    have hg : g.all isWhitespace = true := by
      apply whitespace_of_covered hc1
      intro k hk1 hk2
      unfold covers
      rw [List.any_eq_false]
      intro x hx
      have hstart : byteLen pre + byteLen g ≤ x.start := by
        rcases List.mem_cons.mp hx with rfl | hx
        · rw [hr, byteLen_append]
        · have h1 := hpair.1 x hx
          rw [hr, byteLen_append] at h1
          have h1 : byteLen pre + byteLen g + byteLen m ≤ x.start := h1
          omega
      simp only [Bool.and_eq_true, decide_eq_true_eq, not_and, not_lt]
      omega
    have hrange : r = ⟨byteLen pre + byteLen g, byteLen pre + byteLen g + byteLen m⟩ := by
      rw [hr, byteLen_append]
    rw [hrange]
    apply Laid.piece hg
    have hlen : byteLen pre + byteLen g + byteLen m = byteLen (pre ++ g ++ m) := by
      simp only [byteLen_append]
    rw [hlen]
    refine ih (by rw [hs]; simp) ⟨hpair.2, fun x hx => h.pieces x (List.mem_cons_of_mem _ hx)⟩ ?_ ?_
    · intro x hx
      have h1 := hpair.1 x hx
      rw [hrange] at h1
      rw [← hlen]
      exact h1
    · rw [← hlen]
      exact coveredFrom_cons (by rw [hrange]) hc3

/-- the selected source is covered when the gate accepts -/
theorem covered_of_coverage {claimed : List Claim}
    (hsrc : providerText input.sources input.sourceSelection.selectedProvider.asStr = some source)
    (h : coverageFailure input claimed = false) :
    coveredFrom (claimsOf input.sourceSelection.selectedProvider.asStr claimed) 0 source = true := by
  unfold coverageFailure at h
  rw [List.any_eq_false] at h
  have hmem : input.sourceSelection.selectedProvider ∈ [SttProvider.providerA, .providerB] := by
    cases input.sourceSelection.selectedProvider <;> simp
  have := h _ hmem
  rw [hsrc] at this
  simpa using this

/-- **an accepted walk lays its selected source out** -/
theorem Walked.laid {spans : List DerivationSpan} {as : List Adjudication}
    (hsrc : providerText input.sources input.sourceSelection.selectedProvider.asStr = some source)
    (hw : Walked input candidate [] spans as)
    (hc : coverageFailure input (claimsMade as) = false) :
    Laid 0 source (claimsOf input.sourceSelection.selectedProvider.asStr (claimsMade as)) := by
  have h := hw.ascending hsrc (Ascending.nil source)
  rw [List.nil_append] at h
  exact @laid_of_ascending source _ [] source rfl h (fun _ _ => Nat.zero_le _)
    (covered_of_coverage hsrc hc)

/-! ## seams -/

/-- the source before a range, and the piece in it -/
def pieceAt (source : Text) (range : Range) : Option (Text × Text) :=
  (slice 0 range.start source).bind fun before =>
    (slice range.start range.stop source).map fun piece => (before, piece)

/-- a placed span has the words of its piece, and is glued to the rendered text as the piece is to
the source before it -/
def seamAgrees (input : ComposeInput) (source : Text) (st : WalkState) (span : DerivationSpan) :
    Bool :=
  match spanClaim input st.claimed span with
  | none => true
  | some claim =>
    (pieceAt source claim.range).any fun p =>
      lexicalAtomSequence p.2 == lexicalAtomSequence span.sourceText &&
        textGlue p.1 p.2 == textGlue st.rendered (spanPart input st.claimed span)

/-- keeps of the selected provider and breaks -/
def keepOnly (input : ComposeInput) (spans : List DerivationSpan) : Bool :=
  spans.all fun span =>
    span.kind == .layoutBreak ||
      (span.kind == .keep &&
        span.sourceProvider == some input.sourceSelection.selectedProvider.asStr)

theorem pieceAt_eq (a m b : Text) :
    pieceAt (a ++ m ++ b) ⟨byteLen a, byteLen a + byteLen m⟩ = some (a, m) := by
  have h1 : slice 0 (byteLen a) (a ++ m ++ b) = some a := by
    have := slice_append [] a (m ++ b)
    simpa using this
  unfold pieceAt
  rw [h1, Option.bind_some, slice_append]
  rfl

/-- whitespace behind a text adds no atom -/
theorem lexicalAtomSequence_blank {s g : Text} (hg : g.all (fun c => !isPlain c) = true) :
    lexicalAtomSequence (s ++ g) = lexicalAtomSequence s := by
  have h : textGlue s g = none :=
    glue_eq_none.mpr (runsTogether_of_sep (by rw [headSep_of_all hg, Bool.or_true]))
  rw [lexicalAtomSequence_append h, lexicalAtomSequence_eq g, atomWords_gap hg]
  exact List.append_nil _

example : lexicalAtomSequence " ?! ".toList = [] := by decide +kernel

/-- a span without a claim renders whitespace at most -/
theorem Adjudicated.blank_of_no_claim {claimed : List Claim} {span : DerivationSpan}
    {a : Adjudication} (h : Adjudicated input candidate claimed span a) (hc : a.claim = none) :
    a.part.all (fun c => !isPlain c) = true := by
  cases h with
  | malformedBreak hk hl => rfl
  | layout hk hl => exact gap_of_layoutText hl
  | unfindable hk hf => rfl
  | protectedKept hk hf hp range h => cases hc
  | protectedLost hk hf hp h => rfl
  | overlapped hk hf hp h => rfl
  | placed hk hf hp hcheck range h => cases hc

/-- a keep with a claim renders the words of its source text -/
theorem Adjudicated.keep_words {claimed : List Claim} {span : DerivationSpan} {a : Adjudication}
    {claim : Claim} (h : Adjudicated input candidate claimed span a) (hk : span.kind = .keep)
    (hm : (a.discarded || outputMatches span) = true) (hc : a.claim = some claim) :
    lexicalAtomSequence a.part = lexicalAtomSequence span.sourceText := by
  cases h with
  | malformedBreak hb hl => rw [hk] at hb; cases hb
  | layout hb hl => rw [hk] at hb; cases hb
  | unfindable hb hf => cases hc
  | protectedKept hb hf hp range h => rfl
  | protectedLost hb hf hp h => cases hc
  | overlapped hb hf hp h => cases hc
  | placed hb hf hp hcheck range h =>
    have hm : outputMatches span = true := hm
    unfold outputMatches at hm
    rw [hk] at hm
    exact (beq_iff_eq.mp hm).symm

/-- what claims a piece is a keep of the selected provider -/
theorem keep_of_claim {claimed : List Claim} {span : DerivationSpan} {claim : Claim}
    (hk : (span.kind == .layoutBreak || (span.kind == .keep &&
      span.sourceProvider == some input.sourceSelection.selectedProvider.asStr)) = true)
    (hsc : spanClaim input claimed span = some claim) :
    span.kind = .keep ∧ claim.provider = input.sourceSelection.selectedProvider.asStr := by
  rcases Bool.or_eq_true_iff.mp hk with hb | hb
  · have hb : span.kind = .layoutBreak := by simpa using hb
    simp [spanClaim, hb] at hsc
  · obtain ⟨h1, h2⟩ := Bool.and_eq_true_iff.mp hb
    refine ⟨by simpa using h1, ?_⟩
    rw [(spanClaim_placement hsc).1]
    unfold DerivationSpan.provider
    rw [beq_iff_eq.mp h2]
    rfl

/-- the next piece of the selected source is the one that is claimed next -/
theorem Laid.next_piece {a : Adjudication} {as : List Adjudication} {claim : Claim}
    {pre rest : Text} (hc : a.claim = some claim)
    (hprov : claim.provider = input.sourceSelection.selectedProvider.asStr)
    (hs : source = pre ++ rest)
    (hl : Laid (byteLen pre) rest
      (claimsOf input.sourceSelection.selectedProvider.asStr (claimsMade (a :: as)))) :
    ∃ g m s, source = pre ++ g ++ m ++ s ∧ g.all isWhitespace = true ∧
      claim.range = ⟨byteLen (pre ++ g), byteLen (pre ++ g) + byteLen m⟩ ∧
      pieceAt source claim.range = some (pre ++ g, m) ∧
      Laid (byteLen (pre ++ g ++ m)) s
        (claimsOf input.sourceSelection.selectedProvider.asStr (claimsMade as)) := by
  have hclaims : claimsOf input.sourceSelection.selectedProvider.asStr (claimsMade (a :: as)) =
      claim.range :: claimsOf input.sourceSelection.selectedProvider.asStr (claimsMade as) := by
    simp [claimsMade, hc, claimsOf, hprov]
  rw [hclaims] at hl
  generalize claim.range = range at hl
  cases hl with
  | @piece _ g m s ranges hg hl =>
    have hsrc : source = pre ++ g ++ m ++ s := by rw [hs]; simp
    rw [← byteLen_append pre g] at hl ⊢
    refine ⟨g, m, s, hsrc, hg, rfl, ?_, ?_⟩
    · rw [hsrc]
      exact pieceAt_eq _ _ _
    · rwa [byteLen_append (pre ++ g) m]

theorem composedText_cons {st : WalkState} {span : DerivationSpan} {a : Adjudication}
    (ha : Adjudicated input candidate st.claimed span a) (as : List Adjudication) :
    st.rendered ++ composedText (a :: as) = (st.next input span).rendered ++ composedText as := by
  show st.rendered ++ (a.part ++ composedText as) =
    st.rendered ++ spanPart input st.claimed span ++ composedText as
  rw [ha.spanPart_eq, List.append_assoc]

/-- the last piece of the source is whitespace -/
theorem Laid.atoms_of_nil {off : Nat} {pre rest : Text} (hl : Laid off rest []) :
    lexicalAtomSequence (pre ++ rest) = lexicalAtomSequence pre := by
  cases hl with
  | gap hg => exact lexicalAtomSequence_blank (gap_of_whitespace hg)

theorem Walked.keeps_words {st : WalkState} {spans : List DerivationSpan}
    {as : List Adjudication} {pre rest : Text} (hw : Walked input candidate st.claimed spans as)
    (hs : source = pre ++ rest)
    (hl : Laid (byteLen pre) rest
      (claimsOf input.sourceSelection.selectedProvider.asStr (claimsMade as)))
    (hpre : lexicalAtomSequence pre = lexicalAtomSequence st.rendered)
    (hk : keepOnly input spans = true)
    (hm : (spans.zip as).all (fun p => p.2.discarded || outputMatches p.1) = true)
    (hseam : alongWalk input (seamAgrees input source) st spans = true) :
    lexicalAtomSequence (st.rendered ++ composedText as) = lexicalAtomSequence source := by
  generalize hst : st.claimed = claimed at hw
  induction hw generalizing st pre rest with
  | nil =>
    rw [hs, Laid.atoms_of_nil hl, hpre]
    exact congrArg _ (List.append_nil _)
  | @cons claimed span spans a as ha hw ih =>
    subst hst
    obtain ⟨hseam1, hnext1, hnext2, hseam2⟩ := alongWalk_cons ha hseam
    obtain ⟨hk1, hk2⟩ := Bool.and_eq_true_iff.mp hk
    obtain ⟨hm1, hm2⟩ := Bool.and_eq_true_iff.mp hm
    rw [composedText_cons ha as]
    cases hc : a.claim with
    | none =>
      refine ih hs ?_ ?_ hk2 hm2 hseam2 hnext1
      · simpa [claimsMade, hc] using hl
      · rw [hnext2, lexicalAtomSequence_blank (ha.blank_of_no_claim hc), hpre]
    | some claim =>
      have hsc : spanClaim input st.claimed span = some claim := by rw [← ha.claim_eq, hc]
      obtain ⟨hkeep, hprov⟩ := keep_of_claim hk1 hsc
      have hpart := ha.keep_words hkeep hm1 hc
      obtain ⟨g, m, s, hsrc, hg, -, hpiece, hl'⟩ := hl.next_piece hc hprov hs
      unfold seamAgrees at hseam1
      simp only [hsc, hpiece, Option.any_some, Bool.and_eq_true, beq_iff_eq] at hseam1
      refine ih hsrc hl' ?_ hk2 hm2 hseam2 hnext1
      rw [hnext2]
      refine lexicalAtomSequence_congr ?_ (by rw [hseam1.1, hpart])
        (by rw [ha.spanPart_eq]; exact hseam1.2)
      rw [lexicalAtomSequence_blank (gap_of_whitespace hg), hpre]

/-! ## the other direction -/

/-- the Kelvin sign, which lowers to an ASCII letter and is none -/
def hasKelvin (s : Text) : Bool := s.any fun c => c.toNat == 0x212A

theorem canonical_of_not_ascii {c : Char} (h : 0x7F < c.toNat) : canonical c = ' ' := by
  unfold canonical
  rw [if_neg]
  intro hp
  have := ascii_of_isPlain hp
  omega

theorem canonical_of_lower {a b : Char} (h : toAsciiLowercase a = toAsciiLowercase b) :
    canonical a = canonical b := by
  have hp : isPlain a = isPlain b := by
    show (isAsciiAlphanumeric a || isJoiner a) = (isAsciiAlphanumeric b || isJoiner b)
    rw [← isAsciiAlphanumeric_lower a, ← isJoiner_lower a, h, isAsciiAlphanumeric_lower,
      isJoiner_lower]
  unfold canonical
  rw [hp, h]

/-- only the Kelvin sign shares its lowercase with an ASCII letter from outside ASCII -/
theorem canonical_of_mixed {a b : Char} (ha : a.toNat ≤ 0x7F) (hb : 0x7F < b.toNat)
    (hk : b.toNat ≠ 0x212A) (h : charToLowercase a = charToLowercase b) :
    canonical a = canonical b := by
  rw [canonical_of_not_ascii hb]
  rw [charToLowercase_ascii ha] at h
  have hlow := toNat_toAsciiLowercase a
  rcases charToLowercase_above hb hk h.symm with h1 | h1
  · split at hlow
    · rename_i hup
      simp only [isAsciiUppercase, inRange, Bool.and_eq_true, decide_eq_true_eq] at hup
      omega
    · omega
  · unfold canonical
    rw [if_neg]
    intro hp
    split at hlow
    · omega
    · rcases Bool.or_eq_true_iff.mp hp with hl | hj
      · simp only [isAsciiAlphanumeric, isAsciiAlphabetic, isAsciiUppercase, isAsciiLowercase,
          isAsciiDigit, inRange, Bool.or_eq_true, Bool.and_eq_true, decide_eq_true_eq] at hl
        omega
      · rw [isJoiner_iff] at hj
        omega

theorem canonical_of_charsEq {a b : Char} (h : charsEqIgnoreCase a b = true)
    (ha : a.toNat ≠ 0x212A) (hb : b.toNat ≠ 0x212A) : canonical a = canonical b := by
  simp only [charsEqIgnoreCase, Bool.or_eq_true, beq_iff_eq] at h
  rcases h with (rfl | h) | h
  · rfl
  · exact canonical_of_lower h
  · rcases Nat.lt_or_ge 0x7F a.toNat with ha' | ha' <;> rcases Nat.lt_or_ge 0x7F b.toNat with hb' | hb'
    · rw [canonical_of_not_ascii ha', canonical_of_not_ascii hb']
    · exact (canonical_of_mixed hb' ha' ha h.symm).symm
    · exact canonical_of_mixed ha' hb' hb h
    · rw [charToLowercase_ascii ha', charToLowercase_ascii hb'] at h
      exact canonical_of_lower (List.cons.inj h).1

theorem SpellsAs.words {needle m : Text} (h : SpellsAs needle m) (hn : hasKelvin needle = false)
    (hm : hasKelvin m = false) : lexicalAtomSequence m = lexicalAtomSequence needle := by
  rcases h with ⟨hlen, hz⟩ | h
  · have hmap : m.map canonical = needle.map canonical := by
      induction needle generalizing m with
      | nil => rw [List.length_eq_zero_iff.mp hlen]
      | cons a needle ih =>
        cases m with
        | nil => cases hlen
        | cons b m =>
          obtain ⟨h1, h2⟩ := Bool.and_eq_true_iff.mp hz
          obtain ⟨hn1, hn2⟩ := Bool.or_eq_false_iff.mp hn
          obtain ⟨hm1, hm2⟩ := Bool.or_eq_false_iff.mp hm
          rw [List.map_cons, List.map_cons, ih hn2 hm2 (Nat.succ.inj hlen) h2,
            canonical_of_charsEq h1 (by simpa using hn1) (by simpa using hm1)]
    rw [lexicalAtomSequence_canonical, lexicalAtomSequence_canonical, hmap]
  · exact h

/-- what a claim on the source spells -/
theorem spanClaim_spells {claimed : List Claim} {span : DerivationSpan} {claim : Claim}
    {before m : Text} (hsrc : providerText input.sources span.provider = some source)
    (h : spanClaim input claimed span = some claim)
    (hp : pieceAt source claim.range = some (before, m)) : SpellsAs span.sourceText m := by
  obtain ⟨-, hpl⟩ := spanClaim_placement h
  unfold placementOf at hpl
  rw [hsrc] at hpl
  obtain ⟨hay, hhay, hmem, -, -⟩ := placeSpan_spec hpl
  obtain rfl := Option.some.inj hhay
  obtain ⟨a, m', b, hs, hr, -, hspell⟩ := findLiteralSpans_spec hmem
  rw [hr, hs, pieceAt_eq] at hp
  obtain ⟨-, rfl⟩ := Prod.mk.inj (Option.some.inj hp)
  exact hspell

theorem Walked.seams {st : WalkState} {spans : List DerivationSpan}
    {as : List Adjudication} {pre rest : Text} (hw : Walked input candidate st.claimed spans as)
    (hsel : providerText input.sources input.sourceSelection.selectedProvider.asStr = some source)
    (hkelvin : hasKelvin source = false)
    (hspans : spans.all (fun span => !hasKelvin span.sourceText) = true)
    (hs : source = pre ++ rest)
    (hl : Laid (byteLen pre) rest
      (claimsOf input.sourceSelection.selectedProvider.asStr (claimsMade as)))
    (hpre : lexicalAtomSequence pre = lexicalAtomSequence st.rendered)
    (hk : keepOnly input spans = true)
    (hm : (spans.zip as).all (fun p => p.2.discarded || outputMatches p.1) = true)
    (heq : lexicalAtomSequence (st.rendered ++ composedText as) = lexicalAtomSequence source) :
    alongWalk input (seamAgrees input source) st spans = true := by
  generalize hst : st.claimed = claimed at hw
  induction hw generalizing st pre rest with
  | nil => rfl
  | @cons claimed span spans a as ha hw ih =>
    subst hst
    obtain ⟨hk1, hk2⟩ := Bool.and_eq_true_iff.mp hk
    obtain ⟨hm1, hm2⟩ := Bool.and_eq_true_iff.mp hm
    obtain ⟨hsp1, hsp2⟩ := Bool.and_eq_true_iff.mp hspans
    have hnext1 : (st.next input span).claimed = st.claimed ++ a.claim.toList := by
      rw [ha.claim_eq]
      rfl
    have hnext2 : (st.next input span).rendered = st.rendered ++ a.part := by
      rw [ha.spanPart_eq]
      rfl
    rw [composedText_cons ha as] at heq
    cases hc : a.claim with
    | none =>
      have hsc : spanClaim input st.claimed span = none := by rw [← ha.claim_eq, hc]
      refine Bool.and_eq_true_iff.mpr ⟨?_, ih hsp2 hs ?_ ?_ hk2 hm2 heq hnext1⟩
      · unfold seamAgrees
        rw [hsc]
      · simpa [claimsMade, hc] using hl
      · rw [hnext2, lexicalAtomSequence_blank (ha.blank_of_no_claim hc), hpre]
    | some claim =>
      have hsc : spanClaim input st.claimed span = some claim := by rw [← ha.claim_eq, hc]
      obtain ⟨hkeep, hprov⟩ := keep_of_claim hk1 hsc
      have hpart := ha.keep_words hkeep hm1 hc
      obtain ⟨g, m, s, hsrc, hg, -, hpiece, hl'⟩ := hl.next_piece hc hprov hs
      have hkm : hasKelvin m = false := by
        rw [hsrc] at hkelvin
        unfold hasKelvin at hkelvin ⊢
        simp only [List.any_append, Bool.or_eq_false_iff] at hkelvin
        exact hkelvin.1.2
      have hmw : lexicalAtomSequence m = lexicalAtomSequence span.sourceText :=
        (spanClaim_spells (by rw [← (spanClaim_placement hsc).1, hprov]; exact hsel) hsc hpiece).words (by simpa using hsp1) hkm
      have hpg : lexicalAtomSequence (pre ++ g) = lexicalAtomSequence st.rendered := by
        rw [lexicalAtomSequence_blank (gap_of_whitespace hg), hpre]
      -- pieces glued differently could never come out the same
      have hglue : textGlue (pre ++ g) m = textGlue st.rendered a.part := by
        by_contra hne
        refine lexicalAtomSequence_ne hpg (by rw [hmw, hpart]) hne s (composedText as) ?_
        rw [← hsrc, ← heq, hnext2]
      refine Bool.and_eq_true_iff.mpr ⟨?_, ih hsp2 hsrc hl' ?_ hk2 hm2 heq hnext1⟩
      · unfold seamAgrees
        simp only [hsc, hpiece, Option.any_some, Bool.and_eq_true, beq_iff_eq]
        rw [← ha.spanPart_eq]
        exact ⟨hmw, hglue⟩
      · rw [hnext2]
        exact lexicalAtomSequence_congr hpg (by rw [hmw, hpart]) hglue

end

/-! ## keep-only candidates -/

/-- the words of an accepted keep-only candidate are the words of the selected source -/
def KeepsWords (digest : Digest) (input : ComposeInput) : Prop :=
  (composeImpl digest input).decision = .accept →
    ∀ candidate source, input.candidate = some candidate →
      keepOnly input candidate.derivation = true → selectedSourceText input = some source →
      lexicalAtomSequence (composeImpl digest input).rendered = lexicalAtomSequence source

/-- the source that is walked is the selected one, and every seam of the walk agrees with it -/
def seamsAgree (input : ComposeInput) : Bool :=
  input.candidate.all fun candidate =>
    (selectedSourceText input).all fun source =>
      providerText input.sources input.sourceSelection.selectedProvider.asStr == some source &&
        alongWalk input (seamAgrees input source) .init candidate.derivation

/-- only the last path of the gate accepts -/
theorem settle_accept {input : ComposeInput} {candidate : StructuredCandidate}
    {as : List Adjudication} {outcome : ComposeOutcome}
    (h : settle input candidate as = .ok outcome) (hd : outcome.decision = .accept) :
    accept input candidate as = .ok outcome := by
  unfold settle at h
  obtain ⟨_, -, h⟩ := bind_eq_ok h
  split at h
  · rw [(salvage_ok h).2] at hd
    cases hd
  · split at h
    · rw [(salvage_ok h).2] at hd
      cases hd
    · exact h

/-- no Kelvin sign, and one source for the selected provider -/
def regular (input : ComposeInput) : Bool :=
  (providerText input.sources input.sourceSelection.selectedProvider.asStr ==
      selectedSourceText input) &&
    (selectedSourceText input).all (fun source => !hasKelvin source) &&
    input.candidate.all fun candidate =>
      candidate.derivation.all fun span => !hasKelvin span.sourceText

/-- **a keep-only candidate keeps every word where the seams agree, and on regular inputs only
there** -/
theorem composeImpl_keepsWords (digest : Digest) (input : ComposeInput) :
    (seamsAgree input = true → KeepsWords digest input) ∧
      ((composeImpl digest input).decision = .accept → regular input = true →
        input.candidate.all (fun candidate => keepOnly input candidate.derivation) = true →
        KeepsWords digest input → seamsAgree input = true) := by
  rcases composeImpl_cases digest input with ⟨-, hb⟩ | ⟨candidate, as, hcand, hw, hs⟩
  · refine ⟨fun _ hd => ?_, fun hd => ?_⟩ <;> rw [hb] at hd <;> cases hd
  refine ⟨?_, ?_⟩
  · intro h hd candidate' source hcand' hkeep hsel
    obtain rfl : candidate = candidate' := Option.some.inj (hcand.symm.trans hcand')
    obtain ⟨hren, -, hcov, hmatch⟩ := accept_ok (settle_accept hs hd)
    unfold seamsAgree at h
    rw [hcand, Option.all_some, hsel, Option.all_some] at h
    obtain ⟨hsrc, hseam⟩ := Bool.and_eq_true_iff.mp h
    have hlaid := hw.laid (beq_iff_eq.mp hsrc) hcov
    rw [hren]
    exact @Walked.keeps_words input candidate source .init _ as [] source hw rfl hlaid rfl hkeep
      hmatch hseam
  · intro hd hreg hkeep h
    rw [hcand, Option.all_some] at hkeep
    obtain ⟨hren, -, hcov, hmatch⟩ := accept_ok (settle_accept hs hd)
    unfold regular at hreg
    simp only [Bool.and_eq_true, beq_iff_eq, hcand, Option.all_some] at hreg
    obtain ⟨⟨hone, hk1⟩, hk2⟩ := hreg
    unfold seamsAgree
    rw [hcand, Option.all_some]
    cases hsel : selectedSourceText input with
    | none => rfl
    | some source =>
      rw [hsel, Option.all_some] at hk1
      rw [hsel] at hone
      have hlaid := hw.laid hone hcov
      have heq := h hd candidate source hcand hkeep hsel
      rw [hren] at heq
      rw [Option.all_some, hone, beq_self_eq_true, Bool.true_and]
      exact @Walked.seams input candidate source .init _ as [] source hw hone (by simpa using hk1)
        hk2 rfl hlaid rfl hkeep hmatch heq

/-- the digest of `foo bar foobar` -/
def fooBarFoobarDigest : Digest := fun _ =>
  [0, 117, 216, 95, 180, 157, 54, 194, 37, 190, 165, 108, 56, 193, 170, 206, 147, 3, 99, 74, 18, 97,
    29, 99, 241, 45, 125, 81, 102, 218, 148, 25]

/-- no break stands between the first two words -/
def breakAfterBar : ComposeInput :=
  oneSourceInput fooBarFoobarDigest "foo bar foobar".toList [] .clear []
    [keepSpan "foo" "foo", keepSpan "bar" "bar", breakSpan " ", keepSpan "foobar" "foobar"]

theorem composeImpl_breakAfterBar_merges : ¬ KeepsWords fooBarFoobarDigest breakAfterBar := by
  have hd : (composeImpl fooBarFoobarDigest breakAfterBar).decision = .accept := by decide +kernel
  have hne : lexicalAtomSequence (composeImpl fooBarFoobarDigest breakAfterBar).rendered ≠
      lexicalAtomSequence "foo bar foobar".toList := by decide +kernel
  intro h
  exact hne (h hd _ _ rfl (by decide +kernel) (by decide +kernel))

theorem composeImpl_keepsWords_breakBetween :
    (composeImpl fooBarDigest (oneSourceInput fooBarDigest "foo bar".toList [] .clear []
        [keepSpan "foo" "Foo", breakSpan "\n", keepSpan "bar" "bar."])).decision = .accept ∧
    KeepsWords fooBarDigest (oneSourceInput fooBarDigest "foo bar".toList [] .clear []
      [keepSpan "foo" "Foo", breakSpan "\n", keepSpan "bar" "bar."]) :=
  ⟨by decide +kernel, (composeImpl_keepsWords _ _).1 (by decide +kernel)⟩

end Voisu.Compose
