import Mathlib
import Voisu.Grammar.Review

/-!
# The outcome of the Grammar safety gate

A raw candidate is read, reviewed as a whole and put into the text of the baseline, from the last
word to the first.  The outcome that is reported compares the resulting text with the transcript.

* `applyGrammarCandidateJson`    the gate; `none` is a panic of the source, off the boundaries;
* `appliedEdits`                 the edits that the gate applies;
* `composeGrammar_lengthens`     every applied edit makes the text one byte longer;
* `outcome_reported`             which outcome is reported when;
* `outcome_of_identity_baseline` an edit of the transcript as it was is reported as both.
-/

namespace Voisu.Grammar
open Lib
open Commands (SourceSpan)
open Formatting (FormattingBaseline Sealer Token maxValidatedTranscriptUtf8Bytes)
open FormatEdits (sortByReverseStart)

/-! ## composition -/

def preserveFormatterCase (existing replacement : Text) : Text :=
  match replacement with
  | [] => []
  | first :: rest =>
    if existing.head?.any isUppercase && isLowercase first then charToUppercase first ++ rest
    else first :: rest

def grammarReplacement (rendered : Text) (p : GrammarEdit × SourceSpan) : Option (Repl Char) :=
  (slice p.2.start p.2.stop rendered).map fun existing =>
    ⟨p.2.start, p.2.stop, preserveFormatterCase existing p.1.after⟩

def composeGrammar (rendered : Text) (accepted : List (GrammarEdit × SourceSpan)) : Option Text :=
  (accepted.mapM (grammarReplacement rendered)).bind fun replacements =>
    applyAll (sortByReverseStart replacements) rendered

/-! ## the gate -/

def result (validated rendered : Text) (grammarApplied : Bool)
    (diagnostics : List GrammarDiagnostic) : GrammarSafetyResult :=
  let formattingApplied := rendered != validated
  { outcome := match grammarApplied, formattingApplied with
      | true, true => .both
      | true, false => .grammarOnly
      | false, true => .formattingOnly
      | false, false => .unchanged
    rendered
    diagnostics }

def identityFailure (validated : Text) (fault : Fault) : GrammarSafetyResult :=
  result validated validated false [diagnostic fault.1 fault.2 []]

def baselineFailure (validated : Text) (baseline : FormattingBaseline) (fault : Fault) :
    GrammarSafetyResult :=
  result validated baseline.rendered false [diagnostic fault.1 fault.2 []]

def validateAndCompose (validated : Text) (baseline : FormattingBaseline)
    (options : GrammarSafetyOptions) (edits : List GrammarEdit) : Option GrammarSafetyResult :=
  let diagnostics := reviewDiagnostics validated baseline options edits
  let accepted := acceptedEdits validated baseline options edits
  if !diagnostics.isEmpty || accepted.isEmpty then
    some (result validated baseline.rendered false diagnostics)
  else (composeGrammar baseline.rendered accepted).map fun rendered =>
    result validated rendered true []

/-- the baseline is not one of this transcript, or not as it was sealed -/
def identityFault (sealer : Sealer) (validated version : Text) (baseline : FormattingBaseline) :
    Option Fault :=
  if baseline.baseVersion ≠ version
      ∨ baseline.baseFingerprint ≠ textSha256Fingerprint sealer.digest validated then
    some (.formattingIdentity, "baseline identity differs from Validated Transcript")
  else if !baseline.verifyDerivationDigest sealer then
    some (.formattingDerivation, "baseline derivation digest is invalid")
  else none

/-- the edits of a candidate for this transcript -/
def readCandidate (decode : List UInt8 → Option Value) (validated version : Text)
    (baseline : FormattingBaseline) (candidateJson : List UInt8) :
    Except Fault (List GrammarEdit) := do
  if maxValidatedTranscriptUtf8Bytes < byteLen validated then
    throw (.oversize, "Validated Transcript exceeds grammar bound")
  let value ← readBody decode candidateJson
  let some (baseVersion, baseFingerprint, rawEdits) := parseEnvelope value
    | throw (.malformed, "grammar candidate envelope is malformed")
  if baseVersion ≠ version ∨ baseFingerprint ≠ baseline.baseFingerprint then
    throw (.staleGrammar, "grammar candidate identity is stale")
  parseEdits rawEdits

section
variable (sealer : Sealer) (decode : List UInt8 → Option Value) (validated version : Text)
  (baseline : FormattingBaseline) (candidateJson : List UInt8) (options : GrammarSafetyOptions)

def applyGrammarCandidateJson : Option GrammarSafetyResult :=
  match identityFault sealer validated version baseline with
  | some fault => some (identityFailure validated fault)
  | none =>
    match readCandidate decode validated version baseline candidateJson with
    | .error fault => some (baselineFailure validated baseline fault)
    | .ok edits => validateAndCompose validated baseline options edits

/-- the edits that the gate puts into the baseline's text -/
def appliedEdits : List (GrammarEdit × SourceSpan) :=
  match identityFault sealer validated version baseline with
  | some _ => []
  | none =>
    match readCandidate decode validated version baseline candidateJson with
    | .error _ => []
    | .ok edits => gatedEdits validated baseline options edits

end

/-! ## what passes the review -/

section
variable {validated : Text} {baseline : FormattingBaseline} {options : GrammarSafetyOptions}

/-- the words of the three rules -/
def ruleWords : List (Text × Text) :=
  [("is", "are"), ("lets", "let's"), ("didnt", "didn't")].map fun p => (p.1.toList, p.2.toList)

theorem ruleMatches_words {tokens : List Token} {edit : GrammarEdit}
    (h : ruleMatches validated tokens edit = true) : (edit.before, edit.after) ∈ ruleWords := by
  unfold ruleMatches at h
  split at h
  · cases h
  · split_ifs at h <;> simp only [Bool.and_eq_true, beq_iff_eq] at h
    · simp [ruleWords, h.1.1, h.1.2]
    · simp [ruleWords, h.1.1, h.1.2]
    · simp [ruleWords, h.1, h.2]

theorem reviewEdit_accepted {tokens : List Token} {ranges : List SourceSpan} {edit : GrammarEdit}
    {anchor : SourceSpan}
    (h : (reviewEdit validated baseline tokens ranges edit).2 = some anchor) :
    (edit.before, edit.after) ∈ ruleWords ∧ namesSource baseline anchor edit.before = true := by
  simp only [reviewEdit] at h
  split_ifs at h with h1 h2 h3
  simp only [Bool.and_eq_true] at h3
  split at h
  · cases h
  · split_ifs at h with h4
    obtain rfl := Option.some.inj h
    exact ⟨ruleMatches_words h3.2.2, h4⟩

theorem mem_acceptedEdits {edits : List GrammarEdit} {p : GrammarEdit × SourceSpan}
    (h : p ∈ acceptedEdits validated baseline options edits) :
    (p.1.before, p.1.after) ∈ ruleWords ∧ namesSource baseline p.2 p.1.before = true := by
  obtain ⟨r, hr, hp⟩ := List.mem_filterMap.mp h
  obtain ⟨edit, -, rfl⟩ := List.mem_map.mp hr
  obtain ⟨anchor, ha, rfl⟩ := Option.map_eq_some_iff.mp hp
  exact reviewEdit_accepted ha

theorem pushDiagnostic_ne_nil (ds : List GrammarDiagnostic) (d : GrammarDiagnostic) :
    pushDiagnostic ds d ≠ [] := by
  unfold pushDiagnostic
  split_ifs with h
  · intro he
    rw [he] at h
    cases h
  · exact List.append_ne_nil_of_right_ne_nil _ (List.cons_ne_nil _ _)

theorem foldl_pushDiagnostic_eq_nil {fs ds : List GrammarDiagnostic}
    (h : fs.foldl pushDiagnostic ds = []) : fs = [] := by
  induction fs generalizing ds with
  | nil => rfl
  | cons f fs ih =>
    have hfs := ih h
    rw [hfs] at h
    exact absurd h (pushDiagnostic_ne_nil ds f)

theorem pairwise_of_laterPairs {α : Type} {p : α → α → Prop} {l : List α}
    (h : ∀ q ∈ laterPairs l, p q.1 q.2) : l.Pairwise p := by
  induction l with
  | nil => exact List.Pairwise.nil
  | cons a l ih =>
    refine List.pairwise_cons.mpr ⟨fun b hb => ?_, ih fun q hq => ?_⟩
    · exact h (a, b) (List.mem_append_left _ (List.mem_map.mpr ⟨b, hb, rfl⟩))
    · exact h q (List.mem_append_right _ hq)

/-- the anchors of applied edits lie apart -/
theorem gatedEdits_apart (edits : List GrammarEdit) :
    (gatedEdits validated baseline options edits).Pairwise
      fun p q => overlaps p.2 q.2 = false := by
  unfold gatedEdits
  split_ifs with h
  · have hf : reviewFaults validated baseline options edits = [] :=
      foldl_pushDiagnostic_eq_nil (List.isEmpty_iff.mp h)
    refine pairwise_of_laterPairs fun q hq => ?_
    have hlast := List.map_eq_nil_iff.mp (List.append_eq_nil_iff.mp hf).2
    simpa using List.filter_eq_nil_iff.mp hlast q hq
  · exact List.Pairwise.nil

theorem mem_gatedEdits {edits : List GrammarEdit} {p : GrammarEdit × SourceSpan}
    (h : p ∈ gatedEdits validated baseline options edits) :
    (p.1.before, p.1.after) ∈ ruleWords ∧ namesSource baseline p.2 p.1.before = true := by
  unfold gatedEdits at h
  split_ifs at h
  · exact mem_acceptedEdits h
  · cases h

end

/-! ## applied edits lengthen the text -/

theorem size_toAsciiLowercase (c : Char) :
    ByteSized.size (toAsciiLowercase c) = ByteSized.size c := by
  unfold toAsciiLowercase
  split_ifs with h
  · have hc : 0x41 ≤ c.toNat ∧ c.toNat ≤ 0x5A := by
      simpa [isAsciiUppercase, inRange] using h
    have hn : (Char.ofNat (c.toNat + 32)).toNat = c.toNat + 32 := toNat_shift (by omega)
    have hsize : ∀ d : Char, d.toNat ≤ 0x7F → ByteSized.size d = 1 := fun d hd => by
      show d.utf8Size = 1
      rw [Char.utf8Size, if_pos]
      exact hd
    rw [hsize c (by omega), hsize _ (by omega)]
  · rfl

theorem byteLen_asciiLowercase (s : Text) : byteLen (asciiLowercase s) = byteLen s :=
  byteLen_map toAsciiLowercase size_toAsciiLowercase s

theorem byteLen_eq_of_eqIgnoreAsciiCase {s t : Text} (h : eqIgnoreAsciiCase s t = true) :
    byteLen s = byteLen t := by
  have he : asciiLowercase s = asciiLowercase t := eq_of_beq h
  rw [← byteLen_asciiLowercase s, he, byteLen_asciiLowercase]

/-- a rule adds one byte, whatever the case that the formatter left -/
theorem byteLen_preserveFormatterCase {before after existing : Text}
    (hw : (before, after) ∈ ruleWords) (he : eqIgnoreAsciiCase existing before = true) :
    byteLen (preserveFormatterCase existing after) = byteLen existing + 1 := by
  have hafter : byteLen (preserveFormatterCase existing after) = byteLen after := by
    simp only [ruleWords, List.map_cons, List.map_nil, List.mem_cons, Prod.mk.injEq,
      List.not_mem_nil, or_false] at hw
    rcases hw with ⟨-, rfl⟩ | ⟨-, rfl⟩ | ⟨-, rfl⟩
    all_goals
      cases hcase : existing.head?.any isUppercase
      · simp [preserveFormatterCase, hcase]
      · simp only [preserveFormatterCase, hcase]
        decide +kernel
  have hbefore : byteLen after = byteLen before + 1 := by
    have hall : ∀ p ∈ ruleWords, byteLen p.2 = byteLen p.1 + 1 := by decide
    exact hall (before, after) hw
  rw [hafter, hbefore, byteLen_eq_of_eqIgnoreAsciiCase he]

example : preserveFormatterCase "The".toList "their".toList = "Their".toList := by decide +kernel

theorem Spliced_lengthens {off : Nat} {rs : List (Repl Char)} {s t : Text}
    (h : Spliced off rs s t)
    (hr : ∀ r ∈ rs, byteLen r.text = r.stop - r.start + 1) :
    byteLen t = byteLen s + rs.length := by
  induction h with
  | nil => rfl
  | @cons off r rs g m s t hg hm h ih =>
    have hr1 := hr r List.mem_cons_self
    have ih' := ih fun r' h' => hr r' (List.mem_cons_of_mem _ h')
    simp only [byteLen_append, List.length_cons]
    omega

/-- ranges that lie apart, in the order of their starts, follow one another -/
theorem chain_of_apart {rs : List (Repl Char)} {off : Nat} (ho : ∀ r ∈ rs, off ≤ r.start)
    (hlt : ∀ r ∈ rs, r.start < r.stop)
    (hp : rs.Pairwise fun a b => a.start ≤ b.start ∧ (a.stop ≤ b.start ∨ b.stop ≤ a.start)) :
    Chain off rs := by
  induction rs generalizing off with
  | nil => exact trivial
  | cons r rs ih =>
    obtain ⟨hr, hp'⟩ := List.pairwise_cons.mp hp
    have hr1 := hlt r List.mem_cons_self
    refine ⟨ho r List.mem_cons_self, hr1.le, ih (fun q hq => ?_)
      (fun q hq => hlt q (List.mem_cons_of_mem _ hq)) hp'⟩
    have hq1 := hlt q (List.mem_cons_of_mem _ hq)
    have hq2 := hr q hq
    omega

/-- replacements of ranges that lie apart are made from the last to the first -/
theorem applyAll_sortByReverseStart {rs : List (Repl Char)} {s : Text}
    (hlt : ∀ r ∈ rs, r.start < r.stop)
    (hb : ∀ r ∈ rs, isBoundary r.start s = true ∧ isBoundary r.stop s = true)
    (hp : rs.Pairwise fun a b => a.stop ≤ b.start ∨ b.stop ≤ a.start) :
    ∃ t, applyAll (sortByReverseStart rs) s = some t ∧
      Spliced 0 (sortByReverseStart rs).reverse s t := by
  have hperm : (sortByReverseStart rs).Perm rs := List.perm_insertionSort _ rs
  have hmem : ∀ {r : Repl Char}, r ∈ (sortByReverseStart rs).reverse → r ∈ rs := fun hr =>
    hperm.mem_iff.mp (List.mem_reverse.mp hr)
  have hsorted : (sortByReverseStart rs).reverse.Pairwise fun a b => a.start ≤ b.start := by
    rw [List.pairwise_reverse]
    exact List.pairwise_insertionSort _ rs
  have hapart : (sortByReverseStart rs).reverse.Pairwise
      fun a b => a.stop ≤ b.start ∨ b.stop ≤ a.start :=
    ((hperm.symm.trans (List.reverse_perm _).symm).pairwise_iff fun h => h.symm).mp hp
  have hc : Chain 0 (sortByReverseStart rs).reverse :=
    chain_of_apart (fun _ _ => Nat.zero_le _) (fun r hr => hlt r (hmem hr)) (hsorted.and hapart)
  obtain ⟨t, ht⟩ := Spliced.exists [] s hc fun r hr => hb r (hmem hr)
  have happ := applyAll_reverse ht [] rfl
  rw [List.reverse_reverse] at happ
  exact ⟨t, happ, ht⟩

/-- what an accepted edit puts in, and where -/
theorem grammarReplacement_accepted {rendered : Text} {p : GrammarEdit × SourceSpan} {m : Text}
    (hw : (p.1.before, p.1.after) ∈ ruleWords)
    (hm : slice p.2.start p.2.stop rendered = some m)
    (he : eqIgnoreAsciiCase m p.1.before = true) :
    ∃ r, grammarReplacement rendered p = some r ∧ r.start = p.2.start ∧ r.stop = p.2.stop ∧
      r.start < r.stop ∧ byteLen r.text = r.stop - r.start + 1 ∧
      isBoundary r.start rendered = true ∧ isBoundary r.stop rendered = true := by
  obtain ⟨a, b, hs, ha, hab⟩ := slice_eq_some.mp hm
  have hlen : byteLen m = byteLen p.1.before := byteLen_eq_of_eqIgnoreAsciiCase he
  have hpos : 0 < byteLen p.1.before := by
    have hall : ∀ q ∈ ruleWords, 0 < byteLen q.1 := by decide
    exact hall _ hw
  refine ⟨⟨p.2.start, p.2.stop, preserveFormatterCase m p.1.after⟩, ?_, rfl, rfl, ?_, ?_, ?_, ?_⟩
  · rw [grammarReplacement, hm]
    rfl
  · show p.2.start < p.2.stop
    omega
  · show byteLen (preserveFormatterCase m p.1.after) = p.2.stop - p.2.start + 1
    rw [byteLen_preserveFormatterCase hw he]
    omega
  · exact isBoundary_iff.mpr ⟨a, m ++ b, by simpa using hs, ha⟩
  · exact isBoundary_iff.mpr ⟨a ++ m, b, hs, by rw [byteLen_append, hab]⟩

/-- accepted edits: words of the rules, each under an anchor that names its source word -/
def Accepted (baseline : FormattingBaseline) (p : GrammarEdit × SourceSpan) : Prop :=
  (p.1.before, p.1.after) ∈ ruleWords ∧ namesSource baseline p.2 p.1.before = true

/-- the replacement of a word, by a text one byte longer -/
def Lengthens (rendered : Text) (r : Repl Char) : Prop :=
  r.start < r.stop ∧ byteLen r.text = r.stop - r.start + 1 ∧
    isBoundary r.start rendered = true ∧ isBoundary r.stop rendered = true

theorem grammarReplacements_accepted {baseline : FormattingBaseline}
    {l : List (GrammarEdit × SourceSpan)} (hl : ∀ p ∈ l, Accepted baseline p)
    (hp : l.Pairwise fun p q => overlaps p.2 q.2 = false) :
    ∃ rs, l.mapM (grammarReplacement baseline.rendered) = some rs ∧ rs.length = l.length ∧
      (∀ r ∈ rs, Lengthens baseline.rendered r ∧ ∃ p ∈ l, r.start = p.2.start ∧ r.stop = p.2.stop) ∧
      rs.Pairwise fun a b => a.stop ≤ b.start ∨ b.stop ≤ a.start := by
  induction l with
  | nil => exact ⟨[], rfl, rfl, fun r hr => absurd hr List.not_mem_nil, List.Pairwise.nil⟩
  | cons p l ih =>
    obtain ⟨hp1, hp2⟩ := List.pairwise_cons.mp hp
    obtain ⟨rs, hrs, hlen, hmem, hapart⟩ := ih (fun q hq => hl q (List.mem_cons_of_mem _ hq)) hp2
    obtain ⟨hw, hn⟩ := hl p List.mem_cons_self
    obtain ⟨m, hm, he⟩ : ∃ m, slice p.2.start p.2.stop baseline.rendered = some m ∧
        eqIgnoreAsciiCase m p.1.before = true := by
      simpa [namesSource, Option.any_eq_true] using hn
    obtain ⟨r, hr, hstart, hstop, hlong⟩ := grammarReplacement_accepted hw hm he
    refine ⟨r :: rs, ?_, by rw [List.length_cons, hlen, List.length_cons], ?_, ?_⟩
    · rw [List.mapM_cons, hr, hrs]
      rfl
    · intro r' hr'
      rcases List.mem_cons.mp hr' with rfl | hr'
      · exact ⟨hlong, p, List.mem_cons_self, hstart, hstop⟩
      · obtain ⟨hlong', q, hq, hq'⟩ := hmem r' hr'
        exact ⟨hlong', q, List.mem_cons_of_mem _ hq, hq'⟩
    · refine List.pairwise_cons.mpr ⟨fun r' hr' => ?_, hapart⟩
      obtain ⟨-, q, hq, hqs, hqe⟩ := hmem r' hr'
      have hov := hp1 q hq
      simp only [overlaps, Bool.and_eq_false_iff, decide_eq_false_iff_not] at hov
      omega

/-- **the edits of the gate are made without a panic, and each makes the text one byte longer** -/
theorem composeGrammar_lengthens {baseline : FormattingBaseline}
    {l : List (GrammarEdit × SourceSpan)} (hl : ∀ p ∈ l, Accepted baseline p)
    (hp : l.Pairwise fun p q => overlaps p.2 q.2 = false) :
    ∃ t, composeGrammar baseline.rendered l = some t ∧
      byteLen t = byteLen baseline.rendered + l.length := by
  obtain ⟨rs, hrs, hlen, hmem, hapart⟩ := grammarReplacements_accepted hl hp
  obtain ⟨t, ht, hspl⟩ := applyAll_sortByReverseStart (fun r hr => (hmem r hr).1.1)
    (fun r hr => (hmem r hr).1.2.2) hapart
  have hperm : (sortByReverseStart rs).Perm rs := List.perm_insertionSort _ rs
  refine ⟨t, by rw [composeGrammar, hrs]; exact ht, ?_⟩
  rw [Spliced_lengthens hspl fun r hr =>
      (hmem r (hperm.mem_iff.mp (List.mem_reverse.mp hr))).1.2.1,
    List.length_reverse, hperm.length_eq, hlen]

/-! ## the outcome -/

theorem gatedEdits_accepted (validated : Text) (baseline : FormattingBaseline)
    (options : GrammarSafetyOptions) (edits : List GrammarEdit) :
    ∀ p ∈ gatedEdits validated baseline options edits, Accepted baseline p :=
  fun _ h => mem_gatedEdits h

/-- the gate past the reading: either nothing is applied, or the composed text is the result -/
theorem validateAndCompose_cases (validated : Text) (baseline : FormattingBaseline)
    (options : GrammarSafetyOptions) (edits : List GrammarEdit) :
    (gatedEdits validated baseline options edits = [] ∧
      ∃ ds, validateAndCompose validated baseline options edits =
        some (result validated baseline.rendered false ds)) ∨
    (gatedEdits validated baseline options edits ≠ [] ∧
      ∃ t, validateAndCompose validated baseline options edits =
        some (result validated t true []) ∧ byteLen baseline.rendered < byteLen t) := by
  unfold validateAndCompose
  by_cases hd : (reviewDiagnostics validated baseline options edits).isEmpty = true
  · have hg : gatedEdits validated baseline options edits =
        acceptedEdits validated baseline options edits := if_pos hd
    cases hl : acceptedEdits validated baseline options edits with
    | nil =>
      left
      refine ⟨hg.trans hl, reviewDiagnostics validated baseline options edits, ?_⟩
      simp
    | cons p l =>
      right
      refine ⟨by rw [hg, hl]; exact List.cons_ne_nil _ _, ?_⟩
      obtain ⟨t, ht, hlen⟩ := composeGrammar_lengthens
        (gatedEdits_accepted validated baseline options edits) (gatedEdits_apart edits)
      rw [hg, hl] at ht hlen
      refine ⟨t, ?_, by rw [hlen, List.length_cons]; omega⟩
      simp [hd, ht]
  · left
    refine ⟨if_neg hd, reviewDiagnostics validated baseline options edits, ?_⟩
    simp [hd]

theorem result_outcome (validated rendered : Text) (applied : Bool) (ds : List GrammarDiagnostic) :
    (result validated rendered applied ds).outcome =
      if rendered = validated then (if applied then .grammarOnly else .unchanged)
      else (if applied then .both else .formattingOnly) := by
  by_cases h : rendered = validated
  · cases applied <;> simp [result, h]
  · have hb : (rendered != validated) = true := by simpa using h
    cases applied <;> simp [result, hb, h]

theorem result_rendered (validated rendered : Text) (applied : Bool)
    (ds : List GrammarDiagnostic) : (result validated rendered applied ds).rendered = rendered := rfl

section
variable (sealer : Sealer) (decode : List UInt8 → Option Value) (validated version : Text)
  (baseline : FormattingBaseline) (candidateJson : List UInt8) (options : GrammarSafetyOptions)

/-- what the gate reports, in terms of the text that it starts from and of what it applies -/
theorem applyGrammarCandidateJson_cases :
    (identityFault sealer validated version baseline ≠ none ∧
      appliedEdits sealer decode validated version baseline candidateJson options = [] ∧
      ∃ ds, applyGrammarCandidateJson sealer decode validated version baseline candidateJson
        options = some (result validated validated false ds)) ∨
    (identityFault sealer validated version baseline = none ∧
      appliedEdits sealer decode validated version baseline candidateJson options = [] ∧
      ∃ ds, applyGrammarCandidateJson sealer decode validated version baseline candidateJson
        options = some (result validated baseline.rendered false ds)) ∨
    (identityFault sealer validated version baseline = none ∧
      appliedEdits sealer decode validated version baseline candidateJson options ≠ [] ∧
      ∃ t, applyGrammarCandidateJson sealer decode validated version baseline candidateJson
        options = some (result validated t true []) ∧ byteLen baseline.rendered < byteLen t) := by
  unfold applyGrammarCandidateJson appliedEdits
  cases hi : identityFault sealer validated version baseline with
  | some fault => exact Or.inl ⟨nofun, rfl, _, rfl⟩
  | none =>
    right
    cases hc : readCandidate decode validated version baseline candidateJson with
    | error fault => exact Or.inl ⟨rfl, rfl, _, rfl⟩
    | ok edits =>
      rcases validateAndCompose_cases validated baseline options edits with h | h
      · exact Or.inl ⟨rfl, h⟩
      · exact Or.inr ⟨rfl, h⟩

/-- **which outcome is reported when** -/
theorem outcome_reported :
    ∃ r, applyGrammarCandidateJson sealer decode validated version baseline candidateJson options =
        some r ∧
      (identityFault sealer validated version baseline ≠ none →
        r.outcome = .unchanged ∧ r.rendered = validated ∧
        appliedEdits sealer decode validated version baseline candidateJson options = []) ∧
      (identityFault sealer validated version baseline = none →
        (r.outcome = .formattingOnly ↔
          appliedEdits sealer decode validated version baseline candidateJson options = [] ∧
            baseline.rendered ≠ validated) ∧
        (r.outcome = .unchanged ↔
          appliedEdits sealer decode validated version baseline candidateJson options = [] ∧
            baseline.rendered = validated) ∧
        (r.outcome = .both ∨ r.outcome = .grammarOnly ↔
          appliedEdits sealer decode validated version baseline candidateJson options ≠ []) ∧
        (r.rendered = baseline.rendered ↔
          appliedEdits sealer decode validated version baseline candidateJson options = []) ∧
        (appliedEdits sealer decode validated version baseline candidateJson options ≠ [] →
          baseline.rendered ≠ validated → r.rendered ≠ validated → r.outcome = .both)) := by
  rcases applyGrammarCandidateJson_cases sealer decode validated version baseline candidateJson
    options with ⟨hi, ha, ds, hr⟩ | ⟨hi, ha, ds, hr⟩ | ⟨hi, ha, t, hr, hlt⟩
  · refine ⟨_, hr, fun _ => ⟨?_, rfl, ha⟩, fun h => absurd h hi⟩
    rw [result_outcome, if_pos rfl, if_neg Bool.false_ne_true]
  · refine ⟨_, hr, fun h => absurd hi h, fun _ => ?_⟩
    rw [result_outcome, result_rendered]
    by_cases hb : baseline.rendered = validated <;> simp [ha, hb]
  · refine ⟨_, hr, fun h => absurd hi h, fun _ => ?_⟩
    have hne : t ≠ baseline.rendered := by
      rintro rfl
      exact absurd hlt (lt_irrefl _)
    rw [result_outcome, result_rendered]
    by_cases ht : t = validated
    · rw [ht] at hne
      simp [ha, ht, hne]
    · simp [ha, ht, hne]
/-- what is applied to a transcript that the formatter left as it was is reported as both -/
theorem outcome_of_identity_baseline (hi : identityFault sealer validated version baseline = none)
    (hb : baseline.rendered = validated)
    (ha : appliedEdits sealer decode validated version baseline candidateJson options ≠ []) :
    ∃ r, applyGrammarCandidateJson sealer decode validated version baseline candidateJson options =
      some r ∧ r.outcome = .both := by
  rcases applyGrammarCandidateJson_cases sealer decode validated version baseline candidateJson
    options with ⟨hi', -, -⟩ | ⟨-, ha', -⟩ | ⟨-, -, t, hr, hlt⟩
  · exact absurd hi hi'
  · exact absurd ha' ha
  · refine ⟨_, hr, ?_⟩
    have hne : t ≠ validated := by
      rintro rfl
      rw [hb] at hlt
      exact absurd hlt (lt_irrefl _)
    rw [result_outcome, if_neg hne, if_pos rfl]

end

/-- a digest that tells nothing apart -/
def constantSealer : Sealer := ⟨fun _ => List.replicate 32 0, fun _ => []⟩

def didntBaseline : FormattingBaseline :=
  Formatting.formatValidatedForGrammar constantSealer (fun _ => false) "We didnt go.".toList
    "1".toList ⟨[], []⟩

def didntCandidate : Value :=
  .object [("base_version".toList, .string "1".toList),
    ("base_fingerprint".toList, .string didntBaseline.baseFingerprint),
    ("edits".toList, .array [.object [("id".toList, .string "e1".toList),
      ("rule_id".toList, .string "G_DIDNT_APOSTROPHE".toList),
      ("start_utf8".toList, .number (.posInt 3)), ("end_utf8".toList, .number (.posInt 8)),
      ("before".toList, .string "didnt".toList), ("after".toList, .string "didn't".toList)]])]

-- the formatter leaves this transcript alone, and the one edit is a grammar edit
example : didntBaseline.rendered = "We didnt go.".toList ∧
    (applyGrammarCandidateJson constantSealer (fun _ => some didntCandidate) "We didnt go.".toList
      "1".toList didntBaseline [] ⟨[], []⟩).map GrammarSafetyResult.outcome = some .both := by
  decide +kernel

section
variable (sealer : Sealer) (decode : List UInt8 → Option Value) (validated version : Text)
  (baseline : FormattingBaseline) (candidateJson : List UInt8) (options : GrammarSafetyOptions)

/-- the outcome that the baseline and the applied edits call for, whatever the identity -/
def OutcomeOfStages : Prop :=
  ∃ r, applyGrammarCandidateJson sealer decode validated version baseline candidateJson options =
      some r ∧
    (r.outcome = .grammarOnly ↔
      appliedEdits sealer decode validated version baseline candidateJson options ≠ [] ∧
        baseline.rendered = validated) ∧
    (r.outcome = .both ↔
      appliedEdits sealer decode validated version baseline candidateJson options ≠ [] ∧
        baseline.rendered ≠ validated) ∧
    (r.outcome = .formattingOnly ↔
      appliedEdits sealer decode validated version baseline candidateJson options = [] ∧
        baseline.rendered ≠ validated) ∧
    (r.outcome = .unchanged ↔
      appliedEdits sealer decode validated version baseline candidateJson options = [] ∧
        baseline.rendered = validated)

end

def helloBaseline : FormattingBaseline :=
  Formatting.formatValidatedForGrammar constantSealer (fun _ => false) "hello there".toList
    "1".toList ⟨[], []⟩

/-- the baseline of another version of the transcript leaves the transcript unchanged, though the
baseline's own text differs -/
theorem outcomeOfStages_stale : ¬ OutcomeOfStages constantSealer (fun _ => none)
    "hello there".toList "2".toList helloBaseline [] ⟨[], []⟩ := by
  rintro ⟨r, hr, -, -, hformatting, -⟩
  have hi : identityFault constantSealer "hello there".toList "2".toList helloBaseline =
      some (.formattingIdentity, "baseline identity differs from Validated Transcript") := by
    decide +kernel
  have hb : helloBaseline.rendered ≠ "hello there".toList := by decide +kernel
  have hnone : appliedEdits constantSealer (fun _ => none) "hello there".toList "2".toList
      helloBaseline [] ⟨[], []⟩ = [] := by rw [appliedEdits, hi]
  have hsome : applyGrammarCandidateJson constantSealer (fun _ => none) "hello there".toList
      "2".toList helloBaseline [] ⟨[], []⟩ = some (identityFailure "hello there".toList
        (.formattingIdentity, "baseline identity differs from Validated Transcript")) := by
    rw [applyGrammarCandidateJson, hi]
  have hout := hformatting.mpr ⟨hnone, hb⟩
  obtain rfl := Option.some.inj (hr.symm.trans hsome)
  rw [identityFailure, result_outcome, if_pos rfl] at hout
  cases hout

end Voisu.Grammar
