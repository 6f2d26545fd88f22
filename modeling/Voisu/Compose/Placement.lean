import Mathlib
import Voisu.Compose.Lexical

/-!
# Placing spans in their source

* `findLiteralSpans`   the occurrences of a needle, as byte ranges;
* `placeSpan`          the first occurrence that no earlier span has claimed;
* `coverageFailure`    the source text that no span has claimed.
-/

namespace Voisu.Compose
open Lib

/-- a half-open byte range -/
structure Range where
  start : Nat
  stop : Nat
deriving DecidableEq, Repr

/-! ## occurrences -/

def charsEqIgnoreCase (a b : Char) : Bool :=
  a == b || toAsciiLowercase a == toAsciiLowercase b || charToLowercase a == charToLowercase b

/-- `needle` at the front of `haystack`, character by character -/
def windowMatches (eq : Char → Char → Bool) (needle haystack : Text) : Bool :=
  needle.length ≤ haystack.length && (needle.zip haystack).all fun p => eq p.1 p.2

/-- the windows of the needle's length that match it, from offset `off` on -/
def windowSpans (eq : Char → Char → Bool) (needle : Text) (off : Nat) : Text → List Range
  | [] => []
  | c :: s =>
    let later := windowSpans eq needle (off + ByteSized.size c) s
    if windowMatches eq needle (c :: s) then
      ⟨off, off + byteLen ((c :: s).take needle.length)⟩ :: later
    else later

/-- runs of atoms of the haystack that spell the needle's atoms -/
def atomSpans (atoms : List Text) : List (Run Char) → List Range
  | [] => []
  | m :: ms =>
    let window := (m :: ms).take atoms.length
    let later := atomSpans atoms ms
    if window.map (fun a => toLowercase a.text) == atoms then
      ⟨m.start, ((window.getLast?).map Run.stop).getD 0⟩ :: later
    else later

def rangeLe (a b : Range) : Bool := a.start < b.start || (a.start == b.start && a.stop ≤ b.stop)

/-- exact and case-insensitive windows, without duplicates -/
def windowRanges (haystack needle : Text) : List Range :=
  ((windowSpans (fun a b => a == b) needle 0 haystack ++
      windowSpans charsEqIgnoreCase needle 0 haystack).insertionSort
    fun a b => rangeLe a b = true).dedup

def findLiteralSpans (haystack needle : Text) : List Range :=
  if needle.isEmpty || haystack.isEmpty then []
  else
    let out := windowRanges haystack needle
    if !out.isEmpty then out
    else
      let normN := toLowercase (normalizeWs needle)
      let normH := toLowercase (normalizeWs haystack)
      if normN.isEmpty || !contains normH normN then []
      else
        let atoms := lexicalAtomSequence needle
        if atoms.isEmpty then [] else atomSpans atoms (atomMatches haystack)

/-- `m` is the needle up to case, or spells the same atoms -/
def SpellsAs (needle m : Text) : Prop :=
  (m.length = needle.length ∧ (needle.zip m).all (fun p => charsEqIgnoreCase p.1 p.2) = true) ∨
    lexicalAtomSequence m = lexicalAtomSequence needle

theorem windowSpans_spec {eq : Char → Char → Bool} {needle s : Text} {off : Nat} {r : Range}
    (h : r ∈ windowSpans eq needle off s) :
    ∃ a m b, s = a ++ m ++ b ∧ r = ⟨off + byteLen a, off + byteLen a + byteLen m⟩ ∧
      m.length = needle.length ∧ (needle.zip m).all (fun p => eq p.1 p.2) = true := by
  induction s generalizing off with
  | nil => cases h
  | cons c s ih =>
    have hlater : r ∈ windowSpans eq needle (off + ByteSized.size c) s →
        ∃ a m b, c :: s = a ++ m ++ b ∧ r = ⟨off + byteLen a, off + byteLen a + byteLen m⟩ ∧
          m.length = needle.length ∧ (needle.zip m).all (fun p => eq p.1 p.2) = true := by
      intro h
      obtain ⟨a, m, b, rfl, hr, hl, he⟩ := ih h
      refine ⟨c :: a, m, b, rfl, ?_, hl, he⟩
      rw [hr, byteLen_cons, Nat.add_assoc off]
    unfold windowSpans at h
    simp only at h
    split at h
    · rename_i hm
      rcases List.mem_cons.mp h with rfl | h
      · obtain ⟨hlen, hz⟩ := Bool.and_eq_true_iff.mp hm
        have hlen : needle.length ≤ (c :: s).length := by simpa using hlen
        refine ⟨[], (c :: s).take needle.length, (c :: s).drop needle.length, ?_, rfl, ?_, ?_⟩
        · rw [List.nil_append, List.take_append_drop]
        · rw [List.length_take, Nat.min_eq_left hlen]
        · have hzip : needle.zip ((c :: s).take needle.length) = needle.zip (c :: s) := by
            have hz := @List.zip_eq_zip_take_min _ _ needle (c :: s)
            rw [Nat.min_eq_left hlen, List.take_length] at hz
            exact hz.symm
          rw [hzip]
          exact hz
      · exact hlater h
    · exact hlater h

theorem atomSpans_spec {atoms : List Text} {ms : List (Run Char)} {r : Range} (hne : atoms ≠ [])
    (h : r ∈ atomSpans atoms ms) :
    ∃ l m k first last, ms = l ++ (m ++ k) ∧ m.map (fun a => toLowercase a.text) = atoms ∧
      m.head? = some first ∧ m.getLast? = some last ∧ r = ⟨first.start, last.stop⟩ := by
  induction ms with
  | nil => cases h
  | cons x ms ih =>
    have hlater : r ∈ atomSpans atoms ms →
        ∃ l m k first last, x :: ms = l ++ (m ++ k) ∧
          m.map (fun a => toLowercase a.text) = atoms ∧ m.head? = some first ∧
          m.getLast? = some last ∧ r = ⟨first.start, last.stop⟩ := by
      intro h
      obtain ⟨l, m, k, first, last, rfl, h1, h2, h3, h4⟩ := ih h
      exact ⟨x :: l, m, k, first, last, rfl, h1, h2, h3, h4⟩
    unfold atomSpans at h
    simp only at h
    split at h
    · rename_i hw
      have hw : ((x :: ms).take atoms.length).map (fun a => toLowercase a.text) = atoms := by
        simpa using hw
      rcases List.mem_cons.mp h with rfl | h
      · obtain ⟨n, hn⟩ : ∃ n, atoms.length = n + 1 :=
          ⟨atoms.length - 1, by have := List.length_pos_iff.mpr hne; omega⟩
        have hwne : (x :: ms).take atoms.length ≠ [] := by rw [hn]; simp
        refine ⟨[], (x :: ms).take atoms.length, (x :: ms).drop atoms.length, x,
          ((x :: ms).take atoms.length).getLast hwne, ?_, hw, ?_, ?_, ?_⟩
        · rw [List.nil_append, List.take_append_drop]
        · rw [hn]
          rfl
        · exact List.getLast?_eq_some_getLast hwne
        · rw [List.getLast?_eq_some_getLast hwne]
          rfl
      · exact hlater h
    · exact hlater h

theorem windowRanges_spec {haystack needle : Text} {r : Range}
    (h : r ∈ windowRanges haystack needle) :
    ∃ a m b, haystack = a ++ m ++ b ∧ r = ⟨byteLen a, byteLen a + byteLen m⟩ ∧
      m.length = needle.length ∧
      (needle.zip m).all (fun p => charsEqIgnoreCase p.1 p.2) = true := by
  unfold windowRanges at h
  rw [List.mem_dedup, List.mem_insertionSort, List.mem_append] at h
  rcases h with h | h
  · obtain ⟨a, m, b, hs, hr, hl, he⟩ := windowSpans_spec h
    rw [Nat.zero_add] at hr
    refine ⟨a, m, b, hs, hr, hl, ?_⟩
    rw [List.all_eq_true] at he ⊢
    intro p hp
    unfold charsEqIgnoreCase
    rw [he p hp]
    rfl
  · obtain ⟨a, m, b, hs, hr, hl, he⟩ := windowSpans_spec h
    rw [Nat.zero_add] at hr
    exact ⟨a, m, b, hs, hr, hl, he⟩

/-- **every range found is a non-empty piece of the haystack that spells the needle** -/
theorem findLiteralSpans_spec {haystack needle : Text} {r : Range}
    (h : r ∈ findLiteralSpans haystack needle) :
    ∃ a m b, haystack = a ++ m ++ b ∧ r = ⟨byteLen a, byteLen a + byteLen m⟩ ∧ m ≠ [] ∧
      SpellsAs needle m := by
  unfold findLiteralSpans at h
  simp only at h
  split at h
  · cases h
  rename_i hne
  have hneedle : needle ≠ [] := by
    intro h0
    exact hne (by rw [h0]; rfl)
  split at h
  · obtain ⟨a, m, b, hs, hr, hl, he⟩ := windowRanges_spec h
    refine ⟨a, m, b, hs, hr, ?_, Or.inl ⟨hl, he⟩⟩
    intro h0
    rw [h0] at hl
    exact hneedle (List.length_eq_zero_iff.mp hl.symm)
  · split at h
    · cases h
    · split at h
      · cases h
      · rename_i hatoms
        have hatoms : lexicalAtomSequence needle ≠ [] := by simpa using hatoms
        obtain ⟨l, m, k, first, last, hms, h1, h2, h3, rfl⟩ := atomSpans_spec hatoms h
        obtain ⟨a, w, b, hs, h4, h5, h6, -, -⟩ := atomRuns_segment hms h2 h3
        rw [Nat.zero_add] at h4 h5
        have hw : lexicalAtomSequence w = lexicalAtomSequence needle := by
          rw [lexicalAtomSequence_eq w, h6, List.map_map, ← h1]
          rfl
        refine ⟨a, w, b, hs, by rw [← h4, ← h5], ?_, Or.inr hw⟩
        intro h0
        rw [h0] at hw
        exact hatoms hw.symm

/-! ## placement -/

/-- a claim on the source of a provider -/
structure Claim where
  provider : Text
  range : Range
deriving DecidableEq, Repr

def rangesOverlap (a b : Range) : Bool := a.start < b.stop && b.start < a.stop

inductive SpanPlacement where
  | placed (range : Range)
  | overlapped
  | outOfOrder
deriving DecidableEq, Repr

def claimsOf (provider : Text) (claimed : List Claim) : List Range :=
  (claimed.filter fun c => c.provider == provider).map Claim.range

/-- the start of the last claim on the provider's source; claims are in the order they were made -/
def prevStart (provider : Text) (claimed : List Claim) : Option Nat :=
  (claimsOf provider claimed).getLast?.map Range.start

def placeSpan (source : Option Text) (claimed : List Claim) (provider sourceText : Text) :
    SpanPlacement :=
  match source with
  | none => .overlapped
  | some hay =>
    if sourceText.isEmpty then .overlapped
    else
      let candidates :=
        (findLiteralSpans hay sourceText).insertionSort fun a b => a.start ≤ b.start
      match candidates.find? fun cand =>
          !(claimsOf provider claimed).any fun used => rangesOverlap cand used with
      | none => .overlapped
      | some range =>
        if (prevStart provider claimed).any fun prev => range.start < prev then .outOfOrder
        else .placed range

/-- **a placed span lies on an occurrence that is free and not before the last claim** -/
theorem placeSpan_spec {source : Option Text} {claimed : List Claim} {provider sourceText : Text}
    {range : Range} (h : placeSpan source claimed provider sourceText = .placed range) :
    ∃ hay, source = some hay ∧ range ∈ findLiteralSpans hay sourceText ∧
      (∀ used ∈ claimsOf provider claimed, rangesOverlap range used = false) ∧
      ∀ prev, prevStart provider claimed = some prev → prev ≤ range.start := by
  unfold placeSpan at h
  split at h
  · cases h
  rename_i hay
  split at h
  · cases h
  simp only at h
  split at h
  · cases h
  rename_i r hfind
  split at h
  · cases h
  rename_i hprev
  obtain rfl := SpanPlacement.placed.inj h
  refine ⟨hay, rfl, ?_, ?_, ?_⟩
  · exact (List.mem_insertionSort _).mp (List.mem_of_find?_eq_some hfind)
  · have := List.find?_some hfind
    simpa using this
  · intro prev hp
    rw [hp] at hprev
    simpa using hprev

/-! ## coverage -/

def covers (ranges : List Range) (k : Nat) : Bool :=
  ranges.any fun r => r.start ≤ k && k < r.stop

/-- every character that is not whitespace starts inside a range -/
def coveredFrom (ranges : List Range) (off : Nat) : Text → Bool
  | [] => true
  | c :: s =>
    (isWhitespace c || covers ranges off) && coveredFrom ranges (off + ByteSized.size c) s

end Voisu.Compose
