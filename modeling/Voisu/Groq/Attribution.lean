import Mathlib
import Voisu.Groq.Merge
import Voisu.Arbitration.Flips

/-!
# Whose confidence a merged word gets

The merged text and the merged word list are two separate lists, and arbitration reads the second along
the first from its front.  A confidence is right where it lands on the word its chunk reported it for.

* `Reported`       a confidence that a chunk reported for a position of the merged text;
* `NeverWrong`     every confidence that arbitration assigns is reported for its position;
* `Seam`           what the merge has and what a chunk brings;
* `Seam.Lands`     the kept entries of the chunk land on the words they were reported for;
* `neverWrong_iff` when no confidence of a list of chunks can be wrong;
* `lateEvidence`   a chunk without words shifts the confidences of the next one.
-/

namespace Voisu.Groq
open Lib Decision Arbitration

/-- the normalized words of a list of words -/
def spoken (words : List Text) : List Text := words.flatMap tokenParts

/-- the entry that each normalized word of a list comes from; the first entry has index `n` -/
def entriesFrom (n : Nat) : List Text → List Nat
  | [] => []
  | word :: words => List.replicate (tokenParts word).length n ++ entriesFrom (n + 1) words

/-- `merged` and `heard` are the words and the entries merged so far, `text` and `words` those of a chunk -/
structure Seam where
  merged : List Text
  heard : List Text
  text : Text
  words : List Text

namespace Seam
variable (s : Seam)

def overlap : Nat := overlapOf s.merged (splitWhitespace s.text)

/-- the position of the merged text at which the text of the chunk begins -/
def base : Nat := (spoken (s.merged.take (s.merged.length - s.overlap))).length

/-- the normalized words of the entries that are left out -/
def skipped : Nat := (spoken (s.words.take s.overlap)).length

/-- the position at which the kept entries of the chunk land -/
def placed : Nat := (spoken s.heard).length

def kept : List Text := spoken (s.words.drop s.overlap)

/-- one kept entry has all the kept words -/
def OneEntry : Prop := ∀ i j, s.skipped ≤ i → s.skipped ≤ j → ∀ a b,
  (entriesFrom 0 s.words)[i]? = some a → (entriesFrom 0 s.words)[j]? = some b → a = b

/-- the kept entries land on the words they were reported for: none is kept, they land behind the
`total` words of the text, they land in place, or the end of the text is one entry -/
def Lands (total : Nat) : Prop :=
  s.kept = [] ∨ total ≤ s.placed ∨ s.placed = s.base + s.skipped ∨
    (s.base + s.skipped < s.placed ∧ total = s.base + (normalizedWords s.text).length ∧ s.OneEntry)

end Seam

/-- the merge of the first `k` chunks -/
def mergedBefore (ts : List GroqChunkTranscript) (k : Nat) : List Text × Evidence :=
  (ts.take k).foldl mergeChunk ([], [])

def seam (ts : List GroqChunkTranscript) (k : Nat) (t : GroqChunkTranscript) : Seam :=
  { merged := (mergedBefore ts k).1, heard := (mergedBefore ts k).2.map Prod.fst
    text := t.text, words := t.words.map Prod.fst }

/-- a chunk that reports no word, or the words of its text -/
def Faithful (t : GroqChunkTranscript) : Prop :=
  t.words = [] ∨ spoken (t.words.map Prod.fst) = normalizedWords t.text

/-- some chunk whose text produced the position `p` reported `c` for the word there -/
def Reported (ts : List GroqChunkTranscript) (p : Nat) (c : F64) : Prop :=
  ∃ k t word x, ts[k]? = some t ∧ (seam ts k t).base ≤ p ∧
    (evidenceParts t.words)[p - (seam ts k t).base]? = some (word, x) ∧ c = clampConfidence x

/-- every confidence that is assigned is reported for its position -/
def NeverWrong (ts : List GroqChunkTranscript) : Prop :=
  ∀ side, tryPrepareSide (mergeChunkTranscripts ts).text (mergeChunkTranscripts ts).words = some side →
    ∀ p c, side.confidences[p]? = some (some c) → Reported ts p c

/-- what a chunk says, without its confidences -/
def GroqChunkTranscript.said (t : GroqChunkTranscript) : Text × List Text :=
  (t.text, t.words.map Prod.fst)

/-- the normalized words of the merged text -/
def total (ts : List GroqChunkTranscript) : List Text := spoken (mergedBefore ts ts.length).1

/-- the merged entries run along the merged text -/
def Describes (ts : List GroqChunkTranscript) : Prop :=
  ∀ (p : Nat) word word', (total ts)[p]? = some word →
    (spoken ((mergedBefore ts ts.length).2.map Prod.fst))[p]? = some word' → word = word'

/-- the chunks that merge without a shift, where the merged entries run along the merged text at all -/
def Aligned (ts : List GroqChunkTranscript) : Prop :=
  Describes ts → ∀ k t, ts[k]? = some t → (seam ts k t).Lands (total ts).length

/-! ## entries and their words -/

theorem spoken_append (ws ws' : List Text) : spoken (ws ++ ws') = spoken ws ++ spoken ws' :=
  List.flatMap_append

example : spoken ["Don't,".toList, "-".toList] = ["do".toList, "not".toList] := by decide +kernel

theorem evidenceParts_append (e e' : Evidence) :
    evidenceParts (e ++ e') = evidenceParts e ++ evidenceParts e' :=
  List.flatMap_append

theorem evidenceParts_words (e : Evidence) :
    (evidenceParts e).map Prod.fst = spoken (e.map Prod.fst) := by
  unfold evidenceParts spoken
  rw [List.map_flatMap, List.flatMap_map]
  congr 1
  funext entry
  rw [List.map_map]
  exact List.map_id _

theorem evidenceParts_length (e : Evidence) :
    (evidenceParts e).length = (spoken (e.map Prod.fst)).length := by
  rw [← evidenceParts_words, List.length_map]

theorem entriesFrom_append (n : Nat) (ws ws' : List Text) :
    entriesFrom n (ws ++ ws') = entriesFrom n ws ++ entriesFrom (n + ws.length) ws' := by
  induction ws generalizing n with
  | nil => rfl
  | cons w ws ih =>
    rw [List.cons_append, entriesFrom, entriesFrom, ih, List.append_assoc, List.length_cons,
      Nat.add_right_comm, Nat.add_assoc n]

theorem entriesFrom_length (n : Nat) (ws : List Text) : (entriesFrom n ws).length = (spoken ws).length := by
  induction ws generalizing n with
  | nil => rfl
  | cons w ws ih =>
    have hcons : spoken (w :: ws) = tokenParts w ++ spoken ws := List.flatMap_cons
    rw [entriesFrom, List.length_append, List.length_replicate, ih, hcons, List.length_append]

theorem mem_entriesFrom {n a : Nat} {ws : List Text} (h : a ∈ entriesFrom n ws) :
    n ≤ a ∧ a < n + ws.length := by
  induction ws generalizing n with
  | nil => cases h
  | cons w ws ih =>
    rw [entriesFrom, List.mem_append] at h
    rw [List.length_cons]
    rcases h with h | h
    · have := List.eq_of_mem_replicate h
      omega
    · have := ih h
      omega

theorem entriesFrom_sorted (n : Nat) (ws : List Text) : (entriesFrom n ws).Pairwise (· ≤ ·) := by
  induction ws generalizing n with
  | nil => exact .nil
  | cons w ws ih =>
    rw [entriesFrom, List.pairwise_append]
    refine ⟨List.pairwise_replicate.mpr (.inr le_rfl), ih (n + 1), ?_⟩
    intro a ha b hb
    have hb := (mem_entriesFrom hb).1
    rw [List.eq_of_mem_replicate ha]
    omega

/-- a normalized word has the confidence of its entry -/
theorem evidenceParts_entry {e : Evidence} {i : Nat} {word : Text} {x : F64} (n : Nat)
    (h : (evidenceParts e)[i]? = some (word, x)) :
    ∃ a v, (entriesFrom n (e.map Prod.fst))[i]? = some (n + a) ∧ e[a]? = some (v, x) := by
  induction e generalizing i n with
  | nil => cases h
  | cons entry e ih =>
    have hcons : evidenceParts (entry :: e) =
        ((tokenParts entry.1).map fun part => (part, entry.2)) ++ evidenceParts e := rfl
    rw [hcons] at h
    rw [List.map_cons, entriesFrom]
    by_cases hi : i < (tokenParts entry.1).length
    · rw [List.getElem?_append_left (by rwa [List.length_map]), List.getElem?_map] at h
      obtain ⟨part, -, hpart⟩ := Option.map_eq_some_iff.mp h
      refine ⟨0, entry.1, ?_, ?_⟩
      · rw [List.getElem?_append_left (by rwa [List.length_replicate]), List.getElem?_replicate,
          if_pos hi]
        rfl
      · rw [← (Prod.mk.inj hpart).2]
        rfl
    · rw [List.getElem?_append_right (by rw [List.length_map]; omega), List.length_map] at h
      obtain ⟨a, v, ha, hv⟩ := ih (n + 1) h
      refine ⟨a + 1, v, ?_, hv⟩
      rw [List.getElem?_append_right (by rw [List.length_replicate]; omega), List.length_replicate, ha,
        Nat.add_right_comm, Nat.add_assoc]

/-! ## reading the entries along the text -/

theorem assignConfidences_some {ws : List Text} {e : Evidence} {cs : List (Option F64)}
    (h : assignConfidences ws e = some cs) :
    (∀ (p : Nat) c, cs[p]? = some (some c) → ∃ word x, ws[p]? = some word ∧ e[p]? = some (word, x) ∧
      c = clampConfidence x) ∧
    ∀ (p : Nat) word word' x, ws[p]? = some word → e[p]? = some (word', x) → word = word' := by
  induction ws generalizing e cs with
  | nil =>
    cases h
    exact ⟨nofun, nofun⟩
  | cons w ws ih =>
    cases e with
    | nil =>
      cases h
      refine ⟨?_, nofun⟩
      intro p c hc
      rw [List.getElem?_map] at hc
      obtain ⟨a, -, ha⟩ := Option.map_eq_some_iff.mp hc
      cases ha
    | cons entry e =>
      obtain ⟨part, x⟩ := entry
      rw [assignConfidences] at h
      split at h
      · rename_i hw
        obtain ⟨rest, hrest, rfl⟩ := Option.map_eq_some_iff.mp h
        obtain ⟨hc, hsame⟩ := ih hrest
        refine ⟨?_, ?_⟩
        · intro p c hp
          cases p with
          | zero =>
            cases hp
            exact ⟨w, x, rfl, by rw [hw]; rfl, rfl⟩
          | succ p => exact hc p c hp
        · intro p word word' x' hp hp'
          cases p with
          | zero =>
            cases hp
            cases hp'
            exact hw
          | succ p => exact hsame p word word' x' hp hp'
      · cases h

theorem assignConfidences_of_same {ws : List Text} {e : Evidence}
    (h : ∀ (p : Nat) word word' x, ws[p]? = some word → e[p]? = some (word', x) → word = word') :
    ∃ cs, assignConfidences ws e = some cs ∧ ∀ (p : Nat) word x, p < ws.length → e[p]? = some (word, x) →
      cs[p]? = some (some (clampConfidence x)) := by
  induction ws generalizing e with
  | nil => exact ⟨[], rfl, nofun⟩
  | cons w ws ih =>
    cases e with
    | nil => exact ⟨_, rfl, nofun⟩
    | cons entry e =>
      obtain ⟨part, x⟩ := entry
      obtain ⟨rest, hrest, hc⟩ := ih fun p word word' x' => h (p + 1) word word' x'
      have hw : w = part := h 0 w part x rfl rfl
      refine ⟨some (clampConfidence x) :: rest, ?_, ?_⟩
      · rw [assignConfidences, if_pos hw, hrest]
        rfl
      · intro p word x' hp hp'
        cases p with
        | zero =>
          cases hp'
          rfl
        | succ p => exact hc p word x' (Nat.lt_of_succ_lt_succ hp) hp'

/-! ## the merge, chunk by chunk -/

theorem overlapWords_spec (merged words : List Text) (bound : Nat) :
    merged.drop (merged.length - overlapWords merged words bound) =
      words.take (overlapWords merged words bound) := by
  induction bound with
  | zero => rw [overlapWords, Nat.sub_zero, List.drop_length, List.take_zero]
  | succ bound ih =>
    rw [overlapWords]
    split
    · assumption
    · exact ih

example : overlapOf ["a".toList, "b".toList] ["b".toList, "c".toList] = 1 := by decide +kernel

section
variable {ts : List GroqChunkTranscript} {k : Nat} {t : GroqChunkTranscript}

theorem mergedBefore_succ (h : ts[k]? = some t) :
    mergedBefore ts (k + 1) = mergeChunk (mergedBefore ts k) t := by
  unfold mergedBefore
  rw [List.take_add_one, h, List.foldl_append]
  rfl

theorem mergedBefore_none (h : ts[k]? = none) : mergedBefore ts (k + 1) = mergedBefore ts k := by
  unfold mergedBefore
  rw [List.take_add_one, h, Option.toList_none, List.append_nil]

/-- the text of a chunk is whole in the merged text -/
theorem mergedBefore_text (h : ts[k]? = some t) : (mergedBefore ts (k + 1)).1 =
    (seam ts k t).merged.take ((seam ts k t).merged.length - (seam ts k t).overlap) ++
      splitWhitespace t.text := by
  rw [mergedBefore_succ h]
  show (seam ts k t).merged ++ (splitWhitespace t.text).drop (seam ts k t).overlap = _
  have hsame : (seam ts k t).merged.drop ((seam ts k t).merged.length - (seam ts k t).overlap) =
      (splitWhitespace t.text).take (seam ts k t).overlap := overlapWords_spec _ _ _
  generalize (seam ts k t).overlap = shared at hsame ⊢
  calc (seam ts k t).merged ++ (splitWhitespace t.text).drop shared
      = ((seam ts k t).merged.take ((seam ts k t).merged.length - shared) ++
          (seam ts k t).merged.drop ((seam ts k t).merged.length - shared)) ++
          (splitWhitespace t.text).drop shared := by rw [List.take_append_drop]
    _ = (seam ts k t).merged.take ((seam ts k t).merged.length - shared) ++
          ((splitWhitespace t.text).take shared ++ (splitWhitespace t.text).drop shared) := by
        rw [hsame, List.append_assoc]
    _ = (seam ts k t).merged.take ((seam ts k t).merged.length - shared) ++
          splitWhitespace t.text := by rw [List.take_append_drop]

theorem mergedBefore_words (h : ts[k]? = some t) : (mergedBefore ts (k + 1)).2 =
    (mergedBefore ts k).2 ++ t.words.drop (seam ts k t).overlap := by
  rw [mergedBefore_succ h]
  rfl

theorem mergedBefore_mono (ts : List GroqChunkTranscript) {k n : Nat} (h : k ≤ n) :
    (mergedBefore ts k).1 <+: (mergedBefore ts n).1 ∧
      (mergedBefore ts k).2 <+: (mergedBefore ts n).2 := by
  induction n, h using Nat.le_induction with
  | base => exact ⟨List.prefix_rfl, List.prefix_rfl⟩
  | succ n _ ih =>
    cases hn : ts[n]? with
    | none => rwa [mergedBefore_none hn]
    | some t =>
      rw [mergedBefore_succ hn]
      exact ⟨ih.1.trans (List.prefix_append _ _), ih.2.trans (List.prefix_append _ _)⟩

theorem lt_length_of_chunk (h : ts[k]? = some t) : k + 1 ≤ ts.length :=
  (List.getElem?_eq_some_iff.mp h).1

theorem mergedBefore_tokens (ts : List GroqChunkTranscript) (n : Nat) :
    ∀ w ∈ (mergedBefore ts n).1, IsToken w := by
  induction n with
  | zero => exact nofun
  | succ n ih =>
    cases hn : ts[n]? with
    | none => rwa [mergedBefore_none hn]
    | some t =>
      rw [mergedBefore_text hn]
      intro w hw
      rcases List.mem_append.mp hw with hw | hw
      · exact ih w (List.mem_of_mem_take hw)
      · exact words_all hw

theorem mergeChunkTranscripts_eq (ts : List GroqChunkTranscript) : mergeChunkTranscripts ts =
    ⟨[' '].intercalate (mergedBefore ts ts.length).1, (mergedBefore ts ts.length).2⟩ := by
  unfold mergeChunkTranscripts mergedBefore
  rw [List.take_length]

theorem normalizedWords_merged (ts : List GroqChunkTranscript) :
    normalizedWords (mergeChunkTranscripts ts).text = total ts := by
  rw [mergeChunkTranscripts_eq]
  unfold normalizedWords splitWhitespace
  rw [words_join (mergedBefore_tokens ts _)]
  rfl

example : normalizedWords "Don't go".toList = ["do".toList, "not".toList, "go".toList] := by decide +kernel

/-- an entry of the merge was kept by some chunk -/
theorem mergedBefore_locate {n p : Nat} {y : Text × F64}
    (h : (evidenceParts (mergedBefore ts n).2)[p]? = some y) :
    ∃ k t, ts[k]? = some t ∧ (seam ts k t).placed ≤ p ∧
      (evidenceParts (t.words.drop (seam ts k t).overlap))[p - (seam ts k t).placed]? = some y := by
  induction n with
  | zero => cases h
  | succ n ih =>
    cases hn : ts[n]? with
    | none =>
      rw [mergedBefore_none hn] at h
      exact ih h
    | some t =>
      rw [mergedBefore_words hn, evidenceParts_append] at h
      have hplaced : (seam ts n t).placed = (evidenceParts (mergedBefore ts n).2).length :=
        (evidenceParts_length _).symm
      by_cases hp : p < (evidenceParts (mergedBefore ts n).2).length
      · rw [List.getElem?_append_left hp] at h
        exact ih h
      · rw [List.getElem?_append_right (by omega), ← hplaced] at h
        exact ⟨n, t, hn, by omega, h⟩

/-- a kept entry is in the merge, where its chunk placed it -/
theorem mergedBefore_placed (h : ts[k]? = some t) {j : Nat} {y : Text × F64}
    (hy : (evidenceParts (t.words.drop (seam ts k t).overlap))[j]? = some y) :
    (evidenceParts (mergedBefore ts ts.length).2)[(seam ts k t).placed + j]? = some y := by
  obtain ⟨r, hr⟩ := (mergedBefore_mono ts (lt_length_of_chunk h)).2
  have hplaced : (seam ts k t).placed = (evidenceParts (mergedBefore ts k).2).length :=
    (evidenceParts_length _).symm
  have hj := (List.getElem?_eq_some_iff.mp hy).1
  rw [← hr, mergedBefore_words h, evidenceParts_append, evidenceParts_append, List.append_assoc,
    List.getElem?_append_right (by omega), hplaced, Nat.add_sub_cancel_left,
    List.getElem?_append_left hj]
  exact hy

/-- the text of a chunk ends within the merged text -/
theorem base_add_le_total (h : ts[k]? = some t) :
    (seam ts k t).base + (normalizedWords t.text).length ≤ (total ts).length := by
  obtain ⟨r, hr⟩ := (mergedBefore_mono ts (lt_length_of_chunk h)).1
  unfold total
  rw [← hr, mergedBefore_text h, spoken_append, spoken_append, List.length_append, List.length_append]
  exact Nat.le_add_right _ _

/-- the entries of a chunk: those left out, then those kept -/
theorem evidenceParts_split (t : GroqChunkTranscript) (n j : Nat) :
    (evidenceParts t.words)[(spoken ((t.words.map Prod.fst).take n)).length + j]? =
      (evidenceParts (t.words.drop n))[j]? := by
  have hlen : (spoken ((t.words.map Prod.fst).take n)).length =
      (evidenceParts (t.words.take n)).length := by
    rw [evidenceParts_length, List.map_take]
  conv_lhs => rw [← List.take_append_drop n t.words]
  rw [evidenceParts_append, List.map_append, ← List.map_append, List.take_append_drop, hlen,
    List.getElem?_append_right (Nat.le_add_right _ _), Nat.add_sub_cancel_left]

end

/-! ## aligned chunks -/

theorem normWords_wordTokens (text : Text) :
    (normWordsFrom 0 (wordTokens text)).map NormWord.word = normalizedWords text := by
  rw [normWordsFrom_words]
  unfold normalizedWords splitWhitespace words
  rw [List.flatMap_map]
  rfl

theorem tryPrepareSide_confidences {text : Text} {e : Evidence} {side : PreparedSide}
    (h : tryPrepareSide text e = some side) :
    assignConfidences (normalizedWords text) (evidenceParts e) = some side.confidences := by
  unfold tryPrepareSide at h
  obtain ⟨cs, hcs, rfl⟩ := Option.map_eq_some_iff.mp h
  rw [← normWords_wordTokens]
  exact hcs

theorem tryPrepareSide_of_confidences {text : Text} {e : Evidence} {cs : List (Option F64)}
    (h : assignConfidences (normalizedWords text) (evidenceParts e) = some cs) :
    ∃ side, tryPrepareSide text e = some side ∧ side.confidences = cs := by
  rw [← normWords_wordTokens] at h
  unfold tryPrepareSide
  dsimp only
  rw [h]
  exact ⟨_, rfl, rfl⟩

section
variable {ts : List GroqChunkTranscript} {k : Nat} {t : GroqChunkTranscript}

theorem merged_confidences {side : PreparedSide}
    (h : tryPrepareSide (mergeChunkTranscripts ts).text (mergeChunkTranscripts ts).words = some side) :
    assignConfidences (total ts) (evidenceParts (mergedBefore ts ts.length).2) =
      some side.confidences := by
  have hcs := tryPrepareSide_confidences h
  rw [normalizedWords_merged, mergeChunkTranscripts_eq] at hcs
  exact hcs

theorem merged_side {cs : List (Option F64)}
    (h : assignConfidences (total ts) (evidenceParts (mergedBefore ts ts.length).2) = some cs) :
    ∃ side, tryPrepareSide (mergeChunkTranscripts ts).text (mergeChunkTranscripts ts).words = some side ∧
      side.confidences = cs := by
  apply tryPrepareSide_of_confidences
  rw [normalizedWords_merged, mergeChunkTranscripts_eq]
  exact h

/-- the words of the merged entries, read off the entries -/
theorem describes_iff : Describes ts ↔ ∀ (p : Nat) word word' x, (total ts)[p]? = some word →
    (evidenceParts (mergedBefore ts ts.length).2)[p]? = some (word', x) → word = word' := by
  unfold Describes
  rw [← evidenceParts_words]
  refine ⟨?_, ?_⟩
  · intro h p word word' x hw he
    refine h p word word' hw ?_
    rw [List.getElem?_map, he]
    rfl
  · intro h p word word' hw he
    rw [List.getElem?_map] at he
    obtain ⟨⟨w, x⟩, hx, rfl⟩ := Option.map_eq_some_iff.mp he
    exact h p word w x hw hx

theorem kept_eq (ts : List GroqChunkTranscript) (k : Nat) (t : GroqChunkTranscript) :
    (seam ts k t).kept = (evidenceParts (t.words.drop (seam ts k t).overlap)).map Prod.fst := by
  rw [evidenceParts_words, List.map_drop]
  rfl

/-- a chunk that keeps an entry reports the words of its text -/
theorem Faithful.length_eq (h : Faithful t) (hne : t.words ≠ []) :
    (evidenceParts t.words).length = (normalizedWords t.text).length := by
  rcases h with h | h
  · exact absurd h hne
  · rw [evidenceParts_length, h]

example : spoken ["Don't".toList, "go".toList] = normalizedWords "Don't go".toList := by decide +kernel

theorem words_ne_nil_of_kept {n j : Nat} {y : Text × F64}
    (h : (evidenceParts (t.words.drop n))[j]? = some y) : t.words ≠ [] := by
  intro hnil
  rw [hnil, List.drop_nil] at h
  cases h

/-- **the confidences of aligned chunks are right** -/
theorem Aligned.neverWrong (hfaithful : ∀ t ∈ ts, Faithful t) (h : Aligned ts) : NeverWrong ts := by
  intro side hside p c hc
  obtain ⟨hassigned, hsame⟩ := assignConfidences_some (merged_confidences hside)
  obtain ⟨word, x, htotal, hx, rfl⟩ := hassigned p c hc
  have hp : p < (total ts).length := (List.getElem?_eq_some_iff.mp htotal).1
  obtain ⟨k, t, hk, hplaced, hkept⟩ := mergedBefore_locate hx
  have hsplit := evidenceParts_split t (seam ts k t).overlap (p - (seam ts k t).placed)
  rw [hkept] at hsplit
  have hsplit : (evidenceParts t.words)[(seam ts k t).skipped + (p - (seam ts k t).placed)]? =
    some (word, x) := hsplit
  rcases h (describes_iff.mpr hsame) k t hk with hnil | hbehind | hplace | ⟨hlt, hend, hone⟩
  · rw [kept_eq, List.map_eq_nil_iff] at hnil
    rw [hnil] at hkept
    cases hkept
  · omega
  · refine ⟨k, t, word, x, hk, by omega, ?_, rfl⟩
    have hplaces : p - (seam ts k t).base =
        (seam ts k t).skipped + (p - (seam ts k t).placed) := by omega
    rw [hplaces]
    exact hsplit
  · -- the position is of another word of the same entry
    have hlen := (hfaithful t (List.mem_of_getElem? hk)).length_eq (words_ne_nil_of_kept hkept)
    have hin : p - (seam ts k t).base < (evidenceParts t.words).length := by
      have hend : (total ts).length = (seam ts k t).base + (normalizedWords t.text).length := hend
      omega
    obtain ⟨word', x', hx'⟩ : ∃ word' x',
        (evidenceParts t.words)[p - (seam ts k t).base]? = some (word', x') :=
      ⟨_, _, List.getElem?_eq_getElem hin⟩
    obtain ⟨a, v, ha, hv⟩ := evidenceParts_entry 0 hsplit
    obtain ⟨a', v', ha', hv'⟩ := evidenceParts_entry 0 hx'
    have heq := hone _ _ (Nat.le_add_right _ _) (by omega) _ _ ha ha'
    rw [Nat.zero_add, Nat.zero_add] at heq
    rw [← heq, hv] at hv'
    cases hv'
    exact ⟨k, t, word', x, hk, by omega, hx', rfl⟩

end

/-! ## chunks that say the same -/

section
variable {ts ts' : List GroqChunkTranscript}

theorem said_chunk (h : ts'.map GroqChunkTranscript.said = ts.map GroqChunkTranscript.said) {k : Nat}
    {t : GroqChunkTranscript} (hk : ts[k]? = some t) : ∃ t', ts'[k]? = some t' ∧ t'.said = t.said := by
  have hsaid := congrArg (fun l => l[k]?) h
  simp only [List.getElem?_map, hk, Option.map_some] at hsaid
  exact Option.map_eq_some_iff.mp hsaid

theorem said_length (h : ts'.map GroqChunkTranscript.said = ts.map GroqChunkTranscript.said) :
    ts'.length = ts.length := by
  have hlen := congrArg List.length h
  rwa [List.length_map, List.length_map] at hlen

theorem seam_said (h : (mergedBefore ts' k).1 = (mergedBefore ts k).1 ∧
      (mergedBefore ts' k).2.map Prod.fst = (mergedBefore ts k).2.map Prod.fst)
    {t t' : GroqChunkTranscript} (ht : t'.said = t.said) : seam ts' k t' = seam ts k t := by
  obtain ⟨htext, hwords⟩ := Prod.mk.inj ht
  unfold seam
  rw [h.1, h.2, htext, hwords]

/-- the merge does not read the confidences -/
theorem mergedBefore_said (h : ts'.map GroqChunkTranscript.said = ts.map GroqChunkTranscript.said)
    (n : Nat) : (mergedBefore ts' n).1 = (mergedBefore ts n).1 ∧
      (mergedBefore ts' n).2.map Prod.fst = (mergedBefore ts n).2.map Prod.fst := by
  induction n with
  | zero => exact ⟨rfl, rfl⟩
  | succ n ih =>
    cases hn : ts[n]? with
    | none =>
      have hn' : ts'[n]? = none := by
        rw [List.getElem?_eq_none_iff] at hn ⊢
        rwa [said_length h]
      rw [mergedBefore_none hn, mergedBefore_none hn']
      exact ih
    | some t =>
      obtain ⟨t', hn', ht⟩ := said_chunk h hn
      have hseam := seam_said ih ht
      obtain ⟨htext, hwords⟩ := Prod.mk.inj ht
      refine ⟨?_, ?_⟩
      · rw [mergedBefore_text hn, mergedBefore_text hn', hseam, htext]
      · rw [mergedBefore_words hn, mergedBefore_words hn', hseam, List.map_append, List.map_append,
          List.map_drop, List.map_drop, ih.2, hwords]

theorem total_said (h : ts'.map GroqChunkTranscript.said = ts.map GroqChunkTranscript.said) :
    total ts' = total ts := by
  unfold total
  rw [said_length h, (mergedBefore_said h _).1]

theorem Describes.said (h : ts'.map GroqChunkTranscript.said = ts.map GroqChunkTranscript.said)
    (hd : Describes ts) : Describes ts' := by
  unfold Describes
  rw [total_said h, said_length h, (mergedBefore_said h _).2]
  exact hd

theorem Aligned.said (h : ts'.map GroqChunkTranscript.said = ts.map GroqChunkTranscript.said)
    (ha : Aligned ts) : Aligned ts' := by
  intro hd k t' hk'
  obtain ⟨t, hk, ht⟩ := said_chunk h.symm hk'
  rw [seam_said (mergedBefore_said h k) ht.symm, total_said h]
  exact ha (hd.said h.symm) k t hk

theorem faithful_said (h : ts'.map GroqChunkTranscript.said = ts.map GroqChunkTranscript.said)
    (hf : ∀ t ∈ ts, Faithful t) : ∀ t ∈ ts', Faithful t := by
  intro t' ht'
  obtain ⟨k, hk'⟩ := List.mem_iff_getElem?.mp ht'
  obtain ⟨t, hk, ht⟩ := said_chunk h.symm hk'
  obtain ⟨htext, hwords⟩ := Prod.mk.inj ht
  unfold Faithful
  rw [← htext, ← hwords]
  rcases hf t (List.mem_of_getElem? hk) with hnil | hsame
  · left
    rw [hnil] at hwords
    exact List.map_eq_nil_iff.mp hwords.symm
  · exact .inr hsame

end

/-! ## one entry with confidence `1` -/

/-- the same words with the confidence `f k a` for the entry `a` of the chunk `k` -/
def relabel (f : Nat → Nat → F64) (ts : List GroqChunkTranscript) : List GroqChunkTranscript :=
  ts.mapIdx fun k t => { t with words := t.words.mapIdx fun a entry => (entry.1, f k a) }

theorem relabel_said (f : Nat → Nat → F64) (ts : List GroqChunkTranscript) :
    (relabel f ts).map GroqChunkTranscript.said = ts.map GroqChunkTranscript.said := by
  refine List.ext_getElem? fun k => ?_
  unfold relabel
  rw [List.getElem?_map, List.getElem?_map, List.getElem?_mapIdx, Option.map_map]
  congr 1
  funext t
  refine Prod.ext rfl (List.ext_getElem? fun a => ?_)
  show ((t.words.mapIdx fun a entry => (entry.1, f k a)).map Prod.fst)[a]? = (t.words.map Prod.fst)[a]?
  rw [List.getElem?_map, List.getElem?_map, List.getElem?_mapIdx, Option.map_map]
  rfl

theorem relabel_entry {f : Nat → Nat → F64} {ts : List GroqChunkTranscript} {k a : Nat}
    {t : GroqChunkTranscript} {v : Text} {x : F64} (hk : (relabel f ts)[k]? = some t)
    (ha : t.words[a]? = some (v, x)) : x = f k a := by
  unfold relabel at hk
  rw [List.getElem?_mapIdx] at hk
  obtain ⟨t₀, -, rfl⟩ := Option.map_eq_some_iff.mp hk
  rw [List.getElem?_mapIdx] at ha
  obtain ⟨entry, -, hentry⟩ := Option.map_eq_some_iff.mp ha
  exact (Prod.mk.inj hentry).2.symm

def markedBy (k a : Nat) : Nat → Nat → F64 := fun k' a' => .finite (if k' = k ∧ a' = a then 1 else 0)

theorem markedBy_eq {k a k' a' : Nat} (h : clampConfidence (markedBy k a k a) =
    clampConfidence (markedBy k a k' a')) : k' = k ∧ a' = a := by
  by_contra hne
  unfold markedBy at h
  rw [if_pos ⟨rfl, rfl⟩, if_neg hne] at h
  revert h
  decide

section
variable {ts : List GroqChunkTranscript} {k : Nat} {t : GroqChunkTranscript}

/-- a merge that is never wrong puts a kept word on a word of the same entry -/
theorem sameEntry_of_neverWrong
    (h : ∀ ts', ts'.map GroqChunkTranscript.said = ts.map GroqChunkTranscript.said → NeverWrong ts')
    (hd : Describes ts) (hk : ts[k]? = some t) {j : Nat} (hj : j < (seam ts k t).kept.length)
    (htotal : (seam ts k t).placed + j < (total ts).length) :
    (seam ts k t).base ≤ (seam ts k t).placed + j ∧
      ∃ a, (entriesFrom 0 (seam ts k t).words)[(seam ts k t).skipped + j]? = some a ∧
        (entriesFrom 0 (seam ts k t).words)[(seam ts k t).placed + j - (seam ts k t).base]? = some a := by
  rw [kept_eq, List.length_map] at hj
  -- the entry of the kept word gets a confidence of its own
  obtain ⟨⟨word, x⟩, hx⟩ : ∃ y, (evidenceParts (t.words.drop (seam ts k t).overlap))[j]? = some y :=
    ⟨_, List.getElem?_eq_getElem hj⟩
  obtain ⟨a, -, ha, -⟩ := evidenceParts_entry 0 ((evidenceParts_split t _ j).trans hx)
  rw [Nat.zero_add] at ha
  have hsaid := relabel_said (markedBy k a) ts
  obtain ⟨t', hk', ht⟩ := said_chunk hsaid hk
  have hseam := seam_said (mergedBefore_said hsaid k) ht
  have hwords : t'.words.map Prod.fst = t.words.map Prod.fst := (Prod.mk.inj ht).2
  have hj' : j < (evidenceParts (t'.words.drop (seam ts k t).overlap)).length := by
    rw [evidenceParts_length, List.map_drop, hwords, ← List.map_drop, ← evidenceParts_length]
    exact hj
  obtain ⟨⟨word', x'⟩, hx'⟩ : ∃ y, (evidenceParts (t'.words.drop (seam ts k t).overlap))[j]? = some y :=
    ⟨_, List.getElem?_eq_getElem hj'⟩
  have hmark : x' = markedBy k a k a := by
    obtain ⟨a', v, ha', hv⟩ := evidenceParts_entry 0 ((evidenceParts_split t' _ j).trans hx')
    rw [Nat.zero_add, hwords] at ha'
    rw [relabel_entry hk' hv, Option.some.inj (ha'.symm.trans ha)]
  -- the confidence is assigned where the entry lands
  have hplaced : (evidenceParts (mergedBefore (relabel (markedBy k a) ts)
      (relabel (markedBy k a) ts).length).2)[(seam ts k t).placed + j]? = some (word', x') := by
    have := mergedBefore_placed hk' (j := j) (y := (word', x')) (by rw [hseam]; exact hx')
    rwa [hseam] at this
  obtain ⟨cs, hcs, hassigned⟩ := assignConfidences_of_same (describes_iff.mp (hd.said hsaid))
  obtain ⟨side, hside, rfl⟩ := merged_side hcs
  have hc := hassigned _ word' x' (by rw [total_said hsaid]; exact htotal) hplaced
  obtain ⟨k₂, t₂, word₂, x₂, hk₂, hbase, hx₂, hclamp⟩ := h _ hsaid side hside _ _ hc
  -- and only that entry has it
  obtain ⟨a₂, v₂, ha₂, hv₂⟩ := evidenceParts_entry 0 hx₂
  rw [relabel_entry hk₂ hv₂, hmark] at hclamp
  obtain ⟨rfl, rfl⟩ := markedBy_eq hclamp
  have heq : t' = t₂ := Option.some.inj (hk'.symm.trans hk₂)
  subst heq
  rw [hseam] at hbase ha₂
  rw [Nat.zero_add, hwords] at ha₂
  exact ⟨hbase, a₂, ha, ha₂⟩

theorem entriesFrom_mono {n i j a b : Nat} {ws : List Text} (hij : i ≤ j)
    (ha : (entriesFrom n ws)[i]? = some a) (hb : (entriesFrom n ws)[j]? = some b) : a ≤ b := by
  obtain ⟨hi, rfl⟩ := List.getElem?_eq_some_iff.mp ha
  obtain ⟨hj, rfl⟩ := List.getElem?_eq_some_iff.mp hb
  rcases Nat.eq_or_lt_of_le hij with rfl | hlt
  · exact le_rfl
  · exact List.pairwise_iff_getElem.mp (entriesFrom_sorted n ws) i j hi hj hlt

example : entriesFrom 0 ["Don't".toList, "go".toList] = [0, 0, 1] := by decide +kernel

/-- the kept words are of later entries than the words left out -/
theorem Seam.entries_lt {s : Seam} {i j a b : Nat} (hi : i < s.skipped) (hj : s.skipped ≤ j)
    (ha : (entriesFrom 0 s.words)[i]? = some a) (hb : (entriesFrom 0 s.words)[j]? = some b) : a < b := by
  have hsplit : entriesFrom 0 s.words = entriesFrom 0 (s.words.take s.overlap) ++
      entriesFrom (0 + (s.words.take s.overlap).length) (s.words.drop s.overlap) := by
    rw [← entriesFrom_append, List.take_append_drop]
  have hlen : (entriesFrom 0 (s.words.take s.overlap)).length = s.skipped := entriesFrom_length _ _
  rw [hsplit, List.getElem?_append_left (by omega)] at ha
  rw [hsplit, List.getElem?_append_right (by omega)] at hb
  have h1 := (mem_entriesFrom (List.mem_of_getElem? ha)).2
  have h2 := (mem_entriesFrom (List.mem_of_getElem? hb)).1
  omega

theorem Seam.entries_length (s : Seam) :
    (entriesFrom 0 s.words).length = s.skipped + s.kept.length := by
  unfold Seam.skipped Seam.kept
  rw [entriesFrom_length, ← List.length_append, ← spoken_append, List.take_append_drop]

/-- every kept word that lands in the text lands on a word of the same entry -/
def Seam.Shifted (s : Seam) (n : Nat) : Prop :=
  ∀ j, j < s.kept.length → s.placed + j < n → s.base ≤ s.placed + j ∧
    ∃ a, (entriesFrom 0 s.words)[s.skipped + j]? = some a ∧
      (entriesFrom 0 s.words)[s.placed + j - s.base]? = some a

namespace Seam
variable {s : Seam} {n : Nat}

/-- a shift to the right stays within the entry of the first kept word -/
theorem Shifted.first (h : s.Shifted n) (hlt : s.base + s.skipped < s.placed) {a : Nat}
    (ha : (entriesFrom 0 s.words)[s.skipped]? = some a) {j : Nat} (hj : j < s.kept.length)
    (hn : s.placed + j < n) : (entriesFrom 0 s.words)[s.skipped + j]? = some a := by
  induction j with
  | zero => exact ha
  | succ j ih =>
    have hprev := ih (by omega) (by omega)
    obtain ⟨-, b, hb, hb'⟩ := h j (by omega) (by omega)
    obtain ⟨-, c, hc, -⟩ := h (j + 1) hj hn
    have hba : b = a := Option.some.inj (hb.symm.trans hprev)
    -- the next word lies between two words of the entry
    have hle := entriesFrom_mono (by omega) hprev hc
    have hge := entriesFrom_mono (by omega) hc hb'
    have hca : c = a := by omega
    rw [hc, hca]

theorem Shifted.lands (h : s.Shifted n) (htext : s.base + (normalizedWords s.text).length ≤ n)
    (hwords : s.kept ≠ [] → s.skipped + s.kept.length = (normalizedWords s.text).length) :
    s.Lands n := by
  by_cases hkept : s.kept = []
  · exact .inl hkept
  by_cases hbehind : n ≤ s.placed
  · exact .inr (.inl hbehind)
  have hpos : 0 < s.kept.length := List.length_pos_iff.mpr hkept
  have hlen := s.entries_length
  have hall := hwords hkept
  obtain ⟨hbase, a, ha, ha'⟩ := h 0 hpos (by omega)
  rw [Nat.add_zero] at ha ha' hbase
  have hle : s.base + s.skipped ≤ s.placed := by
    by_contra hlt
    have := Seam.entries_lt (by omega) le_rfl ha' ha
    omega
  rcases Nat.eq_or_lt_of_le hle with heq | hlt
  · exact .inr (.inr (.inl heq.symm))
  -- the last kept word that lands in the text
  have hin : ∀ j, j < s.kept.length → s.placed + j < n →
      s.placed + j - s.base < s.skipped + s.kept.length := by
    intro j hj hn
    obtain ⟨-, b, -, hb⟩ := h j hj hn
    rw [← hlen]
    exact (List.getElem?_eq_some_iff.mp hb).1
  have hcut : n - s.placed < s.kept.length := by
    by_contra hge
    have := hin (s.kept.length - 1) (by omega) (by omega)
    omega
  have hlast := hin (n - s.placed - 1) (by omega) (by omega)
  refine .inr (.inr (.inr ⟨hlt, by omega, ?_⟩))
  obtain ⟨-, b, hb, hb'⟩ := h (n - s.placed - 1) (by omega) (by omega)
  have hba : b = a := Option.some.inj (hb.symm.trans (h.first hlt ha (by omega) (by omega)))
  have hsame : ∀ i c, s.skipped ≤ i → (entriesFrom 0 s.words)[i]? = some c → c = a := by
    intro i c hi hc
    have hi' := (List.getElem?_eq_some_iff.mp hc).1
    have h1 := entriesFrom_mono hi ha hc
    have h2 := entriesFrom_mono (by omega) hc hb'
    omega
  intro i j hi hj c d hc hd
  rw [hsame i c hi hc, hsame j d hj hd]

end Seam

/-- **no confidence can land on a wrong word exactly when the kept entries of every chunk land in
place** -/
theorem neverWrong_iff (ts : List GroqChunkTranscript) (h : ∀ t ∈ ts, Faithful t) :
    (∀ ts', ts'.map GroqChunkTranscript.said = ts.map GroqChunkTranscript.said → NeverWrong ts') ↔
      Aligned ts := by
  refine ⟨?_, ?_⟩
  · intro hnever hd k t hk
    have hshifted : (seam ts k t).Shifted (total ts).length :=
      fun j hj hn => sameEntry_of_neverWrong hnever hd hk hj hn
    refine hshifted.lands (base_add_le_total hk) ?_
    intro hkept
    have hne : t.words ≠ [] := by
      intro hnil
      rw [kept_eq, hnil, List.drop_nil] at hkept
      exact hkept rfl
    rw [← Seam.entries_length, entriesFrom_length]
    exact (evidenceParts_length t.words).symm.trans ((h t (List.mem_of_getElem? hk)).length_eq hne)
  · intro ha ts' hsaid
    exact (ha.said hsaid).neverWrong (faithful_said hsaid h)

/-- two chunks that overlap by a word, each with its words -/
def sharedWord : List GroqChunkTranscript :=
  [⟨"send the".toList, [("send".toList, .finite (1 / 2)), ("the".toList, .finite (3 / 4))]⟩,
   ⟨"the mail".toList, [("the".toList, .finite (1 / 4)), ("mail".toList, .finite 1)]⟩]

theorem neverWrong_iff_sharedWord : (∀ t ∈ sharedWord, Faithful t) ∧ NeverWrong sharedWord := by
  have hfaithful : ∀ t ∈ sharedWord, Faithful t := by
    intro t ht
    rcases List.mem_pair.mp ht with rfl | rfl <;> exact .inr (by decide +kernel)
  have haligned : Aligned sharedWord := by
    intro _ k t hk
    have hk' := (List.getElem?_eq_some_iff.mp hk).1
    have hlen : sharedWord.length = 2 := rfl
    obtain rfl | rfl : k = 0 ∨ k = 1 := by omega
    · cases hk
      exact .inr (.inr (.inl (by decide +kernel)))
    · cases hk
      exact .inr (.inr (.inl (by decide +kernel)))
  exact ⟨hfaithful, (neverWrong_iff sharedWord hfaithful).mpr haligned sharedWord rfl⟩

/-- a chunk without words, then one that begins as it did -/
def lateEvidence : List GroqChunkTranscript :=
  [⟨"yes send it".toList, []⟩,
   ⟨"yes send".toList, [("yes".toList, .finite (3 / 4)), ("send".toList, .finite (1 / 2))]⟩]

/-- the confidences of the second chunk land on the words of the first -/
theorem lateEvidence_shifted : (∀ t ∈ lateEvidence, Faithful t) ∧ ¬ NeverWrong lateEvidence := by
  refine ⟨?_, ?_⟩
  · intro t ht
    rcases List.mem_pair.mp ht with rfl | rfl
    · exact .inl rfl
    · exact .inr (by decide +kernel)
  · intro h
    have hassigned : assignConfidences (total lateEvidence)
        (evidenceParts (mergedBefore lateEvidence lateEvidence.length).2) =
          some [some (.finite (3 / 4)), some (.finite (1 / 2)), none, none, none] := by
      decide +kernel
    obtain ⟨side, hside, hcs⟩ := merged_side hassigned
    obtain ⟨k, t, word, x, hk, hbase, hx, -⟩ := h side hside 0 (.finite (3 / 4)) (by rw [hcs]; rfl)
    have hk' := (List.getElem?_eq_some_iff.mp hk).1
    have hlen : lateEvidence.length = 2 := rfl
    obtain rfl | rfl : k = 0 ∨ k = 1 := by omega
    · cases hk
      cases hx
    · cases hk
      have hthree : (seam lateEvidence 1 ⟨"yes send".toList,
          [("yes".toList, .finite (3 / 4)), ("send".toList, .finite (1 / 2))]⟩).base = 3 := by
        decide +kernel
      rw [hthree] at hbase
      omega

end

end Voisu.Groq
