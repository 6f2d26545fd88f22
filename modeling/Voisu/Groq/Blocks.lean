import Mathlib
import Voisu.Groq.Attribution

/-!
# No heard word is lost

* `blockStart`, `blockStop`   where the words of a chunk stand among the merged words;
* `block_eq`                  they do;
* `block_covers`              each merged word stands in the block of a chunk;
* `mergeChunkTranscripts_blocks`   **the blocks of the chunks make up the merged words, in the order
                              in which they end**; a later block may start first, where a chunk is
                              shorter than the overlap after it.
-/

namespace Voisu.Groq
open Lib Arbitration

def blockStart (ts : List GroqChunkTranscript) (k : Nat) : Nat :=
  (mergedBefore ts k).1.length -
    ((ts[k]?).elim 0 fun t => overlapOf (mergedBefore ts k).1 (splitWhitespace t.text))

def blockStop (ts : List GroqChunkTranscript) (k : Nat) : Nat := (mergedBefore ts (k + 1)).1.length

section
variable {ts : List GroqChunkTranscript} {k : Nat} {t : GroqChunkTranscript}

theorem splitWhitespace_merged (ts : List GroqChunkTranscript) :
    splitWhitespace (mergeChunkTranscripts ts).text = (mergedBefore ts ts.length).1 := by
  rw [mergeChunkTranscripts_eq]
  exact words_join (mergedBefore_tokens ts ts.length)

theorem blockStart_eq (h : ts[k]? = some t) : blockStart ts k =
    (seam ts k t).merged.length - (seam ts k t).overlap := by
  rw [blockStart, h]
  rfl

theorem mergedBefore_block (h : ts[k]? = some t) : (mergedBefore ts (k + 1)).1 =
    (mergedBefore ts k).1.take (blockStart ts k) ++ splitWhitespace t.text := by
  rw [mergedBefore_text h, blockStart_eq h]
  rfl

theorem blockStart_le (ts : List GroqChunkTranscript) (k : Nat) :
    blockStart ts k ≤ (mergedBefore ts k).1.length := Nat.sub_le _ _

theorem blockStop_eq (h : ts[k]? = some t) :
    blockStop ts k = blockStart ts k + (splitWhitespace t.text).length := by
  rw [blockStop, mergedBefore_block h, List.length_append,
    List.length_take_of_le (blockStart_le ts k)]

/-- the merged words up to the end of a block are those that were merged with its chunk -/
theorem take_blockStop {n : Nat} (hk : k < n) :
    (mergedBefore ts n).1.take (blockStop ts k) = (mergedBefore ts (k + 1)).1 := by
  obtain ⟨rest, hrest⟩ := (mergedBefore_mono ts (Nat.succ_le_of_lt hk)).1
  rw [← hrest, blockStop, List.take_left]

/-- **the words of a chunk stand in its block** -/
theorem block_eq {n : Nat} (hk : k < n) (h : ts[k]? = some t) :
    ((mergedBefore ts n).1.take (blockStop ts k)).drop (blockStart ts k) =
      splitWhitespace t.text := by
  have hlen : ((mergedBefore ts k).1.take (blockStart ts k)).length = blockStart ts k :=
    List.length_take_of_le (blockStart_le ts k)
  rw [take_blockStop hk, mergedBefore_block h]
  exact List.drop_left' hlen

theorem blockStop_mono (ts : List GroqChunkTranscript) {j k : Nat} (h : j ≤ k) :
    blockStop ts j ≤ blockStop ts k :=
  (mergedBefore_mono ts (Nat.succ_le_succ h)).1.length_le

/-- **and nothing else does** -/
theorem block_covers (n : Nat) {p : Nat} (hp : p < (mergedBefore ts n).1.length) :
    ∃ k, k < n ∧ blockStart ts k ≤ p ∧ p < blockStop ts k := by
  induction n with
  | zero => cases hp
  | succ n ih =>
    by_cases hold : p < (mergedBefore ts n).1.length
    · obtain ⟨k, hk, hblock⟩ := ih hold
      exact ⟨k, Nat.lt_succ_of_lt hk, hblock⟩
    · exact ⟨n, Nat.lt_succ_self n, (blockStart_le ts n).trans (Nat.le_of_not_lt hold), hp⟩

/-- evidence with the words of each text merges to evidence with the words of the merged text -/
theorem mergedBefore_evidence
    (h : ∀ t ∈ ts, t.words.map Prod.fst = splitWhitespace t.text) (n : Nat) :
    (mergedBefore ts n).2.map Prod.fst = (mergedBefore ts n).1 := by
  induction n with
  | zero => rfl
  | succ n ih =>
    cases hn : ts[n]? with
    | none => rwa [mergedBefore_none hn]
    | some t =>
      rw [mergedBefore_words hn, List.map_append, ih, List.map_drop,
        h t (List.mem_of_getElem? hn), mergedBefore_succ hn]
      rfl

/-- **the words of each chunk stand together among the merged words, the blocks end in the order of
the chunks and leave no gap between them, each merged word stands in one of them, and evidence with
the words of each text becomes evidence with the words of the merged text** -/
theorem mergeChunkTranscripts_blocks (ts : List GroqChunkTranscript) :
    ∃ start stop : Nat → Nat,
      (∀ k t, ts[k]? = some t →
        start k ≤ stop k ∧ stop k ≤ (splitWhitespace (mergeChunkTranscripts ts).text).length ∧
          ((splitWhitespace (mergeChunkTranscripts ts).text).take (stop k)).drop (start k) =
            splitWhitespace t.text) ∧
      (∀ j k, j ≤ k → stop j ≤ stop k) ∧ (∀ k, start (k + 1) ≤ stop k) ∧
      (∀ p, p < (splitWhitespace (mergeChunkTranscripts ts).text).length →
        ∃ k, k < ts.length ∧ start k ≤ p ∧ p < stop k) ∧
      ((∀ t ∈ ts, t.words.map Prod.fst = splitWhitespace t.text) →
        (mergeChunkTranscripts ts).words.map Prod.fst =
          splitWhitespace (mergeChunkTranscripts ts).text) := by
  rw [splitWhitespace_merged]
  refine ⟨blockStart ts, blockStop ts, fun k t h => ⟨?_, ?_, block_eq (lt_length_of_chunk h) h⟩,
    fun j k hjk => blockStop_mono ts hjk, fun k => blockStart_le ts (k + 1),
    fun p hp => block_covers ts.length hp, fun h => ?_⟩
  · rw [blockStop_eq h]
    exact Nat.le_add_right _ _
  · exact (mergedBefore_mono ts (lt_length_of_chunk h)).1.length_le
  · rw [mergeChunkTranscripts_eq]
    exact mergedBefore_evidence h ts.length

end

end Voisu.Groq
