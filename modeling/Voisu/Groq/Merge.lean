import Mathlib
import Voisu.Arbitration.Arbitrate

/-!
# Merging the transcripts of Groq chunks

The chunks of a long Recording overlap by a few seconds, and so do their transcripts.  The words of a
chunk that repeat the end of the words merged so far are left out, and as many entries of its list of
word confidences.

* `overlapWords`             the longest repeated end;
* `mergeChunkTranscripts`    the merged words, joined by blanks, and the merged evidence.
-/

namespace Voisu.Groq
open Lib Arbitration

def groqMergeOverlapWords : Nat := 48

structure GroqChunkTranscript where
  text : Text
  words : Evidence
deriving DecidableEq, Repr

/-- the longest start of `words`, of at most `bound` words, that `merged` ends with -/
def overlapWords (merged words : List Text) : Nat → Nat
  | 0 => 0
  | count + 1 =>
    if merged.drop (merged.length - (count + 1)) = words.take (count + 1) then count + 1
    else overlapWords merged words count

def overlapOf (merged words : List Text) : Nat :=
  overlapWords merged words (min (min merged.length words.length) groqMergeOverlapWords)

def mergeChunk (state : List Text × Evidence) (transcript : GroqChunkTranscript) :
    List Text × Evidence :=
  let words := splitWhitespace transcript.text
  let overlap := overlapOf state.1 words
  (state.1 ++ words.drop overlap, state.2 ++ transcript.words.drop overlap)

def mergeChunkTranscripts (transcripts : List GroqChunkTranscript) : GroqChunkTranscript :=
  let merged := transcripts.foldl mergeChunk ([], [])
  { text := [' '].intercalate merged.1, words := merged.2 }

end Voisu.Groq
