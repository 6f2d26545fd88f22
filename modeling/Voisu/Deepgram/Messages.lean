import Mathlib
import Voisu.Json
import Voisu.Lib.Strings
import Voisu.Provider

/-!
# What Deepgram answers

The text frames of the streaming connection, and the transcript that is assembled from them.  The JSON
decoder and the reading of a confidence are the library's.

* `ingestDeepgramMessage`    what one text frame does to the transcript;
* `finalTranscript`          the transcript of a final result, as the frame has it;
* `ingestDeepgramMessage_ok` a frame that is accepted adds its final transcript, trimmed, unless it is
                             blank.
-/

namespace Voisu.Deepgram
open Lib

/-! ## reading a frame -/

/-- the library: `serde_json::from_str`, and the confidence of a word clamped to [0, 1] -/
structure Decoder (Confidence : Type) where
  fromStr : Text → Option Value
  confidence : Value → Confidence

def asBool : Value → Option Bool
  | .bool b => some b
  | _ => none

/-- `Value::get` of a key -/
def get (key : Text) : Value → Option Value
  | .object fields => getKey fields key
  | _ => none

/-- an array index is a number without a sign and without leading zeros -/
def parseIndex (token : Text) : Option Nat :=
  if token.head? = some '+' ∨ token.head? = some '0' ∧ token.length ≠ 1 then none
  else parseUnsigned (2 ^ 64 - 1) token

/-- `Value::pointer`, of the tokens between the slashes -/
def pointer : List Text → Value → Option Value
  | [], v => some v
  | token :: tokens, .object fields => (getKey fields token).bind (pointer tokens)
  | token :: tokens, .array vs => ((parseIndex token).bind (vs[·]?)).bind (pointer tokens)
  | _ :: _, _ => none

def kind (message : Value) : Option Text := (get "type".toList message).bind Value.asStr
def isFinal (message : Value) : Option Bool := (get "is_final".toList message).bind asBool

def firstAlternative : List Text := ["channel".toList, "alternatives".toList, "0".toList]

def transcriptOf (message : Value) : Option Text :=
  (pointer (firstAlternative ++ ["transcript".toList]) message).bind Value.asStr

def wordsOf (message : Value) : List Value :=
  ((pointer (firstAlternative ++ ["words".toList]) message).bind Value.asArray).getD []

/-! ## the transcript -/

structure TranscriptAccumulator (Confidence : Type) where
  segments : List Text
  words : List (Text × Confidence)

namespace TranscriptAccumulator
variable {Confidence : Type}

def empty : TranscriptAccumulator Confidence := { segments := [], words := [] }

/-- `(word, confidence)` of an entry of the words; one without its text is passed over -/
def wordEntry (decoder : Decoder Confidence) (word : Value) : Option (Text × Confidence) :=
  match (get "word".toList word).bind Value.asStr with
  | none => none
  | some text => if text.isEmpty then none else some (text, decoder.confidence word)

def ingest (decoder : Decoder Confidence) (acc : TranscriptAccumulator Confidence)
    (message : Value) : TranscriptAccumulator Confidence :=
  if kind message ≠ some "Results".toList then acc
  else if isFinal message ≠ some true then acc
  else
    match transcriptOf message with
    | none => acc
    | some text =>
      { segments := if (trim text).isEmpty then acc.segments else acc.segments ++ [trim text]
        words := acc.words ++ (wordsOf message).filterMap (wordEntry decoder) }

def text (acc : TranscriptAccumulator Confidence) : Text := [' '].intercalate acc.segments

end TranscriptAccumulator

inductive DeepgramMessageKind where
  | metadata
  | other
deriving DecidableEq, Repr

def malformed : BoundaryError :=
  BoundaryError.new .provider "Deepgram sent a malformed streaming message".toList

def ingestDeepgramMessage {Confidence : Type} (decoder : Decoder Confidence)
    (transcript : TranscriptAccumulator Confidence) (text : Text) :
    Except BoundaryError (DeepgramMessageKind × TranscriptAccumulator Confidence) :=
  match decoder.fromStr text with
  | none => .error malformed
  | some message =>
    if kind message = some "Error".toList then
      .error (BoundaryError.new .provider "Deepgram reported a streaming error".toList)
    else if kind message = some "Results".toList then
      match isFinal message with
      | none => .error malformed
      | some final =>
        if final ∧ transcriptOf message = none then .error malformed
        else .ok (.other, transcript.ingest decoder message)
    else if kind message = some "Metadata".toList then .ok (.metadata, transcript)
    else .ok (.other, transcript)

/-! ## final results -/

section final
variable {Confidence : Type} (decoder : Decoder Confidence)

/-- the transcript of a final result -/
def finalTranscript (text : Text) : Option Text :=
  match decoder.fromStr text with
  | none => none
  | some message =>
    if kind message = some "Results".toList ∧ isFinal message = some true then transcriptOf message
    else none

def isMetadata (text : Text) : Bool :=
  match decoder.fromStr text with
  | none => false
  | some message => kind message == some "Metadata".toList

/-- what is kept of a transcript -/
def segmentOf (text : Text) : List Text := if (trim text).isEmpty then [] else [trim text]

variable {decoder} {transcript transcript' : TranscriptAccumulator Confidence} {text : Text}
  {k : DeepgramMessageKind}

theorem TranscriptAccumulator.ingest_segments {message : Value}
    (hkind : kind message = some "Results".toList) (hfinal : isFinal message = some true) :
    (transcript.ingest decoder message).segments =
      transcript.segments ++ ((transcriptOf message).map segmentOf).getD [] := by
  simp only [ingest, hkind, hfinal, ne_eq, not_true_eq_false, if_false]
  match transcriptOf message with
  | none => exact (List.append_nil _).symm
  | some text =>
    show (if (trim text).isEmpty then _ else _) = transcript.segments ++ segmentOf text
    rw [segmentOf]
    split
    · exact (List.append_nil _).symm
    · rfl

/-- a frame that is accepted adds the segment of its final transcript, and is the summary exactly
where it says so -/
theorem ingestDeepgramMessage_ok
    (h : ingestDeepgramMessage decoder transcript text = .ok (k, transcript')) :
    transcript'.segments =
        transcript.segments ++ ((finalTranscript decoder text).map segmentOf).getD [] ∧
      (k = .metadata ↔ isMetadata decoder text = true) := by
  simp only [ingestDeepgramMessage] at h
  simp only [finalTranscript, isMetadata]
  match hmessage : decoder.fromStr text, h with
  | none, h => cases h
  | some message, h =>
    simp only at h ⊢
    split at h
    next => cases h
    next =>
      split at h
      next hresults =>
        split at h
        next => cases h
        next final hfinal =>
          split at h
          next => cases h
          next =>
            obtain ⟨rfl, rfl⟩ := Prod.mk.inj (Except.ok.inj h)
            refine ⟨?_, by simp [hresults]⟩
            by_cases hf : final = true
            · subst hf
              rw [if_pos ⟨hresults, hfinal⟩]
              exact TranscriptAccumulator.ingest_segments hresults hfinal
            · rw [if_neg (by rw [hfinal]; simp [hf])]
              simp [TranscriptAccumulator.ingest, hresults, hfinal, hf]
      next hresults =>
        rw [if_neg (fun hboth => hresults hboth.1)]
        split at h
        next hmeta =>
          obtain ⟨rfl, rfl⟩ := Prod.mk.inj (Except.ok.inj h)
          exact ⟨(List.append_nil _).symm, by simp [hmeta]⟩
        next hmeta =>
          obtain ⟨rfl, rfl⟩ := Prod.mk.inj (Except.ok.inj h)
          exact ⟨(List.append_nil _).symm, by simpa using hmeta⟩

end final

end Voisu.Deepgram
