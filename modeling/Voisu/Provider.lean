import Voisu.Json

/-!
# Providers, source transcripts and boundary errors

The records of `lib.rs` that the provider coordinator and the decision pipeline share.
-/

namespace Voisu

inductive Provider where
  | deepgram
  | groq
deriving DecidableEq, Repr

/-- the derived order of the enumeration -/
def Provider.rank : Provider → Nat
  | .deepgram => 0
  | .groq => 1

structure SourceTranscript where
  provider : Provider
  text : Text
deriving DecidableEq, Repr

structure ProviderTiming where
  provider : Provider
  completedMs : Nat
deriving DecidableEq, Repr

inductive ProviderFailureStage where
  | notStarted
  | streaming
  | completion
  | providerDeadline
  | aborted
deriving DecidableEq, Repr

structure ProviderFailure where
  provider : Provider
  stage : ProviderFailureStage
  diagnostic : Text
deriving DecidableEq, Repr

inductive BoundaryKind where
  | capture
  | emptyRecording
  | tooShortRecording
  | silentRecording
  | recordingDeadline
  | provider
  | validation
  | delivery
  | secretStorage
  | providerAuthentication
  | shortcut
deriving DecidableEq, Repr

structure BoundaryError where
  kind : BoundaryKind
  diagnostic : Text
  publicMessage : Option Text
  permanent : Bool
  providerFailures : List ProviderFailure
deriving DecidableEq, Repr

def BoundaryError.new (kind : BoundaryKind) (diagnostic : Text) : BoundaryError :=
  { kind, diagnostic, publicMessage := none, permanent := false, providerFailures := [] }

def BoundaryError.withProviderFailures (error : BoundaryError) (failures : List ProviderFailure) :
    BoundaryError :=
  { error with providerFailures := failures }

/-- `(word, confidence)` pairs in transcript order -/
structure ProviderWordConfidences (Confidence : Type) where
  provider : Provider
  words : List (Text × Confidence)
deriving DecidableEq, Repr

end Voisu
