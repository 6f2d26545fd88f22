import Mathlib
import Voisu.Lib.Files
import Voisu.Recovery.Artifact

/-!
# The recovery store

Every call of the store is the file operations it makes, one after the other, and what it returns; a
crash leaves the operations before it.  The order in which the directory is listed and the times of
its files are the system's.

* `expireWith`               what is too old goes, and what a clock that went back left;
* `persistBeforeInference`   the samples and their metadata are written aside and renamed;
* `setState`                 the metadata is replaced;
* `usage`                    the recordings and the bytes of the directory, temporaries included.
-/

namespace Voisu.Recovery
open Lib

/-! ## names -/

def maxRecordings : Nat := 3
def maxTotalBytes : Nat := 64 * 1024 * 1024

def pcmSuffix : Text := ".pcm".toList
def metaSuffix : Text := ".meta".toList
def tmpSuffix : Text := ".tmp".toList
def clockName : Text := "last-wall-ms".toList

def pcmName (id : Text) : Text := id ++ pcmSuffix
def metaName (id : Text) : Text := id ++ metaSuffix

/-- `.{name}.tmp` -/
def tmpName (name : Text) : Text := '.' :: (name ++ tmpSuffix)

def stripSuffix (s suffix : Text) : Option Text :=
  if endsWith s suffix then some (s.take (s.length - suffix.length)) else none

/-- `relative_file_name` -/
def safeId (id : Text) : Bool :=
  !(id.isEmpty || id.head? == some '.' || id.contains '/' || id.contains '\\' ||
    id.contains '\x00' || Lib.contains id ['.', '.'])

/-! ## the directory -/

abbrev Store := Dir Text UInt8
abbrev Op := FileOp Text UInt8

inductive RecoveryError where
  | quota (message : Text)
  | storage (message : Text)
  | expired
  | pathUnsafe
  | existing
deriving DecidableEq, Repr

structure Called (α : Type) where
  ops : List Op
  result : Except RecoveryError α

def notFound : RecoveryError :=
  .storage "recovery-storage: No such file or directory (os error 2)".toList

def notUtf8 : RecoveryError :=
  .storage "recovery-storage: stream did not contain valid UTF-8".toList

def invalidMetadata : RecoveryError := .storage "invalid recovery metadata".toList

def loadMeta (d : Store) (name : Text) : Except RecoveryError RecoveryArtifact :=
  match d.get name with
  | none => .error notFound
  | some f =>
    match fromUtf8 f.contents with
    | none => .error notUtf8
    | some text =>
      match parseMeta text with
      | none => .error invalidMetadata
      | some a => .ok a

/-- the bytes of the directory, and the recordings it holds something of -/
def stemOf (name : Text) : Option Text :=
  if name.head? = some '.' ∨ name = clockName then none
  else (stripSuffix name metaSuffix).orElse fun _ => stripSuffix name pcmSuffix

def usage (d : Store) : Nat × Nat := ((d.marks stemOf).card, d.sizeOn fun _ => true)

/-! ## expiry -/

/-- what a call is given besides its arguments: its clock, the time the system gives each file it
writes, and the order a directory is listed in -/
structure Moment where
  clock : RecoveryClock
  modified : Text → Option Nat
  order : List Text → List Text
  listed : ∀ names, (order names).Perm names

/-- `entries` -/
def Moment.entries (moment : Moment) (d : Store) : List Text := moment.order d.names

def shouldExpireOrphan (d : Store) (name : Text) (clock : RecoveryClock) : Bool :=
  match d.get name with
  | none => true
  | some f =>
    match f.modified with
    | none => true
    | some created =>
      decide (clock.wallUnixMs.toNat < created) ||
        decide (maxAgeMs ≤ clock.wallUnixMs.toNat - created)

def readLastWall (d : Store) : Except RecoveryError (Option UInt64) :=
  match d.get clockName with
  | none => .ok none
  | some f =>
    match fromUtf8 f.contents with
    | none => .error notUtf8
    | some text => .ok (parseU64 (trim text))

def writeLastWall (moment : Moment) (wall : UInt64) : List Op :=
  writeOps clockName (utf8 (u64Text wall ++ ['\n'])) (moment.modified clockName)

/-- `delete_artifact`, of an id that is safe -/
def deleteOps (id : Text) : List Op := [.remove (pcmName id), .remove (metaName id)]

def deleteArtifact (id : Text) : Called Unit :=
  if safeId id then { ops := deleteOps id, result := .ok () }
  else { ops := [], result := .error .pathUnsafe }

/-- `replace_private_file` -/
def replaceOps (moment : Moment) (name : Text) (contents : List UInt8) : List Op :=
  writeOps (tmpName name) contents (moment.modified (tmpName name)) ++ [.rename (tmpName name) name]

def removeIf (remove : Bool) (name : Text) : List Op := if remove then [.remove name] else []

/-- one entry of the directory -/
def expireEntry (moment : Moment) (clock : RecoveryClock) (promoteStarted : Bool) (d : Store)
    (name : Text) : List Op :=
  if name = clockName then []
  else if name.head? = some '.' ∨ endsWith name tmpSuffix then
    removeIf (shouldExpireOrphan d name clock) name
  else
    match stripSuffix name pcmSuffix with
    | some stem =>
      removeIf ((d.get (metaName stem)).isNone && shouldExpireOrphan d name clock) name
    | none =>
      match stripSuffix name metaSuffix with
      | none => []
      | some stem =>
        match loadMeta d name with
        | .ok a =>
          if artifactExpired a clock ∨ a.deliveryState = .delivered then
            (deleteArtifact a.recordingId).ops
          else if promoteStarted ∧ a.deliveryState = .deliveryStarted then
            replaceOps moment name (utf8 (encodeMeta { a with deliveryState := .ambiguous }))
          else []
        | .error _ => [.remove (pcmName stem), .remove name]

def expireEntries (moment : Moment) (clock : RecoveryClock) (promoteStarted : Bool) :
    Store → List Text → List Op
  | _, [] => []
  | d, name :: names =>
    let ops := expireEntry moment clock promoteStarted d name
    ops ++ expireEntries moment clock promoteStarted (applyOps d ops) names

def expireAllOps (moment : Moment) (d : Store) : List Op :=
  ((moment.entries d).filter fun name => name ≠ clockName).map .remove

def expireWith (moment : Moment) (clock : RecoveryClock) (promoteStarted : Bool) (d : Store) :
    Called Unit :=
  match readLastWall d with
  | .error error => { ops := [], result := .error error }
  | .ok previous =>
    let written := writeLastWall moment clock.wallUnixMs
    if ∃ wall, previous = some wall ∧ clock.wallUnixMs < wall then
      { ops := expireAllOps moment d ++ written, result := .ok () }
    else
      { ops := written ++ expireEntries moment clock promoteStarted (applyOps d written)
          (moment.entries (applyOps d written))
        result := .ok () }

def expire (moment : Moment) (d : Store) : Called Unit := expireWith moment moment.clock false d

/-! ## calls -/

/-- a call goes on with the directory that another left -/
def Called.andThen {α β : Type} (c : Called α) (d : Store) (next : Store → α → Called β) :
    Called β :=
  match c.result with
  | .error error => { ops := c.ops, result := .error error }
  | .ok a =>
    { ops := c.ops ++ (next (applyOps d c.ops) a).ops
      result := (next (applyOps d c.ops) a).result }

def Called.done {α : Type} (result : Except RecoveryError α) : Called α := { ops := [], result }

def tooMany : RecoveryError := .quota "recovery quota: at most 3 recordings".toList
def tooLarge : RecoveryError := .quota "recovery quota: at most 64 MiB".toList

def quotaBeforeCapture (moment : Moment) (d : Store) : Called Unit :=
  (expire moment d).andThen d fun d _ =>
    .done (if maxRecordings ≤ (usage d).1 then .error tooMany
      else if maxTotalBytes ≤ (usage d).2 then .error tooLarge
      else .ok ())

/-- what is persisted -/
def newArtifact (moment : Moment) (id : Text) (pcm : List UInt8) (modelReceiptHash : Text) :
    RecoveryArtifact :=
  { recordingId := id
    createdUnixMs := moment.clock.wallUnixMs
    observedWallUnixMs := moment.clock.wallUnixMs
    bootMs := moment.clock.bootMs
    modelReceiptHash
    deliveryState := .none
    pcmBytes := UInt64.ofNat pcm.length }

def persistOps (moment : Moment) (id : Text) (pcm : List UInt8) (a : RecoveryArtifact) : List Op :=
  writeOps (tmpName (pcmName id)) pcm (moment.modified (tmpName (pcmName id))) ++
    writeOps (tmpName (metaName id)) (utf8 (encodeMeta a))
      (moment.modified (tmpName (metaName id))) ++
    [.rename (tmpName (pcmName id)) (pcmName id), .rename (tmpName (metaName id)) (metaName id)]

def persistBeforeInference (moment : Moment) (id : Text) (pcm : List UInt8)
    (modelReceiptHash : Text) (d : Store) : Called RecoveryArtifact :=
  (expire moment d).andThen d fun d _ =>
    if !safeId id then .done (.error .pathUnsafe)
    else if (d.get (pcmName id)).isSome || (d.get (metaName id)).isSome then .done (.error .existing)
    else if maxRecordings ≤ (usage d).1 then .done (.error tooMany)
    else if maxTotalBytes < (usage d).2 + (pcm.length + 512) then .done (.error tooLarge)
    else
      { ops := persistOps moment id pcm (newArtifact moment id pcm modelReceiptHash)
        result := .ok (newArtifact moment id pcm modelReceiptHash) }

def load (moment : Moment) (id : Text) (d : Store) : Called RecoveryArtifact :=
  (expire moment d).andThen d fun d _ =>
    if !safeId id then .done (.error .pathUnsafe)
    else
      match loadMeta d (metaName id) with
      | .error error => .done (.error error)
      | .ok a =>
        if artifactExpired a moment.clock then
          { ops := deleteOps id, result := .error .expired }
        else .done (.ok a)

/-- a second start of a delivery is ambiguous -/
def nextState (current state : DeliveryState) : DeliveryState :=
  if current = .deliveryStarted ∧ state = .delivered then .delivered
  else if current = .deliveryStarted ∧ state ≠ .delivered ∧ state ≠ .failed then .ambiguous
  else state

def setState (moment : Moment) (id : Text) (state : DeliveryState) (d : Store) : Called Unit :=
  (load moment id d).andThen d fun _ a =>
    { ops := replaceOps moment (metaName id)
        (utf8 (encodeMeta { a with deliveryState := nextState a.deliveryState state }))
      result := .ok () }

def markDelivered (moment : Moment) (id : Text) (d : Store) : Called Unit :=
  (setState moment id .delivered d).andThen d fun _ _ => deleteArtifact id

inductive Request where
  | persistBeforeInference (id : Text) (pcm : List UInt8) (modelReceiptHash : Text)
  | markDeliveryStarted (id : Text)
  | markDelivered (id : Text)
  | markFailed (id : Text)
  | load (id : Text)
  | quotaBeforeCapture
  | expireWith (clock : RecoveryClock) (promoteStarted : Bool)
deriving DecidableEq, Repr

/-- the file operations of a call -/
def requestOps (moment : Moment) (d : Store) : Request → List Op
  | .persistBeforeInference id pcm hash => (persistBeforeInference moment id pcm hash d).ops
  | .markDeliveryStarted id => (setState moment id .deliveryStarted d).ops
  | .markDelivered id => (markDelivered moment id d).ops
  | .markFailed id => (setState moment id .failed d).ops
  | .load id => (load moment id d).ops
  | .quotaBeforeCapture => (quotaBeforeCapture moment d).ops
  | .expireWith clock promoteStarted => (expireWith moment clock promoteStarted d).ops

end Voisu.Recovery
