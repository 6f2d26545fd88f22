import Mathlib
import Voisu.LocalModel.Store

/-!
# Installing a catalog entry

`install_entry`: the files of an entry are fetched into a staging directory, checked against their
pins, renamed to the artifact directory, checked again, and only then the receipt is replaced.

* `InstallRequest`   what one install is given, with the answers of the network, of the health check
                     and of the clock;
* `installEntry`     the install;
* `Call`             the calls of a store, each with the fates of its file operations;
* `Store.call`       one call; a process that dies loses its lease.
-/

namespace Voisu.LocalModel
open Lib

/-! ## requests -/

inductive InstallAbort where
  | afterLock
  | afterStaging
  | afterFetch
  | afterPublish
  | afterHealth
deriving DecidableEq, Repr

inductive MaintenanceKind where
  | idle
  | recording
  | replay
  | daemonBusy
deriving DecidableEq, Repr

inductive FetchError where
  | truncated (expected actual : Nat)
  | oversized (expected actual : Nat)
  | status (code : Nat)
  | io (detail : Text)
  | policy (detail : Text)
  | redirectEscape (host : Text)
  | noSpace
  | deadline
  | noProgress
deriving DecidableEq, Repr

structure FetchRequest where
  url : Text
  allowedHosts : List Text
  expectedBytes : Nat
deriving DecidableEq, Repr

structure FetchedSummary where
  bytes : Nat
  sha256Hex : Text
deriving DecidableEq, Repr

def FetchedSummary.matchesPin (summary : FetchedSummary) (expectedHex : Text) (expectedBytes : Nat) :
    Bool :=
  summary.bytes == expectedBytes && isPin expectedHex && summary.sha256Hex == expectedHex

/-- the bytes that a fetcher writes to the sink, and what it reports of them -/
abbrev Fetcher := FetchRequest → List UInt8 × Except FetchError FetchedSummary

structure InstallConsent where
  bytes : Nat
  licenseSpdx : Text
deriving DecidableEq, Repr

/-- where an install reads the clock; files are counted from 0 -/
inductive Reading where
  | start
  | fetched (file : Nat)
  | writeStarted (file : Nat)
  | synced (file : Nat)
  | published (file : Nat)
deriving DecidableEq, Repr

def second : Nat := 1000000000
def installDeadline : Nat := 30 * 60 * second
def noProgressLimit : Nat := 30 * second

structure InstallRequest where
  entry : CatalogEntry
  fetcher : Fetcher
  /-- the answer of the health check -/
  health : Except HealthError Unit
  maintenance : Except Text MaintenanceKind
  consent : InstallConsent
  availableBytes : Nat
  abort : Option InstallAbort
  /-- the system's text of an error number and whether it is `ENOSPC` -/
  failWrite : Option (Text × Bool)
  /-- nanoseconds since the start -/
  elapsed : Reading → Nat

inductive InstallError where
  | busy
  | maintenance (detail : Text)
  | productionWeightsForbidden
  | consent
  | noSpace
  | fetch (error : FetchError)
  | hash
  | size
  | abi
  | fs (error : SafeFsError)
  | health (error : HealthError)
  | aborted
  | deadline
  | store (error : StoreError)
  | archiveOrExecutable
deriving DecidableEq, Repr

def mapStore : StoreError → InstallError
  | .busy => .busy
  | e => .store e

def mapFetch : FetchError → InstallError
  | .deadline | .noProgress => .deadline
  | .noSpace => .noSpace
  | e => .fetch e

def mapWriteErrno (errno : Text × Bool) : InstallError :=
  if errno.2 then .noSpace else .fs (.io errno.1)

def deadline (elapsed : Nat) : Except InstallError Unit :=
  if elapsed > installDeadline then .error .deadline else .ok ()

def noProgress (elapsed : Nat) : Except InstallError Unit :=
  if elapsed > noProgressLimit then .error .deadline else .ok ()

def acquireMaintenance (maintenance : Except Text MaintenanceKind) : Except InstallError Unit :=
  match maintenance with
  | .ok .idle => .ok ()
  | .ok .recording => .error (.maintenance "Recording active".toList)
  | .ok .replay => .error (.maintenance "Replay active".toList)
  | .ok .daemonBusy => .error (.maintenance "daemon is not idle".toList)
  | .error detail => .error (.maintenance detail)

def abortAt (request : InstallRequest) (point : InstallAbort) : Except InstallError Unit :=
  if request.abort = some point then .error .aborted else .ok ()

/-- the checks of a request before anything is written -/
def checkRequest (request : InstallRequest) : Except InstallError Unit := do
  if request.entry.productionWeights && productionSelection != some request.entry.id then
    .error .productionWeightsForbidden
  else if request.consent.bytes != request.entry.totalBytes ||
      request.consent.licenseSpdx != request.entry.licenseSpdx then
    .error .consent
  else if request.availableBytes < request.entry.totalBytes * 2 then .error .noSpace
  else
    deadline (request.elapsed .start)
    if request.entry.abiSupported then .ok () else .error .abi

section store
variable (sha256Hex : List UInt8 → Text) (tempName : Text → List Component → Text) (root : Path)

/-! ## one file -/

def downloadStem : Text := "download-".toList
def receiptStem : Text := ".receipt.".toList

/-- a new empty file under a name that is free -/
def createTemp (stem : Text) (dir : Path) : Io SafeFsError Path :=
  Prog.atomic .io fun tree =>
    match openDir tree dir with
    | .error e => .error e
    | .ok () =>
      let path := dir ++ [.normal (tempName stem (tree.names dir))]
      if (tree.get path).isSome then .error (.io fileExists)
      else .ok (path, tree.set path (.file []))

/-- the file is renamed to a name that must be free -/
def persistNoclobber (src dst : Path) : Io Text Unit :=
  Prog.atomic id fun tree =>
    match tree.get src, tree.get dst with
    | some (.file contents), none => .ok ((), (tree.erase src).set dst (.file contents))
    | _, _ => .error fileExists

def fetchRequest (entry : CatalogEntry) (file : CatalogFile) : FetchRequest :=
  { url := file.url, allowedHosts := entry.allowedHosts, expectedBytes := file.bytes }

/-- the pending download is filled and checked; a failure removes it -/
def fillPending (request : InstallRequest) (index : Nat) (file : CatalogFile) (pending dst : Path) :
    Io InstallError Unit := do
  Prog.require request.failWrite.isNone ((request.failWrite.map mapWriteErrno).getD .noSpace)
  let (written, answer) := request.fetcher (fetchRequest request.entry file)
  (writeFile pending written).mapErr fun detail => .fetch (.io detail)
  let fetched ← Prog.lift (answer.mapError mapFetch)
  Prog.lift (deadline (request.elapsed (.fetched index)))
  Prog.require (fetched.bytes == file.bytes) .size
  Prog.require (fetched.matchesPin file.sha256Hex file.bytes) .hash
  syncFile.mapErr fun detail => .fetch (.io detail)
  Prog.lift
    (noProgress (request.elapsed (.synced index) - request.elapsed (.writeStarted index)))
  Prog.lift (deadline (request.elapsed (.published index)))
  (persistNoclobber pending dst).mapErr fun detail => .fs (.io detail)

def fetchFile (request : InstallRequest) (staging : Path) (index : Nat) (file : CatalogFile) :
    Io InstallError Unit := do
  let name ← Prog.lift ((relativeFileName file.name).mapError .fs)
  Prog.lift ((rejectForbiddenFilename name).mapError fun _ => .archiveOrExecutable)
  let pending ← (createTemp tempName downloadStem staging).mapErr .fs
  (fillPending request index file pending (staging ++ [.normal name])).onError
    ((removeFile pending).mapErr fun detail => .fs (.io detail))
  syncFile.mapErr fun detail => .fs (.io detail)

def fetchFiles (request : InstallRequest) (staging : Path) : Nat → List CatalogFile →
    Io InstallError Unit
  | _, [] => pure ()
  | index, file :: files => do
    fetchFile tempName request staging index file
    fetchFiles request staging (index + 1) files

/-! ## the artifact -/

def treeDigest (tree : Tree) (dir : Path) (file : CatalogFile) : Except InstallError Text := do
  let bytes ← mapTree .fs (readExistingFile tree dir file.name file.bytes)
  if verifyFileDigest sha256Hex bytes file.sha256Hex file.bytes then .ok (sha256Hex bytes)
  else .error .hash

def treeHash (tree : Tree) (dir : Path) (entry : CatalogEntry) : Except InstallError Text := do
  let digests ← entry.files.mapM (treeDigest sha256Hex tree dir)
  return sha256Hex (utf8 digests.flatten)

def verify (entry : CatalogEntry) (dir : Path) : Io InstallError Unit :=
  Prog.look (fun detail => .health (.tree (.io detail))) fun tree =>
    (verifyCandidate sha256Hex entry tree dir).mapError .health

/-- an artifact that is there is checked, one that is not is renamed to its place and checked -/
def publishArtifact (entry : CatalogEntry) (staging dest : Path) : Io InstallError Unit := do
  let present ← Prog.look (fun detail => .fs (.io detail)) fun tree =>
    mapTree .fs (dirPresent tree dest)
  if present then
    verify sha256Hex entry dest
    Prog.ignore (removeDirAll staging)
  else
    (ensurePrivateDir dest.dropLast).mapErr .fs
    (durableRename staging dest).mapErr .fs
    verify sha256Hex entry dest

/-! ## the receipt -/

def retainCurrent : Io ReceiptError Unit := do
  let active ← Prog.look .io fun tree => .ok (tree.get (receiptPath root))
  match active with
  | some (.file contents) =>
    (writeFile (retainedReceiptPath root) contents).mapErr .io
    syncFile.mapErr .io
  | some .dir => Prog.throw (.io "the source path is neither a regular file".toList)
  | none => pure ()

def storeAtomic (receipt : ActiveReceipt) : Io ReceiptError Unit := do
  (ensurePrivateDir (root ++ [privateName])).mapErr fun e => .io e.debug
  let staged ← (createTemp tempName receiptStem (root ++ [privateName])).mapErr fun e => .io e.text
  Prog.onError
    (do
      (writeFile staged (utf8 (encode receipt))).mapErr .io
      syncFile.mapErr .io
      (renameFile staged (receiptPath root)).mapErr .io)
    ((removeFile staged).mapErr .io)
  -- the receipt is replaced here: what follows fails behind it
  syncFile.mapErr .io
  syncFile.mapErr .io
  syncFile.mapErr .io

def commitReceipt (receipt : ActiveReceipt) : Io StoreError Unit := do
  (retainCurrent root).mapErr .receipt
  (storeAtomic tempName root receipt).mapErr .receipt

/-! ## an install -/

def stagingToken (entry : CatalogEntry) : Text := "s-".toList ++ sha256Hex (utf8 entry.id)

def staging (entry : CatalogEntry) : Path := stagingDir root (stagingToken sha256Hex entry)

def lockExclusive : Io StoreError Unit := do
  Prog.atomic StoreError.path fun tree =>
    match tree.get (root ++ [lockName]) with
    | some (.file _) => .ok ((), tree)
    | some .dir => .error (.path "Is a directory (os error 21)".toList)
    | none => .ok ((), tree.set (root ++ [lockName]) (.file []))
  Prog.look (fun _ => .busy) fun _ => .ok ()

/-- the files of the entry, checked in the staging directory: their artifact -/
def stageEntry (request : InstallRequest) : Io InstallError Text := do
  let staging := staging sha256Hex root request.entry
  Prog.ignore (removeDirAll staging)
  (ensurePrivateDir staging).mapErr .fs
  Prog.lift (abortAt request .afterStaging)
  fetchFiles tempName request staging 0 request.entry.files
  Prog.lift (abortAt request .afterFetch)
  verify sha256Hex request.entry staging
  Prog.look (fun detail => .fs (.io detail)) fun tree =>
    treeHash sha256Hex tree staging request.entry

def installEntry (request : InstallRequest) : Io InstallError ActiveReceipt := do
  Prog.lift (acquireMaintenance request.maintenance)
  (lockExclusive root).mapErr mapStore
  let _prior ← Prog.look (fun detail => .store (.receipt (.io detail))) fun tree =>
    (loadActive sha256Hex root tree).mapError mapStore
  Prog.lift (abortAt request .afterLock)
  Prog.lift (checkRequest request)
  let artifactHash ← stageEntry sha256Hex tempName root request
  Prog.require request.entry.abiSupported .abi
  let dest := artifactDir root request.entry.id request.entry.revision artifactHash
  publishArtifact sha256Hex request.entry (staging sha256Hex root request.entry) dest
  Prog.lift (abortAt request .afterPublish)
  Prog.lift (request.health.mapError .health)
  Prog.lift (abortAt request .afterHealth)
  let receipt := fromEntry sha256Hex request.entry artifactHash
  (commitReceipt tempName root receipt).mapErr mapStore
  return receipt

/-! ## calls -/

structure Store where
  tree : Tree
  lease : Option ModelLease

inductive Call where
  | install (request : InstallRequest) (fates : List (Fate Text Part))
  | remove (path : Path) (fates : List (Fate Text Part))
  | acquire (lease : ModelLease)
  | release

/-- the lease is the process's: it dies with it -/
def Store.after {ε α : Type} (st : Store) (stop : Stop Tree Text Part ε α) : Store :=
  { tree := stop.state
    lease := match stop.ending with | .crash => none | _ => st.lease }

def Store.call (st : Store) : Call → Store
  | .install request fates => st.after (installEntry sha256Hex tempName root request st.tree fates)
  | .remove path fates => st.after (removeUnleased sha256Hex root st.lease path st.tree fates)
  | .acquire lease => { st with lease := some lease }
  | .release => { st with lease := none }

/-- the directories that `ModelStore::open` makes, with those above them -/
def openedTree : Tree :=
  ((root.inits ++ [root ++ [privateName], root ++ [artifactsName], root ++ [stagingName]]).filter
    (· ≠ [])).map (·, .dir)

def Store.opened : Store := { tree := openedTree root, lease := none }

def Store.run (st : Store) (calls : List Call) : Store :=
  calls.foldl (fun st call => st.call sha256Hex tempName root call) st

end store

end Voisu.LocalModel
