import Mathlib
import Voisu.Lib.Crash
import Voisu.Lib.FileTree
import Voisu.LocalModel.Receipt

/-!
# The model store

The directory of the local models: artifacts, staging and the private receipts.  Nothing but the
store writes below its root, so there are files and directories only, and their modes are the ones
the store gives them.

* `components`, `join`    paths as the components of their text;
* `ensurePrivateDir`      the directories of a path, made one by one;
* `verifyCandidate`       a directory holds the files of an entry;
* `loadActive`            the active receipt;
* `removeUnleased`        an artifact is removed unless it is leased or active.
-/

namespace Voisu.LocalModel
open Lib

/-! ## paths -/

inductive Component where
  | rootDir
  | parentDir
  | normal (name : Text)
deriving DecidableEq, Repr

def Component.hasNul : Component → Bool
  | .normal name => name.contains '\x00'
  | _ => false

def Component.text : Component → Text
  | .rootDir => []
  | .parentDir => "..".toList
  | .normal name => name

abbrev Path := List Component

def display (path : Path) : Text := ['/'].intercalate (path.map Component.text)

/-- empty components and `.` are skipped -/
def component (part : Text) : Option Component :=
  if part = [] ∨ part = ".".toList then none
  else if part = "..".toList then some .parentDir
  else some (.normal part)

def isAbsolute (text : Text) : Bool := text.head? == some '/'

def components (text : Text) : Path :=
  (if isAbsolute text then [.rootDir] else []) ++ (text.splitOn '/').filterMap component

/-- an absolute path replaces the path it is joined to -/
def join (path : Path) (text : Text) : Path :=
  if isAbsolute text then components text else path ++ components text

/-! ## the file system -/

/-- the part of a write or of a removal that was done before it stopped -/
inductive Part where
  | bytes (count : Nat)
  | victims (paths : List Path)
deriving DecidableEq, Repr

abbrev Tree := FileTree Component UInt8

/-- a program on the tree; its operations fail with the text of the system's error -/
abbrev Io (ε α : Type) := Prog Tree Text Part ε α

inductive SafeFsError where
  | escape
  | notRegular
  | unsafeName
  | notFound
  | io (detail : Text)
deriving DecidableEq, Repr

def notADirectory : Text := "Not a directory (os error 20)".toList
def noSuchFile : Text := "No such file or directory (os error 2)".toList
def fileExists : Text := "File exists (os error 17)".toList

/-- the `Debug` text; the texts of the system hold nothing that it escapes -/
def SafeFsError.debug : SafeFsError → Text
  | .escape => "Escape".toList
  | .notRegular => "NotRegular".toList
  | .unsafeName => "UnsafeName".toList
  | .notFound => "NotFound".toList
  | .io detail => "Io(\"".toList ++ detail ++ "\")".toList

def SafeFsError.text : SafeFsError → Text
  | .io detail => detail
  | .notFound => noSuchFile
  | e => e.debug

/-- the last component may be a file unless a directory is asked for -/
def openWalk (mustDir : Bool) (tree : Tree) (done : Path) : Path → Except SafeFsError Unit
  | [] => .ok ()
  | .parentDir :: _ => .error .escape
  | c :: rest =>
    if c.hasNul then .error .unsafeName
    else
      match tree.get (done ++ [c]) with
      | none => .error .notFound
      | some .dir => openWalk mustDir tree (done ++ [c]) rest
      | some (.file _) =>
        if rest.isEmpty && !mustDir then .ok () else .error (.io notADirectory)

def openDir (tree : Tree) (path : Path) : Except SafeFsError Unit := openWalk true tree [] path

def openPathNofollow (tree : Tree) (path : Path) : Except SafeFsError Unit :=
  openWalk false tree [] path

def dirPresent (tree : Tree) (path : Path) : Except SafeFsError Bool :=
  match openDir tree path with
  | .ok () => .ok true
  | .error .notFound => .ok false
  | .error e => .error e

def isFile : Option (Node UInt8) → Bool
  | some (.file _) => true
  | _ => false

/-- the directories above a path that exist are directories -/
def checkAncestors (tree : Tree) (path : Path) : Except SafeFsError Unit :=
  if path.inits.any fun p => isFile (tree.get p) then .error .notRegular else .ok ()

/-- a directory that is there stays, one that is not is made -/
def makeDir (path : Path) (tree : Tree) : Except SafeFsError (Unit × Tree) :=
  match tree.get path with
  | some .dir => .ok ((), tree)
  | some (.file _) => .error .notRegular
  | none => .ok ((), tree.set path .dir)

def createOwnedComponents (built : Path) : Path → Io SafeFsError Unit
  | [] => pure ()
  | .rootDir :: rest => createOwnedComponents (built ++ [.rootDir]) rest
  | .parentDir :: _ => Prog.throw .escape
  | .normal name :: rest => do
    Prog.require (!(Component.normal name).hasNul) .unsafeName
    Prog.atomic .io (makeDir (built ++ [.normal name]))
    createOwnedComponents (built ++ [.normal name]) rest

def ensurePrivateDir (path : Path) : Io SafeFsError Unit := do
  Prog.look .io fun tree => checkAncestors tree path.dropLast
  createOwnedComponents [] path

def removeDirAll (path : Path) : Io Text Unit :=
  Prog.operation id
    (fun part tree =>
      match part with
      | .victims victims => tree.prunePartly path victims
      | .bytes _ => tree)
    fun tree =>
      match tree.get path with
      | some .dir => .ok ((), tree.prune path)
      | some (.file _) => .error notADirectory
      | none => .error noSuchFile

/-- a write that stops has written its first bytes -/
def writeFile (path : Path) (contents : List UInt8) : Io Text Unit :=
  Prog.operation id
    (fun part tree =>
      match part with
      | .bytes count => tree.set path (.file (contents.take count))
      | .victims _ => tree)
    fun tree => .ok ((), tree.set path (.file contents))

/-- a rename of a file that replaces what is there -/
def renameFile (src dst : Path) : Io Text Unit :=
  Prog.atomic id fun tree =>
    match tree.get src with
    | some (.file contents) => .ok ((), (tree.erase src).set dst (.file contents))
    | _ => .error noSuchFile

def removeFile (path : Path) : Io Text Unit :=
  Prog.atomic id fun tree =>
    match tree.get path with
    | some (.file _) => .ok ((), tree.erase path)
    | _ => .error noSuchFile

/-- an operation that changes nothing a reader sees -/
def syncFile : Io Text Unit := Prog.look id fun _ => .ok ()

def refuseReplace (path : Path) : Text := "refusing to replace existing path ".toList ++ display path

/-- a directory is renamed to a path that is free -/
def renameDir (src dst : Path) : Io Text Unit :=
  Prog.atomic id fun tree =>
    match tree.get src, tree.get dst.dropLast with
    | some .dir, some .dir => .ok ((), tree.move src dst)
    | _, _ => .error noSuchFile

def durableRename (src dst : Path) : Io SafeFsError Unit := do
  let present ← Prog.look .io fun tree => dirPresent tree dst
  Prog.require (!present) (.io (refuseReplace dst))
  Prog.look .io fun tree =>
    if (tree.get dst).isSome then .error (.io (refuseReplace dst)) else .ok ()
  syncFile.mapErr .io
  (renameDir src dst).mapErr .io
  syncFile.mapErr .io

/-! ## files of an entry -/

def relativeFileName (name : Text) : Except SafeFsError Text :=
  if name.isEmpty || startsWith name ".".toList || name.contains '/' || name.contains '\\' ||
      name.contains '\x00' || contains name "..".toList then
    .error .unsafeName
  else .ok name

def forbiddenSuffixes : List Text :=
  [".tar", ".gz", ".tgz", ".zip", ".xz", ".zst", ".exe", ".so", ".sh", ".bin.sh"].map String.toList

def rejectForbiddenFilename (name : Text) : Except SafeFsError Unit :=
  if forbiddenSuffixes.any fun suffix => endsWith (asciiLowercase name) suffix then
    .error .unsafeName
  else .ok ()

def fileExceeds : Text := "file exceeds catalog size".toList

def readExistingFile (tree : Tree) (dir : Path) (name : Text) (expectedBytes : Nat) :
    Except SafeFsError (List UInt8) := do
  let name ← relativeFileName name
  openDir tree dir
  match tree.get (dir ++ [.normal name]) with
  | none => .error .notFound
  | some .dir => .error .notRegular
  | some (.file bytes) => if bytes.length > expectedBytes then .error (.io fileExceeds) else .ok bytes

def regularName : Component → Except SafeFsError Text
  | .normal name => relativeFileName name
  | _ => .error .unsafeName

def sortNames (names : List Text) : List Text := names.insertionSort fun a b => textLe a b = true

def listRegularNames (tree : Tree) (dir : Path) : Except SafeFsError (List Text) := do
  openDir tree dir
  let names ← (tree.names dir).mapM regularName
  return sortNames names

inductive HealthError where
  | tree (error : SafeFsError)
  | missingFile (name : Text)
  | digest (name : Text)
  | unexpectedFile
  | abi
  | sandbox
  | loadAbort
  | fixtureQuality
  | worker (detail : Text)
deriving DecidableEq, Repr

def mapTree {ε α : Type} (f : SafeFsError → ε) : Except SafeFsError α → Except ε α
  | .ok a => .ok a
  | .error e => .error (f e)

def candidateError (name : Text) : SafeFsError → HealthError
  | .unsafeName | .notFound | .io _ => .missingFile name
  | e => .tree e

section verified
variable (sha256Hex : List UInt8 → Text)

def verifyFile (tree : Tree) (dir : Path) (file : CatalogFile) : Except HealthError Unit := do
  let bytes ← mapTree (candidateError file.name) (readExistingFile tree dir file.name file.bytes)
  if verifyFileDigest sha256Hex bytes file.sha256Hex file.bytes then .ok ()
  else .error (.digest file.name)

def verifyCandidate (entry : CatalogEntry) (tree : Tree) (candidate : Path) :
    Except HealthError Unit := do
  if !entry.abiSupported then .error .abi
  else
    mapTree .tree (openPathNofollow tree candidate)
    let names ← mapTree .tree (listRegularNames tree candidate)
    let required := sortNames entry.requiredNames
    if sortNames names ≠ required then
      match entry.requiredNames.find? fun name => !names.contains name with
      | some missing => .error (.missingFile missing)
      | none => .error .unexpectedFile
    else entry.files.forM (verifyFile sha256Hex tree candidate)

/-! ## the store -/

inductive StoreError where
  | path (detail : Text)
  | busy
  | receipt (error : ReceiptError)
  | fs (error : SafeFsError)
  | leased
deriving DecidableEq, Repr

structure ModelLease where
  receiptHash : Text
  artifactDir : Path
  catalogId : Text
deriving DecidableEq, Repr

def artifactsName : Component := .normal "artifacts".toList
def stagingName : Component := .normal "staging".toList
def privateName : Component := .normal "private".toList
def activeName : Component := .normal "active.receipt".toList
def retainedName : Component := .normal "retained.receipt".toList
def lockName : Component := .normal "store.lock".toList

section rooted
variable (root : Path)

def receiptPath : Path := root ++ [privateName, activeName]
def retainedReceiptPath : Path := root ++ [privateName, retainedName]

def load (tree : Tree) : Except ReceiptError ActiveReceipt :=
  match tree.get (receiptPath root) with
  | none => .error .missing
  | some .dir => .error (.io "Is a directory (os error 21)".toList)
  | some (.file bytes) =>
    match fromUtf8 bytes with
    | none => .error (.io "stream did not contain valid UTF-8".toList)
    | some text => parse sha256Hex text

def loadActive (tree : Tree) : Except StoreError (Option ActiveReceipt) :=
  match load sha256Hex root tree with
  | .ok receipt => .ok (some receipt)
  | .error .missing => .ok none
  | .error e => .error (.receipt e)

def artifactDir (id revision contentHash : Text) : Path :=
  join (join (join (root ++ [artifactsName]) id) revision) contentHash

def stagingDir (token : Text) : Path := join (root ++ [stagingName]) token

def ActiveReceipt.dir (receipt : ActiveReceipt) : Path :=
  artifactDir root receipt.catalogId receipt.catalogRevision receipt.artifactId

def overlapsProtected (target protectedPath : Path) : Bool :=
  protectedPath.isPrefixOf target || target.isPrefixOf protectedPath

def isNormal : Component → Bool
  | .normal _ => true
  | _ => false

/-- a path three names below the artifacts -/
def validatedArtifactDir (path : Path) : Option Path :=
  if (root ++ [artifactsName]).isPrefixOf path then
    let rel := path.drop (root ++ [artifactsName]).length
    if rel.all isNormal && rel.length == 3 then some path else none
  else none

def notArtifact : Text := "cleanup target is not an artifact directory".toList

def removeUnleased (lease : Option ModelLease) (path : Path) : Io StoreError Unit := do
  Prog.require (!lease.any fun l => overlapsProtected path l.artifactDir) .leased
  let active ← Prog.look (fun e => .receipt (.io e)) fun tree => loadActive sha256Hex root tree
  Prog.require (!active.any fun r => overlapsProtected path (r.dir root)) .leased
  match validatedArtifactDir root path with
  | none => Prog.throw (.path notArtifact)
  | some artifact => Prog.ignore (removeDirAll artifact)

end rooted
end verified

end Voisu.LocalModel
