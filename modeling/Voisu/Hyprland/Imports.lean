import Voisu.Hyprland.Lua
import Voisu.Lib.Lines
import Voisu.Lib.Traverse

/-!
# The files of a configuration

A Lua file imports others, by paths that are read against its own.  One walk visits every file, another
collects the keyboard options in the order in which they are set.

* `normalizePath`, `join`        paths;
* `parseLuaImportAt`, `resolveLuaImport`   the imports of a file, and the files that they name;
* `forEachLuaSource`             the walk over the files;
* `collectKbOptions`             the walk in execution order.
-/

namespace Voisu.Hyprland
open Lib

/-! ## paths -/

/-- a name that a path can have between its separators -/
structure PathName where
  text : Text
  plain : text ≠ [] ∧ '/' ∉ text ∧ text ≠ ['.'] ∧ text ≠ ['.', '.']
deriving DecidableEq

/-- a path without `.` and `..` -/
structure NormalPath where
  absolute : Bool
  names : List PathName
deriving DecidableEq

def NormalPath.text (p : NormalPath) : Text :=
  (if p.absolute then ['/'] else []) ++ ['/'].intercalate (p.names.map PathName.text)

/-- one component more; the parent of a path without names is the path itself -/
def pushComponent (names : List PathName) (component : Text) : List PathName :=
  if h : component ≠ [] ∧ '/' ∉ component ∧ component ≠ ['.'] ∧ component ≠ ['.', '.'] then
    names ++ [⟨component, h⟩]
  else if component = ['.', '.'] then names.dropLast
  else names

def isAbsolute (path : Text) : Bool := path.head? == some '/'

def normalizePath (path : Text) : NormalPath :=
  { absolute := isAbsolute path, names := (path.splitOn '/').foldl pushComponent [] }

/-- `Path::parent`, the current directory where there is none -/
def NormalPath.parent (p : NormalPath) : Text :=
  if p.names = [] then ['.'] else { p with names := p.names.dropLast }.text

def join (base path : Text) : Text :=
  if isAbsolute path then path
  else if base.getLast?.any (· != '/') then base ++ '/' :: path
  else base ++ path

/-! ## imports -/

inductive Loader where
  | dofile
  | loadfile
  | require
  | source
deriving DecidableEq, Repr

def Loader.name : Loader → String
  | .dofile => "dofile"
  | .loadfile => "loadfile"
  | .require => "require"
  | .source => "source"

def Loader.ofName (name : Text) : Option Loader :=
  [Loader.dofile, .loadfile, .require, .source].find? fun loader => loader.name.toList = name

structure LuaImport where
  loader : Loader
  path : Text
deriving DecidableEq, Repr

def importAt (loader : Loader) (path : Text) (consumed : Nat) :
    Except String (Option (LuaImport × Nat)) :=
  if path = [] then .error ("the Lua import " ++ loader.name ++ " has an empty path")
  else .ok (some (⟨loader, path⟩, consumed))

/-- the import that starts with the first of the tokens, and how many tokens it takes -/
def parseLuaImportAt : List LuaToken → Except String (Option (LuaImport × Nat))
  | .identifier name :: rest =>
    match Loader.ofName name with
    | none => .ok none
    | some loader =>
      match rest with
      | .symbol '(' :: .string path :: _ => importAt loader path 3
      | .symbol '(' :: _ =>
        if loader = .require then
          .error ("the Lua import " ++ loader.name ++ " must use a string literal path")
        else .ok none
      | .string path :: _ => importAt loader path 2
      | _ => .ok none
  | _ => .ok none

/-- `skip` tokens of the last import are still to be passed -/
def importsFrom : Nat → List LuaToken → Except String (List LuaImport)
  | _, [] => .ok []
  | skip + 1, _ :: rest => importsFrom skip rest
  | 0, token :: rest =>
    match parseLuaImportAt (token :: rest) with
    | .error e => .error e
    | .ok none => importsFrom 0 rest
    | .ok (some (found, consumed)) => (importsFrom (consumed - 1) rest).map (found :: ·)

def parseLuaImports (source : Text) : Except String (List LuaImport) :=
  match lexLua source with
  | .error e => .error e
  | .ok tokens => importsFrom 0 tokens

/-! ## files -/

/-- the files that are there: only finitely many normalized paths can be read -/
structure BindingFiles where
  readToString : Text → Except String (Option Text)
  readable : List NormalPath
  finite : ∀ p source, readToString p.text = .ok (some source) → p ∈ readable

/-- the paths that an import may name, the first of them first -/
def candidates (importing : NormalPath) (found : LuaImport) : List Text :=
  let parent := importing.parent
  join parent found.path ::
    if found.loader = .require ∧ ¬endsWith found.path ".lua".toList then
      let modulePath := found.path.map fun c => if c = '.' then '/' else c
      [join parent (modulePath ++ ".lua".toList), join (join parent modulePath) "init.lua".toList]
    else []

def firstReadable (files : BindingFiles) : List Text → Except String (Option NormalPath)
  | [] => .ok none
  | candidate :: rest =>
    match files.readToString candidate with
    | .error detail =>
      .error ("cannot inspect imported Lua file " ++ String.ofList candidate ++ ": " ++ detail)
    | .ok (some _) => .ok (some (normalizePath candidate))
    | .ok none => firstReadable files rest

def resolveLuaImport (files : BindingFiles) (importing : NormalPath) (found : LuaImport) :
    Except String (Option NormalPath) :=
  match firstReadable files (candidates importing found) with
  | .error e => .error e
  | .ok (some path) => .ok (some path)
  | .ok none =>
    if found.loader = .require then .ok none
    else
      .error ("Lua import " ++ found.loader.name ++ " refers to missing file " ++
        String.ofList ((candidates importing found).headD found.path))

/-- the source of a file that an import names -/
def readImported (files : BindingFiles) (path : NormalPath) : Except String Text :=
  match files.readToString path.text with
  | .error detail =>
    .error ("cannot read imported Lua file " ++ String.ofList path.text ++ ": " ++ detail)
  | .ok none => .error ("imported Lua file " ++ String.ofList path.text ++ " does not exist")
  | .ok (some source) => .ok source

/-! ## the walk over the files -/

section
variable {σ : Type} (files : BindingFiles)

/-- what was visited, and what the visits made -/
abbrev Visits (σ : Type) := List NormalPath × σ

def eachImport (call : Text → Text → Visits σ → Except (Halt String) (Visits σ))
    (path : NormalPath) : List LuaImport → Visits σ → Except (Halt String) (Visits σ)
  | [], st => .ok st
  | found :: rest, st =>
    match resolveLuaImport files path found with
    | .error e => .error (.failed e)
    | .ok none => eachImport call path rest st
    | .ok (some imported) =>
      match readImported files imported with
      | .error e => .error (.failed e)
      | .ok source =>
        match call imported.text source st with
        | .error stop => .error stop
        | .ok st => eachImport call path rest st

/-- `fuel` bounds how deep the files that are entered import one another -/
def forEachLuaSource (visit : NormalPath → Text → σ → Except String σ) :
    Nat → Text → Text → Visits σ → Except (Halt String) (Visits σ)
  | 0, path, _, st =>
    if normalizePath path ∈ st.1 then .ok st else .error .outOfFuel
  | fuel + 1, path, source, st =>
    let path := normalizePath path
    if path ∈ st.1 then .ok st
    else
      match visit path source st.2 with
      | .error e => .error (.failed e)
      | .ok s =>
        match parseLuaImports source with
        | .error e => .error (.failed e)
        | .ok imports =>
          eachImport files (forEachLuaSource visit fuel) path imports (path :: st.1, s)

/-! ## the walk in execution order -/

/-- the files that were required, and the options so far -/
structure Collected where
  required : List NormalPath
  options : List Text
deriving DecidableEq

def optionAt : List LuaToken → Option Text
  | .identifier name :: .symbol '=' :: .string value :: _ =>
    if name = "kb_options".toList then some value else none
  | _ => none

/-- a file that is required is noted -/
def note (found : LuaImport) (imported : NormalPath) (required : List NormalPath) :
    List NormalPath :=
  if found.loader = .require then imported :: required else required

/-- `skip` tokens of the last import or assignment are still to be passed -/
def runTokens (call : Text → Text → Collected → Except (Halt String) Collected)
    (path : NormalPath) : Nat → List LuaToken → Collected → Except (Halt String) Collected
  | _, [], s => .ok s
  | skip + 1, _ :: rest, s => runTokens call path skip rest s
  | 0, token :: rest, s =>
    match optionAt (token :: rest) with
    | some value => runTokens call path 2 rest { s with options := s.options ++ [value] }
    | none =>
      match parseLuaImportAt (token :: rest) with
      | .error e => .error (.failed e)
      | .ok none => runTokens call path 0 rest s
      | .ok (some (found, consumed)) =>
        match resolveLuaImport files path found with
        | .error e => .error (.failed e)
        | .ok none => runTokens call path (consumed - 1) rest s
        | .ok (some imported) =>
          if found.loader = .require ∧ imported ∈ s.required then
            runTokens call path (consumed - 1) rest s
          else
            match readImported files imported with
            | .error e => .error (.failed e)
            | .ok source =>
              match call imported.text source
                  { s with required := note found imported s.required } with
              | .error stop => .error stop
              | .ok s => runTokens call path (consumed - 1) rest s

/-- `active` holds the files that are running -/
def collectKbOptions : Nat → List NormalPath → Text → Text → Collected →
    Except (Halt String) Collected
  | 0, active, path, _, s =>
    if normalizePath path ∈ active then .ok s else .error .outOfFuel
  | fuel + 1, active, path, source, s =>
    let path := normalizePath path
    if path ∈ active then .ok s
    else
      match lexLua source with
      | .error e => .error (.failed e)
      | .ok tokens =>
        runTokens files (collectKbOptions fuel (path :: active)) path 0 tokens s

def collectReachableKbOptions (fuel : Nat) (path source : Text) :
    Except (Halt String) (List Text) :=
  (collectKbOptions files fuel [] path source { required := [], options := [] }).map
    Collected.options

end

/-! ## normal paths -/

theorem foldl_pushComponent (acc names : List PathName) :
    (names.map PathName.text).foldl pushComponent acc = acc ++ names := by
  induction names generalizing acc with
  | nil => exact (List.append_nil _).symm
  | cons name names ih =>
    have hpush : pushComponent acc name.text = acc ++ [name] := by
      rw [pushComponent, dif_pos name.plain]
    rw [List.map_cons, List.foldl_cons, hpush, ih, List.append_assoc]
    rfl

theorem pushComponent_nil (names : List PathName) : pushComponent names [] = names := by
  rw [pushComponent, dif_neg (fun h => h.1 rfl), if_neg nofun]

/-- a normal path is the path of its text -/
theorem normalizePath_text (p : NormalPath) : normalizePath p.text = p := by
  obtain ⟨absolute, names⟩ := p
  have hsplit : ((['/'].intercalate (names.map PathName.text)).splitOn '/').foldl pushComponent [] =
      names := by
    cases names with
    | nil => exact pushComponent_nil []
    | cons name names =>
      rw [List.splitOn_intercalate _ _ (by simp), foldl_pushComponent, List.nil_append]
      intro l hl
      obtain ⟨n, -, rfl⟩ := List.mem_map.1 hl
      exact n.plain.2.1
  cases absolute with
  | true =>
    have hcut : (NormalPath.text ⟨true, names⟩).splitOn '/' =
        [] :: (['/'].intercalate (names.map PathName.text)).splitOn '/' := by
      rw [NormalPath.text, if_pos rfl, List.singleton_append, List.splitOn_cons_eq_if_modifyHead]
      rfl
    rw [normalizePath, hcut, List.foldl_cons, pushComponent_nil, hsplit]
    rfl
  | false =>
    have habs : isAbsolute (NormalPath.text ⟨false, names⟩) = false := by
      cases names with
      | nil => rfl
      | cons name names =>
        obtain ⟨c, rest, htext⟩ := List.exists_cons_of_ne_nil name.plain.1
        have hc : c ≠ '/' := fun hc => name.plain.2.1 (by rw [htext, hc]; exact List.mem_cons_self)
        have hhead : (NormalPath.text ⟨false, name :: names⟩).head? = some c := by
          rw [NormalPath.text, List.map_cons]
          cases names.map PathName.text with
          | nil => simp [htext]
          | cons next more => simp [List.intercalate_cons_cons, htext]
        rw [isAbsolute, hhead]
        simpa using hc
    rw [normalizePath, habs, NormalPath.text, if_neg nofun, List.nil_append, hsplit]

end Voisu.Hyprland
