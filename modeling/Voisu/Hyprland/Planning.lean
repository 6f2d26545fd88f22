import Voisu.Hyprland.Files
import Voisu.Hyprland.Walks

/-!
# Planning over the files

The bindings of every file that a configuration loads, and of the `bindings.lua` beside it, and the plan
that they lead to.

* `Reach`                             the files of a tree that the paths of a configuration lead to;
* `loadLuaBindingsWithOccupancy`      the bindings;
* `planTriggerBindingWithImports`     the plan;
* `reachableKbOptions`                the keyboard options, in the order in which they are set;
* `planTriggerBindingWithImports_alone`   a configuration of no files at all.
-/

namespace Voisu.Hyprland
open Lib

/-- where a path leads to, with the links and the `..` in it; only finitely many normal paths can be
read -/
structure Reach (tree : Tree) where
  resolve : Text → Path
  readable : List NormalPath
  finite : ∀ p source, tree.read (resolve p.text) = some source → p ∈ readable

def Reach.files {tree : Tree} (reach : Reach tree) : BindingFiles where
  readToString path := .ok (tree.read (reach.resolve path))
  readable := reach.readable
  finite p source h := reach.finite p source (Except.ok.inj h)

def pathText (path : Path) : Text := '/' :: ['/'].intercalate path

/-- a walk that does not run out of fuel -/
def finished {α : Type} (out : Except (Halt String) α) (h : out ≠ .error .outOfFuel) :
    Except String α :=
  match out, h with
  | .ok a, _ => .ok a
  | .error (.failed e), _ => .error e
  | .error .outOfFuel, h => absurd rfl h

section
variable (files : BindingFiles) (path : Path) (source : Text)

/-- the walk over the files, with as much fuel as there are files -/
def visitLuaSources {σ : Type} (visit : NormalPath → Text → σ → Except String σ) (s : σ) :
    Except String (Visits σ) :=
  finished (forEachLuaSource files visit (files.readable.length + 1) (pathText path) source ([], s))
    (forEachLuaSource_visits files visit _ _ s _ (Nat.lt_succ_self _)).ends

def extendBindings (bindings : List LuaBinding) (source : Text) : Except String (List LuaBinding) :=
  (parseLuaBindings source).map (bindings ++ ·)

def siblingPath : NormalPath := normalizePath (pathText (withFileName path "bindings.lua".toList))

def loadLuaBindingsWithOccupancy : Except String (List LuaBinding) :=
  match visitLuaSources files path source (fun _ source bindings => extendBindings bindings source) []
    with
  | .error detail => .error detail
  | .ok (visited, bindings) =>
    if siblingPath path ∈ visited then .ok bindings
    else
      match files.readToString (siblingPath path).text with
      | .error detail => .error detail
      | .ok none => .ok bindings
      | .ok (some sibling) => extendBindings bindings sibling

structure PlannedTriggerBinding where
  bindings : List LuaBinding
  plan : TriggerBindingPlan

def planTriggerBindingWithImports (preferCapsLock : Bool) : PlannedTriggerBinding :=
  match loadLuaBindingsWithOccupancy files path source with
  | .ok bindings => ⟨bindings, planTriggerBindingFromBindings bindings preferCapsLock⟩
  | .error detail => ⟨[], .unparseable detail⟩

def reachableKbOptions : Except String (List Text) :=
  finished (collectReachableKbOptions files (files.readable.length + 1) (pathText path) source)
    (collectReachableKbOptions_iff files _ _ _ (Nat.lt_succ_self _)).1

/-- a managed binding that is there already is written anew, one of the user's own is not -/
def PlannedTriggerBinding.keyToWrite (planned : PlannedTriggerBinding) : Option TriggerKey :=
  match planned.plan with
  | .install key => some key
  | .alreadyInstalled key => if managedFor planned.bindings key then some key else none
  | .conflicts _ | .unparseable _ => none

end

/-! ## an empty root -/

section
variable (files : BindingFiles) (path : Path)

theorem finished_ok {α : Type} {out : Except (Halt String) α} {a : α} (h : out = .ok a)
    (hends : out ≠ .error .outOfFuel) : finished out hends = .ok a := by
  subst h
  rfl

theorem lexLua_nil : lexLua [] = .ok [] := by
  rw [lexLua, readTokens, lexPieces]
  rfl

theorem parseLuaBindings_nil : parseLuaBindings [] = .ok [] := by
  have hchunks : splitLuaChunks [] = .ok [([], false)] := rfl
  rw [parseLuaBindings, hchunks]
  simp only [parseChunks, parseLuaChunk, lexLua_nil, scanCalls]
  rfl

theorem parseLuaImports_nil : parseLuaImports [] = .ok [] := by
  rw [parseLuaImports, lexLua_nil]
  rfl

/-- an empty file imports nothing -/
theorem visitLuaSources_nil {σ : Type} {visit : NormalPath → Text → σ → Except String σ} {s s' : σ}
    (h : visit (normalizePath (pathText path)) [] s = .ok s') :
    visitLuaSources files path [] visit s = .ok ([normalizePath (pathText path)], s') := by
  refine finished_ok ?_ _
  rw [forEachLuaSource, if_neg List.not_mem_nil]
  simp only [h, parseLuaImports_nil]
  rfl

theorem reachableKbOptions_nil : reachableKbOptions files path [] = .ok [] := by
  refine finished_ok ?_ _
  rw [collectReachableKbOptions, collectKbOptions, if_neg List.not_mem_nil]
  simp only [lexLua_nil]
  rfl

/-- nothing is bound where there is no file -/
theorem planTriggerBindingWithImports_alone (preferCapsLock : Bool)
    (h : ∀ p, files.readToString p = .ok none) :
    planTriggerBindingWithImports files path [] preferCapsLock =
      ⟨[], planTriggerBindingFromBindings [] preferCapsLock⟩ := by
  have hvisit : extendBindings [] [] = .ok [] := by rw [extendBindings, parseLuaBindings_nil]; rfl
  have hload : loadLuaBindingsWithOccupancy files path [] = .ok [] := by
    rw [loadLuaBindingsWithOccupancy, visitLuaSources_nil files path hvisit]
    simp only [h, ite_self]
  rw [planTriggerBindingWithImports, hload]

end

end Voisu.Hyprland
