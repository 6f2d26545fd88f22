import Voisu.Hyprland.Bindings
import Voisu.Lib.Lines

/-!
# The managed block

The text that an install writes: the source without its managed blocks, and one new block at the end.

* `kbOptionsValues`          the keyboard options that a text search finds;
* `mergeCapsLockKbOptions`   the options with Caps Lock switched off;
* `appendManagedBinding`     the block behind the rest of the source;
* `desiredHyprlandSource`    the new source.
-/

namespace Voisu.Hyprland
open Lib

def capsNone : Text := "caps:none".toList
def bothCapslockCancel : Text := "shift:both_capslock_cancel".toList
def kbOptionsKey : Text := "kb_options".toList

/-- the quoted value behind `=`, up to the next quote of its kind -/
def kbOptionsValue (rest : Text) : Option Text :=
  match trimStart rest with
  | '=' :: rest =>
    match trimStart rest with
    | '"' :: inner => if inner.contains '"' then some (inner.takeWhile (· != '"')) else none
    | '\'' :: inner => if inner.contains '\'' then some (inner.takeWhile (· != '\'')) else none
    | _ => none
  | _ => none

/-- the key does not overlap itself, so every place is looked at -/
def kbOptionsValues : Text → List Text
  | [] => []
  | c :: chars =>
    (if startsWith (c :: chars) kbOptionsKey then
      (kbOptionsValue ((c :: chars).drop kbOptionsKey.length)).toList
    else []) ++ kbOptionsValues chars

/-- options that decide about Caps Lock are replaced -/
def isKeptOption (option : Text) : Bool :=
  !(option.isEmpty || option == "compose:caps".toList || startsWith option "caps:".toList ||
    option == bothCapslockCancel || option == "shift:both_capslock".toList)

def keepOption (kept : List Text) (option : Text) : List Text :=
  if isKeptOption (trim option) && !kept.contains (trim option) then kept ++ [trim option] else kept

def mergeCapsLockKbOptions (existing : Option Text) : Text :=
  let kept := match existing with
    | some existing => (existing.splitOn ',').foldl keepOption []
    | none => []
  [','].intercalate (capsNone :: bothCapslockCancel :: kept)

def removeManagedBlocks (source : Text) : Except String Text :=
  (splitLuaChunks source).map fun chunks =>
    ((chunks.filter fun chunk => !chunk.2).map Prod.fst).flatten

/-- the lines that switch Caps Lock off -/
def kbOptionsBlock (kbOptions : Text) : Text :=
  "-- Caps Lock is the Trigger Key; disable lock on that key.\n".toList ++
    "hl.config(\x7b\n".toList ++ "  input = \x7b\n".toList ++
    "    kb_options = \"".toList ++ kbOptions ++ "\",\n".toList ++
    "  \x7d,\n".toList ++ "\x7d)\n".toList

def bindLine (key : TriggerKey) : Text :=
  "o.bind(\"".toList ++ key.code ++ "\", \"".toList ++ voisuTriggerDescription ++ "\", \"".toList ++
    voisuToggleCommand ++ "\")\n".toList

/-- a blank line after a text that is not empty -/
def closeContent (content : Text) : Text :=
  let content := if !content.isEmpty && !endsWith content ['\n'] then content ++ ['\n'] else content
  if !content.isEmpty && !endsWith content ['\n', '\n'] then content ++ ['\n'] else content

def managedBlock (key : TriggerKey) (kbOptions : Option Text) : Text :=
  beginMarker ++ ['\n'] ++ (kbOptions.map kbOptionsBlock).getD [] ++ bindLine key ++
    endMarker ++ ['\n']

def appendManagedBinding (source : Text) (key : TriggerKey) (kbOptions : Option Text) :
    Except String Text :=
  (removeManagedBlocks source).map fun content => closeContent content ++ managedBlock key kbOptions

/-- `orderedKbOptions` are the options in the order in which Hyprland meets them -/
def desiredKbOptions (inputSource : Text) (orderedKbOptions : List Text) : Text :=
  mergeCapsLockKbOptions
    (orderedKbOptions.getLast?.or (kbOptionsValues inputSource).getLast?)

def desiredHyprlandSource (source : Text) (key : TriggerKey) (inputSource : Text)
    (orderedKbOptions : List Text) : Except String Text :=
  appendManagedBinding source key
    (if key = capsLock then some (desiredKbOptions inputSource orderedKbOptions) else none)

end Voisu.Hyprland
