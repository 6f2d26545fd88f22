import Voisu.Hyprland.Bindings
import Voisu.Hyprland.Shortcuts

/-!
# The paste action of a Hyprland configuration

`discover_paste_action` of `hyprland_bindings.rs`: a live binding is paired with the bindings of the
Lua sources, and the first pair that is proven to paste is the action.

* `namedFunctionBody`            the body of a function, between its parameters and its `end`;
* `omarchyUniversalPasteChords`  the chords of the Omarchy helper, whose functions are compared;
* `verify`                       one live row and one source binding;
* `discoverPasteAction`          the first pair that verifies;
* `chosenChord`                  the chord that the press path takes.
-/

namespace Voisu.Hyprland
open Lib

structure PasteShortcut where
  binding : Text
deriving DecidableEq, Repr

inductive PasteBehavior where
  | omarchyUniversal (normal terminal : PasteShortcut)
  | simple
deriving DecidableEq, Repr

structure VerifiedPasteAction where
  shortcut : PasteShortcut
  description : Text
  liveBindingIdentity : Text
  behavior : PasteBehavior
deriving DecidableEq, Repr

/-! ## function bodies -/

inductive LuaBlock where
  | function
  | conditional
  | loop
  | doBlock
  | repeatBlock
deriving DecidableEq, Repr

/-- the index of the `end` that closes the last of `blocks`; the tokens are those from `index` on -/
def matchingFunctionEnd (index : Nat) (blocks : List LuaBlock) (awaitingLoopDo : Bool) :
    List LuaToken → Option Nat
  | [] => none
  | .identifier keyword :: tokens =>
    if keyword = "function".toList then
      matchingFunctionEnd (index + 1) (.function :: blocks) false tokens
    else if keyword = "if".toList then
      matchingFunctionEnd (index + 1) (.conditional :: blocks) false tokens
    else if keyword = "for".toList ∨ keyword = "while".toList then
      matchingFunctionEnd (index + 1) (.loop :: blocks) true tokens
    else if keyword = "do".toList ∧ awaitingLoopDo then
      matchingFunctionEnd (index + 1) blocks false tokens
    else if keyword = "do".toList then
      matchingFunctionEnd (index + 1) (.doBlock :: blocks) false tokens
    else if keyword = "repeat".toList then
      matchingFunctionEnd (index + 1) (.repeatBlock :: blocks) false tokens
    else if keyword = "until".toList then
      match blocks with
      | .repeatBlock :: blocks => matchingFunctionEnd (index + 1) blocks awaitingLoopDo tokens
      | _ => none
    else if keyword = "end".toList then
      match blocks with
      | [] => none
      | [_] => some index
      | _ :: blocks => matchingFunctionEnd (index + 1) blocks false tokens
    else matchingFunctionEnd (index + 1) blocks awaitingLoopDo tokens
  | _ :: tokens => matchingFunctionEnd (index + 1) blocks awaitingLoopDo tokens

/-- the index behind the closing bracket, and the parameters -/
def parseFunctionParameters (index : Nat) (parameters : List Text) :
    List LuaToken → Option (Nat × List Text)
  | .identifier parameter :: .symbol ',' :: tokens =>
    parseFunctionParameters (index + 2) (parameters ++ [parameter]) tokens
  | .identifier parameter :: .symbol ')' :: _ => some (index + 2, parameters ++ [parameter])
  | .symbol ')' :: _ => some (index + 1, parameters)
  | _ => none

/-- `function name(`, and a token behind it -/
def opensFunction (name : Text) : List LuaToken → Bool
  | .identifier keyword :: .identifier functionName :: .symbol '(' :: _ :: _ =>
    keyword == "function".toList && functionName == name
  | _ => false

/-- where the body of a function begins and ends; `tokens` are those from `index` on -/
def functionBodyFrom (all : List LuaToken) (name : Text) (expectedParameters : List Text)
    (index : Nat) : List LuaToken → Option (Nat × Nat)
  | [] => none
  | token :: tokens =>
    if opensFunction name (token :: tokens) then
      match parseFunctionParameters (index + 3) [] (all.drop (index + 3)) with
      | none => none
      | some (bodyStart, parameters) =>
        if parameters ≠ expectedParameters then
          functionBodyFrom all name expectedParameters (index + 1) tokens
        else
          (matchingFunctionEnd bodyStart [.function] false (all.drop bodyStart)).map fun bodyEnd =>
            (bodyStart, bodyEnd)
    else functionBodyFrom all name expectedParameters (index + 1) tokens

def namedFunctionBody (tokens : List LuaToken) (name : Text) (expectedParameters : List Text) :
    Option (Nat × Nat) :=
  functionBodyFrom tokens name expectedParameters 0 tokens

/-- a function that the Omarchy configuration is expected to have -/
structure HelperFunction where
  name : Text
  parameters : List Text
  body : Text
deriving DecidableEq, Repr

/-- a text by its lines -/
def textOfLines (lines : List String) : Text := lines.flatMap fun line => line.toList ++ ['\n']

def universalClipboardShortcut : HelperFunction :=
  { name := "universal_clipboard_shortcut".toList
    parameters := ["default_mods", "default_key", "terminal_mods", "terminal_key"].map String.toList
    body := textOfLines [
      "",
      "return function()",
      "  if active_window_is_terminal() then",
      "    send_shortcut_once(terminal_mods, terminal_key)()",
      "  else",
      "    send_shortcut_once(default_mods, default_key)()",
      "  end",
      "end"] }

def sendShortcutOnce : HelperFunction :=
  { name := "send_shortcut_once".toList
    parameters := ["mods", "key"].map String.toList
    body := textOfLines [
      "",
      "return function()",
      "  hl.dispatch(hl.dsp.send_key_state(\x7b mods = mods, key = key, state = \"down\" \x7d))",
      "  hl.timer(function()",
      "    hl.dispatch(hl.dsp.send_key_state(\x7b mods = mods, key = key, state = \"up\" \x7d))",
      "  end, \x7b timeout = 50, type = \"oneshot\" \x7d)",
      "end"] }

def activeWindowIsTerminal : HelperFunction :=
  { name := "active_window_is_terminal".toList
    parameters := []
    body := textOfLines [
      "",
      "local window = hl.get_active_window()",
      "if not window then",
      "  return false",
      "end",
      "for _, tag in ipairs(window.tags or \x7b\x7d) do",
      "  if tag:gsub(\"%*$\", \"\") == \"terminal\" then",
      "    return true",
      "  end",
      "end",
      "return false"] }

def helperFunctions : List HelperFunction :=
  [universalClipboardShortcut, sendShortcutOnce, activeWindowIsTerminal]

def sliceTokens {α : Type} (tokens : List α) (range : Nat × Nat) : List α :=
  (tokens.take range.2).drop range.1

def functionBodyMatches (tokens : List LuaToken) (helper : HelperFunction) : Bool :=
  match namedFunctionBody tokens helper.name helper.parameters with
  | none => false
  | some range =>
    match lexLua helper.body with
    | .ok expected => expected == sliceTokens tokens range
    | .error _ => false

/-! ## the Omarchy helper -/

def helperChord (mods key : Text) : Option PasteShortcut :=
  let key := trim key
  if !isSafeLuaToken key then none
  else
    let mods := (mods.splitOnP fun c => c == '+' || isWhitespace c).filter fun m => !m.isEmpty
    let binding := joinChord mods ++ " + ".toList ++ key
    match sanitizedSendKeyTokens binding with
    | none => none
    | some (sanitizedMods, _) => if sanitizedMods.isEmpty then none else some ⟨binding⟩

def luaDispatcher : Text := "<Lua dispatcher>".toList

def omarchyUniversalPasteChords (binding : LuaBinding) (source : Text) :
    Option (PasteShortcut × PasteShortcut) :=
  if binding.command ≠ luaDispatcher ∨
      binding.dispatcher ≠ some "universal_clipboard_shortcut".toList ∨
      binding.description ≠ "Universal paste".toList ∨ '+' ∉ binding.key then none
  else
    match binding.dispatcherArguments with
    | some [normalMods, normalKey, terminalMods, terminalKey] =>
      match helperChord normalMods normalKey, helperChord terminalMods terminalKey,
        lexLua source with
      | some normal, some terminal, .ok tokens =>
        if helperFunctions.all (functionBodyMatches tokens) then some (normal, terminal) else none
      | _, _, _ => none
    | _ => none

/-! ## live bindings -/

/-- `Value::get` -/
def member (v : Value) (key : String) : Option Value :=
  v.asObject.bind fun fields => getKey fields key.toList

def memberStr (v : Value) (key : String) : Option Text := (member v key).bind Value.asStr

def bindingArgument (binding : Value) : Option Text :=
  (memberStr binding "arg").or ((member binding "arg").bind fun arg => memberStr arg "arg")

def liveBindingIdentity (binding : Value) (dispatcher : Text) : Option Text :=
  match bindingArgument binding with
  | none => none
  | some argument =>
    let argument := trim argument
    if dispatcher = "__lua".toList then
      if (parseUnsigned (2 ^ 64 - 1) argument).isSome then some argument else none
    else if dispatcher = "exec".toList then some argument
    else none

def normalizeKey (key : Text) : Text := asciiUppercase (trim key)

def isStringLiteralCommand (binding : LuaBinding) : Bool :=
  binding.command != luaDispatcher && binding.dispatcher.isNone

def isPasteDescription (description : Text) : Bool :=
  let description := asciiLowercase description
  contains description "paste".toList ||
    (contains description "clipboard".toList && contains description "insert".toList)

/-- the chord of the source is the live one; a Lua bind may have no key of its own -/
def liveKeyMatches (live : Value) (dispatcher : Option Text) (parts : Nat × Text) : Bool :=
  let liveKey := (memberStr live "key").getD []
  let opaqueLuaKey := dispatcher == some "__lua".toList && (trim liveKey).isEmpty
  let liveModmask := (((member live "modmask").bind Value.asU64).map UInt64.toNat).getD (2 ^ 64 - 1)
  opaqueLuaKey || (parts.1 == liveModmask && normalizeKey liveKey == normalizeKey parts.2)

def liveBindingMatchesSource (live : Value) (source : LuaBinding) : Bool :=
  match shortcutParts source.key with
  | none => false
  | some parts =>
    let dispatcher := memberStr live "dispatcher"
    liveKeyMatches live dispatcher parts &&
      if dispatcher = some "exec".toList then
        isStringLiteralCommand source &&
          (bindingArgument live).any fun argument => trim argument == trim source.command
      else if dispatcher = some "__lua".toList then
        (liveBindingIdentity live "__lua".toList).isSome &&
          (isStringLiteralCommand source ||
            (source.command == luaDispatcher && source.dispatcher.isSome))
      else false

/-! ## discovery -/

/-- a live row beside a binding of a source -/
structure Offer where
  live : Value
  binding : LuaBinding
  source : Text

def sourceBindings (sources : List Text) : List (LuaBinding × Text) :=
  sources.flatMap fun source =>
    match parseLuaBindings source with
    | .ok bindings => bindings.map fun binding => (binding, source)
    | .error _ => []

/-- every live row with every source binding, in the order of the loops -/
def offers (sources : List Text) (liveBindings : Value) : List Offer :=
  match liveBindings.asArray with
  | none => []
  | some rows => rows.flatMap fun live =>
      (sourceBindings sources).map fun b => { live, binding := b.1, source := b.2 }

/-- a candidate that matches the live row -/
def verifyCandidate (dispatcher identity : Text) (binding : LuaBinding) (source : Text) :
    Option VerifiedPasteAction :=
  let action (behavior : PasteBehavior) : VerifiedPasteAction :=
    { shortcut := ⟨trim binding.key⟩
      description := binding.description
      liveBindingIdentity := identity
      behavior }
  match if dispatcher = "__lua".toList then omarchyUniversalPasteChords binding source
    else none with
  | some (normal, terminal) => some (action (.omarchyUniversal normal terminal))
  | none =>
    if (dispatcher = "exec".toList ∨ dispatcher = "__lua".toList) ∧ isStringLiteralCommand binding ∧
        isPasteDescription binding.description then some (action .simple)
    else none

def verify (offer : Offer) : Option VerifiedPasteAction :=
  match memberStr offer.live "dispatcher" with
  | none => none
  | some dispatcher =>
    match liveBindingIdentity offer.live dispatcher, memberStr offer.live "description" with
    | some identity, some description =>
      if offer.binding.description = description ∧
          liveBindingMatchesSource offer.live offer.binding then
        verifyCandidate dispatcher identity offer.binding offer.source
      else none
    | _, _ => none

def discoverPasteAction (sources : List Text) (liveBindings : Value) : Option VerifiedPasteAction :=
  (offers sources liveBindings).findSome? verify

/-- the chord of an action, by whether a terminal has the focus -/
def chosenChord (action : VerifiedPasteAction) (terminalFocused : Bool) : Text :=
  match action.behavior with
  | .simple => action.shortcut.binding
  | .omarchyUniversal normal terminal =>
    if terminalFocused then terminal.binding else normal.binding

end Voisu.Hyprland
