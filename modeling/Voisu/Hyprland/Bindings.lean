import Voisu.Hyprland.Lua

/-!
# The bindings of a Lua source and the plan for the Trigger Key

* `parseBindArguments`    the arguments of one `o.bind` call;
* `scanCalls`             the loop over the tokens that looks for the calls;
* `parseLuaBindings`      the bindings of a source;
* `planTriggerBindings`   which Trigger Key to install.
-/

namespace Voisu.Hyprland
open Lib

structure TriggerKey where
  label : Text
  code : Text
deriving DecidableEq, Repr

def capsLock : TriggerKey := { label := "Caps Lock".toList, code := "code:66".toList }
def rightAlt : TriggerKey := { label := "Right Alt".toList, code := "code:108".toList }

def preferredTriggerKeys : List TriggerKey := [capsLock, rightAlt]

structure LuaBinding where
  key : Text
  description : Text
  command : Text
  dispatcher : Option Text
  dispatcherArguments : Option (List Text)
  managed : Bool
deriving DecidableEq, Repr

/-- whether a key of a binding is a candidate on its own -/
def keyStandsFor (key : Text) (candidate : TriggerKey) : Bool :=
  eqIgnoreAsciiCase (trim key) candidate.code ||
    (if candidate.code = "code:66".toList then
      eqIgnoreAsciiCase (trim key) "Caps_Lock".toList || eqIgnoreAsciiCase (trim key) "CapsLock".toList
    else if candidate.code = "code:108".toList then eqIgnoreAsciiCase (trim key) "Alt_R".toList
    else if candidate.code = "code:64".toList then eqIgnoreAsciiCase (trim key) "Alt_L".toList
    else false)

namespace LuaBinding

def isStandaloneFor (b : LuaBinding) (candidate : TriggerKey) : Bool := keyStandsFor b.key candidate

def isStandalone (b : LuaBinding) : Bool := preferredTriggerKeys.any b.isStandaloneFor

end LuaBinding

def occupiesPreferredTriggerKey (key : Text) : Bool := preferredTriggerKeys.any (keyStandsFor key)

/-! ## the arguments of a call -/

/-- the tokens behind the bracket that closes the one at the front; `depth` are open -/
def matchingParenthesisFrom (depth : Int) : List LuaToken → Except String (List LuaToken)
  | [] => .error "the dispatcher call is missing a closing parenthesis"
  | .symbol '(' :: tokens => matchingParenthesisFrom (depth + 1) tokens
  | .symbol ')' :: tokens =>
    if depth - 1 = 0 then .ok tokens else matchingParenthesisFrom (depth - 1) tokens
  | _ :: tokens => matchingParenthesisFrom depth tokens

def matchingParenthesis (tokens : List LuaToken) : Except String (List LuaToken) :=
  matchingParenthesisFrom 0 tokens

/-- the tokens from the bracket on that closes the call -/
def bindingExpressionEnd (depth : Nat) : List LuaToken → Except String (List LuaToken)
  | [] => .error "the binding command is missing a closing parenthesis"
  | .symbol '(' :: tokens => bindingExpressionEnd (depth + 1) tokens
  | .symbol ')' :: tokens =>
    match depth with
    | 0 => .ok (.symbol ')' :: tokens)
    | depth + 1 => bindingExpressionEnd depth tokens
  | _ :: tokens => bindingExpressionEnd depth tokens

/-- the tokens behind the bracket that opens the call `opened`, whose first arguments are given -/
def dispatcherArgumentsFrom (opened : List LuaToken) (arguments : List Text) :
    List LuaToken → Except String (List LuaToken × Option (List Text))
  | .string argument :: .symbol ',' :: tokens =>
    dispatcherArgumentsFrom opened (arguments ++ [argument]) tokens
  | .string argument :: .symbol ')' :: tokens => .ok (tokens, some (arguments ++ [argument]))
  | .string _ :: _ :: _ => .error "the dispatcher arguments must be separated by commas"
  | .string _ :: [] => .error "the dispatcher call is missing a closing parenthesis"
  | .symbol ')' :: tokens => .ok (tokens, some arguments)
  | _ :: _ =>
    match matchingParenthesis opened with
    | .ok rest => .ok (rest, none)
    | .error e => .error e
  | [] => .error "the dispatcher call is missing a closing parenthesis"

def parseDispatcherArguments (opened : List LuaToken) :
    Except String (List LuaToken × Option (List Text)) :=
  dispatcherArgumentsFrom opened [] opened.tail

/-- command, dispatcher and arguments of a call, and the tokens behind them -/
def parseCommand : List LuaToken →
    Except String ((Text × Option Text × Option (List Text)) × List LuaToken)
  | .string value :: tokens => .ok ((value, none, none), tokens)
  | .symbol ')' :: _ => .error "the binding command is missing"
  | .identifier name :: .symbol '(' :: tokens =>
    match parseDispatcherArguments (.symbol '(' :: tokens) with
    | .ok (rest, arguments) => .ok (("<Lua dispatcher>".toList, some name, arguments), rest)
    | .error e => .error e
  | .identifier name :: tokens =>
    match bindingExpressionEnd 0 tokens with
    | .ok rest => .ok (("<Lua dispatcher>".toList, some name, none), rest)
    | .error e => .error e
  | [] => .error "the binding command is missing"
  | tokens =>
    match bindingExpressionEnd 0 tokens with
    | .ok rest => .ok (("<Lua dispatcher>".toList, none, none), rest)
    | .error e => .error e

/-- the tokens behind the description and its comma -/
def parseBody (key description : Text) (managed : Bool) (tokens : List LuaToken) :
    Except String (Option LuaBinding) :=
  match parseCommand tokens with
  | .error e => .error e
  | .ok ((command, dispatcher, dispatcherArguments), .symbol ')' :: _) =>
    .ok (some { key, description, command, dispatcher, dispatcherArguments, managed })
  | .ok _ => .error "the binding command must be followed by a closing parenthesis"

/-- the tokens behind the key and its comma -/
def parseDescription (key : Text) (managed : Bool) : List LuaToken → Except String (Option LuaBinding)
  | .string description :: .symbol ',' :: tokens => parseBody key description managed tokens
  | .string _ :: _ =>
    if occupiesPreferredTriggerKey key then
      .error "the binding description must be followed by a comma"
    else .ok none
  | _ :: _ =>
    if occupiesPreferredTriggerKey key then .error "the binding description must be a string literal"
    else .ok none
  | [] => .error "the binding description is missing"

/-- the tokens behind `o.bind(`; no binding for a key that is put together -/
def parseBindArguments (managed : Bool) : List LuaToken → Except String (Option LuaBinding)
  | .string key :: .symbol ',' :: tokens => parseDescription key managed tokens
  | .string key :: _ =>
    if occupiesPreferredTriggerKey key then .error "the binding key must be followed by a comma"
    else .ok none
  | _ :: _ => .error "the binding key must be a string literal"
  | [] => .error "the binding key is missing"

/-! ## the calls of a chunk -/

/-- the tokens behind `o.bind(`, if the tokens begin with that -/
def callArguments : List LuaToken → Option (List LuaToken)
  | .identifier object :: .symbol '.' :: .identifier method :: .symbol '(' :: tokens =>
    if object = "o".toList ∧ method = "bind".toList then some tokens else none
  | _ => none

theorem callArguments_eq_some {tokens arguments : List LuaToken}
    (h : callArguments tokens = some arguments) :
    tokens = .identifier "o".toList :: .symbol '.' :: .identifier "bind".toList :: .symbol '(' ::
      arguments := by
  unfold callArguments at h
  split at h
  · split at h
    · rename_i hcall
      cases h
      rw [hcall.1, hcall.2]
    · cases h
  · cases h

/-- where the loop goes on behind a call that it reads or passes -/
def afterCall (managed : Bool) (arguments : List LuaToken) :
    Except String (Option LuaBinding × List LuaToken) :=
  match parseBindArguments managed arguments with
  | .ok (some binding) => .ok (some binding, arguments)
  | .ok none => (matchingParenthesis (.symbol '(' :: arguments)).map fun rest => (none, rest)
  | .error e =>
    match arguments with
    | .string key :: _ =>
      if occupiesPreferredTriggerKey key then .error e
      else (matchingParenthesis (.symbol '(' :: arguments)).map fun rest => (none, rest)
    | _ => .error e

theorem matchingParenthesisFrom_suffix {depth : Int} {tokens rest : List LuaToken} :
    matchingParenthesisFrom depth tokens = .ok rest → rest <:+ tokens := by
  fun_induction matchingParenthesisFrom depth tokens with
  | case1 => exact nofun
  | case2 depth tokens ih => exact fun h => (ih h).trans (List.suffix_cons _ _)
  | case3 depth tokens _ =>
    intro h
    cases h
    exact List.suffix_cons _ _
  | case4 depth tokens _ ih => exact fun h => (ih h).trans (List.suffix_cons _ _)
  | case5 depth token tokens _ _ ih => exact fun h => (ih h).trans (List.suffix_cons _ _)

/-- the bracket at the front is open, so the bracket that closes it is behind it -/
theorem matchingParenthesis_suffix {arguments rest : List LuaToken}
    (h : matchingParenthesis (.symbol '(' :: arguments) = .ok rest) : rest <:+ arguments := by
  unfold matchingParenthesis at h
  rw [matchingParenthesisFrom] at h
  exact matchingParenthesisFrom_suffix h

theorem afterCall_suffix {managed : Bool} {arguments rest : List LuaToken} {binding : Option LuaBinding}
    (h : afterCall managed arguments = .ok (binding, rest)) : rest <:+ arguments := by
  have hskip : ∀ {r}, (matchingParenthesis (.symbol '(' :: arguments)).map
      (fun rest => ((none : Option LuaBinding), rest)) = .ok r → r.2 <:+ arguments := by
    intro r hr
    cases hm : matchingParenthesis (.symbol '(' :: arguments) with
    | error e =>
      rw [hm] at hr
      cases hr
    | ok rest =>
      rw [hm] at hr
      cases hr
      exact matchingParenthesis_suffix hm
  unfold afterCall at h
  split at h
  · cases h
    exact List.suffix_rfl
  · exact hskip h
  · split at h
    · split at h
      · cases h
      · exact hskip h
    · cases h

/-- the bindings that the loop over the tokens finds -/
def scanCalls (managed : Bool) : List LuaToken → Except String (List LuaBinding)
  | [] => .ok []
  | token :: tokens =>
    match _hcall : callArguments (token :: tokens) with
    | none => scanCalls managed tokens
    | some arguments =>
      match _hafter : afterCall managed arguments with
      | .error e => .error e
      | .ok (binding, rest) =>
        match scanCalls managed rest with
        | .ok bindings => .ok (binding.toList ++ bindings)
        | .error e => .error e
termination_by tokens => tokens.length
decreasing_by
  · exact Nat.lt_succ_self _
  · have := (afterCall_suffix _hafter).length_le
    rw [callArguments_eq_some _hcall]
    simp only [List.length_cons]
    omega

def parseLuaChunk (source : Text) (managed : Bool) : Except String (List LuaBinding) :=
  match lexLua source with
  | .ok tokens => scanCalls managed tokens
  | .error e => .error e

def parseChunks : List (Text × Bool) → Except String (List LuaBinding)
  | [] => .ok []
  | (chunk, managed) :: chunks =>
    match parseLuaChunk chunk managed with
    | .error e => .error e
    | .ok bindings =>
      match parseChunks chunks with
      | .ok rest => .ok (bindings ++ rest)
      | .error e => .error e

def parseLuaBindings (source : Text) : Except String (List LuaBinding) :=
  match splitLuaChunks source with
  | .ok chunks => parseChunks chunks
  | .error e => .error e

/-! ## the plan -/

structure BindingConflict where
  candidate : TriggerKey
  description : Text
  command : Text
deriving DecidableEq, Repr

inductive TriggerBindingPlan where
  | install (key : TriggerKey)
  | alreadyInstalled (key : TriggerKey)
  | conflicts (conflicts : List BindingConflict)
  | unparseable (detail : String)
deriving DecidableEq, Repr

def voisuToggleCommand : Text := "voisu toggle".toList
def voisuTriggerDescription : Text := "Voisu dictation".toList

def unmanagedFor (bindings : List LuaBinding) (candidate : TriggerKey) : Option LuaBinding :=
  bindings.find? fun b => !b.managed && b.isStandaloneFor candidate

def managedFor (bindings : List LuaBinding) (candidate : TriggerKey) : Bool :=
  bindings.any fun b => b.managed && b.isStandaloneFor candidate

/-- a managed binding that is not the one Voisu writes -/
def foreignManaged (bindings : List LuaBinding) : Option LuaBinding :=
  bindings.find? fun b => b.managed && b.isStandalone &&
    (b.description != voisuTriggerDescription || b.command != voisuToggleCommand)

def foreignDetail (b : LuaBinding) : String :=
  "the managed " ++ String.ofList (((preferredTriggerKeys.find? b.isStandaloneFor).map
    TriggerKey.label).getD []) ++
    " binding does not match Voisu's expected description or command"

/-- without a managed key: Caps Lock if it is preferred and free, then Right Alt -/
def planInstall (bindings : List LuaBinding) (preferCapsLock : Bool) : TriggerBindingPlan :=
  let fallback :=
    if (unmanagedFor bindings rightAlt).isNone then .install rightAlt
    else .conflicts (preferredTriggerKeys.filterMap fun candidate =>
      (unmanagedFor bindings candidate).map fun b =>
        { candidate, description := b.description, command := b.command })
  if preferCapsLock then
    match unmanagedFor bindings capsLock with
    | none => .install capsLock
    | some b => if b.command = voisuToggleCommand then .alreadyInstalled capsLock else fallback
  else fallback

def planTriggerBindingFromBindings (bindings : List LuaBinding) (preferCapsLock : Bool) :
    TriggerBindingPlan :=
  match foreignManaged bindings with
  | some b => .unparseable (foreignDetail b)
  | none =>
    match preferredTriggerKeys.find? fun candidate =>
        managedFor bindings candidate && (unmanagedFor bindings candidate).isNone with
    | some candidate => .alreadyInstalled candidate
    | none => planInstall bindings preferCapsLock

/-- the bindings of several sources, or the first that cannot be read -/
def parseSources : List Text → Except String (List LuaBinding)
  | [] => .ok []
  | source :: sources =>
    match parseLuaBindings source with
    | .error e => .error e
    | .ok bindings =>
      match parseSources sources with
      | .ok rest => .ok (bindings ++ rest)
      | .error e => .error e

def planTriggerBindings (sources : List Text) (preferCapsLock : Bool) : TriggerBindingPlan :=
  match parseSources sources with
  | .ok bindings => planTriggerBindingFromBindings bindings preferCapsLock
  | .error detail => .unparseable detail

end Voisu.Hyprland
