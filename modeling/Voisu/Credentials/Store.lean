import Voisu.Credentials.File

/-!
# The credential store: the keyring, and the file where it is unavailable

A credential goes to the desktop keyring, or to the fallback file once the retries are used up; a
credential that the keyring took is pruned from the file.  A load asks the keyring first.

* `readCapped`                    what is retained of the output of `secret-tool`;
* `storePrimary`, `loadPrimary`   the bounded retries over it;
* `replace`, `load`               the two calls;
* `ReadsWrites`                   every load returns what was acknowledged last;
* `Single`                        the replaces that leave no second, different copy;
* `run_readsWrites`               every run of such calls reads its writes;
* `staleKeyring`                  a run that does not.
-/

namespace Voisu.Credentials
open Lib

inductive FallbackReason where
  | unavailable
  | locked
  | toolMissing
deriving DecidableEq, Repr

def FallbackReason.loadError (reason : FallbackReason) : BoundaryError :=
  { secretError "keyring load failed".toList with
    publicMessage := some (match reason with
      | .unavailable =>
        "no desktop Secret Service is available; run `voisu setup` to store a key".toList
      | .locked => "the desktop keyring is locked; unlock it, or run `voisu setup`".toList
      | .toolMissing => "the secret-tool helper is not installed".toList) }

inductive ProcessError where
  | unavailable
  | input
  | timedOut
  | wait
  | output
deriving DecidableEq, Repr

/-- how a run of `secret-tool` ends; `served` where the keyring is available -/
inductive ToolOutcome where
  | served
  | refused (stderr : Text)
  | garbled
  | failed (error : ProcessError)
deriving DecidableEq, Repr

/-! ## the keyring -/

inductive StoreStep where
  | stored
  | retry (reason : FallbackReason)
  | stop (reason : FallbackReason)
deriving DecidableEq, Repr

/-- the output of a store is not read, so it cannot be garbled -/
def secretToolStore : ToolOutcome → StoreStep
  | .served => .stored
  | .garbled => .stored
  | .refused stderr => if stderr.isEmpty then .retry .unavailable else .stop .locked
  | .failed .unavailable => .stop .toolMissing
  | .failed .timedOut => .stop .locked
  | .failed _ => .stop .unavailable

/-- the `loop` of `store_primary` with `budget` backoffs left -/
def storeFrom (tool : Nat → ToolOutcome) (attempt : Nat) : Nat → Except FallbackReason Unit
  | 0 =>
    match secretToolStore (tool attempt) with
    | .stored => .ok ()
    | .stop reason => .error reason
    | .retry reason => .error reason
  | budget + 1 =>
    match secretToolStore (tool attempt) with
    | .stored => .ok ()
    | .stop reason => .error reason
    | .retry _ => storeFrom tool (attempt + 1) budget

def keyringRetryBackoff : Nat := 3

def storePrimary (tool : Nat → ToolOutcome) : Except FallbackReason Unit :=
  storeFrom tool 0 keyringRetryBackoff

def maxRetainedStdoutBytes : Nat := 64 * 1024

/-- the first `cap` bytes that are printed, where they are a text: a cut within a character is none -/
def readCapped (cap : Nat) (printed : Text) : Option Text :=
  if byteLen printed ≤ cap then some printed else (cut cap printed).map Prod.fst

inductive LoadStep where
  | found (credential : Credential)
  | missing
  | retry (reason : FallbackReason)
  | stop (reason : FallbackReason)

def secretToolLoad (held : Option Text) : ToolOutcome → LoadStep
  | .served =>
    match held with
    | some value =>
      match readCapped maxRetainedStdoutBytes value with
      | some printed =>
        match Credential.new (trimEnd printed) with
        | .ok credential => .found credential
        | .error _ => .missing
      | none => .stop .locked
    | none => .missing
  | .garbled => .stop .locked
  | .refused stderr => if stderr.isEmpty then .missing else .retry .locked
  | .failed .unavailable => .stop .toolMissing
  | .failed .timedOut => .stop .locked
  | .failed _ => .stop .unavailable

inductive LoadPrimary where
  | found (credential : Credential)
  | missing
  | failed (reason : FallbackReason)

/-- the `loop` of `load_primary` with `budget` backoffs left -/
def loadFrom (held : Option Text) (tool : Nat → ToolOutcome) (attempt : Nat) : Nat → LoadPrimary
  | 0 =>
    match secretToolLoad held (tool attempt) with
    | .found credential => .found credential
    | .missing => .missing
    | .stop reason => .failed reason
    | .retry reason => .failed reason
  | budget + 1 =>
    match secretToolLoad held (tool attempt) with
    | .found credential => .found credential
    | .missing => .missing
    | .stop reason => .failed reason
    | .retry _ => loadFrom held tool (attempt + 1) budget

def lookupRetryBackoff : Nat := 2

def loadPrimary (held : Option Text) (tool : Nat → ToolOutcome) : LoadPrimary :=
  loadFrom held tool 0 lookupRetryBackoff

/-! ## the calls -/

/-- in nanoseconds -/
def credentialCacheTtl : Nat := 300 * 1000000000

structure Stores where
  keyring : Provider → Option Text
  file : Option Text
  cache : Provider → Option (Credential × Nat)

def pruneFailed : BoundaryError :=
  { secretError "plaintext prune failed after a successful keyring store".toList with
    publicMessage := some ("the key was stored in your keyring, but the old plaintext copy could not be "
      ++ "removed and would still be used if the keyring is locked — delete the credentials file next to "
      ++ "config.toml, then re-run `voisu doctor`").toList }

def pruneUnverifiable : BoundaryError :=
  { secretError "plaintext prune unverifiable after a successful keyring store".toList with
    publicMessage := some ("the key was stored in your keyring, but Voisu could not verify whether an old "
      ++ "plaintext copy remains — check for a credentials file next to config.toml, then re-run "
      ++ "`voisu doctor`").toList }

def replace (s : Stores) (provider : Provider) (credential : Credential) (tool : Nat → ToolOutcome)
    (disk : Disk) : Except BoundaryError Unit × Stores :=
  match storePrimary tool with
  | .ok _ =>
    let removed := FileSecretStore.remove disk s.file provider
    (match removed.1 with
      | .ok _ => .ok ()
      | .error (.targetPresent _) => .error pruneFailed
      | .error (.unverifiable _) => .error pruneUnverifiable,
      { s with
        keyring := Function.update s.keyring provider (some credential.value)
        file := removed.2 })
  | .error _ =>
    let stored := FileSecretStore.store disk s.file provider credential
    (stored.1, { s with file := stored.2 })

def noStored : BoundaryError := secretError "no stored credential for provider".toList

/-- the closure that `resolve_with_cache` runs -/
def loadUncached (s : Stores) (provider : Provider) (tool : Nat → ToolOutcome) (disk : Disk) :
    Except BoundaryError Credential :=
  match loadPrimary (s.keyring provider) tool with
  | .found credential => .ok credential
  | .missing =>
    match FileSecretStore.read disk s.file provider with
    | .error error => .error error
    | .ok (some credential) => .ok credential
    | .ok none => .error noStored
  | .failed reason =>
    match FileSecretStore.read disk s.file provider with
    | .error error => .error error
    | .ok (some credential) => .ok credential
    | .ok none => .error reason.loadError

/-- the entry of the session cache that is still fresh -/
def Stores.fresh (s : Stores) (provider : Provider) (now : Nat) : Option Credential :=
  match s.cache provider with
  | some (credential, stored) => if now - stored < credentialCacheTtl then some credential else none
  | none => none

def load (s : Stores) (provider : Provider) (environment : Option Text) (now : Nat)
    (tool : Nat → ToolOutcome) (disk : Disk) : Except BoundaryError Credential × Stores :=
  match environment with
  | some value => (Credential.new value, s)
  | none =>
    match s.fresh provider now with
    | some credential => (.ok credential, s)
    | none =>
      match loadUncached s provider tool disk with
      | .ok credential =>
        (.ok credential, { s with cache := Function.update s.cache provider (some (credential, now)) })
      | .error error => (.error error, { s with cache := Function.update s.cache provider none })

/-! ## runs -/

inductive Call where
  | replace (provider : Provider) (credential : Credential) (tool : Nat → ToolOutcome) (disk : Disk)
  | load (provider : Provider) (environment : Option Text) (now : Nat) (tool : Nat → ToolOutcome)
    (disk : Disk)

inductive Reply where
  | replaced (provider : Provider) (credential : Credential) (acknowledged : Bool)
  | loaded (provider : Provider) (result : Option Credential)
deriving DecidableEq

def isOk {ε α : Type} : Except ε α → Bool
  | .ok _ => true
  | .error _ => false

def Stores.step (s : Stores) : Call → Stores × Reply
  | .replace provider credential tool disk =>
    let result := replace s provider credential tool disk
    (result.2, .replaced provider credential (isOk result.1))
  | .load provider environment now tool disk =>
    let result := load s provider environment now tool disk
    (result.2, .loaded provider result.1.toOption)

def Stores.run (s : Stores) : List Call → List Reply
  | [] => []
  | call :: calls => (s.step call).2 :: (s.step call).1.run calls

/-- the credential of the last acknowledged replace, `held` before the first one -/
def acknowledged (provider : Provider) (held : Option Credential) : List Reply → Option Credential
  | [] => held
  | .replaced p credential true :: replies =>
    acknowledged provider (if p = provider then some credential else held) replies
  | _ :: replies => acknowledged provider held replies

/-- every load that returns a credential returns the one acknowledged last -/
def ReadsWrites (replies : List Reply) : Prop :=
  ∀ before after provider credential,
    replies = before ++ .loaded provider (some credential) :: after →
      acknowledged provider none before = some credential

/-- no environment override, an expired session cache, a credential without white space around it -/
def Plain (s : Stores) : Call → Prop
  | .replace _ credential _ _ => trim credential.value = credential.value
  | .load provider environment now _ _ => environment = none ∧ s.fresh provider now = none

/-- a lookup retains the whole of a value that it prints, or no text at all -/
def Uncut (value : Text) : Prop :=
  match readCapped maxRetainedStdoutBytes value with
  | some printed => printed = value
  | none => True

instance (value : Text) : Decidable (Uncut value) :=
  match h : readCapped maxRetainedStdoutBytes value with
  | some printed => decidable_of_iff (printed = value) (by rw [Uncut, h])
  | none => .isTrue (by rw [Uncut, h]; trivial)

/-- a replace that goes to the file finds no other credential of the provider in the keyring; one that
goes to the keyring leaves a value there that no lookup cuts, and its prune does not fail -/
def Single (s : Stores) : Call → Prop
  | .replace provider credential tool disk =>
    if isOk (storePrimary tool) then
      isOk (FileSecretStore.remove disk s.file provider).1 = true ∧ Uncut credential.value
    else s.keyring provider = none ∨ s.keyring provider = some credential.value
  | .load _ _ _ _ _ => True

instance (s : Stores) : (call : Call) → Decidable (Plain s call)
  | .replace _ credential _ _ => inferInstanceAs (Decidable (trim credential.value = credential.value))
  | .load provider environment now _ _ =>
    inferInstanceAs (Decidable (environment = none ∧ s.fresh provider now = none))

instance (s : Stores) : (call : Call) → Decidable (Single s call)
  | .replace provider credential tool disk =>
    inferInstanceAs (Decidable (if isOk (storePrimary tool)
      then isOk (FileSecretStore.remove disk s.file provider).1 = true ∧ Uncut credential.value
      else s.keyring provider = none ∨ s.keyring provider = some credential.value))
  | .load _ _ _ _ _ => inferInstanceAs (Decidable True)

/-- a property of every call in a run, with the stores it finds -/
def Stores.Along (P : Stores → Call → Prop) (s : Stores) : List Call → Prop
  | [] => True
  | call :: calls => P s call ∧ (s.step call).1.Along P calls

instance decidableAlong (P : Stores → Call → Prop) [∀ s call, Decidable (P s call)] :
    (s : Stores) → (calls : List Call) → Decidable (s.Along P calls)
  | _, [] => .isTrue trivial
  | s, call :: calls =>
    have := decidableAlong P (s.step call).1 calls
    inferInstanceAs (Decidable (P s call ∧ (s.step call).1.Along P calls))

/-- nothing of either provider is stored yet -/
structure Stores.Bare (s : Stores) : Prop where
  keyring : ∀ provider, s.keyring provider = none
  file : ∀ provider, foundIn s.file provider = none

/-! ## one call -/

section
variable {s : Stores} {provider : Provider} {credential : Credential}

theorem Credential.value_of_new {value : Text} (h : Credential.new value = .ok credential) :
    credential.value = value := by
  unfold Credential.new at h
  split at h
  · obtain rfl := Except.ok.inj h
    rfl
  · cases h

/-- what a lookup finds is what it retained of the value that the keyring holds -/
def FoundIn (held : Option Text) (credential : Credential) : Prop :=
  ∃ value printed, held = some value ∧ readCapped maxRetainedStdoutBytes value = some printed ∧
    credential.value = trimEnd printed

theorem secretToolLoad_found {held : Option Text} {outcome : ToolOutcome}
    (h : secretToolLoad held outcome = .found credential) : FoundIn held credential := by
  cases outcome with
  | served =>
    cases held with
    | none => cases h
    | some value =>
      unfold secretToolLoad at h
      dsimp only at h
      split at h
      · rename_i printed hprinted
        split at h
        · rename_i c hnew
          obtain rfl := LoadStep.found.inj h
          exact ⟨value, printed, rfl, hprinted, Credential.value_of_new hnew⟩
        · cases h
      · cases h
  | refused stderr =>
    simp only [secretToolLoad] at h
    split at h <;> cases h
  | garbled => cases h
  | failed error => cases error <;> cases h

theorem loadFrom_found {held : Option Text} {tool : Nat → ToolOutcome} (budget attempt : Nat)
    (h : loadFrom held tool attempt budget = .found credential) : FoundIn held credential := by
  induction budget generalizing attempt with
  | zero =>
    unfold loadFrom at h
    split at h
    · rename_i c hstep
      obtain rfl := LoadPrimary.found.inj h
      exact secretToolLoad_found hstep
    all_goals cases h
  | succ budget ih =>
    unfold loadFrom at h
    split at h
    · rename_i c hstep
      obtain rfl := LoadPrimary.found.inj h
      exact secretToolLoad_found hstep
    · cases h
    · cases h
    · exact ih (attempt + 1) h

/-- what a load returns was in the keyring or in the file -/
theorem loadUncached_ok {tool : Nat → ToolOutcome} {disk : Disk}
    (h : loadUncached s provider tool disk = .ok credential) :
    FoundIn (s.keyring provider) credential ∨
      foundIn s.file provider = some credential.value := by
  unfold loadUncached at h
  split at h
  · rename_i c hfound
    obtain rfl := Except.ok.inj h
    exact .inl (loadFrom_found lookupRetryBackoff 0 hfound)
  all_goals
    right
    split at h
    · cases h
    · rename_i c hread
      obtain rfl := Except.ok.inj h
      exact FileSecretStore.read_ok hread
    · cases h

/-! ## both copies -/

/-- every copy of a credential is the one acknowledged last -/
structure Agrees (s : Stores) (held : Provider → Option Credential) : Prop where
  keyring : ∀ p value, s.keyring p = some value →
    ∃ c, held p = some c ∧ c.value = value ∧ trim value = value ∧ Uncut value
  file : ∀ p value, foundIn s.file p = some value → ∃ c, held p = some c ∧ c.value = value

theorem trimEnd_of_trim {value : Text} (h : trim value = value) : trimEnd value = value := by
  have htrimmed := trimMatches_trimmed isWhitespace value
  rw [show trimMatches isWhitespace value = value from h] at htrimmed
  exact trimEndMatches_of_lastSep htrimmed.2

theorem Credential.ext_value {c d : Credential} (h : c.value = d.value) : c = d := by
  cases c
  cases d
  cases h
  rfl

theorem Agrees.loaded {held : Provider → Option Credential} (h : Agrees s held)
    {tool : Nat → ToolOutcome} {disk : Disk}
    (hload : loadUncached s provider tool disk = .ok credential) : held provider = some credential := by
  rcases loadUncached_ok hload with ⟨value, printed, hkeyring, hprinted, hvalue⟩ | hfile
  · obtain ⟨c, hheld, hc, htrim, huncut⟩ := h.keyring provider value hkeyring
    rw [Uncut, hprinted] at huncut
    obtain rfl : printed = value := huncut
    rw [trimEnd_of_trim htrim, ← hc] at hvalue
    rw [hheld, Credential.ext_value hvalue]
  · obtain ⟨c, hheld, hc⟩ := h.file provider credential.value hfile
    rw [hheld, Credential.ext_value hc]

/-- what is held once the reply to a call is known -/
def heldAfter (held : Provider → Option Credential) : Reply → Provider → Option Credential
  | .replaced p credential true => Function.update held p (some credential)
  | _ => held

theorem Agrees.replace {held : Provider → Option Credential} (h : Agrees s held)
    {tool : Nat → ToolOutcome} {disk : Disk} (htrim : trim credential.value = credential.value)
    (hsingle : Single s (.replace provider credential tool disk)) :
    Agrees (Credentials.replace s provider credential tool disk).2
      (heldAfter held (.replaced provider credential
        (isOk (Credentials.replace s provider credential tool disk).1))) := by
  unfold Single at hsingle
  dsimp only at hsingle
  unfold Credentials.replace
  cases hprimary : storePrimary tool with
  | ok u =>
    rw [hprimary] at hsingle
    have hsingle : isOk (FileSecretStore.remove disk s.file provider).1 = true ∧
      Uncut credential.value := hsingle
    obtain ⟨hprune, huncut⟩ := hsingle
    dsimp only
    obtain ⟨removed, hremoved⟩ : ∃ r, (FileSecretStore.remove disk s.file provider).1 = .ok r := by
      cases hr : (FileSecretStore.remove disk s.file provider).1 with
      | ok r => exact ⟨r, rfl⟩
      | error e =>
        rw [hr] at hprune
        cases hprune
    rw [hremoved]
    refine ⟨?_, ?_⟩
    · intro p value hp
      have hp' : Function.update s.keyring provider (some credential.value) p = some value := hp
      show ∃ c, Function.update held provider (some credential) p = some c ∧ _
      by_cases hpp : p = provider
      · subst hpp
        rw [Function.update_self] at hp' ⊢
        obtain rfl := Option.some.inj hp'
        exact ⟨credential, rfl, rfl, htrim, huncut⟩
      · rw [Function.update_of_ne hpp] at hp' ⊢
        exact h.keyring p value hp'
    · intro p value hp
      show ∃ c, Function.update held provider (some credential) p = some c ∧ _
      by_cases hpp : p = provider
      · subst hpp
        have hnone := FileSecretStore.foundIn_remove_ok ⟨removed, hremoved⟩
        rw [show foundIn _ p = some value from hp] at hnone
        cases hnone
      · rw [Function.update_of_ne hpp]
        rcases FileSecretStore.foundIn_remove disk s.file provider p with hsame | ⟨heq, -⟩
        · exact h.file p value (hsame.symm.trans hp)
        · exact absurd heq.symm hpp
  | error reason =>
    rw [hprimary] at hsingle
    have hsingle : s.keyring provider = none ∨ s.keyring provider = some credential.value := hsingle
    dsimp only
    cases hstore : (FileSecretStore.store disk s.file provider credential).1 with
    | error error =>
      have hfile : (FileSecretStore.store disk s.file provider credential).2 = s.file := by
        refine FileSecretStore.store_error ?_
        rw [hstore]
        exact nofun
      refine ⟨h.keyring, ?_⟩
      intro p value hp
      refine h.file p value ?_
      rw [← hfile]
      exact hp
    | ok u =>
      refine ⟨?_, ?_⟩
      · intro p value hp
        show ∃ c, Function.update held provider (some credential) p = some c ∧ _
        by_cases hpp : p = provider
        · subst hpp
          rw [Function.update_self]
          rcases hsingle with hnone | hsame
          · rw [hnone] at hp
            cases hp
          · obtain rfl := Option.some.inj (hsame.symm.trans hp)
            obtain ⟨-, -, -, -, huncut⟩ := h.keyring p credential.value hsame
            exact ⟨credential, rfl, rfl, htrim, huncut⟩
        · rw [Function.update_of_ne hpp]
          exact h.keyring p value hp
      · intro p value hp
        have hfound := FileSecretStore.foundIn_store hstore htrim p
        rw [show foundIn _ p = some value from hp] at hfound
        show ∃ c, Function.update held provider (some credential) p = some c ∧ _
        by_cases hpp : p = provider
        · subst hpp
          rw [if_pos rfl] at hfound
          rw [Function.update_self]
          exact ⟨credential, rfl, (Option.some.inj hfound).symm⟩
        · rw [if_neg (Ne.symm hpp)] at hfound
          rw [Function.update_of_ne hpp]
          exact h.file p value hfound.symm

/-- a load without an override and with an expired cache -/
theorem Agrees.load {held : Provider → Option Credential} (h : Agrees s held) {now : Nat}
    (hexpired : s.fresh provider now = none) (tool : Nat → ToolOutcome) (disk : Disk) :
    Agrees (Credentials.load s provider none now tool disk).2 held ∧
      ∀ c, (Credentials.load s provider none now tool disk).1.toOption = some c →
        held provider = some c := by
  unfold Credentials.load
  dsimp only
  rw [hexpired]
  dsimp only
  cases hload : loadUncached s provider tool disk with
  | ok c =>
    refine ⟨⟨h.keyring, h.file⟩, ?_⟩
    intro c' hc'
    obtain rfl : c = c' := Option.some.inj hc'
    exact h.loaded hload
  | error e =>
    refine ⟨⟨h.keyring, h.file⟩, ?_⟩
    intro c' hc'
    cases hc'

/-! ## runs -/

/-- `ReadsWrites`, where `held` was acknowledged before the first reply -/
def ReadsFrom (held : Provider → Option Credential) (replies : List Reply) : Prop :=
  ∀ before after provider credential,
    replies = before ++ .loaded provider (some credential) :: after →
      acknowledged provider (held provider) before = some credential

theorem acknowledged_cons (provider : Provider) (held : Provider → Option Credential) (reply : Reply)
    (replies : List Reply) :
    acknowledged provider (held provider) (reply :: replies) =
      acknowledged provider (heldAfter held reply provider) replies := by
  cases reply with
  | replaced p c ack =>
    cases ack with
    | true =>
      show acknowledged provider (if p = provider then some c else held provider) replies = _
      unfold heldAfter Function.update
      by_cases hp : p = provider
      · subst hp
        simp
      · simp [hp, Ne.symm hp]
    | false => rfl
  | loaded p result => rfl

theorem ReadsFrom.cons {held : Provider → Option Credential} {reply : Reply} {replies : List Reply}
    (hreply : ∀ p c, reply = .loaded p (some c) → held p = some c)
    (hrest : ReadsFrom (heldAfter held reply) replies) : ReadsFrom held (reply :: replies) := by
  intro before after p c heq
  cases before with
  | nil =>
    obtain ⟨rfl, -⟩ := List.cons.inj heq
    exact hreply p c rfl
  | cons x before =>
    obtain ⟨rfl, hreplies⟩ := List.cons.inj heq
    rw [acknowledged_cons]
    exact hrest before after p c hreplies

theorem Agrees.run {held : Provider → Option Credential} (h : Agrees s held) (calls : List Call)
    (hall : s.Along (fun s call => Plain s call ∧ Single s call) calls) :
    ReadsFrom held (s.run calls) := by
  induction calls generalizing s held with
  | nil =>
    intro before after p c heq
    simp [Stores.run] at heq
  | cons call calls ih =>
    obtain ⟨⟨hplain, hsingle⟩, hrest⟩ := hall
    cases call with
    | replace provider credential tool disk =>
      have hnext := h.replace hplain hsingle
      refine ReadsFrom.cons ?_ (ih hnext hrest)
      intro p c heq
      cases heq
    | load provider environment now tool disk =>
      obtain ⟨rfl, hexpired⟩ := hplain
      obtain ⟨hnext, hloaded⟩ := h.load hexpired tool disk
      refine ReadsFrom.cons ?_ (ih hnext hrest)
      intro p c heq
      obtain ⟨rfl, hresult⟩ := Reply.loaded.inj heq
      exact hloaded c hresult

theorem agrees_bare (h : s.Bare) : Agrees s fun _ => none where
  keyring := by
    intro p value hp
    rw [h.keyring p] at hp
    cases hp
  file := by
    intro p value hp
    rw [h.file p] at hp
    cases hp

end

/-- **calls that leave no second, different copy of a credential read their writes** -/
theorem run_readsWrites (s : Stores) (hbare : s.Bare) (calls : List Call)
    (h : s.Along (fun s call => Plain s call ∧ Single s call) calls) : ReadsWrites (s.run calls) := by
  intro before after p c heq
  exact (agrees_bare hbare).run calls h before after p c heq

/-! ## two runs -/

def Stores.empty : Stores := { keyring := fun _ => none, file := none, cache := fun _ => none }

theorem bare_empty : Stores.empty.Bare := ⟨fun _ => rfl, fun _ => rfl⟩

def firstKey : Credential := ⟨"gsk-1".toList, by decide, by decide⟩
def secondKey : Credential := ⟨"gsk-2".toList, by decide, by decide⟩

/-- the keyring is available, or locked -/
def available : Nat → ToolOutcome := fun _ => .served
def lockedUp : Nat → ToolOutcome := fun _ => .refused "locked".toList

/-- a key stored while the keyring was locked is migrated to it -/
def migration : List Call :=
  [.replace .groq firstKey lockedUp .sound, .load .groq none 0 lockedUp .sound,
   .replace .groq secondKey available .sound, .load .groq none credentialCacheTtl available .sound]

theorem run_readsWrites_migration :
    Stores.empty.Along (fun s call => Plain s call ∧ Single s call) migration ∧
      ReadsWrites (Stores.empty.run migration) ∧
      Reply.loaded .groq (some secondKey) ∈ Stores.empty.run migration := by
  have h : Stores.empty.Along (fun s call => Plain s call ∧ Single s call) migration := by
    decide +kernel
  exact ⟨h, run_readsWrites Stores.empty bare_empty migration h, by decide +kernel⟩

/-- a key is rotated while the keyring, which holds the first one, is locked -/
def staleKeyring : List Call :=
  [.replace .groq firstKey available .sound, .replace .groq secondKey lockedUp .sound,
   .load .groq none 0 available .sound]

/-- both replaces are acknowledged, and the first key is served -/
theorem staleKeyring_served :
    Stores.empty.Along Plain staleKeyring ∧ ¬ ReadsWrites (Stores.empty.run staleKeyring) := by
  refine ⟨by decide +kernel, ?_⟩
  intro h
  have hrun : Stores.empty.run staleKeyring =
      [.replaced .groq firstKey true, .replaced .groq secondKey true] ++
        .loaded .groq (some firstKey) :: [] := by
    decide +kernel
  have hack := h _ _ _ _ hrun
  exact absurd hack (by decide)

end Voisu.Credentials
