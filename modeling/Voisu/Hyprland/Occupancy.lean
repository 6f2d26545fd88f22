import Voisu.Hyprland.Chunks

/-!
# Nothing hides a bound key

A key that a call in the code binds has to be in the list of bindings, or Voisu installs its own binding
over it.

* `callKeys`         the keys of the `o.bind` calls among tokens;
* `passedCalls`      the calls that the loop passes without reading them;
* `Exposed`          both readers agree, and the list has the keys of the calls in the code;
* `Clear`            every comment opens alike, no call is inside a passed call or split by a marker;
* `exposed_iff`      the two are the same, and a plan over clear sources installs a free key;
* `hiddenBinding`    a comment that hides a binding.
-/

namespace Voisu.Hyprland
open Lib

/-! ## calls -/

/-- the key of the call that the tokens begin with, if its first argument is a string -/
def callKey (tokens : List LuaToken) : Option Text :=
  match callArguments tokens with
  | some (.string key :: _) => some key
  | _ => none

/-- the keys of the `o.bind` calls whose first argument is a string -/
def callKeys : List LuaToken → List Text
  | [] => []
  | token :: tokens => (callKey (token :: tokens)).toList ++ callKeys tokens

def occupying (keys : List Text) : List Text := keys.filter occupiesPreferredTriggerKey

/-- the calls that the loop passes without reading them, each with the tokens behind it -/
def passedCalls (managed : Bool) : List LuaToken → List (List LuaToken × List LuaToken)
  | [] => []
  | token :: tokens =>
    match _hcall : callArguments (token :: tokens) with
    | none => passedCalls managed tokens
    | some arguments =>
      match _hafter : afterCall managed arguments with
      | .error _ => []
      | .ok (binding, rest) =>
        (if binding.isNone then [(token :: tokens, rest)] else []) ++ passedCalls managed rest
termination_by tokens => tokens.length
decreasing_by
  · exact Nat.lt_succ_self _
  · have := (afterCall_suffix _hafter).length_le
    rw [callArguments_eq_some _hcall]
    simp only [List.length_cons]
    omega

/-- no call that is passed holds a call that binds a preferred key -/
def PassesNone (managed : Bool) (tokens : List LuaToken) : Prop :=
  ∀ call ∈ passedCalls managed tokens, occupying (callKeys call.1) = occupying (callKeys call.2)

theorem callKeys_suffix {tokens tokens' : List LuaToken} (h : tokens <:+ tokens') :
    callKeys tokens <:+ callKeys tokens' := by
  obtain ⟨x, rfl⟩ := h
  induction x with
  | nil => exact List.suffix_rfl
  | cons token x ih =>
    rw [List.cons_append, callKeys]
    exact ih.trans (List.suffix_append _ _)

/-- the tokens of a call hold no other call -/
theorem callKeys_call {tokens arguments : List LuaToken} (h : callArguments tokens = some arguments) :
    callKeys tokens = (callKey tokens).toList ++ callKeys arguments := by
  rw [callArguments_eq_some h]
  rfl

example : occupying ["XF86AudioMute".toList] = [] := by decide +kernel

theorem callKey_some {tokens arguments : List LuaToken} {key : Text}
    (h : callArguments tokens = some (.string key :: arguments)) : callKey tokens = some key := by
  unfold callKey
  rw [h]

theorem callKey_none {tokens : List LuaToken} (h : callArguments tokens = none) :
    callKey tokens = none := by
  unfold callKey
  rw [h]

section
variable {managed : Bool} {arguments rest : List LuaToken}

/-- a binding that is read has the key of its call -/
theorem parseBindArguments_some {binding : LuaBinding}
    (h : parseBindArguments managed arguments = .ok (some binding)) :
    ∃ more, arguments = .string binding.key :: more := by
  unfold parseBindArguments at h
  split at h
  · rename_i key tokens
    have hkey : binding.key = key := by
      unfold parseDescription at h
      split at h
      · unfold parseBody at h
        split at h
        · cases h
        · cases h
          rfl
        · cases h
      · split at h <;> cases h
      · split at h <;> cases h
      · cases h
    rw [hkey]
    exact ⟨_, rfl⟩
  · split at h <;> cases h
  · cases h
  · cases h

/-- a call without a binding has a key that is not preferred -/
theorem parseBindArguments_none (h : parseBindArguments managed arguments = .ok none) :
    ∃ key more, arguments = .string key :: more ∧ occupiesPreferredTriggerKey key = false := by
  unfold parseBindArguments at h
  split at h
  · rename_i key tokens
    refine ⟨key, _, rfl, ?_⟩
    unfold parseDescription at h
    split at h
    · unfold parseBody at h
      split at h <;> cases h
    · split at h
      · cases h
      · rename_i hkey
        exact Bool.eq_false_iff.mpr hkey
    · split at h
      · cases h
      · rename_i hkey
        exact Bool.eq_false_iff.mpr hkey
    · cases h
  · rename_i key more _
    split at h
    · cases h
    · rename_i hkey
      exact ⟨key, _, rfl, Bool.eq_false_iff.mpr hkey⟩
  · cases h
  · cases h

theorem afterCall_some {binding : LuaBinding} (h : afterCall managed arguments = .ok (some binding, rest)) :
    rest = arguments ∧ ∃ more, arguments = .string binding.key :: more := by
  unfold afterCall at h
  split at h
  · rename_i hparse
    cases h
    exact ⟨rfl, parseBindArguments_some hparse⟩
  · cases hm : matchingParenthesis (.symbol '(' :: arguments) <;> rw [hm] at h <;> cases h
  · split at h
    · split at h
      · cases h
      · rename_i key more _ _
        cases hm : matchingParenthesis (.symbol '(' :: .string key :: more) <;> rw [hm] at h <;> cases h
    · cases h

theorem afterCall_none (h : afterCall managed arguments = .ok (none, rest)) :
    ∃ key more, arguments = .string key :: more ∧ occupiesPreferredTriggerKey key = false := by
  unfold afterCall at h
  split at h
  · cases h
  · rename_i hparse
    exact parseBindArguments_none hparse
  · split at h
    · rename_i key more _
      split at h
      · cases h
      · rename_i hkey
        exact ⟨key, more, rfl, Bool.eq_false_iff.mpr hkey⟩
    · cases h

end

/-! ## the bindings of a chunk -/

theorem passedCalls_none {managed : Bool} {token : LuaToken} {tokens : List LuaToken}
    (h : callArguments (token :: tokens) = none) :
    passedCalls managed (token :: tokens) = passedCalls managed tokens := by
  rw [passedCalls]
  split
  · rfl
  · rename_i hsome
    rw [h] at hsome
    cases hsome

theorem passedCalls_some {managed : Bool} {token : LuaToken} {tokens arguments rest : List LuaToken}
    {binding : Option LuaBinding} (h : callArguments (token :: tokens) = some arguments)
    (hafter : afterCall managed arguments = .ok (binding, rest)) :
    passedCalls managed (token :: tokens) =
      (if binding.isNone then [(token :: tokens, rest)] else []) ++ passedCalls managed rest := by
  rw [passedCalls]
  split
  · rename_i hnone
    rw [h] at hnone
    cases hnone
  · rename_i hsome
    rw [h] at hsome
    cases hsome
    split
    · rename_i herror
      rw [hafter] at herror
      cases herror
    · rename_i hok
      rw [hafter] at hok
      cases hok
      rfl

/-- the bindings of tokens have keys of their calls, and all the preferred ones exactly when no passed
call holds one -/
theorem scanCalls_keys {managed : Bool} {tokens : List LuaToken} {bindings : List LuaBinding} :
    scanCalls managed tokens = .ok bindings →
    (bindings.map LuaBinding.key).Sublist (callKeys tokens) ∧
      (occupying (bindings.map LuaBinding.key) = occupying (callKeys tokens) ↔
        PassesNone managed tokens) := by
  fun_induction scanCalls managed tokens generalizing bindings with
  | case1 =>
    intro h
    cases h
    refine ⟨.slnil, fun _ call hcall => ?_, fun _ => rfl⟩
    rw [passedCalls] at hcall
    cases hcall
  | case2 token tokens hcall ih =>
    intro h
    obtain ⟨hsub, hiff⟩ := ih h
    unfold PassesNone
    rw [callKeys, callKey_none hcall, passedCalls_none hcall]
    exact ⟨hsub, hiff⟩
  | case3 => exact nofun
  | case4 token tokens arguments hcall binding rest hafter found hfound ih =>
    intro h
    cases h
    obtain ⟨hsub, hiff⟩ := ih hfound
    have hkeys := callKeys_call hcall
    unfold PassesNone
    rw [passedCalls_some hcall hafter]
    cases binding with
    | some binding =>
      obtain ⟨rfl, more, hmore⟩ := afterCall_some hafter
      rw [hmore] at hcall
      rw [hkeys, callKey_some hcall]
      refine ⟨hsub.cons_cons _, ?_⟩
      show occupying ([binding.key] ++ found.map LuaBinding.key) =
        occupying ([binding.key] ++ callKeys rest) ↔ _
      unfold occupying
      rw [List.filter_append, List.filter_append, List.append_cancel_left_eq]
      exact hiff
    | none =>
      obtain ⟨key, more, hmore, hkey⟩ := afterCall_none hafter
      have hsuffix := callKeys_suffix (afterCall_suffix hafter)
      have hsub' : (callKeys rest).Sublist (callKeys (token :: tokens)) := by
        rw [hkeys]
        exact hsuffix.sublist.trans (List.sublist_append_right _ _)
      refine ⟨hsub.trans hsub', ?_⟩
      rw [List.forall_mem_append]
      show _ ↔ (∀ call ∈ [(token :: tokens, rest)], _) ∧ PassesNone managed rest
      rw [List.forall_mem_singleton, ← hiff]
      refine ⟨fun heq => ?_, fun ⟨hcall, hrest⟩ => hrest.trans hcall.symm⟩
      -- the keys found lie between those behind the call and those from the call on
      have h1 : (occupying (found.map LuaBinding.key)).Sublist (occupying (callKeys rest)) := hsub.filter _
      have h2 : (occupying (callKeys rest)).Sublist (occupying (callKeys (token :: tokens))) := hsub'.filter _
      have h3 : occupying (callKeys rest) = occupying (found.map LuaBinding.key) :=
        (h1.eq_of_length_le (heq ▸ h2.length_le)).symm
      exact ⟨heq.symm.trans h3.symm, h3.symm⟩
  | case5 => exact nofun

/-! ## the bindings of a source -/

/-- two lists between which a third lies are the same exactly when all three are -/
theorem sublist_between {α : Type} {a b c : List α} (hab : a.Sublist b) (hbc : b.Sublist c) :
    a = c ↔ a = b ∧ b = c := by
  refine ⟨?_, fun h => h.1.trans h.2⟩
  rintro rfl
  have hb := hab.eq_of_length_le hbc.length_le
  exact ⟨hb, hb.symm⟩

/-- two lists in parts of which each is below the other's -/
theorem append_eq_of_sublist {α : Type} {a b c d : List α} (hac : a.Sublist c) (hbd : b.Sublist d) :
    a ++ b = c ++ d ↔ a = c ∧ b = d := by
  refine ⟨fun h => ?_, fun h => by rw [h.1, h.2]⟩
  have hlen := congrArg List.length h
  rw [List.length_append, List.length_append] at hlen
  have h1 := hac.length_le
  have h2 := hbd.length_le
  exact ⟨hac.eq_of_length_le (by omega), hbd.eq_of_length_le (by omega)⟩

def keys (bindings : List LuaBinding) : List Text := bindings.map LuaBinding.key

/-- the chunks with the tokens that the lexer reads in them -/
def LexedAs (chunks : List (Text × Bool)) (tokens : List (List LuaToken)) : Prop :=
  List.Forall₂ (fun c ts => lexLua c.1 = .ok ts) chunks tokens

theorem parseChunks_lexed {chunks : List (Text × Bool)} {bindings : List LuaBinding}
    (h : parseChunks chunks = .ok bindings) : ∃ tokens, LexedAs chunks tokens := by
  induction chunks generalizing bindings with
  | nil => exact ⟨[], .nil⟩
  | cons c chunks ih =>
    obtain ⟨chunk, managed⟩ := c
    rw [parseChunks] at h
    split at h
    · cases h
    · rename_i hchunk
      split at h
      · rename_i hrest
        obtain ⟨tokens, htokens⟩ := ih hrest
        unfold parseLuaChunk at hchunk
        split at hchunk
        · rename_i ts hlex
          exact ⟨ts :: tokens, .cons hlex htokens⟩
        · cases hchunk
      · cases h

theorem parseChunks_keys {chunks : List (Text × Bool)} {tokens : List (List LuaToken)}
    {bindings : List LuaBinding} (hlexed : LexedAs chunks tokens)
    (h : parseChunks chunks = .ok bindings) :
    (keys bindings).Sublist (tokens.flatMap callKeys) ∧
      (occupying (keys bindings) = occupying (tokens.flatMap callKeys) ↔
        ∀ c ∈ chunks, ∀ ts, lexLua c.1 = .ok ts → PassesNone c.2 ts) := by
  induction hlexed generalizing bindings with
  | nil =>
    cases h
    exact ⟨.slnil, fun _ => nofun, fun _ => rfl⟩
  | @cons c ts chunks tokens hts _ ih =>
    obtain ⟨chunk, managed⟩ := c
    rw [parseChunks] at h
    split at h
    · cases h
    · rename_i found hchunk
      split at h
      · rename_i rest hrest
        cases h
        have hscan : scanCalls managed ts = .ok found := by
          unfold parseLuaChunk at hchunk
          rw [hts] at hchunk
          exact hchunk
        obtain ⟨hsub, hiff⟩ := scanCalls_keys hscan
        obtain ⟨hsub', hiff'⟩ := ih hrest
        unfold keys at hsub' ⊢
        rw [List.map_append, List.flatMap_cons]
        refine ⟨hsub.append hsub', ?_⟩
        have happend := append_eq_of_sublist (hsub.filter occupiesPreferredTriggerKey)
          (hsub'.filter occupiesPreferredTriggerKey)
        unfold occupying
        rw [List.filter_append, List.filter_append, happend, List.forall_mem_cons]
        refine and_congr (hiff.trans ⟨fun hp ts' hts' => ?_, fun hp => hp ts hts⟩) hiff'
        rw [hts] at hts'
        cases hts'
        exact hp
      · cases h

theorem callKey_append {tokens : List LuaToken} {key : Text} (h : callKey tokens = some key)
    (more : List LuaToken) : callKey (tokens ++ more) = some key := by
  unfold callKey at h
  split at h
  · rename_i arguments hcall
    cases h
    rw [callArguments_eq_some hcall]
    rfl
  · cases h

theorem callKeys_append (tokens more : List LuaToken) :
    (callKeys tokens ++ callKeys more).Sublist (callKeys (tokens ++ more)) := by
  induction tokens with
  | nil => exact .refl _
  | cons token tokens ih =>
    rw [callKeys, List.append_assoc, List.cons_append, callKeys]
    refine List.Sublist.append ?_ ih
    cases hkey : callKey (token :: tokens) with
    | none => exact List.nil_sublist _
    | some key =>
      rw [← List.cons_append, callKey_append hkey]

theorem callKeys_flatten (tokens : List (List LuaToken)) :
    (tokens.flatMap callKeys).Sublist (callKeys tokens.flatten) := by
  induction tokens with
  | nil => exact .slnil
  | cons ts tokens ih =>
    rw [List.flatMap_cons, List.flatten_cons]
    exact ((List.Sublist.refl _).append ih).trans (callKeys_append _ _)

/-- both readers agree on every chunk, and the bindings have the keys of the calls in the code: none
from elsewhere, and every preferred one -/
def Exposed (source : Text) (bindings : List LuaBinding) : Prop :=
  (∀ chunks, splitLuaChunks source = .ok chunks → ∀ c ∈ chunks, ∀ pieces,
    lexPieces .lexed c.1 = .ok pieces → lexedMarks pieces = scannedMarks c.1) ∧
  ∃ tokens, readTokens .scanned source = .ok tokens ∧ (keys bindings).Sublist (callKeys tokens) ∧
    occupying (keys bindings) = occupying (callKeys tokens)

/-- every comment opens alike, no passed call holds a call that binds a preferred key, and no marker
stands within one -/
def Clear (source : Text) : Prop :=
  ∀ chunks, splitLuaChunks source = .ok chunks →
    (∀ c ∈ chunks, ∀ comment ∈ commentsFrom .code c.1, opensAlike comment = true) ∧
    (∀ c ∈ chunks, ∀ ts, lexLua c.1 = .ok ts → PassesNone c.2 ts) ∧
    ∀ tokens, LexedAs chunks tokens →
      occupying (tokens.flatMap callKeys) = occupying (callKeys tokens.flatten)

theorem lexLua_pieces {chunk : Text} {tokens : List LuaToken} (h : lexLua chunk = .ok tokens) :
    ∃ pieces, lexPieces .lexed chunk = .ok pieces ∧ tokensOf pieces = tokens := by
  unfold lexLua readTokens at h
  split at h
  · rename_i pieces hpieces
    cases h
    exact ⟨pieces, hpieces, rfl⟩
  · cases h

theorem readTokens_alike {chunk : Text} {tokens : List LuaToken} (h : lexLua chunk = .ok tokens)
    (halike : ∀ comment ∈ commentsFrom .code chunk, opensAlike comment = true) :
    readTokens .scanned chunk = .ok tokens := by
  obtain ⟨pieces, hpieces, rfl⟩ := lexLua_pieces h
  unfold readTokens
  rw [lexPieces_alike hpieces halike]

section
variable {source : Text} {chunks : List (Text × Bool)} {tokens : List (List LuaToken)}

theorem lexed_of_mem (h : LexedAs chunks tokens) {c : Text × Bool} (hc : c ∈ chunks) :
    ∃ ts, lexLua c.1 = .ok ts := by
  induction h with
  | nil => cases hc
  | cons hts _ ih =>
    rcases List.mem_cons.mp hc with rfl | hc
    · exact ⟨_, hts⟩
    · exact ih hc

theorem LexedAs.unique (h : LexedAs chunks tokens) {tokens' : List (List LuaToken)}
    (h' : LexedAs chunks tokens') : tokens = tokens' := by
  induction h generalizing tokens' with
  | nil =>
    cases h'
    rfl
  | cons hts _ ih =>
    cases h' with
    | cons hts' hrest =>
      rw [hts] at hts'
      cases hts'
      rw [ih hrest]

theorem source_tokens (hsplit : splitLuaChunks source = .ok chunks) (hlexed : LexedAs chunks tokens)
    (halike : ∀ c ∈ chunks, ∀ comment ∈ commentsFrom .code c.1, opensAlike comment = true) :
    readTokens .scanned source = .ok tokens.flatten := by
  have hnil : '\n' ∉ ([] : Text) := nofun
  obtain ⟨hlines, hflatten⟩ := splitInclusiveFrom_lines hnil source
  have hread : List.Forall₂ (fun c ts => readTokens .scanned c.1 = .ok ts) chunks tokens := by
    clear hsplit
    induction hlexed with
    | nil => exact .nil
    | cons hts _ ih =>
      refine .cons (readTokens_alike hts (halike _ List.mem_cons_self)) ?_
      exact ih fun c hc => halike c (List.mem_cons_of_mem _ hc)
  have htokens := chunks_tokens hlines (fun _ => .inl rfl) hsplit hread
  rw [List.nil_append, hflatten, List.nil_append] at htokens
  exact htokens

end

theorem exposed_of_parse {source : Text} {bindings : List LuaBinding}
    (h : parseLuaBindings source = .ok bindings) : Exposed source bindings ↔ Clear source := by
  unfold parseLuaBindings at h
  split at h
  · rename_i chunks hsplit
    obtain ⟨tokens, hlexed⟩ := parseChunks_lexed h
    obtain ⟨hsub, hiff⟩ := parseChunks_keys hlexed h
    have hsub' := callKeys_flatten tokens
    have hbetween := sublist_between (hsub.filter occupiesPreferredTriggerKey)
      (hsub'.filter occupiesPreferredTriggerKey)
    refine ⟨?_, ?_⟩
    · rintro ⟨hmarks, read, hread, -, hkeys⟩ chunks' hsplit'
      rw [hsplit] at hsplit'
      cases hsplit'
      have halike : ∀ c ∈ chunks, ∀ comment ∈ commentsFrom .code c.1, opensAlike comment = true := by
        intro c hc
        obtain ⟨ts, hts⟩ := lexed_of_mem hlexed hc
        obtain ⟨pieces, hpieces, -⟩ := lexLua_pieces hts
        exact (marks_eq_iff hpieces).mp (hmarks chunks hsplit c hc pieces hpieces)
      have hsource := source_tokens hsplit hlexed halike
      rw [hsource] at hread
      cases hread
      obtain ⟨h1, h2⟩ := hbetween.mp hkeys
      refine ⟨halike, hiff.mp h1, ?_⟩
      intro tokens' hlexed'
      rw [hlexed'.unique hlexed]
      exact h2
    · intro hclear
      obtain ⟨halike, hpasses, hmarkers⟩ := hclear chunks hsplit
      refine ⟨?_, tokens.flatten, source_tokens hsplit hlexed halike, hsub.trans hsub', ?_⟩
      · intro chunks' hsplit' c hc pieces hpieces
        rw [hsplit] at hsplit'
        cases hsplit'
        exact (marks_eq_iff hpieces).mpr (halike c hc)
      · exact hbetween.mpr ⟨hiff.mpr hpasses, hmarkers tokens hlexed⟩
  · cases h

/-! ## the plan -/

theorem unmanagedFor_none {bindings : List LuaBinding} {key : TriggerKey}
    (h : unmanagedFor bindings key = none) {b : LuaBinding} (hb : b ∈ bindings)
    (hkey : b.isStandaloneFor key = true) : b.managed = true := by
  have := List.find?_eq_none.mp h b hb
  rw [hkey, Bool.and_true, Bool.not_eq_true', ] at this
  simpa using this

theorem planInstall_install {bindings : List LuaBinding} {prefer : Bool} {key : TriggerKey}
    (h : planInstall bindings prefer = .install key) :
    key ∈ preferredTriggerKeys ∧ unmanagedFor bindings key = none := by
  have hfallback : ∀ {plan : TriggerBindingPlan}, plan = .install key →
      plan = (if (unmanagedFor bindings rightAlt).isNone then .install rightAlt
        else .conflicts (preferredTriggerKeys.filterMap fun candidate =>
          (unmanagedFor bindings candidate).map fun b =>
            { candidate, description := b.description, command := b.command })) →
      key ∈ preferredTriggerKeys ∧ unmanagedFor bindings key = none := by
    intro plan hplan hdef
    rw [hdef] at hplan
    split at hplan
    · rename_i hnone
      cases hplan
      exact ⟨by decide, Option.isNone_iff_eq_none.mp hnone⟩
    · cases hplan
  unfold planInstall at h
  dsimp only at h
  split at h
  · split at h
    · rename_i hnone
      cases h
      exact ⟨by decide, hnone⟩
    · split at h
      · cases h
      · exact hfallback h rfl
  · exact hfallback h rfl

/-- an installed key is on no binding -/
theorem plan_install {bindings : List LuaBinding} {prefer : Bool} {key : TriggerKey}
    (h : planTriggerBindingFromBindings bindings prefer = .install key) :
    key ∈ preferredTriggerKeys ∧ ∀ b ∈ bindings, b.isStandaloneFor key = false := by
  unfold planTriggerBindingFromBindings at h
  split at h
  · cases h
  split at h
  · cases h
  rename_i hmanaged
  obtain ⟨hkey, hnone⟩ := planInstall_install h
  refine ⟨hkey, ?_⟩
  intro b hb
  by_contra hstands
  rw [Bool.not_eq_false] at hstands
  -- the binding would be managed, and the key installed already
  have hm := unmanagedFor_none hnone hb hstands
  have hnot := List.find?_eq_none.mp hmanaged key hkey
  rw [hnone] at hnot
  apply hnot
  rw [Option.isNone_none, Bool.and_true]
  exact List.any_eq_true.mpr ⟨b, hb, by rw [hm, hstands]; rfl⟩

theorem parseSources_mem {sources : List Text} {bindings : List LuaBinding}
    (h : parseSources sources = .ok bindings) {source : Text} (hs : source ∈ sources) :
    ∃ found, parseLuaBindings source = .ok found ∧ ∀ b ∈ found, b ∈ bindings := by
  induction sources generalizing bindings with
  | nil => cases hs
  | cons s sources ih =>
    rw [parseSources] at h
    split at h
    · cases h
    · rename_i found hfound
      split at h
      · rename_i rest hrest
        cases h
        rcases List.mem_cons.mp hs with rfl | hs
        · exact ⟨found, hfound, fun b hb => List.mem_append_left _ hb⟩
        · obtain ⟨found', hfound', hmem⟩ := ih hrest hs
          exact ⟨found', hfound', fun b hb => List.mem_append_right _ (hmem b hb)⟩
      · cases h

theorem plan_free {sources : List Text} {prefer : Bool} {key : TriggerKey}
    (h : planTriggerBindings sources prefer = .install key) {source : Text} (hs : source ∈ sources)
    (hclear : Clear source) : ∃ tokens, readTokens .scanned source = .ok tokens ∧
      ∀ k ∈ callKeys tokens, keyStandsFor k key = false := by
  unfold planTriggerBindings at h
  split at h
  · rename_i bindings hbindings
    obtain ⟨hkey, hfree⟩ := plan_install h
    obtain ⟨found, hfound, hmem⟩ := parseSources_mem hbindings hs
    obtain ⟨-, tokens, htokens, -, hkeys⟩ := (exposed_of_parse hfound).mpr hclear
    refine ⟨tokens, htokens, ?_⟩
    intro k hk
    by_contra hstands
    rw [Bool.not_eq_false] at hstands
    have hoccupies : occupiesPreferredTriggerKey k = true :=
      List.any_eq_true.mpr ⟨key, hkey, hstands⟩
    have hin : k ∈ occupying (keys found) := by
      rw [hkeys]
      exact List.mem_filter.mpr ⟨hk, hoccupies⟩
    obtain ⟨b, hb, rfl⟩ := List.mem_map.mp (List.mem_of_mem_filter hin)
    have := hfree b (hmem b hb)
    rw [show b.isStandaloneFor key = true from hstands] at this
    cases this
  · cases h

/-- **nothing hides a bound key exactly when every comment opens alike and no call is passed over or
split, and then a plan installs a key that no call in the source binds** -/
theorem exposed_iff (source : Text) (bindings : List LuaBinding)
    (h : parseLuaBindings source = .ok bindings) :
    (Exposed source bindings ↔ Clear source) ∧
      ∀ sources prefer key, source ∈ sources → Clear source →
        planTriggerBindings sources prefer = .install key →
        ∃ tokens, readTokens .scanned source = .ok tokens ∧
          ∀ k ∈ callKeys tokens, keyStandsFor k key = false :=
  ⟨exposed_of_parse h, fun _ _ _ hs hclear hplan => plan_free hplan hs hclear⟩

/-! ## a hidden binding -/

/-- a comment in single brackets, a binding of `Caps Lock` and a bracket that closes nothing -/
def hiddenBinding : Text :=
  "--[ my keys\no.bind(\"Caps_Lock\", \"Menu\", \"menu\")\nx = t[u[1]]\n".toList

/-- the lexer takes the comment for a long one, and the key is installed over the binding -/
theorem hiddenBinding_hidden : parseLuaBindings hiddenBinding = .ok [] ∧
    ¬ Exposed hiddenBinding [] ∧ planTriggerBindings [hiddenBinding] true = .install capsLock := by
  refine ⟨by decide +kernel, ?_, by decide +kernel⟩
  rintro ⟨-, tokens, htokens, -, hkeys⟩
  have hcalls : ((readTokens .scanned hiddenBinding).toOption.map
      fun tokens => occupying (callKeys tokens)).getD [] = ["Caps_Lock".toList] := by decide +kernel
  rw [htokens] at hcalls
  rw [show occupying (callKeys tokens) = _ from hcalls] at hkeys
  cases hkeys

/-- the same binding under a comment of one line -/
def plainBinding : Text := "-- my keys\no.bind(\"Caps_Lock\", \"Menu\", \"menu\")\n".toList

theorem plainBinding_clear : Clear plainBinding := by
  have hchunks : splitLuaChunks plainBinding = .ok [(plainBinding, false)] := by decide +kernel
  have hpassed : ((lexLua plainBinding).toOption.map (passedCalls false)).getD [] = [] := by
    decide +kernel
  intro chunks hsplit
  rw [hchunks] at hsplit
  cases hsplit
  refine ⟨?_, ?_, ?_⟩
  · intro c hc
    rw [List.mem_singleton] at hc
    subst hc
    decide +kernel
  · intro c hc ts hts call hcall
    rw [List.mem_singleton] at hc
    subst hc
    rw [hts] at hpassed
    rw [show passedCalls false ts = [] from hpassed] at hcall
    cases hcall
  · intro tokens htokens
    cases htokens with
    | cons hts hrest =>
      cases hrest
      rw [List.flatMap_cons, List.flatMap_nil, List.append_nil, List.flatten_cons, List.flatten_nil,
        List.append_nil]

theorem exposed_iff_plainBinding : ∃ bindings, parseLuaBindings plainBinding = .ok bindings ∧
    keys bindings = ["Caps_Lock".toList] ∧ Exposed plainBinding bindings := by
  have hparse : parseLuaBindings plainBinding = .ok
      [{ key := "Caps_Lock".toList, description := "Menu".toList, command := "menu".toList,
         dispatcher := none, dispatcherArguments := none, managed := false }] := by
    decide +kernel
  exact ⟨_, hparse, rfl, (exposed_iff plainBinding _ hparse).1.mpr plainBinding_clear⟩

end Voisu.Hyprland
