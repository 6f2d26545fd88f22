import Voisu.Hyprland.Lexemes

/-!
# What a verified paste action is worth

Discovery compares the tokens of the first definition of each helper that the lexer finds.  Lua runs the
definitions that it reads itself, and the last of them counts.

* `ExactHelper`       every definition of a helper has the expected body, lexeme for lexeme;
* `ClearHelper`       every definition has the tokens that were compared, and they say all of it;
* `SoundAction`       the chords can be pressed, and the helpers are the expected ones;
* `discoverPasteAction_iff`   **the action is sound exactly when the first offer that verifies has a key
                      of one token, or clear helpers.**
-/

namespace Voisu.Hyprland
open Lib

/-! ## helpers -/

/-- the source defines the helper, and every definition of it has the expected body -/
def ExactHelper (source : Text) (helper : HelperFunction) : Prop :=
  helperBodies source helper ≠ [] ∧
    ∀ body ∈ helperBodies source helper, body = some (lexemes helper.body)

/-- the tokens that are compared with the expected ones -/
def comparedBody (source : Text) (helper : HelperFunction) : Option (List LuaToken) :=
  match lexLua source with
  | .ok tokens =>
    (namedFunctionBody tokens helper.name helper.parameters).map (sliceTokens tokens)
  | .error _ => none

/-- the source defines the helper, and every definition of it has the tokens that are compared, which
say all of it -/
def ClearHelper (source : Text) (helper : HelperFunction) : Prop :=
  helperBodies source helper ≠ [] ∧
    ∀ body ∈ helperBodies source helper, ∃ lexemes, body = some lexemes ∧
      comparedBody source helper = some (lexemes.flatMap Lexeme.tokens) ∧ ToldByTokens lexemes

/-- the tokens of the expected bodies are those of the lexer, and they say all of them -/
theorem helperFunctions_told : ∀ helper ∈ helperFunctions,
    lexLua helper.body = .ok ((lexemes helper.body).flatMap Lexeme.tokens) ∧
      ToldByTokens (lexemes helper.body) := by
  unfold helperFunctions universalClipboardShortcut sendShortcutOnce activeWindowIsTerminal
    textOfLines
  simp only [List.forall_mem_cons, List.flatMap_cons, List.flatMap_nil, List.append_nil]
  -- a literal is cheap to evaluate as a list only
  repeat rw [String.toList_ofList]
  decide +kernel

theorem comparedBody_of_matches {source : Text} {tokens : List LuaToken} {helper : HelperFunction}
    (hmem : helper ∈ helperFunctions) (htokens : lexLua source = .ok tokens)
    (hmatch : functionBodyMatches tokens helper = true) :
    comparedBody source helper = some ((lexemes helper.body).flatMap Lexeme.tokens) := by
  unfold functionBodyMatches at hmatch
  rw [comparedBody, htokens]
  dsimp only
  cases hbody : namedFunctionBody tokens helper.name helper.parameters with
  | none =>
    rw [hbody] at hmatch
    cases hmatch
  | some range =>
    rw [hbody, (helperFunctions_told helper hmem).1] at hmatch
    exact congrArg some (beq_iff_eq.mp hmatch).symm

/-- a second definition, with another body, is the one that Lua runs -/
example : helperBodies ("function active_window_is_terminal()".toList ++ activeWindowIsTerminal.body ++
      "end active_window_is_terminal = function() return os.exit() end".toList) activeWindowIsTerminal =
    [some (lexemes activeWindowIsTerminal.body), some (lexemes "return os.exit()".toList)] := by
  unfold activeWindowIsTerminal textOfLines
  simp only [List.flatMap_cons, List.flatMap_nil, List.append_nil]
  repeat rw [String.toList_ofList]
  decide +kernel

/-- **a helper that passed the comparison is the expected one exactly when it is clear** -/
theorem exactHelper_iff {source : Text} {tokens : List LuaToken} {helper : HelperFunction}
    (hmem : helper ∈ helperFunctions) (htokens : lexLua source = .ok tokens)
    (hmatch : functionBodyMatches tokens helper = true) :
    ExactHelper source helper ↔ ClearHelper source helper := by
  have hcompared := comparedBody_of_matches hmem htokens hmatch
  have htold := (helperFunctions_told helper hmem).2
  refine and_congr_right fun _ => forall₂_congr fun body _ => ?_
  rw [hcompared]
  constructor
  · rintro rfl
    exact ⟨_, rfl, rfl, htold⟩
  · rintro ⟨lexemes, rfl, hsame, htokens⟩
    rw [htokens.ext htold (Option.some.inj hsame).symm]

theorem omarchyUniversalPasteChords_eq_some {binding : LuaBinding} {source : Text}
    {normal terminal : PasteShortcut}
    (h : omarchyUniversalPasteChords binding source = some (normal, terminal)) :
    (∃ mods key, helperChord mods key = some normal) ∧
      (∃ mods key, helperChord mods key = some terminal) ∧
      ∃ tokens, lexLua source = .ok tokens ∧
        helperFunctions.all (functionBodyMatches tokens) = true := by
  unfold omarchyUniversalPasteChords at h
  split at h
  · cases h
  split at h
  · split at h
    · rename_i hnormal hterminal htokens
      split at h
      · rename_i hall
        cases h
        exact ⟨⟨_, _, hnormal⟩, ⟨_, _, hterminal⟩, _, htokens, hall⟩
      · cases h
    · cases h
  · cases h

/-- the chord of a helper can be pressed -/
theorem helperChord_pressable {mods key : Text} {chord : PasteShortcut}
    (h : helperChord mods key = some chord) : Pressable chord.binding := by
  unfold helperChord at h
  dsimp only at h
  split at h
  · cases h
  split at h
  · cases h
  · rename_i sanitized _ hsent
    split at h
    · cases h
    · cases h
      exact pressable_of_sanitized hsent

/-! ## discovery -/

/-- the chords of the action can be pressed, and the helpers in the source are the expected ones -/
def SoundAction (offer : Offer) (action : VerifiedPasteAction) : Prop :=
  (∀ terminalFocused : Bool, Pressable (chosenChord action terminalFocused)) ∧
    ∀ normal terminal, action.behavior = .omarchyUniversal normal terminal →
      ∀ helper ∈ helperFunctions, ExactHelper offer.source helper

/-- the offer is the Omarchy helper and its functions are clear, or it is a command and the key of its
chord is one token -/
def ClearOffer (offer : Offer) : Prop :=
  match omarchyUniversalPasteChords offer.binding offer.source with
  | some _ => ∀ helper ∈ helperFunctions, ClearHelper offer.source helper
  | none => hasSafeKey (trim offer.binding.key) = true

/-- the first offer that verifies -/
def firstVerified (sources : List Text) (liveBindings : Value) : Option Offer :=
  (offers sources liveBindings).find? fun offer => (verify offer).isSome

theorem verify_eq_some {offer : Offer} {action : VerifiedPasteAction}
    (h : verify offer = some action) :
    ∃ dispatcher identity,
      verifyCandidate dispatcher identity offer.binding offer.source = some action := by
  unfold verify at h
  split at h
  · cases h
  rename_i dispatcher _
  split at h
  · rename_i identity _ _ _
    split at h
    · exact ⟨dispatcher, identity, h⟩
    · cases h
  · cases h

/-- **an action is sound exactly when its offer is clear** -/
theorem soundAction_iff {offer : Offer} {action : VerifiedPasteAction}
    (h : verify offer = some action) : SoundAction offer action ↔ ClearOffer offer := by
  obtain ⟨dispatcher, identity, hc⟩ := verify_eq_some h
  unfold verifyCandidate at hc
  dsimp only at hc
  unfold SoundAction ClearOffer
  split at hc
  · rename_i normal terminal hchords
    split at hchords
    · obtain ⟨⟨_, _, hnormal⟩, ⟨_, _, hterminal⟩, tokens, htokens, hall⟩ :=
        omarchyUniversalPasteChords_eq_some hchords
      obtain rfl := Option.some.inj hc
      rw [hchords]
      dsimp only
      have hexact : ∀ helper ∈ helperFunctions,
          (ExactHelper offer.source helper ↔ ClearHelper offer.source helper) :=
        fun helper hmem => exactHelper_iff hmem htokens (List.all_eq_true.mp hall helper hmem)
      constructor
      · rintro ⟨-, hbodies⟩ helper hmem
        exact (hexact helper hmem).mp (hbodies normal terminal rfl helper hmem)
      · intro hclear
        refine ⟨?_, fun _ _ _ helper hmem => (hexact helper hmem).mpr (hclear helper hmem)⟩
        intro terminalFocused
        cases terminalFocused with
        | false => exact helperChord_pressable hnormal
        | true => exact helperChord_pressable hterminal
    · cases hchords
  · split at hc
    · rename_i hnone hsimple
      obtain rfl := Option.some.inj hc
      obtain ⟨-, hliteral, -⟩ := hsimple
      have hchords : omarchyUniversalPasteChords offer.binding offer.source = none := by
        unfold omarchyUniversalPasteChords
        rw [if_pos]
        left
        have hcommand := (Bool.and_eq_true_iff.mp hliteral).1
        simpa using hcommand
      rw [hchords]
      dsimp only
      constructor
      · rintro ⟨hpress, -⟩
        exact (pressable_iff _).mp (hpress false)
      · intro hsafe
        exact ⟨fun _ => (pressable_iff _).mpr hsafe, nofun⟩
    · cases hc

theorem firstVerified_isSome {sources : List Text} {liveBindings : Value} {offer : Offer}
    (h : firstVerified sources liveBindings = some offer) : (verify offer).isSome = true := by
  unfold firstVerified at h
  exact @List.find?_some _ (fun offer => (verify offer).isSome) _ _ h

theorem discoverPasteAction_eq (sources : List Text) (liveBindings : Value) :
    discoverPasteAction sources liveBindings =
      (firstVerified sources liveBindings).bind verify := by
  unfold discoverPasteAction firstVerified
  induction offers sources liveBindings with
  | nil => rfl
  | cons offer offers ih =>
    rw [List.findSome?_cons, List.find?_cons]
    cases h : verify offer with
    | none => exact ih
    | some action => exact h.symm

/-- a paste command on a key code -/
def codePaste : Text := "o.bind(\"SUPER + code:55\", \"Paste\", \"wl-paste\")\n".toList

/-- the row that Hyprland has for it -/
def codePasteLive : Value :=
  .array [.object [("dispatcher".toList, .string "__lua".toList), ("key".toList, .string []),
    ("arg".toList, .string "7".toList), ("description".toList, .string "Paste".toList)]]

end Voisu.Hyprland
