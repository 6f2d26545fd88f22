import Mathlib
import Voisu.Commands.Tiling
import Voisu.Formatting.Letters

/-!
# When the smart formatter keeps every letter and digit

A transcript without commands goes through the passes as it is.  All of them keep its letters and
digits but two, and these lose the foreign characters of the part that they put together again.

* `rebuiltByCount`, `rebuiltByGreeting`   the parts put together again;
* `losesLetters`                          one of them holds a foreign character;
* `smartRendering_letters_iff`            the rendering has the letters and digits of the transcript
                                          just when nothing is lost so.
-/

namespace Voisu.Formatting
open Lib Commands

/-! ## transcripts without commands -/

section
variable {source : Text}

theorem hasCommands_of_none (h : recognised source = []) : hasCommands source = false := by
  simp only [hasCommands, ParsedCommands.hasCommandSpan, (parse_of_none h).1, List.isEmpty_nil,
    Bool.not_true, Bool.false_and]

theorem literalText_of_none (h : recognised source = []) : literalText source = source := by
  unfold literalText
  split
  · rfl
  · exact (parse_of_none h).2

/-- the formatter on a transcript without commands -/
theorem smartFormat_of_none (h : recognised source = []) (late : Nat → Bool) (snapshot : Snapshot) :
    smartFormat late source snapshot =
      if source.isEmpty then some []
      else if isShellCommandLine source then some source
      else if late 1 then none
      else if isAlreadyCorrectIdentity source then some source
      else match tryBulletInference source (buildEditProtection source snapshot) with
        | some bullets => some bullets
        | none => finishFormat late (applyStructure source snapshot) snapshot false := by
  simp only [smartFormat, hasCommands_of_none h, literalText_of_none h, Bool.not_false,
    Bool.true_and, decide_true, if_true] <;> rfl

end

/-! ## the parts put together again -/

/-- the text after the pass for counted enumerations -/
def enumerated (source : Text) (snapshot : Snapshot) : Text :=
  (tryCountedEnumeration source (buildEditProtection source snapshot)).getD source

/-- the part that a counted enumeration puts together again -/
def rebuiltByCount (source : Text) (snapshot : Snapshot) : Text :=
  if (tryCountedEnumeration source (buildEditProtection source snapshot)).isSome then
    countRegion source
  else []

/-- the part that a greeting puts together again -/
def rebuiltByGreeting (text : Text) (snapshot : Snapshot) : Text :=
  if greetsByName text (buildEditProtection text snapshot) then beforeName text else []

theorem enumerated_letters (source : Text) (snapshot : Snapshot) :
    ∃ front, letters source = letters front ++ letters (rebuiltByCount source snapshot) ∧
      letters (enumerated source snapshot) =
        letters front ++ plain (rebuiltByCount source snapshot) := by
  unfold enumerated rebuiltByCount
  cases h : tryCountedEnumeration source (buildEditProtection source snapshot) with
  | none => exact ⟨source, by simp, by simp [plain, asciiLowercase]⟩
  | some out =>
    obtain ⟨front, hsource, hout⟩ := letters_enumeration h
    exact ⟨front, by rw [← letters_append]; exact congrArg letters hsource, hout⟩

theorem greeted_letters (text : Text) (snapshot : Snapshot) :
    ∃ rest, letters text = letters (rebuiltByGreeting text snapshot) ++ letters rest ∧
      letters (applyEmailHiName text (buildEditProtection text snapshot)) =
        plain (rebuiltByGreeting text snapshot) ++ letters rest := by
  unfold rebuiltByGreeting
  split
  · rename_i h
    obtain ⟨rest, htext, hout⟩ := letters_applyEmailHiName h
    exact ⟨rest, by rw [← letters_append]; exact congrArg letters htext, hout⟩
  · rename_i h
    rw [applyEmailHiName_of_not_greets (Bool.eq_false_iff.mpr h)]
    exact ⟨text, rfl, rfl⟩

/-- the text that the passes put together again from its words -/
def rebuilt (source : Text) (snapshot : Snapshot) : Text :=
  rebuiltByCount source snapshot ++ rebuiltByGreeting (enumerated source snapshot) snapshot

theorem applyStructure_letters_iff (source : Text) (snapshot : Snapshot) :
    letters (applyStructure source snapshot) = letters source ↔
      (rebuilt source snapshot).any isForeign = false := by
  obtain ⟨front, hsource, henum⟩ := enumerated_letters source snapshot
  obtain ⟨rest, htext, hgreet⟩ := greeted_letters (enumerated source snapshot) snapshot
  have hstructure : letters (applyStructure source snapshot) =
      plain (rebuiltByGreeting (enumerated source snapshot) snapshot) ++ letters rest := by
    rw [← hgreet]
    exact letters_splitEmailUpdateSentence _ _
  rw [rebuilt, List.any_append, Bool.or_eq_false_iff]
  constructor
  · -- every foreign character of a rebuilt part is one character less
    intro heq
    have hlen₁ := letters_length (rebuiltByCount source snapshot)
    have hlen₂ := letters_length (rebuiltByGreeting (enumerated source snapshot) snapshot)
    rw [hstructure] at heq
    have hsum := congrArg List.length heq
    have hsum₁ := congrArg List.length hsource
    have hsum₂ := congrArg List.length (henum.symm.trans htext)
    simp only [List.length_append] at hsum hsum₁ hsum₂
    constructor
    · have hzero : (rebuiltByCount source snapshot).countP isForeign = 0 := by omega
      exact List.any_eq_false.mpr (List.countP_eq_zero.mp hzero)
    · have hzero :
          (rebuiltByGreeting (enumerated source snapshot) snapshot).countP isForeign = 0 := by omega
      exact List.any_eq_false.mpr (List.countP_eq_zero.mp hzero)
  · intro ⟨hcount, hname⟩
    rw [hstructure, ← letters_eq_plain hname, ← htext, henum, ← letters_eq_plain hcount, ← hsource]

/-! ## the rendering -/

/-- the transcript comes to the rewrites of its structure -/
def reachesStructure (source : Text) (snapshot : Snapshot) : Bool :=
  !source.isEmpty && !isShellCommandLine source && !isAlreadyCorrectIdentity source &&
    (tryBulletInference source (buildEditProtection source snapshot)).isNone

/-- a letter or digit that is not ASCII stands in a part put together again -/
def losesLetters (source : Text) (snapshot : Snapshot) : Bool :=
  reachesStructure source snapshot && (rebuilt source snapshot).any isForeign

theorem finishFormat_letters {late : Nat → Bool} {text out : Text} {snapshot : Snapshot}
    {commands : Bool} (h : finishFormat late text snapshot commands = some out) :
    letters out = letters text := by
  simp only [finishFormat] at h
  split at h
  · cases h
  · split at h
    · cases h
    · split at h
      · obtain rfl := Option.some.inj h
        exact letters_applyPasses text snapshot
      · obtain rfl := Option.some.inj h
        rw [letters_addTerminalPunctuation, letters_applyPasses]

section
variable {source : Text} {snapshot : Snapshot} (hrec : recognised source = [])
include hrec

theorem smartFormat_letters {late : Nat → Bool} {out : Text}
    (h : smartFormat late source snapshot = some out) :
    letters out =
      if reachesStructure source snapshot then letters (applyStructure source snapshot)
      else letters source := by
  rw [smartFormat_of_none hrec] at h
  unfold reachesStructure
  by_cases hempty : source.isEmpty = true
  · rw [if_pos hempty] at h
    rw [← Option.some.inj h, List.isEmpty_iff.mp hempty]
    rfl
  by_cases hshell : isShellCommandLine source = true
  · rw [if_neg hempty, if_pos hshell] at h
    rw [← Option.some.inj h, hshell]
    simp
  rw [if_neg hempty, if_neg hshell] at h
  split at h
  · cases h
  by_cases hcorrect : isAlreadyCorrectIdentity source = true
  · rw [if_pos hcorrect] at h
    rw [← Option.some.inj h, hcorrect]
    simp
  rw [if_neg hcorrect] at h
  cases hbullets : tryBulletInference source (buildEditProtection source snapshot) with
  | some bullets =>
    simp only [hbullets] at h
    rw [← Option.some.inj h, letters_tryBulletInference hbullets]
    simp
  | none =>
    simp only [hbullets] at h
    rw [finishFormat_letters h]
    simp [hempty, hshell, hcorrect]

theorem smartFormat_in_time : (smartFormat (fun _ => false) source snapshot).isSome = true := by
  rw [smartFormat_of_none hrec]
  unfold finishFormat
  repeat' split
  all_goals simp_all

/-- **the rendering has the letters and digits of the transcript, whenever the deadline falls, just
when no letter or digit beyond ASCII stands in a part put together again** -/
theorem smartRendering_letters_iff (hlen : byteLen source ≤ maxValidatedTranscriptUtf8Bytes) :
    (∀ late, letters (smartRendering late source snapshot) = letters source) ↔
      losesLetters source snapshot = false := by
  unfold losesLetters
  constructor
  · intro hall
    obtain ⟨out, hout⟩ := Option.isSome_iff_exists.mp (@smartFormat_in_time source snapshot hrec)
    have hletters := hall fun _ => false
    rw [smartRendering, if_neg (by simp; omega), hout] at hletters
    simp only [Bool.or_self, Bool.false_eq_true, if_false] at hletters
    rw [smartFormat_letters hrec hout] at hletters
    cases hreach : reachesStructure source snapshot with
    | false => rfl
    | true =>
      rw [hreach, if_pos rfl] at hletters
      rw [(applyStructure_letters_iff source snapshot).mp hletters]
      rfl
  · intro hkept late
    unfold smartRendering
    split
    · rfl
    · split
      · rfl
      · rename_i out hout
        split
        · rfl
        · rw [smartFormat_letters hrec hout]
          split
          · rename_i hreach
            rw [hreach, Bool.true_and] at hkept
            exact (applyStructure_letters_iff source snapshot).mpr hkept
          · rfl

end

/-! ## a lost letter -/

def noNames : Snapshot := ⟨[], []⟩

def cafe : Text := "we need two things café and tea".toList

theorem recognised_cafe : recognised cafe = [] := recognised_of_no_command (by decide +kernel)

theorem smartRendering_cafe : smartRendering (fun _ => false) cafe noNames =
    "We need two things: caf and tea.".toList := by
  rw [smartRendering, if_neg (by decide), smartFormat_of_none recognised_cafe]
  decide +kernel

/-- **the é of a counted enumeration is lost** -/
theorem smartRendering_drops_letter :
    recognised cafe = [] ∧ byteLen cafe ≤ maxValidatedTranscriptUtf8Bytes ∧
      letters (smartRendering (fun _ => false) cafe noNames) ≠ letters cafe := by
  refine ⟨recognised_cafe, by decide, ?_⟩
  rw [smartRendering_cafe]
  decide +kernel

def jordan : Text := "hi jordan i moved the café update i will send it monday".toList

/-- a greeting and an update, whose letters and digits are all kept -/
theorem smartRendering_letters_iff_jordan : recognised jordan = [] ∧
    byteLen jordan ≤ maxValidatedTranscriptUtf8Bytes ∧ losesLetters jordan noNames = false ∧
    ∀ late, letters (smartRendering late jordan noNames) = letters jordan := by
  have hrec : recognised jordan = [] := recognised_of_no_command (by decide +kernel)
  have hlen : byteLen jordan ≤ maxValidatedTranscriptUtf8Bytes := by decide
  have hkept : losesLetters jordan noNames = false := by decide +kernel
  exact ⟨hrec, hlen, hkept, (smartRendering_letters_iff hrec hlen).mpr hkept⟩

end Voisu.Formatting
