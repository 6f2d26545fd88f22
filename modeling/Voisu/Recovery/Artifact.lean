import Mathlib
import Voisu.Json
import Voisu.Lib.Lines
import Voisu.Lib.Substrings

/-!
# The metadata of a recovery recording

A retained Recording is a pair of files: its samples, and a text of `key=value` lines about them.

* `artifactExpired`    the two clocks against the metadata;
* `encodeMeta`         the text;
* `parseMeta`          what is read of a text: the last line of a key counts;
* `parseMeta_encodeMeta`   **what was written is read, where the values have no line breaks**.
-/

namespace Voisu.Recovery
open Lib

/-! ## artifacts -/

def maxAgeMs : Nat := 24 * 60 * 60 * 1000

structure RecoveryClock where
  wallUnixMs : UInt64
  bootMs : Option UInt64
deriving DecidableEq, Repr

inductive DeliveryState where
  | none
  | deliveryStarted
  | delivered
  | failed
  | ambiguous
deriving DecidableEq, Repr

def DeliveryState.asStr : DeliveryState → Text
  | .none => "none".toList
  | .deliveryStarted => "delivery_started".toList
  | .delivered => "delivered".toList
  | .failed => "failed".toList
  | .ambiguous => "ambiguous".toList

def DeliveryState.all : List DeliveryState :=
  [.none, .deliveryStarted, .delivered, .failed, .ambiguous]

def DeliveryState.parse (value : Text) : Option DeliveryState :=
  DeliveryState.all.find? fun state => state.asStr = value

/-- the only origin is `Local` -/
def originLocal : Text := "local".toList

structure RecoveryArtifact where
  recordingId : Text
  createdUnixMs : UInt64
  observedWallUnixMs : UInt64
  bootMs : Option UInt64
  modelReceiptHash : Text
  deliveryState : DeliveryState
  pcmBytes : UInt64
deriving DecidableEq, Repr

def artifactExpired (a : RecoveryArtifact) (clock : RecoveryClock) : Bool :=
  decide (clock.wallUnixMs < a.createdUnixMs) || decide (clock.wallUnixMs < a.observedWallUnixMs) ||
  decide (a.observedWallUnixMs < a.createdUnixMs) ||
  decide (maxAgeMs ≤ clock.wallUnixMs.toNat - a.createdUnixMs.toNat) ||
  match a.bootMs, clock.bootMs with
  | some created, some now =>
    decide (now < created) || decide (maxAgeMs ≤ now.toNat - created.toNat)
  | _, _ => false

/-! ## the text -/

def u64Text (n : UInt64) : Text := natText n.toNat

def parseU64 (value : Text) : Option UInt64 := (parseUnsigned (2 ^ 64 - 1) value).map UInt64.ofNat

def bootText : Option UInt64 → Text
  | none => "none".toList
  | some n => u64Text n

/-- `key=value` -/
def entryLine (key : String) (value : Text) : Text := key.toList ++ '=' :: value

def metaLines (a : RecoveryArtifact) : List Text :=
  [entryLine "recording_id" a.recordingId,
    entryLine "created_unix_ms" (u64Text a.createdUnixMs),
    entryLine "observed_wall_unix_ms" (u64Text a.observedWallUnixMs),
    entryLine "boot_ms" (bootText a.bootMs),
    entryLine "model" a.modelReceiptHash,
    entryLine "delivery_state" a.deliveryState.asStr,
    entryLine "origin" originLocal,
    entryLine "pcm_bytes" (u64Text a.pcmBytes),
    entryLine "format" "pcm_s16le_mono_16khz".toList]

def encodeMeta (a : RecoveryArtifact) : Text := unlines (metaLines a)

/-- what is read so far -/
structure MetaFields where
  recordingId : Option Text
  created : Option UInt64
  observed : Option UInt64
  boot : Option (Option UInt64)
  model : Option Text
  state : Option DeliveryState
  origin : Option Unit
  pcmBytes : Option UInt64

def MetaFields.empty : MetaFields :=
  { recordingId := none, created := none, observed := none, boot := none, model := none,
    state := none, origin := none, pcmBytes := none }

/-- one line; only a boot time that is no number refuses the text at once -/
def MetaFields.read (fields : MetaFields) (line : Text) : Option MetaFields :=
  match splitOnceAt '=' line with
  | none => some fields
  | some (key, value) =>
    if key = "recording_id".toList then some { fields with recordingId := some value }
    else if key = "created_unix_ms".toList then some { fields with created := parseU64 value }
    else if key = "observed_wall_unix_ms".toList then some { fields with observed := parseU64 value }
    else if key = "boot_ms".toList then
      if value = "none".toList then some { fields with boot := some none }
      else (parseU64 value).map fun n => { fields with boot := some (some n) }
    else if key = "model".toList then some { fields with model := some value }
    else if key = "delivery_state".toList then
      some { fields with state := DeliveryState.parse value }
    else if key = "origin".toList then
      some { fields with origin := if value = originLocal then some () else none }
    else if key = "pcm_bytes".toList then some { fields with pcmBytes := parseU64 value }
    else some fields

def MetaFields.finish (fields : MetaFields) : Option RecoveryArtifact := do
  let recordingId ← fields.recordingId
  let createdUnixMs ← fields.created
  let observedWallUnixMs ← fields.observed
  let modelReceiptHash ← fields.model
  let deliveryState ← fields.state
  let _ ← fields.origin
  let pcmBytes ← fields.pcmBytes
  return { recordingId, createdUnixMs, observedWallUnixMs, bootMs := fields.boot.join,
           modelReceiptHash, deliveryState, pcmBytes }

def parseMeta (text : Text) : Option RecoveryArtifact :=
  ((strLines text).foldlM MetaFields.read .empty).bind MetaFields.finish

/-! ## what is written is read -/

theorem splitOnceAt_entryLine {key : String} (h : '=' ∉ key.toList) (value : Text) :
    splitOnceAt '=' (entryLine key value) = some (key.toList, value) :=
  splitOnceAt_append h

/-- a carriage return at the end of a value is lost -/
theorem chompReturn_entryLine (key : String) (value : Text) :
    chompReturn (entryLine key value) = entryLine key (chompReturn value) := by
  rcases List.eq_nil_or_concat value with rfl | ⟨init, c, rfl⟩
  · simp [chompReturn, entryLine]
  · rw [List.concat_eq_append]
    have hline : entryLine key (init ++ [c]) = entryLine key init ++ [c] := by simp [entryLine]
    by_cases hc : c = '\r'
    · subst hc
      rw [hline]
      simp [chompReturn]
    · rw [hline]
      simp [chompReturn, hc, hline]

theorem parseU64_u64Text (n : UInt64) : parseU64 (u64Text n) = some n := by
  rw [parseU64, u64Text, parseUnsigned_natText (by have := n.toNat_lt; omega)]
  simp

theorem u64Text_clean (n : UInt64) : '\n' ∉ u64Text n ∧ chompReturn (u64Text n) = u64Text n := by
  refine ⟨fun h => absurd (natText_isDigit h) (by decide), if_neg fun h => ?_⟩
  exact absurd (natText_isDigit (List.mem_of_getLast? h)) (by decide)

theorem bootText_clean (boot : Option UInt64) :
    '\n' ∉ bootText boot ∧ chompReturn (bootText boot) = bootText boot := by
  cases boot with
  | none => decide
  | some n => exact u64Text_clean n

theorem stateText_clean (state : DeliveryState) :
    '\n' ∉ state.asStr ∧ chompReturn state.asStr = state.asStr := by
  cases state <;> decide

/-- a boot time is not written as `none` -/
theorem u64Text_ne_none (n : UInt64) : u64Text n ≠ "none".toList := by
  intro h
  have : 'n' ∈ u64Text n := by rw [h]; decide
  exact absurd (natText_isDigit this) (by decide)

theorem DeliveryState.parse_asStr (state : DeliveryState) :
    DeliveryState.parse state.asStr = some state := by
  cases state <;> decide

/-- the lines that are read back -/
theorem strLines_encodeMeta {a : RecoveryArtifact} (hid : '\n' ∉ a.recordingId)
    (hmodel : '\n' ∉ a.modelReceiptHash) :
    strLines (encodeMeta a) =
      metaLines { a with
        recordingId := chompReturn a.recordingId
        modelReceiptHash := chompReturn a.modelReceiptHash } := by
  have hclean : ∀ line ∈ metaLines a, '\n' ∉ line := by
    have hnot : ∀ (key : String) (value : Text), '\n' ∉ key.toList → '\n' ∉ value →
        '\n' ∉ entryLine key value := by
      intro key value hkey hvalue
      simp [entryLine, hkey, hvalue]
    intro line hline
    simp only [metaLines, List.mem_cons, List.not_mem_nil, or_false] at hline
    rcases hline with rfl | rfl | rfl | rfl | rfl | rfl | rfl | rfl | rfl
    · exact hnot _ _ (by decide) hid
    · exact hnot _ _ (by decide) (u64Text_clean _).1
    · exact hnot _ _ (by decide) (u64Text_clean _).1
    · exact hnot _ _ (by decide) (bootText_clean _).1
    · exact hnot _ _ (by decide) hmodel
    · exact hnot _ _ (by decide) (stateText_clean _).1
    · exact hnot _ _ (by decide) (by decide)
    · exact hnot _ _ (by decide) (u64Text_clean _).1
    · exact hnot _ _ (by decide) (by decide)
  have horigin : chompReturn originLocal = originLocal := by decide
  have hformat : chompReturn "pcm_s16le_mono_16khz".toList = "pcm_s16le_mono_16khz".toList := by
    decide
  rw [encodeMeta, strLines_unlines hclean]
  simp only [metaLines, List.map_cons, List.map_nil, chompReturn_entryLine, (u64Text_clean _).2,
    (bootText_clean _).2, (stateText_clean _).2, horigin, hformat]

/-- the fields after each line -/
theorem foldlM_metaLines (a : RecoveryArtifact) :
    (metaLines a).foldlM MetaFields.read .empty = some
      { recordingId := some a.recordingId, created := some a.createdUnixMs,
        observed := some a.observedWallUnixMs, boot := some a.bootMs,
        model := some a.modelReceiptHash, state := some a.deliveryState, origin := some (),
        pcmBytes := some a.pcmBytes } := by
  have hboot : ∀ fields : MetaFields, fields.read (entryLine "boot_ms" (bootText a.bootMs)) =
      some { fields with boot := some a.bootMs } := by
    intro fields
    rw [MetaFields.read, @splitOnceAt_entryLine "boot_ms" (by decide)]
    cases a.bootMs with
    | none => rfl
    | some n =>
      dsimp only
      rw [if_neg (by decide), if_neg (by decide), if_neg (by decide), if_pos rfl, bootText,
        if_neg (u64Text_ne_none n), parseU64_u64Text]
      rfl
  simp only [metaLines, List.foldlM_cons, List.foldlM_nil, hboot]
  simp only [MetaFields.read, @splitOnceAt_entryLine "recording_id" (by decide),
    @splitOnceAt_entryLine "created_unix_ms" (by decide),
    @splitOnceAt_entryLine "observed_wall_unix_ms" (by decide),
    @splitOnceAt_entryLine "model" (by decide), @splitOnceAt_entryLine "delivery_state" (by decide),
    @splitOnceAt_entryLine "origin" (by decide), @splitOnceAt_entryLine "pcm_bytes" (by decide),
    @splitOnceAt_entryLine "format" (by decide), parseU64_u64Text, DeliveryState.parse_asStr]
  rfl

/-- **what was written is read, but for a carriage return at the end of a value** -/
theorem parseMeta_encodeMeta {a : RecoveryArtifact} (hid : '\n' ∉ a.recordingId)
    (hmodel : '\n' ∉ a.modelReceiptHash) :
    parseMeta (encodeMeta a) = some { a with
      recordingId := chompReturn a.recordingId
      modelReceiptHash := chompReturn a.modelReceiptHash } := by
  rw [parseMeta, strLines_encodeMeta hid hmodel, foldlM_metaLines]
  rfl

/-! ## values have no line breaks -/

/-- what is read of lines has no line break -/
def MetaFields.Unbroken (fields : MetaFields) : Prop :=
  (∀ id, fields.recordingId = some id → '\n' ∉ id) ∧ ∀ model, fields.model = some model → '\n' ∉ model

theorem not_mem_value {line key value : Text} (h : splitOnceAt '=' line = some (key, value))
    (hline : '\n' ∉ line) : '\n' ∉ value := by
  simp only [splitOnceAt] at h
  split at h
  next =>
    obtain ⟨-, rfl⟩ := Prod.mk.inj (Option.some.inj h)
    exact fun hmem => hline (List.dropWhile_subset _ (List.mem_of_mem_tail hmem))
  next => cases h

theorem MetaFields.Unbroken.read {fields fields' : MetaFields} {line : Text}
    (h : fields.Unbroken) (hline : '\n' ∉ line) (hread : fields.read line = some fields') :
    fields'.Unbroken := by
  simp only [MetaFields.read] at hread
  split at hread
  next => exact Option.some.inj hread ▸ h
  next key value hsplit =>
    have hvalue := not_mem_value hsplit hline
    -- which keys they are does not matter
    generalize "recording_id".toList = idKey, "created_unix_ms".toList = createdKey,
      "observed_wall_unix_ms".toList = observedKey, "boot_ms".toList = bootKey,
      "none".toList = noBoot, "model".toList = modelKey, "delivery_state".toList = stateKey,
      "origin".toList = originKey, "pcm_bytes".toList = bytesKey at hread
    repeat' split at hread
    all_goals
      first
      | rw [← Option.some.inj hread]
      | obtain ⟨n, -, rfl⟩ := Option.map_eq_some_iff.1 hread
    · exact ⟨fun id hid => Option.some.inj hid ▸ hvalue, h.2⟩
    all_goals first | exact h | exact ⟨h.1, fun model hmodel => Option.some.inj hmodel ▸ hvalue⟩

theorem MetaFields.Unbroken.foldlM {lines : List Text} (hlines : ∀ line ∈ lines, '\n' ∉ line)
    {start fields : MetaFields} (hstart : start.Unbroken)
    (h : lines.foldlM MetaFields.read start = some fields) : fields.Unbroken := by
  induction lines generalizing start with
  | nil => exact Option.some.inj h ▸ hstart
  | cons line lines ih =>
    rw [List.foldlM_cons] at h
    obtain ⟨next, hnext, h⟩ := Option.bind_eq_some_iff.1 h
    exact ih (fun l hl => hlines l (List.mem_cons_of_mem _ hl))
      (hstart.read (hlines line List.mem_cons_self) hnext) h

theorem parseMeta_unbroken {text : Text} {a : RecoveryArtifact} (h : parseMeta text = some a) :
    '\n' ∉ a.recordingId ∧ '\n' ∉ a.modelReceiptHash := by
  obtain ⟨fields, hfields, hfinish⟩ := Option.bind_eq_some_iff.1 h
  have hempty : MetaFields.empty.Unbroken := ⟨nofun, nofun⟩
  have hunbroken : fields.Unbroken :=
    hempty.foldlM (fun _ hline => not_mem_of_mem_strLines hline) hfields
  simp only [MetaFields.finish, Option.bind_eq_bind, Option.bind_eq_some_iff] at hfinish
  obtain ⟨id, hid, _, -, _, -, model, hmodel, _, -, _, -, _, -, hdone⟩ := hfinish
  obtain rfl := Option.some.inj hdone
  exact ⟨hunbroken.1 id hid, hunbroken.2 model hmodel⟩

end Voisu.Recovery
