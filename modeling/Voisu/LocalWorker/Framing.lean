import Mathlib
import Voisu.Capture.Wav
import Voisu.Lib.Offsets
import Voisu.LocalWorker.Supervisor

/-!
# Frames of the worker pipe

A control frame is a JSON value behind the number of its bytes.  The JSON library is a parameter: what
it writes and what it reads.

* `checkJsonBounds`                     the bounds on nesting and on fields;
* `encodeJsonFrame`, `decodeJsonFrame`  one frame;
* `Serde.Reads`                         the library reads what it writes;
* `Framing`                             what the pipe rests on;
* `framing`                             **it holds of every such library**.
-/

namespace Voisu.LocalWorker
open Lib
open Capture (fromLeBytes checkedAdd saturatingAdd)

def protocolVersion : UInt64 := 1
def maxJsonFrameBytes : Nat := 65536
def maxJsonDepth : Nat := 8
def maxJsonFields : Nat := 64

/-! ## values -/

/-- a value of the JSON library; `ν` is what it keeps of a number -/
inductive Json (ν : Type) where
  | null
  | bool (b : Bool)
  | number (n : ν)
  | string (s : Text)
  | array (items : List (Json ν))
  | object (map : List (Text × Json ν))

section
variable {ν : Type}

mutual

/-- a scalar is one deep -/
def Json.depth : Json ν → Nat
  | .array items => depths items + 1
  | .object map => fieldDepths map + 1
  | _ => 1

def depths : List (Json ν) → Nat
  | [] => 0
  | v :: items => max v.depth (depths items)

def fieldDepths : List (Text × Json ν) → Nat
  | [] => 0
  | (_, v) :: map => max v.depth (fieldDepths map)

end

mutual

/-- a map is kept in the order of its keys -/
def Json.keyed : Json ν → Bool
  | .array items => allKeyed items
  | .object map => decide ((map.map Prod.fst).Pairwise (· < ·)) && fieldsKeyed map
  | _ => true

def allKeyed : List (Json ν) → Bool
  | [] => true
  | v :: items => v.keyed && allKeyed items

def fieldsKeyed : List (Text × Json ν) → Bool
  | [] => true
  | (_, v) :: map => v.keyed && fieldsKeyed map

end

mutual

/-- the fields counted so far, those of the value among them -/
def checkJsonBounds (depth fields : Nat) (value : Json ν) : Except FrameError Nat :=
  if maxJsonDepth < depth then .error .jsonTooDeep
  else match value with
    | .object map =>
      if maxJsonFields < saturatingAdd fields map.length then .error .jsonTooManyFields
      else checkFields (depth + 1) (saturatingAdd fields map.length) map
    | .array items => checkItems (depth + 1) fields items
    | _ => .ok fields

def checkItems (depth fields : Nat) : List (Json ν) → Except FrameError Nat
  | [] => .ok fields
  | nested :: items =>
    match checkJsonBounds depth fields nested with
    | .error error => .error error
    | .ok fields => checkItems depth fields items

def checkFields (depth fields : Nat) : List (Text × Json ν) → Except FrameError Nat
  | [] => .ok fields
  | (_, nested) :: map =>
    match checkJsonBounds depth fields nested with
    | .error error => .error error
    | .ok fields => checkFields depth fields map

end

/-- a value as the library builds it -/
structure Document (ν : Type) where
  value : Json ν
  keyed : value.keyed = true

/-- `serde_json`, as far as the frames need it -/
structure Serde (ν : Type) where
  asU64 : ν → Option UInt64
  /-- the text whose bytes `to_vec` writes -/
  toText : Document ν → Option Text
  fromStr : Text → Option (Document ν)

/-- what is written is read, up to the nesting that the library reads; no text is no value -/
structure Serde.Reads (serde : Serde ν) : Prop where
  written : ∀ document text, document.value.depth ≤ 127 → serde.toText document = some text →
    serde.fromStr text = some document
  empty : serde.fromStr [] = none

/-! ## frames -/

/-- so many bytes, the lowest first; what does not fit is cut off -/
def toLeBytes : Nat → Nat → List UInt8
  | 0, _ => []
  | count + 1, n => UInt8.ofNat n :: toLeBytes count (n / 256)

/-- `value.get("v")` as a number -/
def versionOf (serde : Serde ν) : Json ν → Option UInt64
  | .object map =>
    match (map.find? fun field => field.1 == ['v']).map Prod.snd with
    | some (.number n) => serde.asU64 n
    | _ => none
  | _ => none

def encodeJsonFrame (serde : Serde ν) (document : Document ν) : Except FrameError (List UInt8) :=
  match checkJsonBounds 1 0 document.value with
  | .error error => .error error
  | .ok _ =>
    match serde.toText document with
    | none => .error .invalidJson
    | some text =>
      let payload := utf8 text
      if maxJsonFrameBytes < payload.length then .error (.jsonTooLarge payload.length)
      else .ok (toLeBytes 4 payload.length ++ payload)

def decodeJsonFrame (serde : Serde ν) (bytes : List UInt8) :
    Except FrameError (Document ν × Nat) :=
  if bytes.length < 4 then .error .truncated
  else
    let len := fromLeBytes (bytes.take 4)
    if len = 0 ∨ maxJsonFrameBytes < len then .error (.jsonTooLarge len)
    else match checkedAdd 4 len with
      | none => .error .truncated
      | some stop =>
        if bytes.length < stop then .error .truncated
        else match fromUtf8 ((bytes.take stop).drop 4) with
          | none => .error .invalidUtf8
          | some text =>
            match serde.fromStr text with
            | none => .error .invalidJson
            | some document =>
              match checkJsonBounds 1 0 document.value with
              | .error error => .error error
              | .ok _ =>
                match versionOf serde document.value with
                | none => .error (.unknownVersion 0)
                | some version =>
                  if version ≠ protocolVersion then
                    .error (.unknownVersion version.toUInt32.toNat)
                  else .ok (document, stop)

/-! ## bounds -/

theorem depth_le_of_ok {α : Type} {depth : Nat} {x : Except FrameError α} {n : α}
    (h : (if maxJsonDepth < depth then .error .jsonTooDeep else x) = .ok n) :
    depth ≤ maxJsonDepth ∧ x = .ok n := by
  split at h
  next => cases h
  next hdepth => exact ⟨Nat.le_of_not_lt hdepth, h⟩

mutual

/-- a value within the bounds is not nested deeper than they say -/
theorem depth_of_check {depth fields n : Nat} : (value : Json ν) →
    checkJsonBounds depth fields value = .ok n → depth + value.depth ≤ maxJsonDepth + 1
  | .object map, h => by
    rw [checkJsonBounds] at h
    obtain ⟨hdepth, h⟩ := depth_le_of_ok h
    split at h
    next => cases h
    next =>
      have hfields := fieldDepths_of_check map h (Nat.succ_le_succ hdepth)
      rw [Json.depth]
      omega
  | .array items, h => by
    rw [checkJsonBounds] at h
    obtain ⟨hdepth, h⟩ := depth_le_of_ok h
    have hitems := depths_of_check items h (Nat.succ_le_succ hdepth)
    rw [Json.depth]
    omega
  | .null, h | .bool _, h | .number _, h | .string _, h => by
    rw [checkJsonBounds] at h
    · exact Nat.succ_le_succ (depth_le_of_ok h).1
    · exact nofun
    · exact nofun

theorem depths_of_check {depth fields n : Nat} : (items : List (Json ν)) →
    checkItems depth fields items = .ok n → depth ≤ maxJsonDepth + 1 →
      depth + depths items ≤ maxJsonDepth + 1
  | [], _, hdepth => hdepth
  | nested :: items, h, hdepth => by
    rw [checkItems] at h
    split at h
    next => cases h
    next fields hnested =>
      have hhead := depth_of_check nested hnested
      have htail := depths_of_check items h hdepth
      rw [depths]
      omega

theorem fieldDepths_of_check {depth fields n : Nat} : (map : List (Text × Json ν)) →
    checkFields depth fields map = .ok n → depth ≤ maxJsonDepth + 1 →
      depth + fieldDepths map ≤ maxJsonDepth + 1
  | [], _, hdepth => hdepth
  | (_, nested) :: map, h, hdepth => by
    rw [checkFields] at h
    split at h
    next => cases h
    next fields hnested =>
      have hhead := depth_of_check nested hnested
      have htail := fieldDepths_of_check map h hdepth
      rw [fieldDepths]
      omega

end

/-! ## lengths -/

@[simp] theorem length_toLeBytes (count n : Nat) : (toLeBytes count n).length = count := by
  induction count generalizing n with
  | zero => rfl
  | succ count ih => rw [toLeBytes, List.length_cons, ih]

theorem fromLeBytes_toLeBytes (count : Nat) {n : Nat} (h : n < 256 ^ count) :
    fromLeBytes (toLeBytes count n) = n := by
  induction count generalizing n with
  | zero =>
    have hn : n = 0 := by simpa using h
    rw [hn]
    rfl
  | succ count ih =>
    have hrest : n / 256 < 256 ^ count := by
      rw [Nat.div_lt_iff_lt_mul (by decide)]
      rwa [Nat.pow_succ] at h
    rw [toLeBytes, fromLeBytes, ih hrest, UInt8.toNat_ofNat']
    omega

/-! ## the pipe -/

variable {serde : Serde ν} {document : Document ν} {frame payload bytes : List UInt8}

/-- a frame that is written: the length of the payload, and the payload -/
theorem encode_ok (h : encodeJsonFrame serde document = .ok frame) :
    ∃ n text, checkJsonBounds 1 0 document.value = .ok n ∧ serde.toText document = some text ∧
      (utf8 text).length ≤ maxJsonFrameBytes ∧
      frame = toLeBytes 4 (utf8 text).length ++ utf8 text := by
  rw [encodeJsonFrame] at h
  split at h
  next => cases h
  next n hcheck =>
    split at h
    next => cases h
    next text htext =>
      dsimp only at h
      split at h
      next => cases h
      next hle => exact ⟨n, text, hcheck, htext, Nat.le_of_not_lt hle, (Except.ok.inj h).symm⟩

/-- the length that a frame declares is read from any four bytes of it and more -/
theorem declared_append (hlen : payload.length ≤ maxJsonFrameBytes) (rest : List UInt8) :
    fromLeBytes ((toLeBytes 4 payload.length ++ rest).take 4) = payload.length := by
  have hfits : payload.length < 256 ^ 4 := Nat.lt_of_le_of_lt hlen (by decide)
  rw [List.take_left' (length_toLeBytes 4 _), fromLeBytes_toLeBytes 4 hfits]

/-- what is written is read again -/
theorem read_of_encode (hserde : serde.Reads) {n : Nat} {text : Text}
    (hcheck : checkJsonBounds 1 0 document.value = .ok n)
    (htext : serde.toText document = some text) : serde.fromStr text = some document := by
  have hdepth : 1 + document.value.depth ≤ maxJsonDepth + 1 := depth_of_check document.value hcheck
  refine hserde.written document text ?_ htext
  rw [maxJsonDepth] at hdepth
  omega

/-- no value is written as nothing -/
theorem payload_pos (hserde : serde.Reads) {text : Text} (h : serde.fromStr text = some document) :
    0 < (utf8 text).length := by
  cases text with
  | nil =>
    rw [hserde.empty] at h
    cases h
  | cons c text =>
    rw [utf8, List.flatMap_cons, List.length_append, String.length_utf8EncodeChar]
    exact Nat.add_pos_left c.utf8Size_pos _

/-- **what is written is read, whatever stands behind it** -/
theorem decode_encode (hserde : serde.Reads)
    (hversion : versionOf serde document.value = some protocolVersion)
    (h : encodeJsonFrame serde document = .ok frame) (rest : List UInt8) :
    decodeJsonFrame serde (frame ++ rest) = .ok (document, frame.length) := by
  obtain ⟨n, text, hcheck, htext, hlen, rfl⟩ := encode_ok h
  have hread := read_of_encode hserde hcheck htext
  have hpos := payload_pos hserde hread
  have hall : (toLeBytes 4 (utf8 text).length ++ utf8 text).length = 4 + (utf8 text).length := by
    rw [List.length_append, length_toLeBytes]
  have hstop : checkedAdd 4 (utf8 text).length = some (4 + (utf8 text).length) :=
    if_pos (Nat.le_trans (Nat.add_le_add_left hlen 4) (by decide))
  have hpayload : ((toLeBytes 4 (utf8 text).length ++ utf8 text ++ rest).take
      (4 + (utf8 text).length)).drop 4 = utf8 text := by
    rw [List.take_left' hall, List.drop_left' (length_toLeBytes 4 _)]
  have hbounds : ¬((utf8 text).length = 0 ∨ maxJsonFrameBytes < (utf8 text).length) := by omega
  have hdeclared := declared_append hlen (utf8 text ++ rest)
  rw [← List.append_assoc] at hdeclared
  have hshort : ¬(toLeBytes 4 (utf8 text).length ++ utf8 text ++ rest).length < 4 := by
    rw [List.length_append, hall]
    omega
  have harrived : ¬(toLeBytes 4 (utf8 text).length ++ utf8 text ++ rest).length <
      4 + (utf8 text).length := by
    rw [List.length_append, hall]
    omega
  simp only [decodeJsonFrame, hdeclared, hstop, hpayload, fromUtf8_utf8, hread, hcheck, hversion,
    if_neg hshort, if_neg hbounds, if_neg harrived, hall]
  rfl

/-- **a strict prefix of a frame waits for more** -/
theorem decode_short (hserde : serde.Reads) (h : encodeJsonFrame serde document = .ok frame)
    {part : List UInt8} (hpart : part <+: frame) (hne : part ≠ frame) :
    decodeJsonFrame serde part = .error .truncated := by
  obtain ⟨n, text, hcheck, htext, hlen, rfl⟩ := encode_ok h
  have hpos := payload_pos hserde (read_of_encode hserde hcheck htext)
  have hlt : part.length < 4 + (utf8 text).length := by
    have hle := hpart.length_le
    rw [List.length_append, length_toLeBytes] at hle
    refine Nat.lt_of_le_of_ne hle fun heq => hne (hpart.eq_of_length ?_)
    rw [heq, List.length_append, length_toLeBytes]
  by_cases hshort : part.length < 4
  · rw [decodeJsonFrame]
    exact if_pos hshort
  · have hdeclared : fromLeBytes (part.take 4) = (utf8 text).length := by
      rw [List.prefix_iff_eq_take.1 hpart, List.take_take, Nat.min_eq_left (by omega)]
      exact declared_append hlen _
    have hstop : checkedAdd 4 (utf8 text).length = some (4 + (utf8 text).length) :=
      if_pos (Nat.le_trans (Nat.add_le_add_left hlen 4) (by decide))
    have hbounds : ¬((utf8 text).length = 0 ∨ maxJsonFrameBytes < (utf8 text).length) := by omega
    simp only [decodeJsonFrame, hdeclared, hstop, if_neg hshort, if_neg hbounds, if_pos hlt]

theorem decode_long (h4 : 4 ≤ bytes.length)
    (hlong : maxJsonFrameBytes < fromLeBytes (bytes.take 4)) :
    decodeJsonFrame serde bytes = .error (.jsonTooLarge (fromLeBytes (bytes.take 4))) := by
  rw [decodeJsonFrame, if_neg (Nat.not_lt_of_le h4)]
  exact if_pos (.inr hlong)

/-- what the pipe rests on -/
structure Framing (serde : Serde ν) : Prop where
  roundTrip : ∀ document frame, versionOf serde document.value = some protocolVersion →
    encodeJsonFrame serde document = .ok frame → ∀ rest,
    decodeJsonFrame serde (frame ++ rest) = .ok (document, frame.length)
  short : ∀ document frame part, encodeJsonFrame serde document = .ok frame → part <+: frame →
    part ≠ frame → ∀ value used, decodeJsonFrame serde part ≠ .ok (value, used)
  longWritten : ∀ document text, serde.toText document = some text →
    maxJsonFrameBytes < (utf8 text).length → ∀ frame, encodeJsonFrame serde document ≠ .ok frame
  longRead : ∀ bytes, 4 ≤ bytes.length → maxJsonFrameBytes < fromLeBytes (bytes.take 4) →
    ∀ value used, decodeJsonFrame serde bytes ≠ .ok (value, used)

/-- **frames round-trip, end where they say, and keep the bound on both sides** -/
theorem framing (serde : Serde ν) (hserde : serde.Reads) : Framing serde where
  roundTrip _ _ hversion h rest := decode_encode hserde hversion h rest
  short _ _ _ h hpart hne value used hdecode := by
    rw [decode_short hserde h hpart hne] at hdecode
    cases hdecode
  longWritten document text htext hlong frame h := by
    obtain ⟨-, text', -, htext', hlen, -⟩ := encode_ok h
    rw [htext, Option.some.injEq] at htext'
    subst htext'
    exact Nat.not_lt_of_le hlen hlong
  longRead _ h4 hlong value used hdecode := by
    rw [decode_long h4 hlong] at hdecode
    cases hdecode

end

/-- the least frame there is -/
def leastDocument : Document UInt64 where
  value := .object [(['v'], .number 1)]
  keyed := by decide

/-- a library that knows the least frame alone -/
def leastSerde : Serde UInt64 where
  asU64 := some
  toText document := match document.value with
    | .object [(key, .number n)] =>
      if key = ['v'] ∧ n = 1 then some "\x7b\"v\":1\x7d".toList else none
    | _ => none
  fromStr text := if text = "\x7b\"v\":1\x7d".toList then some leastDocument else none

theorem leastSerde_reads : leastSerde.Reads where
  written document text _ h := by
    obtain ⟨value, hkeyed⟩ := document
    simp only [leastSerde] at h
    split at h
    next key n =>
      split at h
      next hv =>
        obtain ⟨rfl, rfl⟩ := hv
        rw [← Option.some.inj h]
        rfl
      next => cases h
    next => cases h
  empty := by decide

theorem framing_least : Framing leastSerde ∧
    decodeJsonFrame leastSerde ([7, 0, 0, 0] ++ utf8 "\x7b\"v\":1\x7d".toList ++ [7, 0]) =
      .ok (leastDocument, 11) := by
  have hframing := framing leastSerde leastSerde_reads
  exact ⟨hframing, hframing.roundTrip leastDocument
    ([7, 0, 0, 0] ++ utf8 "\x7b\"v\":1\x7d".toList) rfl rfl [7, 0]⟩

end Voisu.LocalWorker
