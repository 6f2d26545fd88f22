import Voisu.Lib.Offsets
import Voisu.Lib.Substrings

/-!
# The query of a URL

The pairs of a query, as the form decoder of the URL standard reads them, and the percent-encoding
that keeps a text inside one value.

* `pairs q`          the names and the values of a query, percent-decoded;
* `percentEncode s`  a text with everything but the unreserved characters escaped;
* `decode_encode`    **the decoded bytes of an encoded text are those of the text**;
* `pairs_append`     `&` separates the pairs of a query;
* `pairs_ne`         a blank behind a query changes its last pair.
-/

namespace Voisu.Lib.Query

/-! ## percent-encoding -/

def hexDigit (n : Nat) : Char := if n < 10 then Char.ofNat (0x30 + n) else Char.ofNat (0x37 + n)

def hexValue (c : Char) : Option Nat :=
  if isAsciiDigit c then some (c.toNat - 0x30)
  else if inRange c 0x41 0x46 then some (c.toNat - 0x37)
  else if inRange c 0x61 0x66 then some (c.toNat - 0x57)
  else none

/-- the characters that RFC 3986 leaves as they are -/
def isUnreserved (c : Char) : Bool :=
  isAsciiAlphanumeric c || c == '-' || c == '_' || c == '.' || c == '~'

def encodeByte (b : UInt8) : List Char :=
  if isUnreserved (Char.ofNat b.toNat) then [Char.ofNat b.toNat]
  else ['%', hexDigit (b.toNat / 16), hexDigit (b.toNat % 16)]

def percentEncode (s : List Char) : List Char := (utf8 s).flatMap encodeByte

/-- a `%` that two digits do not follow stands for itself -/
def decode : List Char → List UInt8
  | [] => []
  | '%' :: high :: low :: s =>
    match hexValue high, hexValue low with
    | some h, some l => UInt8.ofNat (h * 16 + l) :: decode s
    | _, _ => 0x25 :: decode (high :: low :: s)
  | '+' :: s => 0x20 :: decode s
  | c :: s => String.utf8EncodeChar c ++ decode s

/-! ## the pairs -/

/-- a piece without a `=` is a name with an empty value -/
def pairOf (piece : List Char) : List UInt8 × List UInt8 :=
  match splitOnceAt '=' piece with
  | some (name, value) => (decode name, decode value)
  | none => (decode piece, [])

def pairs (query : List Char) : List (List UInt8 × List UInt8) :=
  ((query.splitOn '&').filter fun piece => !piece.isEmpty).map pairOf

def pairText (pair : List Char × List Char) : List Char := pair.1 ++ '=' :: pair.2

section
variable {s t q : List Char}

theorem decode_cons {c : Char} (hpercent : c ≠ '%') (hplus : c ≠ '+') (s : List Char) :
    decode (c :: s) = String.utf8EncodeChar c ++ decode s := by
  rw [decode.eq_def]
  split
  · next h => cases h
  · next h => exact absurd (List.cons.inj h).1 hpercent
  · next h => exact absurd (List.cons.inj h).1 hplus
  · next h =>
    obtain ⟨rfl, rfl⟩ := List.cons.inj h
    rfl

theorem hexValue_hexDigit {n : Nat} (h : n < 16) : hexValue (hexDigit n) = some n := by
  have hall : ∀ n < 16, hexValue (hexDigit n) = some n := by decide
  exact hall n h

theorem decode_escape {b : UInt8} (s : List Char) :
    decode ('%' :: hexDigit (b.toNat / 16) :: hexDigit (b.toNat % 16) :: s) = b :: decode s := by
  have hlt : b.toNat < 256 := b.toNat_lt
  rw [decode, hexValue_hexDigit (by omega), hexValue_hexDigit (by omega)]
  have hb : b.toNat / 16 * 16 + b.toNat % 16 = b.toNat := by omega
  simp only [hb, UInt8.ofNat_toNat]

theorem unreserved_ne {c d : Char} (hc : isUnreserved c = true) (hd : isUnreserved d = false) :
    c ≠ d := by
  rintro rfl
  rw [hc] at hd
  cases hd

theorem isUnreserved_bounds {c : Char} (h : isUnreserved c = true) :
    0x21 ≤ c.toNat ∧ c.toNat < 0x80 := by
  simp only [isUnreserved, isAsciiAlphanumeric, isAsciiAlphabetic, isAsciiUppercase,
    isAsciiLowercase, isAsciiDigit, inRange, Bool.or_eq_true, Bool.and_eq_true,
    decide_eq_true_eq, beq_iff_eq] at h
  rcases h with (((h | rfl) | rfl) | rfl) | rfl
  · omega
  all_goals decide

theorem utf8EncodeChar_ascii {b : UInt8} (h : (Char.ofNat b.toNat).toNat < 0x80) :
    String.utf8EncodeChar (Char.ofNat b.toNat) = [b] := by
  have hsize : (Char.ofNat b.toNat).utf8Size = 1 := by
    rw [Char.utf8Size_eq_one_iff, UInt32.le_iff_toNat_le]
    exact Nat.le_of_lt_succ h
  have hvalid : b.toNat.isValidChar := Or.inl (Nat.lt_trans b.toNat_lt (by decide))
  rw [String.utf8EncodeChar_eq_singleton hsize, Char.ofNat, dif_pos hvalid]
  apply congrArg fun b => [b]
  apply UInt8.toNat_inj.1
  rw [UInt32.toNat_toUInt8]
  exact Nat.mod_eq_of_lt b.toNat_lt

theorem decode_encodeByte (b : UInt8) (s : List Char) :
    decode (encodeByte b ++ s) = b :: decode s := by
  rw [encodeByte]
  split
  · next hplain =>
    have hascii := utf8EncodeChar_ascii (isUnreserved_bounds hplain).2
    rw [List.singleton_append, decode_cons (unreserved_ne hplain rfl) (unreserved_ne hplain rfl),
      hascii]
    rfl
  · exact decode_escape s

/-- **the decoded bytes of an encoded text are those of the text** -/
theorem decode_encode (s t : List Char) : decode (percentEncode s ++ t) = utf8 s ++ decode t := by
  have hbytes (bytes : List UInt8) : decode (bytes.flatMap encodeByte ++ t) = bytes ++ decode t := by
    induction bytes with
    | nil => rfl
    | cons b bytes ih =>
      rw [List.flatMap_cons, List.append_assoc, decode_encodeByte, ih]
      rfl
  exact hbytes (utf8 s)

example : decode (percentEncode "é b".toList) = utf8 "é b".toList := by decide +kernel

theorem decode_plain (h : ∀ c ∈ s, c ≠ '%' ∧ c ≠ '+') : decode s = utf8 s := by
  induction s with
  | nil => rfl
  | cons c s ih =>
    obtain ⟨hc, hs⟩ := List.forall_mem_cons.1 h
    rw [decode_cons hc.1 hc.2, ih hs]
    rfl

/-- the characters of an encoded text -/
theorem mem_percentEncode {c : Char} (h : c ∈ percentEncode s) : isUnreserved c = true ∨ c = '%' := by
  obtain ⟨b, -, hb⟩ := List.mem_flatMap.1 h
  have hhex : ∀ n < 16, isUnreserved (hexDigit n) = true := by decide
  have hlt := b.toNat_lt
  rw [encodeByte] at hb
  split at hb
  · next hplain => exact .inl (List.mem_singleton.1 hb ▸ hplain)
  · rcases List.mem_cons.1 hb with rfl | hb
    · exact .inr rfl
    rcases List.mem_cons.1 hb with rfl | hb
    · exact .inl (hhex _ (by omega))
    · exact .inl (List.mem_singleton.1 hb ▸ hhex _ (by omega))

/-! ## pieces -/

theorem pairs_append (q r : List Char) : pairs (q ++ '&' :: r) = pairs q ++ pairs r := by
  rw [pairs, List.splitOn_append_cons_self, List.filter_append, List.map_append]
  rfl

theorem pairs_piece (h : '&' ∉ s) : pairs s = if s.isEmpty then [] else [pairOf s] := by
  rw [pairs, List.splitOn_eq_singleton h, List.filter_singleton]
  cases s <;> rfl

theorem pairOf_pairText {pair : List Char × List Char} (h : '=' ∉ pair.1) :
    pairOf (pairText pair) = (decode pair.1, decode pair.2) := by
  rw [pairOf, pairText, splitOnceAt_append h]

/-- **texts without the separators are the pairs that are read** -/
theorem pairs_flatMap (q : List Char) {texts : List (List Char × List Char)}
    (h : ∀ pair ∈ texts, '&' ∉ pairText pair ∧ '=' ∉ pair.1) :
    pairs (q ++ texts.flatMap fun pair => '&' :: pairText pair) =
      pairs q ++ texts.map fun pair => (decode pair.1, decode pair.2) := by
  induction texts generalizing q with
  | nil => rw [List.flatMap_nil, List.append_nil, List.map_nil, List.append_nil]
  | cons pair texts ih =>
    obtain ⟨hpair, htexts⟩ := List.forall_mem_cons.1 h
    have hone : pairs (pairText pair) = [(decode pair.1, decode pair.2)] := by
      rw [pairs_piece hpair.1, pairOf_pairText hpair.2, pairText]
      cases pair.1 <;> rfl
    have hassoc : q ++ (pair :: texts).flatMap (fun pair => '&' :: pairText pair) =
        (q ++ '&' :: pairText pair) ++ texts.flatMap fun pair => '&' :: pairText pair := by
      simp
    rw [hassoc, ih _ htexts, pairs_append, hone, List.append_assoc]
    rfl

/-! ## blanks behind a query -/

/-- what the parser trims from the ends of an address -/
def isC0ControlOrSpace (c : Char) : Bool := c.toNat ≤ 0x20

theorem blank_ne {c d : Char} (hc : isC0ControlOrSpace c = true)
    (hd : isC0ControlOrSpace d = false) : c ≠ d := by
  rintro rfl
  rw [hc] at hd
  cases hd

theorem hexValue_blank {c : Char} (h : isC0ControlOrSpace c = true) : hexValue c = none := by
  have hle : c.toNat ≤ 0x20 := of_decide_eq_true h
  rw [hexValue, if_neg, if_neg, if_neg]
  all_goals
    simp only [isAsciiDigit, inRange, Bool.and_eq_true, decide_eq_true_eq]
    omega

/-- an escape that is not complete stays as it is -/
theorem decode_percent (h : ∀ high low t, s = high :: low :: t →
    (hexValue high = none ∨ hexValue low = none)) : decode ('%' :: s) = 0x25 :: decode s := by
  match s with
  | [] => rfl
  | [c] => rfl
  | high :: low :: t =>
    rw [decode]
    rcases h high low t rfl with hnone | hnone
    · rw [hnone]
    · rw [hnone]
      cases hexValue high <;> rfl

theorem decode_append_blank {w : List Char} (hw : ∀ c ∈ w, isC0ControlOrSpace c = true)
    (s : List Char) : decode (s ++ w) = decode s ++ utf8 w := by
  have hplain : decode w = utf8 w :=
    decode_plain fun c hc => ⟨blank_ne (hw c hc) rfl, blank_ne (hw c hc) rfl⟩
  induction s using decode.induct with
  | case1 => exact hplain
  | case2 high low s h l hlow hhigh ih =>
    simp only [List.cons_append, decode, hlow, hhigh, ih]
  | case3 high low s hnot ih =>
    have hnone : hexValue high = none ∨ hexValue low = none := by
      cases hhigh : hexValue high with
      | none => exact .inl rfl
      | some h =>
        cases hlow : hexValue low with
        | none => exact .inr rfl
        | some l => exact (hnot h l hhigh hlow).elim
    rw [List.cons_append, decode_percent, decode_percent, ih]
    · rfl
    · rintro _ _ _ ⟨⟩
      exact hnone
    · rintro _ _ _ ⟨⟩
      exact hnone
  | case4 s ih =>
    rw [List.cons_append, decode, ih, decode]
    rfl
  | case5 c s hpercent hplus ih =>
    by_cases hc : c = '%'
    · subst hc
      rw [List.cons_append, decode_percent, decode_percent, ih]
      · rfl
      · rintro high low t rfl
        exact (hpercent high low t rfl rfl).elim
      · intro high low t heq
        match s with
        | [] => exact .inl (hexValue_blank (hw _ (by rw [← List.nil_append w, heq]; simp)))
        | [d] =>
          obtain ⟨rfl, rfl⟩ := List.cons.inj heq
          exact .inr (hexValue_blank (hw _ List.mem_cons_self))
        | d :: e :: s => exact (hpercent d e s rfl rfl).elim
    · rw [List.cons_append, decode_cons hc hplus, decode_cons hc hplus, ih, List.append_assoc]

theorem utf8_ne_nil {w : List Char} (h : w ≠ []) : utf8 w ≠ [] := by
  obtain ⟨c, w, rfl⟩ := List.exists_cons_of_ne_nil h
  rw [utf8, List.flatMap_cons]
  exact List.append_ne_nil_of_left_ne_nil String.utf8EncodeChar_ne_nil _

section
variable {w : List Char} (hw : ∀ c ∈ w, isC0ControlOrSpace c = true) (hne : w ≠ [])
include hw

theorem not_mem_append_blank {d : Char} (hd : isC0ControlOrSpace d = false) (h : d ∉ s) :
    d ∉ s ++ w := by
  intro hmem
  rcases List.mem_append.1 hmem with hmem | hmem
  · exact h hmem
  · exact blank_ne (hw d hmem) hd rfl

include hne

theorem decode_blank_ne (s : List Char) : decode (s ++ w) ≠ decode s := by
  intro heq
  rw [decode_append_blank hw] at heq
  exact utf8_ne_nil hne (List.append_cancel_left (heq.trans (List.append_nil _).symm))

theorem pairOf_blank_ne (last : List Char) : pairOf (last ++ w) ≠ pairOf last := by
  intro heq
  rw [pairOf, pairOf] at heq
  by_cases hmem : '=' ∈ last
  · obtain ⟨a, b, rfl, ha⟩ := List.eq_append_cons_of_mem hmem
    rw [List.append_assoc, List.cons_append, splitOnceAt_append ha, splitOnceAt_append ha] at heq
    exact decode_blank_ne hw hne b (Prod.mk.inj heq).2
  · have hnone : '=' ∉ last ++ w := not_mem_append_blank hw rfl hmem
    rw [splitOnceAt, splitOnceAt, if_neg hmem, if_neg hnone] at heq
    exact decode_blank_ne hw hne last (Prod.mk.inj heq).1

theorem pairs_piece_ne {last : List Char} (h : '&' ∉ last) : pairs (last ++ w) ≠ pairs last := by
  have hsome : (last ++ w).isEmpty = false := by simp [hne]
  rw [pairs_piece h, pairs_piece (not_mem_append_blank hw rfl h), hsome, if_neg nofun]
  split
  · exact List.cons_ne_nil _ _
  · exact fun heq => pairOf_blank_ne hw hne last (List.cons.inj heq).1

/-- **a blank behind a query changes its last pair** -/
theorem pairs_ne (q : List Char) : pairs (q ++ w) ≠ pairs q := by
  by_cases hmem : '&' ∈ q
  · -- the last piece stands before the first separator of the reversed query
    obtain ⟨a, b, hq, ha⟩ := List.eq_append_cons_of_mem (List.mem_reverse.2 hmem)
    have hq : q = b.reverse ++ '&' :: a.reverse := by
      rw [← List.reverse_reverse q, hq]
      simp
    intro heq
    rw [hq, List.append_assoc, List.cons_append, pairs_append, pairs_append] at heq
    exact pairs_piece_ne hw hne (fun h => ha (List.mem_reverse.1 h)) (List.append_cancel_left heq)
  · exact pairs_piece_ne hw hne hmem

end

end

end Voisu.Lib.Query
