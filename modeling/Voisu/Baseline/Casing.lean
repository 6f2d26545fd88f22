import Mathlib
import Voisu.Baseline.Tokens
import Voisu.Lib.Casing
import Voisu.Lib.Lines

/-!
# The case of sentences, of `i` and of the days of the week

The casing pass of `local_baseline.rs`.  It compares a token without the punctuation around it, its
core, and writes from the first character of the whole token on.

* `applySentenceAndWeekdayCasing`   the pass, a loop over the tokens that writes into the characters;
* `recaseAt_frame`                  a token is rewritten in its own place;
* `foldl_recase`                    what the loop makes of a text, token by token;
* `Aligned`                         a token whose core is rewritten begins with its core;
* `casing_keeps_iff`                **the pass changes nothing but case exactly when every token is
                                    aligned.**
-/

namespace Voisu.Baseline
open Lib

/-! ## protected tokens -/

def closesToken (c : Char) : Bool := [',', '.', '!', '?', ';', ')', ']', '\x7d', '"', '\''].contains c
def opensToken (c : Char) : Bool := ['(', '[', '\x7b', '"', '\''].contains c

/-- `t` begins with a dash and an ASCII letter or digit -/
def isShortFlag : Text → Bool
  | '-' :: b :: _ => isAsciiAlphanumeric b
  | _ => false

/-- paths, addresses and code keep their case -/
def isProtectedCaseToken (tok : Text) : Bool :=
  let t := trimStartMatches opensToken (trimEndMatches closesToken tok)
  !t.isEmpty &&
    (startsWith t "http://".toList || startsWith t "https://".toList || t.contains '@' ||
      startsWith t "./".toList || startsWith t "../".toList || startsWith t "~/".toList ||
      (startsWith t "/".toList && decide (1 < byteLen t)) ||
      (t.contains '/' && t.head?.any (fun c => isAlphanumeric c || c == '.')) ||
      contains t "::".toList || startsWith t "--".toList || isShortFlag t)

/-! ## the pass -/

def weekdays : List Text :=
  ["monday".toList, "tuesday".toList, "wednesday".toList, "thursday".toList, "friday".toList,
    "saturday".toList, "sunday".toList]

def isSentenceOrLineStart (text : Text) (byteIdx : Nat) : Bool :=
  let before := ((cut byteIdx text).map Prod.fst).getD []
  byteIdx == 0 || before.getLast? == some '\n' ||
    (trimEndMatches (fun c => c == ' ' || c == '\t') before).getLast?.any
      fun c => c == '.' || c == '!' || c == '?'

/-- the number of characters before an offset, `0` inside a character -/
def byteToChar (text : Text) (off : Nat) : Nat := ((cut off text).map fun p => p.1.length).getD 0

/-- a token without the characters around it that are neither letters nor digits of ASCII -/
def core (tok : Text) : Text := trimMatches (fun c => !isAsciiAlphanumeric c) tok

def isPronoun (tok : Text) : Bool := core tok == ['i'] || core tok == ['I']

def isWeekday (tok : Text) : Bool := weekdays.any (eqIgnoreAsciiCase (core tok))

/-- the characters from `i` on are overwritten, as far as there are any -/
def overwrite (chars : Text) (i : Nat) : Text → Text
  | [] => chars
  | c :: cs => overwrite (chars.set i c) (i + 1) cs

def uppercaseLetter (c : Char) : Char := if isAlphabetic c then toAsciiUppercase c else c

/-- one round of the loop, for a token whose first character has the index `cs` -/
def recaseAt (text : Text) (capitalizeWeekdays : Bool) (tok : Token) (cs : Nat) (chars : Text) :
    Text :=
  if isProtectedCaseToken tok.text then chars
  else if isSentenceOrLineStart text tok.start then chars.modify cs uppercaseLetter
  else if isPronoun tok.text then chars.set cs 'I'
  else if capitalizeWeekdays && isWeekday tok.text then
    overwrite (chars.modify cs toAsciiUppercase) (cs + 1) ((core tok.text).tail.map toAsciiLowercase)
  else chars

def recaseStep (text : Text) (capitalizeWeekdays : Bool) (chars : Text) (tok : Token) : Text :=
  recaseAt text capitalizeWeekdays tok (byteToChar text tok.start) chars

def applySentenceAndWeekdayCasing (text : Text) (capitalizeWeekdays : Bool) : Text :=
  (wordTokens text).foldl (recaseStep text capitalizeWeekdays) text

/-! ## writes stay inside the token -/

theorem modify_frame (f : Char → Char) (a s b : Text) (i : Nat) (hi : i < s.length) :
    (a ++ s ++ b).modify (a.length + i) f = a ++ s.modify i f ++ b := by
  induction a with
  | cons c a ih =>
    rw [List.length_cons, Nat.add_right_comm]
    simp only [List.cons_append, List.modify_succ_cons]
    rw [ih]
  | nil =>
    simp only [List.nil_append, List.length_nil, Nat.zero_add]
    induction s generalizing i with
    | nil => exact absurd hi (Nat.not_lt_zero i)
    | cons c s ih =>
      cases i with
      | zero => rfl
      | succ i =>
        simp only [List.cons_append, List.modify_succ_cons]
        rw [ih i (Nat.lt_of_succ_lt_succ hi)]

theorem set_frame (x : Char) (a s b : Text) (i : Nat) (hi : i < s.length) :
    (a ++ s ++ b).set (a.length + i) x = a ++ s.set i x ++ b := by
  rw [List.append_assoc, List.set_append_right _ _ (by omega), Nat.add_sub_cancel_left,
    List.set_append_left _ _ hi, List.append_assoc]

theorem overwrite_frame (r a s b : Text) (i : Nat) (hi : i + r.length ≤ s.length) :
    overwrite (a ++ s ++ b) (a.length + i) r = a ++ overwrite s i r ++ b := by
  induction r generalizing s i with
  | nil => rfl
  | cons x r ih =>
    rw [List.length_cons] at hi
    unfold overwrite
    rw [set_frame x a s b i (by omega), Nat.add_assoc]
    exact ih (s.set i x) (i + 1) (by rw [List.length_set]; omega)

@[simp] theorem overwrite_length (r s : Text) (i : Nat) : (overwrite s i r).length = s.length := by
  induction r generalizing s i with
  | nil => rfl
  | cons x r ih => rw [overwrite, ih, List.length_set]

theorem core_length_le (tok : Text) : (core tok).length ≤ tok.length := by
  obtain ⟨g, g', h, -, -⟩ := trimMatches_split (fun c => !isAsciiAlphanumeric c) tok
  have hlen := congrArg List.length h
  simp only [List.length_append] at hlen
  unfold core
  omega

theorem recaseAt_frame (text : Text) (w : Bool) (tok : Token) (hne : tok.text ≠ []) (a b : Text) :
    recaseAt text w tok a.length (a ++ tok.text ++ b) =
      a ++ recaseAt text w tok 0 tok.text ++ b := by
  have hpos : 0 < tok.text.length := List.length_pos_iff.mpr hne
  unfold recaseAt
  split
  · rfl
  · split
    · exact modify_frame _ a tok.text b 0 hpos
    · split
      · exact set_frame _ a tok.text b 0 hpos
      · split
        · have hlen := core_length_le tok.text
          rw [show a.length = a.length + 0 from rfl, modify_frame _ a tok.text b 0 hpos]
          apply overwrite_frame
          rw [List.length_map, List.length_tail, List.length_modify]
          omega
        · rfl

theorem recaseAt_length (text : Text) (w : Bool) (tok : Token) (cs : Nat) (chars : Text) :
    (recaseAt text w tok cs chars).length = chars.length := by
  unfold recaseAt
  split
  · rfl
  · split
    · rw [List.length_modify]
    · split
      · rw [List.length_set]
      · split
        · rw [overwrite_length, List.length_modify]
        · rfl

/-! ## the whole loop -/

theorem byteToChar_append (a b : Text) : byteToChar (a ++ b) (byteLen a) = a.length := by
  rw [byteToChar, cut_append]
  rfl

/-- the token is rewritten in case only -/
def KeepsToken (text : Text) (w : Bool) (tok : Token) : Prop :=
  asciiLowercase (recaseAt text w tok 0 tok.text) = asciiLowercase tok.text

/-- **the tokens are rewritten one by one**; `done` is what became of the text before them -/
theorem foldl_recase (text : Text) (w : Bool) {s : Text} {toks : List Token} (before done : Text)
    (htext : text = before ++ s) (hdone : done.length = before.length)
    (h : Runs notWhitespace (byteLen before) s toks) :
    ∃ t, toks.foldl (recaseStep text w) (done ++ s) = done ++ t ∧ t.length = s.length ∧
      (asciiLowercase t = asciiLowercase s ↔ ∀ tok ∈ toks, KeepsToken text w tok) := by
  induction toks generalizing before done s with
  | nil => exact ⟨s, rfl, rfl, by simp⟩
  | cons tok toks ih =>
    obtain ⟨g, rest, rfl, hstart, -, -, hne, -, hrest⟩ := h.cons_inv
    have hcs : byteToChar text tok.start = (done ++ g).length := by
      rw [htext, ← hstart, ← byteLen_append, List.append_assoc g, ← List.append_assoc before,
        byteToChar_append, List.length_append, List.length_append, hdone]
    have hstep : recaseStep text w (done ++ (g ++ tok.text ++ rest)) tok =
        done ++ g ++ recaseAt text w tok 0 tok.text ++ rest := by
      rw [recaseStep, hcs, List.append_assoc g, ← List.append_assoc done,
        ← List.append_assoc (done ++ g)]
      exact recaseAt_frame text w tok hne (done ++ g) rest
    have hlen := recaseAt_length text w tok 0 tok.text
    obtain ⟨t, ht, htl, hiff⟩ := @ih rest (before ++ g ++ tok.text)
      (done ++ g ++ recaseAt text w tok 0 tok.text) (by rw [htext]; simp)
      (by simp only [List.length_append, hdone, hlen])
      (by rwa [byteLen_append, byteLen_append, hstart])
    refine ⟨g ++ recaseAt text w tok 0 tok.text ++ t, ?_, ?_, ?_⟩
    · rw [List.foldl_cons, hstep, ht]
      simp only [List.append_assoc]
    · simp only [List.length_append, hlen, htl]
    · rw [List.forall_mem_cons, ← hiff, KeepsToken]
      simp only [asciiLowercase_append, List.append_assoc, List.append_cancel_left_eq]
      have hsame : (asciiLowercase (recaseAt text w tok 0 tok.text)).length =
          (asciiLowercase tok.text).length := by simp only [asciiLowercase, List.length_map, hlen]
      exact ⟨fun h => List.append_inj h hsame, fun h => by rw [h.1, h.2]⟩

/-! ## one token -/

/-- a token whose core the pass rewrites begins with its core -/
def Aligned (text : Text) (w : Bool) (tok : Token) : Prop :=
  isProtectedCaseToken tok.text = false → isSentenceOrLineStart text tok.start = false →
    (isPronoun tok.text || (w && isWeekday tok.text)) = true →
    tok.text.head?.any isAsciiAlphanumeric = true

theorem asciiLowercase_modify {f : Char → Char} (hf : ∀ c, toAsciiLowercase (f c) = toAsciiLowercase c)
    (s : Text) : asciiLowercase (s.modify 0 f) = asciiLowercase s := by
  cases s with
  | nil => rfl
  | cons c s => simp [asciiLowercase, hf]

theorem toAsciiLowercase_uppercaseLetter (c : Char) :
    toAsciiLowercase (uppercaseLetter c) = toAsciiLowercase c := by
  unfold uppercaseLetter
  split
  · exact toAsciiLowercase_upper c
  · rfl

/-- a character that is neither a letter nor a digit stays as it is -/
theorem toAsciiLowercase_other {c : Char} (h : isAsciiAlphanumeric c = false) :
    toAsciiLowercase c = c := by
  have hup : isAsciiUppercase c = false := by
    simp only [isAsciiAlphanumeric, isAsciiAlphabetic, Bool.or_eq_false_iff] at h
    exact h.1.1
  rw [toAsciiLowercase, hup]
  rfl

/-- what stands before the core of a token and behind it -/
theorem core_split (tok : Text) : ∃ g g', tok = g ++ core tok ++ g' ∧
    ∀ c ∈ g, isAsciiAlphanumeric c = false := by
  obtain ⟨g, g', h, hg, -⟩ := trimMatches_split (fun c => !isAsciiAlphanumeric c) tok
  refine ⟨g, g', h, fun c hc => ?_⟩
  simpa using List.all_eq_true.mp hg c hc

example : core "(Monday),".toList = "Monday".toList := by decide +kernel

theorem core_of_head {c : Char} {r : Text} (hc : isAsciiAlphanumeric c = true) :
    ∃ g', c :: r = core (c :: r) ++ g' := by
  obtain ⟨g, g', h, hg⟩ := core_split (c :: r)
  cases g with
  | nil => exact ⟨g', h⟩
  | cons d g =>
    have hcd : c = d := (List.cons.inj h).1
    rw [hcd, hg d List.mem_cons_self] at hc
    cases hc

/-- a core that does not begin its token stands behind a character of another kind -/
theorem core_of_other {c : Char} {rest : Text} (hc : isAsciiAlphanumeric c = false)
    (hcore : (core (c :: rest)).head?.any isAsciiAlphanumeric = true) :
    ∃ g g', rest = g ++ core (c :: rest) ++ g' ∧ ∀ d ∈ g, isAsciiAlphanumeric d = false := by
  obtain ⟨g, g', h, hg⟩ := core_split (c :: rest)
  cases g with
  | cons d g =>
    exact ⟨g, g', (List.cons.inj h).2, fun e he => hg e (List.mem_cons_of_mem d he)⟩
  | nil =>
    rw [List.nil_append] at h
    generalize core (c :: rest) = k at h hcore
    cases k with
    | nil => cases hcore
    | cons e k =>
      have hce : c = e := (List.cons.inj h).1
      rw [← hce] at hcore
      simp [hc] at hcore

theorem keepsPronoun_iff {c : Char} {rest : Text} (h : isPronoun (c :: rest) = true) :
    asciiLowercase ((c :: rest).set 0 'I') = asciiLowercase (c :: rest) ↔
      isAsciiAlphanumeric c = true := by
  have hcase : asciiLowercase ((c :: rest).set 0 'I') = asciiLowercase (c :: rest) ↔
      toAsciiLowercase c = 'i' := by
    simp only [List.set_cons_zero, asciiLowercase, List.map_cons, List.cons.injEq, and_true]
    exact eq_comm
  rw [hcase]
  constructor
  · intro hi
    by_contra hc
    rw [Bool.not_eq_true] at hc
    rw [toAsciiLowercase_other hc] at hi
    rw [hi] at hc
    revert hc
    decide
  · intro hc
    obtain ⟨g', hg'⟩ := core_of_head (r := rest) hc
    simp only [isPronoun, Bool.or_eq_true, beq_iff_eq] at h
    obtain h | h := h <;> rw [h] at hg' <;> rw [(List.cons.inj hg').1] <;> decide

/-- no day of the week begins with the same letter twice -/
theorem isWeekday_core {tok : Text} (h : isWeekday tok = true) : ∃ x y r, core tok = x :: y :: r ∧
    toAsciiLowercase y ≠ toAsciiLowercase x ∧ isAsciiAlphanumeric (toAsciiLowercase y) = true := by
  obtain ⟨day, hday, heq⟩ := List.any_eq_true.mp h
  have hlow : asciiLowercase (core tok) = asciiLowercase day := by
    simpa [eqIgnoreAsciiCase] using heq
  have hdays : ∀ d ∈ weekdays, ∃ x y r, asciiLowercase d = x :: y :: r ∧ y ≠ x ∧
      isAsciiAlphanumeric y = true := by
    intro d hd
    simp only [weekdays, List.mem_cons, List.not_mem_nil, or_false] at hd
    obtain rfl | rfl | rfl | rfl | rfl | rfl | rfl := hd <;>
      exact ⟨_, _, _, rfl, by decide, by decide⟩
  obtain ⟨x, y, r, hxyr, hne, hy⟩ := hdays day hday
  rw [hxyr] at hlow
  obtain ⟨a, s, hcore, ha, hs⟩ := List.map_eq_cons_iff.mp hlow
  obtain ⟨b, s', rfl, hb, -⟩ := List.map_eq_cons_iff.mp hs
  exact ⟨a, b, s', hcore, by rw [ha, hb]; exact hne, by rw [hb]; exact hy⟩

example : isWeekday "'FRIDAY'".toList = true := by decide +kernel

theorem overwrite_cover (c : Char) (k r g : Text) (hk : k.length = r.length) :
    overwrite (c :: (k ++ g)) 1 r = c :: (r ++ g) := by
  have h := overwrite_frame r [c] k g 0 (by omega)
  have hall : ∀ (k r : Text), k.length = r.length → overwrite k 0 r = r := by
    intro k
    induction k with
    | nil =>
      intro r hr
      rw [List.length_eq_zero_iff.mp hr.symm]
      rfl
    | cons a k ih =>
      intro r hr
      cases r with
      | nil => cases hr
      | cons b r =>
        have h := overwrite_frame r [b] k [] 0 (by simp only [List.length_cons] at hr; omega)
        rw [ih r (Nat.succ.inj hr)] at h
        simpa [overwrite] using h
  rw [hall k r hk] at h
  simpa using h

/-- the second character after the rewrite of a weekday -/
theorem overwrite_second (c d y : Char) (rest r : Text) :
    (overwrite (c :: d :: rest) 1 (y :: r))[1]? = some y := by
  have hkeep : ∀ (r s : Text) (i : Nat), 1 < i → (overwrite s i r)[1]? = s[1]? := by
    intro r
    induction r with
    | nil => intro s i hi; rfl
    | cons x r ih =>
      intro s i hi
      rw [overwrite, ih (s.set i x) (i + 1) (by omega), List.getElem?_set_ne (by omega)]
  rw [overwrite, hkeep r _ 2 (by omega)]
  rfl

theorem keepsWeekday_iff {c : Char} {rest : Text} (h : isWeekday (c :: rest) = true) :
    asciiLowercase (overwrite ((c :: rest).modify 0 toAsciiUppercase) 1
        ((core (c :: rest)).tail.map toAsciiLowercase)) = asciiLowercase (c :: rest) ↔
      isAsciiAlphanumeric c = true := by
  obtain ⟨x, y, r, hcore, hxy, hy⟩ := isWeekday_core h
  rw [List.modify_zero_cons, hcore, List.tail_cons]
  constructor
  · intro heq
    by_contra hc
    rw [Bool.not_eq_true] at hc
    have hx : isAsciiAlphanumeric x = true := by
      have htrim := (trimMatches_trimmed (fun c => !isAsciiAlphanumeric c) (c :: rest)).1
      rw [show trimMatches (fun c => !isAsciiAlphanumeric c) (c :: rest) = core (c :: rest) from rfl,
        hcore] at htrim
      simpa [headSep] using htrim
    obtain ⟨g, g', hrest, hg⟩ := core_of_other hc (by rw [hcore]; simpa using hx)
    rw [hcore] at hrest
    -- the character behind the first is compared
    obtain ⟨d, s, rfl, hd⟩ : ∃ d s, rest = d :: s ∧ toAsciiLowercase d ≠ toAsciiLowercase y := by
      cases g with
      | nil => exact ⟨x, _, hrest, Ne.symm hxy⟩
      | cons d g =>
        refine ⟨d, _, hrest, fun hdy => ?_⟩
        have hd := hg d List.mem_cons_self
        rw [toAsciiLowercase_other hd] at hdy
        rw [hdy, hy] at hd
        cases hd
    have hsecond := congrArg (·[1]?) heq
    simp only [asciiLowercase, List.getElem?_map] at hsecond
    rw [List.map_cons, overwrite_second] at hsecond
    simp only [Option.map_some, toAsciiLowercase_lower, List.getElem?_cons_succ,
      List.getElem?_cons_zero, Option.some.injEq] at hsecond
    exact hd hsecond.symm
  · intro hc
    obtain ⟨g', hg'⟩ := core_of_head (r := rest) hc
    rw [hcore, List.cons_append] at hg'
    obtain ⟨rfl, rfl⟩ := List.cons.inj hg'
    rw [overwrite_cover _ (y :: r) _ g' (by simp)]
    simp [asciiLowercase, toAsciiLowercase_upper, toAsciiLowercase_lower, Function.comp_def]

theorem keepsToken_iff (text : Text) (w : Bool) (tok : Token) (hne : tok.text ≠ []) :
    KeepsToken text w tok ↔ Aligned text w tok := by
  unfold KeepsToken recaseAt
  by_cases hprot : isProtectedCaseToken tok.text = true
  · simp [Aligned, hprot]
  by_cases hstart : isSentenceOrLineStart text tok.start = true
  · simp [Aligned, hprot, hstart, asciiLowercase_modify toAsciiLowercase_uppercaseLetter]
  obtain ⟨c, rest, htok⟩ := List.exists_cons_of_ne_nil hne
  rw [if_neg hprot, if_neg hstart]
  rw [Bool.not_eq_true] at hprot hstart
  have haligned (h : (isPronoun tok.text || (w && isWeekday tok.text)) = true) :
      Aligned text w tok ↔ isAsciiAlphanumeric c = true := by
    constructor
    · intro ha
      simpa [htok] using ha hprot hstart h
    · intro hc _ _ _
      simpa [htok] using hc
  by_cases hpro : isPronoun tok.text = true
  · rw [if_pos hpro, haligned (by rw [hpro, Bool.true_or])]
    rw [htok] at hpro ⊢
    exact keepsPronoun_iff hpro
  by_cases hday : (w && isWeekday tok.text) = true
  · rw [if_neg hpro, if_pos hday, haligned (by rw [hday, Bool.or_true])]
    have hweek : isWeekday tok.text = true := (Bool.and_eq_true_iff.mp hday).2
    rw [htok] at hweek ⊢
    exact keepsWeekday_iff hweek
  · rw [if_neg hpro, if_neg hday]
    simp [Aligned, hpro, hday]

/-- **the pass changes nothing but case exactly when every token is aligned** -/
theorem casing_keeps_iff (text : Text) (w : Bool) :
    asciiLowercase (applySentenceAndWeekdayCasing text w) = asciiLowercase text ↔
      ∀ tok ∈ wordTokens text, Aligned text w tok := by
  obtain ⟨t, ht, -, hiff⟩ := foldl_recase text w [] [] rfl rfl (runs_spec notWhitespace 0 text)
  rw [applySentenceAndWeekdayCasing, wordTokens]
  rw [List.nil_append, List.nil_append] at ht
  rw [ht, hiff]
  refine forall₂_congr fun tok htok => keepsToken_iff text w tok ?_
  exact (words_all (List.mem_map_of_mem htok)).1

/-- behind a quotation mark the day is written one character too early -/
theorem quotedMonday_rewritten :
    applySentenceAndWeekdayCasing "on \"monday\"".toList true = "On \"ondayy\"".toList ∧
      asciiLowercase (applySentenceAndWeekdayCasing "on \"monday\"".toList true) ≠
        asciiLowercase "on \"monday\"".toList := by
  decide +kernel

end Voisu.Baseline
