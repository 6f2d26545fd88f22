import Mathlib
import Voisu.Formatting.Layout
import Voisu.Formatting.Smart
import Voisu.Lib.Letters

/-!
# The letters and digits through the passes

Every pass moves punctuation, white space and ASCII case about.  Two of them also put a part of the
text together again from its words, and a word is ASCII: there the characters that are letters or
digits and not ASCII are lost.

* `plain s`                       the ASCII letters and digits of a text, ignoring case;
* `letters_eq_plain`              the letters and digits are the plain ones when none is foreign;
* `letters_tryBulletInference`, …, `letters_addTerminalPunctuation`
                                  the passes that keep all letters and digits;
* `letters_enumeration`, `letters_applyEmailHiName`
                                  what the other two keep.
-/

namespace Voisu.Formatting
open Lib

/-! ## plain and foreign characters -/

def plain (s : Text) : Text := asciiLowercase (s.filter isWordChar)

/-- a letter or digit that is not ASCII -/
def isForeign (c : Char) : Bool := isAlphanumeric c && !isWordChar c

theorem plain_append (s t : Text) : plain (s ++ t) = plain s ++ plain t := by
  simp [plain, asciiLowercase]

theorem plain_gap {s : Text} (h : ∀ c ∈ s, isWordChar c = false) : plain s = [] := by
  have hnone : s.filter isWordChar = [] :=
    List.filter_eq_nil_iff.mpr fun c hc => by rw [h c hc]; exact Bool.false_ne_true
  rw [plain, hnone]
  rfl

theorem letters_eq_plain {s : Text} (h : s.any isForeign = false) : letters s = plain s := by
  have hagree : s.filter isAlphanumeric = s.filter isWordChar := by
    apply List.filter_congr
    intro c hc
    have hforeign := List.any_eq_false.mp h c hc
    by_cases hword : isWordChar c = true
    · rw [hword, isAlphanumeric_of_ascii hword]
    · simpa [isForeign, hword] using hforeign
  rw [letters, hagree, plain]

example : plain "A-é1".toList = "a1".toList := by decide +kernel

/-- a foreign character is a letter or digit that is not plain -/
theorem letters_length (s : Text) :
    (letters s).length = (plain s).length + s.countP isForeign := by
  induction s with
  | nil => rfl
  | cons c s ih =>
    rw [letters_cons, show plain (c :: s) = plain [c] ++ plain s from plain_append [c] s,
      List.length_append, List.length_append, List.countP_cons, ih]
    by_cases hword : isWordChar c = true
    · have hc := isAlphanumeric_of_ascii hword
      simp [letters, plain, asciiLowercase, isForeign, hword, hc]
      omega
    · by_cases hc : isAlphanumeric c = true
      · simp [letters, plain, asciiLowercase, isForeign, hword, hc]
        omega
      · simp [letters, plain, asciiLowercase, isForeign, hword, hc]

theorem isAlphanumeric_of_apostrophe {c : Char} (h : isApostrophe c = true) :
    isAlphanumeric c = false := by
  simp only [isApostrophe, Bool.or_eq_true, beq_iff_eq] at h
  rcases h with rfl | rfl <;> decide +kernel

theorem not_foreign_of_word {s : Text}
    (h : ∀ c ∈ s, isWordChar c = true ∨ isApostrophe c = true) : s.any isForeign = false := by
  apply List.any_eq_false.mpr
  intro c hc
  rcases h c hc with hword | hmark
  · simp [isForeign, hword]
  · simp [isForeign, isAlphanumeric_of_apostrophe hmark]

/-- the words of a text hold its plain characters -/
theorem WordLayout.plain_eq {off : Nat} {s : Text} {toks : List Token} (h : WordLayout off s toks) :
    toks.flatMap (fun tok => letters tok.text) = plain s := by
  induction toks generalizing off s with
  | nil => exact (plain_gap h.nil).symm
  | cons tok toks ih =>
    obtain ⟨g, rest, rfl, -, hg, ht, -, -, hrest⟩ := h.cons
    rw [List.flatMap_cons, ih hrest, plain_append, plain_append, plain_gap hg, List.nil_append,
      letters_eq_plain (not_foreign_of_word ht)]

/-! ## slices -/

theorem textTo_append {n : Nat} {a b : Text} (h : byteLen a = n) : textTo n (a ++ b) = a := by
  rw [textTo, ← h, cut_append]
  rfl

theorem textFrom_append {n : Nat} {a b : Text} (h : byteLen a = n) : textFrom n (a ++ b) = b := by
  rw [textFrom, ← h, cut_append]
  rfl

/-- a rewrite of the words that keeps the letters of each keeps those of the text -/
theorem letters_mapWordsFrom {f : Token → Text} (hf : ∀ tok, letters (f tok) = letters tok.text)
    {off : Nat} {s : Text} {toks : List Token} (h : WordLayout off s toks) :
    letters (mapWordsFrom f off s toks) = letters s := by
  induction toks generalizing off s with
  | nil => rfl
  | cons tok toks ih =>
    obtain ⟨g, rest, rfl, hstart, -, -, -, -, hrest⟩ := h.cons
    have hto : textTo (tok.start - off) (g ++ tok.text ++ rest) = g := by
      rw [List.append_assoc]
      exact textTo_append (by omega)
    have hfrom : textFrom (tok.stop - off) (g ++ tok.text ++ rest) = rest := by
      apply textFrom_append
      rw [byteLen_append, Run.stop]
      omega
    rw [mapWordsFrom, hto, hfrom]
    simp only [letters_append, hf, ih hrest]

theorem letters_mapWords {f : Token → Text} (hf : ∀ tok, letters (f tok) = letters tok.text)
    (s : Text) : letters (mapWords f s) = letters s :=
  letters_mapWordsFrom hf (wordTokens_layout s)

/-! ## matches that ignore case -/

theorem asciiLowercase_lower (s : Text) : asciiLowercase (asciiLowercase s) = asciiLowercase s := by
  simp [asciiLowercase, toAsciiLowercase_lower]

theorem letters_of_lower_eq {s w : Text} (h : asciiLowercase s = w) : letters s = letters w := by
  apply letters_of_lower
  rw [← h, asciiLowercase_lower]

theorem lower_take {s w : Text} (h : startsWith (asciiLowercase s) w = true) :
    asciiLowercase (s.take w.length) = w := by
  obtain ⟨rest, hrest⟩ := List.isPrefixOf_iff_prefix.mp h
  rw [asciiLowercase, List.map_take]
  show (asciiLowercase s).take w.length = w
  rw [← hrest, List.take_left]

theorem lower_drop {s w : Text} (h : endsWith (asciiLowercase s) w = true) :
    asciiLowercase (s.drop (s.length - w.length)) = w := by
  obtain ⟨front, hfront⟩ := List.isSuffixOf_iff_suffix.mp h
  have hlen : s.length = front.length + w.length := by
    rw [← List.length_append, hfront, asciiLowercase, List.length_map]
  rw [asciiLowercase, List.map_drop]
  show (asciiLowercase s).drop (s.length - w.length) = w
  rw [← hfront, hlen, Nat.add_sub_cancel, List.drop_left]

theorem letters_take_drop {s w : Text} (h : startsWith (asciiLowercase s) w = true) :
    letters s = letters w ++ letters (s.drop w.length) := by
  rw [← letters_of_lower_eq (lower_take h), ← letters_append, List.take_append_drop]

theorem letters_trimEnd_tail (p : Char → Bool) (s : Text) :
    letters (trimEndMatches p s) ++ letters (s.drop (trimEndMatches p s).length) = letters s := by
  obtain ⟨g, hg, -, -⟩ := trimEndMatches_split p s
  rw [← letters_append, List.prefix_iff_eq_append.mp ⟨g, hg.symm⟩]

/-! ## a shopping list -/

theorem letters_bulletItems {ws items : List Text} (h : bulletItems ws = some items) :
    items.flatMap letters = ws.flatMap letters := by
  induction ws generalizing items with
  | nil =>
    obtain rfl := Option.some.inj h
    rfl
  | cons w ws ih =>
    have hcomma : letters (trimMatches (· == ',') w) = letters w := by
      apply letters_trimMatches
      intro c hc
      rw [show c = ',' by simpa using hc]
      decide
    simp only [bulletItems] at h
    split at h
    · rename_i hempty
      rw [List.isEmpty_iff.mp hempty] at hcomma
      rw [ih h, List.flatMap_cons, ← hcomma]
      rfl
    · split at h
      · obtain ⟨rest, hrest, rfl⟩ := Option.map_eq_some_iff.mp h
        rw [List.flatMap_cons, List.flatMap_cons, hcomma, ih hrest]
      · cases h

theorem letters_renderBullets (items : List Text) :
    letters (renderBullets items) = "buy".toList ++ items.flatMap letters := by
  have hmark : letters "\n- ".toList = [] := by decide
  rw [renderBullets, letters_append, letters_flatMap]
  simp only [letters_append, hmark, List.nil_append]
  congr 1

theorem letters_tryBulletInference {text bullets : Text} {protection : Mask}
    (h : tryBulletInference text protection = some bullets) : letters bullets = letters text := by
  unfold tryBulletInference at h
  split at h
  · cases h
  · rw [← letters_splitWhitespace text]
    split at h
    · cases h
    · rename_i first rest heq
      split at h
      · cases h
      · rename_i hguard
        have hbuy : asciiLowercase first = "buy".toList := by
          simp only [isWord, Bool.or_eq_true, not_or, List.any_cons, List.any_nil] at hguard
          simpa using hguard.1.1
        split at h
        · cases h
        · rename_i items hitems
          split at h
          · cases h
          · obtain rfl := Option.some.inj h
            rw [letters_renderBullets, letters_bulletItems hitems, heq, List.flatMap_cons,
              letters_of_lower_eq hbuy]
            rfl

/-! ## the update of an email -/

theorem splitAtCi_eq_some {word text before after : Text}
    (h : splitAtCi word text = some (before, after)) :
    ∃ w, text = before ++ w ++ after ∧ asciiLowercase w = word := by
  induction text generalizing before with
  | nil => cases h
  | cons c text ih =>
    rw [splitAtCi] at h
    split at h
    · rename_i hstarts
      obtain ⟨rfl, rfl⟩ := Prod.mk.inj (Option.some.inj h)
      exact ⟨(c :: text).take word.length, (List.take_append_drop _ _).symm, lower_take hstarts⟩
    · obtain ⟨⟨before', after'⟩, hrest, heq⟩ := Option.map_eq_some_iff.mp h
      obtain ⟨rfl, rfl⟩ := Prod.mk.inj heq
      obtain ⟨w, rfl, hw⟩ := ih hrest
      exact ⟨w, rfl, hw⟩

theorem letters_splitEmailUpdateSentence (text : Text) (protection : Mask) :
    letters (splitEmailUpdateSentence text protection) = letters text := by
  unfold splitEmailUpdateSentence
  split
  · rfl
  · rename_i before after heq
    obtain ⟨w, rfl, hw⟩ := splitAtCi_eq_some heq
    have hlen : w.length = 13 := by
      have := congrArg List.length hw
      rwa [asciiLowercase, List.length_map] at this
    have hsix : ((before ++ w ++ after).drop before.length).take 6 = w.take 6 := by
      rw [List.append_assoc, List.drop_left, List.take_append_of_le_length (by omega)]
    have hupdate : asciiLowercase (w.take 6) = "update".toList := by
      rw [asciiLowercase, List.map_take]
      show (asciiLowercase w).take 6 = _
      rw [hw]
      rfl
    have hwords : letters "update".toList ++ letters ". I will".toList = letters updateIWill := by
      decide
    dsimp only
    split
    · rfl
    · rw [hsix]
      simp only [letters_append, letters_of_lower_eq hupdate, letters_of_lower_eq hw, ← hwords,
        List.append_assoc]

/-! ## a counted enumeration -/

theorem splitAtCount_eq_some {toks before rest : List Token} {count : Token} {n : Nat}
    (h : splitAtCount toks = some (before, count, n, rest)) : toks = before ++ count :: rest := by
  induction toks generalizing before with
  | nil => cases h
  | cons tok toks ih =>
    rw [splitAtCount] at h
    split at h
    · obtain ⟨rfl, rfl, -, rfl⟩ := h
      rfl
    · obtain ⟨⟨before', found⟩, hrest, heq⟩ := Option.map_eq_some_iff.mp h
      obtain ⟨rfl, rfl⟩ := Prod.mk.inj heq
      rw [ih hrest]
      rfl

theorem splitAtLastAnd_eq_some {words before after : List Text}
    (h : splitAtLastAnd words = some (before, after)) :
    ∃ w, words = before ++ w :: after ∧ asciiLowercase w = "and".toList := by
  unfold splitAtLastAnd at h
  split at h
  · rename_i k hk
    obtain ⟨rfl, rfl⟩ := Prod.mk.inj (Option.some.inj h)
    obtain ⟨hlt, hand, -⟩ := List.findIdx?_eq_some_iff_getElem.mp hk
    rw [List.length_reverse] at hlt
    rw [List.getElem_reverse] at hand
    refine ⟨words[words.length - 1 - k], ?_, by simpa [isWord] using hand⟩
    rw [show words.length - k = words.length - 1 - k + 1 by omega, ← List.drop_eq_getElem_cons,
      List.take_append_drop]
  · cases h

theorem letters_leadingItems (before : List Text) (need : Nat) :
    (leadingItems before need).flatMap letters = before.flatMap letters := by
  unfold leadingItems
  dsimp only
  split
  · rfl
  · rw [List.flatMap_cons, joinText, letters_intercalate (by decide), ← List.flatMap_append,
      List.take_append_drop]

theorem letters_enumerationBody (n : Nat) (items : List Text) (last : Text) :
    letters (enumerationBody n items last) =
      items.flatMap letters ++ "and".toList ++ letters last := by
  have hand : letters " and ".toList = "and".toList := by decide
  have hcomma : letters ", and ".toList = "and".toList := by decide
  unfold enumerationBody
  split
  · rw [letters_append, letters_append, joinText, letters_intercalate rfl, hand]
  · rw [letters_append, letters_append, joinText, letters_intercalate (by decide), hcomma]

/-- the text from the first count word on -/
def countRegion (text : Text) : Text :=
  match splitAtCount (wordTokens text) with
  | some (_, count, _) => textFrom count.start text
  | none => []

/-- when an enumeration is put together again, and from what -/
theorem tryCountedEnumeration_eq_some {text out : Text} {protection : Mask}
    (h : tryCountedEnumeration text protection = some out) :
    ∃ before count n noun after items afterAnd,
      splitAtCount (wordTokens text) = some (before, count, n, noun :: after) ∧
      splitAtLastAnd (after.map Run.text) = some (items, afterAnd) ∧
      spanTouchesProtection count.start (byteLen text) protection = false ∧
      out = textTo count.start text ++ count.text ++ [' '] ++ noun.text ++ ": ".toList ++
        enumerationBody n (leadingItems items (n - 1)) (joinText [' '] afterAnd) := by
  simp only [tryCountedEnumeration] at h
  split at h
  · cases h
  · split at h
    · rename_i before count n noun after hcount
      split at h
      · cases h
      · split at h
        · rename_i items afterAnd hand
          split at h
          · cases h
          · split at h
            · cases h
            · split at h
              · cases h
              · rename_i htouch
                exact ⟨before, count, n, noun, after, items, afterAnd, hcount, hand,
                  Bool.eq_false_iff.mpr htouch, (Option.some.inj h).symm⟩
        · cases h
    · cases h

/-- **an enumeration keeps the plain characters of the text from the count on, and no others** -/
theorem letters_enumeration {text out : Text} {protection : Mask}
    (h : tryCountedEnumeration text protection = some out) :
    ∃ front, text = front ++ countRegion text ∧
      letters out = letters front ++ plain (countRegion text) := by
  obtain ⟨before, count, n, noun, after, items, afterAnd, hcount, hand, -, rfl⟩ :=
    tryCountedEnumeration_eq_some h
  have hlayout := wordTokens_layout text
  rw [splitAtCount_eq_some hcount] at hlayout
  obtain ⟨front, rest, htext, hstart, -, hword, -, -, hrest⟩ := hlayout.split
  rw [Nat.zero_add] at hstart
  have hregion : countRegion text = count.text ++ rest := by
    simp only [countRegion, hcount]
    rw [htext, List.append_assoc]
    exact textFrom_append hstart
  have hfront : textTo count.start text = front := by
    rw [htext, List.append_assoc]
    exact textTo_append hstart
  obtain ⟨w, hsplit, hw⟩ := splitAtLastAnd_eq_some hand
  have hwords : after.flatMap (fun tok => letters tok.text) =
      items.flatMap letters ++ ("and".toList ++ afterAnd.flatMap letters) := by
    have hflat := congrArg (List.flatMap letters) hsplit
    rw [List.flatMap_map, List.flatMap_append, List.flatMap_cons, letters_of_lower_eq hw] at hflat
    exact hflat
  have hplain : plain (countRegion text) = letters count.text ++ (letters noun.text ++
      (items.flatMap letters ++ ("and".toList ++ afterAnd.flatMap letters))) := by
    rw [hregion, plain_append, ← hrest.plain_eq, List.flatMap_cons, hwords,
      ← letters_eq_plain (not_foreign_of_word hword)]
  have hspace : letters [' '] = [] := by decide
  have hcolon : letters ": ".toList = [] := by decide
  refine ⟨front, by rw [hregion, ← List.append_assoc]; exact htext, ?_⟩
  rw [hplain, hfront]
  simp only [letters_append, hspace, hcolon, letters_enumerationBody, letters_leadingItems, joinText,
    letters_intercalate hspace, List.nil_append, List.append_assoc]

/-! ## the greeting of an email -/

theorem letters_capitalizeWord (w : Text) : letters (capitalizeWord w) = letters w := by
  cases w with
  | nil => rfl
  | cons c w => exact letters_upper_cons c w

example : capitalizeWord "bob".toList = "Bob".toList := by decide +kernel

/-- the text begins with `hi` and a name -/
def greetsByName (text : Text) (protection : Mask) : Bool :=
  match wordTokens text with
  | hi :: name :: _ => tokenIs "hi" hi && name.text.all isAsciiAlphabetic &&
      !spanTouchesProtection hi.start name.stop protection
  | _ => false

/-- the text before its second word -/
def beforeName (text : Text) : Text :=
  match wordTokens text with
  | _ :: name :: _ => textTo name.start text
  | _ => []

theorem applyEmailHiName_of_not_greets {text : Text} {protection : Mask}
    (h : greetsByName text protection = false) : applyEmailHiName text protection = text := by
  unfold greetsByName at h
  unfold applyEmailHiName
  split
  · rename_i hi name rest heq
    simp only [heq, Bool.and_eq_false_iff, Bool.not_eq_false'] at h
    rw [if_pos]
    simp only [Bool.or_eq_true, Bool.not_eq_true']
    exact h
  · rfl

/-- **a greeting keeps the plain characters of the text before the name, and no others** -/
theorem letters_applyEmailHiName {text : Text} {protection : Mask}
    (h : greetsByName text protection = true) :
    ∃ rest, text = beforeName text ++ rest ∧
      letters (applyEmailHiName text protection) = plain (beforeName text) ++ letters rest := by
  unfold greetsByName at h
  split at h
  · rename_i hi name toks heq
    simp only [Bool.and_eq_true, Bool.not_eq_true'] at h
    obtain ⟨⟨hhi, hname⟩, htouch⟩ := h
    have hlayout := wordTokens_layout text
    rw [heq] at hlayout
    obtain ⟨g, rest, htext, hstart, hg, hword, -, -, hrest⟩ := hlayout.cons
    obtain ⟨g', rest', rfl, hstart', hg', hword', -, -, -⟩ := hrest.cons
    have hbefore : beforeName text = g ++ hi.text ++ g' := by
      simp only [beforeName, heq]
      rw [htext, ← List.append_assoc, ← List.append_assoc, List.append_assoc]
      apply textTo_append
      rw [byteLen_append, byteLen_append, ← hstart', Run.stop]
      omega
    have hafter : textFrom name.stop text = rest' := by
      rw [htext, ← List.append_assoc, ← List.append_assoc]
      apply textFrom_append
      rw [byteLen_append, byteLen_append, byteLen_append, Run.stop, ← hstart', Run.stop]
      omega
    have hplain : plain (beforeName text) = "hi".toList := by
      rw [hbefore, plain_append, plain_append, plain_gap hg, plain_gap hg',
        ← letters_eq_plain (not_foreign_of_word hword)]
      simp only [tokenIs, beq_iff_eq] at hhi
      rw [letters_of_lower_eq hhi]
      rfl
    refine ⟨name.text ++ rest', ?_, ?_⟩
    · rw [hbefore, htext]
      simp only [List.append_assoc]
    · have hhead : letters "Hi ".toList = "hi".toList := by decide
      have hcomma : letters ", ".toList = [] := by decide
      simp only [applyEmailHiName, heq, hhi, hname, htouch, Bool.not_true, Bool.or_self,
        Bool.false_eq_true, if_false, letters_append, letters_capitalizeWord, letters_trimStart,
        hafter, hplain, hhead, hcomma, List.nil_append, List.append_assoc]
  · cases h

/-! ## commas -/

theorem letters_commaAfterHey (text : Text) (protection : Mask) :
    letters (commaAfterHey text protection) = letters text := by
  unfold commaAfterHey stripHey
  split
  · rename_i rest heq
    split at heq
    · rename_i hguard
      obtain rfl := Option.some.inj heq
      split
      · rfl
      · rw [Bool.and_eq_true] at hguard
        rw [letters_append, letters_take_drop hguard.1]
        rfl
    · cases heq
  · rfl

theorem letters_commaBeforeTrailingWord (text word : Text) (protection : Mask) :
    letters (commaBeforeTrailingWord text word protection) = letters text := by
  have htrail := letters_trimEnd_tail isTerminal text
  unfold commaBeforeTrailingWord
  dsimp only
  generalize trimEndMatches isTerminal text = trimmed at htrail
  split
  · rename_i hends
    split
    · have hword : letters (trimmed.drop (trimmed.length - (word.length + 1))) = letters word := by
        have hspace : letters [' '] = [] := by decide
        have hlower := letters_of_lower_eq (lower_drop hends)
        rwa [letters_cons, hspace, List.nil_append] at hlower
      have hcomma : letters ", ".toList = [] := by decide
      have hhead : letters trimmed = letters (trimmed.take (trimmed.length - (word.length + 1))) ++
          letters word := by
        rw [← hword, ← letters_append, List.take_append_drop]
      rw [← htrail, hhead]
      simp only [letters_append, hcomma, List.append_nil]
    · rfl
  · rfl

theorem letters_quoteAhead {after : Text} {behind : Nat} (h : quoteAhead after = some behind) :
    0 < behind ∧ letters (after.take behind) = [] := by
  simp only [quoteAhead] at h
  split at h
  · rename_i hquote
    obtain rfl := Option.some.inj h
    refine ⟨Nat.succ_pos _, ?_⟩
    obtain ⟨rest, hrest⟩ := List.head?_eq_some_iff.mp hquote
    have hafter : after = after.takeWhile isWhitespace ++ '"' :: rest := by
      rw [← hrest]
      exact (List.prefix_iff_eq_append.mp (List.takeWhile_prefix _)).symm
    have hws : letters (after.takeWhile isWhitespace) = [] :=
      letters_mute_all isAlphanumeric_of_whitespace List.all_takeWhile
    have hmark : letters ['"'] = [] := by decide
    generalize after.takeWhile isWhitespace = ws at hafter hws
    rw [hafter, List.take_length_add_append, letters_append, hws]
    exact hmark
  · cases h

/-- what is dropped was written before, but for white space and quotation marks -/
theorem letters_replaceCiWordBeforeQuote (word : Text) (protection : Mask) (dropped kept : Nat)
    (left : Option Char) (off : Nat) (text : Text) :
    letters (replaceCiWordBeforeQuote word protection dropped kept left off text) =
      letters (text.drop dropped) := by
  induction text generalizing dropped kept left off with
  | nil => rw [replaceCiWordBeforeQuote, List.drop_nil]
  | cons c text ih =>
    have hkeep (kept : Nat) : letters (c :: replaceCiWordBeforeQuote word protection 0 kept (some c)
        (off + ByteSized.size c) text) = letters (c :: text) := by
      rw [letters_cons, ih, List.drop_zero, ← letters_cons]
    rw [replaceCiWordBeforeQuote]
    cases dropped with
    | succ n => rw [if_pos (Nat.succ_pos n), ih, Nat.add_sub_cancel, List.drop_succ_cons]
    | zero =>
      rw [if_neg (Nat.lt_irrefl 0), List.drop_zero]
      split
      · exact hkeep _
      · split
        · rename_i hstarts
          split
          · rename_i behind hquote
            obtain ⟨hpos, hmute⟩ := letters_quoteAhead hquote
            split
            · have hcomma : letters ", \"".toList = [] := by decide
              have hdrop : text.drop (word.length + behind - 1) =
                  ((c :: text).drop word.length).drop behind := by
                rw [List.drop_drop, show word.length + behind = word.length + behind - 1 + 1 by omega,
                  List.drop_succ_cons]
                rfl
              rw [letters_append, letters_append, hcomma, ih, hdrop, letters_take_drop hstarts,
                List.append_nil]
              conv_rhs => rw [← List.take_append_drop behind ((c :: text).drop word.length)]
              rw [letters_append, hmute, List.nil_append]
            · exact hkeep _
          · exact hkeep _
        · exact hkeep _

theorem splitAtClosingQuote_eq_some {text before after : Text}
    (h : splitAtClosingQuote text = some (before, after)) : text = before ++ '"' :: after := by
  induction text generalizing before with
  | nil => cases h
  | cons c text ih =>
    rw [splitAtClosingQuote] at h
    split at h
    · rename_i hstarts
      obtain ⟨rfl, rfl⟩ := Prod.mk.inj (Option.some.inj h)
      obtain ⟨rest, hrest⟩ := List.isPrefixOf_iff_prefix.mp hstarts
      rw [← (List.cons.inj hrest).1]
      rfl
    · obtain ⟨⟨before', after'⟩, hrest, heq⟩ := Option.map_eq_some_iff.mp h
      obtain ⟨rfl, rfl⟩ := Prod.mk.inj heq
      rw [ih hrest]
      rfl

theorem letters_commaBeforeClosingQuote (text : Text) :
    letters (commaBeforeClosingQuote text) = letters text := by
  unfold commaBeforeClosingQuote
  split
  · rename_i before after heq
    split
    · have hmark : letters ",\"".toList = letters ['"'] := by decide
      rw [splitAtClosingQuote_eq_some heq, letters_append, letters_append, hmark, letters_append,
        letters_cons '"' after, List.append_assoc]
    · rfl
  · rfl

theorem letters_applyVocativeCommas (text : Text) (snapshot : Snapshot) :
    letters (applyVocativeCommas text snapshot) = letters text := by
  unfold applyVocativeCommas
  dsimp only
  rw [letters_commaBeforeClosingQuote]
  split
  · simp only [letters_replaceCiWordBeforeQuote, List.drop_zero, letters_commaBeforeTrailingWord,
      letters_commaAfterHey]
  · simp only [letters_commaBeforeTrailingWord, letters_commaAfterHey]

/-! ## case -/

theorem letters_uppercaseFirst (w : Text) : letters (uppercaseFirst w) = letters w := by
  cases w with
  | nil => rfl
  | cons c w =>
    rw [uppercaseFirst]
    split
    · exact letters_upper_cons c w
    · rfl

example : uppercaseFirst "hello".toList = "Hello".toList := by decide +kernel

theorem letters_capitalizeWeekday (w : Text) : letters (capitalizeWeekday w) = letters w := by
  cases w with
  | nil => rfl
  | cons c w =>
    apply letters_of_lower
    rw [capitalizeWeekday]
    show toAsciiLowercase (toAsciiUppercase c) :: asciiLowercase (asciiLowercase w) = _
    rw [toAsciiLowercase_upper, asciiLowercase_lower]
    rfl

theorem letters_recase (text : Text) (protection : Mask) (tok : Token) :
    letters (recase text protection tok) = letters tok.text := by
  unfold recase
  split
  · rfl
  · split
    · exact letters_uppercaseFirst _
    · split
      · rename_i h
        rcases h with h | h
        · rw [h]
          decide
        · rw [h]
      · split
        · exact letters_capitalizeWeekday _
        · rfl

theorem letters_applyCasing (text : Text) (snapshot : Snapshot) :
    letters (applyCasing text snapshot) = letters text :=
  letters_mapWords (letters_recase text _) text

theorem letters_capitalizeItem (item : Text) (start : Nat) (protection : Mask) :
    letters (capitalizeItem item start protection) = letters item := by
  cases item with
  | nil => rfl
  | cons c item =>
    rw [capitalizeItem]
    split
    · exact letters_upper_cons c item
    · rfl

example : capitalizeItem "milk".toList 0 [] = "Milk".toList := by decide +kernel

theorem splitAtMarker_eq_some {line marker item : Text}
    (h : splitAtMarker line = some (marker, item)) : line = marker ++ ". ".toList ++ item := by
  induction line generalizing marker with
  | nil => cases h
  | cons c line ih =>
    rw [splitAtMarker] at h
    split at h
    · rename_i hstarts
      obtain ⟨rfl, rfl⟩ := Prod.mk.inj (Option.some.inj h)
      obtain ⟨rest, hrest⟩ := List.isPrefixOf_iff_prefix.mp hstarts
      obtain ⟨rfl, rfl⟩ := List.cons.inj hrest
      rfl
    · obtain ⟨⟨marker', item'⟩, hrest, heq⟩ := Option.map_eq_some_iff.mp h
      obtain ⟨rfl, rfl⟩ := Prod.mk.inj heq
      rw [ih hrest]
      rfl

theorem letters_capitalizeLine (line : Text) (start : Nat) (protection : Mask) :
    letters (capitalizeLine line start protection) = letters line := by
  unfold capitalizeLine
  split
  · rename_i marker item heq
    split
    · rw [letters_append, letters_capitalizeItem, ← letters_append, ← splitAtMarker_eq_some heq]
    · rfl
  · rfl

theorem letters_capitalizeLinesFrom (protection : Mask) (start : Nat) (lines : List Text) :
    (capitalizeLinesFrom protection start lines).flatMap letters = lines.flatMap letters := by
  induction lines generalizing start with
  | nil => rfl
  | cons line lines ih =>
    rw [capitalizeLinesFrom, List.flatMap_cons, List.flatMap_cons, letters_capitalizeLine, ih]

theorem letters_capitalizeNumberedListItems (text : Text) (protection : Mask) :
    letters (capitalizeNumberedListItems text protection) = letters text := by
  unfold capitalizeNumberedListItems
  split
  · rw [joinText, letters_intercalate (by decide), letters_capitalizeLinesFrom, letters_strLines]
  · rfl

theorem letters_applyPasses (text : Text) (snapshot : Snapshot) :
    letters (applyPasses text snapshot) = letters text := by
  unfold applyPasses
  dsimp only
  rw [letters_capitalizeNumberedListItems, letters_applyCasing, letters_applyVocativeCommas]

/-! ## the end of a sentence -/

theorem letters_addTerminalPunctLine (line : Text) (protection : Mask) :
    letters (addTerminalPunctLine line protection) = letters line := by
  unfold addTerminalPunctLine
  dsimp only
  split
  · rfl
  · have hmark : letters (if isClosedQuestion (trimEnd line) then ['?'] else ['.']) = [] := by
      split <;> decide
    simp only [letters_append, hmark, List.append_nil]
    exact letters_trimEnd_tail isWhitespace line

example : addTerminalPunctLine "we met ".toList [] = "we met. ".toList := by decide +kernel

theorem letters_punctuateParagraph (paragraph : Text) (start : Nat) (protection : Mask) :
    letters (punctuateParagraph paragraph start protection) = letters paragraph := by
  have hperiod : letters ['.'] = [] := by decide
  rw [← letters_trim paragraph]
  unfold punctuateParagraph
  dsimp only
  split
  · rename_i hempty
    rw [List.isEmpty_iff.mp hempty]
  · split
    · rfl
    · rw [letters_append, hperiod, List.append_nil]

theorem withStarts_flatMap (sep start : Nat) (parts : List Text) :
    (withStarts sep start parts).flatMap (fun part => letters part.2) = parts.flatMap letters := by
  induction parts generalizing start with
  | nil => rfl
  | cons part parts ih => rw [withStarts, List.flatMap_cons, List.flatMap_cons, ih]

theorem letters_punctuateLine (protection : Mask) (line : Nat × Text) :
    letters (punctuateLine protection line) = letters line.2 := by
  unfold punctuateLine
  split
  · rfl
  · exact letters_addTerminalPunctLine _ _

theorem letters_addTerminalPunctuation (text : Text) (protection : Mask) :
    letters (addTerminalPunctuation text protection) = letters text := by
  unfold addTerminalPunctuation
  dsimp only
  split
  · rfl
  · split
    · rfl
    · split
      · split
        · rfl
        · rw [joinText, letters_intercalate (by decide), List.flatMap_map]
          simp only [letters_punctuateParagraph, withStarts_flatMap]
          exact letters_splitStr (by decide) (by decide) text
      · split
        · split
          · rw [joinText, letters_intercalate (by decide), List.flatMap_map]
            simp only [letters_punctuateLine, withStarts_flatMap]
            exact letters_splitOn (by decide) text
          · rfl
        · exact letters_addTerminalPunctLine _ _

end Voisu.Formatting
