import Mathlib
import Voisu.Decision.Quality
import Voisu.Lib.Lowercase

/-!
# The outro detector and the outro stripper

Both look at the final sentence and at the end of a text, one on the lowercased text and the other
on offsets of the text itself.  With the last alphanumeric character `c` of a text named, both read
the same: the text is `b ++ c :: g`, and its final sentence starts at the same place whatever `c`
is (`splitFinalSentence_snoc`).

* `hasOutro`            the two tests, on a text lowercased character by character;
* `strip_isSome_iff`    **the stripper finds an outro exactly where the detector does**;
* `sanitize_clean`      **a sanitized text carries none**, and what it is otherwise.
-/

namespace Voisu.Decision
open Lib

/-! ## tests that do not see sigmas -/

def plainSuffix (suffix : Text) : Bool :=
  suffix.all fun c => c.toNat ≤ 0x7F

theorem hallucinatedSuffixes_plain : ∀ suffix ∈ hallucinatedSuffixes, plainSuffix suffix = true := by
  decide

theorem hallucinatedSuffixes_last : ∀ suffix ∈ hallucinatedSuffixes,
    suffix ≠ [] ∧ suffix.getLast? ≠ some 'i' := by
  decide

theorem medialSigma_eq_iff {c d : Char} (hd : d.toNat ≤ 0x7F) : medialSigma c = d ↔ c = d := by
  unfold medialSigma
  split
  · rename_i h
    constructor
    · rintro rfl
      exact absurd hd (by decide)
    · rintro rfl
      omega
  · exact Iff.rfl

theorem startsWith_medialSigma {suffix : Text} (h : plainSuffix suffix = true) (s : Text) :
    startsWith (s.map medialSigma) suffix = startsWith s suffix := by
  unfold startsWith
  induction suffix generalizing s with
  | nil => simp
  | cons d suffix ih =>
    rw [plainSuffix, List.all_cons, Bool.and_eq_true, decide_eq_true_eq] at h
    cases s with
    | nil => rfl
    | cons c s =>
      rw [List.map_cons, List.isPrefixOf_cons_cons, List.isPrefixOf_cons_cons, ih h.2]
      congr 1
      rw [Bool.eq_iff_iff, beq_iff_eq, beq_iff_eq, eq_comm, medialSigma_eq_iff h.1, eq_comm]

theorem endsWith_reverse (s suffix : Text) :
    endsWith s suffix = startsWith s.reverse suffix.reverse := rfl

theorem endsWith_medialSigma {suffix : Text} (h : plainSuffix suffix = true) (s : Text) :
    endsWith (s.map medialSigma) suffix = endsWith s suffix := by
  rw [endsWith_reverse, endsWith_reverse, ← List.map_reverse,
    startsWith_medialSigma (by rwa [plainSuffix, List.all_reverse])]

/-! ## the cuts commute with a map that keeps their classes -/

/-- the characters that the cuts tell apart -/
def KeepsClasses (f : Char → Char) : Prop :=
  ∀ c, notAlphanumeric (f c) = notAlphanumeric c ∧ isTerminator (f c) = isTerminator c ∧
    isWhitespace (f c) = isWhitespace c

theorem medialSigma_keepsClasses : KeepsClasses medialSigma := by
  intro c
  unfold medialSigma
  split
  · rename_i h
    have hc : c = Char.ofNat 0x3C2 := by
      rw [← h]
      exact (Char.ofNat_toNat c).symm
    rw [hc]
    decide +kernel
  · exact ⟨rfl, rfl, rfl⟩

section
variable {f : Char → Char} (hf : KeepsClasses f)
include hf

theorem trimStartMatches_map (s : Text) :
    trimStartMatches notAlphanumeric (s.map f) = (trimStartMatches notAlphanumeric s).map f := by
  unfold trimStartMatches
  rw [List.dropWhile_map]
  congr 2
  funext c
  exact (hf c).1

theorem trimEndMatches_map (s : Text) :
    trimEndMatches notAlphanumeric (s.map f) = (trimEndMatches notAlphanumeric s).map f := by
  have h := trimStartMatches_map hf s.reverse
  unfold trimStartMatches at h
  unfold trimEndMatches
  rw [← List.map_reverse, h, List.map_reverse]

theorem splitFinalSentence_map (s : Text) :
    splitFinalSentence (s.map f) =
      ((splitFinalSentence s).1.map f, (splitFinalSentence s).2.map f) := by
  induction s with
  | nil => rfl
  | cons c s ih =>
    have hhead : ((s.map f).head?.any isWhitespace) = (s.head?.any isWhitespace) := by
      cases s with
      | nil => rfl
      | cons d s => exact (hf d).2.2
    rw [List.map_cons, splitFinalSentence, splitFinalSentence]
    simp only [ih, hhead, (hf c).2.1, List.isEmpty_map]
    split
    · rfl
    · split
      · rfl
      · rfl

theorem finalSentence_map (s : Text) : finalSentence (s.map f) = (finalSentence s).map f := by
  unfold finalSentence finalSentenceContent
  simp only [trimEndMatches_map hf, splitFinalSentence_map hf, trimStartMatches_map hf,
    List.isEmpty_map]
  split
  · rw [trimStartMatches_map hf]
  · rw [trimStartMatches_map hf]

end

/-! ## the two tests on one lowercase -/

theorem any_congr_mem {l : List Text} {p q : Text → Bool} (h : ∀ a ∈ l, p a = q a) :
    l.any p = l.any q := by
  rw [Bool.eq_iff_iff, List.any_eq_true, List.any_eq_true]
  refine exists_congr fun a => and_congr_right fun ha => ?_
  rw [h a ha]

/-- the detector's tests, the text lowercased character by character -/
def hasOutro (trimmed : Text) : Bool :=
  hallucinatedSuffixes.any fun suffix =>
    startsWith (finalSentence (lowercaseChars trimmed)) suffix ||
      endsWith (trimEndMatches notAlphanumeric (lowercaseChars trimmed)) suffix

theorem startsWith_toLowercase {suffix : Text} (h : suffix ∈ hallucinatedSuffixes) (s : Text) :
    startsWith (toLowercase s) suffix = startsWith (lowercaseChars s) suffix := by
  have hplain := hallucinatedSuffixes_plain suffix h
  rw [← startsWith_medialSigma hplain, medialSigma_toLowercase, startsWith_medialSigma hplain]

theorem endsWith_toLowercase {suffix : Text} (h : suffix ∈ hallucinatedSuffixes) (s : Text) :
    endsWith (toLowercase s) suffix = endsWith (lowercaseChars s) suffix := by
  have hplain := hallucinatedSuffixes_plain suffix h
  rw [← endsWith_medialSigma hplain, medialSigma_toLowercase, endsWith_medialSigma hplain]

theorem hasAnchored_eq (text : Text) :
    hasAnchoredHallucinatedOutro text = (!(trim text).isEmpty && hasOutro (trim text)) := by
  unfold hasAnchoredHallucinatedOutro hasOutro
  simp only
  cases htrim : (trim text).isEmpty with
  | true => rfl
  | false =>
    rw [if_neg (by simp), Bool.not_false, Bool.true_and]
    refine any_congr_mem fun suffix hsuffix => ?_
    have hplain := hallucinatedSuffixes_plain suffix hsuffix
    have hsigma := medialSigma_toLowercase (trim text)
    have hkeeps := medialSigma_keepsClasses
    rw [← startsWith_medialSigma hplain, ← finalSentence_map hkeeps, hsigma,
      finalSentence_map hkeeps, startsWith_medialSigma hplain, ← endsWith_medialSigma hplain,
      ← trimEndMatches_map hkeeps, hsigma, trimEndMatches_map hkeeps, endsWith_medialSigma hplain]

/-! ## the lowercase of a text, cut -/

theorem isTerminator_of_alphanumeric {c : Char} (h : isAlphanumeric c = true) :
    isTerminator c = false := by
  cases ht : isTerminator c with
  | false => rfl
  | true =>
    exfalso
    simp only [isTerminator, Bool.or_eq_true, beq_iff_eq] at ht
    rcases ht with (rfl | rfl) | rfl <;> exact absurd h (by decide)

theorem notAlphanumeric_dotAbove : notAlphanumeric dotAbove = true := by decide +kernel

/-- lowercasing makes no sentence end -/
theorem lowercase_terminators {c x : Char} (h : isAlphanumeric c = true)
    (hx : x ∈ charToLowercase c) : isTerminator x = false := by
  obtain ⟨d, hd, hlower | ⟨-, hlower⟩⟩ := alphanumeric_lower_cases h
  · rw [hlower, List.mem_singleton] at hx
    rw [hx]
    exact isTerminator_of_alphanumeric hd
  · rw [hlower, List.mem_pair] at hx
    rcases hx with rfl | rfl
    · exact isTerminator_of_alphanumeric hd
    · decide

theorem isWhitespace_of_alphanumeric {c : Char} (h : isAlphanumeric c = true) :
    isWhitespace c = false := by
  have := alphanumeric_notWhitespace h
  simpa [notWhitespace] using this

/-- nor whitespace after one -/
theorem lowercase_head (s : Text) (c : Char) :
    ((lowercaseChars s ++ [c]).head?.any isWhitespace) =
      ((s ++ [c]).head?.any isWhitespace) := by
  cases s with
  | nil => rfl
  | cons x s =>
    rw [lowercaseChars, List.flatMap_cons]
    cases hx : isAlphanumeric x with
    | false =>
      rw [notAlphanumeric_lower hx]
      rfl
    | true =>
      have hx' : isWhitespace x = false := isWhitespace_of_alphanumeric hx
      obtain ⟨d, hd, hlower | ⟨-, hlower⟩⟩ := alphanumeric_lower_cases hx
      · rw [hlower]
        show isWhitespace d = isWhitespace x
        rw [hx', isWhitespace_of_alphanumeric hd]
      · rw [hlower]
        show isWhitespace d = isWhitespace x
        rw [hx', isWhitespace_of_alphanumeric hd]

theorem splitFinalSentence_cons (c : Char) (s : Text) :
    splitFinalSentence (c :: s) =
      if !(splitFinalSentence s).1.isEmpty then
        (c :: (splitFinalSentence s).1, (splitFinalSentence s).2)
      else if isTerminator c && (s.head?.any isWhitespace) then ([c], s) else ([], c :: s) := rfl

theorem splitFinalSentence_append_of_ne {s : Text} (h : (splitFinalSentence s).1 ≠ []) (xs : Text) :
    splitFinalSentence (xs ++ s) = (xs ++ (splitFinalSentence s).1, (splitFinalSentence s).2) := by
  induction xs with
  | nil => rfl
  | cons x xs ih =>
    rw [List.cons_append, splitFinalSentence_cons, ih, if_pos (by simp [h])]
    rfl

theorem splitFinalSentence_append_of_eq {s xs : Text} (h : (splitFinalSentence s).1 = [])
    (hxs : ∀ x ∈ xs, isTerminator x = false) :
    splitFinalSentence (xs ++ s) = ([], xs ++ s) := by
  induction xs with
  | nil =>
    have happend := splitFinalSentence_append s
    rw [h, List.nil_append] at happend
    rw [List.nil_append, Prod.ext_iff]
    exact ⟨h, happend⟩
  | cons x xs ih =>
    rw [List.cons_append, splitFinalSentence_cons, ih fun y hy => hxs y (List.mem_cons_of_mem _ hy),
      hxs x List.mem_cons_self]
    rfl

example : splitFinalSentence "Hi. Bye".toList = ("Hi.".toList, " Bye".toList) := by decide +kernel

/-- **where the final sentence starts, whatever alphanumeric character ends the text, and in its
lowercase** -/
theorem splitFinalSentence_snoc (b : Text) : ∃ head tail, ∀ c, isAlphanumeric c = true →
    splitFinalSentence (b ++ [c]) = (head, tail ++ [c]) ∧
      splitFinalSentence (lowercaseChars b ++ [c]) =
        (lowercaseChars head, lowercaseChars tail ++ [c]) := by
  induction b with
  | nil =>
    refine ⟨[], [], fun c hc => ?_⟩
    have hone : splitFinalSentence [c] = ([], [c]) := by
      rw [splitFinalSentence_cons, isTerminator_of_alphanumeric hc]
      rfl
    exact ⟨hone, hone⟩
  | cons x b ih =>
    obtain ⟨head, tail, hcut⟩ := ih
    by_cases hhead : head = []
    · -- no terminator after `x`
      obtain rfl := hhead
      have htail : tail = b := by
        have happend := splitFinalSentence_append (b ++ ['a'])
        rw [(hcut 'a' (by decide)).1] at happend
        exact List.append_cancel_right happend
      obtain rfl := htail
      cases hx : isAlphanumeric x with
      | true =>
        refine ⟨[], x :: tail, fun c hc => ?_⟩
        obtain ⟨h1, h2⟩ := hcut c hc
        constructor
        · rw [List.cons_append, splitFinalSentence_cons, h1, isTerminator_of_alphanumeric hx]
          rfl
        · rw [lowercaseChars, List.flatMap_cons, List.append_assoc]
          exact splitFinalSentence_append_of_eq (by exact congrArg Prod.fst h2)
            fun y hy => lowercase_terminators hx hy
      | false =>
        have hsame : ∀ c, isAlphanumeric c = true → ((tail ++ [c]).head?.any isWhitespace) =
            ((tail ++ ['a']).head?.any isWhitespace) := by
          intro c hc
          cases tail with
          | nil => exact isWhitespace_of_alphanumeric hc
          | cons y tail => rfl
        by_cases hend : (isTerminator x && ((tail ++ ['a']).head?.any isWhitespace)) = true
        · refine ⟨[x], tail, fun c hc => ?_⟩
          obtain ⟨h1, h2⟩ := hcut c hc
          rw [List.cons_append, splitFinalSentence_cons, h1, if_neg (by simp), hsame c hc,
            if_pos hend, lowercaseChars, List.flatMap_cons, notAlphanumeric_lower hx]
          refine ⟨rfl, ?_⟩
          show splitFinalSentence (x :: (lowercaseChars tail ++ [c])) = _
          rw [splitFinalSentence_cons, h2, if_neg (by simp [lowercaseChars]),
            lowercase_head, hsame c hc, if_pos hend, lowercaseChars_singleton, notAlphanumeric_lower hx]
        · refine ⟨[], x :: tail, fun c hc => ?_⟩
          obtain ⟨h1, h2⟩ := hcut c hc
          rw [List.cons_append, splitFinalSentence_cons, h1, if_neg (by simp), hsame c hc,
            if_neg hend, lowercaseChars, List.flatMap_cons, notAlphanumeric_lower hx]
          refine ⟨rfl, ?_⟩
          show splitFinalSentence (x :: (lowercaseChars tail ++ [c])) = _
          rw [splitFinalSentence_cons, h2, if_neg (by simp [lowercaseChars]),
            lowercase_head, hsame c hc, if_neg hend]
          rfl
    · refine ⟨x :: head, tail, fun c hc => ?_⟩
      obtain ⟨h1, h2⟩ := hcut c hc
      have hne : lowercaseChars head ≠ [] := by
        cases head with
        | nil => exact absurd rfl hhead
        | cons y head => exact lowercaseChars_ne_nil y head
      constructor
      · rw [List.cons_append, splitFinalSentence_cons, h1, if_pos (by simp [hhead])]
      · rw [lowercaseChars, List.flatMap_cons, List.append_assoc]
        have h := splitFinalSentence_append_of_ne (s := lowercaseChars b ++ [c])
          (by rw [h2]; exact hne) (charToLowercase x)
        rw [h2] at h
        exact h

theorem trimStartMatches_snoc (t : Text) {c : Char} (hc : isAlphanumeric c = true) :
    trimStartMatches notAlphanumeric (t ++ [c]) = trimStartMatches notAlphanumeric t ++ [c] := by
  have hkeep : ¬notAlphanumeric c = true := by simp [notAlphanumeric, hc]
  unfold trimStartMatches
  induction t with
  | nil => exact List.dropWhile_cons_of_neg hkeep
  | cons x t ih =>
    by_cases hx : notAlphanumeric x = true
    · rw [List.cons_append, List.dropWhile_cons_of_pos hx, List.dropWhile_cons_of_pos hx, ih]
    · rw [List.cons_append, List.dropWhile_cons_of_neg hx, List.dropWhile_cons_of_neg hx]
      rfl

theorem trimEndMatches_snoc (s : Text) {c : Char} {g : Text} (hc : isAlphanumeric c = true)
    (hg : g.all notAlphanumeric = true) :
    trimEndMatches notAlphanumeric (s ++ [c] ++ g) = s ++ [c] := by
  have hkeep : ¬notAlphanumeric c = true := by simp [notAlphanumeric, hc]
  unfold trimEndMatches
  rw [List.reverse_append, List.dropWhile_append_of_pos, List.reverse_append,
    List.reverse_singleton, List.singleton_append, List.dropWhile_cons_of_neg hkeep]
  · simp
  · intro x hx
    exact List.all_eq_true.mp hg x (List.mem_reverse.mp hx)

/-- the content of the final sentence starts at the same character -/
theorem trimStartMatches_lowercase (t : Text) {d : Char} (hd : isAlphanumeric d = true) :
    trimStartMatches notAlphanumeric (lowercaseChars t ++ [d]) =
      lowercaseChars (trimStartMatches notAlphanumeric t) ++ [d] := by
  induction t with
  | nil => exact trimStartMatches_snoc [] hd
  | cons x t ih =>
    cases hx : isAlphanumeric x with
    | true =>
      have hkeep : ¬notAlphanumeric x = true := by simp [notAlphanumeric, hx]
      have hrest : trimStartMatches notAlphanumeric (x :: t) = x :: t :=
        List.dropWhile_cons_of_neg hkeep
      rw [hrest]
      obtain ⟨e, he, hlower | ⟨-, hlower⟩⟩ := alphanumeric_lower_cases hx
      · rw [lowercaseChars, List.flatMap_cons, hlower]
        exact List.dropWhile_cons_of_neg (by simp [notAlphanumeric, he])
      · rw [lowercaseChars, List.flatMap_cons, hlower]
        exact List.dropWhile_cons_of_neg (by simp [notAlphanumeric, he])
    | false =>
      have hdrop : notAlphanumeric x = true := by simp [notAlphanumeric, hx]
      have hrest : trimStartMatches notAlphanumeric (x :: t) = trimStartMatches notAlphanumeric t :=
        List.dropWhile_cons_of_pos hdrop
      rw [hrest, ← ih, lowercaseChars, List.flatMap_cons, notAlphanumeric_lower hx]
      exact List.dropWhile_cons_of_pos hdrop

/-! ## what both read -/

/-- the two tests on a text `b ++ [c] ++ g` whose last alphanumeric character `c` has the lowercase
`d`, `tail` being the final sentence before `c` -/
def outroTest (b tail : Text) (d : Char) (suffix : Text) : Bool :=
  startsWith (lowercaseChars (trimStartMatches notAlphanumeric tail) ++ [d]) suffix ||
    endsWith (lowercaseChars b ++ [d]) suffix

/-- no test sees a dot above -/
theorem startsWith_lower {suffix : Text} (h : suffix ∈ hallucinatedSuffixes) (s : Text) {c d : Char}
    (hlower : charToLowercase c = [d] ∨ d = 'i' ∧ charToLowercase c = [d, dotAbove]) :
    startsWith (s ++ charToLowercase c) suffix = startsWith (s ++ [d]) suffix := by
  rcases hlower with hlower | ⟨-, hlower⟩
  · rw [hlower]
  · rw [hlower, show s ++ [d, dotAbove] = (s ++ [d]) ++ [dotAbove] by simp, Bool.eq_iff_iff,
      startsWith, startsWith, List.isPrefixOf_iff_prefix, List.isPrefixOf_iff_prefix,
      List.prefix_concat_iff]
    constructor
    · rintro (hlong | hshort)
      · have hdot : dotAbove.toNat ≤ 0x7F := by
          have hplain := List.all_eq_true.mp (hallucinatedSuffixes_plain suffix h) dotAbove
            (by rw [hlong]; simp)
          exact decide_eq_true_eq.mp hplain
        exact absurd hdot (by decide)
      · exact hshort
    · exact Or.inr

/-- a plain text at the end of a lowercase is no longer than the text -/
theorem length_of_endsWith {suffix : Text} (h : plainSuffix suffix = true) (s : Text)
    (hend : suffix <:+ lowercaseChars s) : suffix.length ≤ s.length := by
  induction s using List.reverseRecOn generalizing suffix with
  | nil => simpa [lowercaseChars] using hend
  | append_singleton s c ih =>
    rcases List.eq_nil_or_concat suffix with rfl | ⟨suffix, e, rfl⟩
    · exact Nat.zero_le _
    · rw [lowercaseChars_append, lowercaseChars_singleton] at hend
      rw [List.concat_eq_append] at h hend ⊢
      rw [plainSuffix, List.all_append, Bool.and_eq_true] at h
      have hone : ∀ d, charToLowercase c = [d] → (suffix ++ [e]).length ≤ (s ++ [c]).length := by
        intro d hlower
        rw [hlower, List.suffix_concat_iff] at hend
        rcases hend with hnil | ⟨t, ht, hs⟩
        · simp at hnil
        · have hsame : suffix = t := (List.append_inj' ht rfl).1
          have hlen := ih h.1 (by rw [hsame]; exact hs)
          simpa using hlen
      cases hc : isAlphanumeric c with
      | false => exact hone c (notAlphanumeric_lower hc)
      | true =>
        obtain ⟨d, -, hlower | ⟨-, hlower⟩⟩ := alphanumeric_lower_cases hc
        · exact hone d hlower
        · rw [hlower] at hend
          obtain ⟨t, ht⟩ := hend
          have hlast := congrArg List.getLast? ht
          simp only [← List.append_assoc, List.getLast?_append, List.getLast?_singleton,
            Option.some_or] at hlast
          have he : e = dotAbove := by simpa using hlast
          rw [he] at h
          exact absurd h.2 (by decide)

theorem endsWith_lower {suffix : Text} (h : suffix ∈ hallucinatedSuffixes) (s : Text) {c d : Char}
    (hlower : charToLowercase c = [d] ∨ d = 'i' ∧ charToLowercase c = [d, dotAbove]) :
    (endsWith (lowercaseChars (s ++ [c])) suffix && suffix.length ≤ (s ++ [c]).length) =
      endsWith (lowercaseChars s ++ [d]) suffix := by
  have hplain := hallucinatedSuffixes_plain suffix h
  obtain ⟨hne, hlast⟩ := hallucinatedSuffixes_last suffix h
  have hlong : endsWith (lowercaseChars (s ++ [c])) suffix = true →
      (decide (suffix.length ≤ (s ++ [c]).length)) = true := by
    intro hend
    rw [decide_eq_true_eq]
    exact length_of_endsWith hplain _ (List.isSuffixOf_iff_suffix.mp hend)
  have hlen : (endsWith (lowercaseChars (s ++ [c])) suffix &&
      suffix.length ≤ (s ++ [c]).length) = endsWith (lowercaseChars (s ++ [c])) suffix := by
    cases hend : endsWith (lowercaseChars (s ++ [c])) suffix with
    | false => rfl
    | true => rw [hlong hend, Bool.and_true]
  rw [hlen, lowercaseChars_append, lowercaseChars_singleton]
  -- a suffix ends as the text does
  have hends : ∀ {t : Text} {x : Char}, endsWith (t ++ [x]) suffix = true →
      suffix.getLast? = some x := by
    intro t x hend
    obtain ⟨u, hu⟩ := List.isSuffixOf_iff_suffix.mp hend
    have := congrArg List.getLast? hu
    rw [List.getLast?_append_of_ne_nil _ hne, List.getLast?_append_of_ne_nil _ (by simp)] at this
    simpa using this
  rcases hlower with hlower | ⟨rfl, hlower⟩
  · rw [hlower]
  · have hright : endsWith (lowercaseChars s ++ ['i']) suffix = false := by
      cases hend : endsWith (lowercaseChars s ++ ['i']) suffix with
      | false => rfl
      | true => exact absurd (hends hend) hlast
    have hleft : endsWith (lowercaseChars s ++ charToLowercase c) suffix = false := by
      cases hend : endsWith (lowercaseChars s ++ charToLowercase c) suffix with
      | false => rfl
      | true =>
        rw [hlower, show lowercaseChars s ++ ['i', dotAbove] =
          (lowercaseChars s ++ ['i']) ++ [dotAbove] by simp] at hend
        have hmem := List.mem_of_getLast? (hends hend)
        have := List.all_eq_true.mp hplain _ hmem
        exact absurd this (by decide)
    rw [hleft, hright]

/-- a text with an alphanumeric character, cut after the last one -/
theorem exists_lastAlphanumeric {s : Text} (h : trimEndMatches notAlphanumeric s ≠ []) :
    ∃ b c g, s = b ++ [c] ++ g ∧ isAlphanumeric c = true ∧ g.all notAlphanumeric = true ∧
      trimEndMatches notAlphanumeric s = b ++ [c] := by
  obtain ⟨g, hs, hg, hlast⟩ := trimEndMatches_split notAlphanumeric s
  rcases List.eq_nil_or_concat (trimEndMatches notAlphanumeric s) with hnil | ⟨b, c, hbody⟩
  · exact absurd hnil h
  · rw [List.concat_eq_append] at hbody
    rw [hbody] at hs hlast
    refine ⟨b, c, g, hs, ?_, hg, hbody⟩
    simpa [lastSep, headSep, notAlphanumeric] using hlast

theorem hasOutro_eq {b g head tail : Text} {c d : Char}
    (hg : g.all notAlphanumeric = true) (hd : isAlphanumeric d = true)
    (hlower : charToLowercase c = [d] ∨ d = 'i' ∧ charToLowercase c = [d, dotAbove])
    (hcut : splitFinalSentence (lowercaseChars b ++ [d]) = (head, lowercaseChars tail ++ [d])) :
    hasOutro (b ++ [c] ++ g) = hallucinatedSuffixes.any (outroTest b tail d) := by
  have hplain : ∀ x ∈ g, isAlphanumeric x = false := fun x hx => by
    simpa [notAlphanumeric] using List.all_eq_true.mp hg x hx
  have htail : trimEndMatches notAlphanumeric (lowercaseChars (b ++ [c] ++ g)) =
      lowercaseChars b ++ [d] := by
    rw [lowercaseChars_append, lowercaseChars_append, lowercaseChars_singleton,
      lowercaseChars_notAlphanumeric hplain]
    rcases hlower with hlower | ⟨-, hlower⟩
    · rw [hlower]
      exact trimEndMatches_snoc _ hd hg
    · rw [hlower, show lowercaseChars b ++ [d, dotAbove] ++ g =
        lowercaseChars b ++ [d] ++ (dotAbove :: g) by simp]
      refine trimEndMatches_snoc _ hd ?_
      rw [List.all_cons, notAlphanumeric_dotAbove, hg]
      rfl
  have hcontent : trimStartMatches notAlphanumeric (lowercaseChars tail ++ [d]) =
      lowercaseChars (trimStartMatches notAlphanumeric tail) ++ [d] :=
    trimStartMatches_lowercase tail hd
  have hsentence : finalSentence (lowercaseChars (b ++ [c] ++ g)) =
      lowercaseChars (trimStartMatches notAlphanumeric tail) ++ [d] := by
    rw [finalSentence, htail, finalSentenceContent, hcut]
    simp only [hcontent]
    rw [if_neg (by simp), ← hcontent]
    obtain ⟨-, -, -, hsep⟩ := trimStartMatches_split notAlphanumeric (lowercaseChars tail ++ [d])
    exact trimStartMatches_of_headSep hsep
  rw [hasOutro, hsentence, htail]
  rfl

theorem strip_isSome_eq {text b g head tail : Text} {c d : Char}
    (htrim : trim text = b ++ [c] ++ g) (hc : isAlphanumeric c = true)
    (hg : g.all notAlphanumeric = true)
    (hlower : charToLowercase c = [d] ∨ d = 'i' ∧ charToLowercase c = [d, dotAbove])
    (hcut : splitFinalSentence (b ++ [c]) = (head, tail ++ [c])) :
    (stripOneAnchoredHallucinatedOutro text).isSome =
      hallucinatedSuffixes.any (outroTest b tail d) := by
  have hcontent : finalSentenceContent (b ++ [c]) =
      trimStartMatches notAlphanumeric tail ++ [c] := by
    rw [finalSentenceContent, hcut]
    simp only [trimStartMatches_snoc tail hc]
    rw [if_neg (by simp)]
  have hstart : (hallucinatedSuffixes.any fun suffix =>
      startsWith (toLowercase (trimStartMatches notAlphanumeric tail ++ [c])) suffix) =
      hallucinatedSuffixes.any fun suffix =>
        startsWith (lowercaseChars (trimStartMatches notAlphanumeric tail) ++ [d]) suffix := by
    refine any_congr_mem fun suffix hsuffix => ?_
    rw [startsWith_toLowercase hsuffix, lowercaseChars_append, lowercaseChars_singleton,
      startsWith_lower hsuffix _ hlower]
  have hend : (hallucinatedSuffixes.any fun suffix =>
      endsWith (toLowercase (b ++ [c])) suffix && suffix.length ≤ (b ++ [c]).length) =
      hallucinatedSuffixes.any fun suffix => endsWith (lowercaseChars b ++ [d]) suffix := by
    refine any_congr_mem fun suffix hsuffix => ?_
    rw [endsWith_toLowercase hsuffix, endsWith_lower hsuffix b hlower]
  have hboth : hallucinatedSuffixes.any (outroTest b tail d) =
      ((hallucinatedSuffixes.any fun suffix =>
          startsWith (lowercaseChars (trimStartMatches notAlphanumeric tail) ++ [d]) suffix) ||
        hallucinatedSuffixes.any fun suffix => endsWith (lowercaseChars b ++ [d]) suffix) := by
    rw [Bool.eq_iff_iff]
    simp only [outroTest, List.any_eq_true, Bool.or_eq_true]
    constructor
    · rintro ⟨suffix, hmem, h | h⟩
      · exact Or.inl ⟨suffix, hmem, h⟩
      · exact Or.inr ⟨suffix, hmem, h⟩
    · rintro (⟨suffix, hmem, h⟩ | ⟨suffix, hmem, h⟩)
      · exact ⟨suffix, hmem, Or.inl h⟩
      · exact ⟨suffix, hmem, Or.inr h⟩
  rw [hboth, ← hstart, ← hend]
  unfold stripOneAnchoredHallucinatedOutro
  simp only [htrim, trimEndMatches_snoc b hc hg, hcontent]
  rw [if_neg (by simp), if_neg (by simp)]
  split
  · rename_i h
    rw [h]
    rfl
  · rename_i h
    rw [Bool.not_eq_true] at h
    rw [h, Bool.false_or, Option.isSome_map, List.isSome_find?]

/-- **the stripper finds an outro exactly where the detector does** -/
theorem strip_isSome_iff (text : Text) :
    (stripOneAnchoredHallucinatedOutro text).isSome = hasAnchoredHallucinatedOutro text := by
  rw [hasAnchored_eq]
  cases hempty : (trim text).isEmpty with
  | true =>
    unfold stripOneAnchoredHallucinatedOutro
    simp only [hempty]
    rfl
  | false =>
    rw [Bool.not_false, Bool.true_and]
    by_cases hbody : trimEndMatches notAlphanumeric (trim text) = []
    · -- punctuation only
      have hall : ∀ x ∈ trim text, isAlphanumeric x = false := by
        obtain ⟨g, hs, hg, -⟩ := trimEndMatches_split notAlphanumeric (trim text)
        rw [hbody, List.nil_append] at hs
        rw [hs]
        exact fun x hx => by simpa [notAlphanumeric] using List.all_eq_true.mp hg x hx
      have hleft : (stripOneAnchoredHallucinatedOutro text).isSome = false := by
        unfold stripOneAnchoredHallucinatedOutro
        simp only [hempty, hbody]
        rfl
      rw [hleft, hasOutro, finalSentence, lowercaseChars_notAlphanumeric hall, hbody]
      decide
    · obtain ⟨b, c, g, htrim, hc, hg, -⟩ := exists_lastAlphanumeric hbody
      obtain ⟨head, tail, hcut⟩ := splitFinalSentence_snoc b
      obtain ⟨d, hd, hlower⟩ := alphanumeric_lower_cases hc
      rw [strip_isSome_eq htrim hc hg hlower (hcut c hc).1, htrim,
        hasOutro_eq hg hd hlower (hcut d hd).2]

/-! ## the sanitizer -/

/-- a strip keeps a beginning of the trimmed text -/
theorem strip_isPrefix {text stripped : Text}
    (h : stripOneAnchoredHallucinatedOutro text = some stripped) :
    stripped <+: trim text ∧ trimEnd stripped = stripped := by
  have hbody : trimEndMatches notAlphanumeric (trim text) <+: trim text := by
    obtain ⟨g, hs, -, -⟩ := trimEndMatches_split notAlphanumeric (trim text)
    exact ⟨g, hs.symm⟩
  have hend : ∀ {s t : Text}, s <+: t → trimEnd s <+: t ∧ trimEnd (trimEnd s) = trimEnd s := by
    intro s t hst
    obtain ⟨g, hs, -, hlast⟩ := trimEndMatches_split isWhitespace s
    exact ⟨List.IsPrefix.trans ⟨g, hs.symm⟩ hst, trimEndMatches_of_lastSep hlast⟩
  unfold stripOneAnchoredHallucinatedOutro at h
  simp only at h
  split at h
  · cases h
  split at h
  · cases h
  split at h
  · obtain rfl := Option.some.inj h
    exact hend (List.IsPrefix.trans ⟨_, splitFinalSentence_append _⟩ hbody)
  · obtain ⟨suffix, -, rfl⟩ := Option.map_eq_some_iff.mp h
    exact hend ((List.take_prefix _ _).trans hbody)

theorem trim_of_isPrefix {s t : Text} (hst : s <+: trim t) (hs : trimEnd s = s) : trim s = s := by
  obtain ⟨u, hu⟩ := hst
  have hhead : headSep isWhitespace s = true :=
    headSep_of_append (t := u) (by rw [hu]; exact (trimMatches_trimmed _ t).1)
  rw [trim, trimMatches, trimStartMatches_of_headSep hhead]
  exact hs

/-- what the loop of the sanitizer leaves of a trimmed text -/
structure Stripped (current : Text) (result : Text × Bool) : Prop where
  isPrefix : result.1 <+: current
  trimmed : trim result.1 = result.1
  done : stripOneAnchoredHallucinatedOutro result.1 = none
  unchanged : result.2 = false → result.1 = current
  passes : ∃ n ≤ current.length,
    (fun text => text.bind stripOneAnchoredHallucinatedOutro)^[n] (some current) = some result.1

theorem stripOutros_stripped {current : Text} (htrim : trim current = current) :
    Stripped current (stripOutros current) := by
  fun_induction stripOutros current with
  | case1 current stripped h ih =>
    obtain ⟨hpre, hend⟩ := strip_isPrefix h
    have hlt := stripOne_length_lt h
    have hrest := ih (trim_of_isPrefix hpre hend)
    rw [htrim] at hpre
    refine ⟨hrest.isPrefix.trans hpre, hrest.trimmed, hrest.done, nofun, ?_⟩
    obtain ⟨n, hn, hpass⟩ := hrest.passes
    refine ⟨n + 1, by omega, ?_⟩
    rw [Function.iterate_succ_apply, Option.bind_some, h]
    exact hpass
  | case2 current h =>
    exact ⟨List.prefix_refl _, htrim, h, fun _ => rfl, 0, Nat.zero_le _, rfl⟩

theorem sanitize_cases (text : Text) :
    sanitizeSourceTranscriptText text = [] ∨
      sanitizeSourceTranscriptText text = (stripOutros (trim text)).1 := by
  unfold sanitizeSourceTranscriptText
  simp only
  split
  · exact Or.inl rfl
  · exact Or.inr rfl

theorem strip_nil : stripOneAnchoredHallucinatedOutro [] = none := by
  unfold stripOneAnchoredHallucinatedOutro
  rfl

/-- a text without an outro is left as it is -/
theorem sanitize_of_done {text : Text} (htrim : trim text = text)
    (h : stripOneAnchoredHallucinatedOutro text = none) :
    sanitizeSourceTranscriptText text = text := by
  have hloop : stripOutros text = (text, false) := by
    rw [stripOutros]
    split
    · rename_i hsome
      rw [h] at hsome
      cases hsome
    · rfl
  unfold sanitizeSourceTranscriptText
  rw [htrim, hloop]
  rfl

/-- **the sanitizer ends, is idempotent, keeps a beginning of the text and leaves no outro** -/
theorem sanitize_clean (text : Text) :
    (∃ n ≤ text.length, (fun text => text.bind stripOneAnchoredHallucinatedOutro)^[n]
        (some (trim text)) = some (stripOutros (trim text)).1 ∧
        stripOneAnchoredHallucinatedOutro (stripOutros (trim text)).1 = none) ∧
      sanitizeSourceTranscriptText (sanitizeSourceTranscriptText text) =
        sanitizeSourceTranscriptText text ∧
      (sanitizeSourceTranscriptText text = [] ∨ sanitizeSourceTranscriptText text <+: trim text) ∧
      (stripOneAnchoredHallucinatedOutro text).isSome = hasAnchoredHallucinatedOutro text ∧
      hasAnchoredHallucinatedOutro (sanitizeSourceTranscriptText text) = false ∧
      ∀ sources, qualityFailureReason (sanitizeSourceTranscriptText text) sources ≠
        some (.other "hallucinated suffix") := by
  have hstripped := stripOutros_stripped (trim_trim text)
  have hdone : stripOneAnchoredHallucinatedOutro (sanitizeSourceTranscriptText text) = none := by
    rcases sanitize_cases text with h | h
    · rw [h, strip_nil]
    · rw [h, hstripped.done]
  have htrimmed : trim (sanitizeSourceTranscriptText text) =
      sanitizeSourceTranscriptText text := by
    rcases sanitize_cases text with h | h
    · rw [h]
      rfl
    · rw [h, hstripped.trimmed]
  have hclean : hasAnchoredHallucinatedOutro (sanitizeSourceTranscriptText text) = false := by
    rw [← strip_isSome_iff, hdone]
    rfl
  refine ⟨?_, sanitize_of_done htrimmed hdone, ?_, strip_isSome_iff text, hclean, ?_⟩
  · obtain ⟨n, hn, hpass⟩ := hstripped.passes
    exact ⟨n, hn.trans (length_trimMatches_le _ _), hpass, hstripped.done⟩
  · rcases sanitize_cases text with h | h
    · exact Or.inl h
    · rw [h]
      exact Or.inr hstripped.isPrefix
  · intro sources h
    unfold qualityFailureReason lengthFailure at h
    simp only [htrimmed, hclean] at h
    split at h
    · exact absurd h (by decide)
    split at h
    · exact absurd h (by decide)
    split at h
    · exact absurd h (by decide)
    rw [if_neg (by simp)] at h
    split at h
    · exact absurd h (by decide)
    split at h
    · split at h
      · cases h
      · split at h
        · exact absurd h (by decide)
        · cases h
    · cases h

end Voisu.Decision
