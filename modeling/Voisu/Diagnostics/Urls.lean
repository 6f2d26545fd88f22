import Voisu.Diagnostics.Scrubbing
import Voisu.Lib.Runs

/-!
# The URLs of a scrubbed text

* `Behind text b`      `b` is what follows some scheme in `text`;
* `Stripped`, `Kept`   no query, fragment or user-info behind any scheme; all else as it was;
* `scrub_word`         the scrubber goes from word to word;
* `behind_first`       the schemes of a stripped URL: its own, and those behind it;
* `scrubEmbeddedUrls_iff`   **a text comes out stripped exactly when no URL holds another one with
                       user-info in its path**.
-/

namespace Voisu.Diagnostics
open Lib

/-- a scheme with its colon and slashes, in any case -/
def IsScheme (s : Text) : Prop := asciiLowercase s ∈ urlSchemes

def Behind (text b : Text) : Prop := ∃ scheme, IsScheme scheme ∧ scheme ++ b <:+ text

def authority (s : Text) : Text := s.takeWhile (· != '/')

/-- the part of a URL before its query and its fragment -/
def core (s : Text) : Text := s.takeWhile fun c => !isQueryOrFragment c

def Stripped (text : Text) : Prop := ∀ b, Behind text b →
  (∀ c ∈ b.takeWhile notWhitespace, isQueryOrFragment c = false) ∧
    '@' ∉ authority (b.takeWhile notWhitespace)

/-- a URL runs from a scheme to the next whitespace; all that is outside of one is kept -/
inductive Kept : Text → Text → Prop
  | plain {text : Text} (h : ∀ b, ¬ Behind text b) : Kept text text
  | url {before url after stripped out : Text}
      (hfirst : ∀ a b, before = a ++ b → b ≠ [] → schemeAt (b ++ url ++ after) = false)
      (hurl : schemeAt url = true) (hword : url.all notWhitespace = true)
      (hend : headSep notWhitespace after = true) (hsub : stripped.Sublist url)
      (h : Kept after out) : Kept (before ++ url ++ after) (before ++ stripped ++ out)

/-- the first scheme of a word, with what stands before and behind it -/
structure FirstUrl (word before scheme rest : Text) : Prop where
  word : word = before ++ scheme ++ rest
  isScheme : IsScheme scheme
  first : ∀ a b, before = a ++ b → b ≠ [] → schemeAt (b ++ scheme ++ rest) = false

/-! ## schemes -/

section
variable {scheme scheme' s text b : Text} {c : Char}

theorem IsScheme.letters (h : IsScheme scheme) :
    ∃ l, scheme = l ++ [':', '/', '/'] ∧ l.all isAsciiAlphabetic = true ∧ l ≠ [] := by
  have hone (name : Text) (hname : name.all isAsciiAlphabetic = true) (hne : name ≠ [])
      (heq : asciiLowercase scheme = name ++ [':', '/', '/']) :
      ∃ l, scheme = l ++ [':', '/', '/'] ∧ l.all isAsciiAlphabetic = true ∧ l ≠ [] := by
    have hstart : startsWith (asciiLowercase scheme) (name ++ [':', '/', '/']) = true := by
      rw [heq]
      exact startsWith_iff.2 (List.prefix_refl _)
    obtain ⟨l, z, rfl, hl, hlen⟩ := startsWith_scheme hname hstart
    have htotal := congrArg List.length heq
    simp only [asciiLowercase, List.length_map, List.length_append, hlen] at htotal
    obtain rfl : z = [] := List.length_eq_zero_iff.1 (by omega)
    refine ⟨l, List.append_nil _, hl, ?_⟩
    rintro rfl
    exact hne (List.length_eq_zero_iff.1 hlen.symm)
  simp only [IsScheme, urlSchemes, List.map_cons, List.map_nil, List.mem_cons, List.not_mem_nil,
    or_false] at h
  rcases h with h | h | h | h
  · exact hone "http".toList (by decide) (by decide) h
  · exact hone "https".toList (by decide) (by decide) h
  · exact hone "ws".toList (by decide) (by decide) h
  · exact hone "wss".toList (by decide) (by decide) h

theorem IsScheme.ne_nil (h : IsScheme scheme) : scheme ≠ [] := by
  obtain ⟨l, rfl, -⟩ := h.letters
  simp

theorem IsScheme.char (h : IsScheme scheme) (hc : c ∈ scheme) :
    isAsciiAlphabetic c = true ∨ c = ':' ∨ c = '/' := by
  obtain ⟨l, rfl, hl, -⟩ := h.letters
  rcases List.mem_append.1 hc with hc | hc
  · exact .inl (List.all_eq_true.1 hl c hc)
  · simp only [List.mem_cons, List.not_mem_nil, or_false] at hc
    tauto

theorem IsScheme.not_mem (h : IsScheme scheme) (hletter : isAsciiAlphabetic c = false)
    (hcolon : c ≠ ':') (hslash : c ≠ '/') : c ∉ scheme := by
  intro hc
  rcases h.char hc with h | h | h
  · rw [hletter] at h
    cases h
  · exact hcolon h
  · exact hslash h

theorem IsScheme.word (h : IsScheme scheme) : scheme.all notWhitespace = true := by
  refine List.all_eq_true.2 fun c hc => ?_
  rcases h.char hc with hc | rfl | rfl
  · exact letter_notWhitespace hc
  · rfl
  · rfl

theorem IsScheme.blank_not_mem (h : IsScheme scheme) (hc : notWhitespace c = false) :
    c ∉ scheme := by
  intro hmem
  rw [List.all_eq_true.1 h.word c hmem] at hc
  cases hc

theorem IsScheme.head (h : IsScheme (c :: s)) : isAsciiAlphabetic c = true := by
  obtain ⟨l, heq, hl, hne⟩ := h.letters
  obtain ⟨d, l, rfl⟩ := List.exists_cons_of_ne_nil hne
  rw [(List.cons.inj heq).1]
  exact List.all_eq_true.1 hl d List.mem_cons_self

theorem schemeAt_iff : schemeAt s = true ↔ ∃ scheme b, IsScheme scheme ∧ scheme ++ b = s := by
  constructor
  · intro h
    obtain ⟨name, hname, hs⟩ := List.any_eq_true.1 h
    obtain ⟨t, ht⟩ := startsWith_iff.1 hs
    obtain ⟨scheme, b, rfl, hscheme, -⟩ := List.map_eq_append_iff.1 ht.symm
    rw [← hscheme] at hname
    exact ⟨scheme, b, hname, rfl⟩
  · rintro ⟨scheme, b, h, rfl⟩
    refine List.any_eq_true.2 ⟨_, h, startsWith_iff.2 ?_⟩
    rw [asciiLowercase_append]
    exact List.prefix_append _ _

/-- the slashes are the end of a scheme -/
theorem slashes_end {q k l : Text} (hl : l.all isAsciiAlphabetic = true)
    (h : q ++ [':', '/', '/'] ++ k = l ++ [':', '/', '/']) : k = [] := by
  have hlen := congrArg List.length h
  simp only [List.length_append] at hlen
  rw [List.append_assoc] at h
  rcases List.append_eq_append_iff.1 h with ⟨d, rfl, hd⟩ | ⟨d, rfl, -⟩
  · cases d with
    | nil => exact List.append_cancel_left (hd.trans (List.append_nil _).symm)
    | cons e d =>
      have hcolon : ':' = e := (List.cons.inj hd).1
      have hletter := List.all_eq_true.1 hl e (by simp)
      rw [← hcolon] at hletter
      cases hletter
  · refine List.length_eq_zero_iff.1 ?_
    simp only [List.length_append] at hlen
    omega

/-- one scheme ends in another only at its own end -/
theorem IsScheme.ends {q k : Text} (h : IsScheme scheme) (h' : IsScheme scheme')
    (heq : scheme = q ++ scheme' ++ k) : k = [] := by
  obtain ⟨l, rfl, hl, -⟩ := h.letters
  obtain ⟨l', rfl, -, -⟩ := h'.letters
  refine slashes_end (q := q ++ l') hl ?_
  rw [heq, List.append_assoc q]

/-- none is the end of another -/
theorem IsScheme.not_suffix {q : Text} (h : IsScheme (q ++ scheme')) (h' : IsScheme scheme') :
    q = [] := by
  have hnames : ∀ n ∈ urlSchemes, ∀ m ∈ urlSchemes, m <:+ n → m = n := by decide
  have hsuffix : asciiLowercase scheme' <:+ asciiLowercase (q ++ scheme') := by
    rw [asciiLowercase_append]
    exact List.suffix_append _ _
  have hlen := congrArg List.length (hnames _ h _ h' hsuffix)
  simp only [asciiLowercase, List.length_map, List.length_append] at hlen
  exact List.length_eq_zero_iff.1 (by omega)

/-- a scheme that starts in a text before another one lies in the two -/
theorem IsScheme.prefix_joint {p h : Text} (hs : IsScheme scheme) (hs' : IsScheme scheme')
    (heq : scheme' ++ b = p ++ scheme ++ h) : ∃ k, scheme' ++ k = p ++ scheme := by
  rcases List.append_eq_append_iff.1 heq with ⟨k, hk, -⟩ | ⟨k, hk, -⟩
  · exact ⟨k, hk.symm⟩
  · obtain rfl := hs'.ends hs hk
    exact ⟨[], by rw [hk, List.append_nil, List.append_nil]⟩

/-! ## what follows a scheme -/

theorem not_behind_nil : ¬ Behind [] b := by
  rintro ⟨scheme, hs, h⟩
  exact hs.ne_nil (List.append_eq_nil_iff.1 (List.suffix_nil.1 h)).1

theorem behind_cons : Behind (c :: s) b ↔
    (∃ scheme, IsScheme scheme ∧ scheme ++ b = c :: s) ∨ Behind s b := by
  constructor
  · rintro ⟨scheme, hs, h⟩
    rcases List.suffix_cons_iff.1 h with h | h
    · exact .inl ⟨scheme, hs, h⟩
    · exact .inr ⟨scheme, hs, h⟩
  · rintro (⟨scheme, hs, h⟩ | ⟨scheme, hs, h⟩)
    · exact ⟨scheme, hs, h ▸ List.suffix_refl _⟩
    · exact ⟨scheme, hs, h.trans (List.suffix_cons c s)⟩

theorem Behind.suffix (h : Behind s b) (hs : s <:+ text) : Behind text b := by
  obtain ⟨scheme, hscheme, hb⟩ := h
  exact ⟨scheme, hscheme, hb.trans hs⟩

theorem Behind.of_cons (h : Behind (c :: s) b) (hno : schemeAt (c :: s) = false) : Behind s b := by
  rcases behind_cons.1 h with ⟨scheme, hs, heq⟩ | h
  · rw [schemeAt_iff.2 ⟨scheme, b, hs, heq⟩] at hno
    cases hno
  · exact h

/-- the text behind a scheme is part of the text -/
theorem Behind.mem (h : Behind text b) (hc : c ∈ b) : c ∈ text := by
  obtain ⟨scheme, -, hb⟩ := h
  exact hb.subset (List.mem_append_right _ hc)

theorem Behind.takeWhile (h : Behind text b) (hword : text.all notWhitespace = true) :
    b.takeWhile notWhitespace = b := by
  have hall := @List.takeWhile_append_of_pos _ notWhitespace b []
    fun c hc => List.all_eq_true.1 hword c (h.mem hc)
  rwa [List.append_nil, List.takeWhile_nil, List.append_nil] at hall

/-- a character that no scheme holds cuts a text in two -/
theorem behind_append_cons {w : Char} (hw : ∀ scheme, IsScheme scheme → w ∉ scheme) (x y : Text) :
    Behind (x ++ w :: y) b ↔ (∃ b', Behind x b' ∧ b = b' ++ w :: y) ∨ Behind y b := by
  induction x with
  | nil =>
    have hhead : ¬ ∃ scheme, IsScheme scheme ∧ scheme ++ b = w :: y := by
      rintro ⟨scheme, hs, heq⟩
      obtain ⟨d, scheme, rfl⟩ := List.exists_cons_of_ne_nil hs.ne_nil
      exact hw _ hs ((List.cons.inj heq).1 ▸ List.mem_cons_self)
    rw [List.nil_append, behind_cons, or_iff_right hhead]
    exact (or_iff_right fun ⟨b', h, _⟩ => not_behind_nil h).symm
  | cons c x ih =>
    rw [List.cons_append, behind_cons, ih]
    constructor
    · rintro (⟨scheme, hs, heq⟩ | ⟨b', h, rfl⟩ | h)
      · have hpre : scheme <+: (c :: x) ++ w :: y := ⟨b, heq⟩
        obtain ⟨b', hb'⟩ := prefix_of_append_cons hpre (hw scheme hs)
        refine .inl ⟨b', behind_cons.2 (.inl ⟨scheme, hs, hb'⟩), ?_⟩
        rw [← List.cons_append, ← hb', List.append_assoc] at heq
        exact List.append_cancel_left heq
      · exact .inl ⟨b', behind_cons.2 (.inr h), rfl⟩
      · exact .inr h
    · rintro (⟨b', h, rfl⟩ | h)
      · rcases behind_cons.1 h with ⟨scheme, hs, heq⟩ | h
        · refine .inl ⟨scheme, hs, ?_⟩
          rw [← List.append_assoc, heq, List.cons_append]
        · exact .inr (.inl ⟨b', h, rfl⟩)
      · exact .inr (.inr h)

/-- **the schemes of a text that starts with one: that one, and those behind it** -/
theorem behind_scheme (hs : IsScheme scheme) (h : Text) :
    Behind (scheme ++ h) b ↔ b = h ∨ Behind h b := by
  -- no scheme starts inside the first
  have hinside (q y : Text) (hq : q ≠ []) (hy : scheme = q ++ y) (hb : Behind (y ++ h) b) :
      Behind h b := by
    induction y generalizing q with
    | nil => exact hb
    | cons c y ih =>
      have hrest := ih (q ++ [c]) (by simp) (by rw [hy]; simp)
      rcases behind_cons.1 hb with ⟨scheme', hs', heq⟩ | hb
      · exfalso
        obtain ⟨l, hl, hletters, -⟩ := hs.letters
        have hjoint : scheme' ++ b = (c :: y) ++ h := heq
        rcases List.append_eq_append_iff.1 hjoint with ⟨k, hk, -⟩ | ⟨k, hk, -⟩
        · obtain rfl := hs.ends hs' (q := q) (k := k) (by rw [hy, hk, List.append_assoc])
          rw [List.append_nil] at hk
          rw [hy, hk] at hs
          exact hq (hs.not_suffix hs')
        · have hhead : isAsciiAlphabetic c = true := (hk ▸ hs').head
          rw [hy] at hl
          rcases List.append_eq_append_iff.1 hl with ⟨d, rfl, hd⟩ | ⟨d, -, hd⟩
          · rw [hd] at hk
            rw [hd, ← List.append_assoc] at hy
            have hend : k = [] := by
              obtain ⟨l', hl', hletters', -⟩ := hs'.letters
              exact slashes_end hletters' (hk.symm.trans hl')
            rw [hend, List.append_nil, ← hd] at hk
            rw [hy, List.append_assoc, ← hd, ← hk] at hs
            exact hq (hs.not_suffix hs')
          · have hmem : c ∈ [':', '/', '/'] := by
              rw [hd]
              simp
            simp only [List.mem_cons, List.not_mem_nil, or_false] at hmem
            rcases hmem with rfl | rfl | rfl <;> cases hhead
      · exact hrest hb
  constructor
  · intro hb
    obtain ⟨c, y, rfl⟩ := List.exists_cons_of_ne_nil hs.ne_nil
    rcases behind_cons.1 hb with ⟨scheme', hs', heq⟩ | hb
    · refine .inl ?_
      have hjoint : scheme' ++ b = (c :: y) ++ h := heq
      rcases List.append_eq_append_iff.1 hjoint with ⟨k, hk, hb⟩ | ⟨k, hk, hb⟩
      · obtain rfl := hs.ends hs' (q := []) hk
        exact hb
      · obtain rfl := hs'.ends hs (q := []) hk
        exact hb.symm
    · exact .inr (hinside [c] y (List.cons_ne_nil c []) rfl hb)
  · rintro (rfl | hb)
    · exact ⟨scheme, hs, List.suffix_refl _⟩
    · exact hb.suffix (List.suffix_append _ _)

/-! ## the words of a text -/

theorem stripped_gap (hc : notWhitespace c = false) : Stripped (c :: s) ↔ Stripped s := by
  have hbehind (b : Text) : Behind (c :: s) b ↔ Behind s b :=
    ⟨fun h => h.of_cons (schemeAt_whitespace hc), fun h => h.suffix (List.suffix_cons c s)⟩
  simp only [Stripped, hbehind]

theorem stripped_gaps {g : Text} (hg : g.all (fun c => !notWhitespace c) = true) :
    Stripped (g ++ s) ↔ Stripped s := by
  induction g with
  | nil => rfl
  | cons c g ih =>
    rw [List.all_cons, Bool.and_eq_true, Bool.not_eq_true'] at hg
    rw [List.cons_append, stripped_gap hg.1, ih hg.2]

theorem stripped_word {t : Text} (ht : t.all notWhitespace = true)
    (hs : headSep notWhitespace s = true) : Stripped (t ++ s) ↔ Stripped t ∧ Stripped s := by
  cases s with
  | nil =>
    rw [List.append_nil]
    exact (and_iff_left fun b h => absurd h not_behind_nil).symm
  | cons w s =>
    have hw : notWhitespace w = false := by simpa [headSep] using hs
    rw [stripped_gap hw]
    have hcut (b : Text) :=
      behind_append_cons (b := b) (w := w) (fun scheme h => h.blank_not_mem hw) t s
    have hline (b : Text) (hb : Behind t b) : (b ++ w :: s).takeWhile notWhitespace = b := by
      rw [List.takeWhile_append_of_pos fun c hc => List.all_eq_true.1 ht c (hb.mem hc),
        List.takeWhile_cons_of_neg (by rw [hw]; exact Bool.false_ne_true), List.append_nil]
    constructor
    · intro h
      refine ⟨fun b hb => ?_, fun b hb => h b ((hcut b).2 (.inr hb))⟩
      have hall := h _ ((hcut _).2 (.inl ⟨b, hb, rfl⟩))
      rwa [hline b hb, ← hb.takeWhile ht] at hall
    · rintro ⟨hclean, hs⟩ b hb
      rcases (hcut b).1 hb with ⟨b', hb', rfl⟩ | hb'
      · rw [hline b' hb', ← hb'.takeWhile ht]
        exact hclean b' hb'
      · exact hs b hb'

/-- what becomes of a word -/
def scrubWord : Text → Text
  | [] => []
  | c :: s => if schemeAt (c :: s) then stripUrlSecrets (c :: s) else c :: scrubWord s

/-- no scheme reaches over the end of a word -/
theorem schemeAt_append {t : Text} (hs : headSep notWhitespace s = true) (hne : t ≠ []) :
    schemeAt (t ++ s) = schemeAt t := by
  cases s with
  | nil => rw [List.append_nil]
  | cons w s =>
    have hw : notWhitespace w = false := by simpa [headSep] using hs
    refine Bool.eq_iff_iff.2 ⟨fun h => ?_, fun h => ?_⟩
    · obtain ⟨scheme, b, hscheme, heq⟩ := schemeAt_iff.1 h
      obtain ⟨k, hk⟩ := prefix_of_append_cons ⟨b, heq⟩ (hscheme.blank_not_mem hw)
      exact schemeAt_iff.2 ⟨scheme, k, hscheme, hk⟩
    · obtain ⟨scheme, b, hscheme, rfl⟩ := schemeAt_iff.1 h
      exact schemeAt_iff.2 ⟨scheme, b ++ w :: s, hscheme, by simp⟩

/-- **the scrubber goes from word to word** -/
theorem scrub_word {t : Text} (ht : t.all notWhitespace = true)
    (hs : headSep notWhitespace s = true) :
    scrubEmbeddedUrls (t ++ s) = scrubWord t ++ scrubEmbeddedUrls s := by
  induction t with
  | nil => rfl
  | cons c t ih =>
    obtain ⟨hc, htail⟩ := Bool.and_eq_true_iff.1 ((List.all_cons ..).symm.trans ht)
    have hscheme : schemeAt (c :: (t ++ s)) = schemeAt (c :: t) :=
      schemeAt_append hs (List.cons_ne_nil c t)
    rw [List.cons_append, scrubWord]
    by_cases h : schemeAt (c :: t) = true
    · have hline : (t ++ s).takeWhile notWhitespace = t := by
        rw [List.takeWhile_append_of_pos (List.all_eq_true.1 htail)]
        cases s with
        | nil => exact List.append_nil t
        | cons w s =>
          have hw : notWhitespace w = false := by simpa [headSep] using hs
          rw [List.takeWhile_cons_of_neg (by rw [hw]; exact Bool.false_ne_true), List.append_nil]
      rw [scrubEmbeddedUrls, scrubUrlsFrom, hscheme, if_pos h, if_pos h,
        List.takeWhile_cons_of_pos hc, hline, scrubUrlsFrom_drop, List.drop_left]
      rfl
    · rw [scrubEmbeddedUrls_cons (by rw [hscheme]; exact h), if_neg h, ih htail, List.cons_append]

theorem scrub_gap {g : Text} (hg : g.all (fun c => !notWhitespace c) = true) (s : Text) :
    scrubEmbeddedUrls (g ++ s) = g ++ scrubEmbeddedUrls s := by
  induction g with
  | nil => rfl
  | cons c g ih =>
    rw [List.all_cons, Bool.and_eq_true, Bool.not_eq_true'] at hg
    have hno : ¬ schemeAt (c :: (g ++ s)) = true := by
      rw [schemeAt_whitespace hg.1]
      exact Bool.false_ne_true
    rw [List.cons_append, scrubEmbeddedUrls_cons hno, ih hg.2, List.cons_append]

example : scrubEmbeddedUrls "see http://u:p@h/x?y ok".toList = "see http://h/x ok".toList := by
  decide +kernel

theorem headSep_scrub (hs : headSep notWhitespace s = true) :
    headSep notWhitespace (scrubEmbeddedUrls s) = true := by
  cases s with
  | nil => rfl
  | cons w s =>
    have hw : notWhitespace w = false := by simpa [headSep] using hs
    have hno : ¬ schemeAt (w :: s) = true := by
      rw [schemeAt_whitespace hw]
      exact Bool.false_ne_true
    rw [scrubEmbeddedUrls_cons hno]
    exact hs

/-! ## one word -/

variable {word before rest : Text}

theorem splitOnceStr_scheme {l : Text} (hl : l.all isAsciiAlphabetic = true) (rest : Text) :
    splitOnceStr "://".toList (l ++ [':', '/', '/'] ++ rest) = some (l, rest) := by
  have hnot : ¬ "://".toList <:+: l ++ [':', '/'] := by
    intro h
    have hcount := h.sublist.count_le '/'
    have hnone : l.count '/' = 0 :=
      List.count_eq_zero.2 fun hmem => by cases List.all_eq_true.1 hl '/' hmem
    rw [List.count_append, hnone] at hcount
    exact absurd hcount (by decide)
  have hjoint : (l ++ [':', '/']) ++ ['/'] = l ++ "://".toList := by simp
  have hfirst : splitOnceStr "://".toList ((l ++ [':', '/']) ++ '/' :: rest) = some (l, rest) :=
    splitOnceStr_first (by decide) hjoint hnot
  rw [← hfirst]
  simp

/-- the authority without its user-info -/
def hostOf (text : Text) : Text := ((rsplitOnceAt '@' text).map Prod.snd).getD text

theorem hostOf_spec (text : Text) :
    ∃ user, text = user ++ hostOf text ∧ (user = [] ∨ ∃ u, user = u ++ ['@']) ∧
      '@' ∉ hostOf text := by
  rw [hostOf]
  cases hr : rsplitOnceAt '@' text with
  | none =>
    refine ⟨[], rfl, .inl rfl, fun h => ?_⟩
    rw [rsplitOnceAt, Option.map_eq_none_iff, splitOnceAt] at hr
    simp only [Option.map_none, Option.getD_none] at h
    simp [h] at hr
  | some p =>
    obtain ⟨⟨x, y⟩, hs, rfl⟩ := Option.map_eq_some_iff.1 hr
    refine ⟨y.reverse ++ ['@'], ?_, .inr ⟨_, rfl⟩, ?_⟩
    · rw [List.append_assoc]
      exact rsplitOnceAt_eq_some hr
    · show '@' ∉ x.reverse
      rw [List.mem_reverse]
      exact (splitOnceAt_eq_some hs).2

example : hostOf "user@host".toList = "host".toList := by decide +kernel

/-- the core of a URL falls into an authority and a path -/
theorem stripUrlSecrets_parts (hs : IsScheme scheme) (rest : Text) :
    ∃ name path, core rest = name ++ path ∧ '/' ∉ name ∧ (path = [] ∨ ∃ p, path = '/' :: p) ∧
      stripUrlSecrets (scheme ++ rest) = scheme ++ (hostOf name ++ path) := by
  obtain ⟨l, rfl, hl, -⟩ := hs.letters
  rw [stripUrlSecrets, urlParts, splitOnceStr_scheme hl, Option.map_some]
  have hcore : rest.takeWhile (fun c => !isQueryOrFragment c) = core rest := rfl
  dsimp only
  rw [hcore]
  cases hcut : splitOnceAt '/' (core rest) with
  | none =>
    refine ⟨core rest, [], (List.append_nil _).symm, fun h => ?_, .inl rfl, ?_⟩
    · rw [splitOnceAt, if_pos h] at hcut
      cases hcut
    · rw [UrlParts.text_eq]
      rfl
  | some p =>
    obtain ⟨hsplit, hnot⟩ := splitOnceAt_eq_some hcut
    refine ⟨p.1, '/' :: p.2, hsplit, hnot, .inr ⟨p.2, rfl⟩, ?_⟩
    rw [UrlParts.text_eq]
    rfl

/-- **a stripped URL: its scheme, and the end of its core, without the user-info** -/
theorem stripUrlSecrets_spec (hs : IsScheme scheme) (rest : Text) :
    ∃ user kept, stripUrlSecrets (scheme ++ rest) = scheme ++ kept ∧ core rest = user ++ kept ∧
      (user = [] ∨ ∃ u, user = u ++ ['@'] ∧ '/' ∉ u) ∧ '@' ∉ authority kept := by
  obtain ⟨name, path, hcore, hslash, hpath, hout⟩ := stripUrlSecrets_parts hs rest
  obtain ⟨user, hname, huser, hhost⟩ := hostOf_spec name
  have hauthority : authority (hostOf name ++ path) = hostOf name := by
    have hno : ∀ c ∈ hostOf name, (c != '/') = true := by
      intro c hc
      have hmem : c ∈ name := by
        rw [hname]
        exact List.mem_append_right _ hc
      simpa using fun h : c = '/' => hslash (h ▸ hmem)
    rw [authority, List.takeWhile_append_of_pos hno]
    rcases hpath with rfl | ⟨p, rfl⟩
    · exact List.append_nil _
    · exact List.append_nil _
  refine ⟨user, hostOf name ++ path, hout, ?_, ?_, ?_⟩
  · rw [hcore, ← List.append_assoc, ← hname]
  · refine huser.imp_right fun ⟨u, hu⟩ => ⟨u, hu, fun h => hslash ?_⟩
    rw [hname, hu]
    simp [h]
  · rw [hauthority]
    exact hhost

theorem stripUrlSecrets_sublist (hs : IsScheme scheme) (rest : Text) :
    (stripUrlSecrets (scheme ++ rest)).Sublist (scheme ++ rest) := by
  obtain ⟨user, kept, hout, hcore, -⟩ := stripUrlSecrets_spec hs rest
  have hkept : kept.Sublist (core rest) := by
    rw [hcore]
    exact List.sublist_append_right _ _
  rw [hout]
  exact (hkept.trans (List.takeWhile_sublist _)).append_left scheme

/-- the user-info holds no scheme -/
theorem behind_userInfo {user kept : Text} (huser : user = [] ∨ ∃ u, user = u ++ ['@'] ∧ '/' ∉ u) :
    Behind (user ++ kept) b ↔ Behind kept b := by
  refine ⟨fun h => ?_, fun h => h.suffix (List.suffix_append _ _)⟩
  rcases huser with rfl | ⟨u, rfl, hslash⟩
  · exact h
  · rw [List.append_assoc, List.singleton_append, behind_append_cons fun scheme hs =>
      hs.not_mem rfl (by decide) (by decide)] at h
    rcases h with ⟨b', ⟨scheme, hs, hsuffix⟩, -⟩ | h
    · obtain ⟨l, rfl, -⟩ := hs.letters
      exact absurd (hsuffix.subset (by simp)) hslash
    · exact h

theorem scrubWord_sublist (word : Text) : (scrubWord word).Sublist word := by
  induction word with
  | nil => exact List.Sublist.slnil
  | cons c s ih =>
    rw [scrubWord]
    split
    next h =>
      obtain ⟨scheme, b, hs, heq⟩ := schemeAt_iff.1 h
      rw [← heq]
      exact stripUrlSecrets_sublist hs b
    next => exact ih.cons_cons c

theorem scrubWord_word (h : word.all notWhitespace = true) :
    (scrubWord word).all notWhitespace = true :=
  List.all_eq_true.2 fun c hc => List.all_eq_true.1 h c ((scrubWord_sublist word).subset hc)

theorem FirstUrl.tail (h : FirstUrl (c :: word) (c :: before) scheme rest) :
    FirstUrl word before scheme rest where
  word := (List.cons.inj h.word).2
  isScheme := h.isScheme
  first a b hab hne := h.first (c :: a) b (by rw [hab]; rfl) hne

theorem FirstUrl.head (h : FirstUrl (c :: word) (c :: before) scheme rest) :
    schemeAt (c :: word) = false := by
  have hfirst := h.first [] (c :: before) rfl (List.cons_ne_nil c before)
  rwa [← h.word] at hfirst

theorem scrubWord_first (h : FirstUrl word before scheme rest) :
    scrubWord word = before ++ stripUrlSecrets (scheme ++ rest) := by
  induction before generalizing word with
  | nil =>
    obtain rfl : word = scheme ++ rest := h.word
    obtain ⟨c, scheme, rfl⟩ := List.exists_cons_of_ne_nil h.isScheme.ne_nil
    exact if_pos (schemeAt_iff.2 ⟨_, rest, h.isScheme, rfl⟩)
  | cons c before ih =>
    obtain ⟨word, rfl⟩ : ∃ tail, word = c :: tail := ⟨_, h.word⟩
    have hno : ¬ schemeAt (c :: word) = true := by
      rw [h.head]
      exact Bool.false_ne_true
    rw [scrubWord, if_neg hno, ih h.tail, List.cons_append]

/-- **the schemes of a word that is stripped behind its first scheme** -/
theorem behind_first (h : FirstUrl word before scheme rest) (kept : Text) :
    Behind (before ++ (scheme ++ kept)) b ↔ b = kept ∨ Behind kept b := by
  induction before generalizing word with
  | nil => exact behind_scheme h.isScheme kept
  | cons c before ih =>
    obtain ⟨word, rfl⟩ : ∃ tail, word = c :: tail := ⟨_, h.word⟩
    rw [← ih h.tail, List.cons_append, behind_cons]
    refine or_iff_right ?_
    rintro ⟨scheme', hs', heq⟩
    -- it would lie in the text up to the first scheme, which is not changed
    obtain ⟨k, hk⟩ := h.isScheme.prefix_joint (b := b) (p := c :: before) (h := kept) hs'
      (by rw [heq]; simp)
    have hfalse := h.head
    have hword : scheme' ++ (k ++ rest) = c :: word := by
      rw [← List.append_assoc, hk]
      exact h.word.symm
    rw [schemeAt_iff.2 ⟨scheme', k ++ rest, hs', hword⟩] at hfalse
    cases hfalse

/-- **a word comes out stripped exactly when no URL with user-info stands in its first one** -/
theorem stripped_first (hword : word.all notWhitespace = true)
    (h : FirstUrl word before scheme rest) :
    Stripped (scrubWord word) ↔ ∀ b, Behind (core rest) b → '@' ∉ authority b := by
  obtain ⟨user, kept, hout, hcore, huser, hclean⟩ := stripUrlSecrets_spec h.isScheme rest
  have hbehind (b : Text) : Behind (scrubWord word) b ↔ b = kept ∨ Behind (core rest) b := by
    rw [scrubWord_first h, hout, behind_first h, hcore, behind_userInfo huser]
  have hline (b : Text) (hb : Behind (scrubWord word) b) : b.takeWhile notWhitespace = b :=
    hb.takeWhile (scrubWord_word hword)
  constructor
  · intro hs b hb
    have hall := hs b ((hbehind b).2 (.inr hb))
    rw [hline b ((hbehind b).2 (.inr hb))] at hall
    exact hall.2
  · intro hs b hb
    rw [hline b hb]
    have hplain : ∀ c ∈ core rest, isQueryOrFragment c = false := fun c hc => by
      simpa using List.all_eq_true.1 (List.all_takeWhile (p := fun c => !isQueryOrFragment c)) c hc
    rcases (hbehind b).1 hb with rfl | hb
    · exact ⟨fun c hc => hplain c (by rw [hcore]; exact List.mem_append_right _ hc), hclean⟩
    · exact ⟨fun c hc => hplain c (hb.mem hc), hs b hb⟩

theorem first_or_none (word : Text) :
    (∀ b, ¬ Behind word b) ∧ scrubWord word = word ∨
      ∃ before scheme rest, FirstUrl word before scheme rest := by
  induction word with
  | nil => exact .inl ⟨fun b => not_behind_nil, rfl⟩
  | cons c word ih =>
    by_cases hc : schemeAt (c :: word) = true
    · obtain ⟨scheme, rest, hs, heq⟩ := schemeAt_iff.1 hc
      refine .inr ⟨[], scheme, rest, heq.symm, hs, fun a b hab hne => ?_⟩
      exact absurd (List.append_eq_nil_iff.1 hab.symm).2 hne
    · have hfalse := Bool.eq_false_iff.2 hc
      rcases ih with ⟨hnone, hsame⟩ | ⟨before, scheme, rest, h⟩
      · refine .inl ⟨fun b hb => hnone b (hb.of_cons hfalse), ?_⟩
        rw [scrubWord, if_neg hc, hsame]
      · refine .inr ⟨c :: before, scheme, rest, by rw [h.word]; rfl, h.isScheme,
          fun a b hab hne => ?_⟩
        cases a with
        | nil =>
          obtain rfl : c :: before = b := hab
          rw [← hfalse, h.word]
          rfl
        | cons d a => exact h.first a b (List.cons.inj hab).2 hne

/-! ## a text -/

theorem Kept.cons {out : Text} (hc : schemeAt (c :: s) = false) (h : Kept s out) :
    Kept (c :: s) (c :: out) := by
  cases h with
  | plain hnone => exact .plain fun b hb => hnone b (hb.of_cons hc)
  | @url before url after stripped out hfirst hurl hword hend hsub h =>
    refine @Kept.url (c :: before) _ _ _ _ (fun a b hab hne => ?_) hurl hword hend hsub h
    cases a with
    | nil =>
      obtain rfl : c :: before = b := hab
      exact hc
    | cons d a => exact hfirst a b (List.cons.inj hab).2 hne

theorem kept_word {t out : Text} (ht : t.all notWhitespace = true)
    (hs : headSep notWhitespace s = true) (h : Kept s out) :
    Kept (t ++ s) (scrubWord t ++ out) := by
  induction t with
  | nil => exact h
  | cons c t ih =>
    by_cases hc : schemeAt (c :: t) = true
    · have hsub := scrubWord_sublist (c :: t)
      exact @Kept.url [] _ _ _ _ (fun a b hab hne =>
        absurd (List.append_eq_nil_iff.1 hab.symm).2 hne) hc ht hs hsub h
    · rw [scrubWord, if_neg hc]
      refine .cons ?_ (ih (Bool.and_eq_true_iff.1 ((List.all_cons ..).symm.trans ht)).2)
      show schemeAt ((c :: t) ++ s) = false
      rw [schemeAt_append hs (List.cons_ne_nil c t)]
      exact Bool.eq_false_iff.2 hc

theorem kept_gap {g out : Text} (hg : g.all (fun c => !notWhitespace c) = true) (h : Kept s out) :
    Kept (g ++ s) (g ++ out) := by
  induction g with
  | nil => exact h
  | cons c g ih =>
    rw [List.all_cons, Bool.and_eq_true, Bool.not_eq_true'] at hg
    exact .cons (schemeAt_whitespace hg.1) (ih hg.2)

/-- **all that is outside of a URL is kept** -/
theorem kept_scrub {off : Nat} {rs : List (Run Char)} (h : Runs notWhitespace off text rs) :
    Kept text (scrubEmbeddedUrls text) := by
  induction h with
  | @gap off g hg =>
    have hgap : scrubEmbeddedUrls (g ++ []) = g ++ [] := scrub_gap hg []
    have hkept : Kept (g ++ []) (g ++ []) := kept_gap hg (.plain fun b => not_behind_nil)
    rw [List.append_nil] at hgap hkept
    rw [hgap]
    exact hkept
  | run hg ht hne hs h ih =>
    rw [List.append_assoc, scrub_gap hg, scrub_word ht hs]
    exact kept_gap hg (kept_word ht hs ih)

theorem stripped_runs {off : Nat} {rs : List (Run Char)} (h : Runs notWhitespace off text rs) :
    Stripped (scrubEmbeddedUrls text) ↔ ∀ r ∈ rs, Stripped (scrubWord r.text) := by
  induction h with
  | @gap off g hg =>
    have hgap : scrubEmbeddedUrls (g ++ []) = g ++ [] := scrub_gap hg []
    have hstripped := stripped_gaps (s := []) hg
    rw [List.append_nil] at hgap hstripped
    rw [hgap, hstripped]
    simp [Stripped, not_behind_nil]
  | run hg ht hne hs h ih =>
    rw [List.append_assoc, scrub_gap hg, scrub_word ht hs, stripped_gaps hg,
      stripped_word (scrubWord_word ht) (headSep_scrub hs), ih, List.forall_mem_cons]

/-- **a text comes out stripped exactly when no word holds, behind its first scheme and before the
query of that URL, a scheme with user-info behind it; what is outside of a URL is always kept** -/
theorem scrubEmbeddedUrls_iff (text : Text) :
    Stripped (scrubEmbeddedUrls text) ∧ Kept text (scrubEmbeddedUrls text) ↔
      ∀ word ∈ splitWhitespace text, ∀ before scheme rest, FirstUrl word before scheme rest →
        ∀ b, Behind (core rest) b → '@' ∉ authority b := by
  rw [and_iff_left (kept_scrub (runs_spec notWhitespace 0 text)),
    stripped_runs (runs_spec notWhitespace 0 text)]
  show _ ↔ ∀ word ∈ (runs notWhitespace 0 text).map Run.text, _
  rw [List.forall_mem_map]
  refine forall₂_congr fun r hr => ?_
  have hword : r.text.all notWhitespace = true :=
    (words_all (p := notWhitespace) (s := text) (List.mem_map_of_mem hr)).2
  constructor
  · intro h before scheme rest hfirst
    exact (stripped_first hword hfirst).1 h
  · intro h
    rcases first_or_none r.text with ⟨hnone, hsame⟩ | ⟨before, scheme, rest, hfirst⟩
    · rw [hsame]
      exact fun b hb => absurd hb (hnone b)
    · exact (stripped_first hword hfirst).2 (h before scheme rest hfirst)

end

/-- the user-info of a URL in the path of another one is not seen -/
theorem scrubEmbeddedUrls_nested :
    scrubEmbeddedUrls "via http://a/http://user:pw@b".toList =
        "via http://a/http://user:pw@b".toList ∧
      ¬ Stripped (scrubEmbeddedUrls "via http://a/http://user:pw@b".toList) := by
  have hsame : scrubEmbeddedUrls "via http://a/http://user:pw@b".toList =
      "via http://a/http://user:pw@b".toList := by decide
  refine ⟨hsame, fun h => ?_⟩
  rw [hsame] at h
  have hbehind : Behind "via http://a/http://user:pw@b".toList "user:pw@b".toList :=
    ⟨"http://".toList, show _ ∈ _ by decide, "via http://a/".toList, by decide⟩
  exact (h _ hbehind).2 (by decide)

end Voisu.Diagnostics
