import Voisu.Commands.Parse
import Voisu.Lib.Splice

/-!
# Tokens and matches

* `tokenize_split`, `tokenize_gap`   where the tokens lie: in order, with a non-empty whitespace
                    gap between two of them;
* `MatchSpec`       everything that a match of `tryCommandMatch` says about its ranges and its
                    rendering;
* `expandReplaceSpan_start`, `expandReplaceSpan_stop`   the ends of the replaced range.
-/

set_option linter.unusedSectionVars false

namespace Voisu.Commands
open Lib

/-! ## where the tokens lie -/

section
variable {source : Text} {i : Nat}

/-- the text around token `i` -/
theorem tokenize_split (hi : i < (tokenize source).length) :
    ∃ a t b, source = a ++ t ++ b ∧
      (tokenize source)[i]? = some ⟨⟨byteLen a, byteLen a + byteLen t⟩, asciiLowercase t⟩ ∧
      t ≠ [] ∧ t.all (fun c => !isWhitespace c) = true ∧
      Runs (fun c => !isWhitespace c) 0 a ((runs (fun c => !isWhitespace c) 0 source).take i) ∧
      headSep (fun c => !isWhitespace c) b = true ∧
      Runs (fun c => !isWhitespace c) (byteLen a + byteLen t) b
        ((runs (fun c => !isWhitespace c) 0 source).drop (i + 1)) := by
  have hr := runs_spec (fun c => !isWhitespace c) 0 source
  have hlen : i < (runs (fun c => !isWhitespace c) 0 source).length := by
    simpa [tokenize] using hi
  rw [← List.take_append_drop i (runs _ 0 source), List.drop_eq_getElem_cons hlen] at hr
  obtain ⟨a, b, hs, ha, hra, -, ht, hne, hb, hrb⟩ := hr.split
  refine ⟨a, _, b, hs, ?_, hne, ht, hra, hb, ?_⟩
  · rw [tokenize, List.getElem?_map, List.getElem?_eq_getElem hlen, Option.map_some, tokenOfRun,
      Run.stop, ← ha, Nat.zero_add]
  · rw [Run.stop, ← ha, Nat.zero_add] at hrb
    exact hrb

theorem spanAt_eq {tokens : List Token} {t : Token} (h : tokens[i]? = some t) :
    spanAt tokens i = t.span := by
  rw [spanAt, h]; rfl

/-- the whitespace between two neighbouring tokens -/
theorem tokenize_gap (hi : i + 1 < (tokenize source).length) :
    ∃ a g b, source = a ++ g ++ b ∧ byteLen a = (spanAt (tokenize source) i).stop ∧
      byteLen a + byteLen g = (spanAt (tokenize source) (i + 1)).start ∧ g ≠ [] ∧
      g.all isWhitespace = true := by
  obtain ⟨a, t, b, hs, htok, hne, ht, hra, hb, hrb⟩ := tokenize_split (show i < (tokenize source).length by omega)
  have hlen : i + 1 < (runs (fun c => !isWhitespace c) 0 source).length := by
    simpa [tokenize] using hi
  rw [List.drop_eq_getElem_cons hlen] at hrb
  obtain ⟨g, s', rfl, hg, hga, ht', hne', -, -⟩ := hrb.cons_inv
  have hnext : (tokenize source)[i + 1]? = some (tokenOfRun (runs _ 0 source)[i + 1]) := by
    rw [tokenize, List.getElem?_map, List.getElem?_eq_getElem hlen, Option.map_some]
  generalize hr : (runs (fun c => !isWhitespace c) 0 source)[i + 1] = r at *
  refine ⟨a ++ t, g, r.text ++ s', by rw [hs]; simp, ?_, ?_, ?_, by simpa using hga⟩
  · rw [spanAt_eq htok, byteLen_append]
  · rw [spanAt_eq hnext, byteLen_append, hg]; rfl
  · intro h0
    subst h0
    generalize r.text = rt at hb ht' hne'
    cases rt with
    | nil => exact hne' rfl
    | cons c rt =>
      simp only [List.all_cons, Bool.and_eq_true] at ht'
      simp [headSep, ht'.1] at hb

theorem tokenize_first (h : 0 < (tokenize source).length) :
    ∃ g b, source = g ++ b ∧ byteLen g = (spanAt (tokenize source) 0).start ∧
      g.all isWhitespace = true := by
  obtain ⟨a, t, b, hs, htok, hne, ht, hra, hb, hrb⟩ := tokenize_split h
  refine ⟨a, t ++ b, by rw [hs]; simp, by rw [spanAt_eq htok], ?_⟩
  simpa using hra.nil_inv

theorem tokenize_last (h : i + 1 = (tokenize source).length) :
    ∃ a g, source = a ++ g ∧ byteLen a = (spanAt (tokenize source) i).stop ∧
      g.all isWhitespace = true := by
  obtain ⟨a, t, b, hs, htok, hne, ht, hra, hb, hrb⟩ := tokenize_split (show i < (tokenize source).length by omega)
  refine ⟨a ++ t, b, hs, by rw [spanAt_eq htok, byteLen_append], ?_⟩
  rw [List.drop_eq_nil_of_le (by rw [h, tokenize, List.length_map])] at hrb
  simpa using hrb.nil_inv

theorem spanAt_lt (hi : i < (tokenize source).length) :
    (spanAt (tokenize source) i).start < (spanAt (tokenize source) i).stop := by
  obtain ⟨a, t, b, hs, htok, hne, -⟩ := tokenize_split hi
  have := byteLen_pos hne
  rw [spanAt_eq htok]
  show byteLen a < byteLen a + byteLen t
  omega

theorem spanAt_stop_lt (hi : i + 1 < (tokenize source).length) :
    (spanAt (tokenize source) i).stop < (spanAt (tokenize source) (i + 1)).start := by
  obtain ⟨a, g, b, hs, ha, hg, hne, -⟩ := tokenize_gap hi
  have := byteLen_pos hne
  omega

theorem spanAt_boundary (hi : i < (tokenize source).length) :
    isBoundary (spanAt (tokenize source) i).start source = true ∧
      isBoundary (spanAt (tokenize source) i).stop source = true := by
  obtain ⟨a, t, b, hs, htok, -⟩ := tokenize_split hi
  rw [spanAt_eq htok]
  refine ⟨isBoundary_iff.mpr ⟨a, t ++ b, by rw [hs]; simp, rfl⟩,
    isBoundary_iff.mpr ⟨a ++ t, b, hs, by simp⟩⟩

theorem spanAt_stop_le (hi : i < (tokenize source).length) :
    (spanAt (tokenize source) i).stop ≤ byteLen source := by
  obtain ⟨a, t, b, hs, htok, -⟩ := tokenize_split hi
  rw [spanAt_eq htok, hs]
  simp

theorem spanAt_start_mono {j : Nat} (hij : i ≤ j) (hj : j < (tokenize source).length) :
    (spanAt (tokenize source) i).start ≤ (spanAt (tokenize source) j).start := by
  induction j, hij using Nat.le_induction with
  | base => exact le_refl _
  | succ j hij ih =>
    have h1 := ih (by omega)
    have h2 := spanAt_lt (show j < (tokenize source).length by omega)
    have h3 := spanAt_stop_lt hj
    omega

theorem spanAt_stop_mono {j : Nat} (hij : i ≤ j) (hj : j < (tokenize source).length) :
    (spanAt (tokenize source) i).stop ≤ (spanAt (tokenize source) j).stop := by
  induction j, hij using Nat.le_induction with
  | base => exact le_refl _
  | succ j hij ih =>
    have h1 := ih (by omega)
    have h2 := spanAt_lt hj
    have h3 := spanAt_stop_lt hj
    omega

theorem spanAt_stop_strictMono {j : Nat} (hij : i < j) (hj : j < (tokenize source).length) :
    (spanAt (tokenize source) i).stop < (spanAt (tokenize source) j).stop := by
  have h1 := spanAt_stop_mono (show i ≤ j - 1 by omega) (show j - 1 < (tokenize source).length by omega)
  have h2 := @spanAt_stop_lt source (j - 1) (by omega)
  have h3 := spanAt_lt hj
  rw [show j - 1 + 1 = j by omega] at h2
  omega

end

/-! ## one match -/

/-- what a command puts in the place of its range -/
def renderKind (source : Text) : CommandKind → Text
  | .period => ['.']
  | .comma => [',']
  | .questionMark => ['?']
  | .exclamationPoint => ['!']
  | .newLine => ['\n']
  | .newParagraph => ['\n', '\n']
  | .quote interior _ _ => ['"'] ++ textAt source interior ++ ['"']
  | .numberedList items => renderItems source items

structure MatchSpec (source : Text) (tokens : List Token) (i : Nat) (m : CommandMatch) : Prop where
  command : lowerIs tokens i "command" = true
  lt : i + 1 < m.nextIndex
  le : m.nextIndex ≤ tokens.length
  commandSpan_eq :
    m.commandSpan = ⟨(spanAt tokens i).start, (spanAt tokens (m.nextIndex - 1)).stop⟩
  replaceSpan_eq : m.replaceSpan = expandReplaceSpan source tokens i (m.nextIndex - 1) m.kind
  render_eq : m.render = renderKind source m.kind

section
variable {source : Text} {tokens : List Token} {i : Nat} {m : CommandMatch}

theorem expandReplaceSpan_quote (source : Text) (tokens : List Token) (i last : Nat)
    (interior opening closing : SourceSpan) :
    expandReplaceSpan source tokens i last (.quote interior opening closing) =
      ⟨(spanAt tokens i).start, (spanAt tokens last).stop⟩ := by
  unfold expandReplaceSpan
  rfl

theorem tryQuote_spec (hc : lowerIs tokens i "command" = true)
    (h : tryQuote source tokens i = some m) : MatchSpec source tokens i m := by
  unfold tryQuote at h
  split at h
  · obtain ⟨j, hj, rfl⟩ := Option.map_eq_some_iff.mp h
    obtain ⟨h1, h2, -, -⟩ := findUnquote_some hj
    refine ⟨hc, ?_, ?_, rfl, ?_, rfl⟩
    · show i + 1 < j + 2
      omega
    · show j + 2 ≤ tokens.length
      omega
    · rw [expandReplaceSpan_quote]
      rfl
  · cases h

theorem le_itemTokenEnd (tokens : List Token) (j : Nat) : j ≤ itemTokenEnd tokens j := by
  induction j using itemTokenEnd.induct tokens with
  | case1 j hj ih =>
    rw [itemTokenEnd, if_pos hj]
    omega
  | case2 j hj =>
    rw [itemTokenEnd, if_neg hj]

theorem itemTokenEnd_le {j : Nat} (h : j ≤ tokens.length) :
    itemTokenEnd tokens j ≤ tokens.length := by
  induction j using itemTokenEnd.induct tokens with
  | case1 j hj ih =>
    rw [itemTokenEnd, if_pos hj]
    simp only [Bool.and_eq_true, decide_eq_true_eq] at hj
    exact ih (by omega)
  | case2 j hj =>
    rw [itemTokenEnd, if_neg hj]
    exact h

/-- the last item ends with a token after its marker -/
theorem listItems_last {words : List (Nat × String)} {pos : Nat} {items : List NumberedListItem}
    (h : listItems tokens words pos = some items) (hne : items ≠ []) :
    ∃ last, pos + 2 < last ∧ last < tokens.length ∧
      (items.getLast?.map fun item => item.textSpan.stop) = some (spanAt tokens last).stop := by
  induction words generalizing pos items with
  | nil =>
    rw [listItems] at h
    exact absurd (Option.some.inj h).symm hne
  | cons w words ih =>
    obtain ⟨number, word⟩ := w
    rw [listItems] at h
    split at h
    · rename_i hm
      have hle := phraseMatches_le (Bool.and_eq_true_iff.mp hm).2
      have h1 := itemTokenEnd_le (show pos + 3 ≤ tokens.length by simpa using hle)
      simp only at h
      split at h
      · cases h
      · rename_i h2
        obtain ⟨rest, hrest, rfl⟩ := Option.map_eq_some_iff.mp h
        by_cases hr : rest = []
        · subst hr
          exact ⟨itemTokenEnd tokens (pos + 3) - 1, by omega, by omega, rfl⟩
        · obtain ⟨last, hl1, hl2, hl3⟩ := ih hrest hr
          refine ⟨last, by omega, hl2, ?_⟩
          rw [List.getLast?_cons_of_ne_nil hr]
          exact hl3
    · exact absurd (Option.some.inj h).symm hne

theorem lastTokenIdx_eq {first last : Nat} (h : first ≤ last)
    (hl : last < (tokenize source).length) :
    lastTokenIdx (tokenize source) first (spanAt (tokenize source) last).stop = last := by
  have hget : ∀ j (hj : j < (tokenize source).length),
      (tokenize source)[j].span = spanAt (tokenize source) j := by
    intro j hj
    rw [spanAt_eq (List.getElem?_eq_getElem hj)]
  have hfind : ((tokenize source).drop first).findIdx?
      (fun t => t.span.stop == (spanAt (tokenize source) last).stop) = some (last - first) := by
    rw [List.findIdx?_eq_some_iff_getElem]
    refine ⟨by rw [List.length_drop]; omega, ?_, ?_⟩
    · simp [hget, show first + (last - first) = last by omega]
    · intro j hj
      have := @spanAt_stop_strictMono source (first + j) last (by omega) hl
      simp [hget]
      omega
  unfold lastTokenIdx
  rw [hfind, Option.getD_some]
  omega

theorem tryNumberedList_spec (hc : lowerIs (tokenize source) i "command" = true)
    (h : tryNumberedList source (tokenize source) i = some m) :
    MatchSpec source (tokenize source) i m := by
  unfold tryNumberedList at h
  split at h
  · split at h
    · cases h
    · rename_i items hitems
      split at h
      · cases h
      · rename_i hlen
        obtain rfl := Option.some.inj h
        have hne : items ≠ [] := by
          intro h0
          rw [h0] at hlen
          exact hlen (by decide)
        obtain ⟨last, h1, h2, h3⟩ := listItems_last hitems hne
        have hidx := lastTokenIdx_eq (show i ≤ last by omega) h2
        simp only [h3, Option.getD_some, hidx]
        refine ⟨hc, ?_, ?_, rfl, rfl, rfl⟩
        · show i + 1 < last + 1
          omega
        · show last + 1 ≤ _
          omega
  · cases h

theorem renderKind_scalar : ∀ entry ∈ scalarPhrases,
    renderKind source entry.2.1 = entry.2.2.toList := by
  intro entry h
  simp only [scalarPhrases, List.mem_cons, List.not_mem_nil, or_false] at h
  rcases h with rfl | rfl | rfl | rfl | rfl | rfl <;> rfl

theorem tryScalar_spec (hc : lowerIs tokens i "command" = true)
    (h : tryScalar source tokens i = some m) : MatchSpec source tokens i m := by
  unfold tryScalar at h
  obtain ⟨entry, he, rfl⟩ := Option.map_eq_some_iff.mp h
  have hmem := List.mem_of_find?_eq_some he
  have hm : phraseMatches tokens (i + 1) entry.1 = true := by simpa using List.find?_some he
  have hle := phraseMatches_le hm
  have hpos := scalarPhrases_ne_nil entry hmem
  unfold makeScalarMatch
  refine ⟨hc, ?_, ?_, rfl, rfl, (renderKind_scalar entry hmem).symm⟩
  · show i + 1 < i + entry.1.length + 1
    omega
  · show i + entry.1.length + 1 ≤ tokens.length
    omega

/-- **what a match says** -/
theorem tryCommandMatch_spec (h : tryCommandMatch source (tokenize source) i = some m) :
    MatchSpec source (tokenize source) i m := by
  unfold tryCommandMatch at h
  split at h
  · rename_i hc
    rw [Option.or_eq_some_iff, Option.or_eq_some_iff] at h
    rcases h with h | ⟨-, h | ⟨-, h⟩⟩
    · exact tryQuote_spec hc h
    · exact tryNumberedList_spec hc h
    · exact tryScalar_spec hc h
  · cases h

/-! ## the replaced range -/

/-- where the whitespace in front of token `i` starts -/
def leadEdge (tokens : List Token) (i : Nat) : Nat :=
  if 0 < i then (spanAt tokens (i - 1)).stop else 0

theorem leadEdge_succ (tokens : List Token) (i : Nat) :
    leadEdge tokens (i + 1) = (spanAt tokens i).stop := rfl

/-- the text in front of token `i` that a leading command takes is whitespace -/
theorem leadEdge_gap (hi : i < (tokenize source).length) :
    ∃ a g b, source = a ++ g ++ b ∧ byteLen a = leadEdge (tokenize source) i ∧
      byteLen a + byteLen g = (spanAt (tokenize source) i).start ∧ g.all isWhitespace = true := by
  cases i with
  | zero =>
    obtain ⟨g, b, hs, hg, hw⟩ := tokenize_first hi
    exact ⟨[], g, b, by simpa using hs, rfl, by simpa using hg, hw⟩
  | succ i =>
    obtain ⟨a, g, b, hs, ha, hg, -, hw⟩ := tokenize_gap hi
    exact ⟨a, g, b, hs, ha, hg, hw⟩

theorem leadEdge_le (hi : i < (tokenize source).length) :
    leadEdge (tokenize source) i ≤ (spanAt (tokenize source) i).start := by
  obtain ⟨a, g, b, -, ha, hg, -⟩ := leadEdge_gap hi
  omega

theorem leadEdge_boundary (hi : i < (tokenize source).length) :
    isBoundary (leadEdge (tokenize source) i) source = true := by
  obtain ⟨a, g, b, hs, ha, -, -⟩ := leadEdge_gap hi
  exact isBoundary_iff.mpr ⟨a, g ++ b, by rw [hs]; simp, ha⟩

theorem textAt_eq {a t b : Text} (hs : source = a ++ t ++ b) {span : SourceSpan}
    (h1 : byteLen a = span.start) (h2 : byteLen a + byteLen t = span.stop) :
    textAt source span = t := by
  rw [textAt, slice_eq_some.mpr ⟨a, b, hs, h1, h2⟩, Option.getD_some]

theorem leadingStart_eq (hi : i < (tokenize source).length) :
    leadingStart source (tokenize source) i = leadEdge (tokenize source) i := by
  obtain ⟨a, g, b, hs, ha, hg, hw⟩ := leadEdge_gap hi
  have hws : (if 0 < i then (spanAt (tokenize source) (i - 1)).stop
      else if allWhitespace (textAt source ⟨0, (spanAt (tokenize source) i).start⟩) then 0
      else (spanAt (tokenize source) i).start) = leadEdge (tokenize source) i := by
    unfold leadEdge at ha ⊢
    by_cases h0 : 0 < i
    · rw [if_pos h0, if_pos h0]
    · rw [if_neg h0] at ha
      rw [if_neg h0, if_neg h0]
      have ha0 : a = [] := byteLen_eq_zero.mp ha
      subst ha0
      rw [textAt_eq hs rfl hg, allWhitespace, hw, if_pos rfl]
  unfold leadingStart
  simp only [hws]
  rw [textAt_eq hs ha hg]
  by_cases hne : g = []
  · subst hne
    rw [byteLen_nil] at hg
    rw [if_neg (by simp)]
    omega
  · rw [if_pos (by simp [hne, allWhitespace, hw])]

theorem expandReplaceSpan_start (hi : i < (tokenize source).length) (last : Nat)
    (kind : CommandKind) :
    (expandReplaceSpan source (tokenize source) i last kind).start =
      if commandConsumesLeadingWs kind then leadEdge (tokenize source) i
      else (spanAt (tokenize source) i).start := by
  rw [← leadingStart_eq hi]
  unfold expandReplaceSpan
  simp only
  split <;> (try split) <;> (try split) <;> rfl

/-- the command at token `i`, if there is one, takes the whitespace in front of it -/
def claimsLeading (source : Text) (i : Nat) : Bool :=
  (tryCommandMatch source (tokenize source) i).any fun m => commandConsumesLeadingWs m.kind

/-- **a replaced range ends with its last token, with the text, or where the next token starts;
the last only when the next command leaves the gap to it** -/
theorem expandReplaceSpan_stop (i last : Nat) (kind : CommandKind) :
    let stop := (expandReplaceSpan source (tokenize source) i last kind).stop
    stop = (spanAt (tokenize source) last).stop ∨
      ((tokenize source).length ≤ last + 1 ∧ stop = byteLen source ∧
        (spanAt (tokenize source) last).stop < byteLen source) ∨
      (last + 1 < (tokenize source).length ∧
        stop = (spanAt (tokenize source) (last + 1)).start ∧
        claimsLeading source (last + 1) = false) := by
  unfold expandReplaceSpan
  simp only
  split
  · split
    · rename_i hn
      split
      · rename_i he
        simp only [Bool.and_eq_true, decide_eq_true_eq] at he
        exact Or.inr (Or.inl ⟨hn, rfl, he.1⟩)
      · exact Or.inl rfl
    · rename_i hn
      split
      · rename_i he
        simp only [Bool.and_eq_true, Bool.not_eq_true'] at he
        exact Or.inr (Or.inr ⟨by omega, rfl, he.1.1⟩)
      · exact Or.inl rfl
  · exact Or.inl rfl

end

end Voisu.Commands
