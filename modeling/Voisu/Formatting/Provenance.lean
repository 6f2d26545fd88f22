import Mathlib
import Voisu.Commands.Tiling
import Voisu.Formatting.WordCount

/-!
# Where the command-only rendering comes from

The rendering of a transcript with its commands carried out, piece by piece: each piece keeps a range
of the transcript as it is, or puts a text in its place.

* `pieces`            the pieces, read off the recognised commands and escapes;
* `output_pieces`     put together they are the rendering;
* `Tiled`             the pieces follow one another, no word crosses from one to the next, and a piece
                      puts in no more words than it takes away;
* `kept`              the kept ranges, with the place of each in the rendering;
* `produced`          a range of the rendering is the kept copy of a range of the transcript.
-/

set_option linter.unusedSectionVars false

namespace Voisu.Formatting
open Lib Commands

/-! ## pieces -/

/-- a piece of the rendering, for the part of the transcript up to `stop` -/
inductive Piece where
  | keep (stop : Nat)
  | put (stop : Nat) (text : Text)
deriving DecidableEq, Repr

def Piece.stop : Piece → Nat
  | keep stop => stop
  | put stop _ => stop

/-- `1. `, `2. `, … and the text of the item; `lead` comes before the number -/
def itemPieces (lead : Text) : List NumberedListItem → List Piece
  | [] => []
  | item :: items =>
    .put item.textSpan.start (lead ++ (Commands.digits item.number ++ ['.', ' '])) ::
      .keep item.textSpan.stop :: itemPieces ['\n'] items

/-- the pieces of a command, from the start of the replaced range -/
def commandPieces (m : CommandMatch) : List Piece :=
  match m.kind with
  | .quote interior _ _ =>
    [.put interior.start ['"'], .keep interior.stop, .put m.replaceSpan.stop ['"']]
  | .numberedList items => itemPieces [] items ++ [.put m.replaceSpan.stop []]
  | _ => [.put m.replaceSpan.stop m.render]

def piecesOf (source : Text) : List Recognition → List Piece
  | [] => [.keep (byteLen source)]
  | .escape esc :: rs => .keep esc.literalSpan.start :: .put esc.residualSpan.start [] ::
      .keep esc.residualSpan.stop :: piecesOf source rs
  | .command m :: rs => .keep m.replaceSpan.start :: (commandPieces m ++ piecesOf source rs)

def pieces (source : Text) : List Piece := piecesOf source (recognised source)

def Piece.output (source : Text) (start : Nat) : Piece → Text
  | keep stop => textAt source ⟨start, stop⟩
  | put _ text => text

/-- what the pieces from offset `o` on are put together to -/
def output (source : Text) (o : Nat) : List Piece → Text
  | [] => []
  | p :: ps => p.output source o ++ output source p.stop ps

/-! ## edges -/

/-- no word of the transcript crosses offset `n` -/
def Edge (source : Text) (n : Nat) : Prop :=
  ∃ a b, source = a ++ b ∧ byteLen a = n ∧ (lastSep notWhitespace a || headSep notWhitespace b) = true

section
variable {source : Text} {i n : Nat}

theorem Edge.boundary (h : Edge source n) : isBoundary n source = true := by
  obtain ⟨a, b, hs, ha, -⟩ := h
  exact isBoundary_iff.mpr ⟨a, b, hs, ha⟩

theorem edge_zero (source : Text) : Edge source 0 := ⟨[], source, rfl, rfl, rfl⟩

theorem edge_byteLen (source : Text) : Edge source (byteLen source) :=
  ⟨source, [], by simp, rfl, by simp [headSep]⟩

theorem edge_stop (hi : i < (tokenize source).length) : Edge source (spanAt (tokenize source) i).stop := by
  obtain ⟨a, t, b, hs, htok, -, -, -, hb, -⟩ := tokenize_split hi
  refine ⟨a ++ t, b, hs, ?_, ?_⟩
  · rw [spanAt_eq htok, byteLen_append]
  · rw [Bool.or_eq_true]
    exact Or.inr hb

theorem lastSep_whitespace {g : Text} (h : g.all isWhitespace = true) : lastSep notWhitespace g = true :=
  lastSep_of_all (by simpa [notWhitespace] using h)

theorem headSep_whitespace {g : Text} (h : g.all isWhitespace = true) : headSep notWhitespace g = true :=
  headSep_of_all (by simpa [notWhitespace] using h)

theorem edge_start (hi : i < (tokenize source).length) :
    Edge source (spanAt (tokenize source) i).start := by
  cases i with
  | zero =>
    obtain ⟨g, b, hs, hg, hw⟩ := tokenize_first hi
    exact ⟨g, b, hs, hg, by rw [lastSep_whitespace hw, Bool.true_or]⟩
  | succ i =>
    obtain ⟨a, g, b, hs, ha, hg, hne, hw⟩ := tokenize_gap hi
    refine ⟨a ++ g, b, hs, by rw [byteLen_append]; exact hg, ?_⟩
    rw [lastSep_append_of_ne_nil hne, lastSep_whitespace hw, Bool.true_or]

theorem edge_leadEdge (hi : i < (tokenize source).length) :
    Edge source (leadEdge (tokenize source) i) := by
  cases i with
  | zero => exact edge_zero source
  | succ i =>
    rw [leadEdge_succ]
    exact edge_stop (by omega)

/-- the ends of a trimmed range -/
theorem trimSpan_edges {x y : Nat} (hx : Edge source x) (hy : Edge source y) (hxy : x ≤ y) :
    x ≤ (trimSpan source x y).start ∧ (trimSpan source x y).start ≤ (trimSpan source x y).stop ∧
      (trimSpan source x y).stop ≤ y ∧ Edge source (trimSpan source x y).start ∧
      Edge source (trimSpan source x y).stop := by
  obtain ⟨p, b, hs, hp, -⟩ := id hx
  obtain ⟨g, s', rfl, hg, htext, hsource, hpg⟩ := cut_rest hs hp hxy hy.boundary
  obtain ⟨ws₂, hws₂, hall₂, -⟩ := trimEndMatches_split isWhitespace g
  have hfront : g = g.takeWhile isWhitespace ++ g.dropWhile isWhitespace :=
    List.takeWhile_append_dropWhile.symm
  have hback : byteLen (g.reverse.dropWhile isWhitespace) = byteLen (trimEndMatches isWhitespace g) := by
    rw [trimEndMatches, byteLen_reverse]
  have hlen : byteLen g = byteLen (trimEndMatches isWhitespace g) + byteLen ws₂ := by
    conv_lhs => rw [hws₂, byteLen_append]
  unfold trimSpan
  simp only [htext, hback]
  split
  · exact ⟨le_refl _, le_refl _, hxy, hx, hx⟩
  · rename_i hlt
    refine ⟨Nat.le_add_right _ _, by show x + _ ≤ x + _; omega, by show x + _ ≤ y; omega, ?_, ?_⟩
    · show Edge source (x + byteLen (g.takeWhile isWhitespace))
      by_cases hempty : g.takeWhile isWhitespace = []
      · rw [hempty]
        exact hx
      · refine ⟨p ++ g.takeWhile isWhitespace, g.dropWhile isWhitespace ++ s', ?_, ?_, ?_⟩
        · rw [hsource, List.append_assoc, List.append_assoc, ← List.append_assoc (g.takeWhile _),
            ← hfront]
        · rw [byteLen_append, hp]
        · rw [lastSep_append_of_ne_nil hempty, lastSep_whitespace List.all_takeWhile, Bool.true_or]
    · show Edge source (x + byteLen (trimEndMatches isWhitespace g))
      by_cases hempty : ws₂ = []
      · rw [hempty, byteLen_nil] at hlen
        rw [← Nat.add_zero (byteLen _), ← hlen, hg]
        exact hy
      · refine ⟨p ++ trimEndMatches isWhitespace g, ws₂ ++ s', ?_, ?_, ?_⟩
        · rw [hsource, List.append_assoc, List.append_assoc, ← List.append_assoc (trimEndMatches _ _),
            ← hws₂]
        · rw [byteLen_append, hp]
        · rw [headSep_append_of_ne_nil hempty, headSep_whitespace hall₂, Bool.or_true]

/-! ## the words of a range -/

theorem textAt_whole {p g s : Text} (hs : source = p ++ g ++ s) {x y : Nat} (hx : byteLen p = x)
    (hy : x + byteLen g = y) : textAt source ⟨x, y⟩ = g := textAt_eq hs hx (by rw [hx]; exact hy)

/-- the words of a range are those on both sides of an edge in it -/
theorem wordCount_edge {x y : Nat} (hx : isBoundary x source = true) (he : Edge source n)
    (hy : isBoundary y source = true) (hxn : x ≤ n) (hny : n ≤ y) :
    wordCount (textAt source ⟨x, y⟩) =
      wordCount (textAt source ⟨x, n⟩) + wordCount (textAt source ⟨n, y⟩) := by
  obtain ⟨p, b, hs, hp⟩ := isBoundary_iff.mp hx
  obtain ⟨g, s₁, rfl, hg, htext, hs₁, hpg⟩ := cut_rest hs hp hxn he.boundary
  obtain ⟨g', s₂, rfl, hg', htext', hs₂, -⟩ := cut_rest hs₁ hpg hny hy
  have hwhole : textAt source ⟨x, y⟩ = g ++ g' :=
    textAt_whole (p := p) (s := s₂) (by rw [hs₂]; simp) hp (by rw [byteLen_append]; omega)
  rw [htext, htext', hwhole]
  obtain ⟨a, c, hac, ha, hsep⟩ := he
  obtain ⟨rfl, rfl⟩ := append_inj_byteLen (hac.symm.trans hs₁) (by rw [ha, hpg])
  apply wordCount_append
  rw [Bool.or_eq_true] at hsep ⊢
  rcases hsep with hsep | hsep
  · by_cases hempty : g = []
    · rw [hempty]
      exact Or.inl rfl
    · rw [lastSep_append_of_ne_nil hempty] at hsep
      exact Or.inl hsep
  · by_cases hempty : g' = []
    · rw [hempty]
      exact Or.inr rfl
    · rw [headSep_append_of_ne_nil hempty] at hsep
      exact Or.inr hsep

theorem isWordChar_of_lower {c : Char} (h : isWordChar (toAsciiLowercase c) = true) :
    isWordChar c = true := by
  by_cases hupper : isAsciiUppercase c = true
  · show isAsciiAlphanumeric c = true
    simp [isAsciiAlphanumeric, isAsciiAlphabetic, hupper]
  · rwa [toAsciiLowercase, if_neg hupper] at h

/-- a range that holds a token with a letter in front has a word -/
theorem wordCount_token {word : String} {x y : Nat}
    (hi : lowerIs (tokenize source) i word = true) (hword : word.toList.head?.any isWordChar = true)
    (hx : isBoundary x source = true) (hy : isBoundary y source = true)
    (hxi : x ≤ (spanAt (tokenize source) i).start) (hiy : (spanAt (tokenize source) i).stop ≤ y) :
    1 ≤ wordCount (textAt source ⟨x, y⟩) := by
  have hlt := lowerIs_lt hi
  obtain ⟨a, t, b, hs, htok, -, -, -, -, -⟩ := tokenize_split hlt
  have hspan := spanAt_eq htok
  rw [hspan] at hxi hiy
  simp only at hxi hiy
  have hlower : asciiLowercase t = word.toList := by
    rw [lowerIs, htok] at hi
    simpa using hi
  obtain ⟨p, c, hpc, hp⟩ := isBoundary_iff.mp hx
  obtain ⟨g, s', rfl, hg, htext, hsource, hpg⟩ := cut_rest hpc hp (by omega) hy
  rw [htext]
  obtain ⟨a', rfl, ha'⟩ := prefix_of_byteLen_le (a := p) (b := g ++ s') (c := a) (d := t ++ b)
    (by rw [← List.append_assoc, ← List.append_assoc, ← hsource, ← hs]) (by omega)
  obtain ⟨g', rfl, -⟩ := prefix_of_byteLen_le (a := a' ++ t) (b := b) (c := g) (d := s')
    (by rw [List.append_assoc]; exact ha'.symm) (by simp only [byteLen_append] at *; omega)
  cases t with
  | nil =>
    rw [← hlower] at hword
    cases hword
  | cons d t =>
    rw [← hlower] at hword
    exact wordCount_pos (by simp) (isWordChar_of_lower hword)

/-! ## tiling -/

/-- the pieces from offset `o` on follow one another, on edges, and put in no more words than they
take away -/
inductive Tiled (source : Text) : Nat → List Piece → Prop
  | nil : Tiled source (byteLen source) []
  | keep {o stop : Nat} {ps : List Piece} (ho : o ≤ stop) (he : Edge source stop)
      (h : Tiled source stop ps) : Tiled source o (.keep stop :: ps)
  | put {o stop : Nat} {text : Text} {ps : List Piece} (ho : o ≤ stop) (he : Edge source stop)
      (hcount : wordCount text ≤ wordCount (textAt source ⟨o, stop⟩))
      (h : Tiled source stop ps) : Tiled source o (.put stop text :: ps)

/-- one of the pieces from offset `o` on takes more words away than it puts in -/
inductive Takes (source : Text) : Nat → List Piece → Prop
  | here {o stop : Nat} {text : Text} {ps : List Piece}
      (h : wordCount text < wordCount (textAt source ⟨o, stop⟩)) : Takes source o (.put stop text :: ps)
  | later {o : Nat} {p : Piece} {ps : List Piece} (h : Takes source p.stop ps) : Takes source o (p :: ps)

section
variable {o : Nat} {ps : List Piece}

/-- the piece from `o` on, and what follows it, on both sides -/
theorem Tiled.cons {p : Piece} (h : Tiled source o (p :: ps)) {a s : Text} (hs : source = a ++ s)
    (ha : byteLen a = o) : ∃ g s', s = g ++ s' ∧ o + byteLen g = p.stop ∧
      textAt source ⟨o, p.stop⟩ = g ∧ source = a ++ g ++ s' ∧ byteLen (a ++ g) = p.stop ∧
      wordCount (p.output source o) ≤ wordCount g ∧
      wordCount (g ++ s') = wordCount g + wordCount s' ∧ Tiled source p.stop ps := by
  have hedge : o ≤ p.stop ∧ Edge source p.stop ∧
      wordCount (p.output source o) ≤ wordCount (textAt source ⟨o, p.stop⟩) ∧
      Tiled source p.stop ps := by
    cases h with
    | keep ho he h => exact ⟨ho, he, le_refl _, h⟩
    | put ho he hcount h => exact ⟨ho, he, hcount, h⟩
  obtain ⟨ho, he, hcount, hrest⟩ := hedge
  obtain ⟨g, s', rfl, hg, htext, hsource, hag⟩ := cut_rest hs ha ho he.boundary
  have hsplit := wordCount_edge (isBoundary_iff.mpr ⟨a, g ++ s', hs, ha⟩) he
    (edge_byteLen source).boundary ho (isBoundary_le he.boundary)
  have hwhole : textAt source ⟨o, byteLen source⟩ = g ++ s' := by
    refine textAt_whole (p := a) (s := []) (by simpa using hs) ha ?_
    rw [hsource]
    simp only [byteLen_append]
    omega
  have htail : textAt source ⟨p.stop, byteLen source⟩ = s' := by
    refine textAt_whole (p := a ++ g) (s := []) (by simpa using hsource) hag ?_
    rw [hsource]
    simp only [byteLen_append] at hag ⊢
    omega
  rw [hwhole, htext, htail] at hsplit
  exact ⟨g, s', rfl, hg, htext, hsource, hag, by rw [← htext]; exact hcount, hsplit, hrest⟩

theorem Tiled.count (h : Tiled source o ps) {a s : Text} (hs : source = a ++ s)
    (ha : byteLen a = o) : wordCount (output source o ps) ≤ wordCount s := by
  induction ps generalizing o a s with
  | nil => exact Nat.zero_le _
  | cons p ps ih =>
    obtain ⟨g, s', rfl, -, -, hsource, hag, hcount, hsum, hrest⟩ := h.cons hs ha
    calc wordCount (p.output source o ++ output source p.stop ps)
        ≤ wordCount (p.output source o) + wordCount (output source p.stop ps) :=
          wordCount_append_le _ _
      _ ≤ wordCount g + wordCount s' := Nat.add_le_add hcount (ih hrest hsource hag)
      _ = wordCount (g ++ s') := hsum.symm

theorem Tiled.count_lt (h : Tiled source o ps) (ht : Takes source o ps) {a s : Text}
    (hs : source = a ++ s) (ha : byteLen a = o) : wordCount (output source o ps) < wordCount s := by
  induction ht generalizing a s with
  | @here o stop text ps hlt =>
    obtain ⟨g, s', rfl, -, htext, hsource, hag, -, hsum, hrest⟩ := h.cons hs ha
    have hlt' : wordCount text < wordCount g := by
      rw [← htext]
      exact hlt
    calc wordCount (text ++ output source stop ps)
        ≤ wordCount text + wordCount (output source stop ps) := wordCount_append_le _ _
      _ < wordCount g + wordCount s' := Nat.add_lt_add_of_lt_of_le hlt' (hrest.count hsource hag)
      _ = wordCount (g ++ s') := hsum.symm
  | @later o p ps ht ih =>
    obtain ⟨g, s', rfl, -, -, hsource, hag, hcount, hsum, hrest⟩ := h.cons hs ha
    calc wordCount (p.output source o ++ output source p.stop ps)
        ≤ wordCount (p.output source o) + wordCount (output source p.stop ps) :=
          wordCount_append_le _ _
      _ < wordCount g + wordCount s' := Nat.add_lt_add_of_le_of_lt hcount (ih hrest hsource hag)
      _ = wordCount (g ++ s') := hsum.symm

end

/-! ## the pieces of a command -/

section
variable {m : CommandMatch} {rest : List Piece}

theorem replaceSpan_edges (hm : tryCommandMatch source (tokenize source) i = some m) :
    Edge source m.replaceSpan.start ∧ Edge source m.replaceSpan.stop ∧
      m.replaceSpan.start ≤ (spanAt (tokenize source) i).start ∧
      (spanAt (tokenize source) (m.nextIndex - 1)).stop ≤ m.replaceSpan.stop := by
  have hspec := tryCommandMatch_spec hm
  have hi := lowerIs_lt hspec.command
  have hlt := hspec.lt
  have hle := hspec.le
  have hstop : (spanAt (tokenize source) (m.nextIndex - 1)).stop ≤ m.replaceSpan.stop := by
    have := (Pending.replace hm).2
    rwa [hspec.commandSpan_eq] at this
  refine ⟨?_, ?_, ?_, hstop⟩
  · rw [hspec.replaceSpan_eq, expandReplaceSpan_start hi]
    split
    · exact edge_leadEdge hi
    · exact edge_start hi
  · rw [hspec.replaceSpan_eq]
    rcases @expandReplaceSpan_stop source i (m.nextIndex - 1) m.kind with h | ⟨-, h, -⟩ | ⟨hn, h, -⟩
    · rw [h]
      exact edge_stop (by omega)
    · rw [h]
      exact edge_byteLen source
    · rw [h]
      exact edge_start hn
  · rw [hspec.replaceSpan_eq, expandReplaceSpan_start hi]
    split
    · exact leadEdge_le hi
    · exact le_refl _

/-- the word that introduces a command lies in its first piece -/
theorem wordCount_command (hm : tryCommandMatch source (tokenize source) i = some m) {y : Nat}
    (hy : isBoundary y source = true) (hiy : (spanAt (tokenize source) i).stop ≤ y) :
    1 ≤ wordCount (textAt source ⟨m.replaceSpan.start, y⟩) := by
  obtain ⟨hstart, -, hle, -⟩ := replaceSpan_edges hm
  exact wordCount_token (tryCommandMatch_spec hm).command (by decide) hstart.boundary hy hle hiy

/-- what the pieces of a command are to the pieces behind it -/
def CommandPieces (source : Text) (m : CommandMatch) (rest : List Piece) : Prop :=
  Tiled source m.replaceSpan.start (commandPieces m ++ rest) ∧
    Takes source m.replaceSpan.start (commandPieces m ++ rest) ∧
    output source m.replaceSpan.start (commandPieces m ++ rest) =
      m.render ++ output source m.replaceSpan.stop rest

theorem scalarPhrases_plain : ∀ entry ∈ scalarPhrases, wordCount entry.2.2.toList = 0 ∧
    ∀ (span : SourceSpan) (n : Nat) (cspan : SourceSpan),
      commandPieces ⟨entry.2.1, cspan, span, entry.2.2.toList, n⟩ =
        [.put span.stop entry.2.2.toList] := by
  intro entry h
  simp only [scalarPhrases, List.mem_cons, List.not_mem_nil, or_false] at h
  rcases h with rfl | rfl | rfl | rfl | rfl | rfl <;> exact ⟨by decide, fun _ _ _ => rfl⟩

theorem scalar_pieces (hm : tryCommandMatch source (tokenize source) i = some m)
    (h : tryScalar source (tokenize source) i = some m)
    (hrest : Tiled source m.replaceSpan.stop rest) : CommandPieces source m rest := by
  obtain ⟨hstart, hstop, hle, hge⟩ := replaceSpan_edges hm
  have hspec := tryCommandMatch_spec hm
  have hlt := hspec.lt
  have hlen := hspec.le
  have hi := spanAt_lt (lowerIs_lt hspec.command)
  have hmono := @spanAt_stop_mono source i (m.nextIndex - 1) (by omega) (by omega)
  have hcount := wordCount_command hm hstop.boundary (by omega)
  have hspan : m.replaceSpan.start ≤ m.replaceSpan.stop := by omega
  unfold tryScalar at h
  obtain ⟨entry, he, rfl⟩ := Option.map_eq_some_iff.mp h
  obtain ⟨hplain, hpieces⟩ := scalarPhrases_plain entry (List.mem_of_find?_eq_some he)
  unfold CommandPieces
  unfold makeScalarMatch at *
  rw [hpieces]
  exact ⟨Tiled.put hspan hstop (by rw [hplain]; exact Nat.zero_le _) hrest,
    Takes.here (by rw [hplain]; exact hcount), rfl⟩

theorem quote_pieces (hm : tryCommandMatch source (tokenize source) i = some m)
    (h : tryQuote source (tokenize source) i = some m)
    (hrest : Tiled source m.replaceSpan.stop rest) : CommandPieces source m rest := by
  obtain ⟨hstart, hstop, hle, hge⟩ := replaceSpan_edges hm
  have hmark : wordCount ['"'] = 0 := by decide
  have hcount := fun {y : Nat} => @wordCount_command _ _ _ hm y
  unfold tryQuote at h
  split at h
  · obtain ⟨j, hj, rfl⟩ := Option.map_eq_some_iff.mp h
    obtain ⟨hij, hjlen, -, -⟩ := findUnquote_some hj
    have hgap := @spanAt_stop_lt source (j - 1) (by omega)
    have hmono := @spanAt_stop_mono source (i + 1) (j - 1) (by omega) (by omega)
    have hbefore := @spanAt_stop_mono source i (i + 1) (by omega) (by omega)
    have hclosing := @spanAt_stop_strictMono source j (j + 1) (by omega) (by omega)
    have hj := @spanAt_lt source j (by omega)
    rw [show j - 1 + 1 = j by omega] at hgap
    have hfirst := @edge_stop source (i + 1) (by omega)
    have hsecond := @edge_start source j (by omega)
    obtain ⟨h₁, h₂, h₃, he₁, he₂⟩ := trimSpan_edges hfirst hsecond (by omega)
    have hi := @spanAt_lt source i (by omega)
    refine ⟨Tiled.put (by show (spanAt _ i).start ≤ _; omega) he₁ (by rw [hmark]; exact Nat.zero_le _)
      (Tiled.keep h₂ he₂ (Tiled.put (by show _ ≤ (spanAt _ (j + 1)).stop; omega) hstop
        (by rw [hmark]; exact Nat.zero_le _) hrest)), Takes.here ?_, ?_⟩
    · rw [hmark]
      exact hcount he₁.boundary (by omega)
    · simp [commandPieces, output, Piece.output, Piece.stop]
  · cases h

/-- where the last item ends -/
def lastStop (o : Nat) (items : List NumberedListItem) : Nat :=
  (items.getLast?.map fun item => item.textSpan.stop).getD o

theorem lastStop_cons (o : Nat) (item : NumberedListItem) (items : List NumberedListItem) :
    lastStop o (item :: items) = lastStop item.textSpan.stop items := by
  cases items with
  | nil => rfl
  | cons item' items =>
    rw [lastStop, List.getLast?_cons_of_ne_nil (by simp), lastStop]
    simp [List.getLast?_cons]

/-- the items one after the other, `lead` in front of the first -/
def itemsText (source : Text) (lead : Text) : List NumberedListItem → Text
  | [] => []
  | item :: items => lead ++ renderItem source item ++ itemsText source ['\n'] items

theorem renderItems_eq (item : NumberedListItem) (items : List NumberedListItem) :
    renderItems source (item :: items) = itemsText source [] (item :: items) := by
  rw [itemsText, List.nil_append, renderItems]
  induction items generalizing item with
  | nil => simp [itemsText, List.intercalate]
  | cons item' items ih =>
    rw [List.map_cons, List.map_cons, List.intercalate_cons_cons, ← List.map_cons, ih item', itemsText]
    simp

theorem wordCount_marker {number : Nat} {word : String} (h : (number, word) ∈ numberWords) {lead : Text}
    (hlead : lead = [] ∨ lead = ['\n']) :
    wordCount (lead ++ (Commands.digits number ++ ['.', ' '])) = 1 := by
  simp only [numberWords, List.mem_cons, List.not_mem_nil, or_false, Prod.mk.injEq] at h
  rcases h with ⟨rfl, -⟩ | ⟨rfl, -⟩ | ⟨rfl, -⟩ <;> rcases hlead with rfl | rfl <;> decide +kernel

/-- `command number one` holds two words more than `1. ` -/
theorem wordCount_marker_lt {pos x y : Nat} (hcommand : lowerIs (tokenize source) pos "command" = true)
    (hnumber : lowerIs (tokenize source) (pos + 1) "number" = true) (hx : isBoundary x source = true)
    (hy : isBoundary y source = true) (hxpos : x ≤ (spanAt (tokenize source) pos).start)
    (hpos : (spanAt (tokenize source) (pos + 1)).stop ≤ y) :
    1 < wordCount (textAt source ⟨x, y⟩) := by
  have hlt := lowerIs_lt hcommand
  have hedge := edge_stop hlt
  have hgap := spanAt_stop_lt (lowerIs_lt hnumber)
  have hpos' := spanAt_lt hlt
  have hnext := spanAt_lt (lowerIs_lt hnumber)
  have h₁ := wordCount_token hcommand (by decide) hx hedge.boundary hxpos (le_refl _)
  have h₂ := wordCount_token hnumber (by decide) hedge.boundary hy (le_of_lt hgap) hpos
  rw [wordCount_edge hx hedge hy (by omega) (by omega)]
  omega

theorem itemPieces_spec {words : List (Nat × String)} {pos o : Nat} {items : List NumberedListItem}
    {lead : Text} (h : listItems (tokenize source) words pos = some items)
    (hwords : ∀ w ∈ words, w ∈ numberWords) (hlead : lead = [] ∨ lead = ['\n'])
    (ho : pos < (tokenize source).length → o ≤ (spanAt (tokenize source) pos).start)
    (hb : isBoundary o source = true) (hrest : Tiled source (lastStop o items) rest) :
    Tiled source o (itemPieces lead items ++ rest) ∧
      (items ≠ [] → Takes source o (itemPieces lead items ++ rest)) ∧
      output source o (itemPieces lead items ++ rest) =
        itemsText source lead items ++ output source (lastStop o items) rest := by
  induction words generalizing pos items o lead with
  | nil =>
    obtain rfl := Option.some.inj h
    exact ⟨hrest, fun h => absurd rfl h, rfl⟩
  | cons w words ih =>
    obtain ⟨number, word⟩ := w
    rw [listItems] at h
    split at h
    · rename_i hmark
      simp only [Bool.and_eq_true, phraseMatches, decide_eq_true_eq] at hmark
      obtain ⟨hcommand, hnumber, hword, hlen⟩ := hmark
      have hend := @itemTokenEnd_le (tokenize source) (pos + 3) hlen
      simp only at h
      split at h
      · cases h
      · rename_i hlong
        obtain ⟨items, hitems, rfl⟩ := Option.map_eq_some_iff.mp h
        have hlast : itemTokenEnd (tokenize source) (pos + 3) - 1 < (tokenize source).length := by omega
        have hbefore := @spanAt_stop_strictMono source (pos + 1) (pos + 2) (by omega) (by omega)
        have hgap : (spanAt (tokenize source) (pos + 2)).stop <
            (spanAt (tokenize source) (pos + 3)).start := spanAt_stop_lt (by omega)
        have hpos := @spanAt_lt source pos (by omega)
        have hmono := @spanAt_stop_mono source pos (pos + 1) (by omega) (by omega)
        have hitem := @spanAt_lt source (pos + 3) (by omega)
        have hitems' := @spanAt_stop_mono source (pos + 3)
          (itemTokenEnd (tokenize source) (pos + 3) - 1) (by omega) hlast
        have ho' := ho (by omega)
        have hedge := @edge_start source (pos + 3) (by omega)
        have hcount := wordCount_marker (hwords (number, word) (by simp)) hlead
        have hmarker := wordCount_marker_lt hcommand hnumber hb hedge.boundary ho' (by omega)
        rw [lastStop_cons] at hrest ⊢
        obtain ⟨htiled, -, hout⟩ := ih hitems (fun w hw => hwords w (by simp [hw])) (Or.inr rfl)
          (fun hlt => by
            have := @spanAt_stop_lt source (itemTokenEnd (tokenize source) (pos + 3) - 1) (by omega)
            rw [show itemTokenEnd (tokenize source) (pos + 3) - 1 + 1 =
              itemTokenEnd (tokenize source) (pos + 3) by omega] at this
            exact le_of_lt this) (edge_stop hlast).boundary hrest
        refine ⟨Tiled.put (by show o ≤ (spanAt _ (pos + 3)).start; omega) hedge
          (by rw [hcount]; exact le_of_lt hmarker)
          (Tiled.keep (le_trans (le_of_lt hitem) hitems') (edge_stop hlast) htiled),
          fun _ => Takes.here (by rw [hcount]; exact hmarker), ?_⟩
        simp only [itemPieces, List.cons_append, output, Piece.output, Piece.stop, hout, itemsText,
          renderItem, List.append_assoc]
    · obtain rfl := Option.some.inj h
      exact ⟨hrest, fun h => absurd rfl h, rfl⟩

theorem list_pieces (hm : tryCommandMatch source (tokenize source) i = some m)
    (h : tryNumberedList source (tokenize source) i = some m)
    (hrest : Tiled source m.replaceSpan.stop rest) : CommandPieces source m rest := by
  obtain ⟨hstart, hstop, hle, hge⟩ := replaceSpan_edges hm
  have hspec := tryCommandMatch_spec hm
  have hi := lowerIs_lt hspec.command
  unfold tryNumberedList at h
  split at h
  · split at h
    · cases h
    · rename_i items hitems
      split at h
      · cases h
      · rename_i hlen
        obtain ⟨item, items, rfl⟩ : ∃ item items', items = item :: items' := by
          cases items with
          | nil => exact absurd (by simp) hlen
          | cons item items => exact ⟨item, items, rfl⟩
        have hblank : wordCount [] = 0 := rfl
        have hat : m.replaceSpan.start = (spanAt (tokenize source) i).start := by
          rw [hspec.replaceSpan_eq, expandReplaceSpan_start hi, ← Option.some.inj h]
          rfl
        obtain ⟨last, hil, hlast, hlastStop⟩ := listItems_last hitems (by simp)
        have hstop' : lastStop m.replaceSpan.start (item :: items) =
            (spanAt (tokenize source) (m.nextIndex - 1)).stop := by
          have hcommand : m.commandSpan.stop = (spanAt (tokenize source) last).stop := by
            rw [← Option.some.inj h]
            simp only [hlastStop, Option.getD_some]
          rw [lastStop, hlastStop, Option.getD_some, ← hcommand, hspec.commandSpan_eq]
        have hkind : m.kind = .numberedList (item :: items) := by rw [← Option.some.inj h]
        have hrender : m.render = renderItems source (item :: items) := by rw [← Option.some.inj h]
        have htail : Tiled source (lastStop m.replaceSpan.start (item :: items))
            (.put m.replaceSpan.stop [] :: rest) :=
          Tiled.put (by rw [hstop']; exact hge) hstop (by rw [hblank]; exact Nat.zero_le _) hrest
        obtain ⟨htiled, htakes, hout⟩ := itemPieces_spec hitems (fun w hw => hw) (Or.inl rfl)
          (fun _ => hle) hstart.boundary htail
        unfold CommandPieces
        simp only [commandPieces, hkind, List.append_assoc, List.singleton_append]
        refine ⟨htiled, htakes (by simp), ?_⟩
        rw [hout, hrender, renderItems_eq]
        rfl
  · cases h

/-- **the pieces of a command** -/
theorem commandPieces_spec (hm : tryCommandMatch source (tokenize source) i = some m)
    (hrest : Tiled source m.replaceSpan.stop rest) : CommandPieces source m rest := by
  have h := hm
  unfold tryCommandMatch at h
  split at h
  · rw [Option.or_eq_some_iff, Option.or_eq_some_iff] at h
    rcases h with h | ⟨-, h | ⟨-, h⟩⟩
    · exact quote_pieces hm h hrest
    · exact list_pieces hm h hrest
    · exact scalar_pieces hm h hrest
  · cases h

end

/-! ## the pieces of the rendering -/

section
variable {o : Nat} {rs : List Recognition}

theorem literal_of_escape {esc : EscapeMatch}
    (h : tryLiteralEscape source (tokenize source) i = some esc) :
    lowerIs (tokenize source) i "literal" = true := by
  unfold tryLiteralEscape at h
  split at h
  · rename_i hwords
    rw [Bool.and_eq_true] at hwords
    exact hwords.1
  · cases h

theorem piecesOf_spec (h : Trace source o rs) :
    Tiled source o (piecesOf source rs) ∧ (rs ≠ [] → Takes source o (piecesOf source rs)) ∧
      output source o (piecesOf source rs) = (eventsOf source o rs).renderCommandsOnly := by
  induction h with
  | nil hb =>
    refine ⟨Tiled.keep (isBoundary_le hb) (edge_byteLen source) Tiled.nil, fun h => absurd rfl h, ?_⟩
    rw [ParsedCommands.renderCommandsOnly, eventsOf, flushOrdinary_output (isBoundary_le hb)]
    simp [piecesOf, output, Piece.output]
  | @escape o j esc rs hesc hb ho hb₁ hlt hb₂ hr h ih =>
    obtain ⟨htiled, -, hout⟩ := ih
    obtain ⟨inner, hin, hj, hlit, hres, -⟩ := tryLiteralEscape_spec hesc
    have hspec := tryCommandMatch_spec hin
    have hinner := hspec.lt
    have hlen := hspec.le
    have hliteral := literal_of_escape hesc
    have he₁ : Edge source esc.literalSpan.start := by
      rw [hlit]
      exact edge_start (by omega)
    have he₂ : Edge source esc.residualSpan.start := by
      rw [hres]
      exact edge_start hj
    have he₃ : Edge source esc.residualSpan.stop := by
      rw [hres, hspec.commandSpan_eq]
      exact edge_stop (by omega)
    have hblank : wordCount [] = 0 := rfl
    have hgap := spanAt_stop_lt hj
    have hcount : 1 ≤ wordCount (textAt source ⟨esc.literalSpan.start, esc.residualSpan.start⟩) := by
      apply wordCount_token hliteral (by decide) hb₁ hb₂
      · rw [hlit]
      · rw [hres]
        exact le_of_lt hgap
    refine ⟨Tiled.keep ho he₁ (Tiled.put (le_of_lt hlt) he₂ (by rw [hblank]; exact Nat.zero_le _)
      (Tiled.keep (le_of_lt hr) he₃ htiled)), fun _ => Takes.later (Takes.here ?_), ?_⟩
    · rw [hblank]
      exact hcount
    · simp only [piecesOf, output, Piece.output, Piece.stop, hout, eventsOf,
        ParsedCommands.renderCommandsOnly, List.flatMap_append, List.flatMap_cons,
        flushOrdinary_output ho, CommandEvent.output, List.nil_append]
  | @command o j m rs hm hb ho hb₁ hr hin h ih =>
    obtain ⟨htiled, -, hout⟩ := ih
    obtain ⟨hpieces, htakes, htext⟩ := commandPieces_spec hm htiled
    refine ⟨Tiled.keep ho (replaceSpan_edges hm).1 hpieces, fun _ => Takes.later htakes, ?_⟩
    simp only [piecesOf, output, Piece.output, Piece.stop, htext, hout, eventsOf,
      ParsedCommands.renderCommandsOnly, List.flatMap_append, List.flatMap_cons,
      flushOrdinary_output ho, CommandEvent.output]

end

variable (source) in
theorem pieces_tiled : Tiled source 0 (pieces source) := (piecesOf_spec (recognised_trace source)).1

variable (source) in
/-- **the pieces, put together, are the command-only rendering** -/
theorem output_pieces :
    output source 0 (pieces source) = (parseFormattingCommands source).renderCommandsOnly := by
  rw [parseFormattingCommands_eq]
  exact (piecesOf_spec (recognised_trace source)).2.2

theorem pieces_takes (h : recognised source ≠ []) : Takes source 0 (pieces source) :=
  (piecesOf_spec (recognised_trace source)).2.1 h

/-! ## kept ranges -/

/-- the range of the transcript from `start` to `stop` stands at `place` in the rendering -/
structure Kept where
  start : Nat
  stop : Nat
  place : Nat
deriving DecidableEq, Repr

/-- the kept ranges among the pieces from offset `o` on; their output begins at `out` -/
def keptFrom (o out : Nat) : List Piece → List Kept
  | [] => []
  | .keep stop :: ps => ⟨o, stop, out⟩ :: keptFrom stop (out + (stop - o)) ps
  | .put stop text :: ps => keptFrom stop (out + byteLen text) ps

def kept (source : Text) : List Kept := keptFrom 0 0 (pieces source)

/-- `tok` lies in the kept range, and `out` is its copy in the rendering -/
def Kept.carries (k : Kept) (tok out : Token) : Bool :=
  k.start ≤ tok.start && tok.stop ≤ k.stop && out.start == k.place + (tok.start - k.start) &&
    out.stop == k.place + (tok.stop - k.start)

/-- **the word `out` of the rendering was made from the word `tok` of the transcript** -/
def produced (source : Text) (tok out : Token) : Bool := (kept source).any (·.carries tok out)

end

end Voisu.Formatting
