import Mathlib
import Voisu.Formatting.Provenance
import Voisu.Lib.Realign

/-!
# Anchors from the words of the transcript to those of the rendering

The anchors are found again by spelling: where both texts have as many words, index by index, else by
a scan that looks one word ahead.  Which word of the rendering was made from which word of the
transcript is `produced`'s to say, and the two need not agree.

* `sourceAnchors`            the anchors;
* `wordAlignment`            how the words of the rendering were made from those of the transcript;
* `AnchorsRight`             what an anchor table should be;
* `sourceAnchors_right`      it is right where no gap of the alignment leads the scan astray.
-/

set_option linter.unusedSectionVars false

namespace Voisu.Formatting
open Lib Commands

/-! ## the anchors -/

def sameWord (tok out : Token) : Bool := eqIgnoreAsciiCase tok.text out.text

/-- `source_anchors`; the keys of the map are in the order of the list -/
def sourceAnchors (base rendered : Text) : List (Token × Token) :=
  if (wordTokens base).length = (wordTokens rendered).length then
    ((wordTokens base).zip (wordTokens rendered)).filter fun p => sameWord p.1 p.2
  else realign sameWord (wordTokens base) (wordTokens rendered)

def commandsOnly (source : Text) : Text := (parseFormattingCommands source).renderCommandsOnly

/-! ## the order of the words -/

theorem runs_sorted {α : Type} [ByteSized α] {p : α → Bool} {off : Nat} {s : List α}
    {rs : List (Run α)} (h : Runs p off s rs) :
    (∀ r ∈ rs, off ≤ r.start ∧ r.start < r.stop) ∧ rs.Pairwise fun r q => r.stop ≤ q.start := by
  induction h with
  | gap => exact ⟨fun r hr => absurd hr (by simp), List.Pairwise.nil⟩
  | @run off g t s rs hg ht hne hs h ih =>
    obtain ⟨hrs, hsorted⟩ := ih
    have hpos := byteLen_pos hne
    refine ⟨?_, List.pairwise_cons.mpr ⟨fun q hq => (hrs q hq).1, hsorted⟩⟩
    intro r hr
    rcases List.mem_cons.mp hr with rfl | hr
    · simp only [Run.stop]
      omega
    · have := hrs r hr
      omega

theorem wordTokens_sorted (s : Text) : (∀ tok ∈ wordTokens s, tok.start < tok.stop) ∧
    (wordTokens s).Pairwise fun tok next => tok.stop ≤ next.start := by
  obtain ⟨hpos, hsorted⟩ := runs_sorted (runs_spec Prod.snd 0 (markWords false s))
  refine ⟨?_, ?_⟩
  · intro tok htok
    obtain ⟨r, hr, rfl⟩ := List.mem_map.mp htok
    rw [unmark_stop]
    exact (hpos r hr).2
  · refine List.pairwise_map.mpr (hsorted.imp fun h => ?_)
    rw [unmark_stop]
    exact h

theorem wordTokens_increasing (s : Text) :
    (wordTokens s).Pairwise fun tok next => tok.start < next.start := by
  obtain ⟨hpos, hsorted⟩ := wordTokens_sorted s
  refine hsorted.imp_of_mem fun htok _ hle => ?_
  have := hpos _ htok
  omega

theorem wordTokens_nodup (s : Text) : (wordTokens s).Nodup :=
  (wordTokens_increasing s).imp fun h heq => by rw [heq] at h; exact Nat.lt_irrefl _ h

/-! ## kept ranges -/

section
variable {source : Text}

/-- the kept ranges follow one another on both sides -/
theorem keptFrom_sorted {ps : List Piece} {o out : Nat} (h : Tiled source o ps) :
    (∀ k ∈ keptFrom o out ps, o ≤ k.start ∧ out ≤ k.place ∧ k.start ≤ k.stop) ∧
      (keptFrom o out ps).Pairwise fun k l =>
        k.stop ≤ l.start ∧ k.place + (k.stop - k.start) ≤ l.place := by
  induction h generalizing out with
  | nil => exact ⟨fun k hk => absurd hk (by simp [keptFrom]), List.Pairwise.nil⟩
  | @keep o stop ps ho he h ih =>
    obtain ⟨hmem, hsorted⟩ := @ih (out + (stop - o))
    refine ⟨?_, List.pairwise_cons.mpr ⟨fun l hl => ⟨(hmem l hl).1, (hmem l hl).2.1⟩, hsorted⟩⟩
    intro k hk
    rcases List.mem_cons.mp hk with rfl | hk
    · exact ⟨le_refl _, le_refl _, ho⟩
    · have := hmem k hk
      omega
  | @put o stop text ps ho he hcount h ih =>
    obtain ⟨hmem, hsorted⟩ := @ih (out + byteLen text)
    refine ⟨fun k hk => ?_, hsorted⟩
    have := hmem k hk
    omega

/-- **a kept range stands in both texts; behind it the rendering has no more words** -/
theorem keptFrom_spec {ps : List Piece} {o out : Nat} (h : Tiled source o ps) {a s q : Text}
    (hs : source = a ++ s) (ha : byteLen a = o) (hq : byteLen q = out) {k : Kept}
    (hk : k ∈ keptFrom o out ps) : ∃ a' g s' q' r', source = a' ++ g ++ s' ∧ byteLen a' = k.start ∧
      byteLen a' + byteLen g = k.stop ∧ q ++ output source o ps = q' ++ g ++ r' ∧
      byteLen q' = k.place ∧ wordCount r' ≤ wordCount s' ∧
      (lastSep notWhitespace (a' ++ g) || headSep notWhitespace s') = true := by
  induction ps generalizing o out a s q with
  | nil => cases hk
  | cons p ps ih =>
    obtain ⟨g, s', rfl, hg, htext, hsource, hag, -, -, hrest⟩ := h.cons hs ha
    have hlater (hk : k ∈ keptFrom p.stop (out + byteLen (p.output source o)) ps) := by
      have := ih hrest hsource hag (q := q ++ p.output source o) (by rw [byteLen_append, hq]) hk
      rwa [List.append_assoc] at this
    cases p with
    | put stop text => exact hlater hk
    | keep stop =>
      rcases List.mem_cons.mp hk with rfl | hk
      · refine ⟨a, g, s', q, output source stop ps, hsource, ha, by rw [← byteLen_append]; exact hag, ?_,
          hq, hrest.count hsource hag, ?_⟩
        · rw [output, Piece.output, ← List.append_assoc]
          simp only [Piece.stop] at htext
          rw [htext]
          rfl
        · cases h with
          | keep ho he h =>
            obtain ⟨b, c, hbc, hb, hsep⟩ := he
            obtain ⟨rfl, rfl⟩ := append_inj_byteLen (hbc.symm.trans hsource) (by rw [hb, hag]; rfl)
            exact hsep
      · apply hlater
        have hlen : byteLen (Piece.output source o (.keep stop)) = stop - o := by
          simp only [Piece.output]
          simp only [Piece.stop] at htext hg
          rw [htext]
          omega
        rwa [hlen]

/-! ## the words of the rendering and their origin -/

/-- a word and its copy are spelled alike, and behind the copy there are no more words -/
theorem produced_spec {b r : Token} {l bs l' rs : List Token}
    (hb : wordTokens source = l ++ b :: bs) (hr : wordTokens (commandsOnly source) = l' ++ r :: rs)
    (h : produced source b r = true) : r.text = b.text ∧ rs.length ≤ bs.length := by
  obtain ⟨k, hk, hcarries⟩ := List.any_eq_true.mp h
  simp only [Kept.carries, Bool.and_eq_true, decide_eq_true_eq, beq_iff_eq] at hcarries
  obtain ⟨⟨⟨hstart, hstop⟩, hrstart⟩, hrstop⟩ := hcarries
  obtain ⟨a, g, s, q, t, hsource, ha, hg, hout, hq, hcount, hsep⟩ :=
    keptFrom_spec (pieces_tiled source) (a := []) (q := []) rfl rfl rfl hk
  rw [List.nil_append, output_pieces] at hout
  obtain ⟨x, c, hx, hxb, -, hbs⟩ := wordTokens_split hb
  obtain ⟨x', c', hx', hxr, -, hrs⟩ := wordTokens_split hr
  rw [Run.stop] at hstop hrstop
  rw [Run.stop, hrstart] at hrstop
  -- the word lies in the kept range
  obtain ⟨u, rfl, hu⟩ := prefix_of_byteLen_le (a := a) (b := g ++ s) (c := x) (d := b.text ++ c)
    (by rw [← List.append_assoc, ← List.append_assoc, ← hsource, ← hx]) (by omega)
  rw [byteLen_append] at hxb
  obtain ⟨y, rfl, rfl⟩ := prefix_of_byteLen_le (a := u ++ b.text) (b := c) (c := g) (d := s)
    (by rw [List.append_assoc]; exact hu.symm) (by rw [byteLen_append]; omega)
  -- and its copy at the same place of the copied range
  have hcopy : x' ++ (r.text ++ c') = (q ++ u) ++ (b.text ++ (y ++ t)) := by
    have := hx'.symm.trans hout
    simpa only [List.append_assoc] using this
  obtain ⟨rfl, htail⟩ := append_inj_byteLen hcopy (by rw [byteLen_append, hxr, hrstart]; omega)
  obtain ⟨htext, rfl⟩ := append_inj_byteLen htail (by omega)
  refine ⟨htext, ?_⟩
  have hseam : wordCount (y ++ s) = wordCount y + wordCount s := by
    apply wordCount_append
    by_cases hempty : y = []
    · rw [hempty]
      rfl
    · rwa [← List.append_assoc, lastSep_append_of_ne_nil hempty] at hsep
  calc rs.length = wordCount (y ++ t) := hrs
    _ ≤ wordCount y + wordCount t := wordCount_append_le y t
    _ ≤ wordCount y + wordCount s := Nat.add_le_add_left hcount _
    _ = bs.length := by rw [← hseam, ← hbs]

/-- two kept ranges are one and the same, or one is before the other -/
theorem kept_compare {k l : Kept} (hk : k ∈ kept source) (hl : l ∈ kept source) : k = l ∨
    (k.stop ≤ l.start ∧ k.place + (k.stop - k.start) ≤ l.place) ∨
    (l.stop ≤ k.start ∧ l.place + (l.stop - l.start) ≤ k.place) := by
  have hsorted := List.pairwise_iff_getElem.mp (@keptFrom_sorted source _ 0 0 (pieces_tiled source)).2
  obtain ⟨i, hi, rfl⟩ := List.mem_iff_getElem.mp hk
  obtain ⟨j, hj, rfl⟩ := List.mem_iff_getElem.mp hl
  rcases Nat.lt_trichotomy i j with hij | rfl | hij
  · exact Or.inr (Or.inl (hsorted i j hi hj hij))
  · exact Or.inl rfl
  · exact Or.inr (Or.inr (hsorted j i hj hi hij))

theorem produced_order {b c r q : Token} (hb : b.start < b.stop) (hc : c.start < c.stop)
    (hbr : produced source b r = true) (hcq : produced source c q = true) :
    (b.start < c.start → r.start < q.start) ∧ (b = c → r.start = q.start) := by
  obtain ⟨k, hk, hkb⟩ := List.any_eq_true.mp hbr
  obtain ⟨l, hl, hlc⟩ := List.any_eq_true.mp hcq
  simp only [Kept.carries, Bool.and_eq_true, decide_eq_true_eq, beq_iff_eq] at hkb hlc
  obtain ⟨⟨⟨h₁, h₂⟩, h₃⟩, h₄⟩ := hkb
  obtain ⟨⟨⟨h₅, h₆⟩, h₇⟩, h₈⟩ := hlc
  refine ⟨fun hlt => ?_, fun heq => ?_⟩
  · rcases kept_compare hk hl with rfl | hkl | hlk
    · omega
    · omega
    · omega
  · subst heq
    rcases kept_compare hk hl with rfl | hkl | hlk
    · omega
    · omega
    · omega

/-! ## transcripts without commands -/

theorem recognised_of_count (h : (wordTokens source).length = (wordTokens (commandsOnly source)).length) :
    recognised source = [] := by
  by_contra hne
  have hlt := (pieces_tiled source).count_lt (pieces_takes hne) (a := []) rfl rfl
  rw [output_pieces] at hlt
  exact absurd h (Nat.ne_of_gt hlt)

theorem produced_self (h : recognised source = []) {b : Token} (hb : b ∈ wordTokens source) :
    produced source b b = true := by
  obtain ⟨l, bs, hsplit⟩ := List.append_of_mem hb
  obtain ⟨a, c, hs, ha, -, -⟩ := wordTokens_split hsplit
  have hlen : b.stop ≤ byteLen source := by
    rw [hs, Run.stop]
    simp only [byteLen_append]
    omega
  simp [produced, kept, pieces, h, piecesOf, keptFrom, Kept.carries, hlen]

end

/-! ## right anchors -/

/-- how the words of the rendering were made from those of the transcript -/
def wordAlignment (source : Text) : Alignment Token Token :=
  align (produced source) [] (wordTokens source) (wordTokens (commandsOnly source))

/-- what an anchor table for the command-only rendering should be -/
structure AnchorsRight (source : Text) (anchors : List (Token × Token)) : Prop where
  words : ∀ p ∈ anchors, p.1 ∈ wordTokens source ∧ p.2 ∈ wordTokens (commandsOnly source)
  increasing : anchors.Pairwise fun p q => p.1.start < q.1.start ∧ p.2.start < q.2.start
  injective : (anchors.map Prod.fst).Nodup ∧ (anchors.map Prod.snd).Nodup
  alike : ∀ p ∈ anchors, eqIgnoreAsciiCase p.1.text p.2.text = true
  /-- an anchor leads to the copy of its own word, not of another that is spelled alike -/
  origin : ∀ p ∈ anchors, produced source p.1 p.2 = true

theorem sourceAnchors_sublist (base rendered : Text) :
    ((sourceAnchors base rendered).map Prod.fst).Sublist (wordTokens base) ∧
      ((sourceAnchors base rendered).map Prod.snd).Sublist (wordTokens rendered) := by
  unfold sourceAnchors
  split
  · rename_i hlen
    have hfst := List.map_fst_zip (le_of_eq hlen)
    have hsnd := List.map_snd_zip (ge_of_eq hlen)
    refine ⟨?_, ?_⟩
    · conv_rhs => rw [← hfst]
      exact List.filter_sublist.map Prod.fst
    · conv_rhs => rw [← hsnd]
      exact List.filter_sublist.map Prod.snd
  · exact realign_sublist _ _

theorem sourceAnchors_alike (base rendered : Text) :
    ∀ p ∈ sourceAnchors base rendered, sameWord p.1 p.2 = true := by
  unfold sourceAnchors
  split
  · exact fun p hp => (List.mem_filter.mp hp).2
  · exact realign_same _ _

/-- all but the origin holds of every rendering -/
theorem anchorsRight_of_origin {source : Text}
    (h : ∀ p ∈ sourceAnchors source (commandsOnly source), produced source p.1 p.2 = true) :
    AnchorsRight source (sourceAnchors source (commandsOnly source)) := by
  obtain ⟨hfst, hsnd⟩ := sourceAnchors_sublist source (commandsOnly source)
  refine ⟨?_, ?_, ?_, sourceAnchors_alike _ _, h⟩
  · exact fun p hp => ⟨hfst.subset (List.mem_map_of_mem hp), hsnd.subset (List.mem_map_of_mem hp)⟩
  · have h₁ := List.pairwise_map.mp ((wordTokens_increasing source).sublist hfst)
    have h₂ := List.pairwise_map.mp ((wordTokens_increasing (commandsOnly source)).sublist hsnd)
    exact h₁.and h₂
  · exact ⟨(wordTokens_nodup _).sublist hfst, (wordTokens_nodup _).sublist hsnd⟩

section
variable (source : Text)

theorem wordAlignment_base : (wordAlignment source).base = wordTokens source := align_base _ _ _

theorem wordAlignment_result :
    (wordAlignment source).result = wordTokens (commandsOnly source) := align_result _ _ _

theorem wordAlignment_shared : ∀ p ∈ (wordAlignment source).pairs, sameWord p.1 p.2 = true := by
  intro p hp
  have hmade := align_made _ _ _ p hp
  obtain ⟨hbase, hresult⟩ := (wordAlignment source).subsets.2.2 p hp
  rw [wordAlignment_base] at hbase
  rw [wordAlignment_result] at hresult
  obtain ⟨l, bs, hb⟩ := List.append_of_mem hbase
  obtain ⟨l', rs, hr⟩ := List.append_of_mem hresult
  rw [sameWord, (produced_spec hb hr hmade).1]
  simp [eqIgnoreAsciiCase]

theorem wordAlignment_shrinks : (wordAlignment source).Shrinks := by
  apply align_shrinks
  intro b bs r rs ⟨l, hb⟩ ⟨l', hr⟩ hmade
  exact (produced_spec hb.symm hr.symm hmade).2

theorem wordAlignment_complete {b r : Token} (hb : b ∈ wordTokens source)
    (hr : r ∈ wordTokens (commandsOnly source)) (hmade : produced source b r = true) :
    (b, r) ∈ (wordAlignment source).pairs := by
  obtain ⟨hpos, -⟩ := wordTokens_sorted source
  exact @align_complete _ _ (produced source) Run.start Run.start [] _ _
    (fun b hb c hc r _ q _ hbr hcq => (produced_order (hpos b hb) (hpos c hc) hbr hcq).1)
    (fun b hb r _ q _ hbr hbq => (produced_order (hpos b hb) (hpos b hb) hbr hbq).2 rfl)
    (wordTokens_increasing _) (wordTokens_increasing _) b r hb hr hmade

end

theorem align_self {α : Type} {same made : α → α → Bool} {l : List α}
    (h : ∀ a ∈ l, made a a = true) : (align made [] l l).InStep same := by
  induction l with
  | nil => exact fun w hw => absurd hw (by simp)
  | cons a l ih =>
    have ha : (!made a a) = false := by rw [h a (by simp)]; rfl
    simp only [align, List.dropWhile_cons, ha, Bool.false_eq_true, if_false, List.takeWhile_cons]
    refine ⟨⟨fun w hw => absurd hw (by simp), fun w _ x hx => absurd hx (by simp),
      fun _ h => absurd h (by simp), fun _ w _ x hx => absurd hx (by simp), Or.inl (by simp)⟩, ?_⟩
    exact ih fun a ha => h a (by simp [ha])

/-- **the anchors are right when no gap of the alignment leads the scan astray; and they are not, when
one does, where no gap puts in two words** -/
theorem sourceAnchors_right (source : Text) :
    ((wordAlignment source).InStep sameWord →
      AnchorsRight source (sourceAnchors source (commandsOnly source))) ∧
    ((wordAlignment source).Thin →
      AnchorsRight source (sourceAnchors source (commandsOnly source)) →
      (wordAlignment source).InStep sameWord) := by
  by_cases hlen : (wordTokens source).length = (wordTokens (commandsOnly source)).length
  · have hrec := recognised_of_count hlen
    have hsame : commandsOnly source = source := (parse_of_none hrec).2
    refine ⟨fun _ => anchorsRight_of_origin fun p hp => ?_, fun _ _ => ?_⟩
    · rw [sourceAnchors, if_pos hlen, hsame] at hp
      obtain ⟨i, hi, hp⟩ := List.mem_iff_getElem.mp (List.mem_filter.mp hp).1
      rw [List.getElem_zip] at hp
      rw [← hp]
      exact produced_self hrec (List.getElem_mem _)
    · rw [wordAlignment, hsame]
      exact align_self fun b hb => produced_self hrec hb
  · have hanchors : sourceAnchors source (commandsOnly source) =
        realign sameWord (wordAlignment source).base (wordAlignment source).result := by
      rw [sourceAnchors, if_neg hlen, wordAlignment_base, wordAlignment_result]
    have hshared := wordAlignment_shared source
    have hshrinks := wordAlignment_shrinks source
    refine ⟨fun hstep => anchorsRight_of_origin fun p hp => ?_, fun hthin hright => ?_⟩
    · rw [hanchors, realign_of_inStep hshared hshrinks hstep] at hp
      exact align_made _ _ _ p hp
    · by_contra hstep
      obtain ⟨p, hp, hstray⟩ := realign_stray hshared hshrinks hthin hstep
      rw [← hanchors] at hp
      obtain ⟨hbase, hresult⟩ := hright.words p hp
      have hpair := wordAlignment_complete source hbase hresult (hright.origin p hp)
      obtain ⟨hgone, hfresh⟩ := Alignment.not_shared
        (by rw [wordAlignment_base]; exact wordTokens_nodup _)
        (by rw [wordAlignment_result]; exact wordTokens_nodup _) hpair
      exact hstray.elim hgone hfresh

def listAndPeriod : Text :=
  "ship it command period then it is done command number one tea command number two milk".toList

/-- a period and a list, with a word on both sides of them, and right anchors -/
theorem sourceAnchors_right_listAndPeriod : (wordAlignment listAndPeriod).InStep sameWord ∧
    AnchorsRight listAndPeriod (sourceAnchors listAndPeriod (commandsOnly listAndPeriod)) := by
  have hstep : (wordAlignment listAndPeriod).InStep sameWord := by decide +kernel
  exact ⟨hstep, (sourceAnchors_right listAndPeriod).1 hstep⟩

def periodPeriod : Text := "command period period".toList

/-- **the word that a command consumes is anchored to the one behind the command** -/
theorem sourceAnchors_wrong : ¬ AnchorsRight periodPeriod
    (sourceAnchors periodPeriod (commandsOnly periodPeriod)) := by
  intro h
  have hstray : (sourceAnchors periodPeriod (commandsOnly periodPeriod)).any
      (fun p => !produced periodPeriod p.1 p.2) = true := by decide +kernel
  obtain ⟨p, hp, hwrong⟩ := List.any_eq_true.mp hstray
  rw [h.origin p hp] at hwrong
  cases hwrong

end Voisu.Formatting
