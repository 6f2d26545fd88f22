import Voisu.Lib.Strings

/-!
# Words with joiners inside

An atom is a maximal run of letters, in which a single joiner may stand between two letters.  Whether
a symbol belongs to an atom depends only on its two neighbours, so the atoms are the runs of a text
whose symbols carry that mark.

* `mark`              the text with the mark of each symbol;
* `atomRuns`          the atoms and their offsets;
* `atomWords`         the texts of the atoms;
* `runsTogether`      whether an atom crosses the joint of two texts;
* `atomRuns_append`   the atoms of two texts, one after the other, when none does;
* `glue`              what stands between the two parts of an atom that crosses a joint;
* `atomWords_glue`    the atoms of two texts when one does;
* `atomRuns_glue`     their offsets, which change at the joint only;
* `atomWords_eq_of_words`   only the parts between symbols that are neither letters nor joiners
                      matter.
-/

set_option linter.unusedSectionVars false

namespace Voisu.Lib

section
variable {α : Type} [ByteSized α] (letter joiner : α → Bool)

def headLetter (s : List α) : Bool := s.head?.any letter

/-- a joiner at the front, then a letter -/
def headJoins : List α → Bool
  | j :: s => joiner j && headLetter letter s
  | [] => false

/-- `before` tells whether the symbol before the text is a letter -/
def markFrom : Bool → List α → List (α × Bool)
  | _, [] => []
  | before, a :: s =>
    (a, letter a || (joiner a && before && headLetter letter s)) :: markFrom (letter a) s

def mark (s : List α) : List (α × Bool) := markFrom letter joiner false s

/-- the runs of marked symbols, without their marks -/
def unmarkRun (r : Run (α × Bool)) : Run α := ⟨r.start, r.text.map Prod.fst⟩

def atomRuns (off : Nat) (s : List α) : List (Run α) :=
  (runs Prod.snd off (mark letter joiner s)).map unmarkRun

def atomWords (s : List α) : List (List α) := (atomRuns letter joiner 0 s).map Run.text

/-! ## two texts, one after the other -/

/-- the last symbol is a letter -/
def endLetter : Bool → List α → Bool
  | before, [] => before
  | _, a :: s => endLetter (letter a) s

/-- a letter, then a joiner at the back -/
def endJoins : Bool → List α → Bool
  | _, [] => false
  | before, [a] => joiner a && before
  | _, a :: b :: s => endJoins (letter a) (b :: s)

/-- an atom crosses the joint of the two texts -/
def runsTogether (s t : List α) : Bool :=
  (endLetter letter false s && (headLetter letter t || headJoins letter joiner t)) ||
    (endJoins letter joiner false s && headLetter letter t)

variable {letter joiner}

theorem markFrom_fst (before : Bool) (s : List α) :
    (markFrom letter joiner before s).map Prod.fst = s := by
  induction s generalizing before with
  | nil => rfl
  | cons a s ih =>
    show a :: (markFrom letter joiner (letter a) s).map Prod.fst = a :: s
    rw [ih]

theorem length_markFrom (before : Bool) (s : List α) :
    (markFrom letter joiner before s).length = s.length := by
  have := congrArg List.length (@markFrom_fst _ _ letter joiner before s)
  rwa [List.length_map] at this

theorem markFrom_append {before : Bool} {s t : List α}
    (h : (endJoins letter joiner before s && headLetter letter t) = false) :
    markFrom letter joiner before (s ++ t) =
      markFrom letter joiner before s ++ markFrom letter joiner (endLetter letter before s) t := by
  induction s generalizing before with
  | nil => rfl
  | cons a s ih =>
    cases s with
    | nil =>
      -- the last symbol looks at the first one of `t`
      have h' : (joiner a && before && headLetter letter t) = false := h
      show (a, letter a || (joiner a && before && headLetter letter t)) :: _ = (a, _) :: _
      rw [h']
      simp [headLetter, endLetter, markFrom]
    | cons b s =>
      have ih := ih h
      show (a, _) :: markFrom letter joiner (letter a) (b :: s ++ t) = (a, _) :: (_ ++ _)
      rw [ih]
      rfl

/-- only the first mark depends on the symbol before the text -/
theorem markFrom_before {before : Bool} {t : List α}
    (h : (before && headJoins letter joiner t) = false) :
    markFrom letter joiner before t = markFrom letter joiner false t := by
  cases t with
  | nil => rfl
  | cons a t =>
    have h' : (before && (joiner a && headLetter letter t)) = false := h
    unfold markFrom
    rw [Bool.and_comm (joiner a) before, Bool.and_assoc, h']
    simp

theorem mark_append {s t : List α} (h : runsTogether letter joiner s t = false) :
    mark letter joiner (s ++ t) = mark letter joiner s ++ mark letter joiner t := by
  unfold runsTogether at h
  obtain ⟨h1, h2⟩ := Bool.or_eq_false_iff.mp h
  unfold mark
  rw [Bool.and_or_distrib_left] at h1
  rw [markFrom_append h2, markFrom_before (Bool.or_eq_false_iff.mp h1).2]

theorem headSep_mark (s : List α) :
    headSep Prod.snd (mark letter joiner s) = !headLetter letter s := by
  cases s with
  | nil => rfl
  | cons a s => simp [mark, markFrom, headSep, headLetter]

/-- a joiner at the back is not marked -/
theorem lastSep_markFrom {before : Bool} {s : List α} (hs : s ≠ []) :
    lastSep Prod.snd (markFrom letter joiner before s) = !endLetter letter before s := by
  induction s generalizing before with
  | nil => exact absurd rfl hs
  | cons a s ih =>
    cases s with
    | nil => simp [markFrom, lastSep, headSep, headLetter, endLetter]
    | cons b s =>
      have hne : markFrom letter joiner (letter a) (b :: s) ≠ [] := by simp [markFrom]
      show lastSep Prod.snd ([_] ++ markFrom letter joiner (letter a) (b :: s)) = _
      rw [lastSep_append_of_ne_nil hne, ih (by simp)]
      rfl

theorem lastSep_mark (s : List α) :
    lastSep Prod.snd (mark letter joiner s) = !endLetter letter false s := by
  by_cases hs : s = []
  · subst hs
    rfl
  · exact lastSep_markFrom hs

theorem byteLen_mark (s : List α) : byteLen (mark letter joiner s) = byteLen s := by
  unfold mark
  generalize false = before
  induction s generalizing before with
  | nil => rfl
  | cons a s ih =>
    show ByteSized.size a + byteLen (markFrom letter joiner (letter a) s) = _
    rw [ih]
    rfl

/-- **the atoms of two texts that do not run together** -/
theorem atomRuns_append (off : Nat) {s t : List α} (h : runsTogether letter joiner s t = false) :
    atomRuns letter joiner off (s ++ t) =
      atomRuns letter joiner off s ++ atomRuns letter joiner (off + byteLen s) t := by
  have hj : (lastSep Prod.snd (mark letter joiner s) ||
      headSep Prod.snd (mark letter joiner t)) = true := by
    rw [lastSep_mark, headSep_mark]
    unfold runsTogether at h
    obtain ⟨h1, -⟩ := Bool.or_eq_false_iff.mp h
    rw [Bool.and_or_distrib_left] at h1
    have h2 := (Bool.or_eq_false_iff.mp h1).1
    rw [← Bool.not_and, h2]
    rfl
  have hs := runs_spec Prod.snd off (mark letter joiner s)
  have ht := runs_spec Prod.snd (off + byteLen s) (mark letter joiner t)
  rw [← @byteLen_mark _ _ letter joiner s] at ht
  unfold atomRuns
  rw [mark_append h, ← List.map_append, ← (hs.append ht hj).unique (runs_spec _ _ _),
    byteLen_mark]

theorem runs_words {β : Type} [ByteSized β] (p : β → Bool) (off : Nat) (s : List β) :
    (runs p off s).map Run.text = words p s :=
  (words_eq_of_runs (runs_spec p off s)).symm

theorem atomRuns_words (off : Nat) (s : List α) :
    (atomRuns letter joiner off s).map Run.text = atomWords letter joiner s := by
  have h : ∀ off, (atomRuns letter joiner off s).map Run.text =
      (words Prod.snd (mark letter joiner s)).map (List.map Prod.fst) := by
    intro off
    unfold atomRuns
    rw [List.map_map, ← runs_words Prod.snd off, List.map_map]
    rfl
  unfold atomWords
  rw [h, h]

theorem atomWords_append {s t : List α} (h : runsTogether letter joiner s t = false) :
    atomWords letter joiner (s ++ t) = atomWords letter joiner s ++ atomWords letter joiner t := by
  rw [← atomRuns_words 0, atomRuns_append 0 h, List.map_append, atomRuns_words, atomRuns_words]

theorem endLetter_append (before : Bool) (s t : List α) :
    endLetter letter before (s ++ t) = endLetter letter (endLetter letter before s) t := by
  induction s generalizing before with
  | nil => rfl
  | cons a s ih => exact ih _

theorem endLetter_of_false {before : Bool} {t : List α} (h : endLetter letter false t = true) :
    endLetter letter before t = true := by
  cases t with
  | nil => cases h
  | cons a t => exact h

theorem endJoins_append {before : Bool} {s t : List α} (h : endJoins letter joiner false t = true) :
    endJoins letter joiner before (s ++ t) = true := by
  induction s generalizing before with
  | nil =>
    match t with
    | [] => cases h
    | [a] => simp [endJoins] at h
    | a :: b :: t => exact h
  | cons a s ih =>
    cases hst : s ++ t with
    | nil =>
      rw [(List.append_eq_nil_iff.mp hst).2] at h
      cases h
    | cons b u =>
      rw [List.cons_append, hst]
      rw [hst] at ih
      exact ih

/-- less text in front, and no atom starts to cross -/
theorem runsTogether_suffix {s t u : List α} (h : runsTogether letter joiner (s ++ t) u = false) :
    runsTogether letter joiner t u = false := by
  by_contra hc
  have hc : runsTogether letter joiner t u = true := by simpa using hc
  have : runsTogether letter joiner (s ++ t) u = true := by
    unfold runsTogether at hc ⊢
    rcases Bool.or_eq_true_iff.mp hc with hc | hc
    · obtain ⟨h1, h2⟩ := Bool.and_eq_true_iff.mp hc
      rw [endLetter_append, endLetter_of_false h1, h2]
      rfl
    · obtain ⟨h1, h2⟩ := Bool.and_eq_true_iff.mp hc
      rw [endJoins_append h1, h2]
      simp
  rw [this] at h
  cases h

/-! ## two texts that run together -/

variable (letter joiner) in
/-- what stands between the last atom of `s` and the first of `t` when they become one -/
def glue (s t : List α) : Option (List α) :=
  if endLetter letter false s && headLetter letter t then some []
  else if endLetter letter false s && headJoins letter joiner t then some (t.take 1)
  else if endJoins letter joiner false s && headLetter letter t then some s.getLast?.toList
  else none

theorem glue_eq_none {s t : List α} :
    glue letter joiner s t = none ↔ runsTogether letter joiner s t = false := by
  unfold glue runsTogether
  cases endLetter letter false s <;> cases headLetter letter t <;>
    cases headJoins letter joiner t <;> cases endJoins letter joiner false s <;> simp

example : glue Char.isDigit (· == '.') "1.".toList "2".toList = some ['.'] := by decide +kernel

theorem last_run {β : Type} [ByteSized β] {p : β → Bool} {l : List β} (h : lastSep p l = false) :
    ∃ a x, l = a ++ x ∧ x.all p = true ∧ x ≠ [] ∧ lastSep p a = true ∧
      words p l = words p a ++ [x] := by
  obtain ⟨x, hl, hx, ha⟩ := trimEndMatches_split p l
  have hne : x ≠ [] := by
    intro h0
    rw [h0, List.append_nil] at hl
    rw [hl, ha] at h
    cases h
  refine ⟨trimEndMatches p l, x, hl, hx, hne, ha, ?_⟩
  conv_lhs => rw [hl]
  rw [words_append (by rw [ha, Bool.true_or]), words_run hx hne]

theorem first_run {β : Type} [ByteSized β] {p : β → Bool} {l : List β} (h : headSep p l = false) :
    ∃ y b, l = y ++ b ∧ y.all p = true ∧ y ≠ [] ∧ headSep p b = true ∧
      words p l = y :: words p b := by
  obtain ⟨y, hl, hy, hb⟩ := trimStartMatches_split p l
  have hne : y ≠ [] := by
    intro h0
    rw [h0, List.nil_append] at hl
    rw [hl, hb] at h
    cases h
  refine ⟨y, trimStartMatches p l, hl, hy, hne, hb, ?_⟩
  conv_lhs => rw [hl]
  rw [words_append (by rw [hb, Bool.or_true]), words_run hy hne]
  rfl

/-- the last run of `l`, marked symbols `m` and the first run of `r` are one run -/
theorem words_join {β : Type} [ByteSized β] {p : β → Bool} {l m r : List β}
    (hl : lastSep p l = false) (hr : headSep p r = false) (hm : m.all p = true) :
    ∃ xs x y ys, words p l = xs ++ [x] ∧ words p r = y :: ys ∧
      words p (l ++ (m ++ r)) = xs ++ (x ++ m ++ y) :: ys := by
  obtain ⟨a, x, rfl, hx, hxne, ha, hwl⟩ := last_run hl
  obtain ⟨y, b, rfl, hy, hyne, hb, hwr⟩ := first_run hr
  refine ⟨_, x, y, _, hwl, hwr, ?_⟩
  have hall : (x ++ m ++ y).all p = true := by
    rw [List.all_append, List.all_append, hx, hm, hy]
    rfl
  rw [show a ++ x ++ (m ++ (y ++ b)) = a ++ ((x ++ m ++ y) ++ b) by simp,
    words_append (by rw [ha, Bool.true_or]), words_append (by rw [hb, Bool.or_true]),
    words_run hall (by simp [hxne])]
  rfl

theorem atomWords_eq (s : List α) :
    atomWords letter joiner s = (words Prod.snd (mark letter joiner s)).map (List.map Prod.fst) := by
  unfold atomWords atomRuns
  rw [List.map_map, ← runs_words Prod.snd 0, List.map_map]
  rfl

section
variable (hdis : ∀ a, letter a = true → joiner a = false)
include hdis

theorem endJoins_of_endLetter {before : Bool} {s : List α} (hs : s ≠ [])
    (h : endLetter letter before s = true) : endJoins letter joiner before s = false := by
  induction s generalizing before with
  | nil => exact absurd rfl hs
  | cons a s ih =>
    cases s with
    | nil =>
      have ha : joiner a = false := hdis a h
      simp [endJoins, ha]
    | cons b s => exact ih (by simp) h

/-- an atom that ends `s` goes on in `t` -/
theorem atomWords_join {s m t : List α} (hs : endLetter letter false s = true)
    (ht : headLetter letter t = true)
    (hm : m = [] ∨ ∃ j, m = [j] ∧ joiner j = true ∧ letter j = false) :
    ∃ xs x y ys, atomWords letter joiner s = xs ++ [x] ∧ atomWords letter joiner t = y :: ys ∧
      atomWords letter joiner (s ++ (m ++ t)) = xs ++ (x ++ m ++ y) :: ys := by
  have hsne : s ≠ [] := by
    intro h0
    rw [h0] at hs
    cases hs
  have hj := endJoins_of_endLetter hdis hsne hs
  have hmark : mark letter joiner (s ++ (m ++ t)) =
      mark letter joiner s ++ (m.map (fun j => (j, true)) ++ mark letter joiner t) := by
    unfold mark
    rw [markFrom_append (by rw [hj, Bool.false_and]), hs]
    rcases hm with rfl | ⟨j, rfl, hjj, hlj⟩
    · have htj : headJoins letter joiner t = false := by
        cases t with
        | nil => rfl
        | cons a t => simp [headJoins, hdis a ht]
      have hbefore := @markFrom_before _ _ letter joiner true t (by rw [htj, Bool.and_false])
      rw [List.nil_append, hbefore]
      rfl
    · show _ ++ ((j, letter j || (joiner j && true && headLetter letter t)) ::
        markFrom letter joiner (letter j) t) = _
      rw [hlj, hjj, ht]
      rfl
  obtain ⟨xs, x, y, ys, h1, h2, h3⟩ := @words_join _ _ Prod.snd (mark letter joiner s)
    (m.map fun j => (j, true)) (mark letter joiner t) (by rw [lastSep_mark, hs]; rfl)
    (by rw [headSep_mark, ht]; rfl) (by simp)
  refine ⟨xs.map (List.map Prod.fst), x.map Prod.fst, y.map Prod.fst, ys.map (List.map Prod.fst),
    ?_, ?_, ?_⟩
  · rw [atomWords_eq, h1]
    simp
  · rw [atomWords_eq, h2]
    simp
  · rw [atomWords_eq, hmark, h3]
    simp [Function.comp_def]

omit hdis in
theorem endJoins_split {before : Bool} {s : List α} (h : endJoins letter joiner before s = true) :
    ∃ s' a, s = s' ++ [a] ∧ endLetter letter before s' = true ∧ joiner a = true := by
  induction s generalizing before with
  | nil => cases h
  | cons b s ih =>
    cases s with
    | nil =>
      obtain ⟨h1, h2⟩ := Bool.and_eq_true_iff.mp h
      exact ⟨[], b, rfl, h2, h1⟩
    | cons c s =>
      obtain ⟨s', a, he, h1, h2⟩ := ih h
      exact ⟨b :: s', a, by rw [he]; rfl, h1, h2⟩

/-- **the atoms of two texts that run together** -/
theorem atomWords_glue {s t j : List α} (h : glue letter joiner s t = some j) :
    (j = [] ∨ ∃ a, j = [a] ∧ joiner a = true ∧ letter a = false) ∧
    ∃ xs x y ys, atomWords letter joiner s = xs ++ [x] ∧ atomWords letter joiner t = y :: ys ∧
      atomWords letter joiner (s ++ t) = xs ++ (x ++ j ++ y) :: ys := by
  unfold glue at h
  split at h
  · rename_i hst
    obtain ⟨hs, ht⟩ := Bool.and_eq_true_iff.mp hst
    obtain rfl := Option.some.inj h
    exact ⟨Or.inl rfl, atomWords_join hdis hs ht (Or.inl rfl)⟩
  split at h
  · -- a joiner in front of `t`
    rename_i _ hst
    obtain ⟨hs, ht⟩ := Bool.and_eq_true_iff.mp hst
    obtain rfl := Option.some.inj h
    cases t with
    | nil => cases ht
    | cons a t =>
      obtain ⟨ha, ht⟩ := Bool.and_eq_true_iff.mp ht
      have hla : letter a = false := by
        by_contra h0
        rw [hdis a (by simpa using h0)] at ha
        cases ha
      have h0 : atomWords letter joiner (a :: t) = atomWords letter joiner t := by
        rw [← List.singleton_append, atomWords_append (by simp [runsTogether, endLetter, endJoins,
          hla])]
        simp [atomWords_eq, mark, markFrom, headLetter, hla, words, runs, runsFrom]
      rw [h0]
      exact ⟨Or.inr ⟨a, rfl, ha, hla⟩, atomWords_join hdis hs ht (Or.inr ⟨a, rfl, ha, hla⟩)⟩
  split at h
  · -- a joiner behind `s`
    rename_i _ _ hst
    obtain ⟨hs, ht⟩ := Bool.and_eq_true_iff.mp hst
    obtain rfl := Option.some.inj h
    obtain ⟨s', a, rfl, hs', ha⟩ := endJoins_split hs
    have hla : letter a = false := by
      by_contra h0
      rw [hdis a (by simpa using h0)] at ha
      cases ha
    have h0 : atomWords letter joiner (s' ++ [a]) = atomWords letter joiner s' := by
      rw [atomWords_append (by
        simp [runsTogether, headLetter, headJoins, hla])]
      simp [atomWords_eq, mark, markFrom, headLetter, hla, words, runs, runsFrom]
    rw [h0, List.append_assoc, List.getLast?_concat]
    exact ⟨Or.inr ⟨a, rfl, ha, hla⟩, atomWords_join hdis hs' ht (Or.inr ⟨a, rfl, ha, hla⟩)⟩
  · cases h

example : atomWords Char.isDigit (· == '.') "1.2 .3".toList = ["1.2".toList, ['3']] := by decide +kernel

end

/-! ## a block of atoms -/

/-- the last mark in front of a joint -/
theorem lastSep_take_mark {before : Bool} {s t : List α} (hs : s ≠ []) :
    lastSep Prod.snd ((markFrom letter joiner before (s ++ t)).take s.length) =
      !(endLetter letter before s || (endJoins letter joiner before s && headLetter letter t)) := by
  induction s generalizing before with
  | nil => exact absurd rfl hs
  | cons a s ih =>
    cases s with
    | nil => simp [markFrom, lastSep, headSep, endLetter, endJoins]
    | cons b s =>
      have hne : (markFrom letter joiner (letter a) (b :: s ++ t)).take (b :: s).length ≠ [] := by
        simp [markFrom]
      show lastSep Prod.snd ([_] ++ (markFrom letter joiner (letter a) (b :: s ++ t)).take
        (b :: s).length) = _
      rw [lastSep_append_of_ne_nil hne, ih (by simp)]
      rfl

/-- the first mark behind a joint -/
theorem headSep_drop_mark {before : Bool} {s t : List α} :
    headSep Prod.snd ((markFrom letter joiner before (s ++ t)).drop s.length) =
      !(headLetter letter t || (endLetter letter before s && headJoins letter joiner t)) := by
  induction s generalizing before with
  | nil =>
    cases t with
    | nil => simp [markFrom, headSep, headLetter, headJoins]
    | cons b t =>
      simp [markFrom, headSep, headLetter, headJoins, endLetter, Bool.and_comm, Bool.or_assoc]
  | cons a s ih => exact ih

/-- **a non-empty block of atoms cuts the text before and after it** -/
theorem atomRuns_segment {off : Nat} {s : List α} {l m r : List (Run α)} {first last : Run α}
    (h : atomRuns letter joiner off s = l ++ (m ++ r)) (hf : m.head? = some first)
    (hl : m.getLast? = some last) :
    ∃ a w b, s = a ++ w ++ b ∧ off + byteLen a = first.start ∧
      off + byteLen a + byteLen w = last.stop ∧ atomWords letter joiner w = m.map Run.text ∧
      runsTogether letter joiner a (w ++ b) = false ∧
      runsTogether letter joiner (a ++ w) b = false := by
  unfold atomRuns at h
  obtain ⟨l', mr', hruns, rfl, hmr⟩ := List.map_eq_append_iff.mp h
  obtain ⟨m', r', rfl, rfl, rfl⟩ := List.map_eq_append_iff.mp hmr
  rw [List.head?_map] at hf
  rw [List.getLast?_map] at hl
  obtain ⟨first', hf', rfl⟩ := Option.map_eq_some_iff.mp hf
  obtain ⟨last', hl', rfl⟩ := Option.map_eq_some_iff.mp hl
  have hspec := runs_spec Prod.snd off (mark letter joiner s)
  rw [hruns] at hspec
  obtain ⟨A, W, B, hmark, h1, h2, -, hA, hW, -, hB, -⟩ := hspec.segment hf' hl'
  have hfst : ∀ u : List (α × Bool), byteLen (u.map Prod.fst) = byteLen u :=
    fun u => byteLen_map Prod.fst (fun _ => rfl) u
  have hs : s = A.map Prod.fst ++ W.map Prod.fst ++ B.map Prod.fst := by
    rw [← List.map_append, ← List.map_append, ← hmark]
    exact (markFrom_fst false s).symm
  generalize ha : A.map Prod.fst = a at hs
  generalize hw : W.map Prod.fst = w at hs
  generalize hb : B.map Prod.fst = b at hs
  have hla : a.length = A.length := by rw [← ha, List.length_map]
  have hlw : w.length = W.length := by rw [← hw, List.length_map]
  unfold mark at hmark
  have hfront : runsTogether letter joiner a (w ++ b) = false := by
    by_cases h0 : a = []
    · subst h0
      rfl
    · have := @lastSep_take_mark _ _ letter joiner false a (w ++ b) h0
      rw [← List.append_assoc, ← hs, hmark, List.append_assoc, hla, List.take_left, hA] at this
      have := Bool.not_eq_eq_eq_not.mp this.symm
      obtain ⟨h3, h4⟩ := Bool.or_eq_false_iff.mp this
      unfold runsTogether
      rw [h3, h4]
      rfl
  have hback : runsTogether letter joiner (a ++ w) b = false := by
    have := @headSep_drop_mark _ _ letter joiner false (a ++ w) b
    rw [← hs, hmark, List.length_append, hla, hlw, ← List.length_append, List.drop_left, hB] at this
    have := Bool.not_eq_eq_eq_not.mp this.symm
    obtain ⟨h3, h4⟩ := Bool.or_eq_false_iff.mp this
    unfold runsTogether
    rw [h3, Bool.false_or, h4, Bool.and_false]
    rfl
  refine ⟨a, w, b, hs, ?_, ?_, ?_, hfront, hback⟩
  · rw [← ha, hfst]
    exact h1
  · rw [← ha, ← hw, hfst, hfst, h2]
    show _ = last'.start + byteLen (last'.text.map Prod.fst)
    rw [hfst]
    rfl
  · have hsplit : mark letter joiner s =
        mark letter joiner a ++ (mark letter joiner w ++ mark letter joiner b) := by
      have h3 : runsTogether letter joiner w b = false := runsTogether_suffix hback
      rw [hs, List.append_assoc, mark_append hfront, mark_append h3]
    have hW' : mark letter joiner w = W := by
      unfold mark at hsplit ⊢
      rw [hmark, List.append_assoc] at hsplit
      have h4 := (List.append_inj hsplit (by rw [length_markFrom, hla])).2
      exact ((List.append_inj h4 (by rw [length_markFrom, hlw])).1).symm
    rw [atomWords_eq, hW', ‹words Prod.snd W = _›, List.map_map, List.map_map]
    rfl

/-- an atom starts with a letter -/
theorem atomWords_head {s w : List α} (hw : w ∈ atomWords letter joiner s) :
    headLetter letter w = true := by
  rw [atomWords_eq] at hw
  obtain ⟨W, hW, rfl⟩ := List.mem_map.mp hw
  obtain ⟨r, hr, rfl⟩ := List.mem_map.mp hW
  obtain ⟨l, k, hlk⟩ := List.append_of_mem hr
  have hspec := runs_spec Prod.snd 0 (mark letter joiner s)
  rw [hlk] at hspec
  obtain ⟨A, B, hmark, -, -, hA, hX, hne, -, -⟩ := hspec.split
  have hs : s = A.map Prod.fst ++ (r.text.map Prod.fst ++ B.map Prod.fst) := by
    rw [← List.map_append, ← List.map_append, ← List.append_assoc, ← hmark]
    exact (markFrom_fst false s).symm
  generalize ha : A.map Prod.fst = a at hs
  have hla : a.length = A.length := by rw [← ha, List.length_map]
  unfold mark at hmark
  -- the symbol before the atom is not a letter, or it would belong to it
  have hend : endLetter letter false a = false := by
    by_cases h0 : a = []
    · rw [h0]
      rfl
    · have := @lastSep_take_mark _ _ letter joiner false a
        (r.text.map Prod.fst ++ B.map Prod.fst) h0
      rw [← hs, hmark, List.append_assoc, hla, List.take_left, hA] at this
      exact (Bool.or_eq_false_iff.mp (Bool.not_eq_eq_eq_not.mp this.symm)).1
  have := @headSep_drop_mark _ _ letter joiner false a (r.text.map Prod.fst ++ B.map Prod.fst)
  rw [← hs, hmark, List.append_assoc, hla, List.drop_left, headSep_append_of_ne_nil hne,
    headSep_of_run hX hne, hend, Bool.false_and, Bool.or_false] at this
  have hne' : r.text.map Prod.fst ≠ [] := by simpa using hne
  cases hx : r.text.map Prod.fst with
  | nil => exact absurd hx hne'
  | cons x xs =>
    rw [hx] at this
    exact (Bool.not_eq_eq_eq_not.mp this.symm)

/-! ## the atoms around a joint -/

/-- only the last mark depends on what follows the text -/
theorem markFrom_take {before : Bool} {s t : List α} {n : Nat} (h : n < s.length) :
    (markFrom letter joiner before (s ++ t)).take n =
      (markFrom letter joiner before s).take n := by
  induction s generalizing before n with
  | nil => cases h
  | cons a s ih =>
    cases n with
    | zero => rfl
    | succ n =>
      have hn : n < s.length := Nat.lt_of_succ_lt_succ h
      have hhead : headLetter letter (s ++ t) = headLetter letter s := by
        cases s with
        | nil => cases hn
        | cons b s => rfl
      show (a, _ || (_ && headLetter letter (s ++ t))) :: (markFrom _ _ _ (s ++ t)).take n =
        (a, _ || (_ && headLetter letter s)) :: (markFrom _ _ _ s).take n
      rw [hhead, ih hn]

theorem markFrom_drop {before : Bool} {s t : List α} :
    (markFrom letter joiner before (s ++ t)).drop s.length =
      markFrom letter joiner (endLetter letter before s) t := by
  induction s generalizing before with
  | nil => rfl
  | cons a s ih => exact ih

/-- what follows a text leaves all its atoms but the last -/
theorem atomRuns_before {off : Nat} {s : List α} {rs : List (Run α)} {r : Run α}
    (h : atomRuns letter joiner off s = rs ++ [r]) (t : List α) :
    ∃ qs, atomRuns letter joiner off (s ++ t) = rs ++ qs := by
  unfold atomRuns at h
  obtain ⟨rs, last, hruns, rfl, hlast⟩ := List.map_eq_append_iff.mp h
  obtain ⟨r', rest, rfl, -, hrest⟩ := List.map_eq_cons_iff.mp hlast
  obtain rfl := List.map_eq_nil_iff.mp hrest
  have hspec := runs_spec Prod.snd off (mark letter joiner s)
  rw [hruns] at hspec
  obtain ⟨a, b, hmark, -, ha, hla, -, hne, -, -⟩ := hspec.split
  -- the last run lies behind `a`, so `a` is marked as before
  have hlen : a.length < s.length := by
    rw [← @length_markFrom _ _ letter joiner false s]
    unfold mark at hmark
    rw [hmark]
    have := List.length_pos_of_ne_nil hne
    simp only [List.length_append]
    omega
  have hcut : mark letter joiner (s ++ t) = a ++ (mark letter joiner (s ++ t)).drop a.length := by
    have htake : (mark letter joiner (s ++ t)).take a.length = a := by
      unfold mark at hmark ⊢
      rw [markFrom_take hlen, hmark, List.append_assoc, List.take_left]
    conv_lhs => rw [← List.take_append_drop a.length (mark letter joiner (s ++ t)), htake]
  refine ⟨(runs Prod.snd (off + byteLen a)
    ((mark letter joiner (s ++ t)).drop a.length)).map unmarkRun, ?_⟩
  have hall := ha.append (runs_spec _ _ ((mark letter joiner (s ++ t)).drop a.length))
    (by rw [hla, Bool.true_or])
  rw [← hcut] at hall
  unfold atomRuns
  rw [← hall.unique (runs_spec _ _ _), List.map_append]

/-- what stands before a text leaves all its atoms but the first -/
theorem atomRuns_behind {off : Nat} {s t : List α} {rs : List (Run α)} {r : Run α}
    (h : atomRuns letter joiner (off + byteLen s) t = r :: rs) :
    ∃ qs, atomRuns letter joiner off (s ++ t) = qs ++ rs := by
  unfold atomRuns at h
  obtain ⟨r, rs, hruns, -, rfl⟩ := List.map_eq_cons_iff.mp h
  have hspec := runs_spec Prod.snd (off + byteLen s) (mark letter joiner t)
  rw [hruns] at hspec
  obtain ⟨a, b, hmark, hstart, -, -, -, hne, hb, hrs⟩ := @Runs.split _ _ _ _ _ [] _ _ hspec
  have hcut : ∃ front, mark letter joiner (s ++ t) = front ++ b := by
    have hdrop := @markFrom_drop _ _ letter joiner false s t
    cases t with
    | nil =>
      have hnil : a ++ r.text ++ b = [] := hmark.symm
      simp [hne] at hnil
    | cons c t =>
      obtain ⟨y, z, hyz⟩ := List.exists_cons_of_ne_nil (show a ++ r.text ≠ [] by simp [hne])
      rw [hyz] at hmark
      have htail : markFrom letter joiner (letter c) t = z ++ b := (List.cons.inj hmark).2
      refine ⟨(mark letter joiner (s ++ c :: t)).take s.length ++
        (c, letter c || (joiner c && endLetter letter false s && headLetter letter t)) :: z, ?_⟩
      conv_lhs => rw [← List.take_append_drop s.length (mark letter joiner (s ++ c :: t))]
      unfold mark
      rw [hdrop]
      unfold markFrom
      rw [htail, List.append_assoc]
      rfl
  obtain ⟨front, hcut⟩ := hcut
  have hoff : off + byteLen front = r.stop := by
    have h1 := congrArg byteLen hcut
    have h2 := congrArg byteLen hmark
    rw [byteLen_mark] at h1 h2
    simp only [byteLen_append, Run.stop] at h1 h2 hstart ⊢
    omega
  have hall := (runs_spec Prod.snd off front).append (hoff ▸ hrs) (by rw [hb, Bool.or_true])
  rw [← hcut] at hall
  refine ⟨(runs Prod.snd off front).map unmarkRun, ?_⟩
  unfold atomRuns
  rw [← hall.unique (runs_spec _ _ _), List.map_append]

/-- **two texts that run together: all atoms stay but the two at the joint, which become one** -/
theorem atomRuns_glue (hdis : ∀ a, letter a = true → joiner a = false) (off : Nat)
    {s t j : List α} (h : glue letter joiner s t = some j) :
    ∃ rs r q qs m, atomRuns letter joiner off s = rs ++ [r] ∧
      atomRuns letter joiner (off + byteLen s) t = q :: qs ∧
      atomRuns letter joiner off (s ++ t) = rs ++ m :: qs ∧ m.text = r.text ++ j ++ q.text := by
  obtain ⟨-, xs, x, y, ys, h1, h2, h3⟩ := atomWords_glue hdis h
  rw [← atomRuns_words off] at h1 h3
  rw [← atomRuns_words (off + byteLen s)] at h2
  obtain ⟨rs, last, hs, rfl, hlast⟩ := List.map_eq_append_iff.mp h1
  obtain ⟨r, rest, rfl, rfl, hrest⟩ := List.map_eq_cons_iff.mp hlast
  obtain rfl := List.map_eq_nil_iff.mp hrest
  obtain ⟨q, qs, ht, rfl, rfl⟩ := List.map_eq_cons_iff.mp h2
  obtain ⟨back, hback⟩ := atomRuns_before hs t
  obtain ⟨front, hfront⟩ := atomRuns_behind ht
  rw [hback, List.map_append] at h3
  obtain ⟨m, back, rfl, hm, hqs⟩ := List.map_eq_cons_iff.mp (List.append_cancel_left h3)
  refine ⟨rs, r, q, qs, m, hs, ht, ?_, hm⟩
  have hlen : back.length = qs.length := by
    have := congrArg List.length hqs
    rwa [List.length_map, List.length_map] at this
  rw [hback, ← List.singleton_append, ← List.append_assoc] at hfront
  rw [hback, (List.append_inj' hfront hlen).2]

/-! ## maps of texts -/

section
variable {β : Type} [ByteSized β] {letter' joiner' : β → Bool} (f : α → β)
  (hl : ∀ a, letter' (f a) = letter a) (hj : ∀ a, joiner' (f a) = joiner a)
include hl hj

theorem markFrom_map (before : Bool) (s : List α) :
    markFrom letter' joiner' before (s.map f) =
      (markFrom letter joiner before s).map (Prod.map f id) := by
  induction s generalizing before with
  | nil => rfl
  | cons a s ih =>
    have hhead : headLetter letter' (s.map f) = headLetter letter s := by
      cases s with
      | nil => rfl
      | cons b s => exact hl b
    show (f a, letter' (f a) || (joiner' (f a) && before && headLetter letter' (s.map f))) ::
      markFrom letter' joiner' (letter' (f a)) (s.map f) = _
    rw [hl, hj, hhead, ih]
    rfl

/-- a map that keeps letters and joiners maps the atoms -/
theorem atomWords_map (s : List α) :
    atomWords letter' joiner' (s.map f) = (atomWords letter joiner s).map (List.map f) := by
  rw [atomWords_eq, atomWords_eq]
  unfold mark
  rw [markFrom_map f hl hj, words_map (Prod.map f id) Prod.snd (fun _ => rfl), List.map_map,
    List.map_map]
  congr 1
  funext w
  simp [Function.comp_def]

end

/-! ## symbols that are neither letters nor joiners -/

variable (letter joiner) in
def plainSymbol (a : α) : Bool := letter a || joiner a

theorem plainSymbol_of_marked {before : Bool} {s : List α} {a : α}
    (h : (a, true) ∈ markFrom letter joiner before s) : plainSymbol letter joiner a = true := by
  induction s generalizing before with
  | nil => cases h
  | cons b s ih =>
    rcases List.mem_cons.mp h with h | h
    · obtain ⟨rfl, h⟩ := Prod.mk.inj h
      unfold plainSymbol
      rcases Bool.or_eq_true_iff.mp h.symm with h | h
      · rw [h, Bool.true_or]
      · simp only [Bool.and_eq_true] at h
        rw [h.1.1, Bool.or_true]
    · exact ih h

/-- atoms are made of letters and joiners -/
theorem atomWords_plain {s w : List α} (hw : w ∈ atomWords letter joiner s) :
    w.all (plainSymbol letter joiner) = true := by
  rw [atomWords_eq] at hw
  obtain ⟨m, hm, rfl⟩ := List.mem_map.mp hw
  rw [List.all_eq_true]
  intro a ha
  obtain ⟨⟨a, flag⟩, hb, rfl⟩ := List.mem_map.mp ha
  have hflag : flag = true := List.all_eq_true.mp (words_all hm).2 _ hb
  subst hflag
  exact plainSymbol_of_marked (mem_of_mem_words hm hb)

theorem endLetter_sep {s : List α} (h : lastSep (plainSymbol letter joiner) s = true) :
    endLetter letter false s = false ∧ endJoins letter joiner false s = false := by
  have key : ∀ before, s ≠ [] →
      endLetter letter before s = false ∧ endJoins letter joiner before s = false := by
    induction s with
    | nil => intro _ h0; exact absurd rfl h0
    | cons a s ih =>
      intro before _
      cases s with
      | nil =>
        have h' : plainSymbol letter joiner a = false := by simpa [lastSep, headSep] using h
        obtain ⟨h1, h2⟩ := Bool.or_eq_false_iff.mp h'
        exact ⟨h1, by simp [endJoins, h2]⟩
      | cons b s =>
        have hb : lastSep (plainSymbol letter joiner) (b :: s) = true := by
          have hne : b :: s ≠ [] := by simp
          rwa [← List.singleton_append, lastSep_append_of_ne_nil hne] at h
        exact ih hb (letter a) (by simp)
  by_cases hs : s = []
  · subst hs
    exact ⟨rfl, rfl⟩
  · exact key false hs

theorem headLetter_sep {t : List α} (h : headSep (plainSymbol letter joiner) t = true) :
    headLetter letter t = false ∧ headJoins letter joiner t = false := by
  cases t with
  | nil => exact ⟨rfl, rfl⟩
  | cons a t =>
    have h' : plainSymbol letter joiner a = false := by simpa [headSep] using h
    obtain ⟨h1, h2⟩ := Bool.or_eq_false_iff.mp h'
    exact ⟨by simpa [headLetter] using h1, by simp [headJoins, h2]⟩

theorem runsTogether_of_sep {s t : List α}
    (h : (lastSep (plainSymbol letter joiner) s || headSep (plainSymbol letter joiner) t) = true) :
    runsTogether letter joiner s t = false := by
  unfold runsTogether
  rcases Bool.or_eq_true_iff.mp h with h | h
  · obtain ⟨h1, h2⟩ := endLetter_sep h
    rw [h1, h2]
    rfl
  · obtain ⟨h1, h2⟩ := headLetter_sep h
    rw [h1, h2]
    simp

theorem atomWords_gap {g : List α}
    (h : g.all (fun a => !plainSymbol letter joiner a) = true) : atomWords letter joiner g = [] := by
  induction g with
  | nil => rfl
  | cons a g ih =>
    simp only [List.all_cons, Bool.and_eq_true] at h
    have ha : lastSep (plainSymbol letter joiner) [a] = true := h.1
    rw [← List.singleton_append, atomWords_append (runsTogether_of_sep (by rw [ha, Bool.true_or])),
      ih h.2, List.append_nil]
    have : letter a = false := by
      have := h.1
      simp only [plainSymbol, Bool.not_eq_true', Bool.or_eq_false_iff] at this
      exact this.1
    simp [atomWords, atomRuns, mark, markFrom, headLetter, this, runs, runsFrom]

/-- **the atoms lie in the parts between the other symbols** -/
theorem atomWords_words (s : List α) :
    atomWords letter joiner s =
      (words (plainSymbol letter joiner) s).flatMap (atomWords letter joiner) := by
  obtain ⟨off, rs, h⟩ : ∃ off rs, Runs (plainSymbol letter joiner) off s rs :=
    ⟨0, _, runs_spec _ 0 s⟩
  rw [words_eq_of_runs h]
  induction h with
  | gap hg => rw [atomWords_gap hg]; rfl
  | @run off g t s rs hg ht hne hs h ih =>
    rw [List.append_assoc, atomWords_append (runsTogether_of_sep (by rw [lastSep_of_all hg]; rfl)),
      atomWords_append (runsTogether_of_sep (by rw [hs, Bool.or_true])), atomWords_gap hg, ih]
    rfl

theorem atomWords_eq_of_words {s t : List α}
    (h : words (plainSymbol letter joiner) s = words (plainSymbol letter joiner) t) :
    atomWords letter joiner s = atomWords letter joiner t := by
  rw [atomWords_words s, atomWords_words t, h]

end

end Voisu.Lib
