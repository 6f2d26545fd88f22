import Voisu.Lib.Substrings

/-!
# Texts that are cut and put together

A pass over a text keeps some of its symbols, drops others and puts in its own.  Where it drops or puts
in, the output has a seam, and a word may come to lie over it.

* `Mark`                  a symbol of the output, or a seam;
* `Edits`                 the marks that a pass may make of a text;
* `joined`                a word lies over a seam of one pass, and the passes behind it leave it whole;
* `infix_runPasses_iff`   **a word is in the output when it was joined, or was there and stayed**;
* `replaceMarks`          replacing a pattern, which leaves none of it where it was.
-/

set_option linter.unusedSectionVars false

namespace Voisu.Lib

inductive Mark (α : Type) where
  | kept (a : α)
  | put (a : α)
  | seam
deriving DecidableEq, Repr

section
variable {α : Type} [DecidableEq α]

def Mark.symbol? : Mark α → Option α
  | kept a | put a => some a
  | seam => none

def textOf (marks : List (Mark α)) : List α := marks.filterMap Mark.symbol?

abbrev Pass (α : Type) := List α → List (Mark α)

def runPasses (passes : List (Pass α)) (s : List α) : List α :=
  passes.foldl (fun s pass => textOf (pass s)) s

/-- the word stands in the output as it stood in the text -/
def within (w : List α) (marks : List (Mark α)) : Bool := contains marks (w.map .kept)

/-- the word stands in the output, but only over a seam -/
def overSeam (w : List α) (marks : List (Mark α)) : Bool := contains (textOf marks) w && !within w marks

def stays (w : List α) : List (Pass α) → List α → Bool
  | [], _ => true
  | pass :: passes, s => within w (pass s) && stays w passes (textOf (pass s))

def joined (w : List α) : List (Pass α) → List α → Bool
  | [], _ => false
  | pass :: passes, s =>
    overSeam w (pass s) && stays w passes (textOf (pass s)) || joined w passes (textOf (pass s))

/-- what is kept is kept in order, and what is dropped leaves a seam -/
inductive Edits : List (Mark α) → List α → Prop
  | nil : Edits [] []
  | kept {a : α} {marks : List (Mark α)} {s : List α} (h : Edits marks s) :
      Edits (.kept a :: marks) (a :: s)
  | put {a : α} {marks : List (Mark α)} {s : List α} (h : Edits marks s) : Edits (.put a :: marks) s
  | seam {dropped : List α} {marks : List (Mark α)} {s : List α} (h : Edits marks s) :
      Edits (.seam :: marks) (dropped ++ s)

variable {w s : List α} {marks marks' : List (Mark α)} {passes : List (Pass α)}

/-! ## marks -/

@[simp] theorem textOf_append (marks marks' : List (Mark α)) :
    textOf (marks ++ marks') = textOf marks ++ textOf marks' := List.filterMap_append

@[simp] theorem textOf_seam (marks : List (Mark α)) : textOf (.seam :: marks) = textOf marks := rfl

@[simp] theorem textOf_kept_cons (a : α) (marks : List (Mark α)) :
    textOf (.kept a :: marks) = a :: textOf marks := rfl

@[simp] theorem textOf_map_kept (s : List α) : textOf (s.map .kept) = s := by
  induction s with
  | nil => rfl
  | cons a s ih => exact congrArg (a :: ·) ih

@[simp] theorem textOf_map_put (s : List α) : textOf (s.map .put) = s := by
  induction s with
  | nil => rfl
  | cons a s ih => exact congrArg (a :: ·) ih

theorem Edits.keep (s : List α) : Edits (s.map .kept) s := by
  induction s with
  | nil => exact .nil
  | cons a s ih => exact .kept ih

theorem Edits.insert (t : List α) (h : Edits marks s) : Edits (t.map .put ++ marks) s := by
  induction t with
  | nil => exact h
  | cons a t ih => exact .put ih

theorem Edits.append {s' : List α} (h : Edits marks s) (h' : Edits marks' s') :
    Edits (marks ++ marks') (s ++ s') := by
  induction h with
  | nil => exact h'
  | kept _ ih => exact .kept ih
  | put _ ih => exact .put ih
  | seam _ ih =>
    rw [List.append_assoc]
    exact .seam ih

/-- a seam at the end, when the rest is dropped -/
theorem Edits.drop (s : List α) : Edits (if s = [] then [] else [.seam]) s := by
  split
  · rename_i h
    rw [h]
    exact .nil
  · have hseam : Edits [.seam] (s ++ []) := .seam .nil
    rwa [List.append_nil] at hseam

theorem within_iff : within w marks = true ↔ w.map .kept <:+: marks := contains_iff

/-- a run of kept symbols at the front is at the front of the text -/
theorem Edits.isPrefix_source (h : Edits marks s) (hw : w.map .kept <+: marks) : w <+: s := by
  induction h generalizing w with
  | nil =>
    obtain rfl := List.map_eq_nil_iff.mp (List.prefix_nil.mp hw)
    exact List.nil_prefix
  | kept _ ih =>
    cases w with
    | nil => exact List.nil_prefix
    | cons b w =>
      obtain ⟨hb, htail⟩ := List.cons_prefix_cons.mp hw
      obtain rfl := Mark.kept.inj hb
      exact List.cons_prefix_cons.mpr ⟨rfl, ih htail⟩
  | put | seam =>
    cases w with
    | nil => exact List.nil_prefix
    | cons b w => cases (List.cons_prefix_cons.mp hw).1

/-- **what stands in the output as it stood was in the text** -/
theorem Edits.infix_of_within (h : Edits marks s) (hw : within w marks = true) : w <:+: s := by
  rw [within_iff] at hw
  induction h with
  | nil =>
    obtain rfl := List.map_eq_nil_iff.mp (List.infix_nil.mp hw)
    exact List.nil_infix
  | kept h ih =>
    rcases List.infix_cons_iff.mp hw with hw | hw
    · exact ((Edits.kept h).isPrefix_source hw).isInfix
    · exact List.infix_cons_iff.mpr (.inr (ih hw))
  | put h ih =>
    rcases List.infix_cons_iff.mp hw with hw | hw
    · exact ((Edits.put h).isPrefix_source hw).isInfix
    · exact ih hw
  | seam h ih =>
    rcases List.infix_cons_iff.mp hw with hw | hw
    · exact ((Edits.seam h).isPrefix_source hw).isInfix
    · exact List.infix_append_of_infix_right (ih hw)

theorem infix_textOf_of_within (h : within w marks = true) : w <:+: textOf marks := by
  obtain ⟨x, y, hxy⟩ := within_iff.mp h
  refine ⟨textOf x, textOf y, ?_⟩
  rw [← hxy, textOf_append, textOf_append, textOf_map_kept]

theorem infix_textOf_iff : w <:+: textOf marks ↔ within w marks = true ∨ overSeam w marks = true := by
  rw [overSeam, Bool.and_eq_true, contains_iff, Bool.not_eq_true']
  constructor
  · intro h
    cases hw : within w marks with
    | true => exact .inl rfl
    | false => exact .inr ⟨h, rfl⟩
  · rintro (h | h)
    · exact infix_textOf_of_within h
    · exact h.1

/-! ## passes -/

theorem runPasses_append (passes passes' : List (Pass α)) (s : List α) :
    runPasses (passes ++ passes') s = runPasses passes' (runPasses passes s) := List.foldl_append

/-- **a word is in the output when it was joined by a pass, or was there and stayed** -/
theorem infix_runPasses_iff (hpasses : ∀ pass ∈ passes, ∀ s, Edits (pass s) s) :
    w <:+: runPasses passes s ↔ joined w passes s = true ∨ (w <:+: s ∧ stays w passes s = true) := by
  induction passes generalizing s with
  | nil => simp [runPasses, joined, stays]
  | cons pass passes ih =>
    have hedits := hpasses pass List.mem_cons_self s
    rw [runPasses, List.foldl_cons, ← runPasses,
      ih fun pass h => hpasses pass (List.mem_cons_of_mem _ h), infix_textOf_iff, joined, stays]
    simp only [Bool.or_eq_true, Bool.and_eq_true]
    constructor
    · rintro (hjoined | ⟨hwithin | hseam, hstays⟩)
      · exact .inl (.inr hjoined)
      · exact .inr ⟨hedits.infix_of_within hwithin, hwithin, hstays⟩
      · exact .inl (.inl ⟨hseam, hstays⟩)
    · rintro ((⟨hseam, hstays⟩ | hjoined) | ⟨-, hwithin, hstays⟩)
      · exact .inr ⟨.inr hseam, hstays⟩
      · exact .inl hjoined
      · exact .inr ⟨.inl hwithin, hstays⟩

/-- a word that one pass never leaves as it stood -/
theorem stays_eq_false {pass : Pass α} (hmem : pass ∈ passes) (h : ∀ s, within w (pass s) = false)
    (s : List α) : stays w passes s = false := by
  induction passes generalizing s with
  | nil => cases hmem
  | cons first passes ih =>
    rw [stays]
    rcases List.mem_cons.mp hmem with rfl | hmem
    · rw [h, Bool.false_and]
    · rw [ih hmem, Bool.and_false]

/-- **such a word is in the output only when it was joined** -/
theorem infix_runPasses_iff_joined (hpasses : ∀ pass ∈ passes, ∀ s, Edits (pass s) s)
    {pass : Pass α} (hmem : pass ∈ passes) (h : ∀ s, within w (pass s) = false) :
    w <:+: runPasses passes s ↔ joined w passes s = true := by
  rw [infix_runPasses_iff hpasses, stays_eq_false hmem h]
  simp

/-! ## replacements -/

/-- the marks of `replaceFrom` -/
def replaceMarks (pat mask : List α) : Nat → List α → List (Mark α)
  | _, [] => []
  | skip + 1, _ :: s => replaceMarks pat mask skip s
  | 0, a :: s =>
    if startsWith (a :: s) pat then
      .seam :: (mask.map .put ++ replaceMarks pat mask (pat.length - 1) s)
    else .kept a :: replaceMarks pat mask 0 s

variable {pat mask : List α}

theorem textOf_replaceMarks (pat mask : List α) (skip : Nat) (s : List α) :
    textOf (replaceMarks pat mask skip s) = replaceFrom pat mask skip s := by
  fun_induction replaceMarks pat mask skip s with
  | case1 skip => cases skip <;> rfl
  | case2 skip a s ih =>
    rw [ih]
    rfl
  | case3 a s hs ih => rw [replaceFrom, if_pos hs, textOf_seam, textOf_append, textOf_map_put, ih]
  | case4 a s hs ih => rw [replaceFrom, if_neg hs, textOf_kept_cons, ih]

theorem edits_replaceMarks (hpat : pat ≠ []) (mask : List α) (skip : Nat) (s : List α) :
    Edits (replaceMarks pat mask skip s) (s.drop skip) := by
  fun_induction replaceMarks pat mask skip s with
  | case1 skip =>
    rw [List.drop_nil]
    exact .nil
  | case2 skip a s ih => exact ih
  | case3 a s hs ih =>
    have hdrop : a :: s = (a :: s).take pat.length ++ s.drop (pat.length - 1) := by
      obtain ⟨b, pat, rfl⟩ := List.exists_cons_of_ne_nil hpat
      exact (List.take_append_drop (b :: pat).length (a :: s)).symm
    rw [List.drop_zero, hdrop]
    exact .seam (ih.insert mask)
  | case4 a s _ ih => exact .kept ih

/-- **no occurrence is left where it was** -/
theorem within_replaceMarks (hpat : pat ≠ []) (mask : List α) (skip : Nat) (s : List α) :
    within pat (replaceMarks pat mask skip s) = false := by
  rw [Bool.eq_false_iff, ne_eq, within_iff]
  obtain ⟨b, pat', hcons⟩ := List.exists_cons_of_ne_nil hpat
  have hput (t : List α) {marks : List (Mark α)} (h : pat.map .kept <:+: t.map .put ++ marks) :
      pat.map .kept <:+: marks := by
    induction t with
    | nil => exact h
    | cons a t ih =>
      rcases List.infix_cons_iff.mp h with h | h
      · rw [hcons] at h
        cases (List.cons_prefix_cons.mp h).1
      · exact ih h
  fun_induction replaceMarks pat mask skip s with
  | case1 skip =>
    intro h
    exact hpat (List.map_eq_nil_iff.mp (List.infix_nil.mp h))
  | case2 skip a s ih => exact ih
  | case3 a s _ ih =>
    intro h
    rcases List.infix_cons_iff.mp h with h | h
    · rw [hcons] at h
      cases (List.cons_prefix_cons.mp h).1
    · exact ih (hput mask h)
  | case4 a s hs ih =>
    intro h
    rcases List.infix_cons_iff.mp h with h | h
    · have hedits := Edits.kept (a := a) (edits_replaceMarks hpat mask 0 s)
      exact hs (startsWith_iff.mpr (hedits.isPrefix_source h))
    · exact ih h

end

end Voisu.Lib
