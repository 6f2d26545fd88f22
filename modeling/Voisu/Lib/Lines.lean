import Voisu.Lib.Strings

/-!
# Lines

* `strLines s`       `str::lines`: a break ends a line, and takes a carriage return with it;
* `splitStr sep s`   the pieces of a text between the occurrences of another;
* `unlines ls`       each line with a break after it;
* `strLines_unlines` **and the lines again**;
* `trimMatches_intercalate`   breaks trimmed from joined lines are blank lines dropped at the ends.
-/

namespace Voisu.Lib

section
variable {α : Type} [DecidableEq α]

/-- `cur` is the piece before the text; `skip` symbols of the last separator are still to be
passed -/
def splitStrFrom (sep : List α) (cur : List α) : Nat → List α → List (List α)
  | _, [] => [cur]
  | skip + 1, _ :: s => splitStrFrom sep cur skip s
  | 0, a :: s =>
    if startsWith (a :: s) sep then cur :: splitStrFrom sep [] (sep.length - 1) s
    else splitStrFrom sep (cur ++ [a]) 0 s

def splitStr (sep s : List α) : List (List α) := splitStrFrom sep [] 0 s

end

/-- a line without the carriage return that ends it -/
def chompReturn (line : List Char) : List Char :=
  if line.getLast? = some '\r' then line.dropLast else line

/-- the last piece is a line only if it is not empty -/
def strLines (s : List Char) : List (List Char) :=
  let split := s.splitOn '\n'
  let last := split.getLast?.getD []
  split.dropLast.map chompReturn ++ (if last.isEmpty then [] else [last])

/-! ## texts made of lines -/

def unlines (ls : List (List Char)) : List Char := ls.flatMap (· ++ ['\n'])

theorem unlines_append (ls ls' : List (List Char)) :
    unlines (ls ++ ls') = unlines ls ++ unlines ls' := List.flatMap_append

theorem unlines_cons (l : List Char) (ls : List (List Char)) :
    unlines (l :: ls) = l ++ '\n' :: unlines ls := by
  simp [unlines]

theorem exists_unlines (s : List Char) : ∃ ls last, s = unlines ls ++ last ∧
    (∀ l ∈ ls, '\n' ∉ l) ∧ '\n' ∉ last := by
  induction s with
  | nil => exact ⟨[], [], rfl, by simp, List.not_mem_nil⟩
  | cons c s ih =>
    obtain ⟨ls, last, rfl, hls, hlast⟩ := ih
    by_cases hc : c = '\n'
    · subst hc
      exact ⟨[] :: ls, last, rfl, List.forall_mem_cons.2 ⟨List.not_mem_nil, hls⟩, hlast⟩
    · cases ls with
      | nil =>
        refine ⟨[], c :: last, rfl, hls, ?_⟩
        rw [List.mem_cons, not_or]
        exact ⟨fun h => hc h.symm, hlast⟩
      | cons l ls =>
        rw [List.forall_mem_cons] at hls
        refine ⟨(c :: l) :: ls, last, rfl, List.forall_mem_cons.2 ⟨?_, hls.2⟩, hlast⟩
        rw [List.mem_cons, not_or]
        exact ⟨fun h => hc h.symm, hls.1⟩

theorem unlines_eq_intercalate {ls : List (List Char)} (h : ls ≠ []) :
    unlines ls = ['\n'].intercalate ls ++ ['\n'] := by
  induction ls with
  | nil => exact absurd rfl h
  | cons l ls ih =>
    cases ls with
    | nil => simp [unlines]
    | cons l' ls =>
      rw [unlines_cons, ih (List.cons_ne_nil _ _), List.intercalate_cons_cons]
      simp

theorem not_mem_of_mem_splitOn {s l : List Char} (h : l ∈ s.splitOn '\n') : '\n' ∉ l := by
  induction s generalizing l with
  | nil =>
    rw [List.splitOn_nil, List.mem_singleton] at h
    simp [h]
  | cons c s ih =>
    rw [List.splitOn_cons_eq_if_modifyHead] at h
    split at h
    · rcases List.mem_cons.mp h with rfl | h'
      · simp
      · exact ih h'
    · rename_i hc
      cases hsplit : s.splitOn '\n' with
      | nil => exact absurd hsplit (List.splitOn_ne_nil _ _)
      | cons first rest =>
        rw [hsplit, List.modifyHead_cons] at h
        rcases List.mem_cons.mp h with rfl | h'
        · intro hmem
          rcases List.mem_cons.mp hmem with heq | hmem'
          · exact hc (by simp [← heq])
          · exact ih (hsplit ▸ List.mem_cons_self) hmem'
        · exact ih (hsplit ▸ List.mem_cons_of_mem _ h')

theorem mem_of_mem_chompReturn {l : List Char} {c : Char} (h : c ∈ chompReturn l) : c ∈ l := by
  unfold chompReturn at h
  split at h
  · exact List.dropLast_subset l h
  · exact h

theorem not_mem_of_mem_strLines {s l : List Char} (h : l ∈ strLines s) : '\n' ∉ l := by
  unfold strLines at h
  rcases List.mem_append.mp h with hinit | hlast
  · obtain ⟨l', hl', rfl⟩ := List.mem_map.mp hinit
    exact fun hc => not_mem_of_mem_splitOn (List.dropLast_subset _ hl') (mem_of_mem_chompReturn hc)
  · split at hlast
    · cases hlast
    · rw [List.mem_singleton] at hlast
      subst hlast
      cases hsplit : (s.splitOn '\n').getLast? with
      | none => simp
      | some last => exact not_mem_of_mem_splitOn (List.mem_of_getLast? hsplit)

example : strLines "a\r\nb\n".toList = ["a".toList, "b".toList] := by decide +kernel

theorem strLines_append_cons {l : List Char} (h : '\n' ∉ l) (s : List Char) :
    strLines (l ++ '\n' :: s) = chompReturn l :: strLines s := by
  have hne := List.splitOn_ne_nil '\n' s
  simp only [strLines, List.splitOn_append_cons_self_of_not_mem h, List.dropLast_cons_of_ne_nil hne,
    List.map_cons, List.cons_append, List.getLast?_cons]
  cases hlast : (s.splitOn '\n').getLast? with
  | none => exact absurd (List.getLast?_eq_none_iff.mp hlast) hne
  | some last => rfl

theorem strLines_unlines_append {ls : List (List Char)} (h : ∀ l ∈ ls, '\n' ∉ l) (s : List Char) :
    strLines (unlines ls ++ s) = ls.map chompReturn ++ strLines s := by
  induction ls with
  | nil => rfl
  | cons l ls ih =>
    rw [unlines_cons, List.append_assoc, List.cons_append,
      strLines_append_cons (h l List.mem_cons_self),
      ih fun l' hl' => h l' (List.mem_cons_of_mem _ hl')]
    rfl

/-- **lines, each with a break after it, are those lines again** -/
theorem strLines_unlines {ls : List (List Char)} (h : ∀ l ∈ ls, '\n' ∉ l) :
    strLines (unlines ls) = ls.map chompReturn := by
  have := strLines_unlines_append h []
  rw [List.append_nil] at this
  rw [this]
  exact List.append_nil _

/-! ## blank lines at the ends -/

theorem trimStartMatches_intercalate {ls : List (List Char)} (h : ∀ l ∈ ls, '\n' ∉ l) :
    trimStartMatches (· == '\n') (['\n'].intercalate ls) =
      ['\n'].intercalate (trimStartMatches List.isEmpty ls) := by
  induction ls with
  | nil => rfl
  | cons l ls ih =>
    cases l with
    | nil =>
      cases ls with
      | nil => rfl
      | cons l' ls =>
        rw [List.intercalate_cons_cons]
        exact ih fun l hl => h l (List.mem_cons_of_mem _ hl)
    | cons c l =>
      have hc : (c == '\n') = false := by
        refine beq_eq_false_iff_ne.mpr fun heq => h (c :: l) List.mem_cons_self ?_
        simp [heq]
      have hsame : trimStartMatches List.isEmpty ((c :: l) :: ls) = (c :: l) :: ls := rfl
      rw [hsame]
      cases ls with
      | nil =>
        rw [List.intercalate_singleton]
        exact List.dropWhile_cons_of_neg (by simp [hc])
      | cons l' ls =>
        rw [List.intercalate_cons_cons]
        exact List.dropWhile_cons_of_neg (by simp [hc])

theorem intercalate_concat {ls : List (List Char)} (h : ls ≠ []) (l : List Char) :
    ['\n'].intercalate (ls ++ [l]) = ['\n'].intercalate ls ++ '\n' :: l := by
  induction ls with
  | nil => exact absurd rfl h
  | cons l' ls ih =>
    cases ls with
    | nil => simp [List.intercalate_cons_cons]
    | cons l'' ls =>
      have := ih (List.cons_ne_nil _ _)
      rw [List.cons_append] at this
      rw [List.cons_append, List.cons_append, List.intercalate_cons_cons, this,
        List.intercalate_cons_cons]
      simp

theorem reverse_intercalate (ls : List (List Char)) :
    (['\n'].intercalate ls).reverse = ['\n'].intercalate (ls.map List.reverse).reverse := by
  induction ls with
  | nil => rfl
  | cons l ls ih =>
    cases ls with
    | nil => simp
    | cons l' ls =>
      have hne : ((l' :: ls).map List.reverse).reverse ≠ [] := by simp
      rw [List.intercalate_cons_cons, List.map_cons, List.reverse_cons, intercalate_concat hne, ← ih]
      simp

/-- **the breaks at the ends of joined lines are the blank lines there** -/
theorem trimMatches_intercalate {ls : List (List Char)} (h : ∀ l ∈ ls, '\n' ∉ l) :
    trimMatches (· == '\n') (['\n'].intercalate ls) =
      ['\n'].intercalate (trimMatches List.isEmpty ls) := by
  have hreverse (ls : List (List Char)) (h : ∀ l ∈ ls, '\n' ∉ l) :
      trimEndMatches (· == '\n') (['\n'].intercalate ls) =
        ['\n'].intercalate (trimEndMatches List.isEmpty ls) := by
    have hmem : ∀ l ∈ (ls.map List.reverse).reverse, '\n' ∉ l := by
      intro l hl
      obtain ⟨l', hl', rfl⟩ := List.mem_map.mp (List.mem_reverse.mp hl)
      simpa using h l' hl'
    have hstart := trimStartMatches_intercalate hmem
    unfold trimStartMatches at hstart
    unfold trimEndMatches
    have hempty : List.isEmpty ∘ List.reverse = (List.isEmpty : List Char → Bool) := by
      funext l
      simp [Function.comp]
    have hid : List.reverse ∘ List.reverse = (id : List Char → List Char) := by
      funext l
      simp
    rw [reverse_intercalate, hstart, reverse_intercalate, ← List.map_reverse (l := ls),
      List.dropWhile_map, hempty, List.map_map, hid, List.map_id]
  unfold trimMatches
  rw [trimStartMatches_intercalate h]
  exact hreverse _ fun l hl => h l ((List.dropWhile_sublist _).subset hl)

end Voisu.Lib
