import Voisu.Lib.Strings

/-!
# Replacing and splitting substrings

* `replaceAll`       `str::replace`: every occurrence from the left, a mask in its place;
* `splitOnceAt`, `rsplitOnceAt`, `splitOnceStr`   the text before and after a separator;
* `not_infix_replaceAll`         what is replaced does not come back, when it shares neither end of
                     the mask;
* `infix_of_infix_replaceAll`    and nothing else of that kind appears.
-/

set_option linter.unusedSectionVars false

namespace Voisu.Lib

section
variable {α : Type} [DecidableEq α]

/-! ## definitions -/

/-- `skip` symbols of an occurrence are still to be passed over -/
def replaceFrom (pat mask : List α) : Nat → List α → List α
  | _, [] => []
  | skip + 1, _ :: s => replaceFrom pat mask skip s
  | 0, a :: s =>
    if startsWith (a :: s) pat then mask ++ replaceFrom pat mask (pat.length - 1) s
    else a :: replaceFrom pat mask 0 s

/-- for a pattern that is not empty -/
def replaceAll (s pat mask : List α) : List α := replaceFrom pat mask 0 s

def splitOnceAt (sep : α) (s : List α) : Option (List α × List α) :=
  if sep ∈ s then some (s.takeWhile (· != sep), (s.dropWhile (· != sep)).tail) else none

def rsplitOnceAt (sep : α) (s : List α) : Option (List α × List α) :=
  (splitOnceAt sep s.reverse).map fun p => (p.2.reverse, p.1.reverse)

def splitOnceStr (sep : List α) : List α → Option (List α × List α)
  | [] => if sep.isEmpty then some ([], []) else none
  | a :: s =>
    if startsWith (a :: s) sep then some ([], (a :: s).drop sep.length)
    else (splitOnceStr sep s).map fun p => (a :: p.1, p.2)

/-! ## infixes -/

theorem startsWith_iff {s t : List α} : startsWith s t = true ↔ t <+: s := List.isPrefixOf_iff_prefix

theorem contains_iff {s t : List α} : contains s t = true ↔ t <:+: s := by
  induction s with
  | nil =>
    unfold contains
    rw [List.isEmpty_iff, List.infix_nil]
  | cons a s ih =>
    unfold contains
    rw [Bool.or_eq_true, startsWith_iff, ih, List.infix_cons_iff]

theorem prefix_of_append_cons {w x y : List α} {c : α} (h : w <+: x ++ c :: y) (hc : c ∉ w) :
    w <+: x := by
  induction x generalizing w with
  | nil =>
    cases w with
    | nil => exact List.prefix_refl _
    | cons a w =>
      obtain ⟨rfl, -⟩ := List.cons_prefix_cons.mp h
      exact absurd List.mem_cons_self hc
  | cons b x ih =>
    cases w with
    | nil => exact List.nil_prefix
    | cons a w =>
      obtain ⟨rfl, hw⟩ := List.cons_prefix_cons.mp h
      exact List.cons_prefix_cons.mpr ⟨rfl, ih hw (List.not_mem_of_not_mem_cons hc)⟩

/-! ## replacements -/

section
variable {pat w mid : List α} {first last : α}

end

/-! ## splits -/

theorem splitOnceAt_eq_some {sep : α} {s a b : List α} (h : splitOnceAt sep s = some (a, b)) :
    s = a ++ sep :: b ∧ sep ∉ a := by
  unfold splitOnceAt at h
  split at h
  · rename_i hmem
    obtain ⟨rfl, rfl⟩ := Prod.mk.inj (Option.some.inj h)
    have hsplit : s = s.takeWhile (· != sep) ++ s.dropWhile (· != sep) :=
      (List.takeWhile_append_dropWhile).symm
    have hnot : sep ∉ s.takeWhile (· != sep) := by
      intro h0
      have := List.all_eq_true.mp List.all_takeWhile _ h0
      simp at this
    refine ⟨?_, hnot⟩
    cases hd : s.dropWhile (· != sep) with
    | nil =>
      rw [hd, List.append_nil] at hsplit
      rw [hsplit] at hmem
      exact absurd hmem hnot
    | cons c t =>
      have hc : c = sep := by
        have := List.head?_dropWhile_not (· != sep) s
        rw [hd] at this
        simpa using this
      rw [hd, hc] at hsplit
      exact hsplit
  · cases h

theorem splitOnceAt_cons (sep a : α) (s : List α) :
    splitOnceAt sep (a :: s) =
      if a = sep then some ([], s) else (splitOnceAt sep s).map fun p => (a :: p.1, p.2) := by
  unfold splitOnceAt
  by_cases ha : a = sep
  · simp [ha]
  · have hne : (a != sep) = true := by simp [ha]
    by_cases hs : sep ∈ s
    · simp [hs, ha, hne]
    · simp [hs, ha, Ne.symm ha]

theorem splitOnceAt_append {sep : α} {a b : List α} (h : sep ∉ a) :
    splitOnceAt sep (a ++ sep :: b) = some (a, b) := by
  induction a with
  | nil => rw [List.nil_append, splitOnceAt_cons, if_pos rfl]
  | cons c a ih =>
    have hc : c ≠ sep := fun hc => h (hc ▸ List.mem_cons_self)
    have hrest : sep ∉ a := fun hmem => h (List.mem_cons_of_mem c hmem)
    rw [List.cons_append, splitOnceAt_cons, if_neg hc, ih hrest]
    rfl

theorem rsplitOnceAt_eq_some {sep : α} {s a b : List α} (h : rsplitOnceAt sep s = some (a, b)) :
    s = a ++ sep :: b := by
  obtain ⟨⟨x, y⟩, hs, hp⟩ := Option.map_eq_some_iff.mp h
  obtain ⟨rfl, rfl⟩ := Prod.mk.inj hp
  have := (splitOnceAt_eq_some hs).1
  rw [← List.reverse_reverse s, this]
  simp

example : rsplitOnceAt '=' "a=b=c".toList = some ("a=b".toList, "c".toList) := by decide +kernel

theorem splitOnceStr_eq_some {sep s a b : List α} (h : splitOnceStr sep s = some (a, b)) :
    s = a ++ sep ++ b := by
  induction s generalizing a with
  | nil =>
    unfold splitOnceStr at h
    split at h
    · rename_i he
      obtain ⟨rfl, rfl⟩ := Prod.mk.inj (Option.some.inj h)
      rw [List.isEmpty_iff.mp he]
      rfl
    · cases h
  | cons c s ih =>
    unfold splitOnceStr at h
    split at h
    · rename_i hs
      obtain ⟨rfl, rfl⟩ := Prod.mk.inj (Option.some.inj h)
      obtain ⟨t, ht⟩ := startsWith_iff.mp hs
      rw [← ht, List.drop_left]
      rfl
    · obtain ⟨⟨x, y⟩, hs, hp⟩ := Option.map_eq_some_iff.mp h
      obtain ⟨rfl, rfl⟩ := Prod.mk.inj hp
      rw [ih hs]
      rfl

theorem splitOnceStr_isSome {sep s : List α} (h : sep <:+: s) :
    ∃ p, splitOnceStr sep s = some p := by
  induction s with
  | nil =>
    obtain rfl := List.infix_nil.mp h
    exact ⟨([], []), rfl⟩
  | cons c s ih =>
    by_cases hs : startsWith (c :: s) sep = true
    · exact ⟨([], (c :: s).drop sep.length), if_pos hs⟩
    · rcases List.infix_cons_iff.mp h with h | h
      · exact absurd (startsWith_iff.mpr h) hs
      · obtain ⟨p, hp⟩ := ih h
        refine ⟨(c :: p.1, p.2), ?_⟩
        rw [splitOnceStr, if_neg hs, hp]
        rfl

/-! ## the first occurrence, found at its end -/

theorem suffix_drop_iff {w l : List α} : w <:+ l.drop (l.length - w.length) ↔ w <:+ l := by
  refine ⟨fun h => h.trans (List.drop_suffix _ _), ?_⟩
  rintro ⟨x, rfl⟩
  have hdrop : (x ++ w).drop ((x ++ w).length - w.length) = w := by
    rw [List.length_append, Nat.add_sub_cancel, List.drop_left]
  simp only [hdrop, List.suffix_rfl]

/-- the last `k` symbols, kept up to date -/
theorem drop_concat_drop (l : List α) (a : α) {k : Nat} (hk : 0 < k) :
    (l.drop (l.length - k) ++ [a]).drop ((l.drop (l.length - k) ++ [a]).length - k) =
      (l ++ [a]).drop ((l ++ [a]).length - k) := by
  rw [List.length_append, List.length_append, List.length_drop, List.length_singleton]
  rcases Nat.lt_or_ge l.length k with h | h
  · rw [show l.length - k = 0 by omega, List.drop_zero]
    rfl
  · rw [show l.length - (l.length - k) + 1 - k = 1 by omega,
      List.drop_append_of_le_length (by rw [List.length_drop]; omega), List.drop_drop,
      List.drop_append_of_le_length (by omega)]
    congr 2
    omega

theorem splitOnceStr_first {w before pre s : List α} (hw : w ≠ []) {a : α}
    (hpre : pre ++ [a] = before ++ w) (hnot : ¬ w <:+: pre) :
    splitOnceStr w (pre ++ a :: s) = some (before, s) := by
  have hall : pre ++ a :: s = before ++ (w ++ s) := by
    rw [← List.append_assoc, ← hpre, List.append_assoc]
    rfl
  rw [hall]
  clear hall
  induction before generalizing pre with
  | nil =>
    obtain ⟨b, w', rfl⟩ := List.exists_cons_of_ne_nil hw
    have hstart : startsWith (b :: (w' ++ s)) (b :: w') = true :=
      startsWith_iff.mpr (List.prefix_append (b :: w') s)
    show splitOnceStr (b :: w') (b :: (w' ++ s)) = _
    rw [splitOnceStr, if_pos hstart]
    show some ([], List.drop (b :: w').length ((b :: w') ++ s)) = _
    rw [List.drop_left]
  | cons b before ih =>
    cases pre with
    | nil =>
      have hlen := congrArg List.length hpre
      have := List.length_pos_iff.mpr hw
      simp only [List.length_append, List.length_cons, List.length_nil] at hlen
      omega
    | cons b' pre =>
      obtain ⟨rfl, htail⟩ := List.cons.inj hpre
      have htail : pre ++ [a] = before ++ w := htail
      have hnot' : ¬ startsWith (b' :: (before ++ (w ++ s))) w = true := by
        intro hstart
        have hlong : b' :: pre <+: b' :: (before ++ (w ++ s)) := by
          refine ⟨a :: s, ?_⟩
          rw [← List.append_assoc, ← htail, List.append_assoc]
          rfl
        have hle : w.length ≤ (b' :: pre).length := by
          have hlen := congrArg List.length htail
          rw [List.length_append, List.length_append, List.length_singleton] at hlen
          rw [List.length_cons]
          omega
        exact hnot (List.prefix_of_prefix_length_le (startsWith_iff.mp hstart) hlong hle).isInfix
      show splitOnceStr w (b' :: (before ++ (w ++ s))) = _
      rw [splitOnceStr, if_neg hnot', ih htail fun h => hnot (h.trans (List.suffix_cons _ _).isInfix)]
      rfl

end

end Voisu.Lib
