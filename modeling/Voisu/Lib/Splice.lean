import Voisu.Lib.Offsets

/-!
# Splicing replacements into a text

A replacement names a half-open byte range of a text and the text that takes its place.

* `Spliced off rs s t`   `t` is `s` (the text from offset `off` on) with the replacements `rs`
                         made from left to right: the gaps are kept, in order, and each
                         replacement stands in the place of its own range;
* `applyAll rs s`        the replacements made one after the other, IN PLACE, at offsets of the
                         text as the earlier ones have left it; `none` when one of them falls
                         off the boundaries.

`applyAll_reverse` is the law that in-place loops rely on: made from right to left, the
replacements of a chain of ranges give the splice.
-/

namespace Voisu.Lib

structure Repl (α : Type) where
  start : Nat
  stop : Nat
  text : List α
deriving DecidableEq, Repr

section
variable {α : Type} [ByteSized α]

inductive Spliced : Nat → List (Repl α) → List α → List α → Prop
  | nil (off : Nat) (s : List α) : Spliced off [] s s
  | cons {off : Nat} {r : Repl α} {rs : List (Repl α)} {g m s t : List α}
      (hg : off + byteLen g = r.start) (hm : r.start + byteLen m = r.stop)
      (h : Spliced r.stop rs s t) : Spliced off (r :: rs) (g ++ m ++ s) (g ++ r.text ++ t)

theorem Spliced.unique {off : Nat} {rs : List (Repl α)} {s t u : List α}
    (ht : Spliced off rs s t) (hu : Spliced off rs s u) : t = u := by
  induction ht generalizing u with
  | nil off s =>
    cases hu with
    | nil => rfl
  | @cons off r rs g m s t hg hm h ih =>
    generalize hs : g ++ m ++ s = s' at hu
    cases hu with
    | @cons _ _ _ g' m' s'' t' hg' hm' h' =>
      rw [List.append_assoc, List.append_assoc] at hs
      obtain ⟨rfl, h2⟩ := append_inj_byteLen hs (by omega)
      obtain ⟨rfl, rfl⟩ := append_inj_byteLen h2 (by omega)
      rw [ih h']

/-- a splice whose first range lies past a prefix keeps the prefix -/
theorem Spliced.prepend {off : Nat} {rs : List (Repl α)} {s t : List α} (p : List α)
    (h : Spliced (off + byteLen p) rs s t) : Spliced off rs (p ++ s) (p ++ t) := by
  cases h with
  | nil => exact Spliced.nil _ _
  | @cons _ r rs g m s t hg hm h =>
    have hpg : off + byteLen (p ++ g) = r.start := by rw [byteLen_append]; omega
    have hs : Spliced off (r :: rs) (p ++ g ++ m ++ s) (p ++ g ++ r.text ++ t) :=
      Spliced.cons hpg hm h
    simpa [List.append_assoc] using hs

/-- the ranges follow one another, none before the offset `off` -/
def Chain : Nat → List (Repl α) → Prop
  | _, [] => True
  | off, r :: rs => off ≤ r.start ∧ r.start ≤ r.stop ∧ Chain r.stop rs

theorem Chain.le_start {off : Nat} {rs : List (Repl α)} (h : Chain off rs) :
    ∀ r ∈ rs, off ≤ r.start := by
  induction rs generalizing off with
  | nil => intro r hr; exact absurd hr (by simp)
  | cons a rs ih =>
    intro r hr
    obtain ⟨h1, h2, h3⟩ := h
    rcases List.mem_cons.mp hr with rfl | hr
    · exact h1
    · have := ih h3 r hr
      omega

theorem Spliced.chain {off : Nat} {rs : List (Repl α)} {s t : List α}
    (h : Spliced off rs s t) : Chain off rs := by
  induction h with
  | nil => exact trivial
  | cons hg hm h ih => exact ⟨by omega, by omega, ih⟩

/-- the ranges of a splice lie on the boundaries of the text -/
theorem Spliced.boundary {off : Nat} {rs : List (Repl α)} {s t : List α} (h : Spliced off rs s t)
    (p : List α) (hp : byteLen p = off) : ∀ r ∈ rs,
      isBoundary r.start (p ++ s) = true ∧ isBoundary r.stop (p ++ s) = true := by
  induction h generalizing p with
  | nil => intro r hr; exact absurd hr (by simp)
  | @cons off r rs g m s t hg hm h ih =>
    intro r' hr'
    rcases List.mem_cons.mp hr' with rfl | hr'
    · exact ⟨isBoundary_iff.mpr ⟨p ++ g, m ++ s, by simp, by rw [byteLen_append]; omega⟩,
        isBoundary_iff.mpr ⟨p ++ g ++ m, s, by simp, by simp only [byteLen_append]; omega⟩⟩
    · have := ih (p ++ g ++ m) (by simp only [byteLen_append]; omega) r' hr'
      simpa [List.append_assoc] using this

/-- **a chain of ranges on the boundaries of the text has a splice** -/
theorem Spliced.exists {rs : List (Repl α)} (p s : List α) (hc : Chain (byteLen p) rs)
    (hb : ∀ r ∈ rs, isBoundary r.start (p ++ s) = true ∧ isBoundary r.stop (p ++ s) = true) :
    ∃ t, Spliced (byteLen p) rs s t := by
  induction rs generalizing p s with
  | nil => exact ⟨s, Spliced.nil _ _⟩
  | cons r rs ih =>
    obtain ⟨h1, h2, h3⟩ := hc
    obtain ⟨hbs, hbe⟩ := hb r List.mem_cons_self
    obtain ⟨a, b, hab, ha⟩ := isBoundary_iff.mp hbs
    obtain ⟨g, rfl, hs⟩ := prefix_of_byteLen_le hab (by omega)
    obtain ⟨c, d, hcd, hc'⟩ := isBoundary_iff.mp hbe
    rw [hab] at hcd
    obtain ⟨m, rfl, rfl⟩ := prefix_of_byteLen_le hcd (by omega)
    subst hs
    simp only [byteLen_append] at ha hc'
    have hc3 : Chain (byteLen (p ++ (g ++ m))) rs := by
      rw [byteLen_append, byteLen_append, show byteLen p + (byteLen g + byteLen m) = r.stop by omega]
      exact h3
    obtain ⟨t, ht⟩ := ih (p ++ (g ++ m)) d hc3 (fun r' hr' => by
      have := hb r' (List.mem_cons_of_mem _ hr')
      simpa [List.append_assoc] using this)
    rw [byteLen_append, byteLen_append,
      show byteLen p + (byteLen g + byteLen m) = r.stop by omega] at ht
    have hs : Spliced (byteLen p) (r :: rs) (g ++ m ++ d) (g ++ r.text ++ t) :=
      Spliced.cons (by omega) (by omega) ht
    exact ⟨g ++ r.text ++ t, by simpa [List.append_assoc] using hs⟩

/-! ## taking a splice apart -/

theorem Spliced.insertions {o : Nat} {Z rs : List (Repl α)}
    (hZ : ∀ z ∈ Z, z.start = o ∧ z.stop = o) {s u : List α} (h : Spliced o (Z ++ rs) s u) :
    ∃ u', u = (Z.map Repl.text).flatten ++ u' ∧ Spliced o rs s u' := by
  induction Z generalizing u with
  | nil => exact ⟨u, rfl, h⟩
  | cons z Z ih =>
    obtain ⟨h1, h2⟩ := hZ z List.mem_cons_self
    rw [List.cons_append] at h
    cases h with
    | @cons _ _ _ g m s' t hg hm h =>
      have hg0 : g = [] := byteLen_eq_zero.mp (by omega)
      have hm0 : m = [] := byteLen_eq_zero.mp (by omega)
      subst hg0 hm0
      rw [h2] at h
      obtain ⟨u', rfl, hu'⟩ := ih (fun y hy => hZ y (List.mem_cons_of_mem _ hy)) h
      exact ⟨u', by simp, hu'⟩

theorem Spliced.replacement {o : Nat} {x : Repl α} {rs : List (Repl α)} (hx : x.start = o)
    {s u : List α} (h : Spliced o (x :: rs) s u) :
    ∃ m s' u', s = m ++ s' ∧ u = x.text ++ u' ∧ o + byteLen m = x.stop ∧
      Spliced x.stop rs s' u' := by
  cases h with
  | @cons _ _ _ g m s' t hg hm h =>
    have hg0 : g = [] := byteLen_eq_zero.mp (by omega)
    subst hg0
    exact ⟨m, s', t, by simp, by simp, by omega, h⟩

/-- the text before the first start is kept by the splice -/
theorem Spliced.gap {off : Nat} {r : Repl α} {rs : List (Repl α)} {s u : List α}
    (h : Spliced off (r :: rs) s u) : ∃ g s' u', s = g ++ s' ∧ u = g ++ u' ∧
      off + byteLen g = r.start ∧ Spliced r.start (r :: rs) s' u' := by
  cases h with
  | @cons _ _ _ g m s' t hg hm h =>
    refine ⟨g, m ++ s', r.text ++ t, by simp, by simp, hg, ?_⟩
    have := @Spliced.cons _ _ r.start r rs [] m s' t (by simp) hm h
    simpa using this

/-! ## replacements made in place -/

def applyAll (rs : List (Repl α)) (s : List α) : Option (List α) :=
  rs.foldlM (fun s r => replaceRange r.start r.stop r.text s) s

theorem applyAll_append (as bs : List (Repl α)) (s : List α) :
    applyAll (as ++ bs) s = (applyAll as s).bind (applyAll bs) := by
  unfold applyAll
  rw [List.foldlM_append]
  rfl

theorem applyAll_singleton (r : Repl α) (s : List α) :
    applyAll [r] s = replaceRange r.start r.stop r.text s := by
  simp [applyAll]

example : applyAll [⟨2, 3, ['x']⟩, ⟨0, 1, ['y', 'z']⟩] ['a', 'b', 'c'] = some ['y', 'z', 'b', 'x'] := by
  decide +kernel

/-- **made from right to left, the replacements of a splice give the splice** -/
theorem applyAll_reverse {off : Nat} {rs : List (Repl α)} {s t : List α}
    (h : Spliced off rs s t) (p : List α) (hp : byteLen p = off) :
    applyAll rs.reverse (p ++ s) = some (p ++ t) := by
  induction h generalizing p with
  | nil off s => rfl
  | @cons off r rs g m s t hg hm h ih =>
    rw [List.reverse_cons, applyAll_append]
    have h1 := ih (p ++ g ++ m) (by simp only [byteLen_append]; omega)
    have e : p ++ (g ++ m ++ s) = p ++ g ++ m ++ s := by simp
    rw [e, h1, Option.bind_some, applyAll_singleton]
    refine replaceRange_eq_some.mpr ⟨p ++ g, m, t, rfl, ?_, ?_, by simp⟩
    · rw [byteLen_append]; omega
    · rw [byteLen_append]; omega

end

end Voisu.Lib
