import Mathlib
import Voisu.Decision.Selection
import Voisu.Lib.Levenshtein

/-!
# The phonetic matching

The hash sets come in any order, and the sort leaves pairs of one key in any order: `Arranged` is
every list of candidates that the source may walk through.

* `editDistance_eq`      the two-row distance is the edit distance;
* `takeMatching_split`   pairs of equal words are all taken first, and block whatever shares a word
  with them;
* `takeMatching_arranged`   **every arrangement gives one matching**;
* `phoneticMatching_flip`   **and the other way round its flip**.
-/

namespace Voisu.Decision
open Lib

/-! ## the distance -/

section
variable {α : Type} [DecidableEq α]

theorem editCells_eq (a : α) (x y right : List α) :
    editCells a (levenshtein (a :: x) y) (distanceRow x y right) right =
      (distanceRow (a :: x) y right).tail := by
  induction right generalizing y with
  | nil => rfl
  | cons b right ih =>
    have hcell : (if a = b then levenshtein x y else
        1 + min (min (levenshtein x y) (levenshtein (a :: x) y)) (levenshtein x (b :: y))) =
          levenshtein (a :: x) (b :: y) := by
      split
      · rename_i hab
        rw [hab, levenshtein_cons_self]
      · rename_i hab
        rw [levenshtein_cons_cons hab]
    have hrow := distanceRow_eq x (b :: y) right
    rw [distanceRow, distanceRow, hrow, editCells, hcell, ← hrow, ih, List.tail_cons,
      ← distanceRow_eq]

theorem editRows_eq (x left right : List α) :
    editRows right x.length (distanceRow x [] right) left =
      distanceRow (left.reverse ++ x) [] right := by
  induction left generalizing x with
  | nil => rfl
  | cons a left ih =>
    have hrow : editRow a (x.length + 1) (distanceRow x [] right) right =
        distanceRow (a :: x) [] right := by
      have hfirst : levenshtein (a :: x) [] = x.length + 1 := levenshtein_nil (a :: x)
      rw [editRow, ← hfirst, editCells_eq, ← distanceRow_eq]
    have hrest := ih (a :: x)
    rw [List.length_cons] at hrest
    rw [editRows, hrow, hrest, List.reverse_cons, List.append_assoc]
    rfl

/-- **the two-row table computes the edit distance** -/
theorem editDistance_eq (left right : List α) :
    editDistance left right = levenshtein left right := by
  have hfirst : List.range (right.length + 1) = distanceRow ([] : List α) [] right := by
    rw [distanceRow_nil]
    simp
  have hrows := editRows_eq [] left right
  rw [List.length_nil] at hrows
  rw [editDistance, hfirst, hrows, distanceRow_getLastD, List.append_nil, List.append_nil,
    levenshtein_reverse]

/-- the distance of the standard recursion, and with it a metric that stays within the longer list -/
structure EditMetric (d : List α → List α → Nat) : Prop where
  recursion : ∀ left right, d left right = levenshtein left right
  symm : ∀ left right, d left right = d right left
  zero : ∀ left right, d left right = 0 ↔ left = right
  bound : ∀ left right, d left right ≤ max left.length right.length
  triangle : ∀ left middle right, d left right ≤ d left middle + d middle right

theorem editDistance_metric : EditMetric (@editDistance α _) where
  recursion := editDistance_eq
  symm left right := by
    rw [editDistance_eq, editDistance_eq, levenshtein_comm]
  zero left right := by
    rw [editDistance_eq, levenshtein_eq_zero]
  bound left right := by
    rw [editDistance_eq]
    exact levenshtein_le_max left right
  triangle left middle right := by
    rw [editDistance_eq, editDistance_eq, editDistance_eq]
    exact levenshtein_triangle left middle right

end

/-- **both distances of the selector are the edit distance** -/
theorem editDistances : EditMetric wordEditDistance ∧ EditMetric charEditDistance :=
  ⟨editDistance_metric, editDistance_metric⟩

theorem charEditDistance_comm (left right : Text) :
    charEditDistance left right = charEditDistance right left := by
  rw [charEditDistance, charEditDistance, editDistance_eq, editDistance_eq, levenshtein_comm]

theorem charEditDistance_eq_zero {left right : Text} :
    charEditDistance left right = 0 ↔ left = right := by
  rw [charEditDistance, editDistance_eq, levenshtein_eq_zero]

theorem wordsSoundAlike_comm (left right : Text) :
    wordsSoundAlike left right = wordsSoundAlike right left := by
  unfold wordsSoundAlike
  simp only
  rw [max_comm, charEditDistance_comm left right, BEq.comm (a := left)]

/-- a word sounds like itself, the empty one like none -/
theorem wordsSoundAlike_self {word : Text} : wordsSoundAlike word word = true ↔ word ≠ [] := by
  have hzero : charEditDistance word word = 0 := charEditDistance_eq_zero.mpr rfl
  unfold wordsSoundAlike
  simp only [max_self, hzero]
  cases word with
  | nil => simp
  | cons c word => simp

theorem wordsSoundAlike_ne_nil {left right : Text} (h : wordsSoundAlike left right = true) :
    left ≠ [] ∧ right ≠ [] := by
  have hleft : ∀ {a b : Text}, wordsSoundAlike a b = true → a ≠ [] := by
    rintro _ b h rfl
    unfold wordsSoundAlike at h
    rw [charEditDistance, editDistance_eq, nil_levenshtein] at h
    simp only [List.length_nil, Nat.zero_max] at h
    split at h
    · cases h
    · split at h
      · rename_i hb _
        rw [beq_iff_eq] at h
        exact hb (by rw [← h]; rfl)
      · rw [decide_eq_true_eq] at h
        omega
  exact ⟨hleft h, hleft (by rwa [wordsSoundAlike_comm])⟩

/-! ## the order of the candidates -/

namespace PhoneticPair

theorem low_high (p : PhoneticPair) :
    p.low = p.left ∧ p.high = p.right ∨ p.low = p.right ∧ p.high = p.left := by
  unfold low high
  split
  · exact Or.inl ⟨rfl, rfl⟩
  · exact Or.inr ⟨rfl, rfl⟩

def flip (p : PhoneticPair) : PhoneticPair := ⟨p.distance, p.right, p.left⟩

theorem flip_key (p : PhoneticPair) : p.flip.low = p.low ∧ p.flip.high = p.high := by
  unfold flip low high
  simp only
  split
  · split
    · rename_i h h'
      rw [textLe_antisymm h h']
      exact ⟨rfl, rfl⟩
    · exact ⟨rfl, rfl⟩
  · split
    · exact ⟨rfl, rfl⟩
    · rename_i h h'
      rcases textLe_total p.left p.right with h0 | h0
      · exact absurd h0 h'
      · exact absurd h0 h

theorem le_iff {a b : PhoneticPair} : le a b = true ↔
    a.distance < b.distance ∨ a.distance = b.distance ∧
      (a.low = b.low ∧ textLe a.high b.high = true ∨
        a.low ≠ b.low ∧ textLe a.low b.low = true) := by
  unfold le
  rw [Bool.or_eq_true, Bool.and_eq_true, decide_eq_true_eq, beq_iff_eq]
  by_cases h : a.low = b.low
  · simp [h]
  · simp [h]

theorem le_total (a b : PhoneticPair) : le a b = true ∨ le b a = true := by
  rw [le_iff, le_iff]
  rcases Nat.lt_trichotomy a.distance b.distance with h | h | h
  · exact Or.inl (Or.inl h)
  · by_cases hlow : a.low = b.low
    · exact (textLe_total a.high b.high).imp (fun h' => Or.inr ⟨h, Or.inl ⟨hlow, h'⟩⟩)
        fun h' => Or.inr ⟨h.symm, Or.inl ⟨hlow.symm, h'⟩⟩
    · exact (textLe_total a.low b.low).imp (fun h' => Or.inr ⟨h, Or.inr ⟨hlow, h'⟩⟩)
        fun h' => Or.inr ⟨h.symm, Or.inr ⟨Ne.symm hlow, h'⟩⟩
  · exact Or.inr (Or.inl h)

theorem le_trans {a b c : PhoneticPair} (h : le a b = true) (h' : le b c = true) :
    le a c = true := by
  rw [le_iff] at *
  rcases h with h | ⟨hd, h⟩
  · exact Or.inl (by omega)
  · rcases h' with h' | ⟨hd', h'⟩
    · exact Or.inl (by omega)
    · refine Or.inr ⟨hd.trans hd', ?_⟩
      rcases h with ⟨hl, h⟩ | ⟨hl, h⟩
      · rcases h' with ⟨hl', h'⟩ | ⟨hl', h'⟩
        · exact Or.inl ⟨hl.trans hl', textLe_trans h h'⟩
        · exact Or.inr ⟨by rwa [hl], by rwa [hl]⟩
      · rcases h' with ⟨hl', h'⟩ | ⟨hl', h'⟩
        · exact Or.inr ⟨by rwa [← hl'], by rwa [← hl']⟩
        · refine Or.inr ⟨?_, textLe_trans h h'⟩
          intro hac
          rw [hac] at h
          exact hl' (textLe_antisymm h' h)

/-- candidates of one key hold the same two words -/
theorem eq_or_flip {a b : PhoneticPair} (h : le a b = true) (h' : le b a = true) :
    a = b ∨ a = b.flip := by
  have hd : a.distance = b.distance := by
    rw [le_iff] at h h'
    omega
  have hkey : a.low = b.low ∧ a.high = b.high := by
    rw [le_iff] at h h'
    have h1 := (h.resolve_left (by omega)).2
    have h2 := (h'.resolve_left (by omega)).2
    rcases h1 with ⟨hl, h1⟩ | ⟨hl, h1⟩
    · rcases h2 with ⟨-, h2⟩ | ⟨hl', -⟩
      · exact ⟨hl, textLe_antisymm h1 h2⟩
      · exact absurd hl.symm hl'
    · rcases h2 with ⟨hl', -⟩ | ⟨-, h2⟩
      · exact absurd hl'.symm hl
      · exact absurd (textLe_antisymm h1 h2) hl
  obtain ⟨da, la, ra⟩ := a
  obtain ⟨db, lb, rb⟩ := b
  obtain rfl := hd
  rcases low_high ⟨da, la, ra⟩ with ⟨h1, h2⟩ | ⟨h1, h2⟩ <;>
    rcases low_high ⟨da, lb, rb⟩ with ⟨h3, h4⟩ | ⟨h3, h4⟩ <;>
    rw [h1, h2, h3, h4] at hkey <;> obtain ⟨rfl, rfl⟩ := hkey
  · exact Or.inl rfl
  · exact Or.inr rfl
  · exact Or.inr rfl
  · exact Or.inl rfl

theorem flip_le (a b : PhoneticPair) : le a.flip b.flip = le a b := by
  rw [Bool.eq_iff_iff, le_iff, le_iff, (flip_key a).1, (flip_key a).2, (flip_key b).1,
    (flip_key b).2]
  rfl

end PhoneticPair

instance : Std.Total fun a b : PhoneticPair => PhoneticPair.le a b = true :=
  ⟨PhoneticPair.le_total⟩

instance : IsTrans PhoneticPair fun a b => PhoneticPair.le a b = true :=
  ⟨fun _ _ _ => PhoneticPair.le_trans⟩

/-! ## the candidates -/

theorem mem_phoneticCandidates {left right : List Text} {p : PhoneticPair} :
    p ∈ phoneticCandidates left right ↔ p.left ∈ left ∧ p.right ∈ right ∧
      wordsSoundAlike p.left p.right = true ∧ p.distance = charEditDistance p.left p.right := by
  unfold phoneticCandidates
  simp only [List.mem_flatMap, List.mem_map, List.mem_filter]
  constructor
  · rintro ⟨a, ha, b, ⟨hb, hab⟩, rfl⟩
    exact ⟨ha, hb, hab, rfl⟩
  · rintro ⟨ha, hb, hab, hd⟩
    exact ⟨p.left, ha, p.right, ⟨hb, hab⟩, by rw [← hd]⟩

theorem phoneticCandidates_nodup {left right : List Text} (hl : left.Nodup) (hr : right.Nodup) :
    (phoneticCandidates left right).Nodup := by
  unfold phoneticCandidates
  rw [List.nodup_flatMap]
  constructor
  · intro a _
    refine (hr.filter _).map ?_
    intro b b' h
    exact (PhoneticPair.mk.inj h).2.2
  · refine hl.imp fun {a a'} hne p hp hp' => ?_
    obtain ⟨b, -, rfl⟩ := List.mem_map.mp hp
    obtain ⟨b', -, h⟩ := List.mem_map.mp hp'
    exact hne (PhoneticPair.mk.inj h).2.1.symm

/-- the candidates in an order that the source may take them in -/
def Arranged (left right : List Text) (candidates : List PhoneticPair) : Prop :=
  candidates.Perm (phoneticCandidates left right) ∧
    candidates.Pairwise fun a b => PhoneticPair.le a b = true

theorem arranged_insertionSort (left right : List Text) :
    Arranged left right
      ((phoneticCandidates left right).insertionSort fun a b => PhoneticPair.le a b = true) :=
  ⟨List.perm_insertionSort _ _, List.pairwise_insertionSort _ _⟩

theorem Arranged.mem {left right : List Text} {l : List PhoneticPair} (h : Arranged left right l)
    {p : PhoneticPair} : p ∈ l ↔ p.left ∈ left ∧ p.right ∈ right ∧
      wordsSoundAlike p.left p.right = true ∧ p.distance = charEditDistance p.left p.right := by
  rw [h.1.mem_iff, mem_phoneticCandidates]

theorem Arranged.nodup {left right : List Text} {l : List PhoneticPair} (h : Arranged left right l)
    (hl : left.Nodup) (hr : right.Nodup) : l.Nodup :=
  h.1.nodup_iff.mpr (phoneticCandidates_nodup hl hr)

/-- the arrangements of the swapped sets are the flipped ones -/
theorem Arranged.flip {left right : List Text} {l : List PhoneticPair} (h : Arranged left right l)
    (hl : left.Nodup) (hr : right.Nodup) : Arranged right left (l.map PhoneticPair.flip) := by
  have hinj : Function.Injective PhoneticPair.flip := by
    intro a b hab
    obtain ⟨h1, h2, h3⟩ := PhoneticPair.mk.inj hab
    cases a
    cases b
    simp only at h1 h2 h3
    rw [h1, h2, h3]
  constructor
  · rw [List.perm_ext_iff_of_nodup ((h.nodup hl hr).map hinj) (phoneticCandidates_nodup hr hl)]
    intro p
    have hflip : p ∈ l.map PhoneticPair.flip ↔ p.flip ∈ l := by
      constructor
      · rintro hp
        obtain ⟨q, hq, rfl⟩ := List.mem_map.mp hp
        exact hq
      · exact fun hp => List.mem_map.mpr ⟨p.flip, hp, rfl⟩
    rw [hflip, h.mem, mem_phoneticCandidates]
    show p.right ∈ left ∧ p.left ∈ right ∧ wordsSoundAlike p.right p.left = true ∧
      p.distance = charEditDistance p.right p.left ↔ _
    rw [wordsSoundAlike_comm, charEditDistance_comm]
    tauto
  · rw [List.pairwise_map]
    exact h.2.imp fun {a b} hab => by rwa [PhoneticPair.flip_le]

/-! ## the greedy walk -/

def PhoneticPair.free (leftUsed rightUsed : List Text) (p : PhoneticPair) : Bool :=
  !leftUsed.contains p.left && !rightUsed.contains p.right

def PhoneticPair.words (p : PhoneticPair) : Text × Text := (p.left, p.right)

theorem takeMatching_cons (U V : List Text) (p : PhoneticPair) (l : List PhoneticPair) :
    takeMatching U V (p :: l) =
      if p.free U V then p.words :: takeMatching (p.left :: U) (p.right :: V) l
      else takeMatching U V l := rfl

example : takeMatching [] [] [⟨0, ['a'], ['b']⟩, ⟨1, ['a'], ['c']⟩] = [(['a'], ['b'])] := by decide +kernel

/-- a used word stays used -/
theorem free_of_free_cons {U V : List Text} {x y : Text} {p : PhoneticPair}
    (h : p.free (x :: U) (y :: V) = true) : p.free U V = true := by
  simp only [PhoneticPair.free, List.contains_cons, Bool.not_or, Bool.and_eq_true] at h ⊢
  exact ⟨h.1.2, h.2.2⟩

/-- pairs that are blocked from the start play no part -/
theorem takeMatching_filter {U V : List Text} {keep : PhoneticPair → Bool} (l : List PhoneticPair)
    (h : ∀ p ∈ l, p.free U V = true → keep p = true) :
    takeMatching U V l = takeMatching U V (l.filter keep) := by
  induction l generalizing U V with
  | nil => rfl
  | cons p l ih =>
    have hrest : ∀ q ∈ l, q.free U V = true → keep q = true :=
      fun q hq => h q (List.mem_cons_of_mem _ hq)
    by_cases hp : p.free U V = true
    · rw [List.filter_cons_of_pos (h p List.mem_cons_self hp), takeMatching_cons,
        takeMatching_cons, if_pos hp, if_pos hp,
        ih fun q hq hfree => hrest q hq (free_of_free_cons hfree)]
    · rw [takeMatching_cons, if_neg hp, ih hrest]
      by_cases hk : keep p = true
      · rw [List.filter_cons_of_pos hk, takeMatching_cons, if_neg hp]
      · rw [List.filter_cons_of_neg hk]

/-- pairs of equal words, none of them used, are all taken -/
theorem takeMatching_diagonal {U : List Text} (z l : List PhoneticPair)
    (heq : ∀ p ∈ z, p.left = p.right) (hnodup : (z.map PhoneticPair.left).Nodup)
    (hU : ∀ p ∈ z, p.left ∉ U) :
    takeMatching U U (z ++ l) = z.map PhoneticPair.words ++
      takeMatching ((z.map PhoneticPair.left).reverse ++ U)
        ((z.map PhoneticPair.left).reverse ++ U) l := by
  induction z generalizing U with
  | nil => rfl
  | cons p z ih =>
    have hp := heq p List.mem_cons_self
    rw [List.map_cons, List.nodup_cons] at hnodup
    have hfree : p.free U U = true := by
      simp only [PhoneticPair.free, ← hp]
      simpa using hU p List.mem_cons_self
    rw [List.cons_append, takeMatching_cons, if_pos hfree, ← hp,
      ih (fun q hq => heq q (List.mem_cons_of_mem _ hq)) hnodup.2 ?_, List.map_cons, List.map_cons,
      List.reverse_cons, List.append_assoc]
    · rfl
    · intro q hq hmem
      rcases List.mem_cons.mp hmem with h | h
      · exact hnodup.1 (List.mem_map.mpr ⟨q, hq, h⟩)
      · exact hU q (List.mem_cons_of_mem _ hq) h

theorem takeMatching_sound {U V : List Text} {l : List PhoneticPair} {m : Text × Text}
    (h : m ∈ takeMatching U V l) : (∃ p ∈ l, m = p.words) ∧ m.1 ∉ U ∧ m.2 ∉ V := by
  induction l generalizing U V with
  | nil => cases h
  | cons p l ih =>
    rw [takeMatching_cons] at h
    split at h
    · rename_i hfree
      rcases List.mem_cons.mp h with rfl | h
      · simp only [PhoneticPair.free, Bool.and_eq_true, Bool.not_eq_true', List.contains_eq_mem,
          decide_eq_false_iff_not] at hfree
        exact ⟨⟨p, List.mem_cons_self, rfl⟩, hfree⟩
      · obtain ⟨⟨q, hq, hm⟩, hU, hV⟩ := ih h
        exact ⟨⟨q, List.mem_cons_of_mem _ hq, hm⟩, fun hu => hU (List.mem_cons_of_mem _ hu),
          fun hv => hV (List.mem_cons_of_mem _ hv)⟩
    · obtain ⟨⟨q, hq, hm⟩, hUV⟩ := ih h
      exact ⟨⟨q, List.mem_cons_of_mem _ hq, hm⟩, hUV⟩

/-- **no word of either side is taken twice** -/
theorem takeMatching_nodup (U V : List Text) (l : List PhoneticPair) :
    ((takeMatching U V l).map Prod.fst).Nodup ∧ ((takeMatching U V l).map Prod.snd).Nodup := by
  induction l generalizing U V with
  | nil => exact ⟨List.nodup_nil, List.nodup_nil⟩
  | cons p l ih =>
    rw [takeMatching_cons]
    split
    · obtain ⟨h1, h2⟩ := ih (p.left :: U) (p.right :: V)
      rw [List.map_cons, List.map_cons, List.nodup_cons, List.nodup_cons]
      refine ⟨⟨?_, h1⟩, ?_, h2⟩
      · intro hmem
        obtain ⟨m, hm, hfst⟩ := List.mem_map.mp hmem
        exact (takeMatching_sound hm).2.1 (by rw [hfst]; exact List.mem_cons_self)
      · intro hmem
        obtain ⟨m, hm, hsnd⟩ := List.mem_map.mp hmem
        exact (takeMatching_sound hm).2.2 (by rw [hsnd]; exact List.mem_cons_self)
    · exact ih U V

theorem takeMatching_flip (U V : List Text) (l : List PhoneticPair) :
    takeMatching V U (l.map PhoneticPair.flip) = (takeMatching U V l).map Prod.swap := by
  induction l generalizing U V with
  | nil => rfl
  | cons p l ih =>
    have hfree : p.flip.free V U = p.free U V := Bool.and_comm _ _
    rw [List.map_cons, takeMatching_cons, takeMatching_cons, hfree]
    split
    · rw [List.map_cons, ← ih]
      rfl
    · exact ih U V

/-! ## one matching -/

def PhoneticPair.equalWords (p : PhoneticPair) : Bool := p.left == p.right

theorem equalWords_iff {p : PhoneticPair} : p.equalWords = true ↔ p.left = p.right := beq_iff_eq

/-- what is left once the equal words of `l` are taken -/
def unequalPairs (l : List PhoneticPair) : List PhoneticPair :=
  let used := ((l.filter PhoneticPair.equalWords).map PhoneticPair.left).reverse
  (l.filter fun p => !p.equalWords).filter (PhoneticPair.free used used)

section
variable {left right : List Text} {l : List PhoneticPair}

theorem Arranged.distance (h : Arranged left right l) {p : PhoneticPair} (hp : p ∈ l) :
    p.distance = 0 ↔ p.equalWords = true := by
  rw [(h.mem.mp hp).2.2.2, charEditDistance_eq_zero, equalWords_iff]

/-- equal words come first -/
theorem Arranged.split (h : Arranged left right l) :
    l = l.filter PhoneticPair.equalWords ++ l.filter fun p => !p.equalWords := by
  have hmem : ∀ p ∈ l, (p.distance = 0 ↔ p.equalWords = true) := fun p hp => h.distance hp
  have hsorted := h.2
  clear h
  induction l with
  | nil => rfl
  | cons p l ih =>
    rw [List.pairwise_cons] at hsorted
    have hrest := ih (fun q hq => hmem q (List.mem_cons_of_mem _ hq)) hsorted.2
    by_cases hp : p.equalWords = true
    · rw [List.filter_cons_of_pos hp, List.filter_cons_of_neg (by simp [hp]), List.cons_append,
        ← hrest]
    · -- the first pair of different words: every later pair is as far apart
      have hnone : ∀ q ∈ l, ¬q.equalWords = true := by
        intro q hq hqe
        have hzero := (hmem q (List.mem_cons_of_mem _ hq)).mpr hqe
        have hpos : p.distance ≠ 0 := fun h0 => hp ((hmem p List.mem_cons_self).mp h0)
        have hle := PhoneticPair.le_iff.mp (hsorted.1 q hq)
        omega
      have hall : (p :: l).filter (fun p => !p.equalWords) = p :: l := by
        rw [List.filter_eq_self]
        intro q hq
        rcases List.mem_cons.mp hq with rfl | hq
        · simpa using hp
        · simpa using hnone q hq
      have hempty : (p :: l).filter PhoneticPair.equalWords = [] := by
        rw [List.filter_eq_nil_iff]
        intro q hq
        rcases List.mem_cons.mp hq with rfl | hq
        · exact hp
        · exact hnone q hq
      rw [hall, hempty, List.nil_append]

/-- **the matching: all equal words, then a greedy choice among pairs that share none of them** -/
theorem takeMatching_split (h : Arranged left right l) (hl : left.Nodup) (hr : right.Nodup) :
    takeMatching [] [] l = (l.filter PhoneticPair.equalWords).map PhoneticPair.words ++
      takeMatching ((l.filter PhoneticPair.equalWords).map PhoneticPair.left).reverse
        ((l.filter PhoneticPair.equalWords).map PhoneticPair.left).reverse (unequalPairs l) := by
  have heq : ∀ p ∈ l.filter PhoneticPair.equalWords, p.left = p.right :=
    fun p hp => equalWords_iff.mp (List.mem_filter.mp hp).2
  have hnodup : ((l.filter PhoneticPair.equalWords).map PhoneticPair.left).Nodup := by
    refine List.Nodup.map_on ?_ ((h.nodup hl hr).filter _)
    intro p hp q hq hpq
    have hp' := h.distance (List.mem_of_mem_filter hp)
    have hq' := h.distance (List.mem_of_mem_filter hq)
    have h1 := heq p hp
    have h2 := heq q hq
    have hd : p.distance = q.distance := by
      rw [hp'.mpr (List.mem_filter.mp hp).2, hq'.mpr (List.mem_filter.mp hq).2]
    obtain ⟨dp, lp, rp⟩ := p
    obtain ⟨dq, lq, rq⟩ := q
    simp only at h1 h2 hpq hd
    rw [hd, ← h1, ← h2, hpq]
  conv_lhs => rw [h.split]
  rw [takeMatching_diagonal _ _ heq hnodup (by simp), List.append_nil]
  congr 1
  exact takeMatching_filter _ fun p _ hfree => hfree

/-- the pairs that are left share no key -/
theorem Arranged.unequalPairs_antisymm (h : Arranged left right l) {p q : PhoneticPair}
    (hp : p ∈ unequalPairs l) (hq : q ∈ unequalPairs l) (hpq : PhoneticPair.le p q = true)
    (hqp : PhoneticPair.le q p = true) : p = q := by
  rcases PhoneticPair.eq_or_flip hpq hqp with heq | hflip
  · exact heq
  · exfalso
    have hpl := h.mem.mp (List.mem_of_mem_filter (List.mem_of_mem_filter hp))
    have hql := h.mem.mp (List.mem_of_mem_filter (List.mem_of_mem_filter hq))
    -- both sides hold the left word of `q`, so it was taken as an equal word
    have hright : q.left ∈ right := by
      have := hpl.2.1
      rwa [hflip] at this
    have hself := wordsSoundAlike_self.mpr (wordsSoundAlike_ne_nil hql.2.2.1).1
    have hcommon : (⟨0, q.left, q.left⟩ : PhoneticPair) ∈ l :=
      h.mem.mpr ⟨hql.1, hright, hself, (charEditDistance_eq_zero.mpr rfl).symm⟩
    have hused : q.left ∈ ((l.filter PhoneticPair.equalWords).map PhoneticPair.left).reverse := by
      rw [List.mem_reverse]
      exact List.mem_map.mpr ⟨_, List.mem_filter.mpr ⟨hcommon, equalWords_iff.mpr rfl⟩, rfl⟩
    have hfree := (List.mem_filter.mp hq).2
    simp only [PhoneticPair.free, Bool.and_eq_true, Bool.not_eq_true', List.contains_eq_mem,
      decide_eq_false_iff_not] at hfree
    exact hfree.1 hused

end

/-- **every arrangement of the candidates gives the same matching** -/
theorem takeMatching_arranged {left right left' right' : List Text} {l l' : List PhoneticPair}
    (hl : left.Nodup) (hr : right.Nodup) (hleft : left'.Perm left) (hright : right'.Perm right)
    (h : Arranged left right l) (h' : Arranged left' right' l') :
    takeMatching [] [] l' = takeMatching [] [] l := by
  have hl' := hleft.nodup_iff.mpr hl
  have hr' := hright.nodup_iff.mpr hr
  have hperm : l'.Perm l := by
    rw [List.perm_ext_iff_of_nodup (h'.nodup hl' hr') (h.nodup hl hr)]
    intro p
    rw [h'.mem, h.mem, hleft.mem_iff, hright.mem_iff]
  have heq : l'.filter PhoneticPair.equalWords = l.filter PhoneticPair.equalWords := by
    refine List.Perm.eq_of_pairwise ?_ (h'.2.filter _) (h.2.filter _) (hperm.filter _)
    intro p q hp hq hpq hqp
    rcases PhoneticPair.eq_or_flip hpq hqp with heq | hflip
    · exact heq
    · have hsame : q.left = q.right := equalWords_iff.mp (List.mem_filter.mp hq).2
      rw [hflip, PhoneticPair.flip, ← hsame]
      show _ = PhoneticPair.mk q.distance q.left q.right
      rw [← hsame]
  have hrest : unequalPairs l' = unequalPairs l := by
    unfold unequalPairs
    rw [heq]
    refine List.Perm.eq_of_pairwise ?_ ((h'.2.filter _).filter _) ((h.2.filter _).filter _)
      ((hperm.filter _).filter _)
    intro p q hp hq
    have hp' : p ∈ unequalPairs l := by
      have := ((hperm.filter fun p => !p.equalWords).filter _).mem_iff.mp hp
      exact this
    exact h.unequalPairs_antisymm hp' hq
  rw [takeMatching_split h hl hr, takeMatching_split h' hl' hr', heq, hrest]

/-- the words of both sets are matched with themselves -/
theorem phoneticMatching_common {left right : List Text} (hl : left.Nodup) (hr : right.Nodup)
    {word : Text} (hleft : word ∈ left) (hright : word ∈ right) (hne : word ≠ []) :
    (word, word) ∈ phoneticMatching left right := by
  have h := arranged_insertionSort left right
  unfold phoneticMatching
  rw [takeMatching_split h hl hr]
  refine List.mem_append_left _ (List.mem_map.mpr ⟨⟨0, word, word⟩, ?_, rfl⟩)
  refine List.mem_filter.mpr ⟨h.mem.mpr ?_, equalWords_iff.mpr rfl⟩
  exact ⟨hleft, hright, wordsSoundAlike_self.mpr hne, (charEditDistance_eq_zero.mpr rfl).symm⟩

theorem phoneticMatching_mem {left right : List Text} {m : Text × Text}
    (h : m ∈ phoneticMatching left right) : m.1 ∈ left ∧ m.2 ∈ right := by
  obtain ⟨⟨p, hp, rfl⟩, -⟩ := takeMatching_sound h
  have hmem := (arranged_insertionSort left right).mem.mp hp
  exact ⟨hmem.1, hmem.2.1⟩

/-- **the swapped sets give the flipped pairs** -/
theorem phoneticMatching_flip {left right : List Text} (hl : left.Nodup) (hr : right.Nodup) :
    phoneticMatching right left = (phoneticMatching left right).map Prod.swap := by
  have h := (arranged_insertionSort left right).flip hl hr
  unfold phoneticMatching
  rw [← takeMatching_flip]
  exact takeMatching_arranged hr hl (List.Perm.refl _) (List.Perm.refl _) h
    (arranged_insertionSort right left)

/-- **one matching, one-to-one, with every common word, whichever side comes first** -/
theorem phoneticMatching_laws (left right : List Text) (hl : left.Nodup) (hr : right.Nodup) :
    (∀ left' right' candidates, left'.Perm left → right'.Perm right →
        Arranged left' right' candidates →
        takeMatching [] [] candidates = phoneticMatching left right) ∧
      ((phoneticMatching left right).map Prod.fst).Nodup ∧
      ((phoneticMatching left right).map Prod.snd).Nodup ∧
      (∀ m ∈ phoneticMatching left right, m.1 ∈ left ∧ m.2 ∈ right) ∧
      (∀ word ∈ left, word ∈ right → word ≠ [] → (word, word) ∈ phoneticMatching left right) ∧
      phoneticMatching right left = (phoneticMatching left right).map Prod.swap := by
  refine ⟨?_, (takeMatching_nodup _ _ _).1, (takeMatching_nodup _ _ _).2,
    fun m hm => phoneticMatching_mem hm, ?_, phoneticMatching_flip hl hr⟩
  · intro left' right' candidates hleft hright h
    exact takeMatching_arranged hl hr hleft hright (arranged_insertionSort left right) h
  · exact fun word hleft hright hne => phoneticMatching_common hl hr hleft hright hne

/-- the empty word sounds like nothing, itself included -/
theorem phoneticMatching_emptyWord :
    ¬ ∀ word ∈ ([[]] : List Text), word ∈ ([[]] : List Text) →
      (word, word) ∈ phoneticMatching [[]] [[]] := by
  decide

/-- two spellings of one heard word, and a word of both sides -/
theorem phoneticMatching_cache :
    ("cache".toList, "cache".toList) ∈
        phoneticMatching ["cache".toList, "failed".toList] ["sailed".toList, "cache".toList] ∧
      phoneticMatching ["sailed".toList, "cache".toList] ["cache".toList, "failed".toList] =
        (phoneticMatching ["cache".toList, "failed".toList]
          ["sailed".toList, "cache".toList]).map Prod.swap := by
  have h := phoneticMatching_laws ["cache".toList, "failed".toList]
    ["sailed".toList, "cache".toList] (by decide) (by decide)
  exact ⟨h.2.2.2.2.1 _ (by decide) (by decide) (by decide), h.2.2.2.2.2⟩

end Voisu.Decision
