import Mathlib
import Voisu.Arbitration.Regions
import Voisu.Lib.Levenshtein

/-!
# The alignment is optimal

A cell of the table belongs to a prefix of either word list; prefixes are read backwards, so that a
step of the traceback takes a head off.

* `cellOf`             the cell of two prefixes: their edit distance, and where it came from;
* `backAt_eq`          the table holds these cells;
* `Aligns`             operations that consume both lists in order;
* `traceback_aligns`   the traceback does, with as many edits as the distance, to the origin;
* `Matched`            outside its regions an alignment keeps the words;
* `align_correct`      **the alignment and its regions**.
-/

namespace Voisu.Arbitration
open Lib Decision

/-! ## the cells -/

/-- the backpointer at two prefixes, read backwards -/
def backOf : List Text → List Text → Back
  | [], [] => .none
  | [], _ :: _ => .insertion
  | _ :: _, [] => .deletion
  | a :: x, b :: y =>
    if levenshtein x y + (if a = b then 0 else 1) ≤ levenshtein x (b :: y) + 1 &&
        levenshtein x y + (if a = b then 0 else 1) ≤ levenshtein (a :: x) y + 1 then .diagonal
    else if levenshtein x (b :: y) + 1 ≤ levenshtein (a :: x) y + 1 then .deletion
    else .insertion

def cellOf (x y : List Text) : Cell := ⟨levenshtein x y, backOf x y⟩

/-- the cells of `x` and of `y` with each prefix of `bs` before it -/
def cellRow (x y : List Text) : List Text → List Cell
  | [] => [cellOf x y]
  | b :: bs => cellOf x y :: cellRow x (b :: y) bs

theorem cellRow_eq (x y bs : List Text) :
    cellRow x y bs = cellOf x y :: (cellRow x y bs).tail := by
  cases bs <;> rfl

theorem cellRow_get {x y bs : List Text} {j : Nat} (hj : j ≤ bs.length) :
    (cellRow x y bs)[j]? = some (cellOf x ((bs.take j).reverse ++ y)) := by
  induction bs generalizing y j with
  | nil =>
    obtain rfl : j = 0 := by simpa using hj
    rfl
  | cons b bs ih =>
    cases j with
    | zero => rfl
    | succ j =>
      have hj' : j ≤ bs.length := by simpa using hj
      rw [cellRow, List.getElem?_cons_succ, ih hj', List.take_succ_cons, List.reverse_cons,
        List.append_assoc]
      rfl

/-- the cell that the three neighbours give -/
theorem cellOf_cons (a b : Text) (x y : List Text) :
    (if (cellOf x y).cost + (if a = b then 0 else 1) ≤ (cellOf x (b :: y)).cost + 1 &&
        (cellOf x y).cost + (if a = b then 0 else 1) ≤ levenshtein (a :: x) y + 1 then
        (⟨(cellOf x y).cost + (if a = b then 0 else 1), .diagonal⟩ : Cell)
      else if (cellOf x (b :: y)).cost + 1 ≤ levenshtein (a :: x) y + 1 then
        ⟨(cellOf x (b :: y)).cost + 1, .deletion⟩
      else ⟨levenshtein (a :: x) y + 1, .insertion⟩) = cellOf (a :: x) (b :: y) := by
  rw [cellOf, cellOf, cellOf, backOf, levenshtein]
  simp only
  generalize levenshtein x y + (if a = b then 0 else 1) = diagonal
  generalize levenshtein x (b :: y) + 1 = deletion
  generalize levenshtein (a :: x) y + 1 = insertion
  by_cases hd : (diagonal ≤ deletion && diagonal ≤ insertion) = true
  · rw [if_pos hd, if_pos hd]
    simp only [Bool.and_eq_true, decide_eq_true_eq] at hd
    rw [min_eq_left (le_min hd.1 hd.2)]
  · rw [if_neg hd, if_neg hd]
    simp only [Bool.and_eq_true, decide_eq_true_eq, not_and_or, not_le] at hd
    split
    · rename_i h
      rw [min_eq_left h, min_eq_right (by omega)]
    · rename_i h
      rw [min_eq_right (by omega), min_eq_right (by omega)]

theorem alignCells_eq (a : Text) (x y bs : List Text) :
    alignCells a (levenshtein (a :: x) y) (cellRow x y bs) bs = (cellRow (a :: x) y bs).tail := by
  induction bs generalizing y with
  | nil => rfl
  | cons b bs ih =>
    have hrow := cellRow_eq x (b :: y) bs
    rw [cellRow, cellRow, hrow, alignCells, cellOf_cons, ← hrow]
    show cellOf (a :: x) (b :: y) :: alignCells a (levenshtein (a :: x) (b :: y)) _ bs = _
    rw [ih, List.tail_cons, ← cellRow_eq]

theorem firstRow_eq (bs : List Text) : firstRow bs.length = cellRow [] [] bs := by
  have hlater : ∀ (b : Text) (y bs : List Text),
      cellRow [] (b :: y) bs =
        (List.range (bs.length + 1)).map fun j => ⟨(b :: y).length + j, .insertion⟩ := by
    intro b y bs
    induction bs generalizing b y with
    | nil => simp [cellRow, cellOf, backOf, nil_levenshtein]
    | cons c bs ih =>
      have hstep : (fun j => (⟨(c :: b :: y).length + j, .insertion⟩ : Cell)) =
          (fun j => ⟨(b :: y).length + j, .insertion⟩) ∘ Nat.succ := by
        funext j
        show (⟨(b :: y).length + 1 + j, .insertion⟩ : Cell) = ⟨(b :: y).length + (j + 1), .insertion⟩
        rw [Nat.add_right_comm, Nat.add_assoc]
      rw [cellRow, ih, hstep, show (c :: bs).length = bs.length + 1 from rfl]
      conv_rhs => rw [List.range_succ_eq_map, List.map_cons, List.map_map]
      rw [cellOf, nil_levenshtein]
      rfl
  cases bs with
  | nil => simp [firstRow, cellRow, cellOf, backOf, nil_levenshtein]
  | cons b bs =>
    have hone : (fun j => (⟨j + 1, .insertion⟩ : Cell)) =
        fun j => ⟨([b] : List Text).length + j, .insertion⟩ := by
      funext j
      rw [Nat.add_comm]
      rfl
    rw [cellRow, hlater, firstRow, hone, cellOf, nil_levenshtein]
    rfl

theorem alignRows_get {bs as x : List Text} {i : Nat} (hi : i < as.length) :
    (alignRows bs x.length (cellRow x [] bs) as)[i]? =
      some (cellRow ((as.take (i + 1)).reverse ++ x) [] bs) := by
  induction as generalizing x i with
  | nil => simp at hi
  | cons a as ih =>
    have hfirst : cellOf (a :: x) [] = ⟨x.length + 1, .deletion⟩ := by
      rw [cellOf, levenshtein_nil]
      rfl
    have hrow : (⟨x.length + 1, .deletion⟩ : Cell) ::
        alignCells a (x.length + 1) (cellRow x [] bs) bs = cellRow (a :: x) [] bs := by
      have hcost : x.length + 1 = levenshtein (a :: x) [] := (levenshtein_nil (a :: x)).symm
      rw [← hfirst]
      conv_lhs => rw [hcost]
      rw [alignCells_eq, ← cellRow_eq]
    rw [alignRows, hrow]
    cases i with
    | zero => rfl
    | succ i =>
      have hrest := ih (x := a :: x) (i := i) (by simpa using hi)
      rw [List.length_cons] at hrest
      rw [List.getElem?_cons_succ, hrest, List.take_succ_cons, List.reverse_cons,
        List.append_assoc]
      rfl

/-- **the table holds the cells of the prefixes** -/
theorem backAt_eq {as bs : List Text} {i j : Nat} (hi : i ≤ as.length) (hj : j ≤ bs.length) :
    backAt (alignTable as bs) i j = backOf (as.take i).reverse (bs.take j).reverse := by
  have hrow : (alignTable as bs)[i]? = some (cellRow (as.take i).reverse [] bs) := by
    rw [alignTable, firstRow_eq]
    cases i with
    | zero => rfl
    | succ i =>
      have h : (alignRows bs ([] : List Text).length (cellRow [] [] bs) as)[i]? =
          some (cellRow ((as.take (i + 1)).reverse ++ []) [] bs) := alignRows_get (by omega)
      rw [List.length_nil, List.append_nil] at h
      rw [List.getElem?_cons_succ, h]
  rw [backAt, hrow, Option.bind_some, cellRow_get hj, List.append_nil]
  rfl

/-! ## the traceback -/

/-- the operations consume the words of both lists, and match equal words only -/
inductive Aligns : List Text → List Text → List Op → Prop
  | nil : Aligns [] [] []
  | same (a : Text) {as bs : List Text} {ops : List Op} :
      Aligns as bs ops → Aligns (a :: as) (a :: bs) (.match :: ops)
  | sub {a b : Text} {as bs : List Text} {ops : List Op} : a ≠ b →
      Aligns as bs ops → Aligns (a :: as) (b :: bs) (.sub :: ops)
  | del (a : Text) {as bs : List Text} {ops : List Op} :
      Aligns as bs ops → Aligns (a :: as) bs (.del :: ops)
  | ins (b : Text) {as bs : List Text} {ops : List Op} :
      Aligns as bs ops → Aligns as (b :: bs) (.ins :: ops)

namespace Aligns

variable {as bs cs ds : List Text} {ops ops' : List Op}

theorem append (h : Aligns as bs ops) (h' : Aligns cs ds ops') :
    Aligns (as ++ cs) (bs ++ ds) (ops ++ ops') := by
  induction h with
  | nil => exact h'
  | same a _ ih => exact ih.same a
  | sub hne _ ih => exact ih.sub hne
  | del a _ ih => exact ih.del a
  | ins b _ ih => exact ih.ins b

theorem reverse (h : Aligns as bs ops) : Aligns as.reverse bs.reverse ops.reverse := by
  induction h with
  | nil => exact nil
  | same a _ ih =>
    simp only [List.reverse_cons]
    exact ih.append (nil.same a)
  | sub hne _ ih =>
    simp only [List.reverse_cons]
    exact ih.append (sub hne nil)
  | del a _ ih =>
    simp only [List.reverse_cons]
    simpa using ih.append (nil.del a)
  | ins b _ ih =>
    simp only [List.reverse_cons]
    simpa using ih.append (nil.ins b)

end Aligns

/-- the operations that are not matches -/
def edits (ops : List Op) : Nat := ops.countP fun op => op ≠ .match

/-- the cell at which the traceback stops -/
def tracebackEnd (table : List (List Cell)) (i j : Nat) : Nat × Nat :=
  match backAt table i j, i, j with
  | .deletion, i + 1, j => tracebackEnd table i j
  | .insertion, i, j + 1 => tracebackEnd table i j
  | .diagonal, i + 1, j + 1 => tracebackEnd table i j
  | _, i, j => (i, j)
termination_by i + j

/-- what the traceback from a cell is known to do -/
structure Traced (as bs : List Text) (i j : Nat) : Prop where
  aligns : Aligns (as.take i).reverse (bs.take j).reverse (traceback (alignTable as bs) as bs i j)
  optimal : edits (traceback (alignTable as bs) as bs i j) =
    levenshtein (as.take i).reverse (bs.take j).reverse
  origin : tracebackEnd (alignTable as bs) i j = (0, 0)

section
variable {as bs : List Text} {i j : Nat}

theorem take_succ_reverse {k : Nat} {l : List Text} (hk : k < l.length) :
    (l.take (k + 1)).reverse = l[k] :: (l.take k).reverse := by
  rw [List.take_succ_eq_append_getElem hk, List.reverse_append]
  rfl

theorem Traced.deletion (hi : i < as.length) (hback : backAt (alignTable as bs) (i + 1) j = .deletion)
    (hcost : levenshtein (as.take (i + 1)).reverse (bs.take j).reverse =
      levenshtein (as.take i).reverse (bs.take j).reverse + 1) (h : Traced as bs i j) :
    Traced as bs (i + 1) j := by
  have hops : traceback (alignTable as bs) as bs (i + 1) j =
      .del :: traceback (alignTable as bs) as bs i j := by
    rw [traceback.eq_def, hback]
  constructor
  · rw [hops, take_succ_reverse hi]
    exact h.aligns.del _
  · rw [hops, hcost, ← h.optimal]
    exact List.countP_cons_of_pos (by decide)
  · rw [tracebackEnd.eq_def, hback]
    exact h.origin

theorem Traced.insertion (hj : j < bs.length)
    (hback : backAt (alignTable as bs) i (j + 1) = .insertion)
    (hcost : levenshtein (as.take i).reverse (bs.take (j + 1)).reverse =
      levenshtein (as.take i).reverse (bs.take j).reverse + 1) (h : Traced as bs i j) :
    Traced as bs i (j + 1) := by
  have hops : traceback (alignTable as bs) as bs i (j + 1) =
      .ins :: traceback (alignTable as bs) as bs i j := by
    rw [traceback.eq_def, hback]
  constructor
  · rw [hops, take_succ_reverse hj]
    exact h.aligns.ins _
  · rw [hops, hcost, ← h.optimal]
    exact List.countP_cons_of_pos (by decide)
  · rw [tracebackEnd.eq_def, hback]
    cases i <;> exact h.origin

theorem Traced.diagonal (hi : i < as.length) (hj : j < bs.length)
    (hback : backAt (alignTable as bs) (i + 1) (j + 1) = .diagonal)
    (hcost : levenshtein (as.take (i + 1)).reverse (bs.take (j + 1)).reverse =
      levenshtein (as.take i).reverse (bs.take j).reverse + if as[i] = bs[j] then 0 else 1)
    (h : Traced as bs i j) : Traced as bs (i + 1) (j + 1) := by
  have hops : traceback (alignTable as bs) as bs (i + 1) (j + 1) =
      (if as[i] = bs[j] then .match else .sub) :: traceback (alignTable as bs) as bs i j := by
    rw [traceback.eq_def, hback]
    simp only [List.getElem?_eq_getElem hi, List.getElem?_eq_getElem hj, Option.some.injEq]
  constructor
  · rw [hops, take_succ_reverse hi, take_succ_reverse hj]
    split
    · rename_i heq
      rw [heq]
      exact h.aligns.same _
    · rename_i hne
      exact h.aligns.sub hne
  · rw [hops, hcost, ← h.optimal]
    split
    · exact List.countP_cons_of_neg (by decide)
    · exact List.countP_cons_of_pos (by decide)
  · rw [tracebackEnd.eq_def, hback]
    exact h.origin

/-- **the traceback from a cell aligns its prefixes at the least cost, and reaches the origin** -/
theorem traced (hi : i ≤ as.length) (hj : j ≤ bs.length) : Traced as bs i j := by
  induction hn : i + j using Nat.strong_induction_on generalizing i j with
  | _ n ih =>
    have hback := backAt_eq hi hj
    cases i with
    | zero =>
      cases j with
      | zero =>
        have hops : traceback (alignTable as bs) as bs 0 0 = [] := by
          rw [traceback.eq_def, hback]
          rfl
        refine ⟨?_, ?_, ?_⟩
        · rw [hops]
          exact Aligns.nil
        · rw [hops]
          exact (nil_levenshtein ([] : List Text)).symm
        · rw [tracebackEnd.eq_def, hback]
          rfl
      | succ j =>
        rw [take_succ_reverse hj] at hback
        refine Traced.insertion hj hback ?_ (ih (0 + j) (by omega) hi (by omega) rfl)
        show levenshtein [] _ = levenshtein [] _ + 1
        rw [nil_levenshtein, nil_levenshtein, take_succ_reverse hj]
        rfl
    | succ i =>
      cases j with
      | zero =>
        rw [take_succ_reverse hi] at hback
        refine Traced.deletion hi hback ?_ (ih (i + 0) (by omega) (by omega) hj rfl)
        show levenshtein _ [] = levenshtein _ [] + 1
        rw [levenshtein_nil, levenshtein_nil, take_succ_reverse hi]
        rfl
      | succ j =>
        have ha := take_succ_reverse hi
        have hb := take_succ_reverse hj
        have hcost : levenshtein (as.take (i + 1)).reverse (bs.take (j + 1)).reverse =
            min (levenshtein (as.take i).reverse (bs.take j).reverse +
                if as[i] = bs[j] then 0 else 1)
              (min (levenshtein (as.take i).reverse (bs.take (j + 1)).reverse + 1)
                (levenshtein (as.take (i + 1)).reverse (bs.take j).reverse + 1)) := by
          rw [ha, hb, levenshtein]
        have hdef : backOf (as.take (i + 1)).reverse (bs.take (j + 1)).reverse =
            if levenshtein (as.take i).reverse (bs.take j).reverse +
                  (if as[i] = bs[j] then 0 else 1) ≤
                levenshtein (as.take i).reverse (bs.take (j + 1)).reverse + 1 &&
              levenshtein (as.take i).reverse (bs.take j).reverse +
                  (if as[i] = bs[j] then 0 else 1) ≤
                levenshtein (as.take (i + 1)).reverse (bs.take j).reverse + 1 then .diagonal
            else if levenshtein (as.take i).reverse (bs.take (j + 1)).reverse + 1 ≤
                levenshtein (as.take (i + 1)).reverse (bs.take j).reverse + 1 then .deletion
            else .insertion := by
          rw [ha, hb, backOf]
        rw [hdef] at hback
        generalize hc : (if as[i] = bs[j] then 0 else 1) = cost at hcost hback
        split at hback
        · rename_i hd
          simp only [Bool.and_eq_true, decide_eq_true_eq] at hd
          refine Traced.diagonal hi hj hback ?_ (ih (i + j) (by omega) (by omega) (by omega) rfl)
          rw [hcost, hc, min_eq_left (le_min hd.1 hd.2)]
        · rename_i hd
          simp only [Bool.and_eq_true, decide_eq_true_eq, not_and_or, not_le] at hd
          split at hback
          · rename_i hle
            refine Traced.deletion hi hback ?_ (ih (i + (j + 1)) (by omega) (by omega) hj rfl)
            rw [hcost, min_eq_left hle, min_eq_right (by omega)]
          · rename_i hle
            refine Traced.insertion hj hback ?_ (ih (i + 1 + j) (by omega) hi (by omega) rfl)
            rw [hcost, min_eq_right (by omega), min_eq_right (by omega)]

end

theorem align_aligns {as bs : List Text} {ops : List Op} (h : align as bs = some ops) :
    Aligns as bs ops ∧ edits ops = levenshtein as bs := by
  unfold align at h
  split at h
  · cases h
  · obtain rfl := Option.some.inj h
    have ht := traced (le_refl as.length) (le_refl bs.length)
    have hops := ht.aligns.reverse
    have hcount := ht.optimal
    rw [List.take_length, List.take_length] at hops hcount
    rw [List.reverse_reverse, List.reverse_reverse] at hops
    rw [levenshtein_reverse] at hcount
    exact ⟨hops, by rw [edits, List.countP_reverse]; exact hcount⟩

/-! ## the regions -/

/-- the words outside the regions are the same on both sides -/
def Matched (as bs : List Text) : Nat → Nat → List Region → Prop
  | i, j, [] => as.drop i = bs.drop j
  | i, j, r :: rs =>
    (as.drop i).take (r.aStart - i) = (bs.drop j).take (r.bStart - j) ∧
      Matched as bs r.aStop r.bStop rs

/-- the first list with the words of the second in place of its own in every region -/
def replaceRegions (as bs : List Text) (i : Nat) : List Region → List Text
  | [] => as.drop i
  | r :: rs =>
    (as.drop i).take (r.aStart - i) ++
      ((bs.drop r.bStart).take (r.bStop - r.bStart) ++ replaceRegions as bs r.aStop rs)

/-- since `(i₀, j₀)` only matched words came before the open region -/
def MatchedSince (as bs : List Text) (i j i₀ j₀ : Nat) (current : Option Region) : Prop :=
  (as.drop i₀).take ((current.elim i Region.aStart) - i₀) =
      (bs.drop j₀).take ((current.elim j Region.bStart) - j₀) ∧
    i₀ ≤ current.elim i Region.aStart ∧ j₀ ≤ current.elim j Region.bStart

theorem drop_eq_cons {l rest : List Text} {i : Nat} {a : Text} (h : l.drop i = a :: rest) :
    l.drop (i + 1) = rest ∧ l[i]? = some a := by
  constructor
  · rw [← List.drop_drop, h]
    rfl
  · rw [← List.head?_drop, h]
    rfl

/-- one more matched word -/
theorem take_matched {l rest : List Text} {i₀ i : Nat} {a : Text} (hi : i₀ ≤ i)
    (h : l.drop i = a :: rest) :
    (l.drop i₀).take (i + 1 - i₀) = (l.drop i₀).take (i - i₀) ++ [a] := by
  have hget : (l.drop i₀)[i - i₀]? = some a := by
    rw [List.getElem?_drop, Nat.add_sub_cancel' hi]
    exact (drop_eq_cons h).2
  rw [Nat.sub_add_comm hi, List.take_add_one, hget]
  rfl

theorem regionsFrom_matched {as bs : List Text} {ops : List Op} {i j i₀ j₀ : Nat}
    {current : Option Region} (halign : Aligns (as.drop i) (bs.drop j) ops)
    (h : MatchedSince as bs i j i₀ j₀ current)
    (hstop : ∀ r ∈ current, r.aStop = i ∧ r.bStop = j) :
    Matched as bs i₀ j₀ (regionsFrom current i j ops) := by
  induction ops generalizing i j i₀ j₀ current with
  | nil =>
    generalize ha : as.drop i = x at halign
    generalize hb : bs.drop j = y at halign
    cases halign
    cases current with
    | none =>
      obtain ⟨heq, hi, hj⟩ := h
      simp only [Option.elim_none] at heq hi hj
      show as.drop i₀ = bs.drop j₀
      rw [← List.take_append_drop (i - i₀) (as.drop i₀), heq, List.drop_drop,
        Nat.add_sub_cancel' hi, ha, ← hb, ← Nat.add_sub_cancel' hj, ← List.drop_drop,
        Nat.add_sub_cancel_left, List.take_append_drop]
    | some r =>
      obtain ⟨h1, h2⟩ := hstop r rfl
      refine ⟨h.1, ?_⟩
      show as.drop r.aStop = bs.drop r.bStop
      rw [h1, h2, ha, hb]
  | cons op ops ih =>
    generalize ha : as.drop i = x at halign
    generalize hb : bs.drop j = y at halign
    cases halign with
    | same a hrest =>
      obtain ⟨ha', -⟩ := drop_eq_cons ha
      obtain ⟨hb', -⟩ := drop_eq_cons hb
      rw [← ha', ← hb'] at hrest
      cases current with
      | none =>
        obtain ⟨heq, hi, hj⟩ := h
        simp only [Option.elim_none] at heq hi hj
        refine ih hrest ⟨?_, ?_, ?_⟩ nofun
        · show (as.drop i₀).take (i + 1 - i₀) = (bs.drop j₀).take (j + 1 - j₀)
          rw [take_matched hi ha, take_matched hj hb, heq]
        · exact Nat.le_succ_of_le hi
        · exact Nat.le_succ_of_le hj
      | some r =>
        obtain ⟨h1, h2⟩ := hstop r rfl
        refine ⟨h.1, ?_⟩
        rw [h1, h2]
        refine ih hrest ⟨?_, Nat.le_succ i, Nat.le_succ j⟩ nofun
        show (as.drop i).take (i + 1 - i) = (bs.drop j).take (j + 1 - j)
        rw [take_matched (le_refl i) ha, take_matched (le_refl j) hb, Nat.sub_self, Nat.sub_self]
        rfl
    | sub _ hrest =>
      rw [← (drop_eq_cons ha).1, ← (drop_eq_cons hb).1] at hrest
      refine ih hrest ?_ ?_
      · cases current <;> exact h
      · rintro _ ⟨⟩
        exact ⟨rfl, rfl⟩
    | del _ hrest =>
      rw [← (drop_eq_cons ha).1, ← hb] at hrest
      refine ih hrest ?_ ?_
      · cases current <;> exact h
      · rintro _ ⟨⟩
        cases current with
        | none => exact ⟨rfl, rfl⟩
        | some r => exact ⟨rfl, (hstop r rfl).2⟩
    | ins _ hrest =>
      rw [← (drop_eq_cons hb).1, ← ha] at hrest
      refine ih hrest ?_ ?_
      · cases current <;> exact h
      · rintro _ ⟨⟩
        cases current with
        | none => exact ⟨rfl, rfl⟩
        | some r => exact ⟨(hstop r rfl).1, rfl⟩

theorem replaceRegions_eq {as bs : List Text} {i j i₀ j₀ : Nat} {rs : List Region}
    (h : Matched as bs i j rs) (hapart : Apart as.length bs.length i₀ j₀ rs) (hj : j ≤ j₀) :
    replaceRegions as bs i rs = bs.drop j := by
  induction rs generalizing i j i₀ j₀ with
  | nil => exact h
  | cons r rs ih =>
    obtain ⟨-, -, -, h4, h5, -, h7⟩ := hapart
    rw [replaceRegions, h.1, ih h.2 h7 (Nat.le_succ _)]
    have hinner : (bs.drop r.bStart).take (r.bStop - r.bStart) ++ bs.drop r.bStop =
        bs.drop r.bStart := by
      have hdrop : bs.drop r.bStop = (bs.drop r.bStart).drop (r.bStop - r.bStart) := by
        rw [List.drop_drop, Nat.add_sub_cancel' h5]
      rw [hdrop, List.take_append_drop]
    have houter : (bs.drop j).take (r.bStart - j) ++ bs.drop r.bStart = bs.drop j := by
      have hdrop : bs.drop r.bStart = (bs.drop j).drop (r.bStart - j) := by
        rw [List.drop_drop, Nat.add_sub_cancel' (hj.trans h4)]
      rw [hdrop, List.take_append_drop]
    rw [hinner, houter]

theorem divergentRegions_matched {as bs : List Text} {ops : List Op}
    (h : align as bs = some ops) : Matched as bs 0 0 (divergentRegions ops) := by
  refine regionsFrom_matched (align_aligns h).1 ⟨?_, Nat.le_refl 0, Nat.le_refl 0⟩ nofun
  rfl

/-- **an alignment is optimal, and its regions turn one list into the other** -/
theorem align_correct {as bs : List Text} {ops : List Op} (h : align as bs = some ops) :
    Aligns as bs ops ∧ edits ops = levenshtein as bs ∧
      tracebackEnd (alignTable as bs) as.length bs.length = (0, 0) ∧
      Apart as.length bs.length 0 0 (divergentRegions ops) ∧
      Matched as bs 0 0 (divergentRegions ops) ∧
      replaceRegions as bs 0 (divergentRegions ops) = bs := by
  have halign := align_aligns h
  have hapart := divergentRegions_apart h
  have hmatched := divergentRegions_matched h
  exact ⟨halign.1, halign.2, (traced (le_refl _) (le_refl _)).origin, hapart, hmatched,
    replaceRegions_eq hmatched hapart (le_refl 0)⟩

/-- a word heard otherwise, and one not heard -/
theorem align_cash : ∃ ops,
    align ["the".toList, "cash".toList, "now".toList] ["the".toList, "cache".toList] = some ops ∧
      edits ops = levenshtein ["the".toList, "cash".toList, "now".toList]
        ["the".toList, "cache".toList] ∧
      replaceRegions ["the".toList, "cash".toList, "now".toList] ["the".toList, "cache".toList] 0
        (divergentRegions ops) = ["the".toList, "cache".toList] := by
  have h : align ["the".toList, "cash".toList, "now".toList] ["the".toList, "cache".toList] =
      some _ := if_neg (by decide)
  obtain ⟨-, hedits, -, -, -, hreplace⟩ := align_correct h
  exact ⟨_, h, hedits, hreplace⟩

end Voisu.Arbitration
