import Voisu.WindowsApp.Resampler
import Mathlib.Tactic.GCongr

/-!
# What the resampler puts out

* `halfWidthOf_bounds`        the kernel is wider than half a step from one output to the next;
* `Resampler.Fed`             what the buffer holds after a part of the input;
* `sampleAt_eq`               a sample over a buffer that holds its window;
* `process_fed`, `flush_fed`  what the two operations put out;
* `resample_eq`               the output, for every split of the input.
-/

namespace Voisu.WindowsApp
open Lib

/-! ## the width of the kernel -/

/-- the cutoff is near 0.45 of the lower rate over the input's -/
theorem cutoffOf_near {rate : Nat} (hpos : 0 < rate) (hlt : rate < 2 ^ 32) {t : ℚ}
    (ht : t = min (rate : ℚ) targetRate / rate) :
    1 / 2 ^ 32 ≤ t ∧ 36 / 100 * t ≤ cutoffOf rate ∧ cutoffOf rate ≤ 55 / 100 * t := by
  have hrate : (0 : ℚ) < rate := by exact_mod_cast hpos
  have hratelt : (rate : ℚ) ≤ 2 ^ 32 := by exact_mod_cast hlt.le
  have hm : (1 : ℚ) ≤ min (rate : ℚ) targetRate := by
    refine le_min (by exact_mod_cast hpos) ?_
    unfold targetRate
    norm_num
  have htlow : 1 / 2 ^ 32 ≤ t := by
    rw [ht]
    exact div_le_div₀ (by linarith) hm hrate hratelt
  have ha1 := le_roundF64 (show 1 / 2 ^ 100 ≤ (45 / 100 : ℚ) by norm_num)
  have ha2 := roundF64_le (show 1 / 2 ^ 100 ≤ (45 / 100 : ℚ) by norm_num)
  unfold cutoffOf fmul fdiv
  generalize min (rate : ℚ) targetRate = m at *
  generalize roundF64 (45 / 100) = a at *
  have ham : 42 / 100 * m ≤ a * m := mul_le_mul_of_nonneg_right (by linarith) (by linarith)
  have ham' : a * m ≤ 479 / 1000 * m := mul_le_mul_of_nonneg_right (by linarith) (by linarith)
  have hb : 1 / 2 ^ 100 ≤ a * m := by
    norm_num
    linarith
  have hb1 := le_roundF64 hb
  have hb2 := roundF64_le hb
  generalize roundF64 (a * m) = b at *
  have hc1 : 39 / 100 * t ≤ b / rate := by
    rw [ht, ← mul_div_assoc]
    exact div_le_div_of_nonneg_right (by linarith) hrate.le
  have hc2 : b / rate ≤ 509 / 1000 * t := by
    rw [ht, ← mul_div_assoc]
    exact div_le_div_of_nonneg_right (by linarith) hrate.le
  have hc : 1 / 2 ^ 100 ≤ b / rate := by
    norm_num at htlow ⊢
    linarith
  have hd1 := le_roundF64 hc
  have hd2 := roundF64_le hc
  refine ⟨htlow, ?_, ?_⟩ <;> linarith

/-- **the kernel is wide enough for the step from one output to the next** -/
theorem halfWidthOf_bounds {rate : Nat} (hpos : 0 < rate) (hlt : rate < 2 ^ 32) :
    1 ≤ halfWidthOf rate ∧ rate ≤ 2 * halfWidthOf rate * 16000 := by
  have hrate : (0 : ℚ) < rate := by exact_mod_cast hpos
  obtain ⟨htlow, hc1, hc2⟩ := cutoffOf_near hpos hlt rfl
  have ht1 : min (rate : ℚ) targetRate / rate ≤ 1 := (div_le_one hrate).mpr (min_le_left _ _)
  have ht2 : min (rate : ℚ) targetRate / rate * rate ≤ 16000 := by
    rw [div_mul_cancel₀ _ hrate.ne']
    refine (min_le_right _ _).trans ?_
    unfold targetRate
    norm_num
  unfold halfWidthOf fdiv fmul
  generalize min (rate : ℚ) targetRate / rate = t at *
  generalize cutoffOf rate = c at *
  have htpos : 0 < t := lt_of_lt_of_le (by positivity) htlow
  have hd : 1 / 2 ^ 100 ≤ 2 * c := by
    norm_num at htlow ⊢
    linarith
  have hd1 := le_roundF64 hd
  have hd2 := roundF64_le hd
  generalize roundF64 (2 * c) = d at *
  have hdpos : 0 < d := by linarith
  have he0 : 6 / t ≤ 8 / d := by
    rw [div_le_div_iff₀ htpos hdpos]
    linarith
  have hone : 1 ≤ 1 / t := (one_le_div htpos).mpr ht1
  have he6 : 6 / t = 6 * (1 / t) := by ring
  have he := le_roundF64 (show 1 / 2 ^ 100 ≤ 8 / d by norm_num; linarith)
  generalize roundF64 (8 / d) = e at *
  have hlow : 5 * (1 / t) ≤ e := by linarith
  have hceil : e ≤ (⌈e⌉.toNat : ℚ) := by
    have h1 := Int.le_ceil e
    have h2 : (⌈e⌉ : ℚ) ≤ ((⌈e⌉.toNat : Int) : ℚ) := by exact_mod_cast Int.self_le_toNat _
    exact h1.trans (by exact_mod_cast h2)
  constructor
  · have : (1 : ℚ) ≤ (⌈e⌉.toNat : ℚ) := by linarith
    exact_mod_cast this
  · have hinv : (rate : ℚ) ≤ 1 / t * 16000 := by
      rw [div_mul_eq_mul_div, one_mul, le_div_iff₀ htpos, mul_comm]
      exact ht2
    have : (rate : ℚ) ≤ 2 * (⌈e⌉.toNat : ℚ) * 16000 := by linarith
    exact_mod_cast this

/-! ## the input as a signal -/

section
variable {α : Type} [CommRing α]

theorem signal_of_lt {xs : List α} {j : Nat} (h : j < xs.length) :
    xs[j]? = some (signal xs j) := by
  unfold signal
  rw [if_pos (Int.natCast_nonneg j), Int.toNat_natCast, List.getD_eq_getElem?_getD,
    List.getElem?_eq_getElem h]
  rfl

theorem signal_of_neg {xs : List α} {i : Int} (h : i < 0) : signal xs i = 0 := by
  unfold signal
  rw [if_neg (by omega)]

theorem signal_of_ge {xs : List α} {i : Int} (h : (xs.length : Int) ≤ i) : signal xs i = 0 := by
  unfold signal
  rw [if_pos (by omega), List.getD_eq_getElem?_getD, List.getElem?_eq_none (by omega)]
  rfl

theorem sum_Icc_int (f : Int → α) {a b : Int} {n : Nat} (h : b + 1 - a = n) :
    ∑ i ∈ Finset.Icc a b, f i = ∑ j ∈ Finset.range n, f (a + j) := by
  show ∑ i ∈ (Finset.range (b + 1 - a).toNat).map _, f i = _
  rw [Finset.sum_map, h, Int.toNat_natCast]
  rfl

/-- a loop over a window of the history that holds `v` -/
theorem foldlM_window {history : List α} {v w : Nat → α} {first n : Nat}
    (h : ∀ j, first ≤ j → j < first + n → history[j]? = some (v j)) (acc : α) :
    ((List.range' first n).foldlM (fun acc (index : Nat) =>
      (history[index]?).map fun x => acc + x * w index) acc) =
      some (acc + ∑ j ∈ Finset.range n, v (first + j) * w (first + j)) := by
  induction n generalizing first acc with
  | zero => simp
  | succ n ih =>
    rw [List.range'_succ, List.foldlM_cons, h first (Nat.le_refl _) (by omega)]
    show (List.range' (first + 1) n).foldlM _ (acc + v first * w first) = _
    rw [ih (fun j h1 h2 => h j (by omega) (by omega)), Finset.sum_range_succ', add_assoc]
    congr 2
    rw [add_comm]
    congr 1
    apply Finset.sum_congr rfl
    intro j _
    rw [show first + 1 + j = first + (j + 1) by omega]

/-! ## what the buffer holds -/

namespace Resampler

/-- the buffer after the first `fed` samples of `full` -/
structure Fed (full : List α) (rate fed : Nat) (s : Resampler α) : Prop where
  inputRate : s.inputRate = rate
  halfWidth : s.halfWidth = halfWidthOf rate
  passthrough : s.passthrough = false
  stop : s.base + s.history.length = fed
  /-- the next kernel begins in the history -/
  lead : s.base ≤ (centreOf rate s.emitted : Int) + 1 - halfWidthOf rate
  held : ∀ j < s.history.length, s.history[j]? = some (signal full (s.base + j))
  /-- the last output had its whole kernel -/
  behind : s.emitted = 0 ∨ centreOf rate (s.emitted - 1) + halfWidthOf rate < fed

theorem centreOf_mono {rate m n : Nat} (h : m ≤ n) : centreOf rate m ≤ centreOf rate n :=
  Nat.div_le_div_right (Nat.mul_le_mul_right rate h)

variable {kernel : ℚ → α} {full : List α} {rate fed : Nat} {s : Resampler α}

theorem Fed.centre (h : s.Fed full rate fed) : s.nextPosition.1 = centreOf rate s.emitted := by
  unfold nextPosition centreOf targetRate
  rw [h.inputRate]

/-- the index of the next centre is not negative -/
theorem Fed.relative_eq (h : s.Fed full rate fed) (hwide : 1 ≤ halfWidthOf rate) :
    ∃ rel : Nat, s.relative = some rel ∧ s.base + rel = centreOf rate s.emitted := by
  have hlead := h.lead
  unfold relative
  rw [h.centre, if_neg (by omega)]
  exact ⟨_, rfl, by omega⟩

/-- **a sample over a history that holds its window is the sum over the window** -/
theorem sampleAt_eq {rel : Nat} (hrate : s.inputRate = rate)
    (hwidth : s.halfWidth = halfWidthOf rate) (hrel : s.base + rel = centreOf rate s.emitted)
    (hlead : s.base ≤ (centreOf rate s.emitted : Int) + 1 - halfWidthOf rate)
    (hready : rel + halfWidthOf rate < s.history.length)
    (hheld : ∀ j < s.history.length, s.history[j]? = some (signal full (s.base + j))) :
    s.sampleAt kernel rel s.nextPosition.2 = some (resampledAt kernel rate full s.emitted) := by
  have hdist : ∀ j : Nat, (rel : ℚ) - j + s.nextPosition.2 =
      (s.emitted * rate : Nat) / 16000 - ((s.base + j : Int) : ℚ) := by
    intro j
    have hdiv : ((s.emitted * rate : Nat) : ℚ) =
        16000 * (centreOf rate s.emitted : ℚ) + ((s.emitted * rate % 16000 : Nat) : ℚ) := by
      exact_mod_cast (Nat.div_add_mod (s.emitted * rate) 16000).symm
    have hq : (s.base : ℚ) + rel = (centreOf rate s.emitted : ℚ) := by
      have := congrArg (fun z : Int => (z : ℚ)) hrel
      push_cast at this
      exact this
    unfold nextPosition targetRate
    rw [hrate]
    dsimp only
    rw [hdiv, ← hq]
    push_cast
    ring
  unfold sampleAt
  rw [if_neg (by omega), hwidth]
  dsimp only
  have hmin : min (rel + halfWidthOf rate) (s.history.length - 1) = rel + halfWidthOf rate := by
    omega
  have hcount : rel + halfWidthOf rate + 1 - (rel + 1 - halfWidthOf rate) =
      2 * halfWidthOf rate := by
    omega
  rw [hmin, hcount, foldlM_window (v := fun j => signal full (s.base + j))
    (w := fun j => kernel ((rel : ℚ) - j + s.nextPosition.2))
    (fun j h1 h2 => hheld j (by omega)), zero_add]
  unfold resampledAt
  rw [sum_Icc_int _ (n := 2 * halfWidthOf rate) (by push_cast; omega)]
  congr 1
  apply Finset.sum_congr rfl
  intro j _
  have hindex : s.base + ((rel + 1 - halfWidthOf rate + j : Nat) : Int) =
      centreOf rate s.emitted + 1 - halfWidthOf rate + j := by omega
  rw [hdist, hindex]

/-- the outputs from `first` up to `last` -/
noncomputable def outputs (kernel : ℚ → α) (rate : Nat) (full : List α) (first last : Nat) : List α :=
  (List.range' first (last - first)).map (resampledAt kernel rate full)

theorem outputs_length {first last : Nat} :
    (outputs kernel rate full first last).length = last - first := by
  rw [outputs, List.length_map, List.length_range']

theorem outputs_getElem {first last n : Nat}
    (h : n < (outputs kernel rate full first last).length) :
    (outputs kernel rate full first last)[n] = resampledAt kernel rate full (first + n) := by
  simp only [outputs, List.getElem_map, List.getElem_range', Nat.one_mul]

theorem outputs_cons {first last : Nat} (h : first < last) :
    outputs kernel rate full first last =
      resampledAt kernel rate full first :: outputs kernel rate full (first + 1) last := by
  unfold outputs
  rw [show last - first = (last - (first + 1)) + 1 by omega, List.range'_succ, List.map_cons]

theorem outputs_append {first mid last : Nat} (h1 : first ≤ mid) (h2 : mid ≤ last) :
    outputs kernel rate full first mid ++ outputs kernel rate full mid last =
      outputs kernel rate full first last := by
  unfold outputs
  rw [← List.map_append, show mid = first + (mid - first) by omega,
    show last - first = (mid - first) + (last - mid) by omega, ← List.range'_append_1]
  congr 3 <;> omega

theorem emitReady_eq {rel : Nat} (hrel : s.relative = some rel) :
    s.emitReady kernel =
      if rel + s.halfWidth < s.history.length then
        (s.sampleAt kernel rel s.nextPosition.2).bind fun y =>
          (emitReady kernel { s with emitted := s.emitted + 1 }).map fun r => (r.1, y :: r.2)
      else some (s, []) := by
  rw [emitReady]
  split
  · rename_i hnone
    rw [hrel] at hnone
    cases hnone
  · rename_i rel' hrel'
    rw [hrel] at hrel'
    obtain rfl := Option.some.inj hrel'
    split <;> rfl

theorem Fed.next (h : s.Fed full rate fed)
    (hready : centreOf rate s.emitted + halfWidthOf rate < fed) :
    Fed full rate fed { s with emitted := s.emitted + 1 } := by
  have hmono := @centreOf_mono rate s.emitted (s.emitted + 1) (Nat.le_succ _)
  have hlead := h.lead
  exact { h with
    lead := by
      show s.base ≤ (centreOf rate (s.emitted + 1) : Int) + 1 - halfWidthOf rate
      omega
    behind := Or.inr hready }

variable (kernel) in
/-- **the loop of `process` puts out every sample whose kernel lies in the history** -/
theorem emitReady_fed (h : s.Fed full rate fed) (hwide : 1 ≤ halfWidthOf rate) :
    ∃ last, s.emitted ≤ last ∧
      s.emitReady kernel = some ({ s with emitted := last },
        outputs kernel rate full s.emitted last) ∧
      Fed full rate fed { s with emitted := last } ∧
      fed ≤ centreOf rate last + halfWidthOf rate := by
  induction hn : ((s.base + s.history.length) * 16000 - (s.emitted * s.inputRate : Nat)).toNat
    using Nat.strong_induction_on generalizing s with
  | _ n ih =>
  obtain ⟨rel, hrel, hcentre⟩ := h.relative_eq hwide
  have hstop := h.stop
  rw [emitReady_eq hrel]
  split
  · rename_i hready
    rw [h.halfWidth] at hready
    have hless := emitted_lt hrel (show s.base + rel < s.base + s.history.length by omega)
    obtain ⟨last, hle, hemit, hfed, hlast⟩ := ih _ (by rw [← hn]; exact hless)
      (h.next (by omega)) rfl
    refine ⟨last, by dsimp only at hle; omega, ?_, hfed, hlast⟩
    rw [sampleAt_eq h.inputRate h.halfWidth hcentre h.lead hready h.held, hemit,
      outputs_cons (show s.emitted < last from hle)]
    rfl
  · rename_i hready
    rw [h.halfWidth] at hready
    refine ⟨s.emitted, Nat.le_refl _, ?_, h, by omega⟩
    unfold outputs
    rw [Nat.sub_self]
    rfl

variable (kernel) in
/-- **a slice more: the samples it completes come out, the buffer keeps what later ones need** -/
theorem process_fed {input pre post : List α} (h : s.Fed (pre ++ input ++ post) rate pre.length)
    (hwide : 1 ≤ halfWidthOf rate) (hstep : rate ≤ 2 * halfWidthOf rate * 16000) :
    ∃ s', s.emitted ≤ s'.emitted ∧
      s.process kernel input =
        some (s', outputs kernel rate (pre ++ input ++ post) s.emitted s'.emitted) ∧
      Fed (pre ++ input ++ post) rate (pre ++ input).length s' := by
  have hstop := h.stop
  have hfed : Fed (pre ++ input ++ post) rate (pre ++ input).length
      { s with history := s.history ++ input } := by
    refine { h with stop := ?_, held := ?_, behind := ?_ }
    · show s.base + ((s.history ++ input).length : Int) = _
      rw [List.length_append, List.length_append]
      omega
    · intro j hj
      show (s.history ++ input)[j]? = some (signal (pre ++ input ++ post) (s.base + j))
      dsimp only at hj
      rw [List.length_append] at hj
      by_cases hlt : j < s.history.length
      · rw [List.getElem?_append_left hlt]
        exact h.held j hlt
      · obtain ⟨k, rfl⟩ : ∃ k, j = s.history.length + k := ⟨j - s.history.length, by omega⟩
        rw [List.getElem?_append_right (by omega), Nat.add_sub_cancel_left]
        have hindex : s.base + ((s.history.length + k : Nat) : Int) =
            ((pre.length + k : Nat) : Int) := by
          omega
        rw [hindex, ← signal_of_lt (by simp only [List.length_append]; omega),
          List.append_assoc, List.getElem?_append_right (by omega), Nat.add_sub_cancel_left,
          List.getElem?_append_left (by omega)]
    · rcases h.behind with h0 | hb
      · exact Or.inl h0
      · right
        rw [List.length_append]
        show centreOf rate (s.emitted - 1) + halfWidthOf rate < _
        omega
  obtain ⟨last, hle, hemit, hlast, hmore⟩ := emitReady_fed kernel hfed hwide
  have hlead := hlast.lead
  have hend := hlast.stop
  have hcentre := hlast.centre
  -- the next kernel begins before the end of the input
  have hkeep : (centreOf rate last : Int) + 1 - halfWidthOf rate ≤
      ((pre ++ input).length : Int) := by
    rcases hlast.behind with h0 | hb
    · have h0 : last = 0 := h0
      rw [h0]
      unfold centreOf
      omega
    · have hb : centreOf rate (last - 1) + halfWidthOf rate < (pre ++ input).length := hb
      unfold centreOf at hb ⊢
      rcases Nat.eq_zero_or_pos last with h0 | hpos
      · rw [h0]
        omega
      · obtain ⟨m, rfl⟩ : ∃ m, last = m + 1 := ⟨last - 1, by omega⟩
        rw [Nat.add_sub_cancel] at hb
        rw [Nat.add_mul, Nat.one_mul]
        generalize m * rate = p at hb ⊢
        omega
  have hemit : emitReady kernel { s with history := s.history ++ input } =
      some ({ s with history := s.history ++ input, emitted := last },
        outputs kernel rate (pre ++ input ++ post) s.emitted last) := hemit
  dsimp only at hle hlead hend hcentre
  unfold process
  rw [if_neg (by rw [h.passthrough]; exact Bool.false_ne_true), hemit]
  dsimp only [Option.bind_some]
  rw [hcentre]
  generalize hk : (max ((centreOf rate last : Int) - s.base + 1 - s.halfWidth) 0).toNat = keepFrom
  have hkeepFrom : s.base + keepFrom = (centreOf rate last : Int) + 1 - halfWidthOf rate := by
    rw [← hk, h.halfWidth]
    omega
  split
  · unfold drain
    rw [if_neg (by dsimp only; omega)]
    refine ⟨_, ?_, rfl, ?_⟩
    · exact hle
    · refine { hlast with stop := ?_, lead := ?_, held := ?_ }
      · show s.base + keepFrom + (((s.history ++ input).drop keepFrom).length : Int) = _
        rw [List.length_drop]
        omega
      · show s.base + keepFrom ≤ (centreOf rate last : Int) + 1 - halfWidthOf rate
        exact hkeepFrom.le
      · intro j hj
        show ((s.history ++ input).drop keepFrom)[j]? = some (signal _ (s.base + keepFrom + j))
        dsimp only at hj
        rw [List.length_drop] at hj
        rw [List.getElem?_drop]
        have := hlast.held (keepFrom + j) (by dsimp only; omega)
        rw [show s.base + ((keepFrom + j : Nat) : Int) = s.base + keepFrom + j by omega] at this
        exact this
  · exact ⟨_, hle, rfl, hlast⟩

/-! ## the end of the input -/

theorem emitRest_eq {stop : Int} {rel : Nat} (hrel : s.relative = some rel) :
    emitRest kernel stop s =
      if (s.nextPosition.1 : Int) < stop then
        (s.sampleAt kernel rel s.nextPosition.2).bind fun y =>
          (emitRest kernel stop { s with emitted := s.emitted + 1 }).map fun r => (r.1, y :: r.2)
      else some (s, []) := by
  rw [emitRest]
  split
  · split
    · rename_i hnone
      rw [hrel] at hnone
      cases hnone
    · rename_i rel' hrel'
      rw [hrel] at hrel'
      obtain rfl := Option.some.inj hrel'
      rfl
  · rfl

variable (kernel) in
/-- **the loop of `flush` puts out every sample before the end of the input** -/
theorem emitRest_fed {stop : Nat} (h : s.Fed full rate fed) (hwide : 1 ≤ halfWidthOf rate)
    (hpadded : stop + halfWidthOf rate < fed) :
    ∃ last, s.emitted ≤ last ∧
      emitRest kernel stop s = some ({ s with emitted := last },
        outputs kernel rate full s.emitted last) ∧
      stop ≤ centreOf rate last ∧ (last = s.emitted ∨ centreOf rate (last - 1) < stop) := by
  induction hn : ((stop : Int) * 16000 - (s.emitted * s.inputRate : Nat)).toNat
    using Nat.strong_induction_on generalizing s with
  | _ n ih =>
  obtain ⟨rel, hrel, hcentre⟩ := h.relative_eq hwide
  have hstop := h.stop
  rw [emitRest_eq hrel, h.centre]
  split
  · rename_i hmore
    have hless := emitted_lt hrel (show s.base + rel < (stop : Int) by omega)
    obtain ⟨last, hle, hemit, hend, hlast⟩ := ih _ (by rw [← hn]; exact hless)
      (h.next (by omega)) rfl
    dsimp only at hle hlast
    refine ⟨last, by omega, ?_, hend, ?_⟩
    · rw [sampleAt_eq h.inputRate h.halfWidth hcentre h.lead (by omega) h.held, hemit,
        outputs_cons (show s.emitted < last from hle)]
      rfl
    · rcases hlast with rfl | hlast
      · right
        rw [Nat.add_sub_cancel]
        omega
      · exact Or.inr hlast
  · rename_i hmore
    refine ⟨s.emitted, Nat.le_refl _, ?_, by omega, Or.inl rfl⟩
    unfold outputs
    rw [Nat.sub_self]
    rfl

/-- the number of outputs before the end of the input -/
theorem ceil_of_centres {n last : Nat} (hpos : 0 < rate) (hend : n ≤ centreOf rate last)
    (hlast : last = 0 ∨ centreOf rate (last - 1) < n) :
    last = ⌈(n * 16000 : ℚ) / rate⌉₊ := by
  have hrate : (0 : ℚ) < rate := by exact_mod_cast hpos
  unfold centreOf at hend hlast
  have hle : n * 16000 ≤ last * rate := by omega
  rcases Nat.eq_zero_or_pos last with rfl | hlastPos
  · obtain rfl : n = 0 := by omega
    simp
  · have hlt : (last - 1) * rate < n * 16000 := by
      rcases hlast with h0 | hlt
      · omega
      · omega
    symm
    rw [Nat.ceil_eq_iff (by omega)]
    constructor
    · rw [lt_div_iff₀ hrate]
      exact_mod_cast hlt
    · rw [div_le_iff₀ hrate]
      exact_mod_cast hle

variable (kernel) in
/-- **the flush puts out what is left** -/
theorem flush_fed (h : s.Fed full rate full.length) (hpos : 0 < rate)
    (hwide : 1 ≤ halfWidthOf rate) :
    ∃ s', s.emitted ≤ ⌈(full.length * 16000 : ℚ) / rate⌉₊ ∧
      s.flush kernel = some (s',
        outputs kernel rate full s.emitted ⌈(full.length * 16000 : ℚ) / rate⌉₊) := by
  have hstop := h.stop
  have hpadded : Fed full rate (full.length + halfWidthOf rate + 1)
      { s with history := s.history ++ List.replicate (s.halfWidth + 1) 0 } := by
    refine { h with stop := ?_, held := ?_, behind := ?_ }
    · show s.base + ((s.history ++ List.replicate (s.halfWidth + 1) 0).length : Int) = _
      rw [List.length_append, List.length_replicate, h.halfWidth]
      omega
    · intro j hj
      show (s.history ++ List.replicate (s.halfWidth + 1) 0)[j]? = some (signal full (s.base + j))
      dsimp only at hj
      rw [List.length_append, List.length_replicate] at hj
      by_cases hlt : j < s.history.length
      · rw [List.getElem?_append_left hlt]
        exact h.held j hlt
      · rw [List.getElem?_append_right (by omega), List.getElem?_replicate_of_lt (by omega),
          signal_of_ge (by omega)]
    · rcases h.behind with h0 | hb
      · exact Or.inl h0
      · right
        show centreOf rate (s.emitted - 1) + halfWidthOf rate < _
        omega
  obtain ⟨last, hle, hemit, hend, hlast⟩ := emitRest_fed kernel hpadded hwide
    (show full.length + halfWidthOf rate < _ by omega)
  dsimp only at hle hlast
  have hceil : last = ⌈(full.length * 16000 : ℚ) / rate⌉₊ := by
    apply ceil_of_centres hpos hend
    rcases hlast with rfl | hlast
    · rcases h.behind with h0 | hb
      · exact Or.inl h0
      · right
        omega
    · exact Or.inr hlast
  rw [← hceil]
  unfold flush
  rw [if_neg (by rw [h.passthrough]; exact Bool.false_ne_true), hstop]
  dsimp only
  rw [hemit]
  exact ⟨_, hle, rfl⟩

/-! ## the whole input -/

theorem new_fed (inputRate : UInt32) (hrate : max inputRate.toNat 1 ≠ 16000) :
    Fed full (max inputRate.toNat 1) 0 (new inputRate) := by
  refine ⟨rfl, rfl, decide_eq_false hrate, ?_, ?_, ?_, Or.inl rfl⟩
  · show -(halfWidthOf _ : Int) + ((List.replicate (halfWidthOf _) (0 : α)).length : Int) = _
    rw [List.length_replicate]
    omega
  · show -(halfWidthOf _ : Int) ≤ (centreOf _ 0 : Int) + 1 - halfWidthOf _
    omega
  · intro j hj
    show (List.replicate (halfWidthOf _) (0 : α))[j]? =
      some (signal full (-(halfWidthOf _ : Int) + j))
    have hj : j < (List.replicate (halfWidthOf (max inputRate.toNat 1)) (0 : α)).length := hj
    rw [List.length_replicate] at hj
    rw [List.getElem?_replicate_of_lt hj, signal_of_neg (by omega)]

variable (kernel) in
/-- **the slices put out a beginning of the outputs** -/
theorem processAll_fed {inputs : List (List α)} {pre : List α}
    (h : s.Fed (pre ++ inputs.flatten) rate pre.length)
    (hwide : 1 ≤ halfWidthOf rate) (hstep : rate ≤ 2 * halfWidthOf rate * 16000) :
    ∃ s', s.emitted ≤ s'.emitted ∧
      s.processAll kernel inputs =
        some (s', outputs kernel rate (pre ++ inputs.flatten) s.emitted s'.emitted) ∧
      Fed (pre ++ inputs.flatten) rate (pre ++ inputs.flatten).length s' := by
  induction inputs generalizing pre s with
  | nil =>
    refine ⟨s, Nat.le_refl _, ?_, ?_⟩
    · unfold outputs
      rw [Nat.sub_self]
      rfl
    · rw [List.flatten_nil, List.append_nil] at h ⊢
      exact h
  | cons input inputs ih =>
    have hfull : pre ++ (input :: inputs).flatten = pre ++ input ++ inputs.flatten := by
      rw [List.flatten_cons, List.append_assoc]
    rw [hfull] at h ⊢
    obtain ⟨mid, hle1, hprocess, hmid⟩ := process_fed kernel h hwide hstep
    obtain ⟨last, hle2, hrest, hlast⟩ := ih hmid
    refine ⟨last, Nat.le_trans hle1 hle2, ?_, hlast⟩
    rw [processAll, hprocess, Option.bind_some]
    dsimp only
    rw [hrest, Option.map_some, outputs_append hle1 hle2]

theorem processAll_passthrough (h : s.passthrough = true) (inputs : List (List α)) :
    s.processAll kernel inputs = some (s, inputs.flatten) := by
  induction inputs with
  | nil => rfl
  | cons input inputs ih =>
    rw [processAll, process, if_pos h, Option.bind_some, ih]
    rfl

end Resampler

open Resampler

/-- the output at any rate other than the target's -/
theorem resample_outputs (kernel : ℚ → α) (inputRate : UInt32) (inputs : List (List α))
    (hrate : max inputRate.toNat 1 ≠ 16000) :
    resample kernel inputRate inputs =
      some (outputs kernel (max inputRate.toNat 1) inputs.flatten 0
        ⌈(inputs.flatten.length * 16000 : ℚ) / (max inputRate.toNat 1 : Nat)⌉₊) := by
  have hpos : 0 < max inputRate.toNat 1 := by omega
  have hlt : max inputRate.toNat 1 < 2 ^ 32 := by
    have := inputRate.toNat_lt
    omega
  obtain ⟨hwide, hstep⟩ := halfWidthOf_bounds hpos hlt
  have hnew : Fed ([] ++ inputs.flatten) _ ([] : List α).length (new inputRate) :=
    new_fed inputRate hrate
  obtain ⟨s, hle, hall, hfed⟩ := processAll_fed kernel hnew hwide hstep
  obtain ⟨s', hle', hflush⟩ := flush_fed kernel hfed hpos hwide
  unfold resample
  rw [hall, Option.bind_some]
  dsimp only
  rw [hflush, Option.map_some]
  dsimp only
  rw [outputs_append hle hle']
  rfl

/-- the input is passed through at the target's rate -/
theorem resample_passthrough (kernel : ℚ → α) (inputRate : UInt32) (inputs : List (List α))
    (hrate : max inputRate.toNat 1 = 16000) :
    resample kernel inputRate inputs = some inputs.flatten := by
  have hpass : (new inputRate : Resampler α).passthrough = true := decide_eq_true hrate
  unfold resample
  rw [processAll_passthrough hpass, Option.bind_some, flush, if_pos hpass, Option.map_some,
    List.append_nil]

/-- the product that the source computes for each position, the one behind the last output
included, fits 64 bits in the first `2 ^ 50` samples -/
theorem position_lt {kernel : ℚ → α} {inputRate : UInt32} {inputs : List (List α)} {out : List α}
    (h : resample kernel inputRate inputs = some out) (hlen : inputs.flatten.length < 2 ^ 50)
    {n : Nat} (hn : n ≤ out.length) : n * max inputRate.toNat 1 < 2 ^ 64 := by
  have hpos : 0 < max inputRate.toNat 1 := by omega
  have hlt : max inputRate.toNat 1 < 2 ^ 32 := by
    have := inputRate.toNat_lt
    omega
  by_cases hrate : max inputRate.toNat 1 = 16000
  · rw [resample_passthrough _ _ _ hrate] at h
    obtain rfl := Option.some.inj h
    rw [hrate]
    omega
  · rw [resample_outputs _ _ _ hrate] at h
    obtain rfl := Option.some.inj h
    rw [outputs_length, Nat.sub_zero] at hn
    generalize max inputRate.toNat 1 = rate at *
    have hn' : n < (inputs.flatten.length * 16000 : ℚ) / (rate : Nat) + 1 :=
      lt_of_le_of_lt (by exact_mod_cast hn) (Nat.ceil_lt_add_one (by positivity))
    have hrateQ : (0 : ℚ) < (rate : Nat) := by exact_mod_cast hpos
    have hbound : (n : ℚ) * rate < inputs.flatten.length * 16000 + rate := by
      calc (n : ℚ) * rate
          < ((inputs.flatten.length * 16000 : ℚ) / rate + 1) * rate := by gcongr
        _ = inputs.flatten.length * 16000 + rate := by field_simp
    have hbound : n * rate < inputs.flatten.length * 16000 + rate := by exact_mod_cast hbound
    omega

/-- **the output does not depend on how the input is split: it is the input sampled through the
kernel, and no step of it reads or drains outside the history** -/
theorem resample_eq (kernel : ℚ → α) (inputRate : UInt32) (inputs : List (List α)) :
    resample kernel inputRate inputs = resample kernel inputRate [inputs.flatten] ∧
    ∃ out, resample kernel inputRate inputs = some out ∧
      out.length =
        ⌈(inputs.flatten.length * 16000 : ℚ) / (max inputRate.toNat 1 : Nat)⌉₊ ∧
      if max inputRate.toNat 1 = 16000 then out = inputs.flatten
      else ∀ n (_ : n < out.length),
        out[n] = resampledAt kernel (max inputRate.toNat 1) inputs.flatten n := by
  have hone : ([inputs.flatten] : List (List α)).flatten = inputs.flatten := List.flatten_singleton
  by_cases hrate : max inputRate.toNat 1 = 16000
  · refine ⟨?_, inputs.flatten, resample_passthrough kernel inputRate inputs hrate, ?_, ?_⟩
    · rw [resample_passthrough _ _ _ hrate, resample_passthrough _ _ _ hrate, hone]
    · rw [hrate, Nat.cast_ofNat, mul_div_cancel_right₀ _ (by norm_num), Nat.ceil_natCast]
    · rw [if_pos hrate]
  · refine ⟨?_, _, resample_outputs kernel inputRate inputs hrate, ?_, ?_⟩
    · rw [resample_outputs _ _ _ hrate, resample_outputs _ _ _ hrate, hone]
    · rw [outputs_length, Nat.sub_zero]
    · rw [if_neg hrate]
      intro n hn
      rw [outputs_getElem, Nat.zero_add]

end

end Voisu.WindowsApp
