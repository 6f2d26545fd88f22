import Mathlib.Data.List.TakeWhile

/-!
# Realigning two sequences by looking one symbol ahead

A scan with two pointers pairs the symbols of two sequences, the second made from the first by leaving
symbols out and putting symbols in.  It looks one symbol ahead on both sides and knows nothing of how
the second was made.

* `realign`              the scan;
* `Alignment`            how the second sequence was made: gaps, and the symbols shared between them;
* `Alignment.InStep`     what each gap must not hold for the scan to find the shared symbol behind it;
* `realign_of_inStep`    in step, the scan pairs the shared symbols and no others;
* `realign_stray`        out of step, it pairs a symbol of a gap, where a gap puts in one at most;
* `align`                the alignment for a given relation of origin.
-/

namespace Voisu.Lib

section
variable {α β : Type} (same : α → β → Bool)

def realign : List α → List β → List (α × β)
  | b :: bs, r :: rs =>
    if same b r then (b, r) :: realign bs rs
    -- one symbol was left out
    else if bs.head?.any (same · r) then realign bs (r :: rs)
    -- one symbol was put in
    else if rs.head?.any (same b) then realign (b :: bs) rs
    -- one symbol was replaced
    else if bs.head?.any (fun n => rs.head?.any (same n)) then realign bs rs
    -- the longer side goes on
    else if rs.length < bs.length then realign bs (r :: rs)
    else if bs.length < rs.length then realign (b :: bs) rs
    else realign bs rs
  | _, _ => []
termination_by bs rs => bs.length + rs.length
decreasing_by all_goals simp only [List.length_cons]; omega

end

/-! ## alignments -/

/-- `gone` is left out and `fresh` put in, then a symbol is shared -/
inductive Alignment (α β : Type) where
  | last (gone : List α) (fresh : List β)
  | shared (gone : List α) (fresh : List β) (b : α) (r : β) (rest : Alignment α β)

namespace Alignment
variable {α β : Type}

def base : Alignment α β → List α
  | last gone _ => gone
  | shared gone _ b _ rest => gone ++ b :: rest.base

def result : Alignment α β → List β
  | last _ fresh => fresh
  | shared _ fresh _ r rest => fresh ++ r :: rest.result

def pairs : Alignment α β → List (α × β)
  | last _ _ => []
  | shared _ _ b r rest => (b, r) :: rest.pairs

/-- all symbols that are left out -/
def gone : Alignment α β → List α
  | last gone _ => gone
  | shared gone _ _ _ rest => gone ++ rest.gone

/-- all symbols that are put in -/
def fresh : Alignment α β → List β
  | last _ fresh => fresh
  | shared _ fresh _ _ rest => fresh ++ rest.fresh

/-- no gap puts in two symbols -/
def Thin : Alignment α β → Prop
  | last _ fresh => fresh.length ≤ 1
  | shared _ fresh _ _ rest => fresh.length ≤ 1 ∧ rest.Thin

/-- behind a shared symbol the second sequence is never the longer one -/
def Shrinks : Alignment α β → Prop
  | last _ _ => True
  | shared _ _ _ _ rest => rest.result.length ≤ rest.base.length ∧ rest.Shrinks

end Alignment

/-! ## staying in step -/

section
variable {α β : Type} {same : α → β → Bool}

variable (same) in
/-- no symbol of one list is taken for one of the other -/
def Apart (ws : List α) (xs : List β) : Prop := ∀ w ∈ ws, ∀ x ∈ xs, same w x = false

instance (ws : List α) (xs : List β) : Decidable (Apart same ws xs) :=
  inferInstanceAs (Decidable (∀ w ∈ ws, ∀ x ∈ xs, same w x = false))

theorem Apart.head {w : α} {x : β} {ws : List α} {xs : List β} (h : Apart same (w :: ws) (x :: xs)) :
    same w x = false := h w (by simp) x (by simp)

theorem Apart.mono {ws ws' : List α} {xs xs' : List β} (h : Apart same ws xs) (hw : ws' ⊆ ws)
    (hx : xs' ⊆ xs) : Apart same ws' xs' := fun w hmem x hmem' => h w (hw hmem) x (hx hmem')

variable (same) in
/-- the gap `gone`, `fresh` before the shared `b` and `r`, with `bs` and `rs` behind them, cannot lead
the scan astray -/
structure GapInStep (gone : List α) (fresh : List β) (b : α) (r : β) (bs : List α) (rs : List β) :
    Prop where
  apart : Apart same gone (fresh ++ [r])
  shared : Apart same [b] fresh
  /-- two symbols left out together are compared with the symbol behind the shared one -/
  ahead : fresh = [] → 2 ≤ gone.length → Apart same gone rs.head?.toList
  /-- two symbols put in together are compared with the symbol behind the shared one -/
  behind : 2 ≤ fresh.length ∨ gone = [] → Apart same bs.head?.toList fresh
  /-- two symbols put in together are passed by the lengths that remain -/
  surplus : fresh.length ≤ 1 ∨ bs.length ≤ rs.length + 1

instance (gone : List α) (fresh : List β) (b : α) (r : β) (bs : List α) (rs : List β) :
    Decidable (GapInStep same gone fresh b r bs rs) :=
  @decidable_of_iff _ (Apart same gone (fresh ++ [r]) ∧ Apart same [b] fresh ∧
      (fresh.length = 0 → 2 ≤ gone.length → Apart same gone rs.head?.toList) ∧
      (2 ≤ fresh.length ∨ gone.length = 0 → Apart same bs.head?.toList fresh) ∧
      (fresh.length ≤ 1 ∨ bs.length ≤ rs.length + 1))
    (by simp only [List.length_eq_zero_iff]
        exact ⟨fun ⟨h₁, h₂, h₃, h₄, h₅⟩ => ⟨h₁, h₂, h₃, h₄, h₅⟩,
          fun ⟨h₁, h₂, h₃, h₄, h₅⟩ => ⟨h₁, h₂, h₃, h₄, h₅⟩⟩)
    inferInstance

variable (same) in
def Alignment.InStep : Alignment α β → Prop
  | .last gone fresh => Apart same gone fresh
  | .shared gone fresh b r rest =>
    GapInStep same gone fresh b r rest.base rest.result ∧ rest.InStep

instance Alignment.decidableInStep : (a : Alignment α β) → Decidable (a.InStep same)
  | .last gone fresh => inferInstanceAs (Decidable (Apart same gone fresh))
  | .shared gone fresh b r rest =>
    have := Alignment.decidableInStep rest
    inferInstanceAs (Decidable (GapInStep same gone fresh b r rest.base rest.result ∧ rest.InStep same))

/-! ## one step of the scan -/

section
variable {b n : α} {r q : β} {bs : List α} {rs : List β}

theorem realign_match (h : same b r = true) :
    realign same (b :: bs) (r :: rs) = (b, r) :: realign same bs rs := by
  rw [realign, if_pos h]

theorem realign_leftOut (h : same b r = false) (hn : same n r = true) :
    realign same (b :: n :: bs) (r :: rs) = (n, r) :: realign same bs rs := by
  rw [realign, if_neg (by simp [h]), if_pos (by simp [hn]), realign_match hn]

theorem realign_putIn (h : same b r = false) (hn : bs.head?.any (same · r) = false)
    (hq : same b q = true) :
    realign same (b :: bs) (r :: q :: rs) = (b, q) :: realign same bs rs := by
  rw [realign, if_neg (by simp [h]), if_neg (by simp [hn]), if_pos (by simp [hq]), realign_match hq]

theorem realign_replaced (h : same b r = false) (hn : same n r = false) (hq : same b q = false)
    (hnq : same n q = true) :
    realign same (b :: n :: bs) (r :: q :: rs) = (n, q) :: realign same bs rs := by
  rw [realign, if_neg (by simp [h]), if_neg (by simp [hn]), if_neg (by simp [hq]),
    if_pos (by simp [hnq]), realign_match hnq]

/-- nothing ahead looks the same: the lengths decide -/
theorem realign_drain (h : same b r = false) (hn : bs.head?.any (same · r) = false)
    (hq : rs.head?.any (same b) = false)
    (hnq : bs.head?.any (fun n => rs.head?.any (same n)) = false) :
    realign same (b :: bs) (r :: rs) =
      if rs.length < bs.length then realign same bs (r :: rs)
      else if bs.length < rs.length then realign same (b :: bs) rs
      else realign same bs rs := by
  rw [realign, if_neg (by simp [h]), if_neg (by simp [hn]), if_neg (by simp [hq]),
    if_neg (by simp [hnq])]

end

theorem realign_same (bs : List α) (rs : List β) : ∀ p ∈ realign same bs rs, same p.1 p.2 = true := by
  induction bs, rs using realign.induct same with
  | case1 b bs r rs h ih =>
    rw [realign, if_pos h]
    intro p hp
    rcases List.mem_cons.mp hp with rfl | hp
    · exact h
    · exact ih p hp
  | case2 b bs r rs h hn ih => rwa [realign, if_neg h, if_pos hn]
  | case3 b bs r rs h hn hq ih => rwa [realign, if_neg h, if_neg hn, if_pos hq]
  | case4 b bs r rs h hn hq hnq ih => rwa [realign, if_neg h, if_neg hn, if_neg hq, if_pos hnq]
  | case5 b bs r rs h hn hq hnq hlt ih =>
    rwa [realign, if_neg h, if_neg hn, if_neg hq, if_neg hnq, if_pos hlt]
  | case6 b bs r rs h hn hq hnq hlt hgt ih =>
    rwa [realign, if_neg h, if_neg hn, if_neg hq, if_neg hnq, if_neg hlt, if_pos hgt]
  | case7 b bs r rs h hn hq hnq hlt hgt ih =>
    rwa [realign, if_neg h, if_neg hn, if_neg hq, if_neg hnq, if_neg hlt, if_neg hgt]
  | case8 bs rs h =>
    rw [realign]
    · exact fun p hp => by cases hp
    · exact h

/-- the pairs keep the order on both sides -/
theorem realign_sublist (bs : List α) (rs : List β) :
    ((realign same bs rs).map Prod.fst).Sublist bs ∧
      ((realign same bs rs).map Prod.snd).Sublist rs := by
  induction bs, rs using realign.induct same with
  | case1 b bs r rs h ih =>
    rw [realign, if_pos h]
    exact ⟨ih.1.cons_cons b, ih.2.cons_cons r⟩
  | case2 b bs r rs h hn ih =>
    rw [realign, if_neg h, if_pos hn]
    exact ⟨ih.1.cons b, ih.2⟩
  | case3 b bs r rs h hn hq ih =>
    rw [realign, if_neg h, if_neg hn, if_pos hq]
    exact ⟨ih.1, ih.2.cons r⟩
  | case4 b bs r rs h hn hq hnq ih =>
    rw [realign, if_neg h, if_neg hn, if_neg hq, if_pos hnq]
    exact ⟨ih.1.cons b, ih.2.cons r⟩
  | case5 b bs r rs h hn hq hnq hlt ih =>
    rw [realign, if_neg h, if_neg hn, if_neg hq, if_neg hnq, if_pos hlt]
    exact ⟨ih.1.cons b, ih.2⟩
  | case6 b bs r rs h hn hq hnq hlt hgt ih =>
    rw [realign, if_neg h, if_neg hn, if_neg hq, if_neg hnq, if_neg hlt, if_pos hgt]
    exact ⟨ih.1, ih.2.cons r⟩
  | case7 b bs r rs h hn hq hnq hlt hgt ih =>
    rw [realign, if_neg h, if_neg hn, if_neg hq, if_neg hnq, if_neg hlt, if_neg hgt]
    exact ⟨ih.1.cons b, ih.2.cons r⟩
  | case8 bs rs h =>
    rw [realign]
    · exact ⟨List.nil_sublist _, List.nil_sublist _⟩
    · exact h

/-! ## in step -/

section
variable {b : α} {r : β} {bs : List α} {rs : List β}

/-- a gap that only puts in -/
theorem realign_fresh (hshared : same b r = true) (fresh : List β)
    (h : GapInStep same [] fresh b r bs rs) :
    realign same (b :: bs) (fresh ++ r :: rs) = (b, r) :: realign same bs rs := by
  induction fresh with
  | nil => exact realign_match hshared
  | cons x fresh ih =>
    have hn := h.behind (Or.inr rfl)
    have hnx : bs.head?.any (same · x) = false := by
      cases bs with
      | nil => rfl
      | cons n bs => exact hn n (by simp) x (by simp)
    cases fresh with
    | nil => exact realign_putIn h.shared.head hnx hshared
    | cons y fresh =>
      have hlong : bs.length ≤ rs.length + 1 := by simpa using h.surplus
      have hy : same b y = false := h.shared b (by simp) y (by simp)
      have hny : bs.head?.any (same · y) = false := by
        cases bs with
        | nil => rfl
        | cons n bs => exact hn n (by simp) y (by simp)
      have hdrain := @realign_drain _ _ same b x bs (y :: (fresh ++ r :: rs)) h.shared.head hnx hy hny
      rw [List.cons_append, List.cons_append, hdrain, if_neg (by simp; omega), if_pos (by simp; omega)]
      exact ih ⟨fun w hw => absurd hw (by simp), h.shared.mono (by simp) (by simp),
        fun h => absurd h (by simp), fun _ => hn.mono (by simp) (by simp), Or.inr hlong⟩

/-- a gap that only leaves out -/
theorem realign_gone (hshared : same b r = true) (hlen : rs.length ≤ bs.length) (gone : List α)
    (h : GapInStep same gone [] b r bs rs) :
    realign same (gone ++ b :: bs) (r :: rs) = (b, r) :: realign same bs rs := by
  induction gone with
  | nil => exact realign_match hshared
  | cons w gone ih =>
    cases gone with
    | nil => exact realign_leftOut h.apart.head hshared
    | cons v gone =>
      have hq := h.ahead rfl (by simp)
      have hv : same v r = false := h.apart v (by simp) r (by simp)
      have hwq : rs.head?.any (same w) = false := by
        cases rs with
        | nil => rfl
        | cons q rs => exact hq w (by simp) q (by simp)
      have hvq : rs.head?.any (same v) = false := by
        cases rs with
        | nil => rfl
        | cons q rs => exact hq v (by simp) q (by simp)
      have hdrain := @realign_drain _ _ same w r (v :: (gone ++ b :: bs)) rs h.apart.head hv hwq hvq
      rw [List.cons_append, List.cons_append, hdrain, if_pos (by simp; omega)]
      exact ih ⟨h.apart.mono (by simp) (by simp), h.shared,
        fun _ _ => hq.mono (by simp) (by simp), fun h => absurd h (by simp), h.surplus⟩

/-- **in step, the scan passes a gap and pairs the shared symbols behind it** -/
theorem realign_gap (hshared : same b r = true) (hlen : rs.length ≤ bs.length) (gone : List α)
    (fresh : List β) (h : GapInStep same gone fresh b r bs rs) :
    realign same (gone ++ b :: bs) (fresh ++ r :: rs) = (b, r) :: realign same bs rs := by
  induction hn : gone.length + fresh.length using Nat.strongRecOn generalizing gone fresh with
  | _ n ih =>
    cases gone with
    | nil => exact realign_fresh hshared fresh h
    | cons w gone =>
      cases fresh with
      | nil => exact realign_gone hshared hlen _ h
      | cons x fresh =>
        have hw (y : β) (hy : y ∈ x :: fresh ++ [r]) : same w y = false := h.apart w (by simp) y hy
        have hv (v : α) (hv : v ∈ gone ++ [b]) (y : β) (hy : y ∈ x :: fresh) : same v y = false := by
          rcases List.mem_append.mp hv with hv | hv
          · exact h.apart v (by simp [hv]) y (List.mem_append_left _ hy)
          · exact h.shared v hv y hy
        by_cases hboth : gone = [] ∧ fresh = []
        · obtain ⟨rfl, rfl⟩ := hboth
          exact realign_replaced (hw x (by simp)) (hv b (by simp) x (by simp)) (hw r (by simp)) hshared
        have hnx : (gone ++ b :: bs).head?.any (same · x) = false := by
          cases gone with
          | nil => exact hv b (by simp) x (by simp)
          | cons v gone => exact hv v (by simp) x (by simp)
        have hwq : (fresh ++ r :: rs).head?.any (same w) = false := by
          cases fresh with
          | nil => exact hw r (by simp)
          | cons y fresh => exact hw y (by simp)
        have hnq : (gone ++ b :: bs).head?.any
            (fun n => (fresh ++ r :: rs).head?.any (same n)) = false := by
          cases gone with
          | nil =>
            cases fresh with
            | nil => exact absurd ⟨rfl, rfl⟩ hboth
            | cons y fresh => exact hv b (by simp) y (by simp)
          | cons v gone =>
            cases fresh with
            | nil => exact h.apart v (by simp) r (by simp)
            | cons y fresh => exact hv v (by simp) y (by simp)
        rw [List.cons_append, List.cons_append, realign_drain (hw x (by simp)) hnx hwq hnq]
        simp only [List.length_append, List.length_cons]
        have hlens : (gone.length + fresh.length + 2 = n) := by
          simp only [List.length_cons] at hn
          omega
        split
        · -- the first sequence goes on
          refine ih _ (by simp only [List.length_cons]; omega) gone (x :: fresh)
            ⟨h.apart.mono (by simp) (by simp), h.shared, fun h => absurd h (by simp), ?_, h.surplus⟩ rfl
          rintro (hlong | hempty)
          · exact h.behind (Or.inl hlong)
          · exact h.behind (Or.inl (by
              cases fresh with
              | nil => exact absurd ⟨hempty, rfl⟩ hboth
              | cons y fresh => simp))
        · split
          · -- the second one does
            refine ih _ (by simp only [List.length_cons]; omega) (w :: gone) fresh
              ⟨h.apart.mono (by simp) (by simp), h.shared.mono (by simp) (by simp), ?_, ?_, ?_⟩ rfl
            · intro hempty
              have hzero : fresh.length = 0 := by rw [hempty]; rfl
              omega
            · rintro (hlong | hempty)
              · exact (h.behind (Or.inl (by simp; omega))).mono (by simp) (by simp)
              · cases hempty
            · exact h.surplus.imp_left fun h => by simp only [List.length_cons] at h; omega
          · -- both do
            refine ih _ (by omega) gone fresh
              ⟨h.apart.mono (by simp) (by simp), h.shared.mono (by simp) (by simp), ?_, ?_, ?_⟩ rfl
            · intro hempty htwo
              have hzero : fresh.length = 0 := by rw [hempty]; rfl
              omega
            · rintro (hlong | hempty)
              · exact (h.behind (Or.inl (by simp; omega))).mono (by simp) (by simp)
              · cases fresh with
                | nil => exact absurd ⟨hempty, rfl⟩ hboth
                | cons y fresh => exact (h.behind (Or.inl (by simp))).mono (by simp) (by simp)
            · exact h.surplus.imp_left fun h => by simp only [List.length_cons] at h; omega

theorem realign_apart {ws : List α} {xs : List β} (h : Apart same ws xs) :
    realign same ws xs = [] := by
  induction hn : ws.length + xs.length using Nat.strongRecOn generalizing ws xs with
  | _ n ih =>
    match ws, xs with
    | [], _ => rw [realign]; simp
    | _ :: _, [] => rw [realign]; simp
    | w :: ws, x :: xs =>
      have hsub := fun {ws' : List α} {xs' : List β} (hw : ws' ⊆ w :: ws) (hx : xs' ⊆ x :: xs)
          (hlt : ws'.length + xs'.length < n) => ih _ hlt (h.mono hw hx) rfl
      simp only [List.length_cons] at hn
      rw [realign]
      split
      · rename_i hsame
        rw [h.head] at hsame
        cases hsame
      · repeat' split
        all_goals
          refine hsub (by simp) (by simp) ?_
          first
          | omega
          | rw [List.length_cons]
            omega

end

/-- **in step, the scan pairs the shared symbols and no others** -/
theorem realign_of_inStep {a : Alignment α β} (hshared : ∀ p ∈ a.pairs, same p.1 p.2 = true)
    (hshrinks : a.Shrinks) (h : a.InStep same) : realign same a.base a.result = a.pairs := by
  induction a with
  | last gone fresh => exact realign_apart h
  | shared gone fresh b r rest ih =>
    rw [Alignment.base, Alignment.result, realign_gap (hshared (b, r) (by simp [Alignment.pairs]))
      hshrinks.1 gone fresh h.1, ih (fun p hp => hshared p (by simp [Alignment.pairs, hp])) hshrinks.2
      h.2]
    rfl

/-! ## out of step -/

section
variable {b : α} {r : β} {bs : List α} {rs : List β}

/-- a gap that puts in nothing -/
theorem realign_gone_stray (hlen : rs.length ≤ bs.length) (gone : List α)
    (h : ¬ GapInStep same gone [] b r bs rs) :
    ∃ p ∈ realign same (gone ++ b :: bs) (r :: rs), p.1 ∈ gone := by
  induction gone with
  | nil =>
    exact absurd ⟨fun w hw => absurd hw (by simp), fun w _ x hx => absurd hx (by simp),
      fun _ h => absurd h (by simp), fun _ n _ x hx => absurd hx (by simp), Or.inl (by simp)⟩ h
  | cons w gone ih =>
    rw [List.cons_append]
    by_cases hw : same w r = true
    · exact ⟨(w, r), by rw [realign_match hw]; simp, by simp⟩
    rw [Bool.not_eq_true] at hw
    cases gone with
    | nil =>
      refine absurd ⟨?_, fun w _ x hx => absurd hx (by simp), fun _ h => absurd h (by simp),
        fun _ n _ x hx => absurd hx (by simp), Or.inl (by simp)⟩ h
      simpa [Apart] using hw
    | cons v gone =>
      rw [List.cons_append] at ih ⊢
      by_cases hv : same v r = true
      · exact ⟨(v, r), by rw [realign_leftOut hw hv]; simp, by simp⟩
      rw [Bool.not_eq_true] at hv
      by_cases hwq : rs.head?.any (same w) = true
      · obtain ⟨q, rs, rfl⟩ : ∃ q rs', rs = q :: rs' := by
          cases rs with
          | nil => cases hwq
          | cons q rs => exact ⟨q, rs, rfl⟩
        exact ⟨(w, q), by rw [realign_putIn hw (by simpa using hv) (by simpa using hwq)]; simp,
          by simp⟩
      rw [Bool.not_eq_true] at hwq
      by_cases hvq : rs.head?.any (same v) = true
      · obtain ⟨q, rs, rfl⟩ : ∃ q rs', rs = q :: rs' := by
          cases rs with
          | nil => cases hvq
          | cons q rs => exact ⟨q, rs, rfl⟩
        exact ⟨(v, q), by
          rw [realign_replaced hw hv (by simpa using hwq) (by simpa using hvq)]; simp, by simp⟩
      rw [Bool.not_eq_true] at hvq
      have hdrain := @realign_drain _ _ same w r (v :: (gone ++ b :: bs)) rs hw hv hwq hvq
      rw [hdrain, if_pos (by simp; omega)]
      have hrest : ¬ GapInStep same (v :: gone) [] b r bs rs := by
        intro hok
        apply h
        refine ⟨?_, hok.shared, fun _ _ => ?_, fun _ n _ x hx => absurd hx (by simp), hok.surplus⟩
        · intro u hu x hx
          rcases List.mem_cons.mp hu with rfl | hu
          · rw [List.mem_singleton.mp hx]
            exact hw
          · exact hok.apart u hu x hx
        · intro u hu x hx
          cases rs with
          | nil => cases hx
          | cons q rs =>
            obtain rfl : x = q := by simpa using hx
            rcases List.mem_cons.mp hu with rfl | hu
            · exact hwq
            · rcases List.mem_cons.mp hu with rfl | hmem
              · exact hvq
              · have hpos := List.length_pos_of_mem hmem
                exact hok.ahead rfl (by simp; omega) u hu x (by simp)
      obtain ⟨p, hp, hmem⟩ := ih hrest
      exact ⟨p, hp, List.mem_cons_of_mem _ hmem⟩

/-- a gap that puts in one symbol -/
theorem realign_single_stray (hlen : rs.length ≤ bs.length) (x : β) (gone : List α)
    (h : ¬ GapInStep same gone [x] b r bs rs) :
    ∃ p ∈ realign same (gone ++ b :: bs) (x :: r :: rs), p.1 ∈ gone ∨ p.2 = x := by
  induction gone with
  | nil =>
    rw [List.nil_append]
    by_cases hb : same b x = true
    · exact ⟨(b, x), by rw [realign_match hb]; simp, Or.inr rfl⟩
    rw [Bool.not_eq_true] at hb
    by_cases hn : Apart same bs.head?.toList [x]
    · refine absurd ⟨fun w hw => absurd hw (by simp), ?_, fun h => absurd h (by simp), fun _ => hn,
        Or.inl (by simp)⟩ h
      simpa [Apart] using hb
    · cases bs with
      | nil => exact absurd (fun w hw => absurd hw (by simp)) hn
      | cons n bs =>
        have hnx : same n x = true := by simpa [Apart] using hn
        exact ⟨(n, x), by rw [realign_leftOut hb hnx]; simp, Or.inr rfl⟩
  | cons w gone ih =>
    rw [List.cons_append]
    by_cases hw : same w x = true
    · exact ⟨(w, x), by rw [realign_match hw]; simp, Or.inr rfl⟩
    rw [Bool.not_eq_true] at hw
    obtain ⟨n, ns, hns⟩ : ∃ n ns, gone ++ b :: bs = n :: ns := by
      cases gone with
      | nil => exact ⟨b, bs, rfl⟩
      | cons v gone => exact ⟨v, gone ++ b :: bs, rfl⟩
    rw [hns] at ih ⊢
    by_cases hn : same n x = true
    · exact ⟨(n, x), by rw [realign_leftOut hw hn]; simp, Or.inr rfl⟩
    rw [Bool.not_eq_true] at hn
    by_cases hwr : same w r = true
    · exact ⟨(w, r), by rw [realign_putIn hw (by simpa using hn) hwr]; simp, Or.inl (by simp)⟩
    rw [Bool.not_eq_true] at hwr
    cases gone with
    | nil =>
      obtain ⟨rfl, rfl⟩ := List.cons.inj hns
      refine absurd ⟨?_, ?_, fun h => absurd h (by simp), ?_, Or.inl (by simp)⟩ h
      · simpa [Apart] using ⟨hw, hwr⟩
      · simpa [Apart] using hn
      · rintro (hlong | hempty)
        · exact absurd hlong (by simp)
        · cases hempty
    | cons v gone =>
      rw [List.cons_append] at hns
      obtain ⟨rfl, rfl⟩ := List.cons.inj hns
      by_cases hvr : same v r = true
      · exact ⟨(v, r), by rw [realign_replaced hw hn hwr hvr]; simp, Or.inl (by simp)⟩
      rw [Bool.not_eq_true] at hvr
      have hdrain := @realign_drain _ _ same w x (v :: (gone ++ b :: bs)) (r :: rs) hw hn hwr hvr
      rw [hdrain, if_pos (by simp; omega)]
      have hrest : ¬ GapInStep same (v :: gone) [x] b r bs rs := by
        intro hok
        apply h
        refine ⟨?_, hok.shared, fun h => absurd h (by simp), ?_, hok.surplus⟩
        · intro u hu y hy
          rcases List.mem_cons.mp hu with rfl | hu
          · rcases List.mem_append.mp hy with hy | hy
            · rw [List.mem_singleton.mp hy]
              exact hw
            · rw [List.mem_singleton.mp hy]
              exact hwr
          · exact hok.apart u hu y hy
        · rintro (hlong | hempty)
          · exact absurd hlong (by simp)
          · cases hempty
      obtain ⟨p, hp, hmem⟩ := ih hrest
      exact ⟨p, hp, hmem.imp_left (List.mem_cons_of_mem _)⟩

theorem realign_last_stray (x : β) (gone : List α) (h : ¬ Apart same gone [x]) :
    realign same gone [x] ≠ [] := by
  induction gone with
  | nil => exact absurd (fun w hw => absurd hw (by simp)) h
  | cons w gone ih =>
    by_cases hw : same w x = true
    · rw [realign_match hw]
      simp
    rw [Bool.not_eq_true] at hw
    have hrest : ¬ Apart same gone [x] := by
      intro hok
      apply h
      intro u hu y hy
      rcases List.mem_cons.mp hu with rfl | hu
      · rw [List.mem_singleton.mp hy]
        exact hw
      · exact hok u hu y hy
    cases gone with
    | nil => exact absurd (fun w hw => absurd hw (by simp)) hrest
    | cons v gone =>
      by_cases hv : same v x = true
      · rw [realign_leftOut hw hv]
        simp
      rw [Bool.not_eq_true] at hv
      have hdrain := @realign_drain _ _ same w x (v :: gone) [] hw hv rfl rfl
      rw [hdrain, if_pos (by simp)]
      exact ih hrest

end

theorem Alignment.subsets (a : Alignment α β) : a.gone ⊆ a.base ∧ a.fresh ⊆ a.result ∧
    ∀ p ∈ a.pairs, p.1 ∈ a.base ∧ p.2 ∈ a.result := by
  induction a with
  | last gone fresh => exact ⟨List.Subset.refl _, List.Subset.refl _, fun p hp => by cases hp⟩
  | shared gone fresh b r rest ih =>
    obtain ⟨h₁, h₂, h₃⟩ := ih
    refine ⟨?_, ?_, ?_⟩
    · intro x hx
      rcases List.mem_append.mp hx with hx | hx
      · exact List.mem_append_left _ hx
      · exact List.mem_append_right _ (List.mem_cons_of_mem _ (h₁ hx))
    · intro x hx
      rcases List.mem_append.mp hx with hx | hx
      · exact List.mem_append_left _ hx
      · exact List.mem_append_right _ (List.mem_cons_of_mem _ (h₂ hx))
    · intro p hp
      rcases List.mem_cons.mp hp with rfl | hp
      · simp [Alignment.base, Alignment.result]
      · have := h₃ p hp
        simp [Alignment.base, Alignment.result, this.1, this.2]

/-- **out of step, where a gap puts in one symbol at most, the scan pairs a symbol of a gap** -/
theorem realign_stray {a : Alignment α β} (hshared : ∀ p ∈ a.pairs, same p.1 p.2 = true)
    (hshrinks : a.Shrinks) (hthin : a.Thin) (h : ¬ a.InStep same) :
    ∃ p ∈ realign same a.base a.result, p.1 ∈ a.gone ∨ p.2 ∈ a.fresh := by
  induction a with
  | last gone fresh =>
    match fresh, hthin with
    | [], _ => exact absurd (fun w _ x hx => absurd hx (by simp)) h
    | [x], _ =>
      obtain ⟨p, hp⟩ := List.exists_mem_of_ne_nil _ (realign_last_stray x gone h)
      exact ⟨p, hp, Or.inl ((realign_sublist gone [x]).1.subset (List.mem_map_of_mem hp))⟩
  | shared gone fresh b r rest ih =>
    have hsame := hshared (b, r) (by simp [Alignment.pairs])
    simp only [Alignment.base, Alignment.result, Alignment.gone, Alignment.fresh, List.mem_append]
    by_cases hgap : GapInStep same gone fresh b r rest.base rest.result
    · rw [realign_gap hsame hshrinks.1 gone fresh hgap]
      obtain ⟨p, hp, hmem⟩ := ih (fun p hp => hshared p (by simp [Alignment.pairs, hp])) hshrinks.2
        hthin.2 fun hrest => h ⟨hgap, hrest⟩
      exact ⟨p, List.mem_cons_of_mem _ hp, hmem.imp Or.inr Or.inr⟩
    · match fresh, hthin.1 with
      | [], _ =>
        obtain ⟨p, hp, hmem⟩ := realign_gone_stray hshrinks.1 gone hgap
        exact ⟨p, hp, Or.inl (Or.inl hmem)⟩
      | [x], _ =>
        obtain ⟨p, hp, hmem⟩ := realign_single_stray hshrinks.1 x gone hgap
        exact ⟨p, hp, hmem.imp Or.inl fun h => Or.inl (by simp [h])⟩

/-- a symbol that is left out, or put in, is not shared -/
theorem Alignment.not_shared {a : Alignment α β} (hbase : a.base.Nodup) (hresult : a.result.Nodup)
    {p : α × β} (hp : p ∈ a.pairs) : p.1 ∉ a.gone ∧ p.2 ∉ a.fresh := by
  induction a with
  | last gone fresh => cases hp
  | shared gone fresh b r rest ih =>
    simp only [Alignment.base, Alignment.result, List.nodup_append, List.nodup_cons] at hbase hresult
    have hsub := rest.subsets
    simp only [Alignment.gone, Alignment.fresh, List.mem_append, not_or]
    rcases List.mem_cons.mp hp with rfl | hp
    · refine ⟨⟨fun h => hbase.2.2 b h b (by simp) rfl, fun h => hbase.2.1.1 (hsub.1 h)⟩,
        fun h => hresult.2.2 r h r (by simp) rfl, fun h => hresult.2.1.1 (hsub.2.1 h)⟩
    · obtain ⟨h₁, h₂⟩ := ih hbase.2.1.2 hresult.2.1.2 hp
      have hmem := hsub.2.2 p hp
      exact ⟨⟨fun h => hbase.2.2 p.1 h p.1 (by simp [hmem.1]) rfl, h₁⟩,
        fun h => hresult.2.2 p.2 h p.2 (by simp [hmem.2]) rfl, h₂⟩

/-! ## the alignment of a relation of origin -/

/-- `gone` has been left out so far -/
def align (made : α → β → Bool) (gone : List α) : List α → List β → Alignment α β
  | [], rs => .last gone rs
  | b :: bs, rs =>
    match rs.dropWhile (fun r => !made b r) with
    | [] => align made (gone ++ [b]) bs rs
    | r :: rest => .shared gone (rs.takeWhile fun r => !made b r) b r (align made [] bs rest)

section
variable {made : α → β → Bool}

theorem made_of_dropWhile {b : α} {r : β} {rs rest : List β}
    (h : rs.dropWhile (fun r => !made b r) = r :: rest) : made b r = true := by
  have hhead := List.head_dropWhile_not (fun r => !made b r) (l := rs) (by rw [h]; simp)
  simpa [h] using hhead

theorem align_base (gone bs : List α) (rs : List β) : (align made gone bs rs).base = gone ++ bs := by
  induction bs generalizing gone rs with
  | nil => simp [align, Alignment.base]
  | cons b bs ih =>
    rw [align]
    split
    · rw [ih, List.append_assoc]
      rfl
    · rw [Alignment.base, ih]
      rfl

theorem align_result (gone bs : List α) (rs : List β) : (align made gone bs rs).result = rs := by
  induction bs generalizing gone rs with
  | nil => rfl
  | cons b bs ih =>
    rw [align]
    split
    · exact ih _ _
    · rename_i r rest h
      rw [Alignment.result, ih, ← h, List.takeWhile_append_dropWhile]

theorem align_made (gone bs : List α) (rs : List β) :
    ∀ p ∈ (align made gone bs rs).pairs, made p.1 p.2 = true := by
  induction bs generalizing gone rs with
  | nil => exact fun p hp => absurd hp (by simp [align, Alignment.pairs])
  | cons b bs ih =>
    rw [align]
    split
    · exact ih _ _
    · rename_i r rest h
      intro p hp
      rcases List.mem_cons.mp hp with rfl | hp
      · exact made_of_dropWhile h
      · exact ih _ _ p hp

/-- what is behind a shared pair on both sides -/
theorem align_shrinks (gone bs : List α) (rs : List β)
    (h : ∀ b bs' r rs', (b :: bs') <:+ bs → (r :: rs') <:+ rs → made b r = true →
      rs'.length ≤ bs'.length) : (align made gone bs rs).Shrinks := by
  induction bs generalizing gone rs with
  | nil => trivial
  | cons b bs ih =>
    have hsuffix {c : α} {bs' : List α} (hbs : (c :: bs') <:+ bs) : (c :: bs') <:+ b :: bs :=
      hbs.trans (List.suffix_cons b bs)
    rw [align]
    split
    · exact ih _ _ fun c bs' r rs' hbs hrs => h c bs' r rs' (hsuffix hbs) hrs
    · rename_i r rest hdrop
      have hrest : (r :: rest) <:+ rs := hdrop ▸ List.dropWhile_suffix _
      have hmade : made b r = true := made_of_dropWhile hdrop
      refine ⟨?_, ih _ _ fun c bs' q rs' hbs hrs => h c bs' q rs' (hsuffix hbs)
        (hrs.trans ((List.suffix_cons r rest).trans hrest))⟩
      rw [align_base, align_result, List.nil_append]
      exact h b bs r rest List.suffix_rfl hrest hmade

/-- **every pair of the relation is shared, when the relation keeps the order** -/
theorem align_complete {f : α → Nat} {g : β → Nat}
    (gone bs : List α) (rs : List β)
    (hmono : ∀ b ∈ bs, ∀ c ∈ bs, ∀ r ∈ rs, ∀ q ∈ rs, made b r = true → made c q = true → f b < f c →
      g r < g q)
    (hfun : ∀ b ∈ bs, ∀ r ∈ rs, ∀ q ∈ rs, made b r = true → made b q = true → g r = g q)
    (hbs : bs.Pairwise fun b c => f b < f c) (hrs : rs.Pairwise fun r q => g r < g q) {b : α} {r : β}
    (hb : b ∈ bs) (hr : r ∈ rs) (hmade : made b r = true) :
    (b, r) ∈ (align made gone bs rs).pairs := by
  induction bs generalizing gone rs with
  | nil => cases hb
  | cons c bs ih =>
    rw [List.pairwise_cons] at hbs
    rw [align]
    split
    · rename_i hnone
      have hno : ∀ q ∈ rs, made c q = false := by
        intro q hq
        simpa using List.dropWhile_eq_nil_iff.mp hnone q hq
      rcases List.mem_cons.mp hb with rfl | hb
      · rw [hno r hr] at hmade
        cases hmade
      · exact ih _ rs (fun b hb c hc => hmono b (by simp [hb]) c (by simp [hc]))
          (fun b hb => hfun b (by simp [hb])) hbs.2 hrs hb hr
    · rename_i q rest hdrop
      have hq : made c q = true := made_of_dropWhile hdrop
      have hsplit : rs = rs.takeWhile (fun r => !made c r) ++ q :: rest := by
        rw [← hdrop, List.takeWhile_append_dropWhile]
      generalize rs.takeWhile (fun r => !made c r) = front at hsplit
      subst hsplit
      rw [List.pairwise_append, List.pairwise_cons] at hrs
      obtain ⟨-, ⟨hqrest, hrest⟩, hbefore⟩ := hrs
      have hback {r : β} (hr : r ∈ rest) : r ∈ front ++ q :: rest := by simp [hr]
      have hge : g q ≤ g r → r = q ∨ r ∈ rest := by
        intro hle
        rcases List.mem_append.mp hr with hr | hr
        · have := hbefore r hr q (by simp)
          omega
        · exact List.mem_cons.mp hr
      rcases List.mem_cons.mp hb with rfl | hb
      · have hrq := hfun b (by simp) r hr q (by simp) hmade hq
        rcases hge (by omega) with rfl | hr
        · simp [Alignment.pairs]
        · have := hqrest r hr
          omega
      · have hlt := hmono c (by simp) b (by simp [hb]) q (by simp) r hr hq hmade (hbs.1 b hb)
        rcases hge (by omega) with rfl | hr
        · omega
        · exact List.mem_cons_of_mem _ (ih _ rest
            (fun b hb c hc r hr q hq => hmono b (by simp [hb]) c (by simp [hc]) r (hback hr) q (hback hq))
            (fun b hb r hr q hq => hfun b (by simp [hb]) r (hback hr) q (hback hq)) hbs.2 hrest hb hr)

end

end

end Voisu.Lib
