import Voisu.FormatEdits.Contract

/-!
# When the in-place composition is the left-to-right splice

`composeEdits` makes the validated edits in place, by descending start offset.  Edits with
different starts never meet.  Edits that start at ONE offset are made in list order at that
offset, so a later one lands in front of (or on top of) what an earlier one has just inserted.

* `composeMarked`      the same composition on a text whose symbols remember whether an edit
                       inserted them; it stops where an edit would consume inserted text;
* `ComposesAsSplice`   the composition returns the splice and never consumes inserted text;
* `StartsAgree`        at every offset, the texts inserted there read the same in both orders,
                       and none of them has text beside a replacement that starts there;
* `composeEdits_iff`   for validated, sorted edits the two are equivalent.
-/

set_option linter.unusedSectionVars false

namespace Voisu.FormatEdits
open Lib

/-! ## what the checks establish -/

theorem validateEdits_ok {base : Text} {edits : List FormatEdit}
    (h : validateEdits base edits = .ok ()) :
    (∀ e ∈ edits, e.startUtf8 ≤ e.endUtf8 ∧ isBoundary e.startUtf8 base = true ∧
      isBoundary e.endUtf8 base = true) ∧
    edits.Pairwise fun a b => rangesOverlap a.range b.range = false := by
  induction edits with
  | nil => exact ⟨fun e he => absurd he (by simp), List.Pairwise.nil⟩
  | cons e edits ih =>
    unfold validateEdits at h
    by_cases h1 : (decide (e.endUtf8 < e.startUtf8) || decide (byteLen base < e.endUtf8)) = true
    · rw [if_pos h1] at h; cases h
    rw [if_neg h1] at h
    by_cases h2 : (!isBoundary e.startUtf8 base || !isBoundary e.endUtf8 base) = true
    · rw [if_pos h2] at h; cases h
    rw [if_neg h2] at h
    by_cases h3 : (slice e.startUtf8 e.endUtf8 base != some e.before) = true
    · rw [if_pos h3] at h; cases h
    rw [if_neg h3] at h
    by_cases h4 : (edits.any fun other => rangesOverlap e.range other.range) = true
    · rw [if_pos h4] at h; cases h
    rw [if_neg h4] at h
    obtain ⟨ih1, ih2⟩ := ih h
    simp only [Bool.or_eq_true, decide_eq_true_eq, not_or, not_lt] at h1
    simp only [Bool.or_eq_true, Bool.not_eq_true', not_or, Bool.not_eq_false] at h2
    simp only [Bool.not_eq_true, List.any_eq_false] at h4
    refine ⟨fun e' he' => ?_, List.pairwise_cons.mpr ⟨fun e' he' => by simpa using h4 e' he', ih2⟩⟩
    rcases List.mem_cons.mp he' with rfl | he'
    · exact ⟨h1.1, h2⟩
    · exact ih1 e' he'

theorem rangesOverlap_eq_false {l r : Nat × Nat} :
    rangesOverlap l r = false ↔ r.2 ≤ l.1 ∨ l.2 ≤ r.1 := by
  unfold rangesOverlap
  rw [Bool.and_eq_false_iff, decide_eq_false_iff_not, decide_eq_false_iff_not]
  omega

theorem rangeLe_iff {a b : FormatEdit} : rangeLe a b = true ↔
    a.startUtf8 < b.startUtf8 ∨ (a.startUtf8 = b.startUtf8 ∧ a.endUtf8 ≤ b.endUtf8) := by
  simp [rangeLe]

theorem start_le_of_sorted {a : FormatEdit} {edits : List FormatEdit}
    (hs : editsSorted (a :: edits) = true) : ∀ e ∈ edits, a.startUtf8 ≤ e.startUtf8 := by
  induction edits generalizing a with
  | nil => intro e he; exact absurd he (by simp)
  | cons b edits ih =>
    intro e he
    obtain ⟨hab, hs⟩ := Bool.and_eq_true_iff.mp hs
    have hlt := rangeLe_iff.mp hab
    rcases List.mem_cons.mp he with rfl | he
    · omega
    · have := ih hs e he
      omega

/-- sorted ranges that do not overlap follow one another -/
theorem chain_of_sorted {edits : List FormatEdit} (off : Nat)
    (hr : ∀ e ∈ edits, e.startUtf8 ≤ e.endUtf8) (ho : ∀ e ∈ edits, off ≤ e.startUtf8)
    (hd : edits.Pairwise fun a b => rangesOverlap a.range b.range = false)
    (hs : editsSorted edits = true) : Chain off (replacements edits) := by
  induction edits generalizing off with
  | nil => exact trivial
  | cons a edits ih =>
    obtain ⟨hd1, hd2⟩ := List.pairwise_cons.mp hd
    refine ⟨ho a List.mem_cons_self, hr a List.mem_cons_self, ?_⟩
    cases edits with
    | nil => exact trivial
    | cons b edits =>
      obtain ⟨hab, hs'⟩ := Bool.and_eq_true_iff.mp hs
      have ha := hr a List.mem_cons_self
      have hb := hr b (by simp)
      have hlt := rangeLe_iff.mp hab
      have hov : b.endUtf8 ≤ a.startUtf8 ∨ a.endUtf8 ≤ b.startUtf8 :=
        rangesOverlap_eq_false.mp (hd1 b List.mem_cons_self)
      have hle : a.endUtf8 ≤ b.startUtf8 := by omega
      apply ih a.endUtf8 (fun e he => hr e (List.mem_cons_of_mem _ he)) _ hd2 hs'
      intro e he
      rcases List.mem_cons.mp he with rfl | he
      · exact hle
      · exact le_trans hle (start_le_of_sorted hs' e he)

/-! ## the edits that start at one offset -/

section
variable {α : Type}

/-- the texts of the insertions at offset `o`, in list order -/
def insertedAt (o : Nat) (rs : List (Repl α)) : List (List α) :=
  (rs.filter fun r => r.start == o && r.stop == o).map Repl.text

/-- a replacement, and not only insertions, starts at offset `o` -/
def ReplacedAt (o : Nat) (rs : List (Repl α)) : Prop := ∃ r ∈ rs, r.start = o ∧ o < r.stop

def OrdersAgree (rs : List (Repl α)) : Prop :=
  ∀ o, (insertedAt o rs).reverse.flatten = (insertedAt o rs).flatten

def NoneBesideReplacement (rs : List (Repl α)) : Prop :=
  ∀ o, ReplacedAt o rs → (insertedAt o rs).flatten = []

def StartsAgree (rs : List (Repl α)) : Prop := OrdersAgree rs ∧ NoneBesideReplacement rs

/-- the edits that start first: insertions `Z`, then at most one replacement `R` -/
structure FirstStart (o : Nat) (Z R H : List (Repl α)) : Prop where
  ins : ∀ z ∈ Z, z.start = o ∧ z.stop = o
  rep : R = [] ∨ ∃ x, R = [x] ∧ x.start = o ∧ o < x.stop
  later : ∀ h ∈ H, o < h.start

theorem exists_firstStart [ByteSized α] {o : Nat} {rs : List (Repl α)} (hc : Chain o rs) :
    ∃ Z R H, rs = Z ++ R ++ H ∧ FirstStart o Z R H := by
  induction rs with
  | nil => exact ⟨[], [], [], rfl, by simp, Or.inl rfl, by simp⟩
  | cons a rs ih =>
    obtain ⟨h1, h2, h3⟩ := hc
    by_cases hs : a.start = o
    · by_cases he : a.stop = o
      · rw [he] at h3
        obtain ⟨Z, R, H, hrs, hf⟩ := ih h3
        refine ⟨a :: Z, R, H, by rw [hrs]; rfl, ?_, hf.rep, hf.later⟩
        intro z hz
        rcases List.mem_cons.mp hz with rfl | hz
        · exact ⟨hs, he⟩
        · exact hf.ins z hz
      · refine ⟨[], [a], rs, rfl, by simp, Or.inr ⟨a, rfl, hs, by omega⟩, ?_⟩
        intro h hh
        have := h3.le_start h hh
        omega
    · refine ⟨[], [], a :: rs, rfl, by simp, Or.inl rfl, ?_⟩
      intro h hh
      rcases List.mem_cons.mp hh with rfl | hh
      · omega
      · have := h3.le_start h hh
        omega

/-- the edits that start with the first of them come off a chain together -/
theorem exists_firstStart_cons [ByteSized α] {r : Repl α} {rs : List (Repl α)}
    (hc : Chain r.start (r :: rs)) :
    ∃ Z R H, r :: rs = Z ++ R ++ H ∧ FirstStart r.start Z R H ∧ Z ++ R ≠ [] := by
  obtain ⟨Z, R, H, hrs, hf⟩ := exists_firstStart hc
  refine ⟨Z, R, H, hrs, hf, fun hZR => ?_⟩
  rw [hZR, List.nil_append] at hrs
  have := hf.later r (by rw [← hrs]; exact List.mem_cons_self)
  omega

/-- the stable sort puts the later starts first and keeps the list order at one start -/
theorem sortByReverseStart_append {o : Nat} {G H : List (Repl α)} (hG : ∀ g ∈ G, g.start = o)
    (hH : ∀ h ∈ H, o < h.start) :
    sortByReverseStart (G ++ H) = sortByReverseStart H ++ G := by
  have hins : ∀ (g : Repl α) (G' L : List (Repl α)), g.start = o → (∀ x ∈ G', x.start = o) →
      (∀ x ∈ L, o < x.start) →
      (L ++ G').orderedInsert (fun a b => b.start ≤ a.start) g = L ++ g :: G' := by
    intro g G' L hg hG' hL
    induction L with
    | nil =>
      cases G' with
      | nil => rfl
      | cons x G' =>
        have hx := hG' x List.mem_cons_self
        rw [List.nil_append, List.orderedInsert_cons, if_pos (by omega)]
        rfl
    | cons x L ih =>
      have hx := hL x List.mem_cons_self
      rw [List.cons_append, List.orderedInsert_cons, if_neg (by omega),
        ih (fun y hy => hL y (List.mem_cons_of_mem _ hy))]
      rfl
  induction G with
  | nil => rw [List.nil_append, List.append_nil]
  | cons g G ih =>
    have ih' := ih (fun x hx => hG x (List.mem_cons_of_mem _ hx))
    unfold sortByReverseStart at ih' ⊢
    rw [List.cons_append, List.insertionSort_cons, ih']
    apply hins g G _ (hG g List.mem_cons_self) (fun x hx => hG x (List.mem_cons_of_mem _ hx))
    intro x hx
    exact hH x ((List.mem_insertionSort _).mp hx)

namespace FirstStart
variable {o : Nat} {Z R H : List (Repl α)}

theorem insertedAt_self (hf : FirstStart o Z R H) :
    insertedAt o (Z ++ R ++ H) = Z.map Repl.text := by
  have hZ : Z.filter (fun r => r.start == o && r.stop == o) = Z := by
    rw [List.filter_eq_self]
    intro z hz
    obtain ⟨h1, h2⟩ := hf.ins z hz
    simp [h1, h2]
  have hR : R.filter (fun r => r.start == o && r.stop == o) = [] := by
    rw [List.filter_eq_nil_iff]
    intro r hr
    rcases hf.rep with h | ⟨x, rfl, -, hx⟩
    · rw [h] at hr; exact absurd hr (by simp)
    · rw [List.mem_singleton] at hr
      subst hr
      simp
      omega
  have hH : H.filter (fun r => r.start == o && r.stop == o) = [] := by
    rw [List.filter_eq_nil_iff]
    intro r hr
    have := hf.later r hr
    simp
    omega
  unfold insertedAt
  rw [List.filter_append, List.filter_append, hZ, hR, hH, List.append_nil, List.append_nil]

theorem insertedAt_other (hf : FirstStart o Z R H) {o' : Nat} (ho : o' ≠ o) :
    insertedAt o' (Z ++ R ++ H) = insertedAt o' H := by
  have hZR : (Z ++ R).filter (fun r => r.start == o' && r.stop == o') = [] := by
    rw [List.filter_eq_nil_iff]
    intro r hr
    have hs : r.start = o := by
      rcases List.mem_append.mp hr with hr | hr
      · exact (hf.ins r hr).1
      · rcases hf.rep with h | ⟨x, rfl, hx, -⟩
        · rw [h] at hr; exact absurd hr (by simp)
        · rw [List.mem_singleton] at hr
          rw [hr, hx]
    simp
    omega
  unfold insertedAt
  rw [List.filter_append, hZR, List.nil_append]

theorem insertedAt_later (hf : FirstStart o Z R H) : insertedAt o H = [] := by
  unfold insertedAt
  rw [List.map_eq_nil_iff, List.filter_eq_nil_iff]
  intro r hr
  have := hf.later r hr
  simp
  omega

theorem replacedAt_self (hf : FirstStart o Z R H) : ReplacedAt o (Z ++ R ++ H) ↔ R ≠ [] := by
  constructor
  · intro h hR
    obtain ⟨r, hr, hs, he⟩ := h
    rw [hR, List.append_nil, List.mem_append] at hr
    rcases hr with hr | hr
    · have := (hf.ins r hr).2
      omega
    · have := hf.later r hr
      omega
  · intro hR
    rcases hf.rep with h | ⟨x, rfl, hx, hx'⟩
    · exact absurd h hR
    · exact ⟨x, by simp, hx, hx'⟩

theorem replacedAt_other (hf : FirstStart o Z R H) {o' : Nat} (ho : o' ≠ o) :
    ReplacedAt o' (Z ++ R ++ H) ↔ ReplacedAt o' H := by
  constructor
  · intro h
    obtain ⟨r, hr, hs, he⟩ := h
    rw [List.mem_append, List.mem_append] at hr
    rcases hr with (hr | hr) | hr
    · exact absurd (hs.symm.trans (hf.ins r hr).1) ho
    · rcases hf.rep with h | ⟨x, rfl, hx, -⟩
      · rw [h] at hr; exact absurd hr (by simp)
      · rw [List.mem_singleton] at hr
        rw [hr] at hs
        exact absurd (hs.symm.trans hx) ho
    · exact ⟨r, hr, hs, he⟩
  · intro h
    obtain ⟨r, hr, hs, he⟩ := h
    exact ⟨r, by simp [hr], hs, he⟩

theorem ordersAgree_iff (hf : FirstStart o Z R H) :
    OrdersAgree (Z ++ R ++ H) ↔
      (Z.map Repl.text).reverse.flatten = (Z.map Repl.text).flatten ∧ OrdersAgree H := by
  constructor
  · intro h
    refine ⟨by have := h o; rwa [hf.insertedAt_self] at this, fun o' => ?_⟩
    by_cases ho : o' = o
    · rw [ho, hf.insertedAt_later]; rfl
    · have := h o'
      rwa [hf.insertedAt_other ho] at this
  · intro h o'
    by_cases ho : o' = o
    · rw [ho, hf.insertedAt_self]; exact h.1
    · rw [hf.insertedAt_other ho]; exact h.2 o'

theorem noneBeside_iff (hf : FirstStart o Z R H) :
    NoneBesideReplacement (Z ++ R ++ H) ↔
      (R ≠ [] → (Z.map Repl.text).flatten = []) ∧ NoneBesideReplacement H := by
  constructor
  · intro h
    refine ⟨fun hR => ?_, fun o' ho' => ?_⟩
    · have := h o (hf.replacedAt_self.mpr hR)
      rwa [hf.insertedAt_self] at this
    · by_cases ho : o' = o
      · rw [ho, hf.insertedAt_later]; rfl
      · have := h o' ((hf.replacedAt_other ho).mpr ho')
        rwa [hf.insertedAt_other ho] at this
  · intro h o' ho'
    by_cases ho : o' = o
    · rw [ho] at ho' ⊢
      rw [hf.insertedAt_self]
      exact h.1 (hf.replacedAt_self.mp ho')
    · rw [hf.insertedAt_other ho]
      exact h.2 o' ((hf.replacedAt_other ho).mp ho')

theorem sort_eq (hf : FirstStart o Z R H) :
    sortByReverseStart (Z ++ R ++ H) = sortByReverseStart H ++ (Z ++ R) := by
  apply sortByReverseStart_append _ hf.later
  intro g hg
  rcases List.mem_append.mp hg with hg | hg
  · exact (hf.ins g hg).1
  · rcases hf.rep with h | ⟨x, rfl, hx, -⟩
    · rw [h] at hg; exact absurd hg (by simp)
    · rw [List.mem_singleton] at hg
      rw [hg, hx]

end FirstStart

end

/-! ## the fold over one start, then over all of them -/

section
variable {α : Type} [ByteSized α]

/-- the replacement, made only when every symbol it consumes is one of its own text's -/
def replaceOwn (own : α → Bool) (s : List α) (r : Repl α) : Option (List α) :=
  (slice r.start r.stop s).bind fun m =>
    if m.all own then replaceRange r.start r.stop r.text s else none

theorem replaceOwn_append {own : α → Bool} {r : Repl α} {a m b : List α}
    (ha : byteLen a = r.start) (hm : r.start + byteLen m = r.stop) :
    replaceOwn own (a ++ m ++ b) r = if m.all own then some (a ++ r.text ++ b) else none := by
  unfold replaceOwn
  rw [← hm, ← ha, slice_append, Option.bind_some, replaceRange_append]

example : replaceOwn (· == 'a') ['b', 'a', 'c'] ⟨1, 2, ['x', 'y']⟩ = some ['b', 'x', 'y', 'c'] := by
  decide +kernel

/-- a replacement over text that does not start with an own symbol is not made -/
theorem replaceOwn_none {own : α → Bool} {r : Repl α} {a z b : List α} (ha : byteLen a = r.start)
    (hr : r.start < r.stop) (hz : z ≠ []) (ho : ∀ c ∈ z, own c = false) :
    replaceOwn own (a ++ (z ++ b)) r = none := by
  unfold replaceOwn
  cases hsl : slice r.start r.stop (a ++ (z ++ b)) with
  | none => rfl
  | some m =>
    obtain ⟨a', b', he, h1, h2⟩ := slice_eq_some.mp hsl
    rw [List.append_assoc] at he
    obtain ⟨rfl, he'⟩ := append_inj_byteLen he (by omega)
    cases m with
    | nil => simp at h2; omega
    | cons c m =>
      cases z with
      | nil => exact absurd rfl hz
      | cons c' z =>
        obtain ⟨rfl, -⟩ := List.cons.inj he'
        have := ho c' List.mem_cons_self
        simp [this]

/-- with every symbol a base symbol the check never stops the fold -/
theorem foldlM_replaceOwn_true (rs : List (Repl α)) (s : List α) :
    rs.foldlM (replaceOwn fun _ => true) s = applyAll rs s := by
  unfold applyAll
  congr 1
  funext s r
  unfold replaceOwn
  cases h : replaceRange r.start r.stop r.text s with
  | none =>
    cases slice r.start r.stop s with
    | none => rfl
    | some m => simp
  | some t =>
    obtain ⟨a, m, b, rfl, h1, h2, rfl⟩ := replaceRange_eq_some.mp h
    rw [slice_eq_some.mpr ⟨a, b, rfl, h1, h2⟩, Option.bind_some]
    simp

/-- insertions at one offset: each lands in front of the ones before it -/
theorem foldlM_insertions {own : α → Bool} {o : Nat} {Z : List (Repl α)}
    (hZ : ∀ z ∈ Z, z.start = o ∧ z.stop = o) (p q : List α) (hp : byteLen p = o) :
    Z.foldlM (replaceOwn own) (p ++ q) = some (p ++ ((Z.map Repl.text).reverse.flatten ++ q)) := by
  induction Z generalizing q with
  | nil => rfl
  | cons z Z ih =>
    obtain ⟨h1, h2⟩ := hZ z List.mem_cons_self
    have hz : replaceOwn own (p ++ q) z = some (p ++ (z.text ++ q)) := by
      have := @replaceOwn_append _ _ own z p [] q (by omega) (by rw [byteLen_nil]; omega)
      simpa using this
    rw [List.foldlM_cons, hz]
    show Z.foldlM (replaceOwn own) (p ++ (z.text ++ q)) = _
    rw [ih (fun y hy => hZ y (List.mem_cons_of_mem _ hy))]
    simp

/-- **without text beside a replacement the fold succeeds, and it gives the splice exactly when
the insertions at each offset read the same in both orders** -/
theorem foldlM_replaceOwn {own : α → Bool} {rs : List (Repl α)} {p s u : List α}
    (hs : s.all own = true) (h : Spliced (byteLen p) rs s u) (hn : NoneBesideReplacement rs) :
    ∃ t, (sortByReverseStart rs).foldlM (replaceOwn own) (p ++ s) = some (p ++ t) ∧
      byteLen t = byteLen u ∧ (t = u ↔ OrdersAgree rs) := by
  -- strong induction on the number of edits: the first start and its edits come off together
  induction hk : rs.length using Nat.strong_induction_on generalizing rs p s u with
  | _ k ih =>
  cases rs with
  | nil =>
    cases h with
    | nil => exact ⟨s, rfl, rfl, by simp [OrdersAgree, insertedAt]⟩
  | cons r rs =>
    obtain ⟨g, s', u₁, rfl, rfl, hg, h1⟩ := h.gap
    obtain ⟨Z, R, H, hrs, hf, hne⟩ := exists_firstStart_cons h1.chain
    have hlen : H.length < k := by
      have := congrArg List.length hrs
      simp only [List.length_append, List.length_cons] at this hk
      have := List.length_pos_iff.mpr hne
      simp only [List.length_append] at this
      omega
    rw [hrs] at h1 hn ⊢
    obtain ⟨hnZ, hnH⟩ := hf.noneBeside_iff.mp hn
    have hpg : byteLen (p ++ g) = r.start := by rw [byteLen_append]; exact hg
    rw [hf.sort_eq, List.foldlM_append, ← List.append_assoc]
    rw [List.append_assoc] at h1
    obtain ⟨u₂, rfl, h2⟩ := h1.insertions hf.ins
    rw [hf.ordersAgree_iff]
    have hs' : s'.all own = true := by
      rw [List.all_append, Bool.and_eq_true] at hs
      exact hs.2
    rcases hf.rep with hR | ⟨x, rfl, hx, hx'⟩
    · subst hR
      rw [List.nil_append, ← hpg] at h2
      obtain ⟨t, ht, hl, hiff⟩ := ih H.length hlen hs' h2 hnH rfl
      rw [ht]
      refine ⟨g ++ ((Z.map Repl.text).reverse.flatten ++ t), ?_, ?_, ?_⟩
      · show (Z ++ []).foldlM (replaceOwn own) (p ++ g ++ t) = _
        rw [List.append_nil, foldlM_insertions hf.ins (p ++ g) t hpg]
        simp
      · simp only [byteLen_append, hl, byteLen_reverse_flatten]
      · rw [List.append_cancel_left_eq, ← hiff]
        constructor
        · intro he
          exact append_inj_byteLen he (byteLen_reverse_flatten _)
        · intro he
          rw [he.1, he.2]
    · rw [List.singleton_append] at h2
      obtain ⟨m, s₂, u₃, rfl, rfl, hm, h3⟩ := h2.replacement hx
      have hpm : byteLen (p ++ g ++ m) = x.stop := by rw [byteLen_append]; omega
      rw [← hpm] at h3
      rw [List.all_append, Bool.and_eq_true] at hs'
      obtain ⟨t, ht, hl, hiff⟩ := ih H.length hlen hs'.2 h3 hnH rfl
      have hZ0 := hnZ (by simp)
      have hZ1 : (Z.map Repl.text).reverse.flatten = [] :=
        byteLen_eq_zero.mp (by rw [byteLen_reverse_flatten, hZ0, byteLen_nil])
      rw [← List.append_assoc, ht]
      refine ⟨g ++ (x.text ++ t), ?_, ?_, ?_⟩
      · show (Z ++ [x]).foldlM (replaceOwn own) (p ++ g ++ m ++ t) = _
        rw [List.foldlM_append, List.append_assoc _ m, foldlM_insertions hf.ins _ _ hpg, hZ1,
          List.nil_append, ← List.append_assoc]
        show ([x].foldlM (replaceOwn own) (p ++ g ++ m ++ t)) = _
        rw [List.foldlM_cons, replaceOwn_append (by omega) (by omega), if_pos hs'.1]
        simp
      · simp only [byteLen_append, hl, hZ0, byteLen_nil, Nat.zero_add]
      · rw [hZ0, hZ1, List.append_cancel_left_eq, List.nil_append, List.append_cancel_left_eq,
          ← hiff]
        simp

/-- an edit that consumes inserted text stops the fold -/
theorem foldlM_replaceOwn_none {own : α → Bool} {rs : List (Repl α)} {p s u : List α}
    (hs : s.all own = true) (ht : ∀ r ∈ rs, ∀ a ∈ r.text, own a = false)
    (h : Spliced (byteLen p) rs s u) (hn : ¬ NoneBesideReplacement rs) :
    (sortByReverseStart rs).foldlM (replaceOwn own) (p ++ s) = none := by
  induction hk : rs.length using Nat.strong_induction_on generalizing rs p s u with
  | _ k ih =>
  cases rs with
  | nil => exact absurd (by simp [NoneBesideReplacement, ReplacedAt]) hn
  | cons r rs =>
    obtain ⟨g, s', u₁, rfl, rfl, hg, h1⟩ := h.gap
    obtain ⟨Z, R, H, hrs, hf, hne⟩ := exists_firstStart_cons h1.chain
    have hlen : H.length < k := by
      have := congrArg List.length hrs
      simp only [List.length_append, List.length_cons] at this hk
      have := List.length_pos_iff.mpr hne
      simp only [List.length_append] at this
      omega
    rw [hrs] at h1 hn ht ⊢
    have hpg : byteLen (p ++ g) = r.start := by rw [byteLen_append]; exact hg
    rw [hf.sort_eq, List.foldlM_append, ← List.append_assoc]
    rw [List.append_assoc] at h1
    obtain ⟨u₂, rfl, h2⟩ := h1.insertions hf.ins
    have htH : ∀ r ∈ H, ∀ a ∈ r.text, own a = false := fun r hr => ht r (by simp [hr])
    have hs' : s'.all own = true := by
      rw [List.all_append, Bool.and_eq_true] at hs
      exact hs.2
    rcases hf.rep with hR | ⟨x, rfl, hx, hx'⟩
    · subst hR
      rw [List.nil_append, ← hpg] at h2
      have hnH : ¬ NoneBesideReplacement H := by
        intro hH
        exact hn (hf.noneBeside_iff.mpr ⟨fun hR => absurd rfl hR, hH⟩)
      rw [ih H.length hlen hs' htH h2 hnH rfl]
      rfl
    · rw [List.singleton_append] at h2
      obtain ⟨m, s₂, u₃, rfl, rfl, hm, h3⟩ := h2.replacement hx
      have hpm : byteLen (p ++ g ++ m) = x.stop := by rw [byteLen_append]; omega
      rw [← hpm] at h3
      rw [List.all_append, Bool.and_eq_true] at hs'
      rw [← List.append_assoc]
      by_cases hnH : NoneBesideReplacement H
      · obtain ⟨t, hfold, -, -⟩ := foldlM_replaceOwn hs'.2 h3 hnH
        have hZ : (Z.map Repl.text).reverse.flatten ≠ [] := by
          intro hZ
          refine hn (hf.noneBeside_iff.mpr ⟨fun _ => byteLen_eq_zero.mp ?_, hnH⟩)
          rw [← byteLen_reverse_flatten, hZ, byteLen_nil]
        have hZt : ∀ a ∈ (Z.map Repl.text).reverse.flatten, own a = false := by
          intro a ha
          simp only [List.mem_flatten, List.mem_reverse, List.mem_map] at ha
          obtain ⟨l, ⟨z, hz, rfl⟩, ha⟩ := ha
          exact ht z (by simp [hz]) a ha
        rw [hfold]
        show (Z ++ [x]).foldlM (replaceOwn own) (p ++ g ++ m ++ t) = none
        rw [List.foldlM_append, List.append_assoc _ m, foldlM_insertions hf.ins _ _ hpg]
        show ([x].foldlM (replaceOwn own) (p ++ g ++ _)) = none
        rw [List.foldlM_cons, replaceOwn_none (by omega) (by omega) hZ hZt]
        rfl
      · rw [ih H.length hlen hs'.2 htH h3 hnH rfl]
        rfl

end

/-! ## the composition of the edits of a candidate -/

/-- a symbol of the text being edited: is it one of the base? -/
abbrev Marked := Char × Bool

def markedReplacements (edits : List FormatEdit) : List (Repl Marked) :=
  edits.map fun edit => ⟨edit.startUtf8, edit.endUtf8, edit.after.map fun c => (c, false)⟩

/-- `composeEdits` on marked text; it stops where an edit would consume inserted text -/
def composeMarked (base : Text) (edits : List FormatEdit) : Option (List Marked) :=
  (sortByReverseStart (markedReplacements edits)).foldlM (replaceOwn Prod.snd)
    (base.map fun c => (c, true))

/-- the composition returns the left-to-right splice, and no edit consumes what another inserted -/
def ComposesAsSplice (base : Text) (edits : List FormatEdit) : Prop :=
  (∃ t, composeEdits base edits = some t ∧ Spliced 0 (replacements edits) base t) ∧
    (composeMarked base edits).isSome = true

section
variable {base : Text} {edits : List FormatEdit}

theorem byteLen_mark (b : Bool) (s : Text) :
    byteLen (s.map fun c => ((c, b) : Marked)) = byteLen s :=
  byteLen_map (fun c : Char => ((c, b) : Marked)) (fun _ => rfl) s

theorem isBoundary_mark {n : Nat} {s : Text} (b : Bool) (h : isBoundary n s = true) :
    isBoundary n (s.map fun c => ((c, b) : Marked)) = true := by
  obtain ⟨x, y, rfl, hx⟩ := isBoundary_iff.mp h
  exact isBoundary_iff.mpr ⟨_, _, List.map_append, by rw [byteLen_mark, hx]⟩

theorem chain_markedReplacements {off : Nat} (h : Chain off (replacements edits)) :
    Chain off (markedReplacements edits) := by
  induction edits generalizing off with
  | nil => exact trivial
  | cons e edits ih =>
    obtain ⟨h1, h2, h3⟩ := h
    exact ⟨h1, h2, ih h3⟩

theorem noneBeside_markedReplacements :
    NoneBesideReplacement (markedReplacements edits) ↔
      NoneBesideReplacement (replacements edits) := by
  have hins : ∀ o, insertedAt o (markedReplacements edits) =
      (insertedAt o (replacements edits)).map fun s => s.map fun c => ((c, false) : Marked) := by
    intro o
    unfold insertedAt markedReplacements replacements
    rw [List.filter_map, List.filter_map, List.map_map, List.map_map, List.map_map]
    rfl
  have hrep : ∀ o, ReplacedAt o (markedReplacements edits) ↔ ReplacedAt o (replacements edits) := by
    intro o
    simp only [ReplacedAt, markedReplacements, replacements, List.mem_map, exists_exists_and_eq_and]
  have hnil : ∀ o, (insertedAt o (markedReplacements edits)).flatten = [] ↔
      (insertedAt o (replacements edits)).flatten = [] := by
    intro o
    rw [hins, ← List.map_flatten, List.map_eq_nil_iff]
  unfold NoneBesideReplacement
  simp only [hrep, hnil]

/-- validated, sorted edits have a splice -/
theorem spliced_exists (hv : validateEdits base edits = .ok ()) (hs : editsSorted edits = true) :
    ∃ u, Spliced 0 (replacements edits) base u := by
  obtain ⟨h1, h2⟩ := validateEdits_ok hv
  have hc : Chain 0 (replacements edits) :=
    chain_of_sorted 0 (fun e he => (h1 e he).1) (fun e _ => Nat.zero_le _) h2 hs
  apply Spliced.exists [] base hc
  intro r hr
  obtain ⟨e, he, rfl⟩ := List.mem_map.mp hr
  exact (h1 e he).2

theorem spliced_marked_exists (hv : validateEdits base edits = .ok ())
    (hs : editsSorted edits = true) :
    ∃ u, Spliced 0 (markedReplacements edits) (base.map fun c => ((c, true) : Marked)) u := by
  obtain ⟨h1, h2⟩ := validateEdits_ok hv
  have hc : Chain 0 (replacements edits) :=
    chain_of_sorted 0 (fun e he => (h1 e he).1) (fun e _ => Nat.zero_le _) h2 hs
  apply Spliced.exists [] _ (chain_markedReplacements hc)
  intro r hr
  obtain ⟨e, he, rfl⟩ := List.mem_map.mp hr
  exact ⟨isBoundary_mark true (h1 e he).2.1, isBoundary_mark true (h1 e he).2.2⟩

/-- **no edit consumes inserted text exactly when no inserted text stands beside a replacement** -/
theorem composeMarked_isSome (hv : validateEdits base edits = .ok ())
    (hs : editsSorted edits = true) :
    (composeMarked base edits).isSome = true ↔ NoneBesideReplacement (replacements edits) := by
  obtain ⟨u, hu⟩ := spliced_marked_exists hv hs
  have hall : (base.map fun c => ((c, true) : Marked)).all Prod.snd = true := by
    rw [List.all_map]
    exact List.all_eq_true.mpr fun _ _ => rfl
  rw [← noneBeside_markedReplacements]
  by_cases hn : NoneBesideReplacement (markedReplacements edits)
  · obtain ⟨t, ht, -, -⟩ := @foldlM_replaceOwn _ _ _ _ [] _ _ hall hu hn
    exact iff_of_true (by rw [show composeMarked base edits = _ from ht]; rfl) hn
  · have ht := @foldlM_replaceOwn_none _ _ _ _ [] _ _ hall (fun r hr a ha => by
      obtain ⟨e, -, rfl⟩ := List.mem_map.mp hr
      obtain ⟨c, -, rfl⟩ := List.mem_map.mp ha
      rfl) hu hn
    exact iff_of_false (by rw [show composeMarked base edits = none from ht]; simp) hn

/-- **`composeEdits` is the left-to-right splice exactly when the edits that share a start agree** -/
theorem composeEdits_iff (hv : validateEdits base edits = .ok ()) (hs : editsSorted edits = true) :
    ComposesAsSplice base edits ↔ StartsAgree (replacements edits) := by
  obtain ⟨u, hu⟩ := spliced_exists hv hs
  unfold ComposesAsSplice StartsAgree
  rw [composeMarked_isSome hv hs]
  apply and_congr_left
  intro hn
  have hall : base.all (fun _ => true) = true := List.all_eq_true.mpr fun _ _ => rfl
  obtain ⟨t, ht, -, hiff⟩ := @foldlM_replaceOwn _ _ _ _ [] _ _ hall hu hn
  rw [foldlM_replaceOwn_true] at ht
  have ht' : composeEdits base edits = some t := ht
  rw [← hiff, ht']
  constructor
  · intro h
    obtain ⟨t', he, hsp⟩ := h
    rw [Option.some.inj he]
    exact hsp.unique hu
  · intro he
    exact ⟨t, rfl, by rw [he]; exact hu⟩

end

/-- one base symbol replaced, and a text inserted at the next one -/
theorem composeEdits_iff_separate :
    validateEdits "ab".toList [⟨0, 1, ['a'], ['x'], .casing⟩, ⟨1, 1, [], ['y'], .punctuation⟩]
        = .ok () ∧
      (ComposesAsSplice "ab".toList
          [⟨0, 1, ['a'], ['x'], .casing⟩, ⟨1, 1, [], ['y'], .punctuation⟩] ↔
        StartsAgree (replacements
          [⟨0, 1, ['a'], ['x'], .casing⟩, ⟨1, 1, [], ['y'], .punctuation⟩])) :=
  ⟨by decide, composeEdits_iff (by decide) (by decide)⟩

/-- an insertion and a replacement at offset 0: the replacement takes the inserted text, so the
base symbol it should have replaced stays and the insertion is lost -/
theorem composeEdits_insert_beside_replace :
    ∃ (base : Text) (edits : List FormatEdit), validateEdits base edits = .ok () ∧
      editsSorted edits = true ∧ composeEdits base edits = some "cab".toList ∧
      ¬ ComposesAsSplice base edits := by
  refine ⟨"ab".toList, [⟨0, 0, [], ['x'], .punctuation⟩, ⟨0, 1, ['a'], ['c'], .casing⟩],
    by decide, by decide, by decide, fun h => absurd h.2 (by decide)⟩

end Voisu.FormatEdits
