import Voisu.Lib.Offsets

/-!
# Maximal runs of a text

A tokenizer that cuts a text at separators returns its maximal runs of symbols that satisfy a
predicate, each with the offset at which it starts.

* `runs p off s`      the runs of `s`, a text that starts at offset `off`;
* `Runs p off s rs`   the layout that fixes them: a gap without symbols of `p`, a run of them,
                      and so on, two runs never touching;
* `runs_spec`, `Runs.unique`   the function returns the one list with that layout;
* `words p s`         the texts of the runs;
* `words_append`      the words of two texts, one after the other, when no word crosses the joint.
-/

namespace Voisu.Lib

/-- a run: its offset and its text -/
structure Run (α : Type) where
  start : Nat
  text : List α
deriving DecidableEq, Repr

section
variable {α : Type} [ByteSized α]

def Run.stop (r : Run α) : Nat := r.start + byteLen r.text

variable (p : α → Bool)

/-- `cur` is the run that ends at `off`, empty when the symbol before `off` is a separator -/
def runsFrom (off : Nat) (cur : List α) : List α → List (Run α)
  | [] => if cur.isEmpty then [] else [⟨off - byteLen cur, cur⟩]
  | a :: s =>
    if p a then runsFrom (off + ByteSized.size a) (cur ++ [a]) s
    else if cur.isEmpty then runsFrom (off + ByteSized.size a) [] s
    else ⟨off - byteLen cur, cur⟩ :: runsFrom (off + ByteSized.size a) [] s

def runs (off : Nat) (s : List α) : List (Run α) := runsFrom p off [] s

/-- no symbol of `p` at the front -/
def headSep : List α → Bool
  | [] => true
  | a :: _ => !p a

inductive Runs : Nat → List α → List (Run α) → Prop
  | gap {off : Nat} {g : List α} (hg : g.all (fun a => !p a) = true) : Runs off g []
  | run {off : Nat} {g t s : List α} {rs : List (Run α)} (hg : g.all (fun a => !p a) = true)
      (ht : t.all p = true) (hne : t ≠ []) (hs : headSep p s = true)
      (h : Runs (off + byteLen g + byteLen t) s rs) :
      Runs off (g ++ t ++ s) (⟨off + byteLen g, t⟩ :: rs)

variable {p}

theorem Runs.prepend {off : Nat} {g s : List α} {rs : List (Run α)}
    (hg : g.all (fun a => !p a) = true) (h : Runs p (off + byteLen g) s rs) :
    Runs p off (g ++ s) rs := by
  cases h with
  | gap hg' => exact Runs.gap (by rw [List.all_append, hg, hg']; rfl)
  | @run _ g' t s rs hg' ht hne hs h =>
    rw [Nat.add_assoc off, ← byteLen_append] at h ⊢
    have := Runs.run (by rw [List.all_append, hg, hg']; rfl) ht hne hs h
    simpa [List.append_assoc] using this

theorem runsFrom_spec (off : Nat) (cur s : List α) (hc : cur.all p = true) :
    Runs p off (cur ++ s) (runsFrom p (off + byteLen cur) cur s) := by
  induction s generalizing off cur with
  | nil =>
    unfold runsFrom
    by_cases he : cur = []
    · subst he; exact Runs.gap rfl
    · rw [if_neg (by simpa using he)]
      have := @Runs.run _ _ p off [] cur [] [] rfl hc he rfl (Runs.gap rfl)
      simpa using this
  | cons a s ih =>
    unfold runsFrom
    by_cases hp : p a = true
    · rw [if_pos hp]
      have := ih off (cur ++ [a]) (by rw [List.all_append, hc]; simp [hp])
      simpa [List.append_assoc, Nat.add_assoc] using this
    · rw [if_neg hp]
      -- the separator belongs to the gap before the next run
      have hrest : ∀ o, Runs p o (a :: s) (runsFrom p (o + ByteSized.size a) [] s) := by
        intro o
        have h := ih (o + ByteSized.size a) [] rfl
        apply @Runs.prepend _ _ p o [a] s _ (by simpa using hp)
        simpa using h
      by_cases he : cur = []
      · subst he
        exact hrest off
      · rw [if_neg (by simpa using he)]
        have := @Runs.run _ _ p off [] cur (a :: s) _ rfl hc he (by simpa [headSep] using hp)
          (hrest _)
        simpa using this

/-- **the function returns the runs of the text** -/
theorem runs_spec (p : α → Bool) (off : Nat) (s : List α) : Runs p off s (runs p off s) :=
  runsFrom_spec off [] s rfl

/-- the gap in front of the first run, read off a decomposition -/
theorem takeGap_unique {g t s g' t' s' : List α} (h : g ++ t ++ s = g' ++ t' ++ s')
    (hg : g.all (fun a => !p a) = true) (hg' : g'.all (fun a => !p a) = true)
    (ht : t.all p = true) (ht' : t'.all p = true) (hne : t ≠ []) (hne' : t' ≠ [])
    (hs : headSep p s = true) (hs' : headSep p s' = true) : g = g' ∧ t = t' ∧ s = s' := by
  have hgap : ∀ {g t s : List α}, g.all (fun a => !p a) = true → t.all p = true → t ≠ [] →
      (g ++ t ++ s).takeWhile (fun a => !p a) = g := by
    intro g t s hg ht hne
    cases t with
    | nil => exact absurd rfl hne
    | cons b t =>
      have hb : p b = true := by simp only [List.all_cons, Bool.and_eq_true] at ht; exact ht.1
      rw [List.append_assoc, List.takeWhile_append_of_pos (by simpa using hg)]
      simp [hb]
  have hrun : ∀ {t s : List α}, t.all p = true → headSep p s = true → (t ++ s).takeWhile p = t := by
    intro t s ht hs
    rw [List.takeWhile_append_of_pos (by simpa using ht)]
    cases s with
    | nil => simp
    | cons b s =>
      have hb : p b = false := by simpa [headSep] using hs
      simp [hb]
  have h1 : g = g' := by rw [← @hgap g t s hg ht hne, h, hgap hg' ht' hne']
  subst h1
  rw [List.append_assoc, List.append_assoc, List.append_cancel_left_eq] at h
  have h2 : t = t' := by rw [← @hrun t s ht hs, h, hrun ht' hs']
  subst h2
  exact ⟨rfl, rfl, List.append_cancel_left h⟩

theorem Runs.unique {off : Nat} {s : List α} {rs qs : List (Run α)} (h : Runs p off s rs)
    (h' : Runs p off s qs) : rs = qs := by
  induction h generalizing qs with
  | @gap off g hg =>
    generalize hs : g = s at h'
    cases h' with
    | gap => rfl
    | @run _ g' t s qs hg' ht hne hs' h' =>
      subst hs
      cases t with
      | nil => exact absurd rfl hne
      | cons b t =>
        simp only [List.all_append, List.all_cons, Bool.and_eq_true] at hg ht
        simp [ht.1] at hg
  | @run off g t s rs hg ht hne hs h ih =>
    generalize he : g ++ t ++ s = s' at h'
    cases h' with
    | gap hg' =>
      subst he
      cases t with
      | nil => exact absurd rfl hne
      | cons b t =>
        simp only [List.all_append, List.all_cons, Bool.and_eq_true] at hg' ht
        simp [ht.1] at hg'
    | @run _ g' t' s'' qs hg' ht' hne' hs' h' =>
      obtain ⟨rfl, rfl, rfl⟩ := takeGap_unique he hg hg' ht ht' hne hne' hs hs'
      rw [ih h']

/-! ## the ends of a text -/

/-- no symbol of `p` at the back -/
def lastSep (p : α → Bool) (s : List α) : Bool := headSep p s.reverse

omit [ByteSized α] in
theorem lastSep_append_of_ne_nil {s t : List α} (ht : t ≠ []) :
    lastSep p (s ++ t) = lastSep p t := by
  unfold lastSep
  rw [List.reverse_append]
  have : t.reverse ≠ [] := by simpa using ht
  cases h : t.reverse with
  | nil => exact absurd h this
  | cons a u => rfl

theorem lastSep_of_all {g : List α} (hg : g.all (fun a => !p a) = true) : lastSep p g = true := by
  unfold lastSep
  cases h : g.reverse with
  | nil => rfl
  | cons a u =>
    have ha : a ∈ g := by rw [← List.mem_reverse, h]; exact List.mem_cons_self
    exact List.all_eq_true.mp hg a ha

theorem headSep_of_all {g : List α} (hg : g.all (fun a => !p a) = true) : headSep p g = true := by
  cases g with
  | nil => rfl
  | cons a g =>
    simp only [List.all_cons, Bool.and_eq_true] at hg
    exact hg.1

theorem headSep_append_of_ne_nil {s t : List α} (hs : s ≠ []) :
    headSep p (s ++ t) = headSep p s := by
  cases s with
  | nil => exact absurd rfl hs
  | cons a s => rfl

theorem headSep_of_run {t : List α} (ht : t.all p = true) (hne : t ≠ []) : headSep p t = false := by
  cases t with
  | nil => exact absurd rfl hne
  | cons a t =>
    simp only [List.all_cons, Bool.and_eq_true] at ht
    simp [headSep, ht.1]

theorem lastSep_of_run {t : List α} (ht : t.all p = true) (hne : t ≠ []) : lastSep p t = false :=
  headSep_of_run (by rwa [List.all_reverse]) (by simpa using hne)

/-! ## taking a layout apart -/

theorem Runs.nil_inv {off : Nat} {s : List α} (h : Runs p off s []) :
    s.all (fun a => !p a) = true := by
  cases h with
  | gap hg => exact hg

theorem Runs.cons_inv {off : Nat} {s : List α} {r : Run α} {rs : List (Run α)}
    (h : Runs p off s (r :: rs)) :
    ∃ g s', s = g ++ r.text ++ s' ∧ off + byteLen g = r.start ∧ g.all (fun a => !p a) = true ∧
      r.text.all p = true ∧ r.text ≠ [] ∧ headSep p s' = true ∧ Runs p r.stop s' rs := by
  cases h with
  | @run _ g t s rs hg ht hne hs h => exact ⟨g, s, rfl, rfl, hg, ht, hne, hs, h⟩

/-- **at each run the text falls into the part before, the run and the part after** -/
theorem Runs.split {off : Nat} {s : List α} {l rs : List (Run α)} {r : Run α}
    (h : Runs p off s (l ++ r :: rs)) :
    ∃ a b, s = a ++ r.text ++ b ∧ off + byteLen a = r.start ∧ Runs p off a l ∧
      lastSep p a = true ∧ r.text.all p = true ∧ r.text ≠ [] ∧ headSep p b = true ∧
      Runs p r.stop b rs := by
  induction l generalizing off s with
  | nil =>
    obtain ⟨g, s', rfl, h1, hg, ht, hne, hs, h⟩ := h.cons_inv
    exact ⟨g, s', rfl, h1, Runs.gap hg, lastSep_of_all hg, ht, hne, hs, h⟩
  | cons q l ih =>
    obtain ⟨g, s', rfl, h1, hg, ht, hne, hs, h⟩ := h.cons_inv
    obtain ⟨a, b, rfl, h2, ha, hla, ht', hne', hs', h'⟩ := ih h
    -- two runs never touch, so something separates this run from the next
    have hane : a ≠ [] := by
      intro h0
      rw [h0, List.nil_append, headSep_append_of_ne_nil hne', headSep_of_run ht' hne'] at hs
      cases hs
    refine ⟨g ++ q.text ++ a, b, by simp, ?_, ?_, by rwa [lastSep_append_of_ne_nil hane], ht',
      hne', hs', h'⟩
    · rw [Run.stop] at h2
      simp only [byteLen_append]
      omega
    · have hsa : headSep p a = true := by
        rwa [List.append_assoc, headSep_append_of_ne_nil hane] at hs
      have hq : q = ⟨off + byteLen g, q.text⟩ := by rw [h1]
      rw [hq]
      apply Runs.run hg ht hne hsa
      rw [h1]
      exact ha

/-! ## the words of a text -/

/-- the layouts of two texts, one after the other, when no run crosses the joint -/
theorem Runs.append {off : Nat} {s t : List α} {rs qs : List (Run α)} (h : Runs p off s rs)
    (h' : Runs p (off + byteLen s) t qs) (hj : (lastSep p s || headSep p t) = true) :
    Runs p off (s ++ t) (rs ++ qs) := by
  induction h with
  | gap hg => exact h'.prepend hg
  | @run off g w s rs hg hw hne hs h ih =>
    have hoff : off + byteLen (g ++ w ++ s) = off + byteLen g + byteLen w + byteLen s := by
      simp only [byteLen_append]
      omega
    rw [hoff] at h'
    have hj' : (lastSep p s || headSep p t) = true := by
      by_cases h0 : s = []
      · subst h0
        rfl
      · rwa [lastSep_append_of_ne_nil h0] at hj
    have hst : headSep p (s ++ t) = true := by
      cases s with
      | cons a s => exact hs
      | nil =>
        rw [List.append_nil, lastSep_append_of_ne_nil hne] at hj
        rw [lastSep_of_run hw hne, Bool.false_or] at hj
        exact hj
    have := Runs.run hg hw hne hst (ih h' hj')
    simpa [List.append_assoc] using this

theorem Runs.shift {off : Nat} {s : List α} {rs : List (Run α)} (h : Runs p off s rs) (d : Nat) :
    Runs p (off + d) s (rs.map fun r => ⟨r.start + d, r.text⟩) := by
  induction h with
  | gap hg => exact Runs.gap hg
  | @run off g t s rs hg ht hne hs h ih =>
    have e1 : off + byteLen g + byteLen t + d = off + d + byteLen g + byteLen t := by omega
    have e2 : off + byteLen g + d = off + d + byteLen g := by omega
    rw [e1] at ih
    rw [List.map_cons, e2]
    exact Runs.run hg ht hne hs ih

def words (p : α → Bool) (s : List α) : List (List α) := (runs p 0 s).map Run.text

theorem words_eq_of_runs {off : Nat} {s : List α} {rs : List (Run α)} (h : Runs p off s rs) :
    words p s = rs.map Run.text := by
  have h0 := (runs_spec p 0 s).shift off
  rw [Nat.zero_add] at h0
  rw [h.unique h0, words, List.map_map]
  rfl

/-- **the words of two texts, one after the other** -/
theorem words_append {s t : List α} (hj : (lastSep p s || headSep p t) = true) :
    words p (s ++ t) = words p s ++ words p t := by
  have h := (runs_spec p 0 s).append (runs_spec p _ t) hj
  rw [words_eq_of_runs h, List.map_append, words_eq_of_runs (runs_spec p 0 s),
    words_eq_of_runs (runs_spec p _ t)]

theorem words_gap {g : List α} (hg : g.all (fun a => !p a) = true) : words p g = [] :=
  words_eq_of_runs (@Runs.gap _ _ p 0 g hg)

example : words (· != ' ') ['a', ' ', ' ', 'b', 'c', ' '] = [['a'], ['b', 'c']] := by decide +kernel

/-- separators between two texts do not matter, as long as there are some -/
theorem words_around_gap {g : List α} (s t : List α) (hg : g.all (fun a => !p a) = true)
    (hne : g ≠ []) : words p (s ++ (g ++ t)) = words p s ++ words p t := by
  have h1 : lastSep p (s ++ g) = true := by rw [lastSep_append_of_ne_nil hne, lastSep_of_all hg]
  rw [← List.append_assoc, words_append (by rw [h1, Bool.true_or]),
    words_append (by rw [headSep_of_all hg, Bool.or_true]), words_gap hg, List.append_nil]

theorem words_run {t : List α} (ht : t.all p = true) (hne : t ≠ []) : words p t = [t] := by
  have h : Runs p 0 ([] ++ t ++ []) [⟨0 + byteLen ([] : List α), t⟩] :=
    Runs.run rfl ht hne rfl (Runs.gap rfl)
  rw [List.nil_append, List.append_nil] at h
  exact words_eq_of_runs h

theorem runsFrom_map {β : Type} [ByteSized β] (f : α → β) (q : β → Bool) (hq : ∀ a, q (f a) = p a)
    (off off' : Nat) (cur s : List α) :
    (runsFrom q off' (cur.map f) (s.map f)).map Run.text =
      (runsFrom p off cur s).map fun r => r.text.map f := by
  induction s generalizing off off' cur with
  | nil =>
    by_cases he : cur = []
    · subst he
      rfl
    · simp [runsFrom, he]
  | cons a s ih =>
    unfold runsFrom
    rw [List.map_cons]
    simp only [hq]
    split
    · have := ih (off + ByteSized.size a) (off' + ByteSized.size (f a)) (cur ++ [a])
      rwa [List.map_append] at this
    · have := ih (off + ByteSized.size a) (off' + ByteSized.size (f a)) []
      by_cases he : cur = []
      · subst he
        simpa using this
      · simpa [he] using this

/-- a map that keeps the separators maps the words -/
theorem words_map {β : Type} [ByteSized β] (f : α → β) (q : β → Bool) (hq : ∀ a, q (f a) = p a)
    (s : List α) : words q (s.map f) = (words p s).map (List.map f) := by
  have h := runsFrom_map f q hq 0 0 [] s
  unfold words runs
  rw [List.map_map]
  exact h

/-- every word is a non-empty run of symbols of `p` -/
theorem words_all {s w : List α} (hw : w ∈ words p s) : w ≠ [] ∧ w.all p = true := by
  obtain ⟨off, rs, h, hmem⟩ : ∃ off rs, Runs p off s rs ∧ w ∈ rs.map Run.text :=
    ⟨0, _, runs_spec p 0 s, hw⟩
  clear hw
  induction h with
  | gap => exact absurd hmem (by simp)
  | run hg ht hne hs h ih =>
    rw [List.map_cons, List.mem_cons] at hmem
    rcases hmem with rfl | hmem
    · exact ⟨hne, ht⟩
    · exact ih hmem

theorem Runs.exists_mem {off : Nat} {s : List α} {rs : List (Run α)} (h : Runs p off s rs) {a : α}
    (ha : a ∈ s) (hp : p a = true) : ∃ r ∈ rs, a ∈ r.text := by
  have hgap : ∀ {g : List α}, g.all (fun a => !p a) = true → a ∉ g := by
    intro g hg hmem
    have := List.all_eq_true.mp hg a hmem
    rw [hp] at this
    cases this
  induction h with
  | gap hg => exact absurd ha (hgap hg)
  | run hg ht hne hs h ih =>
    rcases List.mem_append.mp ha with ha | ha
    · rcases List.mem_append.mp ha with ha | ha
      · exact absurd ha (hgap hg)
      · exact ⟨_, List.mem_cons_self, ha⟩
    · obtain ⟨r, hr, har⟩ := ih ha
      exact ⟨r, List.mem_cons_of_mem _ hr, har⟩

/-- every symbol of `p` stands in a word -/
theorem exists_mem_words {s : List α} {a : α} (ha : a ∈ s) (hp : p a = true) :
    ∃ w ∈ words p s, a ∈ w := by
  obtain ⟨r, hr, har⟩ := (runs_spec p 0 s).exists_mem ha hp
  rw [words_eq_of_runs (runs_spec p 0 s)]
  exact ⟨r.text, List.mem_map_of_mem hr, har⟩

/-- the symbols of a word are symbols of the text -/
theorem mem_of_mem_words {s w : List α} {a : α} (hw : w ∈ words p s) (ha : a ∈ w) : a ∈ s := by
  obtain ⟨off, rs, h, hmem⟩ : ∃ off rs, Runs p off s rs ∧ w ∈ rs.map Run.text :=
    ⟨0, _, runs_spec p 0 s, hw⟩
  clear hw
  induction h with
  | gap => exact absurd hmem (by simp)
  | run hg ht hne hs h ih =>
    rw [List.map_cons, List.mem_cons] at hmem
    rcases hmem with rfl | hmem
    · exact List.mem_append_left _ (List.mem_append_right _ ha)
    · exact List.mem_append_right _ (ih hmem)

/-- **a non-empty block of runs cuts the text before and after it** -/
theorem Runs.segment {off : Nat} {s : List α} {l m r : List (Run α)} {first last : Run α}
    (h : Runs p off s (l ++ (m ++ r))) (hf : m.head? = some first) (hl : m.getLast? = some last) :
    ∃ a w b, s = a ++ w ++ b ∧ off + byteLen a = first.start ∧
      off + byteLen a + byteLen w = last.stop ∧ Runs p off a l ∧ lastSep p a = true ∧
      words p w = m.map Run.text ∧ headSep p w = false ∧ headSep p b = true ∧
      Runs p last.stop b r := by
  obtain ⟨m, rfl⟩ : ∃ m', m = first :: m' := by
    cases m with
    | nil => cases hf
    | cons x m' => exact ⟨m', by rw [Option.some.inj hf]⟩
  rw [List.cons_append] at h
  obtain ⟨a, s₁, rfl, ha, hra, hla, ht, hne, hs₁, hr₁⟩ := h.split
  have hw0 : Runs p first.start first.text [first] := by
    have := @Runs.run _ _ p first.start [] first.text [] [] rfl ht hne rfl (Runs.gap rfl)
    simpa using this
  by_cases hm : m = []
  · subst hm
    obtain rfl : first = last := Option.some.inj hl
    refine ⟨a, first.text, s₁, rfl, ha, by rw [Run.stop]; omega, hra, hla, ?_,
      headSep_of_run ht hne, hs₁, hr₁⟩
    exact words_eq_of_runs hw0
  · obtain ⟨m', hm'⟩ : ∃ m', m = m' ++ [last] := by
      obtain ⟨m', x, rfl⟩ := (List.eq_nil_or_concat m).resolve_left hm
      rw [List.getLast?_cons_of_ne_nil hm, List.concat_eq_append, List.getLast?_concat] at hl
      exact ⟨m', by rw [List.concat_eq_append, Option.some.inj hl]⟩
    subst hm'
    rw [List.append_assoc, List.singleton_append] at hr₁
    obtain ⟨c, b, rfl, hc, hrc, hlc, ht', hne', hb, hrb⟩ := hr₁.split
    have hcne : headSep p c = true ∧ c ≠ [] := by
      have hcn : c ≠ [] := by
        intro h0
        rw [h0, List.nil_append, headSep_append_of_ne_nil hne', headSep_of_run ht' hne'] at hs₁
        cases hs₁
      rw [List.append_assoc, headSep_append_of_ne_nil hcn] at hs₁
      exact ⟨hs₁, hcn⟩
    refine ⟨a, first.text ++ c ++ last.text, b, by simp, ha, ?_, hra, hla, ?_, ?_, hb, hrb⟩
    · rw [Run.stop] at hc ⊢
      simp only [byteLen_append]
      omega
    · rw [words_append (by rw [lastSep_append_of_ne_nil hcne.2, hlc, Bool.true_or]),
        words_append (by rw [hcne.1, Bool.or_true]), words_run ht hne, words_run ht' hne',
        words_eq_of_runs hrc]
      simp
    · rw [List.append_assoc, headSep_append_of_ne_nil hne]
      exact headSep_of_run ht hne

end

end Voisu.Lib
