import Mathlib.Logic.Relation
import Mathlib.Data.List.Basic

/-!
# Walks over references

A node holds references, and a reference leads to another node, to none, or fails.  The walk goes depth
first and passes over a node that it has seen.

* `Net`                    the references of nodes;
* `traverse`               the walk, with what is done at a node;
* `Leg`                    what a part of a walk does: the nodes it enters, in order;
* `traverse_ok`            **a walk that ends enters every node that is reached, once**;
* `traverse_failed`        a walk that fails does so at a node that is reached;
* `traverse_fuel`          **as much fuel as there are nodes is enough**.
-/

set_option linter.unusedSectionVars false

namespace Voisu.Lib

structure Net (β ι ε : Type) where
  refs : β → Except ε (List ι)
  follow : β → ι → Except ε (Option β)

inductive Halt (ε : Type) where
  | outOfFuel
  | failed (e : ε)
deriving DecidableEq, Repr

namespace Net
variable {β ι ε σ : Type} [DecidableEq β]

/-- the references of `n`, one after the other -/
def each (G : Net β ι ε) (call : β → List β × σ → Except (Halt ε) (List β × σ)) (n : β) :
    List ι → List β × σ → Except (Halt ε) (List β × σ)
  | [], st => .ok st
  | i :: refs, st =>
    match G.follow n i with
    | .error e => .error (.failed e)
    | .ok none => each G call n refs st
    | .ok (some m) =>
      match call m st with
      | .error stop => .error stop
      | .ok st => each G call n refs st

/-- fuel is used by the nodes that are entered -/
def traverse (G : Net β ι ε) (visit : β → σ → Except ε σ) :
    Nat → β → List β × σ → Except (Halt ε) (List β × σ)
  | 0, n, st => if n ∈ st.1 then .ok st else .error .outOfFuel
  | fuel + 1, n, st =>
    if n ∈ st.1 then .ok st
    else
      match visit n st.2 with
      | .error e => .error (.failed e)
      | .ok s =>
        match G.refs n with
        | .error e => .error (.failed e)
        | .ok refs => each G (traverse G visit fuel) n refs (n :: st.1, s)

/-! ## what is reached -/

variable (G : Net β ι ε)

def Edge (n m : β) : Prop := ∃ refs, G.refs n = .ok refs ∧ ∃ i ∈ refs, G.follow n i = .ok (some m)

abbrev Reach : β → β → Prop := Relation.ReflTransGen G.Edge

/-- no reference of the node fails -/
def Sound (n : β) : Prop :=
  ∃ refs, G.refs n = .ok refs ∧ ∀ i ∈ refs, ∃ next, G.follow n i = .ok next

/-- what a part of a walk does: it enters the nodes of `order`, whose references it follows -/
structure Leg (visit : β → σ → Except ε σ) (st st' : List β × σ) (order : List β) : Prop where
  seen : st'.1 = order.reverse ++ st.1
  state : order.foldlM (fun s n => visit n s) st.2 = .ok st'.2
  nodup : order.Nodup
  fresh : ∀ m ∈ order, m ∉ st.1
  sound : ∀ m ∈ order, G.Sound m
  closed : ∀ m ∈ order, ∀ c, G.Edge m c → c ∈ st'.1

variable {G} {visit : β → σ → Except ε σ} {st st₁ st₂ st' : List β × σ} {order order₁ order₂ : List β}
  {n m : β} {fuel : Nat} {call : β → List β × σ → Except (Halt ε) (List β × σ)}

theorem Leg.refl (st : List β × σ) : G.Leg visit st st [] :=
  ⟨rfl, rfl, List.nodup_nil, nofun, nofun, nofun⟩

theorem Leg.subset (h : G.Leg visit st st' order) (hm : m ∈ st.1) : m ∈ st'.1 := by
  rw [h.seen]
  exact List.mem_append_right _ hm

theorem Leg.mem (h : G.Leg visit st st' order) (hm : m ∈ order) : m ∈ st'.1 := by
  rw [h.seen]
  exact List.mem_append_left _ (List.mem_reverse.2 hm)

theorem Leg.trans (h₁ : G.Leg visit st st₁ order₁) (h₂ : G.Leg visit st₁ st₂ order₂) :
    G.Leg visit st st₂ (order₁ ++ order₂) where
  seen := by
    rw [h₂.seen, h₁.seen, List.reverse_append, List.append_assoc]
  state := by
    rw [List.foldlM_append, h₁.state]
    exact h₂.state
  nodup := by
    rw [List.nodup_append]
    exact ⟨h₁.nodup, h₂.nodup, fun a ha b hb heq => h₂.fresh b hb (heq ▸ h₁.mem ha)⟩
  fresh m hm := by
    rcases List.mem_append.1 hm with hm | hm
    · exact h₁.fresh m hm
    · exact fun hseen => h₂.fresh m hm (h₁.subset hseen)
  sound m hm := (List.mem_append.1 hm).elim (h₁.sound m) (h₂.sound m)
  closed m hm c hc := by
    rcases List.mem_append.1 hm with hm | hm
    · exact h₂.subset (h₁.closed m hm c hc)
    · exact h₂.closed m hm c hc

/-- a node is entered, and its references are followed -/
theorem Leg.enter {s : σ} {refs : List ι} (hn : n ∉ st.1) (hvisit : visit n st.2 = .ok s)
    (hrefs : G.refs n = .ok refs) (hleg : G.Leg visit (n :: st.1, s) st' order)
    (hfollow : ∀ i ∈ refs, ∃ next, G.follow n i = .ok next ∧ ∀ m ∈ next, m ∈ st'.1) :
    G.Leg visit st st' (n :: order) where
  seen := by
    rw [hleg.seen, List.reverse_cons, List.append_assoc]
    rfl
  state := by
    rw [List.foldlM_cons, hvisit]
    exact hleg.state
  nodup := by
    exact List.nodup_cons.2 ⟨fun hm => hleg.fresh n hm List.mem_cons_self, hleg.nodup⟩
  fresh m hm := by
    rcases List.mem_cons.1 hm with rfl | hm
    · exact hn
    · exact fun hseen => hleg.fresh m hm (List.mem_cons_of_mem _ hseen)
  sound m hm := by
    rcases List.mem_cons.1 hm with rfl | hm
    · exact ⟨refs, hrefs, fun i hi => (hfollow i hi).imp fun _ h => h.1⟩
    · exact hleg.sound m hm
  closed m hm c hc := by
    rcases List.mem_cons.1 hm with rfl | hm
    · obtain ⟨refs', hrefs', i, hi, hto⟩ := hc
      obtain rfl := Except.ok.inj (hrefs.symm.trans hrefs')
      obtain ⟨next, hnext, hkeys⟩ := hfollow i hi
      obtain rfl := Except.ok.inj (hto.symm.trans hnext)
      exact hkeys c rfl
    · exact hleg.closed m hm c hc

/-! ## a walk that ends -/

theorem each_ok (hcall : ∀ m st st', call m st = .ok st' →
      ∃ order, G.Leg visit st st' order ∧ m ∈ st'.1 ∧ ∀ x ∈ order, G.Reach m x)
    {refs : List ι} (h : each G call n refs st = .ok st') :
    ∃ order, G.Leg visit st st' order ∧
      (∀ i ∈ refs, ∃ next, G.follow n i = .ok next ∧ ∀ m ∈ next, m ∈ st'.1) ∧
      ∀ x ∈ order, ∃ i ∈ refs, ∃ m, G.follow n i = .ok (some m) ∧ G.Reach m x := by
  induction refs generalizing st with
  | nil =>
    obtain rfl := Except.ok.inj h
    exact ⟨[], .refl st, nofun, nofun⟩
  | cons i refs ih =>
    rw [each] at h
    cases hfollow : G.follow n i with
    | error e =>
      rw [hfollow] at h
      cases h
    | ok next =>
      rw [hfollow] at h
      cases next with
      | none =>
        obtain ⟨order, hleg, hrefs, hreach⟩ := ih h
        refine ⟨order, hleg, List.forall_mem_cons.2 ⟨⟨none, hfollow, nofun⟩, hrefs⟩, fun x hx => ?_⟩
        obtain ⟨j, hj, m, hm⟩ := hreach x hx
        exact ⟨j, List.mem_cons_of_mem _ hj, m, hm⟩
      | some m =>
        dsimp only at h
        cases hstep : call m st with
        | error stop =>
          rw [hstep] at h
          cases h
        | ok st₁ =>
          rw [hstep] at h
          obtain ⟨order₁, hleg₁, hkey, hreach₁⟩ := hcall m st st₁ hstep
          obtain ⟨order₂, hleg₂, hrefs, hreach₂⟩ := ih h
          refine ⟨order₁ ++ order₂, hleg₁.trans hleg₂, List.forall_mem_cons.2 ⟨⟨some m, hfollow, ?_⟩,
            hrefs⟩, fun x hx => ?_⟩
          · intro m' hm'
            obtain rfl := Option.some.inj hm'
            exact hleg₂.subset hkey
          · rcases List.mem_append.1 hx with hx | hx
            · exact ⟨i, List.mem_cons_self, m, hfollow, hreach₁ x hx⟩
            · obtain ⟨j, hj, m', hm'⟩ := hreach₂ x hx
              exact ⟨j, List.mem_cons_of_mem _ hj, m', hm'⟩

/-- **a walk that ends has entered nodes that are reached, none twice, and all that they lead to** -/
theorem traverse_ok (h : traverse G visit fuel n st = .ok st') :
    ∃ order, G.Leg visit st st' order ∧ n ∈ st'.1 ∧ ∀ x ∈ order, G.Reach n x := by
  induction fuel generalizing n st st' with
  | zero =>
    rw [traverse] at h
    split at h
    next hseen =>
      obtain rfl := Except.ok.inj h
      exact ⟨[], .refl st, hseen, nofun⟩
    · cases h
  | succ fuel ih =>
    rw [traverse] at h
    split at h
    next hseen =>
      obtain rfl := Except.ok.inj h
      exact ⟨[], .refl st, hseen, nofun⟩
    next hseen =>
      cases hvisit : visit n st.2 with
      | error e =>
        rw [hvisit] at h
        cases h
      | ok s =>
        rw [hvisit] at h
        dsimp only at h
        cases hrefs : G.refs n with
        | error e =>
          rw [hrefs] at h
          cases h
        | ok refs =>
          rw [hrefs] at h
          obtain ⟨order, hleg, hfollow, hreach⟩ := each_ok (fun m st st' h => ih h) h
          refine ⟨n :: order, hleg.enter hseen hvisit hrefs hfollow,
            hleg.subset List.mem_cons_self, fun x hx => ?_⟩
          rcases List.mem_cons.1 hx with rfl | hx
          · exact .refl
          · obtain ⟨i, hi, m, hm, hto⟩ := hreach x hx
            exact .head ⟨refs, hrefs, i, hi, hm⟩ hto

/-- everything that is reached is entered -/
theorem Leg.complete {s : σ} (hleg : G.Leg visit ([], s) st' order) (hn : n ∈ st'.1)
    (h : G.Reach n m) : m ∈ order := by
  have hmem {x : β} : x ∈ st'.1 ↔ x ∈ order := by
    rw [hleg.seen, List.append_nil, List.mem_reverse]
  induction h with
  | refl => exact hmem.1 hn
  | tail _ hedge ih => exact hmem.1 (hleg.closed _ ih _ hedge)

/-! ## a walk that fails -/

theorem each_failed {e : ε} {refs : List ι}
    (hcall : ∀ m st, call m st = .error (.failed e) →
      ∃ x, G.Reach m x ∧ (¬G.Sound x ∨ ∃ s, visit x s = .error e))
    (h : each G call n refs st = .error (.failed e)) :
    (∃ i ∈ refs, G.follow n i = .error e) ∨ ∃ i ∈ refs, ∃ m, G.follow n i = .ok (some m) ∧
      ∃ x, G.Reach m x ∧ (¬G.Sound x ∨ ∃ s, visit x s = .error e) := by
  induction refs generalizing st with
  | nil => cases h
  | cons i refs ih =>
    have hcons {P : ι → Prop} (h : ∃ j ∈ refs, P j) : ∃ j ∈ i :: refs, P j :=
      h.imp fun j hj => ⟨List.mem_cons_of_mem _ hj.1, hj.2⟩
    rw [each] at h
    cases hfollow : G.follow n i with
    | error e' =>
      rw [hfollow] at h
      cases h
      exact .inl ⟨i, List.mem_cons_self, hfollow⟩
    | ok next =>
      rw [hfollow] at h
      cases next with
      | none => exact (ih h).imp hcons hcons
      | some m =>
        dsimp only at h
        cases hstep : call m st with
        | error stop =>
          rw [hstep] at h
          obtain rfl := Except.error.inj h
          exact .inr ⟨i, List.mem_cons_self, m, hfollow, hcall m st hstep⟩
        | ok st₁ =>
          rw [hstep] at h
          exact (ih h).imp hcons hcons

/-- **a walk that fails does so at a node that is reached** -/
theorem traverse_failed {e : ε} (h : traverse G visit fuel n st = .error (.failed e)) :
    ∃ x, G.Reach n x ∧ (¬G.Sound x ∨ ∃ s, visit x s = .error e) := by
  induction fuel generalizing n st with
  | zero =>
    rw [traverse] at h
    split at h <;> cases h
  | succ fuel ih =>
    rw [traverse] at h
    split at h
    · cases h
    cases hvisit : visit n st.2 with
    | error e' =>
      rw [hvisit] at h
      cases h
      exact ⟨n, .refl, .inr ⟨st.2, hvisit⟩⟩
    | ok s =>
      rw [hvisit] at h
      dsimp only at h
      cases hrefs : G.refs n with
      | error e' =>
        rw [hrefs] at h
        cases h
        refine ⟨n, .refl, .inl fun ⟨refs, hok, _⟩ => ?_⟩
        rw [hrefs] at hok
        cases hok
      | ok refs =>
        rw [hrefs] at h
        rcases each_failed (fun m st h => ih h) h with ⟨i, hi, hfollow⟩ | ⟨i, hi, m, hm, x, hx, hbad⟩
        · refine ⟨n, .refl, .inl fun ⟨refs', hok, hall⟩ => ?_⟩
          obtain rfl := Except.ok.inj (hrefs.symm.trans hok)
          obtain ⟨next, hnext⟩ := hall i hi
          rw [hfollow] at hnext
          cases hnext
        · exact ⟨x, .head ⟨refs, hrefs, i, hi, hm⟩ hx, hbad⟩

/-! ## fuel -/

/-- the nodes that are not seen yet -/
def unseen (nodes seen : List β) : Nat := (nodes.filter fun n => n ∉ seen).length

theorem unseen_mono {nodes seen seen' : List β} (h : seen ⊆ seen') :
    unseen nodes seen' ≤ unseen nodes seen := by
  refine (List.monotone_filter_right nodes fun n hn => ?_).length_le
  rw [decide_eq_true_eq] at hn ⊢
  exact fun hmem => hn (h hmem)

theorem unseen_cons {nodes seen : List β} (hn : n ∈ nodes) (hseen : n ∉ seen) :
    unseen nodes (n :: seen) < unseen nodes seen := by
  have hsplit : nodes.filter (fun m => m ∉ n :: seen) =
      (nodes.filter fun m => m ∉ seen).filter fun m => m ≠ n := by
    rw [List.filter_filter]
    refine List.filter_congr fun m _ => ?_
    simp
  rw [unseen, unseen, hsplit]
  refine List.length_filter_lt_length_iff_exists.2 ⟨n, ?_, by simp⟩
  exact List.mem_filter.2 ⟨hn, by simpa using hseen⟩

theorem each_fuel {nodes : List β} {bound : Nat} {refs : List ι}
    (hok : ∀ m st st', call m st = .ok st' → st.1 ⊆ st'.1)
    (hcall : ∀ m st, (∃ i ∈ refs, G.follow n i = .ok (some m)) → unseen nodes st.1 ≤ bound →
      call m st ≠ .error .outOfFuel)
    (hst : unseen nodes st.1 ≤ bound) : each G call n refs st ≠ .error .outOfFuel := by
  induction refs generalizing st with
  | nil => exact nofun
  | cons i refs ih =>
    have ih := fun st hst => @ih st (fun m st ⟨j, hj, hm⟩ => hcall m st
      ⟨j, List.mem_cons_of_mem _ hj, hm⟩) hst
    rw [each]
    cases hfollow : G.follow n i with
    | error e => exact nofun
    | ok next =>
      cases next with
      | none => exact ih st hst
      | some m =>
        have hm := hcall m st ⟨i, List.mem_cons_self, hfollow⟩ hst
        dsimp only
        cases hstep : call m st with
        | error stop =>
          rw [hstep] at hm
          exact fun h => hm h
        | ok st₁ => exact ih st₁ (Nat.le_trans (unseen_mono (hok m st st₁ hstep)) hst)

/-- **as much fuel as there are nodes is enough** -/
theorem traverse_fuel {nodes : List β} (hnodes : ∀ m c, G.Edge m c → c ∈ nodes)
    (hst : n ∈ nodes ∧ unseen nodes st.1 ≤ fuel ∨ unseen nodes st.1 < fuel) :
    traverse G visit fuel n st ≠ .error .outOfFuel := by
  induction fuel generalizing n st with
  | zero =>
    rw [traverse]
    split
    · exact nofun
    next hseen =>
      rcases hst with ⟨hn, hle⟩ | hlt
      · have := unseen_cons hn hseen
        omega
      · omega
  | succ fuel ih =>
    rw [traverse]
    split
    · exact nofun
    next hseen =>
      cases visit n st.2 with
      | error e => exact nofun
      | ok s =>
        dsimp only
        cases hrefs : G.refs n with
        | error e => exact nofun
        | ok refs =>
          have hbound : unseen nodes (n :: st.1) ≤ fuel := by
            rcases hst with ⟨hn, hle⟩ | hlt
            · have := unseen_cons hn hseen
              omega
            · have := @unseen_mono _ _ nodes _ _ (List.subset_cons_self n st.1)
              omega
          refine each_fuel (fun m st st' h => ?_) (fun m st ⟨i, hi, hm⟩ hle => ?_) hbound
          · obtain ⟨order, hleg, -⟩ := traverse_ok h
            exact fun x hx => hleg.subset hx
          · exact ih (.inl ⟨hnodes n m ⟨refs, hrefs, i, hi, hm⟩, hle⟩)

end Net

end Voisu.Lib
