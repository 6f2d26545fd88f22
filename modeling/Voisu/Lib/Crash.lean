import Mathlib.Order.Defs.Unbundled
import Voisu.Lib.Except

/-!
# Programs that can stop anywhere

A program works on a state that outlives it.  The environment says how each operation ends: it is
done, it fails, or the process dies in it; in the last two cases a part of the work may be done.

* `Prog`        programs, as functions of the state and of the fates of their operations;
* `operation`   one operation, with what is left when only a part of it is done;
* `Meets`       what a program may have done to the state wherever it stops, and a postcondition
                when it returns;
* `Finishes`    the program returns when no operation fails.
-/

namespace Voisu.Lib

/-! ## programs -/

/-- how an operation ends; `part` is what was done of one that did not end well -/
inductive Fate (ω π : Type) where
  | done
  | fail (part : Option π) (error : ω)
  | crash (part : Option π)
deriving DecidableEq, Repr

inductive Ending (ε α : Type) where
  | ok (a : α)
  | error (e : ε)
  | crash
deriving DecidableEq, Repr

structure Stop (σ ω π ε α : Type) where
  state : σ
  fates : List (Fate ω π)
  ending : Ending ε α

def Prog (σ ω π ε α : Type) := σ → List (Fate ω π) → Stop σ ω π ε α

namespace Prog
variable {σ ω π ε ε' α β : Type}

protected def pure (a : α) : Prog σ ω π ε α := fun s fates => ⟨s, fates, .ok a⟩

protected def bind (m : Prog σ ω π ε α) (f : α → Prog σ ω π ε β) : Prog σ ω π ε β := fun s fates =>
  let stop := m s fates
  match stop.ending with
  | .ok a => f a stop.state stop.fates
  | .error e => ⟨stop.state, stop.fates, .error e⟩
  | .crash => ⟨stop.state, stop.fates, .crash⟩

instance : Monad (Prog σ ω π ε) where
  pure := Prog.pure
  bind := Prog.bind

def throw (e : ε) : Prog σ ω π ε α := fun s fates => ⟨s, fates, .error e⟩

def mapErr (f : ε → ε') (m : Prog σ ω π ε α) : Prog σ ω π ε' α := fun s fates =>
  let stop := m s fates
  ⟨stop.state, stop.fates,
    match stop.ending with
    | .ok a => .ok a
    | .error e => .error (f e)
    | .crash => .crash⟩

/-- a failure is dropped, a crash is not -/
def ignore (m : Prog σ ω π ε α) : Prog σ ω π ε' Unit := fun s fates =>
  let stop := m s fates
  ⟨stop.state, stop.fates,
    match stop.ending with
    | .crash => .crash
    | _ => .ok ()⟩

/-- `cleanup` runs when `m` fails, and its own failure is dropped -/
def onError (m : Prog σ ω π ε α) (cleanup : Prog σ ω π ε Unit) : Prog σ ω π ε α := fun s fates =>
  let stop := m s fates
  match stop.ending with
  | .error e => (Prog.bind (ignore cleanup) fun _ => throw e) stop.state stop.fates
  | _ => stop

def require (c : Bool) (e : ε) : Prog σ ω π ε Unit := if c then Prog.pure () else throw e

def lift : Except ε α → Prog σ ω π ε α
  | .ok a => Prog.pure a
  | .error e => throw e

def operation (failed : ω → ε) (partly : π → σ → σ) (work : σ → Except ε (α × σ)) :
    Prog σ ω π ε α := fun s fates =>
  match fates with
  | .fail part e :: fates => ⟨part.elim s (partly · s), fates, .error (failed e)⟩
  | .crash part :: fates => ⟨part.elim s (partly · s), fates, .crash⟩
  | fates =>
    match work s with
    | .ok (a, s') => ⟨s', fates.tail, .ok a⟩
    | .error e => ⟨s, fates.tail, .error e⟩

/-- an operation that is all or nothing -/
def atomic (failed : ω → ε) (work : σ → Except ε (α × σ)) : Prog σ ω π ε α :=
  operation failed (fun _ s => s) work

/-- an operation that only looks -/
def look (failed : ω → ε) (see : σ → Except ε α) : Prog σ ω π ε α :=
  atomic failed fun s => (see s).map (·, s)

/-! ## what holds wherever a program stops -/

/-- from `P` on, `m` stops in a state that `R` allows, and has `Q` when it returns -/
def Meets (R : σ → σ → Prop) (P : σ → Prop) (m : Prog σ ω π ε α) (Q : α → σ → Prop) : Prop :=
  ∀ s fates, P s →
    R s (m s fates).state ∧ ∀ a, (m s fates).ending = .ok a → Q a (m s fates).state

section meets
variable {R R' : σ → σ → Prop} {P P' : σ → Prop} {Q Q' : α → σ → Prop} {T : β → σ → Prop}

theorem Meets.pre {m : Prog σ ω π ε α} (h : Meets R P' m Q) (hpre : ∀ s, P s → P' s) :
    Meets R P m Q := fun s fates hP => h s fates (hpre s hP)

theorem Meets.post {m : Prog σ ω π ε α} (h : Meets R P m Q') (hpost : ∀ a s, Q' a s → Q a s) :
    Meets R P m Q := by
  intro s fates hP
  obtain ⟨hR, hQ⟩ := h s fates hP
  exact ⟨hR, fun a ha => hpost a _ (hQ a ha)⟩

theorem Meets.weaken {m : Prog σ ω π ε α} (h : Meets R P m Q)
    (hR : ∀ s s', P s → R s s' → R' s s') : Meets R' P m Q := by
  intro s fates hP
  obtain ⟨hRs, hQ⟩ := h s fates hP
  exact ⟨hR _ _ hP hRs, hQ⟩

/-- what `R` keeps may be carried along -/
theorem Meets.frame {m : Prog σ ω π ε α} (h : Meets R P m Q) {F : σ → Prop}
    (hF : ∀ s s', F s → R s s' → F s') :
    Meets R (fun s => P s ∧ F s) m fun a s => Q a s ∧ F s := by
  intro s fates hPF
  obtain ⟨hRs, hQ⟩ := h s fates hPF.1
  exact ⟨hRs, fun a ha => ⟨hQ a ha, hF _ _ hPF.2 hRs⟩⟩

theorem Meets.pure [Std.Refl R] (a : α) :
    Meets R (Q a) (Pure.pure a : Prog σ ω π ε α) Q := by
  intro s fates hQ
  refine ⟨Std.Refl.refl s, fun b hb => ?_⟩
  obtain rfl := Ending.ok.inj hb
  exact hQ

theorem Meets.throw [Std.Refl R] (e : ε) : Meets R P (throw e : Prog σ ω π ε α) Q :=
  fun s _ _ => ⟨Std.Refl.refl s, nofun⟩

theorem Meets.bind [IsTrans σ R] {m : Prog σ ω π ε α}
    {f : α → Prog σ ω π ε β} (hm : Meets R P m Q) (hf : ∀ a, Meets R (Q a) (f a) T) :
    Meets R P (m >>= f) T := by
  intro s fates hP
  obtain ⟨hR, hQ⟩ := hm s fates hP
  show R s (Prog.bind m f s fates).state ∧
    ∀ b, (Prog.bind m f s fates).ending = .ok b → T b (Prog.bind m f s fates).state
  unfold Prog.bind
  dsimp only
  cases hend : (m s fates).ending with
  | ok a =>
    obtain ⟨hR', hT⟩ := hf a _ (m s fates).fates (hQ a hend)
    exact ⟨IsTrans.trans _ _ _ hR hR', hT⟩
  | error e => exact ⟨hR, nofun⟩
  | crash => exact ⟨hR, nofun⟩

theorem Meets.mapErr {m : Prog σ ω π ε α} (h : Meets R P m Q) (f : ε → ε') :
    Meets R P (m.mapErr f) Q := by
  intro s fates hP
  obtain ⟨hR, hQ⟩ := h s fates hP
  refine ⟨hR, fun a ha => hQ a ?_⟩
  unfold Prog.mapErr at ha
  dsimp only at ha
  cases hend : (m s fates).ending with
  | ok b =>
    rw [hend] at ha
    obtain rfl := Ending.ok.inj ha
    rfl
  | error e =>
    rw [hend] at ha
    cases ha
  | crash =>
    rw [hend] at ha
    cases ha

/-- a failure may stop anywhere, so nothing else is left of it -/
theorem Meets.ignore {m : Prog σ ω π ε α} (h : Meets R P m Q) :
    Meets R P (ignore m : Prog σ ω π ε' Unit) fun _ _ => True :=
  fun s fates hP => ⟨(h s fates hP).1, fun _ _ => trivial⟩

theorem Meets.onError [Std.Refl R] [IsTrans σ R] {m : Prog σ ω π ε α} {cleanup : Prog σ ω π ε Unit} (hm : Meets R P m Q)
    (hc : Meets R (fun _ => True) cleanup fun _ _ => True) : Meets R P (m.onError cleanup) Q := by
  intro s fates hP
  obtain ⟨hR, hQ⟩ := hm s fates hP
  unfold Prog.onError
  dsimp only
  cases hend : (m s fates).ending with
  | ok a => exact ⟨hR, fun b hb => hQ b hb⟩
  | crash => exact ⟨hR, fun b hb => hQ b hb⟩
  | error e =>
    have hrest : Meets R (fun _ => True) (Prog.bind (Prog.ignore cleanup) fun _ => Prog.throw e) Q :=
      Meets.bind hc.ignore fun _ => Meets.throw e
    obtain ⟨hR', hQ'⟩ := hrest (m s fates).state (m s fates).fates trivial
    exact ⟨IsTrans.trans _ _ _ hR hR', hQ'⟩

theorem Meets.require [Std.Refl R] {c : Bool} {e : ε} :
    Meets R P (require c e : Prog σ ω π ε Unit) fun _ s => P s ∧ c = true := by
  unfold Prog.require
  split
  · rename_i hc
    exact fun s fates hP => ⟨Std.Refl.refl s, fun _ _ => ⟨hP, hc⟩⟩
  · exact Meets.throw e

theorem Meets.lift [Std.Refl R] {x : Except ε α} :
    Meets R P (lift x : Prog σ ω π ε α) fun a s => P s ∧ x = .ok a := by
  cases x with
  | error e => exact Meets.throw e
  | ok a =>
    intro s fates hP
    refine ⟨Std.Refl.refl s, fun b hb => ⟨hP, ?_⟩⟩
    obtain rfl := Ending.ok.inj hb
    rfl

theorem Meets.operation [Std.Refl R] {failed : ω → ε} {partly : π → σ → σ}
    {work : σ → Except ε (α × σ)} (hpart : ∀ s part, P s → R s (partly part s))
    (hwork : ∀ s a s', P s → work s = .ok (a, s') → R s s' ∧ Q a s') :
    Meets R P (operation failed partly work) Q := by
  have hparts : ∀ s (part : Option π), P s → R s (part.elim s (partly · s)) := by
    intro s part hP
    cases part with
    | none => exact Std.Refl.refl s
    | some part => exact hpart s part hP
  intro s fates hP
  unfold Prog.operation
  split
  · exact ⟨hparts s _ hP, nofun⟩
  · exact ⟨hparts s _ hP, nofun⟩
  · split
    · rename_i a s' hw
      obtain ⟨hR, hQ⟩ := hwork s a s' hP hw
      refine ⟨hR, fun b hb => ?_⟩
      obtain rfl := Ending.ok.inj hb
      exact hQ
    · exact ⟨Std.Refl.refl s, nofun⟩

theorem Meets.atomic [Std.Refl R] {failed : ω → ε} {work : σ → Except ε (α × σ)}
    (hwork : ∀ s a s', P s → work s = .ok (a, s') → R s s' ∧ Q a s') :
    Meets R P (atomic failed work : Prog σ ω π ε α) Q :=
  Meets.operation (fun s _ _ => Std.Refl.refl s) hwork

theorem Meets.look [Std.Refl R] {failed : ω → ε} {see : σ → Except ε α} :
    Meets R P (look failed see : Prog σ ω π ε α) fun a s => P s ∧ see s = .ok a := by
  refine Meets.atomic fun s a s' hP hw => ?_
  cases hsee : see s with
  | error e =>
    rw [hsee] at hw
    cases hw
  | ok b =>
    rw [hsee] at hw
    cases hw
    exact ⟨Std.Refl.refl s, hP, hsee⟩

end meets

/-! ## programs that nothing disturbs -/

/-- from `P` on, `m` returns with `Q` when every operation is done -/
def Finishes (P : σ → Prop) (m : Prog σ ω π ε α) (Q : α → σ → Prop) : Prop :=
  ∀ s, P s → ∃ a s', m s [] = ⟨s', [], .ok a⟩ ∧ Q a s'

section finishes
variable {P P' : σ → Prop} {Q Q' : α → σ → Prop} {R : β → σ → Prop}

theorem Finishes.pre {m : Prog σ ω π ε α} (h : Finishes P' m Q) (hpre : ∀ s, P s → P' s) :
    Finishes P m Q := fun s hP => h s (hpre s hP)

theorem Finishes.post {m : Prog σ ω π ε α} (h : Finishes P m Q') (hpost : ∀ a s, Q' a s → Q a s) :
    Finishes P m Q := by
  intro s hP
  obtain ⟨a, s', hm, hQ⟩ := h s hP
  exact ⟨a, s', hm, hpost a s' hQ⟩

theorem Finishes.pure (a : α) : Finishes (Q a) (Pure.pure a : Prog σ ω π ε α) Q :=
  fun s hQ => ⟨a, s, rfl, hQ⟩

theorem Finishes.bind {m : Prog σ ω π ε α} {f : α → Prog σ ω π ε β} (hm : Finishes P m Q)
    (hf : ∀ a, Finishes (Q a) (f a) R) : Finishes P (m >>= f) R := by
  intro s hP
  obtain ⟨a, s', hms, hQ⟩ := hm s hP
  obtain ⟨b, s'', hfs, hR⟩ := hf a s' hQ
  refine ⟨b, s'', ?_, hR⟩
  show Prog.bind m f s [] = _
  unfold Prog.bind
  rw [hms]
  exact hfs

theorem Finishes.mapErr {m : Prog σ ω π ε α} (h : Finishes P m Q) (f : ε → ε') :
    Finishes P (m.mapErr f) Q := by
  intro s hP
  obtain ⟨a, s', hm, hQ⟩ := h s hP
  exact ⟨a, s', by rw [Prog.mapErr, hm], hQ⟩

theorem operation_nil (failed : ω → ε) (partly : π → σ → σ) (work : σ → Except ε (α × σ)) (s : σ) :
    operation failed partly work s [] =
      match work s with
      | .ok (a, s') => ⟨s', [], .ok a⟩
      | .error e => ⟨s, [], .error e⟩ := rfl

/-- an operation whose failure is dropped: the state it leaves either way -/
theorem Finishes.ignoreOperation {failed : ω → ε} {partly : π → σ → σ}
    {work : σ → Except ε (α × σ)} {P' : σ → Prop} (hok : ∀ s a s', P s → work s = .ok (a, s') → P' s')
    (herr : ∀ s e, P s → work s = .error e → P' s) :
    Finishes P (ignore (operation failed partly work) : Prog σ ω π ε' Unit) fun _ s => P' s := by
  intro s hP
  cases hw : work s with
  | ok out =>
    obtain ⟨a, s'⟩ := out
    exact ⟨(), s', by simp only [Prog.ignore, operation_nil, hw], hok s a s' hP hw⟩
  | error e => exact ⟨(), s, by simp only [Prog.ignore, operation_nil, hw], herr s e hP hw⟩

theorem Finishes.onError {m : Prog σ ω π ε α} (h : Finishes P m Q) (cleanup : Prog σ ω π ε Unit) :
    Finishes P (m.onError cleanup) Q := by
  intro s hP
  obtain ⟨a, s', hm, hQ⟩ := h s hP
  exact ⟨a, s', by rw [Prog.onError, hm], hQ⟩

theorem Finishes.require {c : Bool} {e : ε} (hc : c = true) :
    Finishes P (require c e : Prog σ ω π ε Unit) fun _ s => P s := by
  intro s hP
  exact ⟨(), s, by rw [Prog.require, if_pos hc]; rfl, hP⟩

theorem Finishes.operation {failed : ω → ε} {partly : π → σ → σ} {work : σ → Except ε (α × σ)}
    (h : ∀ s, P s → ∃ a s', work s = .ok (a, s') ∧ Q a s') :
    Finishes P (operation failed partly work) Q := by
  intro s hP
  obtain ⟨a, s', hw, hQ⟩ := h s hP
  exact ⟨a, s', by rw [operation_nil, hw], hQ⟩

theorem Finishes.look {failed : ω → ε} {see : σ → Except ε α}
    (h : ∀ s, P s → ∃ a, see s = .ok a ∧ Q a s) : Finishes P (look failed see : Prog σ ω π ε α) Q :=
  Finishes.operation fun s hP => by
    obtain ⟨a, hsee, hQ⟩ := h s hP
    exact ⟨a, s, by rw [hsee]; rfl, hQ⟩

end finishes

end Prog
end Voisu.Lib
