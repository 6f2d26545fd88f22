import Voisu.Lib.Reads

/-!
# Buffered readers

A reader that asks the stream for a whole buffer and hands it out in parts.

* `Buffered.fill`, `Buffered.consume`   the buffer, filled when it is empty, and what is used of it;
* `Buffered.read`                       a read, past the buffer when it is not worth filling;
* `Buffered.symbols`                    what is still to come, however it arrives;
* `Buffered.read_ok`, `Buffered.read_error`   **a read takes the first symbols of what is to come, and
                                        fails only when the stream does**.
-/

namespace Voisu.Lib

/-- `BufReader`: what is read but not used, and the stream -/
structure Buffered (α ε : Type) where
  buffer : List α
  stream : List (Arrival α ε)
deriving Repr

/-- no read of the stream fails -/
def Unbroken {α ε : Type} (s : List (Arrival α ε)) : Prop := ∀ e, Arrival.error e ∉ s

namespace Buffered
variable {α ε : Type}

def symbols (r : Buffered α ε) : List α := r.buffer ++ Lib.symbols r.stream

def fill (capacity : Nat) (r : Buffered α ε) : Except ε (Buffered α ε) :=
  if r.buffer.isEmpty then
    match receive capacity r.stream with
    | (.ok xs, s) => .ok ⟨xs, s⟩
    | (.error e, _) => .error e
  else .ok r

def consume (n : Nat) (r : Buffered α ε) : Buffered α ε := ⟨r.buffer.drop n, r.stream⟩

def read (capacity room : Nat) (r : Buffered α ε) : Except ε (List α × Buffered α ε) :=
  if r.buffer.isEmpty && capacity ≤ room then
    match receive room r.stream with
    | (.ok xs, s) => .ok (xs, ⟨[], s⟩)
    | (.error e, _) => .error e
  else
    match r.fill capacity with
    | .ok r => .ok (r.buffer.take room, r.consume room)
    | .error e => .error e

section
variable {capacity room n : Nat} {r r' : Buffered α ε} {xs : List α} {e : ε}
  {s s' : List (Arrival α ε)}

theorem unbroken_receive (h : receive room s = (.ok xs, s')) : Unbroken s' ↔ Unbroken s := by
  match s, h with
  | [], h =>
    obtain ⟨-, rfl⟩ : [] = xs ∧ [] = s' := by simpa [receive] using h
    exact Iff.rfl
  | .data a as :: s, h =>
    obtain ⟨-, rfl⟩ : (a :: as).take room = xs ∧ unread ((a :: as).drop room) s = s' := by
      simpa [receive] using h
    cases (a :: as).drop room <;> simp [unread, Unbroken]
  | .error _ :: _, h => simp [receive] at h

theorem not_unbroken_receive (h : receive room s = (.error e, s')) : ¬Unbroken s := by
  rw [receive_error h]
  exact fun hs => hs e List.mem_cons_self

/-- what is filled is what is to come; a buffer that stays empty is the end -/
theorem fill_ok (hcapacity : 0 < capacity) (h : r.fill capacity = .ok r') :
    r'.symbols = r.symbols ∧ (Unbroken r'.stream ↔ Unbroken r.stream) ∧
      (r'.buffer = [] → r.symbols = [] ∧ Unbroken r.stream) := by
  rw [fill] at h
  split at h
  · next hempty =>
    have hbuffer : r.symbols = Lib.symbols r.stream := by
      rw [symbols, List.isEmpty_iff.1 hempty, List.nil_append]
    cases hread : receive capacity r.stream with
    | mk result s =>
      rw [hread] at h
      cases result with
      | error e => cases h
      | ok xs =>
        obtain rfl := Except.ok.inj h
        refine ⟨?_, unbroken_receive hread, fun hnil => ?_⟩
        · rw [hbuffer, symbols_receive hread]
          rfl
        · obtain rfl : xs = [] := hnil
          have hstream := (receive_nil hcapacity hread).1
          rw [hbuffer, hstream]
          exact ⟨rfl, fun e => List.not_mem_nil⟩
  · next hfull =>
    obtain rfl := Except.ok.inj h
    exact ⟨rfl, Iff.rfl, fun hnil => absurd (List.isEmpty_iff.2 hnil) hfull⟩

theorem fill_error (h : r.fill capacity = .error e) : ¬Unbroken r.stream := by
  rw [fill] at h
  split at h
  · cases hread : receive capacity r.stream with
    | mk result s =>
      rw [hread] at h
      cases result with
      | error e' => exact not_unbroken_receive hread
      | ok xs => cases h
  · cases h

theorem symbols_consume (r : Buffered α ε) (n : Nat) :
    r.symbols = r.buffer.take n ++ (r.consume n).symbols := by
  rw [symbols, symbols, consume, ← List.append_assoc, List.take_append_drop]

theorem length_receive (h : receive room s = (.ok xs, s')) : xs.length ≤ room := by
  match s, h with
  | [], h =>
    obtain ⟨rfl, -⟩ : [] = xs ∧ [] = s' := by simpa [receive] using h
    exact Nat.zero_le _
  | .data a as :: s, h =>
    obtain ⟨rfl, -⟩ : (a :: as).take room = xs ∧ unread ((a :: as).drop room) s = s' := by
      simpa [receive] using h
    exact List.length_take_le _ _
  | .error _ :: _, h => simp [receive] at h

/-- **a read takes the first of what is to come, and nothing of it only at the end** -/
theorem read_ok (hcapacity : 0 < capacity) (hroom : 0 < room)
    (h : r.read capacity room = .ok (xs, r')) :
    r.symbols = xs ++ r'.symbols ∧ (Unbroken r'.stream ↔ Unbroken r.stream) ∧ xs.length ≤ room ∧
      (xs = [] → r.symbols = [] ∧ Unbroken r.stream) := by
  rw [read] at h
  split at h
  · next hdirect =>
    have hempty : r.buffer.isEmpty = true := (Bool.and_eq_true_iff.1 hdirect).1
    cases hread : receive room r.stream with
    | mk result s =>
      rw [hread] at h
      cases result with
      | error e => cases h
      | ok ys =>
        obtain ⟨rfl, rfl⟩ := Prod.mk.inj (Except.ok.inj h)
        have hfill : r.fill room = .ok ⟨ys, s⟩ := by rw [fill, if_pos hempty, hread]
        obtain ⟨hsymbols, hunbroken, hend⟩ := fill_ok hroom hfill
        exact ⟨hsymbols.symm, hunbroken, length_receive hread, hend⟩
  · cases hfill : r.fill capacity with
    | error e =>
      rw [hfill] at h
      cases h
    | ok filled =>
      rw [hfill] at h
      obtain ⟨rfl, rfl⟩ := Prod.mk.inj (Except.ok.inj h)
      obtain ⟨hsymbols, hunbroken, hend⟩ := fill_ok hcapacity hfill
      refine ⟨?_, hunbroken, List.length_take_le _ _, fun hnil => hend ?_⟩
      · rw [← hsymbols, symbols_consume filled room]
      · rcases List.take_eq_nil_iff.1 hnil with hzero | hnil
        · omega
        · exact hnil

theorem read_error (h : r.read capacity room = .error e) : ¬Unbroken r.stream := by
  rw [read] at h
  split at h
  · cases hread : receive room r.stream with
    | mk result s =>
      rw [hread] at h
      cases result with
      | error e' => exact not_unbroken_receive hread
      | ok ys => cases h
  · cases hfill : r.fill capacity with
    | error e' => exact fill_error hfill
    | ok filled =>
      rw [hfill] at h
      cases h

end

end Buffered

end Voisu.Lib
