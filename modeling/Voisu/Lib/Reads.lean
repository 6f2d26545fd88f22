import Mathlib.Data.List.Basic

/-!
# Streams that are read in pieces

A stream comes as ARRIVALS, some symbols at a time; a reader takes from the first of them what its
buffer has room for, and may be told of an error instead.  What is read is cut into pieces of one
size again.

* `symbols`   what a stream holds, however it arrives;
* `receive`   one read;
* `pieces`    the whole pieces of a size, and what is left.
-/

namespace Voisu.Lib
variable {α ε : Type}

/-! ## arrivals -/

/-- an arrival of symbols has at least one: a read of none is the end -/
inductive Arrival (α ε : Type) where
  | data (first : α) (rest : List α)
  | error (e : ε)
deriving DecidableEq, Repr

/-- the symbols of a stream -/
def symbols : List (Arrival α ε) → List α
  | [] => []
  | .data a as :: s => a :: as ++ symbols s
  | .error _ :: s => symbols s

def unread (xs : List α) (s : List (Arrival α ε)) : List (Arrival α ε) :=
  match xs with
  | [] => s
  | a :: as => .data a as :: s

/-- one read into a buffer with room for `room` symbols -/
def receive (room : Nat) : List (Arrival α ε) → Except ε (List α) × List (Arrival α ε)
  | [] => (.ok [], [])
  | .data a as :: s => (.ok ((a :: as).take room), unread ((a :: as).drop room) s)
  | .error e :: s => (.error e, s)

/-- what is left to be read -/
def weight (s : List (Arrival α ε)) : Nat := (symbols s).length + s.length

/-- every error of the stream is of the kind `p` -/
def ErrorsAre (p : ε → Prop) (s : List (Arrival α ε)) : Prop := ∀ e, Arrival.error e ∈ s → p e

theorem symbols_unread (xs : List α) (s : List (Arrival α ε)) :
    symbols (unread xs s) = xs ++ symbols s := by
  cases xs <;> rfl

theorem length_unread_drop (a : α) (as : List α) (s : List (Arrival α ε)) (room : Nat) :
    (unread ((a :: as).drop room) s).length ≤ s.length + 1 := by
  cases (a :: as).drop room <;> simp [unread]

theorem mem_unread_error {e : ε} {xs : List α} {s : List (Arrival α ε)}
    (h : Arrival.error e ∈ unread xs s) : Arrival.error e ∈ s := by
  cases xs with
  | nil => exact h
  | cons a as => simpa [unread] using h

section receive
variable {room : Nat} {s s' : List (Arrival α ε)} {xs : List α} {e : ε}

/-- a read takes the first symbols of the stream -/
theorem symbols_receive (h : receive room s = (.ok xs, s')) : symbols s = xs ++ symbols s' := by
  match s, h with
  | [], h =>
    obtain ⟨rfl, rfl⟩ : [] = xs ∧ [] = s' := by simpa [receive] using h
    rfl
  | .data a as :: s, h =>
    obtain ⟨rfl, rfl⟩ : (a :: as).take room = xs ∧ unread ((a :: as).drop room) s = s' := by
      simpa [receive] using h
    rw [symbols_unread, ← List.append_assoc, List.take_append_drop]
    rfl
  | .error _ :: _, h => simp [receive] at h

/-- only the end of the stream is a read of nothing -/
theorem receive_nil (hroom : 0 < room) (h : receive room s = (.ok [], s')) : s = [] ∧ s' = [] := by
  match s, h with
  | [], h => exact ⟨rfl, by simpa [receive] using h.symm⟩
  | .data a as :: s, h =>
    have hzero : room = 0 := by simpa [receive, List.take_eq_nil_iff] using congrArg Prod.fst h
    omega
  | .error _ :: _, h => simp [receive] at h

/-- what is read is no longer left -/
theorem weight_receive_ok (h : receive room s = (.ok xs, s')) :
    weight s' + xs.length ≤ weight s := by
  have hsym := congrArg List.length (symbols_receive h)
  have hcount : s'.length ≤ s.length := by
    match s, h with
    | [], h => simp [← (by simpa [receive] using h : [] = xs ∧ [] = s').2]
    | .data a as :: s, h =>
      obtain ⟨-, rfl⟩ : (a :: as).take room = xs ∧ unread ((a :: as).drop room) s = s' := by
        simpa [receive] using h
      exact length_unread_drop a as s room
    | .error _ :: _, h => simp [receive] at h
  rw [List.length_append] at hsym
  simp only [weight]
  omega

/-- an error loses nothing of the stream -/
theorem receive_error (h : receive room s = (.error e, s')) : s = .error e :: s' := by
  match s, h with
  | [], h => simp [receive] at h
  | .data a as :: s, h => simp [receive] at h
  | .error _ :: _, h =>
    obtain ⟨rfl, rfl⟩ := by simpa [receive] using h
    rfl

theorem weight_receive_error (h : receive room s = (.error e, s')) : weight s' < weight s := by
  rw [receive_error h]
  simp [weight, symbols]

theorem ErrorsAre.receive {p : ε → Prop} (hs : ErrorsAre p s) :
    ErrorsAre p (receive room s).2 := by
  intro e he
  match s, he with
  | [], he => simp [Lib.receive] at he
  | .data a as :: s, he => exact hs e (List.mem_cons_of_mem _ (mem_unread_error he))
  | .error _ :: s, he => exact hs e (List.mem_cons_of_mem _ he)

end receive

/-! ## pieces of one size -/

/-- `fuel` bounds the pieces; the length of the list is enough -/
def piecesFrom (size : Nat) : Nat → List α → List (List α) × List α
  | 0, xs => ([], xs)
  | fuel + 1, xs =>
    if size ≤ xs.length then
      (xs.take size :: (piecesFrom size fuel (xs.drop size)).1,
        (piecesFrom size fuel (xs.drop size)).2)
    else ([], xs)

/-- the whole pieces of `xs`, and what is left of it -/
def pieces (size : Nat) (xs : List α) : List (List α) × List α := piecesFrom size xs.length xs

theorem flatten_piecesFrom (size fuel : Nat) (xs : List α) :
    (piecesFrom size fuel xs).1.flatten ++ (piecesFrom size fuel xs).2 = xs := by
  induction fuel generalizing xs with
  | zero => rfl
  | succ fuel ih =>
    simp only [piecesFrom]
    split
    · rw [List.flatten_cons, List.append_assoc, ih, List.take_append_drop]
    · rfl

theorem length_of_mem_piecesFrom {size fuel : Nat} {xs piece : List α}
    (h : piece ∈ (piecesFrom size fuel xs).1) : piece.length = size := by
  induction fuel generalizing xs with
  | zero => simp [piecesFrom] at h
  | succ fuel ih =>
    simp only [piecesFrom] at h
    split at h
    next hle =>
      rcases List.mem_cons.1 h with rfl | h
      · rw [List.length_take, Nat.min_eq_left hle]
      · exact ih h
    next => simp at h

theorem length_piecesFrom_lt {size fuel : Nat} {xs : List α} (hsize : 0 < size)
    (hfuel : xs.length ≤ fuel) : (piecesFrom size fuel xs).2.length < size := by
  induction fuel generalizing xs with
  | zero => simpa [piecesFrom, List.eq_nil_of_length_eq_zero (Nat.le_zero.1 hfuel)] using hsize
  | succ fuel ih =>
    simp only [piecesFrom]
    split
    next hle => exact ih (by rw [List.length_drop]; omega)
    next hlt => exact Nat.lt_of_not_le hlt

theorem flatten_pieces (size : Nat) (xs : List α) :
    (pieces size xs).1.flatten ++ (pieces size xs).2 = xs :=
  flatten_piecesFrom size _ xs

theorem length_of_mem_pieces {size : Nat} {xs piece : List α} (h : piece ∈ (pieces size xs).1) :
    piece.length = size := length_of_mem_piecesFrom h

theorem length_pieces_lt {size : Nat} (xs : List α) (hsize : 0 < size) :
    (pieces size xs).2.length < size := length_piecesFrom_lt hsize (Nat.le_refl _)

end Voisu.Lib
