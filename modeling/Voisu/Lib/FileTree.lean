import Mathlib.Data.List.Dedup
import Mathlib.Data.List.Infix
import Mathlib.Tactic.Common

/-!
# Trees of files

The nodes of a file system by their paths, and the operations that change whole subtrees.

* `get`, `set`      the node at a path;
* `prune`           a subtree removed;
* `prunePartly`     a removal that stopped: some nodes are gone, each after the nodes below it;
* `move`            a subtree renamed;
* `names`           the names in a directory.
-/

namespace Voisu.Lib

inductive Node (β : Type) where
  | dir
  | file (contents : List β)
deriving DecidableEq, Repr

abbrev FileTree (κ β : Type) := List (List κ × Node β)

namespace FileTree
variable {κ β : Type} [DecidableEq κ]

def get (t : FileTree κ β) (p : List κ) : Option (Node β) := (t.find? fun e => e.1 = p).map Prod.snd

def erase (t : FileTree κ β) (p : List κ) : FileTree κ β := t.filter fun e => e.1 ≠ p

def set (t : FileTree κ β) (p : List κ) (node : Node β) : FileTree κ β := (p, node) :: t.erase p

def prune (t : FileTree κ β) (p : List κ) : FileTree κ β := t.filter fun e => ¬ p <+: e.1

/-- a file, or a directory with nothing in it, is unlinked -/
def unlink (t : FileTree κ β) (p : List κ) : FileTree κ β :=
  if t.any fun e => p <+: e.1 ∧ e.1 ≠ p then t else t.erase p

def prunePartly (t : FileTree κ β) (p : List κ) (victims : List (List κ)) : FileTree κ β :=
  (victims.filter fun v => p <+: v).foldl unlink t

def move (t : FileTree κ β) (p q : List κ) : FileTree κ β :=
  (t.prune q).prune p ++
    (t.filter fun e => p <+: e.1).map fun e => (q ++ e.1.drop p.length, e.2)

def names (t : FileTree κ β) (p : List κ) : List κ :=
  (t.filterMap fun e => if e.1.dropLast = p then e.1.getLast? else none).dedup

section get
variable {t : FileTree κ β} {p q r : List κ} {node : Node β}

theorem get_filter (t : FileTree κ β) (f : List κ → Bool) (r : List κ) :
    get (t.filter fun e => f e.1) r = if f r = true then t.get r else none := by
  rw [get, List.find?_filter]
  split
  · rename_i h
    rw [get]
    congr 2
    funext e
    by_cases he : e.1 = r <;> simp [he, h]
  · rename_i h
    rw [Option.map_eq_none_iff, List.find?_eq_none]
    rintro e -
    by_cases he : e.1 = r <;> simp [he, h]

theorem get_append (t u : FileTree κ β) (r : List κ) : get (t ++ u) r = (t.get r).or (get u r) := by
  rw [get, List.find?_append, Option.map_or]
  rfl

theorem get_erase (t : FileTree κ β) (p r : List κ) :
    (t.erase p).get r = if r = p then none else t.get r := by
  have h := get_filter t (fun k => decide (k ≠ p)) r
  rw [erase, h]
  by_cases hr : r = p <;> simp [hr]

theorem get_prune (t : FileTree κ β) (p r : List κ) :
    (t.prune p).get r = if p <+: r then none else t.get r := by
  have h := get_filter t (fun k => decide (¬ p <+: k)) r
  rw [prune, h]
  by_cases hr : p <+: r <;> simp [hr]

@[simp] theorem get_set_self (t : FileTree κ β) (p : List κ) (node : Node β) :
    (t.set p node).get p = some node := by
  simp [set, get]

theorem get_set_ne (h : r ≠ p) : (t.set p node).get r = t.get r := by
  have herase := get_erase t p r
  rw [if_neg h] at herase
  rw [← herase, set, get, List.find?_cons_of_neg (by simpa using h.symm)]
  rfl

theorem get_set (t : FileTree κ β) (p r : List κ) (node : Node β) :
    (t.set p node).get r = if r = p then some node else t.get r := by
  split
  · rename_i h
    rw [h, get_set_self]
  · rename_i h
    exact get_set_ne h

theorem get_rebased (t : FileTree κ β) (p q r : List κ) :
    get ((t.filter fun e => p <+: e.1).map fun e => (q ++ e.1.drop p.length, e.2)) r =
      if q <+: r then t.get (p ++ r.drop q.length) else none := by
  induction t with
  | nil => simp [get]
  | cons e t ih =>
    obtain ⟨k, node⟩ := e
    by_cases hk : p <+: k
    · obtain ⟨k, rfl⟩ := hk
      rw [List.filter_cons_of_pos (by simp), List.map_cons]
      by_cases hr : q <+: r
      · obtain ⟨r, rfl⟩ := hr
        simp only [List.prefix_append, if_true, List.drop_left] at ih ⊢
        by_cases hkr : k = r
        · simp [get, hkr]
        · rw [get, get, List.find?_cons_of_neg (by simpa using hkr),
            List.find?_cons_of_neg (by simpa using hkr)]
          exact ih
      · rw [if_neg hr] at ih ⊢
        rw [get, List.find?_cons_of_neg]
        · exact ih
        · simp only [decide_eq_true_eq]
          rintro rfl
          exact hr (List.prefix_append _ _)
    · rw [List.filter_cons_of_neg (by simpa using hk), ih]
      by_cases hr : q <+: r
      · have hne : ¬ k = p ++ r.drop q.length := fun h => hk (h ▸ List.prefix_append _ _)
        rw [if_pos hr, if_pos hr, get, get, List.find?_cons_of_neg (by simpa using hne)]
      · rw [if_neg hr, if_neg hr]

theorem get_move (t : FileTree κ β) (p q r : List κ) :
    (t.move p q).get r =
      if q <+: r then t.get (p ++ r.drop q.length) else if p <+: r then none else t.get r := by
  rw [move, get_append, get_rebased, get_prune, get_prune]
  by_cases hq : q <+: r <;> by_cases hp : p <+: r <;> simp [hq, hp]

/-! ## removals that stop -/

theorem get_unlink_ne (h : r ≠ p) : (t.unlink p).get r = t.get r := by
  unfold unlink
  split
  · rfl
  · rw [get_erase, if_neg h]

/-- a removal that stops touches nothing outside its subtree -/
theorem get_prunePartly (t : FileTree κ β) (victims : List (List κ)) (h : ¬ p <+: r) :
    (t.prunePartly p victims).get r = t.get r := by
  unfold prunePartly
  have hall : ∀ v ∈ victims.filter fun v => p <+: v, r ≠ v := by
    rintro v hv rfl
    exact h (by simpa using (List.mem_filter.mp hv).2)
  revert hall
  generalize victims.filter (fun v => decide (p <+: v)) = vs
  intro hall
  induction vs generalizing t with
  | nil => rfl
  | cons v vs ih =>
    rw [List.foldl_cons, ih _ fun w hw => hall w (List.mem_cons_of_mem v hw)]
    exact get_unlink_ne (hall v List.mem_cons_self)

/-! ## names -/

theorem get_isSome_iff : (t.get p).isSome = true ↔ ∃ node, (p, node) ∈ t := by
  rw [get, Option.isSome_map, List.find?_isSome]
  constructor
  · rintro ⟨⟨k, node⟩, hmem, hk⟩
    obtain rfl : k = p := by simpa using hk
    exact ⟨node, hmem⟩
  · rintro ⟨node, hmem⟩
    exact ⟨(p, node), hmem, by simp⟩

theorem mem_names {n : κ} : n ∈ t.names p ↔ (t.get (p ++ [n])).isSome = true := by
  rw [names, List.mem_dedup, List.mem_filterMap, get_isSome_iff]
  constructor
  · rintro ⟨⟨k, node⟩, hmem, hk⟩
    split at hk
    · rename_i hlast
      obtain ⟨ys, rfl⟩ := List.getLast?_eq_some_iff.mp hk
      rw [List.dropLast_concat] at hlast
      exact ⟨node, hlast ▸ hmem⟩
    · cases hk
  · rintro ⟨node, hmem⟩
    exact ⟨(p ++ [n], node), hmem, by simp⟩

theorem nodup_names (t : FileTree κ β) (p : List κ) : (t.names p).Nodup := List.nodup_dedup _

end get

end FileTree
end Voisu.Lib
