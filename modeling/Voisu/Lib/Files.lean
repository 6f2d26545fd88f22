import Mathlib.Data.Finset.Card
import Mathlib.Data.Finset.Dedup

/-!
# Directories of files

A directory is a list of named files, no name twice, changed by one file operation at a time; a crash
leaves what the operations before it made.

* `put`, `drop`       a file is there, a file is not there;
* `FileOp.apply`      one file operation;
* `sizeOn`            the bytes of the files that a predicate picks;
* `marks`             what a function of the name marks of the files.
-/

namespace Voisu.Lib

/-! ## files -/

structure File (β : Type) where
  contents : List β
  modified : Option Nat
deriving DecidableEq, Repr

abbrev Dir (ν β : Type) := List (ν × File β)

namespace Dir
variable {ν β : Type} [DecidableEq ν]

def get (d : Dir ν β) (n : ν) : Option (File β) := (d.find? fun e => e.1 = n).map Prod.snd

def drop (d : Dir ν β) (n : ν) : Dir ν β := d.filter fun e => e.1 ≠ n

def put (d : Dir ν β) (n : ν) (f : File β) : Dir ν β := d.drop n ++ [(n, f)]

def names (d : Dir ν β) : List ν := d.map Prod.fst

section get
variable {d : Dir ν β} {n m : ν} {f g : File β}

theorem get_drop_self (d : Dir ν β) (n : ν) : (d.drop n).get n = none := by
  rw [get, Option.map_eq_none_iff, List.find?_eq_none]
  intro e he
  simpa using (List.mem_filter.1 he).2

theorem get_drop_ne (h : m ≠ n) : (d.drop n).get m = d.get m := by
  simp only [get, drop, List.find?_filter]
  congr 1
  refine congrArg (fun p => List.find? p d) (funext fun e => ?_)
  by_cases he : e.1 = m
  · simp [he, h]
  · simp [he]

theorem get_put_self (d : Dir ν β) (n : ν) (f : File β) : (d.put n f).get n = some f := by
  have hnone := get_drop_self d n
  rw [get, Option.map_eq_none_iff] at hnone
  simp [get, put, List.find?_append, hnone]

theorem get_put_ne (h : m ≠ n) : (d.put n f).get m = d.get m := by
  rw [← get_drop_ne (d := d) h, get, get, put, List.find?_append]
  simp [h.symm]

theorem put_put (d : Dir ν β) (n : ν) (f g : File β) : (d.put n f).put n g = d.put n g := by
  simp [put, drop, List.filter_append, List.filter_filter]

theorem mem_of_get (h : d.get n = some f) : (n, f) ∈ d := by
  obtain ⟨e, he, rfl⟩ := Option.map_eq_some_iff.1 h
  have hn : e.1 = n := by simpa using List.find?_some he
  have hmem := List.mem_of_find?_eq_some he
  rwa [← hn]

theorem get_of_mem (hnodup : d.names.Nodup) (h : (n, f) ∈ d) : d.get n = some f := by
  induction d with
  | nil => cases h
  | cons e d ih =>
    obtain ⟨hhead, htail⟩ := List.nodup_cons.1 hnodup
    rcases List.mem_cons.1 h with rfl | hmem
    · simp [get]
    · have hne : e.1 ≠ n := fun heq => hhead (heq ▸ List.mem_map_of_mem (f := Prod.fst) hmem)
      have := ih htail hmem
      simpa [get, List.find?_cons_of_neg, hne] using this

theorem mem_names_iff : n ∈ d.names ↔ d.get n ≠ none := by
  rw [names, List.mem_map, get, ne_eq, Option.map_eq_none_iff, List.find?_eq_none]
  simp only [decide_eq_true_eq, not_forall, not_not, exists_prop]

end get

/-! ## names -/

theorem nodup_drop {d : Dir ν β} (h : d.names.Nodup) (n : ν) : (d.drop n).names.Nodup :=
  h.sublist (List.Sublist.map Prod.fst List.filter_sublist)

theorem nodup_put {d : Dir ν β} (h : d.names.Nodup) (n : ν) (f : File β) :
    (d.put n f).names.Nodup := by
  have hnone : n ∉ (d.drop n).names := fun hmem => mem_names_iff.1 hmem (get_drop_self d n)
  have hnames : (d.put n f).names = (d.drop n).names ++ [n] := by simp [put, names]
  rw [hnames]
  refine List.nodup_append.2 ⟨nodup_drop h n, List.nodup_singleton n, ?_⟩
  rintro a ha b hb rfl
  rw [List.mem_singleton] at hb
  subst hb
  exact hnone ha

/-! ## sizes -/

/-- the size of the files whose names are picked -/
def sizeOn (p : ν → Bool) : Dir ν β → Nat
  | [] => 0
  | e :: d => (if p e.1 then e.2.contents.length else 0) + sizeOn p d

theorem sizeOn_drop_le (p : ν → Bool) (d : Dir ν β) (n : ν) : sizeOn p (d.drop n) ≤ sizeOn p d := by
  induction d with
  | nil => exact Nat.le_refl _
  | cons e d ih =>
    by_cases he : e.1 = n
    · have hdrop : drop (e :: d) n = drop d n := by simp [drop, he]
      rw [hdrop, sizeOn]
      omega
    · have hdrop : drop (e :: d) n = e :: drop d n := by simp [drop, he]
      rw [hdrop, sizeOn, sizeOn]
      omega

theorem sizeOn_put (p : ν → Bool) (d : Dir ν β) (n : ν) (f : File β) :
    sizeOn p (d.put n f) = sizeOn p (d.drop n) + if p n then f.contents.length else 0 := by
  rw [put]
  induction d.drop n with
  | nil => simp [sizeOn]
  | cons e d ih => rw [List.cons_append, sizeOn, ih, sizeOn, Nat.add_assoc]

/-- a file counts once -/
theorem sizeOn_drop_add {p : ν → Bool} {d : Dir ν β} {n : ν} {f : File β}
    (h : d.get n = some f) (hp : p n = true) :
    sizeOn p (d.drop n) + f.contents.length ≤ sizeOn p d := by
  induction d with
  | nil => cases h
  | cons e d ih =>
    by_cases he : e.1 = n
    · have hf : e.2 = f := by simpa [get, he] using h
      have hdrop : drop (e :: d) n = drop d n := by simp [drop, he]
      have hle := sizeOn_drop_le p d n
      rw [hdrop, sizeOn, he, if_pos hp, hf]
      omega
    · have hget : get d n = some f := by simpa [get, List.find?_cons_of_neg, he] using h
      have hdrop : drop (e :: d) n = e :: drop d n := by simp [drop, he]
      have := ih hget
      rw [hdrop, sizeOn, sizeOn]
      omega

omit [DecidableEq ν] in
theorem sizeOn_mono {p q : ν → Bool} (h : ∀ n, p n = true → q n = true) (d : Dir ν β) :
    sizeOn p d ≤ sizeOn q d := by
  induction d with
  | nil => exact Nat.le_refl _
  | cons e d ih =>
    rw [sizeOn, sizeOn]
    by_cases hp : p e.1 = true
    · rw [if_pos hp, if_pos (h _ hp)]
      omega
    · rw [if_neg hp]
      omega

/-! ## marks -/

section marks
variable {σ : Type} [DecidableEq σ] (mark : ν → Option σ)

/-- what the names mark, each once -/
def marks (d : Dir ν β) : Finset σ := (d.names.filterMap mark).toFinset

theorem mem_marks {d : Dir ν β} {s : σ} :
    s ∈ marks mark d ↔ ∃ n, d.get n ≠ none ∧ mark n = some s := by
  simp only [marks, List.mem_toFinset, List.mem_filterMap, mem_names_iff]

theorem marks_drop_subset (d : Dir ν β) (n : ν) : marks mark (d.drop n) ⊆ marks mark d := by
  intro s hs
  obtain ⟨m, hm, hmark⟩ := (mem_marks mark).1 hs
  by_cases hmn : m = n
  · exact absurd (hmn ▸ get_drop_self d n) hm
  · exact (mem_marks mark).2 ⟨m, by rwa [get_drop_ne hmn] at hm, hmark⟩

theorem marks_put_subset {d : Dir ν β} {n : ν} {f : File β} {S : Finset σ}
    (hd : marks mark d ⊆ S) (hn : ∀ s, mark n = some s → s ∈ S) : marks mark (d.put n f) ⊆ S := by
  intro s hs
  obtain ⟨m, hm, hmark⟩ := (mem_marks mark).1 hs
  by_cases hmn : m = n
  · exact hn s (hmn ▸ hmark)
  · exact hd ((mem_marks mark).2 ⟨m, by rwa [get_put_ne hmn] at hm, hmark⟩)

end marks

end Dir

/-! ## operations -/

inductive FileOp (ν β : Type) where
  | create (name : ν) (modified : Option Nat)
  | append (name : ν) (b : β)
  | rename (src dst : ν)
  | remove (name : ν)
deriving DecidableEq, Repr

section ops
variable {ν β : Type} [DecidableEq ν]

def FileOp.apply (d : Dir ν β) : FileOp ν β → Dir ν β
  | .create n modified => d.put n { contents := [], modified }
  | .append n b =>
    match d.get n with
    | none => d
    | some f => d.put n { f with contents := f.contents ++ [b] }
  | .rename src dst =>
    match d.get src with
    | none => d
    | some f => (d.drop src).put dst f
  | .remove n => d.drop n

def applyOps (d : Dir ν β) (ops : List (FileOp ν β)) : Dir ν β := ops.foldl FileOp.apply d

/-- a file is written from its beginning, a symbol at a time -/
def writeOps (n : ν) (contents : List β) (modified : Option Nat) : List (FileOp ν β) :=
  .create n modified :: contents.map (.append n)

/-- the names that an operation is about -/
def FileOp.touched : FileOp ν β → List ν
  | .create n _ | .append n _ | .remove n => [n]
  | .rename src dst => [src, dst]

theorem get_apply {d : Dir ν β} {op : FileOp ν β} {m : ν} (h : m ∉ op.touched) :
    (op.apply d).get m = d.get m := by
  cases op with
  | create n modified => exact Dir.get_put_ne (by simpa [FileOp.touched] using h)
  | append n b =>
    simp only [FileOp.apply]
    split
    · rfl
    · exact Dir.get_put_ne (by simpa [FileOp.touched] using h)
  | rename src dst =>
    obtain ⟨hsrc, hdst⟩ : m ≠ src ∧ m ≠ dst := by simpa [FileOp.touched] using h
    simp only [FileOp.apply]
    split
    · rfl
    · rw [Dir.get_put_ne hdst, Dir.get_drop_ne hsrc]
  | remove n => exact Dir.get_drop_ne (by simpa [FileOp.touched] using h)

theorem nodup_apply {d : Dir ν β} (h : d.names.Nodup) (op : FileOp ν β) :
    (op.apply d).names.Nodup := by
  cases op with
  | create n modified => exact Dir.nodup_put h n _
  | append n b =>
    simp only [FileOp.apply]
    split
    · exact h
    · exact Dir.nodup_put h n _
  | rename src dst =>
    simp only [FileOp.apply]
    split
    · exact h
    · exact Dir.nodup_put (Dir.nodup_drop h src) dst _
  | remove n => exact Dir.nodup_drop h n

theorem applyOps_append (d : Dir ν β) (ops ops' : List (FileOp ν β)) :
    applyOps d (ops ++ ops') = applyOps (applyOps d ops) ops' := List.foldl_append

theorem applyOps_appends (d : Dir ν β) (n : ν) (f : File β) (contents : List β) :
    applyOps (d.put n f) (contents.map (.append n)) =
      d.put n { f with contents := f.contents ++ contents } := by
  induction contents generalizing f with
  | nil => simp [applyOps]
  | cons b contents ih =>
    have hstep : FileOp.apply (d.put n f) (.append n b) =
        d.put n { f with contents := f.contents ++ [b] } := by
      rw [FileOp.apply, Dir.get_put_self]
      exact Dir.put_put _ _ _ _
    show applyOps (FileOp.apply (d.put n f) (.append n b)) (contents.map (.append n)) = _
    rw [hstep, ih]
    simp

theorem applyOps_writeOps (d : Dir ν β) (n : ν) (contents : List β) (modified : Option Nat) :
    applyOps d (writeOps n contents modified) = d.put n { contents, modified } :=
  applyOps_appends d n { contents := [], modified } contents

end ops

end Voisu.Lib
