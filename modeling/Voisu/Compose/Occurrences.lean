import Mathlib
import Voisu.Compose.Placement
import Voisu.Lib.Substrings

/-!
# The search for occurrences, step by step

`find_literal_spans` of `compose_gate.rs` with every slice and every index of the code: a step that
Rust would panic in is a `Trap`.

* `exactLoop`            the exact occurrences, found by `str::find` from a moving offset;
* `caseSpans`            the windows that match up to case, by character index;
* `fallbackSpans`        the runs of atoms, by atom index;
* `searchLiteralSpans`   all three put together;
* `searchLiteralSpans_ok`   no trap is met, and the ranges are those of `findLiteralSpans`.
-/

namespace Voisu.Compose
open Lib

/-- where Rust panics -/
inductive Trap where
  | boundary
  | index
  | missing
  | debugAssert
  | endless
deriving DecidableEq, Repr

/-! ## steps that may trap -/

/-- `&s[k..]` -/
def sliceFrom (k : Nat) (s : Text) : Except Trap Text :=
  match cut k s with
  | some (_, t) => .ok t
  | none => .error .boundary

/-- `l[i]` -/
def indexOf {α : Type} (l : List α) (i : Nat) : Except Trap α :=
  match l[i]? with
  | some a => .ok a
  | none => .error .index

/-- `&l[i..j]` -/
def windowOf {α : Type} (l : List α) (i j : Nat) : Except Trap (List α) :=
  if i ≤ j ∧ j ≤ l.length then .ok ((l.take j).drop i) else .error .index

def debugAssert (ok : Bool) : Except Trap Unit := if ok then .ok () else .error .debugAssert

/-- what the iterations `i`, …, `i + count - 1` push -/
def pushed {α : Type} (body : Nat → Except Trap (List α)) : Nat → Nat → Except Trap (List α)
  | _, 0 => .ok []
  | i, count + 1 => do
    let here ← body i
    let later ← pushed body (i + 1) count
    return here ++ later

/-! ## the three searches -/

/-- `str::find`: the offset of the first occurrence -/
def findFirst (needle : Text) : Text → Option Nat
  | [] => if needle.isEmpty then some 0 else none
  | c :: s =>
    if startsWith (c :: s) needle then some 0
    else (findFirst needle s).map (ByteSized.size c + ·)

def exactLoop (haystack needle : Text) : Nat → Nat → List Range → Except Trap (List Range)
  | 0, _, _ => .error .endless
  | fuel + 1, searchFrom, out =>
    if searchFrom ≤ byteLen haystack then do
      let rest ← sliceFrom searchFrom haystack
      match findFirst needle rest with
      | none => return out
      | some rel =>
        let start := searchFrom + rel
        let stop := start + byteLen needle
        debugAssert (isBoundary start haystack && isBoundary stop haystack)
        let tail ← sliceFrom start haystack
        let step := (tail.head?.map ByteSized.size).getD 1
        exactLoop haystack needle fuel (start + step) (out ++ [⟨start, stop⟩])
    else return out

/-- `char_indices` -/
def charIndices (off : Nat) : Text → List (Nat × Char)
  | [] => []
  | c :: s => (off, c) :: charIndices (off + ByteSized.size c) s

/-- the offset of character `i`, the end of the text where there is none -/
def offsetAt (haystack : Text) (i : Nat) : Except Trap Nat :=
  let hayChars := charIndices 0 haystack
  if i < hayChars.length then (indexOf hayChars i).map Prod.fst else .ok (byteLen haystack)

def caseSpanAt (haystack needle : Text) (i : Nat) : Except Trap (List Range) := do
  let hayChars := charIndices 0 haystack
  let window ← windowOf hayChars i (i + needle.length)
  if (needle.zip (window.map Prod.snd)).all fun p => charsEqIgnoreCase p.1 p.2 then
    let start := (← indexOf hayChars i).1
    let stop ← offsetAt haystack (i + needle.length)
    debugAssert (isBoundary start haystack && isBoundary stop haystack)
    return [⟨start, stop⟩]
  else return []

def caseSpans (haystack needle : Text) : Except Trap (List Range) :=
  let hayChars := charIndices 0 haystack
  if 0 < needle.length && needle.length ≤ hayChars.length then
    pushed (caseSpanAt haystack needle) 0 (hayChars.length - needle.length + 1)
  else .ok []

def fallbackSpanAt (haystack : Text) (atoms : List Text) (i : Nat) : Except Trap (List Range) := do
  let hAtoms := atomMatches haystack
  let seq := hAtoms.map fun m => toLowercase m.text
  let window ← windowOf seq i (i + atoms.length)
  if window == atoms then
    let a0 := (← indexOf hAtoms i).start
    let a1 := (← indexOf hAtoms (i + atoms.length - 1)).stop
    return if isBoundary a0 haystack && isBoundary a1 haystack then [⟨a0, a1⟩] else []
  else return []

def fallbackSpans (haystack : Text) (atoms : List Text) : Except Trap (List Range) :=
  let hAtoms := atomMatches haystack
  if hAtoms.length < atoms.length then .ok []
  else pushed (fallbackSpanAt haystack atoms) 0 (hAtoms.length - atoms.length + 1)

/-- `find_literal_spans` -/
def searchLiteralSpans (haystack needle : Text) : Except Trap (List Range) :=
  if needle.isEmpty || haystack.isEmpty then .ok []
  else do
    let exact ← exactLoop haystack needle (byteLen haystack + 2) 0 []
    let windows ← caseSpans haystack needle
    let out := ((exact ++ windows).insertionSort fun a b => rangeLe a b = true).dedup
    if !out.isEmpty then return out
    else
      let normN := toLowercase (normalizeWs needle)
      let normH := toLowercase (normalizeWs haystack)
      if normN.isEmpty || !contains normH normN then return []
      else
        let atoms := lexicalAtomSequence needle
        if atoms.isEmpty then return [] else fallbackSpans haystack atoms

/-! ## steps that do not trap -/

theorem sliceFrom_append (a s : Text) : sliceFrom (byteLen a) (a ++ s) = .ok s := by
  unfold sliceFrom
  rw [cut_append]

theorem indexOf_append {α : Type} (l : List α) (a : α) (r : List α) :
    indexOf (l ++ a :: r) l.length = .ok a := by
  unfold indexOf
  rw [List.getElem?_append_right (Nat.le_refl _), Nat.sub_self]
  rfl

theorem windowOf_append {α : Type} (l m r : List α) :
    windowOf (l ++ m ++ r) l.length (l.length + m.length) = .ok m := by
  unfold windowOf
  rw [if_pos (by simp), ← List.length_append, List.take_left', List.drop_left']
  · rfl
  · rfl

theorem isBoundary_append (a b : Text) : isBoundary (byteLen a) (a ++ b) = true :=
  isBoundary_iff.mpr ⟨a, b, rfl, rfl⟩

theorem debugAssert_spans (a m b : Text) :
    debugAssert (isBoundary (byteLen a) (a ++ m ++ b) &&
      isBoundary (byteLen a + byteLen m) (a ++ m ++ b)) = .ok () := by
  have h1 : isBoundary (byteLen a) (a ++ m ++ b) = true := by
    rw [List.append_assoc]
    exact isBoundary_append a (m ++ b)
  have h2 : isBoundary (byteLen a + byteLen m) (a ++ m ++ b) = true := by
    rw [← byteLen_append]
    exact isBoundary_append (a ++ m) b
  rw [h1, h2]
  rfl

/-! ## the exact search -/

theorem windowMatches_iff {needle s : Text} :
    windowMatches (fun a b => a == b) needle s = startsWith s needle := by
  induction needle generalizing s with
  | nil => cases s <;> rfl
  | cons a needle ih =>
    cases s with
    | nil => rfl
    | cons c s =>
      have hih := @ih s
      unfold windowMatches at hih ⊢
      rw [List.zip_cons_cons, List.all_cons]
      show _ = (a == c && startsWith s needle)
      rw [← hih]
      simp only [List.length_cons, Nat.add_le_add_iff_right]
      cases a == c <;> simp

theorem windowSpans_cons (eq : Char → Char → Bool) (needle : Text) (off : Nat) (c : Char)
    (s : Text) : windowSpans eq needle off (c :: s) =
      (if windowMatches eq needle (c :: s) then
        [⟨off, off + byteLen ((c :: s).take needle.length)⟩] else []) ++
        windowSpans eq needle (off + ByteSized.size c) s := by
  rw [windowSpans]
  split <;> rfl

theorem windowSpans_eq_nil {needle : Text} {off : Nat} {s : Text}
    (h : findFirst needle s = none) : windowSpans (fun a b => a == b) needle off s = [] := by
  induction s generalizing off with
  | nil => rfl
  | cons c s ih =>
    unfold findFirst at h
    split at h
    · cases h
    rename_i hs
    rw [windowSpans_cons, windowMatches_iff, if_neg hs, List.nil_append]
    exact ih (Option.map_eq_none_iff.mp h)

/-- the first occurrence, and what comes after it -/
theorem findFirst_eq_some {needle : Text} {off rel : Nat} {s : Text} (hne : needle ≠ [])
    (h : findFirst needle s = some rel) :
    ∃ p c t, s = p ++ c :: t ∧ rel = byteLen p ∧ needle <+: c :: t ∧
      windowSpans (fun a b => a == b) needle off s =
        ⟨off + rel, off + rel + byteLen needle⟩ ::
          windowSpans (fun a b => a == b) needle (off + rel + ByteSized.size c) t := by
  induction s generalizing off rel with
  | nil =>
    unfold findFirst at h
    rw [if_neg (by simpa using hne)] at h
    cases h
  | cons c s ih =>
    unfold findFirst at h
    split at h
    · rename_i hs
      obtain rfl := Option.some.inj h
      have hp : needle <+: c :: s := startsWith_iff.mp hs
      refine ⟨[], c, s, rfl, rfl, hp, ?_⟩
      rw [windowSpans_cons, windowMatches_iff, if_pos hs, ← List.prefix_iff_eq_take.mp hp,
        Nat.add_zero]
      rfl
    · rename_i hs
      obtain ⟨k, hk, rfl⟩ := Option.map_eq_some_iff.mp h
      obtain ⟨p, d, t, rfl, rfl, hp, hw⟩ := @ih (off + ByteSized.size c) k hk
      refine ⟨c :: p, d, t, rfl, rfl, hp, ?_⟩
      rw [windowSpans_cons, windowMatches_iff, if_neg hs, List.nil_append, hw]
      simp only [Nat.add_assoc]

/-- **the loop stands between two characters and finds what is left to find** -/
theorem exactLoop_ok {needle : Text} (hne : needle ≠ []) {fuel : Nat} {a s : Text}
    {out : List Range} (hf : s.length < fuel) :
    exactLoop (a ++ s) needle fuel (byteLen a) out =
      .ok (out ++ windowSpans (fun a b => a == b) needle (byteLen a) s) := by
  induction fuel generalizing a s out with
  | zero => omega
  | succ fuel ih =>
    unfold exactLoop
    rw [if_pos (by rw [byteLen_append]; omega), sliceFrom_append]
    show (match findFirst needle s with
      | none => pure out
      | some rel => _) = _
    cases h : findFirst needle s with
    | none =>
      rw [windowSpans_eq_nil h, List.append_nil]
      rfl
    | some rel =>
      obtain ⟨p, c, t, rfl, rfl, ⟨u, hu⟩, hw⟩ := @findFirst_eq_some needle (byteLen a) rel s hne h
      have htext : a ++ (p ++ c :: t) = (a ++ p) ++ needle ++ u := by
        rw [← hu]
        simp only [List.append_assoc]
      have hassert := debugAssert_spans (a ++ p) needle u
      rw [← htext, byteLen_append] at hassert
      have hslice : sliceFrom (byteLen a + byteLen p) (a ++ (p ++ c :: t)) = .ok (c :: t) := by
        rw [← List.append_assoc, ← byteLen_append]
        exact sliceFrom_append (a ++ p) (c :: t)
      have hnext : a ++ (p ++ c :: t) = (a ++ p ++ [c]) ++ t := by simp
      have hoff : byteLen a + byteLen p + ByteSized.size c = byteLen (a ++ p ++ [c]) := by
        simp only [byteLen_append, byteLen_cons, byteLen_nil, Nat.add_zero]
      have hlen : t.length < fuel := by
        simp only [List.length_append, List.length_cons] at hf
        omega
      rw [hw]
      dsimp only
      rw [hassert, hslice]
      show exactLoop (a ++ (p ++ c :: t)) needle fuel (byteLen a + byteLen p + ByteSized.size c)
        (out ++ [⟨byteLen a + byteLen p, byteLen a + byteLen p + byteLen needle⟩]) = _
      rw [hoff, hnext, ih hlen, List.append_assoc]
      rfl

/-! ## the search by character index -/

theorem charIndices_append (off : Nat) (a s : Text) :
    charIndices off (a ++ s) = charIndices off a ++ charIndices (off + byteLen a) s := by
  induction a generalizing off with
  | nil => rfl
  | cons c a ih =>
    show (off, c) :: charIndices (off + ByteSized.size c) (a ++ s) = _
    rw [ih, Nat.add_assoc]
    rfl

@[simp] theorem charIndices_length (off : Nat) (s : Text) :
    (charIndices off s).length = s.length := by
  induction s generalizing off with
  | nil => rfl
  | cons c s ih => simp [charIndices, ih]

@[simp] theorem charIndices_snd (off : Nat) (s : Text) :
    (charIndices off s).map Prod.snd = s := by
  induction s generalizing off with
  | nil => rfl
  | cons c s ih => simp [charIndices, ih]

theorem indexOf_charIndices (a : Text) (c : Char) (s : Text) :
    indexOf (charIndices 0 (a ++ c :: s)) a.length = .ok (byteLen a, c) := by
  rw [charIndices_append, Nat.zero_add]
  have h := indexOf_append (charIndices 0 a) (byteLen a, c)
    (charIndices (byteLen a + ByteSized.size c) s)
  rw [charIndices_length] at h
  exact h

theorem windowOf_charIndices (a m b : Text) :
    windowOf (charIndices 0 (a ++ m ++ b)) a.length (a.length + m.length) =
      .ok (charIndices (byteLen a) m) := by
  have h := windowOf_append (charIndices 0 a) (charIndices (byteLen a) m)
    (charIndices (byteLen a + byteLen m) b)
  rw [charIndices_length, charIndices_length] at h
  rw [charIndices_append, charIndices_append, Nat.zero_add, Nat.zero_add, byteLen_append]
  exact h

theorem caseSpanAt_ok {needle a m b : Text} (hm : m.length = needle.length) (hne : m ≠ []) :
    caseSpanAt (a ++ m ++ b) needle a.length =
      .ok (if (needle.zip m).all fun p => charsEqIgnoreCase p.1 p.2 then
        [⟨byteLen a, byteLen a + byteLen m⟩] else []) := by
  obtain ⟨c, m', rfl⟩ := List.exists_cons_of_ne_nil hne
  have hstart : indexOf (charIndices 0 (a ++ (c :: m') ++ b)) a.length = .ok (byteLen a, c) := by
    rw [List.append_assoc]
    exact indexOf_charIndices a c (m' ++ b)
  have hstop : offsetAt (a ++ (c :: m') ++ b) (a.length + needle.length) =
      .ok (byteLen a + byteLen (c :: m')) := by
    unfold offsetAt
    dsimp only
    rw [← hm, ← List.length_append]
    cases b with
    | nil =>
      rw [if_neg (by simp), List.append_nil, byteLen_append]
    | cons d b =>
      rw [if_pos (by simp), indexOf_charIndices, byteLen_append]
      rfl
  unfold caseSpanAt
  dsimp only
  rw [← hm, windowOf_charIndices, hm]
  show (if ((needle.zip ((charIndices (byteLen a) (c :: m')).map Prod.snd)).all
    fun p => charsEqIgnoreCase p.1 p.2) = true then _ else _) = _
  rw [charIndices_snd]
  split
  · rw [hstart, hstop]
    show (do
      debugAssert (isBoundary (byteLen a) (a ++ (c :: m') ++ b) &&
        isBoundary (byteLen a + byteLen (c :: m')) (a ++ (c :: m') ++ b))
      return [(⟨byteLen a, byteLen a + byteLen (c :: m')⟩ : Range)]) = _
    rw [debugAssert_spans]
    rfl
  · rfl

theorem windowSpans_short {eq : Char → Char → Bool} {needle : Text} {off : Nat} {s : Text}
    (h : s.length < needle.length) : windowSpans eq needle off s = [] := by
  induction s generalizing off with
  | nil => rfl
  | cons c s ih =>
    rw [windowSpans_cons, windowMatches, decide_eq_false (Nat.not_le.mpr h), Bool.false_and,
      if_neg Bool.false_ne_true, List.nil_append]
    exact ih (by simp only [List.length_cons] at h; omega)

theorem zip_take_eq {needle s : Text} (h : needle.length ≤ s.length) :
    needle.zip (s.take needle.length) = needle.zip s := by
  have hz := @List.zip_eq_zip_take_min _ _ needle s
  rw [Nat.min_eq_left h, List.take_length] at hz
  exact hz.symm

theorem pushed_caseSpans {needle a s : Text} (hne : needle ≠ []) :
    pushed (caseSpanAt (a ++ s) needle) a.length (s.length + 1 - needle.length) =
      .ok (windowSpans charsEqIgnoreCase needle (byteLen a) s) := by
  have hpos : 0 < needle.length := List.length_pos_iff.mpr hne
  induction s generalizing a with
  | nil =>
    rw [show ([] : Text).length + 1 - needle.length = 0 by simp only [List.length_nil]; omega]
    rfl
  | cons c s ih =>
    by_cases hshort : (c :: s).length < needle.length
    · rw [show (c :: s).length + 1 - needle.length = 0 by omega, windowSpans_short hshort]
      rfl
    · have hle : needle.length ≤ (c :: s).length := Nat.le_of_not_lt hshort
      have hcount : (c :: s).length + 1 - needle.length = (s.length + 1 - needle.length) + 1 := by
        simp only [List.length_cons] at hle ⊢
        omega
      have hhere := @caseSpanAt_ok needle a ((c :: s).take needle.length)
        ((c :: s).drop needle.length) (by rw [List.length_take, Nat.min_eq_left hle])
        (by
          obtain ⟨n, hn⟩ : ∃ n, needle.length = n + 1 := ⟨needle.length - 1, by omega⟩
          rw [hn]
          exact List.cons_ne_nil _ _)
      rw [List.append_assoc, List.take_append_drop, zip_take_eq hle] at hhere
      have hlater := @ih (a ++ [c])
      rw [List.append_assoc, List.singleton_append, List.length_append, byteLen_append] at hlater
      rw [hcount]
      unfold pushed
      rw [hhere]
      show (pushed (caseSpanAt (a ++ c :: s) needle) (a.length + 1)
        (s.length + 1 - needle.length) >>= fun later => pure (_ ++ later)) = _
      rw [show a.length + 1 = a.length + [c].length from rfl, hlater, windowSpans_cons,
        windowMatches, decide_eq_true hle, Bool.true_and]
      rfl

theorem caseSpans_ok {haystack needle : Text} (hne : needle ≠ []) :
    caseSpans haystack needle = .ok (windowSpans charsEqIgnoreCase needle 0 haystack) := by
  have hpos : 0 < needle.length := List.length_pos_iff.mpr hne
  unfold caseSpans
  dsimp only
  rw [charIndices_length]
  split
  · rename_i hle
    obtain ⟨-, hle⟩ := Bool.and_eq_true_iff.mp hle
    have hle : needle.length ≤ haystack.length := of_decide_eq_true hle
    have h := @pushed_caseSpans needle [] haystack hne
    rw [show haystack.length + 1 - needle.length = haystack.length - needle.length + 1 by omega]
      at h
    exact h
  · rename_i hle
    rw [windowSpans_short]
    by_contra hge
    exact hle (by simp [hpos, Nat.le_of_not_lt hge])

/-! ## the search by atom index -/

/-- a run of atoms of the haystack lies between its boundaries -/
theorem fallbackSpanAt_ok {haystack : Text} {atoms : List Text} {l m r : List (Run Char)}
    (h : atomMatches haystack = l ++ m ++ r) (hm : m.length = atoms.length) (hne : m ≠ []) :
    fallbackSpanAt haystack atoms l.length =
      .ok (match m.head?, m.getLast? with
        | some first, some last =>
          if m.map (fun a => toLowercase a.text) == atoms then [⟨first.start, last.stop⟩] else []
        | _, _ => []) := by
  obtain ⟨first, m', hcons⟩ := List.exists_cons_of_ne_nil hne
  obtain ⟨m'', last, hlast⟩ := (List.eq_nil_or_concat m).resolve_left hne
  rw [List.concat_eq_append] at hlast
  have hhead : m.head? = some first := by rw [hcons]; rfl
  have htail : m.getLast? = some last := by rw [hlast, List.getLast?_append]; rfl
  have hwindow : windowOf ((atomMatches haystack).map fun a => toLowercase a.text) l.length
      (l.length + atoms.length) = .ok (m.map fun a => toLowercase a.text) := by
    have hw := windowOf_append (l.map fun a => toLowercase a.text)
      (m.map fun a => toLowercase a.text) (r.map fun a => toLowercase a.text)
    rw [List.length_map, List.length_map, hm] at hw
    rw [h, List.map_append, List.map_append]
    exact hw
  have hfirst : indexOf (atomMatches haystack) l.length = .ok first := by
    rw [h, hcons, List.append_assoc]
    exact indexOf_append l first (m' ++ r)
  have hend : indexOf (atomMatches haystack) (l.length + atoms.length - 1) = .ok last := by
    have hlen : l.length + atoms.length - 1 = (l ++ m'').length := by
      rw [← hm, hlast]
      simp only [List.length_append, List.length_singleton]
      omega
    rw [h, hlen, hlast, List.append_assoc, List.append_assoc, ← List.append_assoc]
    exact indexOf_append (l ++ m'') last r
  obtain ⟨a, w, b, hs, h1, h2, -, -, -⟩ :=
    atomRuns_segment (show atomMatches haystack = l ++ (m ++ r) by rw [h, List.append_assoc])
      hhead htail
  have hb1 : isBoundary first.start haystack = true := by
    rw [← h1, hs, List.append_assoc, Nat.zero_add]
    exact isBoundary_append a (w ++ b)
  have hb2 : isBoundary last.stop haystack = true := by
    rw [← h2, hs, Nat.zero_add, ← byteLen_append]
    exact isBoundary_append (a ++ w) b
  unfold fallbackSpanAt
  dsimp only
  rw [hwindow, hhead, htail]
  show (if (m.map (fun a => toLowercase a.text) == atoms) = true then _ else _) = _
  dsimp only
  split
  · rw [hfirst, hend]
    show Except.ok (if (isBoundary first.start haystack && isBoundary last.stop haystack) = true
      then [(⟨first.start, last.stop⟩ : Range)] else []) = _
    rw [hb1, hb2]
    rfl
  · rfl

theorem atomSpans_cons (atoms : List Text) (m : Run Char) (ms : List (Run Char)) :
    atomSpans atoms (m :: ms) =
      (if ((m :: ms).take atoms.length).map (fun a => toLowercase a.text) == atoms then
        [⟨m.start, ((((m :: ms).take atoms.length).getLast?).map Run.stop).getD 0⟩] else []) ++
        atomSpans atoms ms := by
  rw [atomSpans]
  split <;> rfl

theorem atomSpans_short {atoms : List Text} {ms : List (Run Char)} (h : ms.length < atoms.length) :
    atomSpans atoms ms = [] := by
  induction ms with
  | nil => rfl
  | cons m ms ih =>
    have hne : (((m :: ms).take atoms.length).map (fun a => toLowercase a.text) == atoms) =
        false := by
      rw [beq_eq_false_iff_ne]
      intro h0
      have h1 := congrArg List.length h0
      rw [List.length_map, List.length_take, Nat.min_eq_right (Nat.le_of_lt h)] at h1
      omega
    rw [atomSpans_cons, hne, if_neg Bool.false_ne_true, List.nil_append]
    exact ih (by simp only [List.length_cons] at h; omega)

theorem pushed_fallbackSpans {haystack : Text} {atoms : List Text} (hne : atoms ≠ [])
    {l ms : List (Run Char)} (h : atomMatches haystack = l ++ ms) :
    pushed (fallbackSpanAt haystack atoms) l.length (ms.length + 1 - atoms.length) =
      .ok (atomSpans atoms ms) := by
  have hpos : 0 < atoms.length := List.length_pos_iff.mpr hne
  induction ms generalizing l with
  | nil =>
    rw [show ([] : List (Run Char)).length + 1 - atoms.length = 0 by
      simp only [List.length_nil]; omega]
    rfl
  | cons m ms ih =>
    by_cases hshort : (m :: ms).length < atoms.length
    · rw [show (m :: ms).length + 1 - atoms.length = 0 by omega, atomSpans_short hshort]
      rfl
    · have hle : atoms.length ≤ (m :: ms).length := Nat.le_of_not_lt hshort
      have hcount : (m :: ms).length + 1 - atoms.length = (ms.length + 1 - atoms.length) + 1 := by
        simp only [List.length_cons] at hle ⊢
        omega
      obtain ⟨n, hn⟩ : ∃ n, atoms.length = n + 1 := ⟨atoms.length - 1, by omega⟩
      have hwne : (m :: ms).take atoms.length ≠ [] := by
        rw [hn]
        exact List.cons_ne_nil _ _
      have hhere := @fallbackSpanAt_ok haystack atoms l ((m :: ms).take atoms.length)
        ((m :: ms).drop atoms.length) (by rw [List.append_assoc, List.take_append_drop]; exact h)
        (by rw [List.length_take, Nat.min_eq_left hle]) hwne
      have hhead : ((m :: ms).take atoms.length).head? = some m := by
        rw [hn]
        rfl
      have hlast := List.getLast?_eq_some_getLast hwne
      rw [hhead, hlast] at hhere
      have hlater := @ih (l ++ [m]) (by rw [h]; simp)
      rw [List.length_append] at hlater
      rw [hcount]
      unfold pushed
      rw [hhere]
      show (pushed (fallbackSpanAt haystack atoms) (l.length + 1)
        (ms.length + 1 - atoms.length) >>= fun later => pure (_ ++ later)) = _
      rw [show l.length + 1 = l.length + [m].length from rfl, hlater, atomSpans_cons, hlast]
      rfl

theorem fallbackSpans_ok {haystack : Text} {atoms : List Text} (hne : atoms ≠ []) :
    fallbackSpans haystack atoms = .ok (atomSpans atoms (atomMatches haystack)) := by
  unfold fallbackSpans
  dsimp only
  split
  · rename_i hshort
    rw [atomSpans_short hshort]
  · rename_i hge
    have h := @pushed_fallbackSpans haystack atoms hne [] (atomMatches haystack) rfl
    rw [show (atomMatches haystack).length + 1 - atoms.length =
      (atomMatches haystack).length - atoms.length + 1 by omega] at h
    exact h

/-! ## the search -/

theorem length_le_byteLen (s : Text) : s.length ≤ byteLen s := by
  induction s with
  | nil => exact Nat.le_refl 0
  | cons c s ih =>
    have := ByteSized.size_pos c
    rw [List.length_cons, byteLen_cons]
    omega

/-- **no step of the search traps, and it finds the occurrences** -/
theorem searchLiteralSpans_ok (haystack needle : Text) :
    searchLiteralSpans haystack needle = .ok (findLiteralSpans haystack needle) := by
  unfold searchLiteralSpans findLiteralSpans
  split
  · rfl
  rename_i hne
  have hneedle : needle ≠ [] := by
    intro h0
    exact hne (by rw [h0]; rfl)
  have hlen : haystack.length < byteLen haystack + 2 := by
    have := length_le_byteLen haystack
    omega
  have hexact := @exactLoop_ok needle hneedle (byteLen haystack + 2) [] haystack [] hlen
  rw [List.nil_append, byteLen_nil, List.nil_append] at hexact
  rw [hexact, caseSpans_ok hneedle]
  show (if (!(windowRanges haystack needle).isEmpty) = true then _ else _) = _
  dsimp only
  split
  · rfl
  split
  · rfl
  split
  · rfl
  rename_i hatoms
  exact fallbackSpans_ok (by simpa using hatoms)

end Voisu.Compose
