import Mathlib
import Voisu.Compose.Lexical

/-!
# Lexical atoms of texts put together

* `lexicalAtoms_eq_of_words`     whitespace between words does not matter;
* `lexicalAtomSequence_append`   two texts that do not run together;
* `lexicalAtomSequence_glue`     two texts that do;
* `lexicalAtomSequence_congr`    the atoms of two texts and how they are glued fix the atoms of both
                                 together.
-/

namespace Voisu.Compose
open Lib

/-! ## whitespace does not matter to the words -/

/-- letters, digits and joiners -/
abbrev isPlain : Char → Bool := plainSymbol isAsciiAlphanumeric isJoiner

theorem isPlain_of_isWhitespace {c : Char} (h : isWhitespace c = true) : isPlain c = false := by
  by_contra hc
  have hc : isPlain c = true := by simpa using hc
  rcases Bool.or_eq_true_iff.mp hc with hl | hj
  · simp only [isAsciiAlphanumeric, isAsciiAlphabetic, isAsciiUppercase, isAsciiLowercase,
      isAsciiDigit, inRange, Bool.or_eq_true, Bool.and_eq_true, decide_eq_true_eq] at hl
    simp only [isWhitespace, inRange, Bool.or_eq_true, Bool.and_eq_true, decide_eq_true_eq,
      beq_iff_eq] at h
    omega
  · simp only [isJoiner, Bool.or_eq_true, beq_iff_eq] at hj
    rcases hj with ((((rfl | rfl) | rfl) | rfl) | rfl) | rfl <;> exact absurd h (by decide)

theorem gap_of_whitespace {g : Text} (h : g.all isWhitespace = true) :
    g.all (fun c => !isPlain c) = true := by
  rw [List.all_eq_true] at h ⊢
  intro c hc
  rw [isPlain_of_isWhitespace (h c hc)]
  rfl

theorem lexicalAtoms_eq_of_words {s t : Text} (h : words isPlain s = words isPlain t) :
    lexicalAtoms s = lexicalAtoms t := by
  unfold lexicalAtoms
  rw [lexicalAtomSequence_eq, lexicalAtomSequence_eq, atomWords_eq_of_words h]

theorem words_trim (s : Text) : words isPlain (trim s) = words isPlain s := by
  obtain ⟨g, g', h, hg, hg'⟩ := trimMatches_split isWhitespace s
  have h1 := gap_of_whitespace hg
  have h2 := gap_of_whitespace hg'
  conv_rhs => rw [h]
  rw [words_append (by rw [headSep_of_all h2, Bool.or_true]),
    words_append (by rw [lastSep_of_all h1, Bool.true_or]), words_gap h1, words_gap h2,
    List.nil_append, List.append_nil]
  rfl

/-! ## letters, joiners and case -/

theorem toNat_toAsciiLowercase (c : Char) :
    (toAsciiLowercase c).toNat = if isAsciiUppercase c then c.toNat + 32 else c.toNat := by
  unfold toAsciiLowercase
  split
  · rename_i h
    simp only [isAsciiUppercase, inRange, Bool.and_eq_true, decide_eq_true_eq] at h
    unfold Char.ofNat
    rw [dif_pos (Or.inl (by omega))]
    rfl
  · rfl

theorem isAsciiAlphanumeric_lower (c : Char) :
    isAsciiAlphanumeric (toAsciiLowercase c) = isAsciiAlphanumeric c := by
  unfold isAsciiAlphanumeric isAsciiAlphabetic isAsciiUppercase isAsciiLowercase isAsciiDigit inRange
  rw [toNat_toAsciiLowercase]
  unfold isAsciiUppercase inRange
  split
  · rename_i h
    simp only [Bool.and_eq_true, decide_eq_true_eq] at h
    rw [Bool.eq_iff_iff]
    simp only [Bool.or_eq_true, Bool.and_eq_true, decide_eq_true_eq]
    omega
  · rfl

theorem isJoiner_iff (c : Char) : isJoiner c = true ↔
    c.toNat = 95 ∨ c.toNat = 46 ∨ c.toNat = 47 ∨ c.toNat = 61 ∨ c.toNat = 43 ∨ c.toNat = 45 := by
  have hc : ∀ d : Char, c = d ↔ c.toNat = d.toNat := fun d => Char.toNat_inj.symm
  simp only [isJoiner, Bool.or_eq_true, beq_iff_eq, hc]
  show ((((_ = 95 ∨ _ = 46) ∨ _ = 47) ∨ _ = 61) ∨ _ = 43) ∨ _ = 45 ↔ _
  omega

theorem isJoiner_lower (c : Char) : isJoiner (toAsciiLowercase c) = isJoiner c := by
  rw [Bool.eq_iff_iff, isJoiner_iff, isJoiner_iff, toNat_toAsciiLowercase]
  split
  · rename_i h
    simp only [isAsciiUppercase, inRange, Bool.and_eq_true, decide_eq_true_eq] at h
    omega
  · rfl

example : isJoiner '/' = true ∧ isJoiner ',' = false := by decide +kernel

/-! ## texts put together -/

/-- what glues the last atom of `s` to the first of `t` -/
abbrev textGlue (s t : Text) : Option Text := glue isAsciiAlphanumeric isJoiner s t

theorem isJoiner_of_letter (c : Char) (h : isAsciiAlphanumeric c = true) : isJoiner c = false := by
  by_contra hj
  have hj : isJoiner c = true := by simpa using hj
  simp only [isJoiner, Bool.or_eq_true, beq_iff_eq] at hj
  rcases hj with ((((rfl | rfl) | rfl) | rfl) | rfl) | rfl <;> exact absurd h (by decide)

theorem ascii_of_isPlain {c : Char} (h : isPlain c = true) : c.toNat ≤ 0x7F := by
  rcases Bool.or_eq_true_iff.mp h with hl | hj
  · simp only [isAsciiAlphanumeric, isAsciiAlphabetic, isAsciiUppercase, isAsciiLowercase,
      isAsciiDigit, inRange, Bool.or_eq_true, Bool.and_eq_true, decide_eq_true_eq] at hl
    omega
  · simp only [isJoiner, Bool.or_eq_true, beq_iff_eq] at hj
    rcases hj with ((((rfl | rfl) | rfl) | rfl) | rfl) | rfl <;> decide

theorem toLowercase_of_isPlain {s : Text} (h : s.all isPlain = true) :
    toLowercase s = asciiLowercase s :=
  toLowercase_ascii fun c hc => ascii_of_isPlain (List.all_eq_true.mp h c hc)

theorem lexicalAtomSequence_append {s t : Text} (h : textGlue s t = none) :
    lexicalAtomSequence (s ++ t) = lexicalAtomSequence s ++ lexicalAtomSequence t := by
  rw [lexicalAtomSequence_eq, lexicalAtomSequence_eq, lexicalAtomSequence_eq,
    atomWords_append (glue_eq_none.mp h), List.map_append]

theorem lexicalAtomSequence_glue {s t j : Text} (h : textGlue s t = some j) :
    (j = [] ∨ ∃ c, j = [c] ∧ isJoiner c = true) ∧
    ∃ xs x y ys, lexicalAtomSequence s = xs ++ [x] ∧ lexicalAtomSequence t = y :: ys ∧
      lexicalAtomSequence (s ++ t) = xs ++ (x ++ j ++ y) :: ys := by
  obtain ⟨hj, xs, x, y, ys, h1, h2, h3⟩ := atomWords_glue isJoiner_of_letter h
  have hx : x.all isPlain = true := atomWords_plain (by rw [h1]; simp)
  have hy : y.all isPlain = true := atomWords_plain (by rw [h2]; simp)
  have hxy : (x ++ j ++ y).all isPlain = true := atomWords_plain (by rw [h3]; simp)
  have hlow : asciiLowercase j = j := by
    rcases hj with rfl | ⟨c, rfl, hc, -⟩
    · rfl
    · simp only [isJoiner, Bool.or_eq_true, beq_iff_eq] at hc
      rcases hc with ((((rfl | rfl) | rfl) | rfl) | rfl) | rfl <;> rfl
  refine ⟨?_, xs.map toLowercase, toLowercase x, toLowercase y, ys.map toLowercase, ?_, ?_, ?_⟩
  · rcases hj with hj | ⟨c, hj, hc, -⟩
    · exact Or.inl hj
    · exact Or.inr ⟨c, hj, hc⟩
  · rw [lexicalAtomSequence_eq, h1, List.map_append]
    rfl
  · rw [lexicalAtomSequence_eq, h2]
    rfl
  · rw [lexicalAtomSequence_eq, h3, List.map_append, List.map_cons, toLowercase_of_isPlain hxy,
      toLowercase_of_isPlain hx, toLowercase_of_isPlain hy]
    unfold asciiLowercase at hlow ⊢
    rw [List.map_append, List.map_append, hlow]

/-- **glued alike, texts with the same atoms have the same atoms together** -/
theorem lexicalAtomSequence_congr {s t s' t' : Text}
    (hs : lexicalAtomSequence s = lexicalAtomSequence s')
    (ht : lexicalAtomSequence t = lexicalAtomSequence t') (hg : textGlue s t = textGlue s' t') :
    lexicalAtomSequence (s ++ t) = lexicalAtomSequence (s' ++ t') := by
  cases h : textGlue s t with
  | none => rw [lexicalAtomSequence_append h, lexicalAtomSequence_append (hg ▸ h), hs, ht]
  | some j =>
    obtain ⟨-, xs, x, y, ys, h1, h2, h3⟩ := lexicalAtomSequence_glue h
    obtain ⟨-, xs', x', y', ys', h1', h2', h3'⟩ := lexicalAtomSequence_glue (hg ▸ h)
    rw [h1, h1'] at hs
    rw [h2, h2'] at ht
    obtain ⟨rfl, hx⟩ := List.append_inj' hs rfl
    obtain ⟨rfl, rfl⟩ := List.cons.inj ht
    rw [h3, h3', (List.cons.inj hx).1]

example : lexicalAtomSequence "Foo, a.B".toList = ["foo".toList, "a.b".toList] := by decide +kernel

/-! ## texts that go on -/

theorem lexicalAtomSequence_ne_nil {s w : Text} (hw : w ∈ lexicalAtomSequence s) :
    w.head?.any (fun c => !isJoiner c) = true := by
  rw [lexicalAtomSequence_eq] at hw
  obtain ⟨v, hv, rfl⟩ := List.mem_map.mp hw
  have hhead := atomWords_head hv
  rw [toLowercase_of_isPlain (atomWords_plain hv)]
  cases v with
  | nil => cases hhead
  | cons c v =>
    have hc : isAsciiAlphanumeric c = true := hhead
    have hl : isAsciiAlphanumeric (toAsciiLowercase c) = true := by
      rw [isAsciiAlphanumeric_lower]
      exact hc
    show (!isJoiner (toAsciiLowercase c)) = true
    rw [isJoiner_of_letter _ hl]
    rfl

/-- what follows a text extends its last atom at most -/
theorem lexicalAtomSequence_extend {s : Text} {xs ys : List Text} {x : Text}
    (h : lexicalAtomSequence s = xs ++ x :: ys) (t : Text) :
    ∃ e zs, lexicalAtomSequence (s ++ t) = xs ++ (x ++ e) :: zs ∧ (ys ≠ [] → e = []) := by
  cases hg : textGlue s t with
  | none =>
    refine ⟨[], ys ++ lexicalAtomSequence t, ?_, fun _ => rfl⟩
    rw [lexicalAtomSequence_append hg, h, List.append_nil, List.append_assoc]
    rfl
  | some j =>
    obtain ⟨-, us, u, v, vs, h1, -, h3⟩ := lexicalAtomSequence_glue hg
    rw [h] at h1
    rcases List.eq_nil_or_concat ys with rfl | ⟨init, last, rfl⟩
    · obtain ⟨rfl, hx⟩ := List.append_inj' h1 rfl
      obtain rfl := (List.cons.inj hx).1
      exact ⟨j ++ v, vs, by rw [h3, List.append_assoc], fun h0 => absurd rfl h0⟩
    · rw [List.concat_eq_append, ← List.cons_append, ← List.append_assoc] at h1
      obtain ⟨rfl, -⟩ := List.append_inj' h1 rfl
      exact ⟨[], init ++ (u ++ j ++ v) :: vs, by rw [h3]; simp, fun _ => rfl⟩

/-- an atom glued in one text and not in the other -/
theorem lexicalAtomSequence_ne_of_none {s t s' t' j : Text}
    (hs : lexicalAtomSequence s = lexicalAtomSequence s')
    (ht : lexicalAtomSequence t = lexicalAtomSequence t') (hg : textGlue s t = none)
    (hg' : textGlue s' t' = some j) (u u' : Text) :
    lexicalAtomSequence (s ++ t ++ u) ≠ lexicalAtomSequence (s' ++ t' ++ u') := by
  obtain ⟨-, xs, x, y, ys, h1, h2, h3⟩ := lexicalAtomSequence_glue hg'
  have h : lexicalAtomSequence (s ++ t) = xs ++ x :: y :: ys := by
    rw [lexicalAtomSequence_append hg, hs, ht, h1, h2, List.append_assoc]
    rfl
  obtain ⟨e, zs, hz, he0⟩ := lexicalAtomSequence_extend h u
  obtain ⟨e', zs', hz', -⟩ := lexicalAtomSequence_extend h3 u'
  intro he
  rw [hz, hz', he0 (by simp), List.append_nil] at he
  have hx := (List.cons.inj (List.append_cancel_left he)).1
  have hy := lexicalAtomSequence_ne_nil (show y ∈ lexicalAtomSequence t' by rw [h2]; simp)
  have hlen := congrArg List.length hx
  simp only [List.length_append] at hlen
  have hy0 : y = [] := List.length_eq_zero_iff.mp (by omega)
  rw [hy0] at hy
  cases hy

/-- **glued differently, two texts stay different whatever follows** -/
theorem lexicalAtomSequence_ne {s t s' t' : Text}
    (hs : lexicalAtomSequence s = lexicalAtomSequence s')
    (ht : lexicalAtomSequence t = lexicalAtomSequence t') (hg : textGlue s t ≠ textGlue s' t')
    (u u' : Text) : lexicalAtomSequence (s ++ t ++ u) ≠ lexicalAtomSequence (s' ++ t' ++ u') := by
  cases h : textGlue s t with
  | none =>
    cases h' : textGlue s' t' with
    | none => exact absurd (h.trans h'.symm) hg
    | some j => exact lexicalAtomSequence_ne_of_none hs ht h h' u u'
  | some j =>
    cases h' : textGlue s' t' with
    | none => exact (lexicalAtomSequence_ne_of_none hs.symm ht.symm h' h u' u).symm
    | some j' =>
      have hjj : j ≠ j' := fun h0 => hg (by rw [h, h', h0])
      obtain ⟨hj, xs, x, y, ys, h1, h2, h3⟩ := lexicalAtomSequence_glue h
      obtain ⟨hj', xs', x', y', ys', h1', h2', h3'⟩ := lexicalAtomSequence_glue h'
      rw [h1, h1'] at hs
      rw [h2, h2'] at ht
      obtain ⟨rfl, hx⟩ := List.append_inj' hs rfl
      obtain ⟨rfl, rfl⟩ := List.cons.inj ht
      obtain rfl := (List.cons.inj hx).1
      obtain ⟨e, zs, hz, -⟩ := lexicalAtomSequence_extend h3 u
      obtain ⟨e', zs', hz', -⟩ := lexicalAtomSequence_extend h3' u'
      intro he
      rw [hz, hz'] at he
      have hw := (List.cons.inj (List.append_cancel_left he)).1
      simp only [List.append_assoc] at hw
      have hw := List.append_cancel_left hw
      have hy := lexicalAtomSequence_ne_nil (show y ∈ lexicalAtomSequence t by rw [h2]; simp)
      cases y with
      | nil => cases hy
      | cons c y =>
        have hc : isJoiner c = false := by simpa using hy
        -- the atom goes on with a letter on one side and a joiner on the other
        rcases hj with rfl | ⟨d, rfl, hd⟩
        · rcases hj' with rfl | ⟨d', rfl, hd'⟩
          · exact hjj rfl
          · rw [← (List.cons.inj hw).1, hc] at hd'
            cases hd'
        · rcases hj' with rfl | ⟨d', rfl, hd'⟩
          · rw [(List.cons.inj hw).1, hc] at hd
            cases hd
          · exact hjj (by rw [(List.cons.inj hw).1])

/-! ## case -/

/-- lowered, and every symbol outside the atoms made the same -/
def canonical (c : Char) : Char := if isPlain c then toAsciiLowercase c else ' '

theorem canonical_letter (c : Char) :
    isAsciiAlphanumeric (canonical c) = isAsciiAlphanumeric c := by
  unfold canonical
  split
  · exact isAsciiAlphanumeric_lower c
  · rename_i h
    have h : isPlain c = false := by simpa using h
    exact (Bool.or_eq_false_iff.mp h).1.symm

theorem canonical_joiner (c : Char) : isJoiner (canonical c) = isJoiner c := by
  unfold canonical
  split
  · exact isJoiner_lower c
  · rename_i h
    have h : isPlain c = false := by simpa using h
    exact (Bool.or_eq_false_iff.mp h).2.symm

theorem lexicalAtomSequence_canonical (s : Text) :
    lexicalAtomSequence s = atomWords isAsciiAlphanumeric isJoiner (s.map canonical) := by
  rw [lexicalAtomSequence_eq, atomWords_map canonical canonical_letter canonical_joiner]
  apply List.map_congr_left
  intro w hw
  have hp := atomWords_plain hw
  rw [toLowercase_of_isPlain hp]
  apply List.map_congr_left
  intro c hc
  unfold canonical
  rw [if_pos (List.all_eq_true.mp hp c hc)]

end Voisu.Compose
