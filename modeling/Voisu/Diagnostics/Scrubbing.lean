import Voisu.Diagnostics.Export

/-!
# The URLs that scrubbing finds

* `schemeAt_spec`   a URL starts with letters and `://`;
* `url_split`       it has its parts, up to the next whitespace;
* `scrubEmbeddedUrls_cons`   the scan goes on one character later where none starts.
-/

namespace Voisu.Diagnostics
open Lib

/-! ## letters -/

theorem letter_of_lower {c : Char} (h : isAsciiAlphabetic (toAsciiLowercase c) = true) :
    isAsciiAlphabetic c = true := by
  unfold toAsciiLowercase at h
  split at h
  · rename_i hu
    unfold isAsciiAlphabetic
    rw [hu]
    rfl
  · exact h

theorem eq_of_lower_eq {c d : Char} (h : toAsciiLowercase c = d)
    (hd : isAsciiAlphabetic d = false) : c = d := by
  unfold toAsciiLowercase at h
  split at h
  · rename_i hu
    rw [← h] at hd
    have : isAsciiAlphabetic (Char.ofNat (c.toNat + 32)) = true := by
      simp only [isAsciiUppercase, inRange, Bool.and_eq_true, decide_eq_true_eq] at hu
      have hn : (Char.ofNat (c.toNat + 32)).toNat = c.toNat + 32 := by
        unfold Char.ofNat
        rw [dif_pos (Or.inl (by omega))]
        rfl
      simp only [isAsciiAlphabetic, isAsciiLowercase, isAsciiUppercase, inRange, hn,
        Bool.or_eq_true, Bool.and_eq_true, decide_eq_true_eq]
      omega
    rw [this] at hd
    cases hd
  · exact h

theorem letter_notWhitespace {c : Char} (h : isAsciiAlphabetic c = true) :
    notWhitespace c = true := by
  simp only [isAsciiAlphabetic, isAsciiUppercase, isAsciiLowercase, inRange, Bool.or_eq_true,
    Bool.and_eq_true, decide_eq_true_eq] at h
  simp only [notWhitespace, isWhitespace, inRange, Bool.not_eq_true', Bool.or_eq_false_iff,
    Bool.and_eq_false_iff, decide_eq_false_iff_not, beq_eq_false_iff_ne]
  omega

/-! ## URLs -/

/-- a text that starts with a scheme -/
theorem startsWith_scheme {name s : Text} (hname : name.all isAsciiAlphabetic = true)
    (h : startsWith (asciiLowercase s) (name ++ [':', '/', '/']) = true) :
    ∃ y z, s = y ++ [':', '/', '/'] ++ z ∧ y.all isAsciiAlphabetic = true ∧
      y.length = name.length := by
  obtain ⟨t, ht⟩ := startsWith_iff.mp h
  obtain ⟨x, z, rfl, hx, -⟩ := List.map_eq_append_iff.mp ht.symm
  obtain ⟨y, w, rfl, hy, hw⟩ := List.map_eq_append_iff.mp hx
  refine ⟨y, z, ?_, ?_, ?_⟩
  · have hsep : w = [':', '/', '/'] := by
      obtain ⟨a, w, rfl, ha, hw⟩ := List.map_eq_cons_iff.mp hw
      obtain ⟨b, w, rfl, hb, hw⟩ := List.map_eq_cons_iff.mp hw
      obtain ⟨c, w, rfl, hc, hw⟩ := List.map_eq_cons_iff.mp hw
      rw [eq_of_lower_eq ha (by decide), eq_of_lower_eq hb (by decide),
        eq_of_lower_eq hc (by decide), List.map_eq_nil_iff.mp hw]
    rw [hsep]
  · rw [List.all_eq_true] at hname ⊢
    intro c hc
    exact letter_of_lower (hname _ (by rw [← hy]; exact List.mem_map_of_mem hc))
  · rw [← hy, List.length_map]

theorem schemeAt_spec {s : Text} (h : schemeAt s = true) :
    ∃ y z, s = y ++ [':', '/', '/'] ++ z ∧ y.all isAsciiAlphabetic = true ∧ y ≠ [] := by
  have hone : ∀ name : Text, name.all isAsciiAlphabetic = true → name ≠ [] →
      startsWith (asciiLowercase s) (name ++ [':', '/', '/']) = true →
      ∃ y z, s = y ++ [':', '/', '/'] ++ z ∧ y.all isAsciiAlphabetic = true ∧ y ≠ [] := by
    intro name hname hne hs
    obtain ⟨y, z, h1, h2, h3⟩ := startsWith_scheme hname hs
    refine ⟨y, z, h1, h2, ?_⟩
    rintro rfl
    exact hne (List.length_eq_zero_iff.mp h3.symm)
  obtain ⟨scheme, hmem, hs⟩ := List.any_eq_true.mp h
  simp only [urlSchemes, List.map_cons, List.map_nil, List.mem_cons, List.not_mem_nil, or_false]
    at hmem
  rcases hmem with rfl | rfl | rfl | rfl
  · exact hone "http".toList (by decide) (by decide) hs
  · exact hone "https".toList (by decide) (by decide) hs
  · exact hone "ws".toList (by decide) (by decide) hs
  · exact hone "wss".toList (by decide) (by decide) hs

/-- the path of a URL with the slash before it -/
def UrlParts.pathText (u : UrlParts) : Text :=
  match u.path with
  | some path => '/' :: path
  | none => []

theorem UrlParts.text_eq (u : UrlParts) :
    u.text = (u.scheme ++ [':', '/', '/']) ++ (u.host ++ u.pathText) := by
  unfold UrlParts.text UrlParts.pathText
  cases u.path <;> simp

/-- **the URL at the front of a text has its parts** -/
theorem url_split {c : Char} {s : Text} (h : schemeAt (c :: s) = true) :
    ∃ u, urlParts (c :: s.takeWhile notWhitespace) = some u ∧ notWhitespace c = true := by
  obtain ⟨y, z, hs, hy, hne⟩ := schemeAt_spec h
  have hpre : ∀ d ∈ y ++ [':', '/', '/'], notWhitespace d = true := by
    intro d hd
    rcases List.mem_append.mp hd with hd | hd
    · exact letter_notWhitespace (List.all_eq_true.mp hy d hd)
    · exact List.all_eq_true.mp (show [':', '/', '/'].all notWhitespace = true by decide) d hd
  have hc : notWhitespace c = true := by
    cases y with
    | nil => exact absurd rfl hne
    | cons d y =>
      obtain ⟨rfl, -⟩ := List.cons.inj hs
      exact hpre _ (by simp)
  have htake : c :: s.takeWhile notWhitespace =
      y ++ [':', '/', '/'] ++ z.takeWhile notWhitespace := by
    rw [← List.takeWhile_append_of_pos hpre, ← hs, List.takeWhile_cons_of_pos hc]
  have hsep : "://".toList <:+: c :: s.takeWhile notWhitespace := by
    rw [htake]
    exact ⟨y, z.takeWhile notWhitespace, rfl⟩
  obtain ⟨p, hp⟩ := splitOnceStr_isSome hsep
  exact ⟨_, by unfold urlParts; rw [hp]; rfl, hc⟩

/-! ## embedded URLs -/

theorem scrubUrlsFrom_drop (skip : Nat) (s : Text) :
    scrubUrlsFrom skip s = scrubUrlsFrom 0 (s.drop skip) := by
  induction skip generalizing s with
  | zero => rfl
  | succ skip ih =>
    cases s with
    | nil => rfl
    | cons c s => exact ih s

theorem schemeAt_whitespace {c : Char} {s : Text} (h : notWhitespace c = false) :
    schemeAt (c :: s) = false := by
  cases h0 : schemeAt (c :: s) with
  | false => rfl
  | true =>
    obtain ⟨u, -, hc⟩ := url_split h0
    rw [hc] at h
    cases h

theorem scrubEmbeddedUrls_cons {c : Char} {s : Text} (h : ¬ schemeAt (c :: s) = true) :
    scrubEmbeddedUrls (c :: s) = c :: scrubEmbeddedUrls s := by
  unfold scrubEmbeddedUrls
  rw [scrubUrlsFrom, if_neg h]

end Voisu.Diagnostics
