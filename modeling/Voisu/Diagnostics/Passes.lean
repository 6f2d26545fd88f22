import Voisu.Diagnostics.Scrubbing
import Voisu.Lib.Seams

/-!
# Where scrubbing puts a secret together

Scrubbing a string is a run of passes: one replacement for each secret, the stripping of URLs, and the
byte budget of the field.

* `stripMarks`, `urlMarks`   the seams where userinfo and query of a URL were cut out;
* `scrubPasses`              the passes over a field;
* `runPasses_scrubPasses`    they are `scrub_free_text` and the clamp;
* `leaks_iff_joined`         **a secret is in the field exactly when a pass joined it and the later ones
                             left it whole.**
-/

namespace Voisu.Diagnostics
open Lib

/-! ## the seams of a URL -/

def keep (s : Text) : List (Mark Char) := s.map .kept

/-- the userinfo of an authority is cut out in front of its host -/
def hostMarks (authority : Text) : List (Mark Char) :=
  match rsplitOnceAt '@' authority with
  | some (_, host) => .seam :: keep host
  | none => keep authority

/-- query and fragment are cut off behind the path -/
def queryMarks (query : Text) : List (Mark Char) := if query = [] then [] else [.seam]

/-- the marks of `stripUrlSecrets` -/
def stripMarks (url : Text) : List (Mark Char) :=
  match splitOnceStr "://".toList url with
  | none => keep url
  | some (scheme, rest) =>
    let core := rest.takeWhile fun c => !isQueryOrFragment c
    let authorityMarks :=
      match splitOnceAt '/' core with
      | some (authority, path) => hostMarks authority ++ keep ('/' :: path)
      | none => hostMarks core
    keep (scheme ++ "://".toList) ++ authorityMarks ++
      queryMarks (rest.dropWhile fun c => !isQueryOrFragment c)

/-- the marks of `scrubUrlsFrom` -/
def urlMarks : Nat → Text → List (Mark Char)
  | _, [] => []
  | skip + 1, _ :: s => urlMarks skip s
  | 0, c :: s =>
    if schemeAt (c :: s) then
      stripMarks ((c :: s).takeWhile notWhitespace) ++ urlMarks (s.takeWhile notWhitespace).length s
    else .kept c :: urlMarks 0 s

@[simp] theorem textOf_keep (s : Text) : textOf (keep s) = s := textOf_map_kept s

theorem textOf_hostMarks (authority : Text) : textOf (hostMarks authority) =
    ((rsplitOnceAt '@' authority).map Prod.snd).getD authority := by
  unfold hostMarks
  cases h : rsplitOnceAt '@' authority with
  | none => exact textOf_keep _
  | some p => exact textOf_keep _

@[simp] theorem textOf_queryMarks (query : Text) : textOf (queryMarks query) = [] := by
  unfold queryMarks
  split <;> rfl

theorem textOf_stripMarks (url : Text) : textOf (stripMarks url) = stripUrlSecrets url := by
  unfold stripMarks stripUrlSecrets urlParts
  cases h : splitOnceStr "://".toList url with
  | none => exact textOf_keep _
  | some p =>
    obtain ⟨scheme, rest⟩ := p
    simp only [Option.map_some]
    cases hcore : splitOnceAt '/' (rest.takeWhile fun c => !isQueryOrFragment c) with
    | none =>
      simp only [UrlParts.text, textOf_append, textOf_keep, textOf_hostMarks, textOf_queryMarks,
        List.append_nil]
      rfl
    | some q =>
      simp only [UrlParts.text, textOf_append, textOf_keep, textOf_hostMarks, textOf_queryMarks,
        List.append_nil, List.append_assoc]
      rfl

theorem textOf_urlMarks (skip : Nat) (s : Text) : textOf (urlMarks skip s) = scrubUrlsFrom skip s := by
  fun_induction urlMarks skip s with
  | case1 skip => cases skip <;> rfl
  | case2 skip c s ih =>
    rw [ih]
    rfl
  | case3 c s hs ih => rw [scrubUrlsFrom, if_pos hs, textOf_append, textOf_stripMarks, ih]
  | case4 c s hs ih => rw [scrubUrlsFrom, if_neg hs, textOf_kept_cons, ih]

theorem edits_hostMarks (authority : Text) : Edits (hostMarks authority) authority := by
  unfold hostMarks
  cases h : rsplitOnceAt '@' authority with
  | none => exact .keep authority
  | some p =>
    have hs : authority = (p.1 ++ ['@']) ++ p.2 := by
      rw [List.append_assoc]
      exact rsplitOnceAt_eq_some h
    rw [hs]
    exact .seam (.keep p.2)

theorem edits_stripMarks (url : Text) : Edits (stripMarks url) url := by
  unfold stripMarks
  cases h : splitOnceStr "://".toList url with
  | none => exact .keep url
  | some p =>
    obtain ⟨scheme, rest⟩ := p
    rw [splitOnceStr_eq_some h]
    have hrest : rest = (rest.takeWhile fun c => !isQueryOrFragment c) ++
        rest.dropWhile fun c => !isQueryOrFragment c := List.takeWhile_append_dropWhile.symm
    have hquery : Edits (queryMarks (rest.dropWhile fun c => !isQueryOrFragment c))
        (rest.dropWhile fun c => !isQueryOrFragment c) := .drop _
    have hcore : Edits (match splitOnceAt '/' (rest.takeWhile fun c => !isQueryOrFragment c) with
        | some (authority, path) => hostMarks authority ++ keep ('/' :: path)
        | none => hostMarks (rest.takeWhile fun c => !isQueryOrFragment c))
        (rest.takeWhile fun c => !isQueryOrFragment c) := by
      cases hc : splitOnceAt '/' (rest.takeWhile fun c => !isQueryOrFragment c) with
      | none => exact edits_hostMarks _
      | some q =>
        rw [(splitOnceAt_eq_some hc).1]
        exact (edits_hostMarks q.1).append (.keep _)
    conv => rhs; rw [hrest, ← List.append_assoc]
    exact ((Edits.keep _).append hcore).append hquery

theorem drop_length_takeWhile (p : Char → Bool) (s : Text) :
    s.drop (s.takeWhile p).length = s.dropWhile p := by
  have h := @List.drop_left _ (s.takeWhile p) (s.dropWhile p)
  rwa [List.takeWhile_append_dropWhile] at h

theorem edits_urlMarks (skip : Nat) (s : Text) : Edits (urlMarks skip s) (s.drop skip) := by
  fun_induction urlMarks skip s with
  | case1 skip =>
    rw [List.drop_nil]
    exact .nil
  | case2 skip c s ih => exact ih
  | case3 c s hs ih =>
    obtain ⟨-, -, hc⟩ := url_split hs
    have hsplit : (c :: s).takeWhile notWhitespace ++
        s.drop (s.takeWhile notWhitespace).length = c :: s := by
      rw [List.takeWhile_cons_of_pos hc, drop_length_takeWhile, List.cons_append,
        List.takeWhile_append_dropWhile]
    have hedits := (edits_stripMarks ((c :: s).takeWhile notWhitespace)).append ih
    rwa [hsplit] at hedits
  | case4 c s _ ih => exact .kept ih

/-! ## the passes over a field -/

def replacePass (secret : Text) : Pass Char := fun s =>
  if secret.isEmpty then keep s else replaceMarks secret redacted 0 s

def clampPass (maxBytes : Nat) : Pass Char := fun s =>
  keep (clampUtf8Bytes s maxBytes) ++ queryMarks (s.drop (clampUtf8Bytes s maxBytes).length)

def scrubPasses (secrets : List Text) (budget : Option Nat) : List (Pass Char) :=
  secrets.map replacePass ++ [urlMarks 0] ++ (budget.map clampPass).toList

/-- a field without a budget is as long as it comes -/
def clampTo (budget : Option Nat) (text : Text) : Text :=
  match budget with
  | some maxBytes => clampUtf8Bytes text maxBytes
  | none => text

theorem textOf_replacePass (secret s : Text) : textOf (replacePass secret s) =
    if secret.isEmpty then s else replaceAll s secret redacted := by
  unfold replacePass
  split
  · exact textOf_keep s
  · exact textOf_replaceMarks secret redacted 0 s

/-- **the passes are those of `scrub_free_text`, and the clamp** -/
theorem runPasses_scrubPasses (secrets : List Text) (budget : Option Nat) (text : Text) :
    runPasses (scrubPasses secrets budget) text = clampTo budget (scrubFreeText text secrets) := by
  have hvalues : runPasses (secrets.map replacePass) text = scrubSecretValues text secrets := by
    unfold runPasses scrubSecretValues
    rw [List.foldl_map]
    congr 1
    funext s secret
    exact textOf_replacePass secret s
  have hurls (s : Text) : runPasses [urlMarks 0] s = scrubEmbeddedUrls s := textOf_urlMarks 0 s
  rw [scrubPasses, runPasses_append, runPasses_append, hvalues, hurls]
  cases budget with
  | none => rfl
  | some maxBytes =>
    show textOf (clampPass maxBytes (scrubFreeText text secrets)) = _
    rw [clampPass, textOf_append, textOf_keep, textOf_queryMarks, List.append_nil]
    rfl

theorem edits_replacePass (secret s : Text) : Edits (replacePass secret s) s := by
  unfold replacePass
  split
  · exact .keep s
  · rename_i h
    exact edits_replaceMarks (by simpa using h) redacted 0 s

theorem edits_clampPass (maxBytes : Nat) (s : Text) : Edits (clampPass maxBytes s) s := by
  obtain ⟨rest, h⟩ := (clampUtf8Bytes_spec s maxBytes).2
  have hdrop : s.drop (clampUtf8Bytes s maxBytes).length = rest := by
    have := @List.drop_left _ (clampUtf8Bytes s maxBytes) rest
    rwa [← h] at this
  have hedits : Edits (clampPass maxBytes s) (clampUtf8Bytes s maxBytes ++ rest) := by
    unfold clampPass
    rw [hdrop]
    exact (Edits.keep _).append (.drop rest)
  rwa [← h] at hedits

theorem edits_scrubPasses (secrets : List Text) (budget : Option Nat) :
    ∀ pass ∈ scrubPasses secrets budget, ∀ s, Edits (pass s) s := by
  intro pass hpass s
  rcases List.mem_append.mp hpass with hpass | hpass
  · rcases List.mem_append.mp hpass with hpass | hpass
    · obtain ⟨secret, -, rfl⟩ := List.mem_map.mp hpass
      exact edits_replacePass secret s
    · rw [List.mem_singleton.mp hpass]
      exact edits_urlMarks 0 s
  · cases budget with
    | none => cases hpass
    | some maxBytes =>
      rw [List.mem_singleton.mp hpass]
      exact edits_clampPass maxBytes s

/-- **a secret is in a field exactly when a pass joined it and the later ones left it whole** -/
theorem leaks_iff_joined {secrets : List Text} {secret : Text} (hmem : secret ∈ secrets)
    (hne : secret ≠ []) (budget : Option Nat) (text : Text) :
    secret <:+: clampTo budget (scrubFreeText text secrets) ↔
      joined secret (scrubPasses secrets budget) text = true := by
  rw [← runPasses_scrubPasses]
  have hpass : replacePass secret ∈ scrubPasses secrets budget :=
    List.mem_append_left _ (List.mem_append_left _ (List.mem_map.mpr ⟨secret, hmem, rfl⟩))
  refine infix_runPasses_iff_joined (edits_scrubPasses secrets budget) hpass fun s => ?_
  rw [replacePass, if_neg (by simpa using hne)]
  exact within_replaceMarks hne redacted 0 s

/-- whitespace alone joins nothing, a seam in a URL or an end of the marker may -/
example :
    joined "a b".toList (scrubPasses ["a b".toList] none) "see http://h/x".toList = false ∧
    joined "a b".toList (scrubPasses ["a b".toList] none) "http://h/a?q b".toList = true ∧
    joined ">x".toList (scrubPasses [">x".toList] none) ">>xx".toList = true ∧
    joined ">x".toList (scrubPasses [">x".toList] (some 3)) ">>xx".toList = false := by
  decide +kernel

end Voisu.Diagnostics
