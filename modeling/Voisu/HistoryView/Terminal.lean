import Mathlib
import Voisu.HistoryView.Render

/-!
# Terminal safety of the history view

Which strings of a record reach the terminal as they are, and what follows.

* `rawFields`               the strings of a record that are printed without `truncateInline`;
* `renderRecord_clean`      the texts of a record hold a bad character just where one of these does;
* `renderPage_safe`         **no control character but the newline is printed just where none of these
                            has one; with color the same of the escapes that painting did not write**.
-/

namespace Voisu.HistoryView
open Lib

/-! ## raw strings -/

def outcomeRaw (outcome : Text) : List Text :=
  if outcome = "transcript".toList then []
  else if outcome = "no_text".toList then []
  else if outcome = "error".toList then []
  else [outcome]

def localRaw (local' : Value) : List Text :=
  (strField local' "model_id").toList ++ outcomeRaw ((strField local' "outcome").getD []) ++
    (strField local' "observed_device").toList ++ (strField local' "backend").toList

def statusRaw : ProviderStatus → List Text
  | .failed stage _ =>
    if stage = "not_started".toList ∨ (stageText stage).isSome then [] else [stage]
  | _ => []

def providerRaw (provider : Text) (evidence : Evidence) : List Text :=
  (if provider = "deepgram".toList ∨ provider = "groq".toList then [] else [provider]) ++
    statusRaw (providerStatus provider evidence)

/-- the strings of a record that are printed without `truncateInline` -/
def rawFields (record : Value) : List Text :=
  (if hasTranscript record then
    ((field record "local_asr").bind fun value => strField value "model_id").toList else []) ++
    (match localAsr record with
      | some local' => localRaw local'
      | none => (namedProviders (evidenceOf record)).flatMap fun provider =>
          providerRaw provider (evidenceOf record))

/-! ## texts without bad characters -/

section
variable (bad : Char → Bool)

/-- no character of the text is bad -/
def Calm (text : Text) : Prop := ∀ c ∈ text, bad c = false

/-- no character that painting did not write is bad, and without `color` painting has written none -/
def Clean (color : Bool) (pieces : List Piece) : Prop :=
  (∀ t, .text t ∈ pieces → Calm bad t) ∧ ∀ code, .sgr code ∈ pieces → color = true

@[simp] theorem calm_nil : Calm bad [] := by simp [Calm]

@[simp] theorem calm_append (s t : Text) : Calm bad (s ++ t) ↔ Calm bad s ∧ Calm bad t := by
  simp only [Calm, List.mem_append]
  exact ⟨fun h => ⟨fun c hc => h c (Or.inl hc), fun c hc => h c (Or.inr hc)⟩,
    fun h c hc => hc.elim (h.1 c) (h.2 c)⟩

variable (color : Bool)

@[simp] theorem clean_nil : Clean bad color [] := by simp [Clean]

theorem clean_flatMap {α : Type} (f : α → List Piece) (l : List α) :
    Clean bad color (l.flatMap f) ↔ ∀ a ∈ l, Clean bad color (f a) := by
  simp only [Clean, List.mem_flatMap]
  constructor
  · intro h a ha
    exact ⟨fun t ht => h.1 t ⟨a, ha, ht⟩, fun code hc => h.2 code ⟨a, ha, hc⟩⟩
  · intro h
    exact ⟨fun t ⟨a, ha, ht⟩ => (h a ha).1 t ht, fun code ⟨a, ha, hc⟩ => (h a ha).2 code hc⟩

@[simp] theorem clean_append (ps qs : List Piece) :
    Clean bad color (ps ++ qs) ↔ Clean bad color ps ∧ Clean bad color qs := by
  have h := clean_flatMap bad color id [ps, qs]
  simpa using h

@[simp] theorem clean_text (t : Text) : Clean bad color [.text t] ↔ Calm bad t := by simp [Clean]

@[simp] theorem clean_paint (style : RenderStyle) (t : Text) (ansi : Ansi) :
    Clean bad style.color (style.paint t ansi) ↔ Calm bad t := by
  unfold RenderStyle.paint
  split
  · exact clean_text bad _ t
  · rename_i hcolor
    split
    · exact clean_text bad _ t
    · simp only [Bool.not_eq_true', Bool.not_eq_false] at hcolor
      simp [Clean, hcolor]

theorem clean_joined {parts : List (List Piece)} (hsep : Clean bad color (lit "  ·  ")) :
    Clean bad color (joined parts) ↔ ∀ part ∈ parts, Clean bad color part := by
  fun_induction joined parts with
  | case1 => simp
  | case2 part => simp
  | case3 part parts _ ih => simp [ih, hsep]

end

/-! ## fixed texts -/

def isPlain (c : Char) : Bool := !isControl c || c == '\n'

theorem isPlain_iff {c : Char} : isPlain c = true ↔
    (0x20 ≤ c.toNat ∧ ¬ (0x7F ≤ c.toNat ∧ c.toNat ≤ 0x9F)) ∨ c = '\n' := by
  simp only [isPlain, isControl, inRange, Bool.or_eq_true, Bool.not_eq_true', Bool.or_eq_false_iff,
    decide_eq_false_iff_not, beq_iff_eq, Bool.and_eq_false_iff]
  constructor
  · rintro (⟨h, h'⟩ | h)
    · exact Or.inl ⟨by omega, by omega⟩
    · exact Or.inr h
  · rintro (⟨h, h'⟩ | h)
    · exact Or.inl ⟨by omega, by omega⟩
    · exact Or.inr h

theorem isPlain_ascii {c : Char} (h : isAsciiAlphanumeric c = true) : isPlain c = true := by
  simp only [isAsciiAlphanumeric, isAsciiAlphabetic, isAsciiUppercase, isAsciiLowercase, isAsciiDigit,
    inRange, Bool.or_eq_true, Bool.and_eq_true, decide_eq_true_eq] at h
  exact isPlain_iff.mpr (Or.inl (by omega))

/-- what is evaluated of the tables -/
theorem tables_above : alphabeticTable.all (fun p => 0x9F < p.1) = true ∧
    (uppercaseShifts.all (fun p => 0x9F < p.1) = true ∧
      uppercaseExpansions.all (fun p => 0x9F < p.1) = true) ∧
    uppercaseExpansions.all (fun p => p.2.all fun n => isPlain (Char.ofNat n)) = true := by
  refine ⟨?_, ?_, ?_⟩ <;> decide +kernel

theorem alphabeticTable_above : alphabeticTable.all (fun p => 0x9F < p.1) = true := tables_above.1

theorem isPlain_alphabetic {c : Char} (h : isAlphabetic c = true) : isPlain c = true := by
  rcases Bool.or_eq_true_iff.mp h with h | h
  · exact isPlain_ascii (by simp [isAsciiAlphanumeric, h])
  · rw [Bool.and_eq_true] at h
    obtain ⟨p, hp, hrange⟩ := List.any_eq_true.mp h.2
    have habove := List.all_eq_true.mp alphabeticTable_above p hp
    simp only [Bool.and_eq_true, decide_eq_true_eq] at hrange habove
    exact isPlain_iff.mpr (Or.inl (by omega))

def AllPlain (text : Text) : Prop := ∀ c ∈ text, isPlain c = true

instance (text : Text) : Decidable (AllPlain text) :=
  inferInstanceAs (Decidable (∀ c ∈ text, isPlain c = true))

theorem allPlain_append {s t : Text} (hs : AllPlain s) (ht : AllPlain t) : AllPlain (s ++ t) :=
  fun c hc => (List.mem_append.mp hc).elim (hs c) (ht c)

theorem natText_plain (n : Nat) : AllPlain (natText n) := by
  intro c hc
  have h := natText_isDigit hc
  simp only [Char.isDigit, Bool.and_eq_true, decide_eq_true_eq] at h
  apply isPlain_ascii
  simp only [isAsciiAlphanumeric, isAsciiDigit, inRange, Bool.or_eq_true, Bool.and_eq_true,
    decide_eq_true_eq]
  exact Or.inr ⟨h.1, h.2⟩

theorem fixedText_plain (places : Nat) (q : ℚ) : AllPlain (fixedText places q) := by
  have hzeros (k : Nat) : AllPlain (List.replicate k '0') := by
    intro c hc
    rw [List.eq_of_mem_replicate hc]
    decide
  exact allPlain_append (allPlain_append (allPlain_append (natText_plain _) (by decide))
    (hzeros _)) (natText_plain _)

theorem secondsOrDash_plain (value : Option Nat) : AllPlain (secondsOrDash value) := by
  cases value with
  | none => exact (by decide : AllPlain "—".toList)
  | some ms => exact allPlain_append (fixedText_plain _ _) (by decide)

theorem relativeTime_plain (nowMs thenMs : Nat) : AllPlain (relativeTime nowMs thenMs) := by
  unfold relativeTime
  dsimp only
  repeat' split
  · decide
  all_goals exact allPlain_append (natText_plain _) (by decide)

theorem formatBytes_plain (bytes : Nat) : AllPlain (formatBytes bytes) := by
  unfold formatBytes
  repeat' split
  · exact allPlain_append (fixedText_plain _ _) (by decide)
  all_goals exact allPlain_append (natText_plain _) (by decide)

example : formatBytes 2048 = "2KiB".toList := by decide +kernel

theorem collapse_plain (lastSpace : Bool) (text : Text) : AllPlain (collapse lastSpace text) := by
  induction text generalizing lastSpace with
  | nil => exact fun c hc => absurd hc (by simp [collapse])
  | cons c text ih =>
    unfold collapse
    split
    · split
      · exact ih true
      · intro d hd
        rcases List.mem_cons.mp hd with rfl | hd
        · decide
        · exact ih true d hd
    · split
      · exact ih false
      · rename_i hcontrol
        intro d hd
        rcases List.mem_cons.mp hd with rfl | hd
        · simp [isPlain, hcontrol]
        · exact ih false d hd

/-- **an untrusted string that goes through `truncateInline` brings no control character** -/
theorem truncateInline_plain (text : Text) (width : Nat) : AllPlain (truncateInline text width) := by
  have htrim : AllPlain (trim (collapse false text)) := by
    intro c hc
    obtain ⟨a, b, hsplit, -⟩ := trimMatches_split isWhitespace (collapse false text)
    refine collapse_plain false text c ?_
    rw [hsplit]
    exact List.mem_append_left _ (List.mem_append_right _ hc)
  unfold truncateInline
  dsimp only
  split
  · exact htrim
  · exact allPlain_append (fun c hc => htrim c (List.mem_of_mem_take hc)) (by decide)

/-! ## the first letter of a name -/

theorem uppercase_above : uppercaseShifts.all (fun p => 0x9F < p.1) = true ∧
    uppercaseExpansions.all (fun p => 0x9F < p.1) = true := tables_above.2.1

theorem uppercaseExpansions_plain :
    uppercaseExpansions.all (fun p => p.2.all fun n => isPlain (Char.ofNat n)) = true :=
  tables_above.2.2

/-- a control character has no other case -/
theorem charToUppercase_control {c : Char} (h : isPlain c = false) : charToUppercase c = [c] := by
  have hcontrol : ¬ _ := fun h' => Bool.false_ne_true (h.symm.trans (isPlain_iff.mpr h'))
  have hrange : c.toNat < 0x20 ∨ (0x7F ≤ c.toNat ∧ c.toNat ≤ 0x9F) := by
    by_contra hnot
    exact hcontrol (Or.inl (by omega))
  unfold charToUppercase
  split
  · have hlower : isAsciiLowercase c = false := by
      simp only [isAsciiLowercase, inRange, Bool.and_eq_false_iff, decide_eq_false_iff_not]
      omega
    simp [toAsciiUppercase, hlower]
  · have hexpansions : uppercaseExpansions.find? (fun p => p.1 == c.toNat) = none := by
      refine List.find?_eq_none.mpr fun p hp => ?_
      have := List.all_eq_true.mp uppercase_above.2 p hp
      simp only [decide_eq_true_eq] at this
      simp only [beq_iff_eq]
      omega
    have hshifts : (uppercaseShifts.find? fun p =>
        p.1 ≤ c.toNat && c.toNat ≤ p.2.1 && (c.toNat - p.1) % p.2.2.1 == 0) = none := by
      refine List.find?_eq_none.mpr fun p hp => ?_
      have := List.all_eq_true.mp uppercase_above.1 p hp
      simp only [decide_eq_true_eq] at this
      simp only [Bool.and_eq_true, decide_eq_true_eq]
      omega
    rw [hexpansions, hshifts]

theorem toAsciiUppercase_plain {c : Char} (h : isPlain c = true) :
    isPlain (toAsciiUppercase c) = true := by
  unfold toAsciiUppercase
  split
  · rename_i hlower
    simp only [isAsciiLowercase, inRange, Bool.and_eq_true, decide_eq_true_eq] at hlower
    refine isPlain_iff.mpr (Or.inl ?_)
    rw [toNat_shift (by omega)]
    omega
  · exact h

/-- no case of another character is a control character -/
theorem charToUppercase_plain {c : Char} (h : isPlain c = true) : AllPlain (charToUppercase c) := by
  unfold charToUppercase
  split
  · intro d hd
    rw [List.mem_singleton.mp hd]
    exact toAsciiUppercase_plain h
  · split
    · rename_i p hp
      have hall := List.all_eq_true.mp uppercaseExpansions_plain p (List.mem_of_find?_eq_some hp)
      intro d hd
      obtain ⟨n, hn, rfl⟩ := List.mem_map.mp hd
      exact List.all_eq_true.mp hall n hn
    · split
      · rename_i p hp
        have hmem := List.all_eq_true.mp uppercaseShifts_letters p (List.mem_of_find?_eq_some hp)
        have hrange := List.find?_some hp
        simp only [Bool.and_eq_true, decide_eq_true_eq] at hrange
        intro d hd
        rw [List.mem_singleton.mp hd]
        exact isPlain_alphabetic (isAlphabetic_of_shift hmem hrange.1.1 hrange.1.2)
      · intro d hd
        rw [List.mem_singleton.mp hd]
        exact h

example : charToUppercase 'ß' = ['S', 'S'] := by decide +kernel

/-! ## records -/

section
variable {bad : Char → Bool} (hbad : ∀ c, bad c = true → isPlain c = false)
include hbad

theorem calm_of_plain {text : Text} (h : AllPlain text) : Calm bad text := by
  intro c hc
  rw [← Bool.not_eq_true]
  intro hbc
  have := hbad c hbc
  rw [h c hc] at this
  cases this

theorem clean_lit (color : Bool) {text : String} (h : AllPlain text.toList) :
    Clean bad color (lit text) :=
  (clean_text bad color _).mpr (calm_of_plain hbad h)

theorem calm_charToUppercase (c : Char) : Calm bad (charToUppercase c) ↔ bad c = false := by
  cases hc : isPlain c with
  | false =>
    rw [charToUppercase_control hc]
    simp [Calm]
  | true =>
    refine ⟨fun _ => ?_, fun _ => calm_of_plain hbad (charToUppercase_plain hc)⟩
    rw [← Bool.not_eq_true]
    intro hbc
    rw [hbad c hbc] at hc
    cases hc

theorem calm_providerDisplayName (provider : Text) : Calm bad (providerDisplayName provider) ↔
    ∀ text ∈ (if provider = "deepgram".toList ∨ provider = "groq".toList then [] else [provider]),
      Calm bad text := by
  unfold providerDisplayName
  split
  · rename_i h
    simp only [h, true_or, if_true]
    exact ⟨fun _ _ h => absurd h (by simp), fun _ => calm_of_plain hbad (by decide)⟩
  · split
    · rename_i h
      simp only [h, or_true, if_true]
      exact ⟨fun _ _ h => absurd h (by simp), fun _ => calm_of_plain hbad (by decide)⟩
    · rename_i h h'
      rw [if_neg (not_or.mpr ⟨h, h'⟩)]
      simp only [List.mem_singleton, forall_eq]
      cases provider with
      | nil => rfl
      | cons first rest =>
        rw [calm_append, calm_charToUppercase hbad]
        simp [Calm]

example : providerDisplayName "groq".toList = "Groq".toList := by decide +kernel

theorem calm_failureOutcome (stage : Text) : Calm bad (failureOutcome stage) ↔
    ((stageText stage).isSome ∨ Calm bad stage) := by
  unfold failureOutcome
  cases htext : stageText stage with
  | none =>
    have hopen : Calm bad "failed (".toList := calm_of_plain hbad (by decide)
    have hclose : Calm bad ")".toList := calm_of_plain hbad (by decide)
    rw [calm_append, calm_append]
    exact ⟨fun h => Or.inr h.1.2, fun h => ⟨⟨hopen, h.elim (fun h => by cases h) id⟩, hclose⟩⟩
  | some text =>
    have hplain : AllPlain text.toList := by
      unfold stageText at htext
      split at htext
      · cases htext; decide
      · split at htext
        · cases htext; decide
        · split at htext
          · cases htext; decide
          · split at htext
            · cases htext; decide
            · cases htext
    simp [calm_of_plain hbad hplain]

variable (style : RenderStyle)

theorem clean_localStatus (local' : Value) : Clean bad style.color (localStatus style local') ↔
    ∀ text ∈ outcomeRaw ((strField local' "outcome").getD []), Calm bad text := by
  unfold localStatus outcomeRaw
  dsimp only
  generalize (strField local' "outcome").getD [] = outcome
  have hfixed {p : Prop} (hp : p) : p ↔ ∀ text ∈ ([] : List Text), Calm bad text :=
    ⟨fun _ _ h => absurd h (by simp), fun _ => hp⟩
  have hok : AllPlain "ok ".toList := by decide
  split
  · apply hfixed
    split
    · rename_i ms _
      rw [clean_paint]
      exact calm_of_plain hbad (allPlain_append (allPlain_append hok (natText_plain ms)) (by decide))
    · rw [clean_paint]
      exact calm_of_plain hbad (by decide)
  · split
    · apply hfixed
      rw [clean_paint]
      exact calm_of_plain hbad (by decide)
    · split
      · apply hfixed
        rw [clean_paint]
        exact calm_of_plain hbad (truncateInline_plain _ _)
      · rw [clean_paint]
        simp

omit hbad in
theorem clean_optional {α : Type} (color : Bool) (o : Option α) (f : α → List Piece) :
    (∀ part ∈ (o.map f).toList, Clean bad color part) ↔ ∀ a ∈ o.toList, Clean bad color (f a) := by
  cases o with
  | none => simp
  | some a => simp

theorem clean_renderLocalAsr (local' : Value) : Clean bad style.color (renderLocalAsr style local') ↔
    ∀ text ∈ localRaw local', Calm bad text := by
  have hram : AllPlain "ram ".toList := by decide
  have hgpu : AllPlain "gpu ".toList := by decide
  have hmodel : Calm bad ((strField local' "model_id").getD "local".toList) ↔
      ∀ text ∈ (strField local' "model_id").toList, Calm bad text := by
    cases strField local' "model_id" with
    | none =>
      refine ⟨fun _ _ h => absurd h (by simp), fun _ => ?_⟩
      exact calm_of_plain hbad (show AllPlain "local".toList by decide)
    | some text => simp
  have hspace : Clean bad style.color (lit " ") := clean_lit hbad _ (by decide)
  have hbytes {p : Text} (hp : AllPlain p) (o : Option Nat) : ∀ n ∈ o.toList,
      Calm bad (p ++ formatBytes n) := by
    intro n _
    exact calm_of_plain hbad (allPlain_append hp (formatBytes_plain n))
  unfold renderLocalAsr localRaw
  dsimp only
  rw [clean_joined bad _ (clean_lit hbad _ (by decide))]
  simp only [List.forall_mem_append, clean_optional, List.forall_mem_singleton, clean_append,
    clean_localStatus hbad, hspace, and_true, clean_paint, hmodel]
  exact ⟨fun h => h.1.1, fun h => ⟨⟨h, hbytes hram _⟩, hbytes hgpu _⟩⟩

theorem clean_renderStatus (status : ProviderStatus) : Clean bad style.color (renderStatus style status) ↔
    ∀ text ∈ statusRaw status, Calm bad text := by
  have hfixed {p : Prop} (hp : p) : p ↔ ∀ text ∈ ([] : List Text), Calm bad text :=
    ⟨fun _ _ h => absurd h (by simp), fun _ => hp⟩
  have hok : AllPlain "ok ".toList := by decide
  have hcolon : AllPlain ": ".toList := by decide
  cases status with
  | completed ms =>
    apply hfixed
    rw [renderStatus, clean_paint]
    exact calm_of_plain hbad (allPlain_append (allPlain_append hok (natText_plain ms)) (by decide))
  | hasSource =>
    apply hfixed
    rw [renderStatus, clean_paint]
    exact calm_of_plain hbad (by decide)
  | unknown =>
    apply hfixed
    rw [renderStatus, clean_paint]
    exact calm_of_plain hbad (by decide)
  | failed stage diagnostic =>
    rw [renderStatus, statusRaw]
    by_cases hstage : stage = "not_started".toList
    · rw [if_pos hstage, if_pos (Or.inl hstage)]
      apply hfixed
      split
      · rw [clean_paint]
        exact calm_of_plain hbad (by decide)
      · rw [clean_paint]
        exact calm_of_plain hbad (by decide)
    · have hdiagnostic : Calm bad
          (if diagnostic.isEmpty then [] else ": ".toList ++ truncateInline diagnostic 48) := by
        split
        · exact calm_nil bad
        · exact calm_of_plain hbad (allPlain_append hcolon (truncateInline_plain _ _))
      rw [if_neg hstage, clean_paint, calm_append, calm_failureOutcome hbad]
      by_cases htext : (stageText stage).isSome
      · rw [if_pos (Or.inr htext)]
        exact hfixed ⟨Or.inl htext, hdiagnostic⟩
      · rw [if_neg (not_or.mpr ⟨hstage, htext⟩)]
        simp only [List.forall_mem_singleton]
        exact ⟨fun h => h.1.resolve_left htext, fun h => ⟨Or.inr h, hdiagnostic⟩⟩

theorem clean_renderOneProvider (provider : Text) (evidence : Evidence) :
    Clean bad style.color (renderOneProvider style provider evidence) ↔
      ∀ text ∈ providerRaw provider evidence, Calm bad text := by
  have hspace : Clean bad style.color (lit " ") := clean_lit hbad _ (by decide)
  rw [renderOneProvider, providerRaw, clean_append, clean_append, clean_paint,
    clean_renderStatus hbad, calm_providerDisplayName hbad, List.forall_mem_append]
  simp only [hspace, and_true]

theorem clean_renderProviders (record : Value) : Clean bad style.color (renderProviders style record) ↔
    ∀ text ∈ (match localAsr record with
      | some local' => localRaw local'
      | none => (namedProviders (evidenceOf record)).flatMap fun provider =>
          providerRaw provider (evidenceOf record)), Calm bad text := by
  unfold renderProviders
  cases localAsr record with
  | some local' => exact clean_renderLocalAsr hbad style local'
  | none =>
    dsimp only
    split
    · rename_i hempty
      rw [List.isEmpty_iff.mp hempty, clean_paint]
      exact ⟨fun _ _ h => absurd h (by simp), fun _ => calm_of_plain hbad (by decide)⟩
    · rw [clean_joined bad _ (clean_lit hbad _ (by decide))]
      simp only [List.forall_mem_map, clean_renderOneProvider hbad, List.mem_flatMap]
      exact ⟨fun h text ⟨p, hp, ht⟩ => h p hp text ht, fun h p hp text ht => h text ⟨p, hp, ht⟩⟩

theorem clean_renderHeader (index : Nat) (record : Value) :
    Clean bad style.color (renderHeader style index record) := by
  have hseconds (value : Option Nat) (ansi : Ansi) :
      Clean bad style.color (style.paint (secondsOrDash value) ansi) :=
    (clean_paint bad style _ ansi).mpr (calm_of_plain hbad (secondsOrDash_plain value))
  have hindex : Clean bad style.color (style.paint (natText index ++ ".".toList) .bold) :=
    (clean_paint bad style _ _).mpr
      (calm_of_plain hbad (allPlain_append (natText_plain index) (by decide)))
  have hlit {text : String} (h : AllPlain text.toList) := clean_lit hbad style.color h
  unfold renderHeader
  dsimp only
  refine (clean_append bad _ _ _).mpr ⟨?_, ?_⟩
  · simp only [clean_append, hindex, hseconds, true_and, and_true]
    refine ⟨⟨hlit (by decide), ?_⟩, hlit (by decide)⟩
    rw [clean_paint]
    split
    · exact calm_of_plain hbad (relativeTime_plain _ _)
    · exact calm_of_plain hbad (by decide)
  · split
    · refine (clean_append bad _ _ _).mpr ⟨?_, ?_⟩
      · exact (clean_append bad _ _ _).mpr ⟨hlit (by decide), hseconds _ _⟩
      · split
        · exact (clean_append bad _ _ _).mpr ⟨hlit (by decide), hseconds _ _⟩
        · exact clean_nil bad _
    · split
      · exact (clean_append bad _ _ _).mpr ⟨hlit (by decide), hseconds _ _⟩
      · exact clean_nil bad _

theorem clean_renderTag {tag : Option String} (h : ∀ text, tag = some text → AllPlain text.toList) :
    Clean bad style.color (renderTag style tag) := by
  cases tag with
  | none => exact clean_nil bad _
  | some text =>
    refine (clean_append bad _ _ _).mpr ⟨clean_lit hbad _ (by decide), ?_⟩
    exact (clean_paint bad style _ _).mpr (calm_of_plain hbad (h text rfl))

end

theorem deliveryTag_plain {record : Value} {text : String} (h : deliveryTag record = some text) :
    AllPlain text.toList := by
  unfold deliveryTag at h
  split at h
  · cases h
  · split at h
    · cases h
      decide
    · split at h
      · cases h
        decide
      · cases h

theorem truncationTag_plain {record : Value} {text : String} (h : truncationTag record = some text) :
    AllPlain text.toList := by
  obtain ⟨cap, -, rfl⟩ := Option.map_eq_some_iff.mp h
  split
  · decide
  · split
    · decide
    · decide

theorem selectionLabel_plain (selection : Option Text) : AllPlain (selectionLabel selection).toList := by
  unfold selectionLabel
  split <;> decide

theorem failureReason_plain {record : Value} {reason : Text} (h : failureReason record = some reason) :
    AllPlain reason := by
  obtain ⟨text, -, rfl⟩ := Option.map_eq_some_iff.mp h
  exact truncateInline_plain text 80

section
variable {bad : Char → Bool} (hbad : ∀ c, bad c = true → isPlain c = false) (style : RenderStyle)
include hbad

theorem clean_renderText (record : Value) : Clean bad style.color (renderText style record) ↔
    ∀ text ∈ (if hasTranscript record then
      ((field record "local_asr").bind fun value => strField value "model_id").toList else []),
      Calm bad text := by
  have hlit {text : String} (h : AllPlain text.toList) := clean_lit hbad style.color h
  unfold renderText
  split
  · dsimp only
    have hquote : AllPlain "\"".toList := by decide
    have hshown : Clean bad style.color (style.paint ("\"".toList ++ truncateInline
        ((strField record "final_transcript").getD []) style.transcriptWidth ++ "\"".toList) .reset) :=
      (clean_paint bad style _ _).mpr (calm_of_plain hbad
        (allPlain_append (allPlain_append hquote (truncateInline_plain _ _)) hquote))
    simp only [clean_append, hshown, hlit (show AllPlain "   ".toList by decide),
      hlit (show AllPlain ": ".toList by decide), hlit (show AllPlain "\n".toList by decide),
      true_and, and_true, clean_paint]
    cases (field record "local_asr").bind fun value => strField value "model_id" with
    | none =>
      refine ⟨fun _ _ h => absurd h (by simp), fun _ => ?_⟩
      exact calm_of_plain hbad (selectionLabel_plain _)
    | some model => simp
  · refine ⟨fun _ _ h => absurd h (by simp), fun _ => ?_⟩
    dsimp only
    simp only [clean_append, hlit (show AllPlain "   ".toList by decide),
      hlit (show AllPlain "\n".toList by decide), true_and, and_true, clean_paint]
    split
    · rename_i reason hreason
      exact calm_of_plain hbad (allPlain_append (by decide) (failureReason_plain hreason))
    · exact calm_of_plain hbad (by decide)

/-- **the texts printed for a record are clean just where its raw strings are** -/
theorem renderRecord_clean (index : Nat) (record : Value) :
    Clean bad style.color (renderRecord style index record) ↔ ∀ text ∈ rawFields record, Calm bad text := by
  have hlit {text : String} (h : AllPlain text.toList) := clean_lit hbad style.color h
  unfold renderRecord rawFields
  rw [List.forall_mem_append, ← clean_renderText hbad style, ← clean_renderProviders hbad style]
  simp only [clean_append, clean_renderHeader hbad,
    clean_renderTag hbad style (fun _ => deliveryTag_plain),
    clean_renderTag hbad style (fun _ => truncationTag_plain),
    hlit (show AllPlain "   ".toList by decide), hlit (show AllPlain "\n".toList by decide),
    true_and, and_true]

theorem renderPage_clean (records : Value) (start pageSize : Nat) :
    Clean bad style.color (renderPage style records start pageSize).body ↔
      ∀ p ∈ pageRecords records start pageSize, ∀ text ∈ rawFields p.1, Calm bad text := by
  have hpage : pageRecords records (min start (records.asArray.getD []).length) pageSize =
      pageRecords records start pageSize := by
    unfold pageRecords
    rcases Nat.le_total start (records.asArray.getD []).length with h | h
    · rw [Nat.min_eq_left h]
    · rw [Nat.min_eq_right h, List.drop_of_length_le (by simp), List.drop_of_length_le (by simpa using h)]
  have hlength : (pageRecords records start pageSize).length =
      min pageSize ((records.asArray.getD []).length - start) := by simp [pageRecords]
  have hnil {body : List Piece} (hbody : Clean bad style.color body)
      (h : (pageRecords records start pageSize).length = 0) : Clean bad style.color body ↔
      ∀ p ∈ pageRecords records start pageSize, ∀ text ∈ rawFields p.1, Calm bad text := by
    refine ⟨fun _ p hp => ?_, fun _ => hbody⟩
    rw [List.eq_nil_of_length_eq_zero h] at hp
    cases hp
  unfold renderPage
  dsimp only
  split
  · rename_i hempty
    refine hnil (clean_lit hbad _ (by decide)) ?_
    rw [hlength, List.isEmpty_iff.mp hempty]
    simp
  · split
    · rename_i hnone
      exact hnil (clean_nil bad _) (by rw [hlength]; omega)
    · rw [hpage, clean_flatMap]
      simp only [clean_append, clean_lit hbad _ (show AllPlain "\n".toList by decide), and_true,
        renderRecord_clean hbad]

theorem renderHistoryNoninteractive_clean (records : Value) (pageSize : Nat) :
    Clean bad style.color (renderHistoryNoninteractive style records pageSize) ↔
      ∀ p ∈ pageRecords records 0 pageSize, ∀ text ∈ rawFields p.1, Calm bad text := by
  rw [renderHistoryNoninteractive, clean_append, renderPage_clean hbad]
  refine and_iff_left ?_
  split
  · rw [clean_text]
    have hword (count : Nat) : AllPlain (recordingsWord count) := by
      unfold recordingsWord
      split
      · decide
      · decide
    exact calm_of_plain hbad (allPlain_append (allPlain_append (allPlain_append (allPlain_append
      (by decide) (natText_plain _)) (by decide)) (hword _)) (by decide))
  · exact clean_nil bad _

end

/-! ## the terminal -/

/-- what may not reach the terminal: a control character but the newline; in color an escape -/
def unsafeChar (color : Bool) (c : Char) : Bool :=
  if color then c == '\x1b' else isControl c && c != '\n'

/-- without color no control character but the newline is printed; with color every escape is one
that painting wrote -/
def TerminalSafe (style : RenderStyle) (pieces : List Piece) : Prop :=
  if style.color then ∀ t, .text t ∈ pieces → '\x1b' ∉ t
  else ∀ c ∈ printed pieces, isControl c = true → c = '\n'

theorem unsafeChar_not_plain (color : Bool) (c : Char) (h : unsafeChar color c = true) :
    isPlain c = false := by
  unfold unsafeChar at h
  split at h
  · rw [beq_iff_eq.mp h]
    decide
  · simp only [Bool.and_eq_true, bne_iff_ne, ne_eq] at h
    simp [isPlain, h.1, h.2]

theorem terminalSafe_iff {style : RenderStyle} {pieces : List Piece}
    (hsgr : ∀ code, .sgr code ∈ pieces → style.color = true) :
    TerminalSafe style pieces ↔ Clean (unsafeChar style.color) style.color pieces := by
  unfold TerminalSafe Clean Calm unsafeChar
  by_cases hcolor : style.color = true
  · simp only [hcolor, if_true, implies_true, and_true, beq_eq_false_iff_ne]
    exact ⟨fun h t ht c hc heq => h t ht (heq ▸ hc), fun h t ht hc => h t ht _ hc rfl⟩
  · have htext (piece : Piece) (h : piece ∈ pieces) : ∃ t, piece = .text t := by
      cases piece with
      | text t => exact ⟨t, rfl⟩
      | sgr code => exact absurd (hsgr code h) hcolor
    rw [if_neg hcolor]
    simp only [hcolor, if_false, Bool.false_eq_true, Bool.and_eq_false_iff, bne_eq_false_iff_eq]
    constructor
    · refine fun h => ⟨fun t ht c hc => ?_, fun code hc => absurd (hsgr code hc) hcolor⟩
      by_cases hcontrol : isControl c = true
      · exact Or.inr (h c (List.mem_flatMap.mpr ⟨_, ht, hc⟩) hcontrol)
      · exact Or.inl (by simpa using hcontrol)
    · intro h c hc hcontrol
      obtain ⟨piece, hpiece, hc⟩ := List.mem_flatMap.mp hc
      obtain ⟨t, rfl⟩ := htext piece hpiece
      rcases h.1 t hpiece c hc with h | h
      · rw [h] at hcontrol
        cases hcontrol
      · exact h

/-- **what is printed of a page is safe for the terminal just where the raw strings of its records
are** -/
theorem renderPage_safe (style : RenderStyle) (records : Value) (start pageSize : Nat) :
    (TerminalSafe style (renderPage style records start pageSize).body ↔
      ∀ p ∈ pageRecords records start pageSize, ∀ text ∈ rawFields p.1, ∀ c ∈ text,
        unsafeChar style.color c = false) ∧
    (TerminalSafe style (renderHistoryNoninteractive style records pageSize) ↔
      ∀ p ∈ pageRecords records 0 pageSize, ∀ text ∈ rawFields p.1, ∀ c ∈ text,
        unsafeChar style.color c = false) := by
  have hnone : ∀ c, (fun _ : Char => false) c = true → isPlain c = false := fun _ h => by cases h
  have hcalm (text : Text) : Calm (fun _ => false) text := fun _ _ => rfl
  constructor
  · rw [terminalSafe_iff ((renderPage_clean hnone style records start pageSize).mpr
      fun _ _ text _ => hcalm text).2]
    exact renderPage_clean (unsafeChar_not_plain style.color) style records start pageSize
  · rw [terminalSafe_iff ((renderHistoryNoninteractive_clean hnone style records pageSize).mpr
      fun _ _ text _ => hcalm text).2]
    exact renderHistoryNoninteractive_clean (unsafeChar_not_plain style.color) style records pageSize

def plainStyle : RenderStyle := { nowMs := 0, color := false, transcriptWidth := 72, verbose := false }

/-- one Recording, heard by a local engine on a device with a hostile name -/
def hostileDevice : Value :=
  .array [.object [("local_asr".toList,
    .object [("observed_device".toList, .string "cpu\x1b[2J".toList)])]]

/-- **the name of a device reaches the terminal with its escape** -/
theorem renderPage_prints_escape : ¬ TerminalSafe plainStyle
    (renderPage plainStyle hostileDevice 0 20).body := by
  intro h
  have hmem : '\x1b' ∈ printed (renderPage plainStyle hostileDevice 0 20).body := by decide +kernel
  exact absurd (h '\x1b' hmem (by decide)) (by decide)

end Voisu.HistoryView
