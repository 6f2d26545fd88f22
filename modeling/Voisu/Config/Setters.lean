import Mathlib
import Voisu.Config.Merge

/-!
# What a setter does

The merged file, what each parser then reads of it, and any sequence of setters.

* `mergeContent_eq`     the merged file, line by line;
* `entries_merge`       its entries: the line of the setting, then those of the file without its key;
* `readings_merge`      a setting is read back, and no other reading changes;
* `parseAsrModeDocument_engine`   the engine is read back just where the rest can be read;
* `merge_merge`         setting the same again changes nothing;
* `merges_set`          **all of it, along any sequence of setters**.
-/

namespace Voisu.Config
open Lib Daemon LocalTail Compose

/-! ## the merged file -/

/-- the lines that stay, without the blank ones at the ends -/
def kept (settings : Settings) (contents : Text) : List Text :=
  trimMatches List.isEmpty (preserved settings true (strLines contents))

/-- a blank line stands before them -/
def block (lines : List Text) : List Text := if lines.isEmpty then [] else [] :: lines

/-- the keys a setter can set -/
inductive Key where
  | deepgramEnabled
  | deliveryMode
  | writingMode
  | renderingPolicy
  | asrMode
  | tone
deriving DecidableEq, Repr

def Key.text : Key → Text
  | .deepgramEnabled => deepgramEnabledKey
  | .deliveryMode => deliveryModeKey
  | .writingMode => writingModeKey
  | .renderingPolicy => renderingPolicyKey
  | .asrMode => asrModeKey
  | .tone => toneKey

theorem Key.text_injective {a b : Key} (h : a.text = b.text) : a = b := by
  revert h
  cases a <;> cases b <;> decide

def Setting.key : Setting → Key
  | .deepgramEnabled _ => .deepgramEnabled
  | .deliveryMode _ => .deliveryMode
  | .writingMode _ => .writingMode
  | .renderingPolicy _ => .renderingPolicy
  | .asrMode _ => .asrMode
  | .tone _ => .tone

def Setting.value : Setting → Text
  | .deepgramEnabled enabled => if enabled then "true".toList else "false".toList
  | .deliveryMode mode => quote mode.asStr
  | .writingMode mode => quote (writingModeAsStr mode)
  | .renderingPolicy policy => quote (layoutName policy)
  | .asrMode mode => quote (asrModeAsStr mode)
  | .tone value => quote value.asStr

def Setting.line (setting : Setting) : Text := renderLine setting.key.text setting.value

theorem Setting.lines_settings (setting : Setting) : setting.settings.lines = [setting.line] := by
  cases setting <;> rfl

theorem not_mem_preserved {settings : Settings} {contents line : Text}
    (h : line ∈ preserved settings true (strLines contents)) : '\n' ∉ line :=
  not_mem_of_mem_strLines (preserved_sublist.subset h)

theorem kept_sublist (settings : Settings) (contents : Text) :
    (kept settings contents).Sublist (preserved settings true (strLines contents)) := by
  obtain ⟨g, g', hsplit, -, -⟩ := trimMatches_split List.isEmpty
    (preserved settings true (strLines contents))
  conv_rhs => rw [hsplit]
  exact (List.sublist_append_right _ _).trans (List.sublist_append_left _ _)

/-- **the merged file, line by line** -/
theorem mergeContent_eq (contents : Text) (settings : Settings) :
    mergeContent contents settings =
      unlines (managedLines ++ settings.lines ++ block (kept settings contents)) := by
  have hbody : trimMatches (· == '\n')
      (['\n'].intercalate (preserved settings true (strLines contents))) =
      ['\n'].intercalate (kept settings contents) :=
    trimMatches_intercalate fun l hl => not_mem_preserved hl
  simp only [mergeContent, hbody, block, render]
  by_cases hkept : kept settings contents = []
  · simp [hkept]
  · have hfull : (['\n'].intercalate (kept settings contents)).isEmpty = false := by
      have htrimmed := (trimMatches_trimmed List.isEmpty
        (preserved settings true (strLines contents))).1
      rw [show trimMatches List.isEmpty (preserved settings true (strLines contents)) =
        kept settings contents from rfl] at htrimmed
      cases hlines : kept settings contents with
      | nil => exact absurd hlines hkept
      | cons l ls =>
        rw [hlines] at htrimmed
        have hne : l ≠ [] := by simpa [headSep] using htrimmed
        cases ls with
        | nil => simpa using hne
        | cons l' ls => simp [List.intercalate_cons_cons]
    rw [hfull, if_neg (by simp), if_neg (by simpa using hkept), unlines_append _ ([] :: _),
      unlines_cons, unlines_eq_intercalate hkept]
    simp

/-- the line of a setting is its own content, ends where it ends, and is split where it was joined -/
theorem Setting.line_plain (setting : Setting) :
    content setting.line = setting.line ∧ '\n' ∉ setting.line ∧
      chompReturn setting.line = setting.line ∧ isTable setting.line = false ∧
      (keyValue setting.line).map (fun p => (trim p.1, trim p.2)) =
        some (setting.key.text, setting.value) := by
  cases setting with
  | deepgramEnabled enabled => cases enabled <;> decide +kernel
  | deliveryMode mode => cases mode <;> decide +kernel
  | writingMode mode => cases mode <;> decide +kernel
  | renderingPolicy policy => cases policy <;> decide +kernel
  | asrMode mode => cases mode <;> decide +kernel
  | tone value => cases value <;> decide +kernel

theorem entries_managedLines : entries managedLines = [] := by
  have hcontent (text : String) : content (comment text) = [] := rfl
  simp only [managedLines, List.map_cons, List.map_nil, entries_cons_empty (hcontent _)]
  rfl

theorem managedLines_plain : ∀ l ∈ managedLines, '\n' ∉ l ∧ chompReturn l = l ∧ trim l = l := by
  simp only [managedLines, List.map_cons, List.map_nil, comment, String.toList_append]
  -- a literal is cheap to evaluate as a list only
  repeat rw [String.toList_ofList]
  decide +kernel

theorem strLines_merge (setting : Setting) (contents : Text) :
    strLines (setting.merge contents) =
      managedLines ++ setting.line :: (block (kept setting.settings contents)).map chompReturn := by
  have hblock : ∀ l ∈ block (kept setting.settings contents), '\n' ∉ l := by
    intro l hl
    unfold block at hl
    split at hl
    · cases hl
    · rcases List.mem_cons.mp hl with rfl | hl
      · simp
      · exact not_mem_preserved ((kept_sublist _ _).subset hl)
  have hsame : managedLines.map chompReturn = managedLines := by
    conv_rhs => rw [← List.map_id managedLines]
    exact List.map_congr_left fun l hl => (managedLines_plain l hl).2.1
  obtain ⟨-, hline, hline', -⟩ := setting.line_plain
  rw [Setting.merge, mergeContent_eq, setting.lines_settings, strLines_unlines]
  · rw [List.map_append, List.map_append, hsame, List.map_singleton, hline', List.append_assoc,
      List.singleton_append]
  · intro l hl
    rcases List.mem_append.mp hl with hl | hl
    · rcases List.mem_append.mp hl with hl | hl
      · exact (managedLines_plain l hl).1
      · rw [List.mem_singleton.mp hl]
        exact hline
    · exact hblock l hl

theorem entries_merge (setting : Setting) (contents : Text) :
    entries (strLines (setting.merge contents)) =
      setting.line :: entries (preserved setting.settings true (strLines contents)) := by
  have hblock : entries (block (kept setting.settings contents)) =
      entries (preserved setting.settings true (strLines contents)) := by
    rw [← entries_trimMatches (preserved setting.settings true (strLines contents))]
    show _ = entries (kept setting.settings contents)
    unfold block
    split
    · rename_i hempty
      rw [List.isEmpty_iff.mp hempty]
    · exact entries_cons_empty rfl
  obtain ⟨hcontent, -, -, -, hkv⟩ := setting.line_plain
  have hfull : content setting.line ≠ [] := by
    intro hempty
    rw [← hcontent, hempty] at hkv
    cases hkv
  rw [strLines_merge, entries_append, entries_managedLines, List.nil_append, entries_cons hfull,
    hcontent, entries_map_chompReturn, hblock]

/-! ## what is read -/

/-- what the tolerant parsers read -/
@[ext]
structure Readings where
  deepgramEnabled : Option Bool
  deliveryMode : Option StoredDelivery
  writingMode : WritingModeLoad
  renderingPolicy : RenderingPolicyLoad
  tone : Option Tone
  recovery : Option Bool
deriving DecidableEq, Repr

def readings (contents : Text) : Readings :=
  { deepgramEnabled := parseDeepgramEnabled contents, deliveryMode := parseDeliveryMode contents,
    writingMode := parseWritingMode contents, renderingPolicy := parseRenderingPolicy contents,
    tone := parseTone contents, recovery := parseEnabled contents }

/-- one reading becomes the value that is set -/
def Readings.set (r : Readings) : Setting → Readings
  | .deepgramEnabled enabled => { r with deepgramEnabled := some enabled }
  | .deliveryMode mode => { r with deliveryMode := some (.mode mode) }
  | .writingMode mode => { r with writingMode := .known mode }
  | .renderingPolicy policy => { r with renderingPolicy := .known policy }
  | .asrMode _ => r
  | .tone value => { r with tone := some value }

/-- the engine after a setter -/
def Setting.engine (setting : Setting) (asrMode : Option AsrMode) : Option AsrMode :=
  match setting with
  | .asrMode mode => some mode
  | _ => asrMode

section
variable {ρ : Type} {value : Text → ρ} {missing : ρ} {setting : Setting} {contents key : Text}

/-- a parser at the line of a setting -/
theorem parseRoot_line (lines : List Text) : parseRoot key value missing (setting.line :: lines) =
    if setting.key.text = key then value setting.value else parseRoot key value missing lines := by
  obtain ⟨hcontent, -, -, htable, hkv⟩ := setting.line_plain
  obtain ⟨⟨k, v⟩, hkv', hparts⟩ := Option.map_eq_some_iff.mp hkv
  obtain ⟨hk, hv⟩ := Prod.mk.inj hparts
  have hfull : setting.line ≠ [] := by
    intro hempty
    rw [hempty] at hkv'
    cases hkv'
  simp only at hk hv
  simp only [parseRoot, hcontent, List.isEmpty_iff, hfull, if_false, htable, hkv', hk, hv,
    Bool.false_eq_true]
  by_cases heq : setting.key.text = key <;> simp [heq]

theorem Setting.replaces_eq (setting : Setting) (k : Text) : setting.settings.replaces k =
    if setting.key = .asrMode then isAsrModeKey k else k == setting.key.text := by
  cases setting <;> simp [Settings.replaces, Setting.settings, Settings.none, Setting.key, Key.text]

theorem parseRoot_merge_other (hkey : setting.key.text ≠ key) (hasr : isAsrModeKey key = false) :
    parseRoot key value missing (strLines (setting.merge contents)) =
      parseRoot key value missing (strLines contents) := by
  have hother : setting.settings.replaces key = false := by
    rw [setting.replaces_eq]
    split
    · exact hasr
    · exact beq_eq_false_iff_ne.mpr (Ne.symm hkey)
  rw [parseRoot_entries, entries_merge, parseRoot_line, if_neg hkey, ← parseRoot_entries,
    parseRoot_preserved hother]

/-- **a parser of the merged file** reads what was set, or what it read before -/
theorem parseRoot_merge (own : Key) (hasr : own ≠ .asrMode) :
    parseRoot own.text value missing (strLines (setting.merge contents)) =
      if setting.key = own then value setting.value
      else parseRoot own.text value missing (strLines contents) := by
  split
  · rename_i hkey
    rw [parseRoot_entries, entries_merge, parseRoot_line, if_pos (by rw [hkey])]
  · rename_i hkey
    refine parseRoot_merge_other (fun heq => hkey (Key.text_injective heq)) ?_
    cases own <;> first | rfl | exact absurd rfl hasr

end

/-- each value is read back -/
theorem Setting.value_read (setting : Setting) :
    match setting with
    | .deepgramEnabled enabled => deepgramEnabledOf setting.value = some enabled
    | .deliveryMode mode => storedDeliveryOf setting.value = some (.mode mode)
    | .writingMode mode => writingModeOf setting.value = .known mode
    | .renderingPolicy policy => renderingPolicyOf setting.value = .known policy
    | .asrMode mode => asrModeOf setting.value = .ok mode
    | .tone value => toneOf setting.value = some value := by
  cases setting with
  | deepgramEnabled enabled => cases enabled <;> decide
  | deliveryMode mode => cases mode <;> decide
  | writingMode mode => cases mode <;> decide
  | renderingPolicy policy => cases policy <;> decide
  | asrMode mode => cases mode <;> rfl
  | tone value => cases value <;> decide

/-- **a setter is read back, and no other reading changes** -/
theorem readings_merge (setting : Setting) (contents : Text) :
    readings (setting.merge contents) = (readings contents).set setting := by
  have hrecovery : parseEnabled (setting.merge contents) = parseEnabled contents := by
    rw [parseEnabled_eq, parseEnabled_eq]
    refine parseRoot_merge_other (fun heq => ?_) (by decide)
    revert heq
    cases setting.key <;> decide
  have hdeepgram : parseDeepgramEnabled (setting.merge contents) =
      if setting.key = .deepgramEnabled then deepgramEnabledOf setting.value
      else parseDeepgramEnabled contents := parseRoot_merge .deepgramEnabled (by decide)
  have hdelivery : parseDeliveryMode (setting.merge contents) =
      if setting.key = .deliveryMode then storedDeliveryOf setting.value
      else parseDeliveryMode contents := parseRoot_merge .deliveryMode (by decide)
  have hwriting : parseWritingMode (setting.merge contents) =
      if setting.key = .writingMode then writingModeOf setting.value
      else parseWritingMode contents := parseRoot_merge .writingMode (by decide)
  have hrendering : parseRenderingPolicy (setting.merge contents) =
      if setting.key = .renderingPolicy then renderingPolicyOf setting.value
      else parseRenderingPolicy contents := parseRoot_merge .renderingPolicy (by decide)
  have htone : parseTone (setting.merge contents) =
      if setting.key = .tone then toneOf setting.value else parseTone contents :=
    parseRoot_merge .tone (by decide)
  have hvalue := setting.value_read
  simp only [readings, hdeepgram, hdelivery, hwriting, hrendering, htone, hrecovery]
  cases setting <;> simp [Setting.key, Readings.set, hvalue]

/-! ## the engine -/

theorem parseAsrModeDocument_eq_ok {contents : Text} {r : Option AsrMode} :
    parseAsrModeDocument contents = .ok r ↔ Accepts [] none (entries (strLines contents)) r := by
  rw [parseAsrModeDocument, parseAsrModeFrom_entries, parseAsrModeFrom_eq_ok]

section
variable {setting : Setting} {contents : Text} {r : Option AsrMode}

theorem entries_preserved {settings : Settings} {inRoot : Bool} {lines : List Text} :
    entries (preserved settings inRoot lines) = preserved settings inRoot (entries lines) := by
  induction lines generalizing inRoot with
  | nil => rfl
  | cons line lines ih =>
    by_cases hempty : content line = []
    · rw [entries_cons_empty hempty, preserved_empty hempty, ← ih]
      split
      · rfl
      · exact entries_cons_empty hempty
    · have hfull : content (content line) ≠ [] := by simpa using hempty
      rw [entries_cons hempty, preserved_cons, preserved_cons, drops_full hempty, drops_full hfull,
        content_content, ← ih]
      split
      · rfl
      · exact entries_cons hempty

theorem Setting.engine_of_ne (h : setting.key ≠ .asrMode) : setting.engine r = r := by
  cases setting <;> first | rfl | exact absurd rfl h

theorem Key.text_readable {key : Key} (h : key ≠ .asrMode) :
    (key.text ≠ [] ∧ '\\' ∉ key.text) ∧ isAsrModeKey key.text = false := by
  cases key <;> first | decide | exact absurd rfl h

/-- the line of a setting, for the strict parser -/
theorem Setting.line_keyValue (setting : Setting) : isTable (content setting.line) = false ∧
    ∃ k v, keyValue (content setting.line) = some (k, v) ∧ trim k = setting.key.text ∧
      trim v = setting.value := by
  obtain ⟨hcontent, -, -, htable, hkv⟩ := setting.line_plain
  obtain ⟨⟨k, v⟩, hkv', hparts⟩ := Option.map_eq_some_iff.mp hkv
  obtain ⟨hk, hv⟩ := Prod.mk.inj hparts
  rw [← hcontent] at htable hkv'
  exact ⟨htable, k, v, hkv', hk, hv⟩

theorem Setting.replaces_asr (mode : AsrMode) (k : Text) :
    (Setting.asrMode mode).settings.replaces k = isAsrModeKey k :=
  (Setting.asrMode mode).replaces_eq k

/-- the engine's line, before a document that is accepted without the engine's lines -/
theorem Accepts.engine_line {mode : AsrMode} {lines : List Text}
    (h : Accepts [asrModeKey] (some mode) lines (some mode)) :
    Accepts [] none ((Setting.asrMode mode).line :: lines) (some mode) := by
  obtain ⟨htable, k, v, hkv, hk, hv⟩ := (Setting.asrMode mode).line_keyValue
  exact .engine htable hkv (by rw [hk]; rfl) List.not_mem_nil
    (by rw [hv]; exact (Setting.asrMode mode).value_read) h

/-- a document that could be read can be read -/
theorem parseAsrModeDocument_merge (h : parseAsrModeDocument contents = .ok r) :
    parseAsrModeDocument (setting.merge contents) = .ok (setting.engine r) := by
  rw [parseAsrModeDocument_eq_ok] at h ⊢
  rw [entries_merge, entries_preserved]
  by_cases hkey : setting.key = .asrMode
  · obtain ⟨mode, rfl⟩ : ∃ mode, setting = .asrMode mode := by
      cases setting <;> simp_all [Setting.key]
    exact (h.without (Setting.replaces_asr mode) (by simp) (some mode)).engine_line
  · obtain ⟨htable, k, v, hkv, hk, hv⟩ := setting.line_keyValue
    obtain ⟨hreadable, hasr⟩ := Key.text_readable hkey
    have hreplaces (k : Text) : setting.settings.replaces k = (k == setting.key.text) := by
      rw [setting.replaces_eq, if_neg hkey]
    rw [setting.engine_of_ne hkey]
    refine .other htable hkv (hk ▸ hreadable) (hk ▸ hasr) List.not_mem_nil (h.keeps ?_ ?_)
    · intro k' hk'
      rw [hreplaces]
      refine beq_eq_false_iff_ne.mpr fun heq => ?_
      rw [heq, hasr] at hk'
      cases hk'
    · intro k' hk'
      rw [List.mem_singleton.mp hk', hreplaces, hk]
      exact .inr (beq_self_eq_true _)

/-- **the engine is read back just where the rest of the file can be read** -/
theorem parseAsrModeDocument_engine (mode : AsrMode) (contents : Text) :
    parseAsrModeDocument ((Setting.asrMode mode).merge contents) = .ok (some mode) ↔
      ∃ r, parseAsrModeDocument (unlines
        (preserved (Setting.asrMode mode).settings true (strLines contents))) = .ok r := by
  have hrest : entries (strLines (unlines
      (preserved (Setting.asrMode mode).settings true (strLines contents)))) =
      preserved (Setting.asrMode mode).settings true (entries (strLines contents)) := by
    rw [strLines_unlines fun l hl => not_mem_preserved hl, entries_map_chompReturn,
      entries_preserved]
  simp only [parseAsrModeDocument_eq_ok, hrest, entries_merge, entries_preserved]
  obtain ⟨htable, k, v, hkv, hk, hv⟩ := (Setting.asrMode mode).line_keyValue
  constructor
  · intro h
    cases h with
    | empty hempty => exact absurd hempty (full_of_keyValue hkv)
    | engine _ _ _ _ _ h =>
      have hrest : Accepts [] none _ none := h.without (Setting.replaces_asr mode) (by simp) none
      rw [preserved_preserved] at hrest
      exact ⟨none, hrest⟩
    | other _ hkv' _ hkey =>
      obtain ⟨rfl, rfl⟩ := Prod.mk.inj (Option.some.inj (hkv.symm.trans hkv'))
      rw [hk] at hkey
      cases hkey
  · rintro ⟨r, h⟩
    have hrest : Accepts [asrModeKey] (some mode) _ (some mode) :=
      h.without (Setting.replaces_asr mode) (by simp) (some mode)
    rw [preserved_preserved] at hrest
    exact hrest.engine_line

/-! ## setting the same again -/

theorem preserved_managedLines {settings : Settings} (lines : List Text) :
    preserved settings true (managedLines ++ lines) = preserved settings true lines := by
  have hdropped : ∀ l ∈ managedLines, isManagedComment l = true := by
    intro l hl
    rw [isManagedComment, (managedLines_plain l hl).2.2]
    simp [hl]
  have hall : ∀ ls : List Text, (∀ l ∈ ls, isManagedComment l = true) →
      preserved settings true (ls ++ lines) = preserved settings true lines := by
    intro ls hls
    induction ls with
    | nil => rfl
    | cons l ls ih =>
      have hl := hls l List.mem_cons_self
      rw [List.cons_append, preserved_empty (content_managed hl), hl]
      exact ih fun l' hl' => hls l' (List.mem_cons_of_mem _ hl')
  exact hall managedLines hdropped

theorem preserved_line (lines : List Text) :
    preserved setting.settings true (setting.line :: lines) =
      preserved setting.settings true lines := by
  obtain ⟨htable, k, v, hkv, hk, -⟩ := setting.line_keyValue
  have hreplaced : setting.settings.replaces (trim k) = true := by
    rw [hk]
    cases setting <;> rfl
  rw [preserved_keyValue htable hkv, hreplaced]
  rfl

theorem preserved_kept (settings : Settings) (contents : Text) :
    preserved settings true (kept settings contents) = kept settings contents := by
  obtain ⟨g, g', hsplit, hg, -⟩ := trimMatches_split List.isEmpty
    (preserved settings true (strLines contents))
  have hall : preserved settings true (g ++ kept settings contents ++ g') =
      g ++ kept settings contents ++ g' := by
    show preserved settings true (g ++ trimMatches List.isEmpty
      (preserved settings true (strLines contents)) ++ g') = _
    rw [← hsplit, preserved_preserved]
    exact hsplit
  exact preserved_middle hg hall

/-- no line ends in a carriage return of its own -/
def NoReturns (contents : Text) : Prop := ∀ line ∈ strLines contents, line.getLast? ≠ some '\r'

instance (contents : Text) : Decidable (NoReturns contents) :=
  inferInstanceAs (Decidable (∀ line ∈ strLines contents, _))

theorem strLines_merge_of_noReturns (h : NoReturns contents) :
    strLines (setting.merge contents) =
      managedLines ++ setting.line :: block (kept setting.settings contents) := by
  have hblock : (block (kept setting.settings contents)).map chompReturn =
      block (kept setting.settings contents) := by
    conv_rhs => rw [← List.map_id (block (kept setting.settings contents))]
    refine List.map_congr_left fun l hl => ?_
    unfold block at hl
    split at hl
    · cases hl
    · rcases List.mem_cons.mp hl with rfl | hl
      · rfl
      · exact if_neg (h l (preserved_sublist.subset ((kept_sublist _ _).subset hl)))
  rw [strLines_merge, hblock]

/-- **setting the same again changes nothing** -/
theorem merge_merge (h : NoReturns contents) :
    setting.merge (setting.merge contents) = setting.merge contents := by
  have hkept : kept setting.settings (setting.merge contents) = kept setting.settings contents := by
    rw [kept, strLines_merge_of_noReturns h, preserved_managedLines, preserved_line]
    unfold block
    split
    · rename_i hempty
      rw [List.isEmpty_iff.mp hempty]
      rfl
    · rw [preserved_empty rfl, isManagedComment_nil, preserved_kept]
      exact trimMatches_of_trimmed (trimMatches_trimmed List.isEmpty _)
  have hblock : block (kept setting.settings (setting.merge contents)) =
      block (kept setting.settings contents) := by
    unfold block
    rw [hkept]
  conv_lhs => rw [Setting.merge, mergeContent_eq, hblock]
  exact (mergeContent_eq contents setting.settings).symm

end

/-! ## any sequence of setters -/

/-- a root line of the key that is set -/
def Setting.owns (setting : Setting) (line : Text) : Bool :=
  (keyValue (content line)).any fun p => setting.settings.replaces (trim p.1)

/-- the lines that are neither managed headers nor root lines of the key that is set -/
def Setting.others (setting : Setting) (lines : List Text) : List Text :=
  (lines.takeWhile fun line => !isTable (content line)).filter
      (fun line => !isManagedComment line && !setting.owns line) ++
    (lines.dropWhile fun line => !isTable (content line)).filter (!isManagedComment ·)

theorem preserved_outside (settings : Settings) (lines : List Text) :
    preserved settings false lines = lines.filter (!isManagedComment ·) := by
  induction lines with
  | nil => rfl
  | cons line lines ih =>
    rw [preserved_cons, Bool.false_and, ih, List.filter_cons]
    simp only [drops, Bool.false_and, Bool.or_false]
    cases isManagedComment line <;> rfl

theorem preserved_eq_others (setting : Setting) (lines : List Text) :
    preserved setting.settings true lines = setting.others lines := by
  induction lines with
  | nil => rfl
  | cons line lines ih =>
    unfold Setting.others
    cases htable : isTable (content line) with
    | true =>
      rw [preserved_table htable, preserved_outside]
      have hheader : isManagedComment line = false := by
        cases hmanaged : isManagedComment line with
        | false => rfl
        | true => simp [content_managed hmanaged, isTable] at htable
      simp [htable, hheader]
    | false =>
      rw [preserved_cons, htable, Bool.not_false, Bool.and_self, ih]
      simp only [drops, htable, Setting.others, Setting.owns, List.takeWhile_cons, List.dropWhile_cons,
        Bool.not_false, Bool.true_and, if_true, List.filter_cons]
      cases isManagedComment line <;> cases (keyValue (content line)).any fun p =>
        setting.settings.replaces (trim p.1) <;> rfl

def mergeAll (contents : Text) (settings : List Setting) : Text :=
  settings.foldl (fun contents setting => setting.merge contents) contents

theorem readings_mergeAll (settings : List Setting) (contents : Text) :
    readings (mergeAll contents settings) = settings.foldl Readings.set (readings contents) := by
  induction settings generalizing contents with
  | nil => rfl
  | cons setting settings ih =>
    rw [List.foldl_cons, ← readings_merge]
    exact ih (setting.merge contents)

theorem parseAsrModeDocument_mergeAll {settings : List Setting} {contents : Text}
    {r : Option AsrMode} (h : parseAsrModeDocument contents = .ok r) :
    parseAsrModeDocument (mergeAll contents settings) =
      .ok (settings.foldl (fun r setting => setting.engine r) r) := by
  induction settings generalizing contents r with
  | nil => exact h
  | cons setting settings ih => exact ih (parseAsrModeDocument_merge h)

/-- **what a setter does to what is read and to the lines of the file, and what any sequence of
setters does** -/
theorem merges_set (setting : Setting) (contents : Text) :
    readings (setting.merge contents) = (readings contents).set setting ∧
      (∀ mode, setting = .asrMode mode →
        (parseAsrModeDocument (setting.merge contents) = .ok (some mode) ↔
          ∃ r, parseAsrModeDocument (unlines (setting.others (strLines contents))) = .ok r)) ∧
      (∀ r, parseAsrModeDocument contents = .ok r →
        parseAsrModeDocument (setting.merge contents) = .ok (setting.engine r)) ∧
      (NoReturns contents →
        strLines (setting.merge contents) = managedLines ++ setting.line ::
            block (trimMatches List.isEmpty (setting.others (strLines contents))) ∧
          setting.merge (setting.merge contents) = setting.merge contents) ∧
      ∀ settings, readings (mergeAll contents settings) =
          settings.foldl Readings.set (readings contents) ∧
        ∀ r, parseAsrModeDocument contents = .ok r →
          parseAsrModeDocument (mergeAll contents settings) =
            .ok (settings.foldl (fun r setting => setting.engine r) r) := by
  refine ⟨readings_merge setting contents, ?_, fun r h => parseAsrModeDocument_merge h, fun h => ?_,
    fun settings => ⟨readings_mergeAll settings contents, fun r h =>
      parseAsrModeDocument_mergeAll h⟩⟩
  · rintro mode rfl
    rw [← preserved_eq_others]
    exact parseAsrModeDocument_engine mode contents
  · rw [← preserved_eq_others]
    exact ⟨strLines_merge_of_noReturns h, merge_merge h⟩

/-- a file that sets two keys, one of them in a table as well -/
theorem merges_set_table :
    (readings ((Setting.tone .informal).merge "tone = 'formal'\n[x]\ntone = 1\n".toList)).tone =
      some .informal ∧
    (Setting.tone .informal).merge ((Setting.tone .informal).merge
        "tone = 'formal'\n[x]\ntone = 1\n".toList) =
      (Setting.tone .informal).merge "tone = 'formal'\n[x]\ntone = 1\n".toList :=
  have h := merges_set (.tone .informal) "tone = 'formal'\n[x]\ntone = 1\n".toList
  ⟨by rw [h.1]; rfl, (h.2.2.2.1 (by decide +kernel)).2⟩

/-- **a file the strict parser refuses is refused after the engine was set, the blank lines at the
ends do not all stay, and a carriage return at the end of the file is lost a setter later** -/
theorem merge_refuses :
    parseAsrModeDocument ((Setting.asrMode .localMode).merge "garbage".toList) ≠
        .ok (some .localMode) ∧
      ¬ ((Setting.tone .informal).others (strLines "\n\na=1\n".toList)).Sublist
        (strLines ((Setting.tone .informal).merge "\n\na=1\n".toList)) ∧
      (Setting.tone .informal).merge ((Setting.tone .informal).merge "a=1\r".toList) ≠
        (Setting.tone .informal).merge "a=1\r".toList := by
  refine ⟨fun h => ?_, by decide +kernel, by decide +kernel⟩
  obtain ⟨r, hr⟩ := (parseAsrModeDocument_engine _ _).mp h
  have hrest : parseAsrModeDocument (unlines (preserved (Setting.asrMode .localMode).settings true
      (strLines "garbage".toList))) = .error unreadableLine := by
    rw [preserved_eq_others]
    decide +kernel
  rw [hrest] at hr
  cases hr

end Voisu.Config
