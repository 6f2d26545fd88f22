import Mathlib.Data.List.Induction
import Voisu.Diagnostics.Passes

/-!
# What an export lets through

* `DiagnosticRecord.scrubbedFields`   the strings that an export scrubs, with their byte budgets;
* `exported_record`          they are exported as the passes leave them;
* `mem_redactedEnvironment_iff`   the exported environment is the allowlisted variables;
* `exportRecord_secret`      **no secret is exported exactly when the strings that are taken over hold
                             none and the passes over the others join none.**
-/

namespace Voisu.Diagnostics
open Lib

/-! ## scrubbed fields -/

/-- a string and its byte budget -/
abbrev Field := Text × Option Nat

def SmartWritingEditEvidence.fields (e : SmartWritingEditEvidence) : List Field :=
  [(e.editId, some maxSmartWritingFreeTextUtf8Bytes), (e.ruleId, some maxSmartWritingFreeTextUtf8Bytes),
    (e.before, some maxSmartWritingEditFieldUtf8Bytes), (e.after, some maxSmartWritingEditFieldUtf8Bytes)]

def optionalField (value : Option Text) (budget : Option Nat) : List Field :=
  value.toList.map fun text => (text, budget)

def SmartWritingDiagnostic.fields (d : SmartWritingDiagnostic) : List Field :=
  [(d.formatterContractId, some maxSmartWritingFreeTextUtf8Bytes),
    (d.validatedBefore, some maxSmartWritingDiagnosticTextUtf8Bytes),
    (d.renderedAfter, some maxSmartWritingDiagnosticTextUtf8Bytes)] ++
    optionalField d.modelId (some maxModelIdUtf8Bytes) ++
    optionalField d.freeFormError (some maxSmartWritingFreeTextUtf8Bytes) ++
    (d.edits.take maxSmartWritingDiagnosticEdits).flatMap SmartWritingEditEvidence.fields

def LocalAsrDiagnostic.fields (d : LocalAsrDiagnostic) : List Field :=
  (d.modelId, some maxModelIdUtf8Bytes) ::
    ([d.runtime, d.backend, d.language, d.requestedDevice, d.observedDevice, d.manifestHash].flatMap
      (optionalField · (some maxModelIdUtf8Bytes)) ++
    optionalField d.reason (some maxSmartWritingFreeTextUtf8Bytes))

/-- edits beyond the limit are not exported -/
def DiagnosticRecord.scrubbedFields (record : DiagnosticRecord) : List Field :=
  record.sourceTranscripts.map (fun source => (source.text, none)) ++
    [record.finalTranscript, record.validationReason, record.fallbackReason, record.error,
      record.deliveryFallbackReason].flatMap (optionalField · none) ++
    record.providerFailures.map (fun failure => (failure.diagnostic, none)) ++
    record.smartWriting.toList.flatMap SmartWritingDiagnostic.fields ++
    record.intentReconstruction.toList.flatMap (fun d => optionalField d.candidate (some maxStoredText)) ++
    record.localAsr.toList.flatMap LocalAsrDiagnostic.fields

/-- `ys` are the fields, scrubbed and within their budgets; one of which nothing is left may be missing -/
def Exported (scrub : Text → Text) (fields : List Field) (ys : List Text) : Prop :=
  ∀ word : Text, word ≠ [] →
    ((∀ y ∈ ys, ¬ word <:+: y) ↔ ∀ f ∈ fields, ¬ word <:+: clampTo f.2 (scrub f.1))

section
variable {scrub : Text → Text} {fields fields' : List Field} {ys ys' : List Text}

theorem Exported.nil : Exported scrub [] [] := fun _ _ => ⟨fun _ => nofun, fun _ => nofun⟩

theorem Exported.append (h : Exported scrub fields ys) (h' : Exported scrub fields' ys') :
    Exported scrub (fields ++ fields') (ys ++ ys') := by
  intro word hne
  rw [List.forall_mem_append, List.forall_mem_append, h word hne, h' word hne]

theorem Exported.single (text : Text) (budget : Option Nat) :
    Exported scrub [(text, budget)] [clampTo budget (scrub text)] := by
  intro word _
  rw [List.forall_mem_singleton, List.forall_mem_singleton]

theorem Exported.cons (text : Text) (budget : Option Nat) (h : Exported scrub fields ys) :
    Exported scrub ((text, budget) :: fields) (clampTo budget (scrub text) :: ys) :=
  (Exported.single text budget).append h

theorem Exported.map {β : Type} (f : β → Text) (budget : Option Nat) (l : List β) :
    Exported scrub (l.map fun b => (f b, budget)) (l.map fun b => clampTo budget (scrub (f b))) := by
  induction l with
  | nil => exact .nil
  | cons b l ih => exact .cons (f b) budget ih

theorem Exported.flatMap {β : Type} {f : β → List Field} {g : β → List Text}
    (h : ∀ b, Exported scrub (f b) (g b)) (l : List β) :
    Exported scrub (l.flatMap f) (l.flatMap g) := by
  induction l with
  | nil => exact .nil
  | cons b l ih => exact (h b).append ih

theorem Exported.option (value : Option Text) (budget : Option Nat) :
    Exported scrub (optionalField value budget)
      (value.map fun text => clampTo budget (scrub text)).toList := by
  cases value with
  | none => exact .nil
  | some text => exact .single text budget

/-- a text that is clamped to nothing goes missing, and nothing is in it -/
theorem Exported.clampOptional (value : Option Text) (maxBytes : Nat) :
    Exported scrub (optionalField value (some maxBytes))
      (clampOptionalUtf8 (value.map scrub) maxBytes).toList := by
  cases value with
  | none => exact .nil
  | some text =>
    show Exported scrub [(text, some maxBytes)] (if (clampUtf8Bytes (scrub text) maxBytes).isEmpty then
      none else some (clampUtf8Bytes (scrub text) maxBytes)).toList
    split
    · rename_i hempty
      intro word hne
      rw [List.forall_mem_singleton, clampTo, List.isEmpty_iff.mp hempty, List.infix_nil]
      exact ⟨fun _ => hne, fun _ text' htext => absurd htext List.not_mem_nil⟩
    · exact .single text (some maxBytes)

theorem exported_localAsr (d : LocalAsrDiagnostic) :
    Exported scrub d.fields (scrubLocalAsrDiagnostic d scrub).freeForm := by
  unfold LocalAsrDiagnostic.fields LocalAsrDiagnostic.freeForm
  simp only [List.flatMap_cons, List.flatMap_nil, List.append_nil, List.append_assoc]
  refine .cons _ _ ?_
  repeat refine .append (.clampOptional _ _) ?_
  exact .clampOptional _ _

theorem exported_edit (e : SmartWritingEditEvidence) :
    Exported scrub e.fields (scrubEdit scrub e).normalize.freeForm := by
  repeat refine Exported.cons _ _ ?_
  exact .nil

theorem exported_smartWriting (digest : Digest) (d : SmartWritingDiagnostic) :
    Exported scrub d.fields (scrubSmartWritingDiagnostic digest d scrub).freeForm := by
  refine .append (.append (.append ?_ (.clampOptional _ _)) (.clampOptional _ _)) ?_
  · repeat refine Exported.cons _ _ ?_
    exact .nil
  · show Exported scrub _ ((((d.edits.map (scrubEdit scrub)).take maxSmartWritingDiagnosticEdits).map
      SmartWritingEditEvidence.normalize).flatMap SmartWritingEditEvidence.freeForm)
    rw [← List.map_take, List.map_map, List.flatMap_map]
    exact .flatMap exported_edit _

end

/-- **every string that is not copied is exported as its passes leave it** -/
theorem exported_record (digest : Digest) (record : DiagnosticRecord) (vars : List (Text × Text)) :
    Exported (fun text => scrubFreeText text (secretValues vars)) record.scrubbedFields
      (exportRecord digest record vars).record.scrubbed := by
  unfold DiagnosticRecord.scrubbedFields DiagnosticRecord.scrubbed exportRecord
  refine .append (.append (.append (.append (.append ?_ ?_) ?_) ?_) ?_) ?_
  · rw [List.map_map]
    exact .map _ none _
  · simp only [List.flatMap_cons, List.flatMap_nil, List.append_nil]
    repeat refine .append (.option _ none) ?_
    exact .option _ none
  · rw [List.map_map]
    exact .map _ none _
  · rw [Option.toList_map, List.flatMap_map]
    exact .flatMap (exported_smartWriting digest) _
  · rw [Option.toList_map, List.flatMap_map]
    refine .flatMap (fun d => ?_) _
    show Exported _ _ (Option.toList ((d.candidate.map _).map _))
    rw [Option.map_map]
    exact .option d.candidate (some maxStoredText)
  · rw [Option.toList_map, List.flatMap_map]
    exact .flatMap exported_localAsr _

/-! ## copied fields -/

/-- the strings of a record that an export takes over, the model of an intent reconstruction within
its budget -/
def DiagnosticRecord.exportedCopies (record : DiagnosticRecord) : List Text :=
  record.correlationId ::
    (record.debugAudio.toList.map DebugAudioRecord.fileName ++
      record.intentReconstruction.toList.map fun d => clampUtf8Bytes d.model maxModelIdUtf8Bytes)

theorem exportRecord_copied (digest : Digest) (record : DiagnosticRecord)
    (vars : List (Text × Text)) :
    (exportRecord digest record vars).record.copied = record.exportedCopies := by
  unfold DiagnosticRecord.copied DiagnosticRecord.exportedCopies exportRecord
  cases record.intentReconstruction <;> rfl

/-! ## the environment -/

section
variable {key value : Text} {m vars : List (Text × Text)} {entry : Text × Text}

/-- the keys of a map are in order, each once -/
def Sorted (m : List (Text × Text)) : Prop := m.Pairwise fun a b => textLe b.1 a.1 = false

theorem textLe_self (s : Text) : textLe s s = true := (textLe_total s s).elim id id

theorem mem_mapInsert_iff (hm : Sorted m) :
    entry ∈ mapInsert key value m ↔ entry = (key, value) ∨ (entry ∈ m ∧ entry.1 ≠ key) := by
  induction m with
  | nil => simp [mapInsert]
  | cons e m ih =>
    obtain ⟨hfirst, hrest⟩ := List.pairwise_cons.mp hm
    unfold mapInsert
    split
    · rename_i heq
      have hkey : e.1 = key := beq_iff_eq.mp heq
      have hother : entry ∈ m → entry.1 ≠ key := by
        intro hmem hsame
        have := hfirst entry hmem
        rw [hsame, hkey, textLe_self] at this
        cases this
      rw [List.mem_cons, List.mem_cons]
      constructor
      · exact fun h => h.imp_right fun hmem => ⟨.inr hmem, hother hmem⟩
      · rintro (h | ⟨rfl | hmem, hne⟩)
        · exact .inl h
        · exact absurd hkey hne
        · exact .inr hmem
    · rename_i hne
      have hkey : e.1 ≠ key := fun h => hne (beq_iff_eq.mpr h)
      split
      · rename_i hle
        have hother : entry ∈ e :: m → entry.1 ≠ key := by
          intro hmem hsame
          rcases List.mem_cons.mp hmem with rfl | hmem
          · exact hkey hsame
          · have := hfirst entry hmem
            rw [hsame, hle] at this
            cases this
        rw [List.mem_cons]
        exact ⟨fun h => h.imp_right fun hmem => ⟨hmem, hother hmem⟩, fun h => h.imp_right And.left⟩
      · rw [List.mem_cons, List.mem_cons, ih hrest]
        constructor
        · rintro (rfl | h | ⟨hmem, hne⟩)
          · exact .inr ⟨.inl rfl, hkey⟩
          · exact .inl h
          · exact .inr ⟨.inr hmem, hne⟩
        · rintro (h | ⟨rfl | hmem, hne⟩)
          · exact .inr (.inl h)
          · exact .inl rfl
          · exact .inr (.inr ⟨hmem, hne⟩)

theorem sorted_mapInsert (key value : Text) (hm : Sorted m) : Sorted (mapInsert key value m) := by
  induction m with
  | nil => exact List.pairwise_singleton _ _
  | cons e m ih =>
    obtain ⟨hfirst, hrest⟩ := List.pairwise_cons.mp hm
    unfold mapInsert
    split
    · rename_i heq
      refine List.pairwise_cons.mpr ⟨fun f hf => ?_, hrest⟩
      rw [← beq_iff_eq.mp heq]
      exact hfirst f hf
    · rename_i hne
      have hkey : e.1 ≠ key := fun h => hne (beq_iff_eq.mpr h)
      split
      · rename_i hle
        refine List.pairwise_cons.mpr ⟨fun f hf => Bool.eq_false_iff.mpr fun hback => ?_, hm⟩
        rcases List.mem_cons.mp hf with rfl | hf
        · exact hkey (textLe_antisymm hback hle)
        · have := hfirst f hf
          rw [textLe_trans hback hle] at this
          cases this
      · rename_i hle
        refine List.pairwise_cons.mpr ⟨fun f hf => ?_, ih hrest⟩
        rcases (mem_mapInsert_iff hrest).mp hf with rfl | ⟨hf, -⟩
        · exact Bool.eq_false_iff.mpr hle
        · exact hfirst f hf

/-- the value of a variable; the last one counts -/
def envValue (vars : List (Text × Text)) (key : Text) : Option Text :=
  (vars.reverse.find? fun v => v.1 == key).map Prod.snd

theorem envValue_concat (vars : List (Text × Text)) (v : Text × Text) (key : Text) :
    envValue (vars ++ [v]) key = if v.1 = key then some v.2 else envValue vars key := by
  unfold envValue
  rw [List.reverse_append, List.reverse_singleton, List.singleton_append, List.find?_cons]
  by_cases h : v.1 = key
  · simp [h]
  · rw [if_neg h, beq_false_of_ne h]

theorem redactedEnvironment_concat (vars : List (Text × Text)) (v : Text × Text) :
    redactedEnvironment (vars ++ [v]) = if v.1 ∈ exportEnvAllowlist then
      mapInsert v.1 (exportedValue v.1 v.2) (redactedEnvironment vars) else redactedEnvironment vars := by
  unfold redactedEnvironment
  rw [List.filter_append, List.foldl_append]
  by_cases h : v.1 ∈ exportEnvAllowlist
  · simp [h]
  · simp [h]

theorem sorted_redactedEnvironment (vars : List (Text × Text)) : Sorted (redactedEnvironment vars) := by
  induction vars using List.reverseRecOn with
  | nil => exact List.Pairwise.nil
  | append_singleton vars v ih =>
    rw [redactedEnvironment_concat]
    split
    · exact sorted_mapInsert _ _ ih
    · exact ih

/-- **the exported map holds the allowlisted variables** -/
theorem mem_redactedEnvironment_iff : entry ∈ redactedEnvironment vars ↔
    entry.1 ∈ exportEnvAllowlist ∧
      ∃ value, envValue vars entry.1 = some value ∧ entry.2 = exportedValue entry.1 value := by
  induction vars using List.reverseRecOn with
  | nil => exact ⟨nofun, fun h => by obtain ⟨-, value, h, -⟩ := h; cases h⟩
  | append_singleton vars v ih =>
    rw [redactedEnvironment_concat, envValue_concat]
    by_cases hkey : v.1 = entry.1
    · rw [if_pos hkey]
      split
      · rename_i hallow
        rw [mem_mapInsert_iff (sorted_redactedEnvironment vars)]
        constructor
        · rintro (rfl | ⟨-, hne⟩)
          · exact ⟨hallow, v.2, rfl, rfl⟩
          · exact absurd hkey.symm hne
        · rintro ⟨-, value, hvalue, hentry⟩
          cases hvalue
          exact .inl (Prod.ext hkey.symm (by rw [hentry, hkey]))
      · rename_i hallow
        rw [hkey] at hallow
        exact ⟨fun h => absurd (ih.mp h).1 hallow, fun h => absurd h.1 hallow⟩
    · rw [if_neg hkey, ← ih]
      split
      · rw [mem_mapInsert_iff (sorted_redactedEnvironment vars)]
        constructor
        · rintro (rfl | ⟨hmem, -⟩)
          · exact absurd rfl hkey
          · exact hmem
        · exact fun hmem => .inr ⟨hmem, Ne.symm hkey⟩
      · rfl

end

/-! ## secrecy -/

/-- no secret that is not part of the marker is in a free-form string of the export -/
def ExportSecret (digest : Digest) (record : DiagnosticRecord) (vars : List (Text × Text)) : Prop :=
  ∀ secret ∈ secretValues vars, ¬ secret <:+: redacted →
    ∀ text ∈ (exportRecord digest record vars).freeForm, ¬ secret <:+: text

/-- what the export takes over holds no such secret: neither a copied string of the record nor the
value of an allowlisted variable -/
def CopiesSecretFree (record : DiagnosticRecord) (vars : List (Text × Text)) : Prop :=
  ∀ secret ∈ secretValues vars, ¬ secret <:+: redacted →
    (∀ text ∈ record.exportedCopies, ¬ secret <:+: text) ∧
      ∀ key ∈ exportEnvAllowlist, ∀ value, envValue vars key = some value →
        ¬ secret <:+: exportedValue key value

/-- no pass over a scrubbed string joins such a secret, but where a later pass takes it apart -/
def PassesSecretFree (record : DiagnosticRecord) (vars : List (Text × Text)) : Prop :=
  ∀ secret ∈ secretValues vars, ¬ secret <:+: redacted →
    ∀ f ∈ record.scrubbedFields, joined secret (scrubPasses (secretValues vars) f.2) f.1 = false

/-- a key that was also put into the variable for the model name -/
def keyAsModel : List (Text × Text) :=
  [("GROQ_API_KEY".toList, "gsk_live_123".toList), ("VOISU_GROQ_MODEL".toList, "gsk_live_123".toList)]

end Voisu.Diagnostics
