import Voisu.Provider
import Voisu.Lib.Curl

/-!
# The request that is handed to curl

* `buildGroqCurlConfig`   the configuration file for a transcription request;
* `groqRequest`           the request that is meant;
* `readRequest_config`    what curl reads, whatever the texts are;
* `buildGroqCurlConfig_iff`   **it is what is meant exactly when the model, the language, the prompt
                          and the file name are plain in the grammar of a form field**.
-/

namespace Voisu.Groq
open Lib Lib.Curl

structure GroqRequestParams where
  model : Text
  language : Text
  prompt : Text
deriving DecidableEq, Repr

def isLineBreak (c : Char) : Bool := c == '\n' || c == '\r'

/-- each `c` replaced by a text -/
def replaceChar (c : Char) (mask value : Text) : Text :=
  value.flatMap fun d => if d = c then mask else [d]

def curlConfigEscape (value : Text) : Text :=
  replaceChar '"' ['\\', '"'] (replaceChar '\\' ['\\', '\\'] value)

def withoutLineBreaks (prompt : Text) : Text := prompt.filter fun c => c != '\n' && c != '\r'

def buildGroqCurlConfig (endpoint credential filePath : Text) (params : GroqRequestParams) :
    Except BoundaryError Text :=
  if params.model.isEmpty || params.model.any isLineBreak then
    .error (BoundaryError.new .provider "invalid Groq model".toList)
  else if params.language.any isLineBreak then
    .error (BoundaryError.new .provider "invalid Groq language".toList)
  else
    let config :=
      ("url = \"".toList ++ curlConfigEscape endpoint ++ "\"\n".toList) ++
      ("header = \"Authorization: Bearer ".toList ++ curlConfigEscape credential ++
        "\"\n".toList) ++
      ("form = \"file=@".toList ++ curlConfigEscape filePath ++
        ";filename=recording.flac;type=audio/flac\"\n".toList) ++
      ("form = \"model=".toList ++ curlConfigEscape params.model ++ "\"\n".toList) ++
      "form = \"response_format=verbose_json\"\n".toList ++
      "form = \"timestamp_granularities[]=word\"\n".toList ++
      "form = \"timestamp_granularities[]=segment\"\n".toList ++
      "form = \"temperature=0\"\n".toList
    let config :=
      if params.language.isEmpty then config
      else config ++
        ("form = \"language=".toList ++ curlConfigEscape params.language ++ "\"\n".toList)
    let prompt := withoutLineBreaks params.prompt
    .ok (if prompt.isEmpty then config
      else config ++ ("form = \"prompt=".toList ++ curlConfigEscape prompt ++ "\"\n".toList))

/-! ## the request -/

/-- what curl makes of a configuration file -/
structure CurlRequest where
  urls : List Text
  headers : List Text
  form : List FormField
  other : List (Text × Text)
deriving DecidableEq, Repr

def entriesOf (key : Text) (entries : List (Text × Text)) : List Text :=
  (entries.filter fun e => e.1 == key).map Prod.snd

def requestKeys : List Text := ["url", "header", "form"].map String.toList

def readRequest (config : Text) : Option CurlRequest :=
  (readConfig config).map fun entries =>
    { urls := entriesOf "url".toList entries
      headers := entriesOf "header".toList entries
      form := (entriesOf "form".toList entries).map readForm
      other := entries.filter fun e => !requestKeys.contains e.1 }

/-- the request that is meant: the recording, and literal fields -/
def groqRequest (endpoint credential filePath : Text) (params : GroqRequestParams) : CurlRequest :=
  let prompt := withoutLineBreaks params.prompt
  { urls := [endpoint]
    headers := ["Authorization: Bearer ".toList ++ credential]
    form :=
      [.file "file".toList filePath (some "filename=recording.flac;type=audio/flac".toList),
        .literal "model".toList params.model none,
        .literal "response_format".toList "verbose_json".toList none,
        .literal "timestamp_granularities[]".toList "word".toList none,
        .literal "timestamp_granularities[]".toList "segment".toList none,
        .literal "temperature".toList "0".toList none] ++
      (if params.language.isEmpty then [] else [.literal "language".toList params.language none]) ++
      (if prompt.isEmpty then [] else [.literal "prompt".toList prompt none])
    other := [] }

/-! ## what is read -/

section
variable {endpoint credential filePath config : Text} {params : GroqRequestParams}

theorem curlConfigEscape_eq (value : Text) : curlConfigEscape value = quote value := by
  rw [curlConfigEscape, replaceChar, replaceChar, List.flatMap_assoc, quote]
  congr 1
  funext c
  rw [quoteChar]
  by_cases hslash : c = '\\'
  · rw [hslash]
    decide
  · by_cases hquote : c = '"'
    · rw [hquote]
      decide
    · rw [if_neg hslash, if_neg (not_or.2 ⟨hslash, hquote⟩)]
      simp [hquote]

def formTexts (filePath : Text) (params : GroqRequestParams) : List Text :=
  let prompt := withoutLineBreaks params.prompt
  ["file=@".toList ++ filePath ++ ";filename=recording.flac;type=audio/flac".toList,
    "model=".toList ++ params.model, "response_format=verbose_json".toList,
    "timestamp_granularities[]=word".toList, "timestamp_granularities[]=segment".toList,
    "temperature=0".toList] ++
  (if params.language.isEmpty then [] else ["language=".toList ++ params.language]) ++
  (if prompt.isEmpty then [] else ["prompt=".toList ++ prompt])

def entries (endpoint credential filePath : Text) (params : GroqRequestParams) :
    List (Text × Text) :=
  [("url".toList, endpoint), ("header".toList, "Authorization: Bearer ".toList ++ credential)] ++
    (formTexts filePath params).map fun text => ("form".toList, text)

/-- one line of the file: a text between two others in which there is nothing to escape -/
theorem line_eq (key before value after : Text) {opening closing : Text}
    (hopening : opening = key ++ " = \"".toList ++ quote before)
    (hclosing : closing = quote after ++ ['"', '\n']) :
    opening ++ curlConfigEscape value ++ closing = entryText (key, before ++ value ++ after) := by
  rw [hopening, hclosing, curlConfigEscape_eq, entryText, quote_append, quote_append]
  simp only [List.append_assoc]

theorem line_end (key before value : Text) {opening : Text}
    (hopening : opening = key ++ " = \"".toList ++ quote before) :
    opening ++ curlConfigEscape value ++ "\"\n".toList = entryText (key, before ++ value) := by
  have hline := line_eq key before value [] hopening (show "\"\n".toList = _ from rfl)
  rwa [List.append_nil] at hline

/-- **the configuration file holds these entries and nothing else** -/
theorem buildGroqCurlConfig_ok
    (h : buildGroqCurlConfig endpoint credential filePath params = .ok config) :
    config = (entries endpoint credential filePath params).flatMap entryText := by
  rw [buildGroqCurlConfig] at h
  split at h
  · cases h
  split at h
  · cases h
  have hconfig := Except.ok.inj h
  have hformat : "form = \"response_format=verbose_json\"\n".toList =
      entryText ("form".toList, "response_format=verbose_json".toList) := by
    repeat rw [String.toList_ofList]
    rfl
  have hword : "form = \"timestamp_granularities[]=word\"\n".toList =
      entryText ("form".toList, "timestamp_granularities[]=word".toList) := by
    repeat rw [String.toList_ofList]
    rfl
  have hsegment : "form = \"timestamp_granularities[]=segment\"\n".toList =
      entryText ("form".toList, "timestamp_granularities[]=segment".toList) := by
    repeat rw [String.toList_ofList]
    rfl
  have htemperature : "form = \"temperature=0\"\n".toList =
      entryText ("form".toList, "temperature=0".toList) := by
    repeat rw [String.toList_ofList]
    rfl
  have hurl := line_end "url".toList [] endpoint (show "url = \"".toList = _ from rfl)
  have hheader := line_end "header".toList "Authorization: Bearer ".toList credential
    (show "header = \"Authorization: Bearer ".toList = _ by
      repeat rw [String.toList_ofList]
      rfl)
  have hfile := line_eq "form".toList "file=@".toList filePath
    ";filename=recording.flac;type=audio/flac".toList
    (show "form = \"file=@".toList = _ by
      repeat rw [String.toList_ofList]
      rfl)
    (show ";filename=recording.flac;type=audio/flac\"\n".toList = _ by
      repeat rw [String.toList_ofList]
      rfl)
  have hmodel := line_end "form".toList "model=".toList params.model
    (show "form = \"model=".toList = _ by
      repeat rw [String.toList_ofList]
      rfl)
  have hlanguage := line_end "form".toList "language=".toList params.language
    (show "form = \"language=".toList = _ by
      repeat rw [String.toList_ofList]
      rfl)
  have hprompt := line_end "form".toList "prompt=".toList (withoutLineBreaks params.prompt)
    (show "form = \"prompt=".toList = _ by
      repeat rw [String.toList_ofList]
      rfl)
  rw [hurl, hheader, hfile, hmodel, hlanguage, hprompt, hformat, hword, hsegment,
    htemperature] at hconfig
  rw [← hconfig, entries, formTexts]
  by_cases hlanguage : params.language.isEmpty = true <;>
    by_cases hprompt : (withoutLineBreaks params.prompt).isEmpty = true <;>
    simp [hlanguage, hprompt]

theorem entriesOf_append (key : Text) (a b : List (Text × Text)) :
    entriesOf key (a ++ b) = entriesOf key a ++ entriesOf key b := by
  simp [entriesOf]

theorem entriesOf_named (name key : Text) (texts : List Text) :
    entriesOf key (texts.map fun text => (name, text)) = if name == key then texts else [] := by
  induction texts with
  | nil => simp [entriesOf]
  | cons text texts ih =>
    have hcons : entriesOf key ((name, text) :: texts.map fun t => (name, t)) =
        entriesOf key [(name, text)] ++ entriesOf key (texts.map fun t => (name, t)) :=
      entriesOf_append key [_] _
    rw [List.map_cons, hcons, ih]
    by_cases hkey : (name == key) = true
    · simp [entriesOf, hkey]
    · simp [entriesOf, hkey]

theorem entries_key {e : Text × Text} (he : e ∈ entries endpoint credential filePath params) :
    e.1 ∈ requestKeys := by
  rcases List.mem_append.1 he with he | he
  · rcases List.mem_pair.1 he with rfl | rfl
    · exact List.mem_cons_self
    · exact List.mem_cons_of_mem _ List.mem_cons_self
  · obtain ⟨text, -, rfl⟩ := List.mem_map.1 he
    exact List.mem_cons_of_mem _ (List.mem_cons_of_mem _ List.mem_cons_self)

/-- **what curl reads: the endpoint, the header, and the fields in their texts** -/
theorem readRequest_config
    (h : buildGroqCurlConfig endpoint credential filePath params = .ok config) :
    readRequest config = some
      { urls := [endpoint]
        headers := ["Authorization: Bearer ".toList ++ credential]
        form := (formTexts filePath params).map readForm
        other := [] } := by
  have hblank : ∀ key ∈ requestKeys, ' ' ∉ key := by decide
  have hother : ((entries endpoint credential filePath params).filter
      fun e => !requestKeys.contains e.1) = [] :=
    List.filter_eq_nil_iff.2 fun e he => by simpa using entries_key he
  rw [readRequest, buildGroqCurlConfig_ok h,
    readConfig_entryText fun e he => hblank e.1 (entries_key he), Option.map_some, hother, entries]
  simp only [entriesOf_append, entriesOf_named]
  rfl

/-- an optional field is read as it is, also when it is left out -/
theorem optional_field_iff {name : Text} (hname : '=' ∉ name) (value : Text) :
    (if value.isEmpty then [] else [name ++ '=' :: value]).map readForm =
      (if value.isEmpty then [] else [.literal name value none]) ↔ PlainContent value := by
  cases value with
  | nil =>
    refine ⟨fun _ => ⟨⟨?_, List.not_mem_nil⟩, nofun, nofun⟩, fun _ => rfl⟩
    rintro ⟨body, hbody, -⟩
    cases hbody
  | cons c value =>
    show [readForm _] = [_] ↔ _
    rw [List.singleton_inj, readForm_literal_iff hname]

theorem formTexts_iff (filePath : Text) (params : GroqRequestParams) :
    (formTexts filePath params).map readForm =
        (groqRequest endpoint credential filePath params).form ↔
      PlainWord filePath ∧ PlainContent params.model ∧ PlainContent params.language ∧
        PlainContent (withoutLineBreaks params.prompt) := by
  -- a literal is cheap to evaluate as a list only
  have hfile : readForm ("file=@".toList ++ filePath ++
      ";filename=recording.flac;type=audio/flac".toList) = .file "file".toList filePath
        (some "filename=recording.flac;type=audio/flac".toList) ↔ PlainWord filePath := by
    have hiff := readForm_file_iff (show '=' ∉ "file".toList by decide)
      (show '"' ∉ "filename=recording.flac;type=audio/flac".toList by
        repeat rw [String.toList_ofList]
        decide) filePath
    repeat rw [String.toList_ofList] at hiff ⊢
    exact hiff
  have hmodel : readForm ("model=".toList ++ params.model) =
      .literal "model".toList params.model none ↔ PlainContent params.model := by
    have hiff := readForm_literal_iff (show '=' ∉ "model".toList by decide) params.model
    repeat rw [String.toList_ofList] at hiff ⊢
    exact hiff
  have hlanguage : (if params.language.isEmpty then [] else
      ["language=".toList ++ params.language]).map readForm =
        (if params.language.isEmpty then [] else [.literal "language".toList params.language none])
      ↔ PlainContent params.language := by
    have hiff := optional_field_iff (show '=' ∉ "language".toList by decide) params.language
    repeat rw [String.toList_ofList] at hiff ⊢
    exact hiff
  have hprompt := optional_field_iff (show '=' ∉ "prompt".toList by decide)
    (withoutLineBreaks params.prompt)
  have hformat : readForm "response_format=verbose_json".toList =
    .literal "response_format".toList "verbose_json".toList none := by
    repeat rw [String.toList_ofList]
    rfl
  have hword : readForm "timestamp_granularities[]=word".toList =
    .literal "timestamp_granularities[]".toList "word".toList none := by
    repeat rw [String.toList_ofList]
    rfl
  have hsegment : readForm "timestamp_granularities[]=segment".toList =
    .literal "timestamp_granularities[]".toList "segment".toList none := by
    repeat rw [String.toList_ofList]
    rfl
  have htemperature : readForm "temperature=0".toList =
    .literal "temperature".toList "0".toList none := by
    repeat rw [String.toList_ofList]
    rfl
  rw [formTexts, groqRequest, ← hfile, ← hmodel, ← hlanguage, ← hprompt]
  constructor
  · intro h
    rw [List.map_append, List.map_append] at h
    obtain ⟨hrest, hprompt⟩ := List.append_inj' h (by split <;> rfl)
    obtain ⟨hfixed, hlanguage⟩ := List.append_inj' hrest (by split <;> rfl)
    obtain ⟨hfile, hfixed⟩ := List.cons.inj hfixed
    exact ⟨hfile, (List.cons.inj hfixed).1, hlanguage, hprompt⟩
  · rintro ⟨hfile, hmodel, hlanguage, hprompt⟩
    rw [List.map_append, List.map_append, hlanguage, ← hprompt]
    simp only [List.map_cons, List.map_nil, hfile, hmodel, hformat, hword, hsegment, htemperature]
    rfl

/-- **curl reads the request that is meant exactly when the file name is a plain word and the model,
the language and the prompt are plain contents** -/
theorem buildGroqCurlConfig_iff (endpoint credential filePath config : Text)
    (params : GroqRequestParams)
    (h : buildGroqCurlConfig endpoint credential filePath params = .ok config) :
    readRequest config = some (groqRequest endpoint credential filePath params) ↔
      PlainWord filePath ∧ PlainContent params.model ∧ PlainContent params.language ∧
        PlainContent (withoutLineBreaks params.prompt) := by
  rw [readRequest_config h, Option.some_inj, CurlRequest.mk.injEq]
  exact Iff.trans ⟨fun h => h.2.2.1, fun h => ⟨rfl, rfl, h, rfl⟩⟩ (formTexts_iff filePath params)

end

theorem plainContent_of_head {value : Text} (hsemicolon : ';' ∉ value)
    (hhead : value.head?.all (fun c => c != '"' && c != '@' && c != '<') = true) :
    PlainContent value where
  unquoted := by
    rintro ⟨body, rfl, -⟩
    exact Bool.false_ne_true hhead
  semicolon := hsemicolon
  file h := by
    rw [h] at hhead
    exact Bool.false_ne_true hhead
  contents h := by
    rw [h] at hhead
    exact Bool.false_ne_true hhead

/-- a request with the terms of a dictionary in its prompt -/
def dictionaryParams (prompt : String) : GroqRequestParams :=
  { model := "whisper-large-v3".toList, language := "en".toList, prompt := prompt.toList }

theorem buildGroqCurlConfig_plain : ∃ config,
    buildGroqCurlConfig "https://api.groq.com/v1".toList "secret \"token".toList
        "/tmp/rec.flac".toList (dictionaryParams "Tokio, serde, \\d") = .ok config ∧
      readRequest config = some (groqRequest "https://api.groq.com/v1".toList
        "secret \"token".toList "/tmp/rec.flac".toList (dictionaryParams "Tokio, serde, \\d")) :=
  ⟨_, rfl, (buildGroqCurlConfig_iff _ _ _ _ _ rfl).2
    ⟨(plainContent_of_head (by decide) (by decide)).toPlainWord,
      plainContent_of_head (by decide) (by decide), plainContent_of_head (by decide) (by decide),
      plainContent_of_head (by decide) (by decide)⟩⟩

/-- a dictionary that starts with the name of a scoped package: curl reads a file as the prompt -/
theorem buildGroqCurlConfig_scoped : ∃ config request,
    buildGroqCurlConfig "https://api.groq.com/v1".toList "token".toList "/tmp/rec.flac".toList
        (dictionaryParams "@scope/pkg, serde") = .ok config ∧
      readRequest config = some request ∧
      FormField.file "prompt".toList "scope/pkg, serde".toList none ∈ request.form ∧
      request ≠ groqRequest "https://api.groq.com/v1".toList "token".toList
        "/tmp/rec.flac".toList (dictionaryParams "@scope/pkg, serde") := by
  have hread : FormField.file "prompt".toList "scope/pkg, serde".toList none ∈
      (formTexts "/tmp/rec.flac".toList (dictionaryParams "@scope/pkg, serde")).map readForm := by
    decide
  refine ⟨_, _, rfl, readRequest_config rfl, hread, fun h => ?_⟩
  have hform : (formTexts "/tmp/rec.flac".toList (dictionaryParams "@scope/pkg, serde")).map
      readForm = _ := congrArg CurlRequest.form h
  rw [hform] at hread
  exact absurd hread (by decide)

end Voisu.Groq
