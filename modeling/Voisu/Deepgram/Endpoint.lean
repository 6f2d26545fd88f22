import Voisu.Url

/-!
# The address of the streaming connection

* `deepgramStreamingUrl`      the parameters of a connection, appended to the endpoint;
* `deepgramStreamingUrl_iff`  **they are what is read behind the endpoint's own exactly when the
                              endpoint has no fragment and no blank that hides in it**.
-/

namespace Voisu.Deepgram
open Lib Lib.Query

/-! ## the gate -/

def endpointRawStringIsAllowed (endpoint : Text) : Bool :=
  if endpoint.any fun c => ['\n', '\r', '\t', '\x00', '\\'].contains c then false
  else
    match splitOnceStr "://".toList endpoint with
    | none => true
    | some (_, authority) =>
      !(authority.takeWhile fun c => !(['/', '?', '#'].contains c)).contains '@'

def endpointAuthorityIsAllowed (url : Url) : Bool :=
  url.hostStr.any (fun host => !host.isEmpty) && url.username.isEmpty && url.password.isNone

def parsedHostIsLoopback (url : Url) : Bool := url.host.any Host.isLoopback

/-- `https` and `http` endpoints as `wss` and `ws` -/
def normalized (base : Text) : Text :=
  if startsWith base "https://".toList then "wss://".toList ++ base.drop 8
  else if startsWith base "http://".toList then "ws://".toList ++ base.drop 7
  else base

def mustUseWss : BoundaryError :=
  BoundaryError.new .provider "Deepgram streaming endpoint must use WSS except on loopback".toList

/-- the endpoint, normalized, when it may be connected to -/
def gatedEndpoint (parser : UrlParser) (base : Text) : Except BoundaryError Text :=
  if !endpointRawStringIsAllowed base then .error mustUseWss
  else
    match parser.parse (normalized base) with
    | none => .error mustUseWss
    | some url =>
      if !endpointAuthorityIsAllowed url then
        .error (BoundaryError.new .provider
          "Deepgram streaming endpoint authority is invalid".toList)
      else if url.scheme = "ws".toList then
        if parsedHostIsLoopback url then .ok (normalized base) else .error mustUseWss
      else if url.scheme = "wss".toList then .ok (normalized base)
      else .error mustUseWss

/-! ## the parameters -/

def deepgramStreamingParams (language : Text) : List (Text × Text) :=
  [("model".toList, "nova-3".toList),
   ("language".toList, language),
   ("encoding".toList, "linear16".toList),
   ("sample_rate".toList, "16000".toList),
   ("channels".toList, "1".toList),
   ("interim_results".toList, "true".toList),
   ("smart_format".toList, "true".toList),
   ("punctuate".toList, "true".toList),
   ("endpointing".toList, "300".toList),
   ("utterance_end_ms".toList, "1000".toList)]

/-- the address so far, and the separator that comes next -/
def pushParam (state : Text × Char) (param : Text × Text) : Text × Char :=
  (state.1 ++ state.2 :: pairText param, '&')

def pushKeyterm (state : Text × Char) (keyterm : Text) : Text × Char :=
  let keyterm := trim keyterm
  if keyterm.isEmpty then state
  else pushParam state ("keyterm".toList, percentEncode keyterm)

def deepgramStreamingUrl (parser : UrlParser) (base : Text) (keyterms : List Text)
    (language : Text) : Except BoundaryError Text :=
  (gatedEndpoint parser base).map fun url =>
    let separator := if url.contains '?' then '&' else '?'
    let state := (deepgramStreamingParams language).foldl pushParam (url, separator)
    (keyterms.foldl pushKeyterm state).1

def maxLanguageTagBytes : Nat := 16

def languageTagIsAllowed (tag : Text) : Bool :=
  if tag.isEmpty || maxLanguageTagBytes < byteLen tag then false
  else
    match tag.splitOn '-' with
    | [] => false
    | primary :: subtags =>
      2 ≤ byteLen primary && byteLen primary ≤ 8 && primary.all isAsciiLowercase &&
        subtags.all fun subtag => 1 ≤ byteLen subtag && byteLen subtag ≤ 8 &&
          subtag.all fun c => isAsciiLowercase c || isAsciiDigit c

/-! ## what is meant -/

def keytermsOf (keyterms : List Text) : List Text :=
  (keyterms.map trim).filter fun keyterm => !keyterm.isEmpty

/-- the parameters as they are meant -/
def streamingParams (language : Text) (keyterms : List Text) : List (Text × Text) :=
  deepgramStreamingParams language ++
    (keytermsOf keyterms).map fun keyterm => ("keyterm".toList, keyterm)

def streamingPairs (language : Text) (keyterms : List Text) : List (List UInt8 × List UInt8) :=
  (streamingParams language keyterms).map fun param => (utf8 param.1, utf8 param.2)

/-- the host of the endpoint, and its pairs with the parameters behind them -/
def Carries (parser : UrlParser) (base language : Text) (keyterms : List Text) (url : Text) : Prop :=
  ∃ gated sent, parser.parse (normalized base) = some gated ∧ parser.parse url = some sent ∧
    sent.host = gated.host ∧ sent.pairs = gated.pairs ++ streamingPairs language keyterms

/-- an endpoint without a fragment, and without blanks behind it that the gate does not see: behind a
query they belong to a value, elsewhere the parser has to read the same host with them -/
def Plain (parser : UrlParser) (base : Text) : Prop :=
  '#' ∉ normalized base ∧
    (trimMatches isC0ControlOrSpace (normalized base) =
        trimStartMatches isC0ControlOrSpace (normalized base) ∨
      '?' ∉ normalized base ∧
        (parser.front (trimStartMatches isC0ControlOrSpace (normalized base))).map Url.host =
          (parser.front (trimMatches isC0ControlOrSpace (normalized base))).map Url.host)

/-! ## the text that is appended -/

section
variable {language : Text} {keyterms : List Text}

/-- a character of a piece, or the separator -/
theorem mem_splitOn (sep : Char) {c : Char} {s : Text} (h : c ∈ s) :
    c = sep ∨ ∃ piece ∈ s.splitOn sep, c ∈ piece := by
  have hs : [sep].intercalate (s.splitOn sep) = s := List.intercalate_splitOn sep
  rw [← hs] at h
  generalize s.splitOn sep = pieces at h
  induction pieces with
  | nil => cases h
  | cons piece pieces ih =>
    cases pieces with
    | nil =>
      rw [List.intercalate_singleton] at h
      exact .inr ⟨piece, List.mem_cons_self, h⟩
    | cons next pieces =>
      rw [List.intercalate_cons_cons, List.mem_append, List.mem_append] at h
      rcases h with (h | h) | h
      · exact .inr ⟨piece, List.mem_cons_self, h⟩
      · exact .inl (List.mem_singleton.1 h)
      · rcases ih h with h | ⟨q, hq, hc⟩
        · exact .inl h
        · exact .inr ⟨q, List.mem_cons_of_mem _ hq, hc⟩

theorem languageTag_unreserved (h : languageTagIsAllowed language = true) :
    ∀ c ∈ language, isUnreserved c = true := by
  intro c hc
  have hlower (hc : isAsciiLowercase c = true) : isUnreserved c = true := by
    simp [isUnreserved, isAsciiAlphanumeric, isAsciiAlphabetic, hc]
  rw [languageTagIsAllowed] at h
  split at h
  · cases h
  rcases mem_splitOn '-' hc with rfl | ⟨piece, hpiece, hmem⟩
  · rfl
  split at h
  · cases h
  next primary subtags hsplit =>
    rw [hsplit] at hpiece
    simp only [Bool.and_eq_true, List.all_eq_true] at h
    rcases List.mem_cons.1 hpiece with rfl | hpiece
    · exact hlower (h.1.2 c hmem)
    · have hsub := (h.2 piece hpiece).2 c hmem
      rcases Bool.or_eq_true_iff.1 hsub with hlow | hdigit
      · exact hlower hlow
      · simp [isUnreserved, isAsciiAlphanumeric, hdigit]

/-- the parameters as they are written -/
def encodedParams (language : Text) (keyterms : List Text) : List (Text × Text) :=
  deepgramStreamingParams language ++
    (keytermsOf keyterms).map fun keyterm => ("keyterm".toList, percentEncode keyterm)

def appended (language : Text) (keyterms : List Text) : Text :=
  (encodedParams language keyterms).flatMap fun param => '&' :: pairText param

theorem foldl_pushKeyterm (state : Text × Char) (keyterms : List Text) :
    keyterms.foldl pushKeyterm state =
      ((keytermsOf keyterms).map fun keyterm =>
        ("keyterm".toList, percentEncode keyterm)).foldl pushParam state := by
  induction keyterms generalizing state with
  | nil => rfl
  | cons keyterm keyterms ih =>
    rw [List.foldl_cons, ih, pushKeyterm, keytermsOf, keytermsOf, List.map_cons, List.filter_cons]
    cases (trim keyterm).isEmpty <;> rfl

theorem foldl_pushParam (url : Text) (params : List (Text × Text)) :
    params.foldl pushParam (url, '&') =
      (url ++ params.flatMap fun param => '&' :: pairText param, '&') := by
  induction params generalizing url with
  | nil => rw [List.flatMap_nil, List.append_nil]; rfl
  | cons param params ih =>
    rw [List.foldl_cons, pushParam, ih, List.flatMap_cons, List.append_assoc]

theorem gatedEndpoint_ok {parser : UrlParser} {base endpoint : Text}
    (h : gatedEndpoint parser base = .ok endpoint) :
    endpoint = normalized base ∧ ∃ gated, parser.parse (normalized base) = some gated := by
  rw [gatedEndpoint] at h
  split at h
  · cases h
  cases hparse : parser.parse (normalized base) with
  | none =>
    rw [hparse] at h
    cases h
  | some gated =>
    refine ⟨?_, gated, rfl⟩
    simp only [hparse] at h
    split at h
    · cases h
    split at h
    · split at h
      · exact (Except.ok.inj h).symm
      · cases h
    · split at h
      · exact (Except.ok.inj h).symm
      · cases h

/-- **the address is the endpoint, the separator and the parameters** -/
theorem deepgramStreamingUrl_ok {parser : UrlParser} {base url : Text}
    (h : deepgramStreamingUrl parser base keyterms language = .ok url) :
    (∃ gated, parser.parse (normalized base) = some gated) ∧
      url = normalized base ++ (if '?' ∈ normalized base then '&' else '?') ::
        (appended language keyterms).tail := by
  rw [deepgramStreamingUrl] at h
  cases hgate : gatedEndpoint parser base with
  | error e =>
    rw [hgate] at h
    cases h
  | ok endpoint =>
    obtain ⟨rfl, hgated⟩ := gatedEndpoint_ok hgate
    refine ⟨hgated, ?_⟩
    rw [hgate] at h
    have h := Except.ok.inj h
    dsimp only at h
    rw [← h, foldl_pushKeyterm, ← List.foldl_append]
    show ((encodedParams language keyterms).foldl pushParam _).1 = _
    rw [appended, encodedParams, deepgramStreamingParams, List.cons_append, List.foldl_cons,
      pushParam, foldl_pushParam, List.append_assoc, List.flatMap_cons]
    have hsep : (if (normalized base).contains '?' then '&' else '?') =
        if '?' ∈ normalized base then '&' else '?' := by
      simp only [List.contains_iff_mem]
    rw [hsep]
    rfl

/-! ## its characters -/

/-- every name is plain, and so are the values that are not encoded -/
theorem deepgramStreamingParams_unreserved (hlang : ∀ c ∈ language, isUnreserved c = true) :
    ∀ param ∈ deepgramStreamingParams language,
      (∀ c ∈ param.1, isUnreserved c = true) ∧ ∀ c ∈ param.2, isUnreserved c = true := by
  have hfixed : ∀ param ∈ deepgramStreamingParams [],
      (∀ c ∈ param.1, isUnreserved c = true) ∧ ∀ c ∈ param.2, isUnreserved c = true := by
    decide +kernel
  intro param hparam
  rcases List.mem_cons.1 hparam with rfl | hparam
  · exact hfixed _ List.mem_cons_self
  rcases List.mem_cons.1 hparam with rfl | hparam
  · exact ⟨(hfixed _ (List.mem_cons_of_mem _ List.mem_cons_self)).1, hlang⟩
  · exact hfixed _ (List.mem_cons_of_mem _ (List.mem_cons_of_mem _ hparam))

theorem keyterm_unreserved : ∀ c ∈ "keyterm".toList, isUnreserved c = true := by decide

/-- what is written is unreserved, but for the escapes -/
theorem encodedParams_chars (hlang : languageTagIsAllowed language = true) :
    ∀ param ∈ encodedParams language keyterms, (∀ c ∈ param.1, isUnreserved c = true) ∧
      ∀ c ∈ param.2, isUnreserved c = true ∨ c = '%' := by
  intro param hparam
  rcases List.mem_append.1 hparam with hfixed | hkeyterm
  · obtain ⟨hname, hvalue⟩ :=
      deepgramStreamingParams_unreserved (languageTag_unreserved hlang) param hfixed
    exact ⟨hname, fun c hc => .inl (hvalue c hc)⟩
  · obtain ⟨keyterm, -, rfl⟩ := List.mem_map.1 hkeyterm
    exact ⟨keyterm_unreserved, fun c hc => mem_percentEncode hc⟩

theorem mem_appended (hlang : languageTagIsAllowed language = true) {c : Char}
    (h : c ∈ appended language keyterms) : isUnreserved c = true ∨ c ∈ ['%', '=', '&'] := by
  obtain ⟨param, hparam, hc⟩ := List.mem_flatMap.1 h
  obtain ⟨hname, hvalue⟩ := encodedParams_chars hlang param hparam
  rcases List.mem_cons.1 hc with rfl | hc
  · exact .inr (by decide)
  rcases List.mem_append.1 hc with hc | hc
  · exact .inl (hname c hc)
  rcases List.mem_cons.1 hc with rfl | hc
  · exact .inr (by decide)
  rcases hvalue c hc with hplain | rfl
  · exact .inl hplain
  · exact .inr (by decide)

/-- **the appended parameters are the ones that are meant** -/
theorem pairs_appended (hlang : languageTagIsAllowed language = true) (q : Text) :
    Query.pairs (q ++ appended language keyterms) =
      Query.pairs q ++ streamingPairs language keyterms := by
  have hplain {s : Text} (hs : ∀ c ∈ s, isUnreserved c = true) : decode s = utf8 s :=
    decode_plain fun c hc => ⟨unreserved_ne (hs c hc) rfl, unreserved_ne (hs c hc) rfl⟩
  have hencoded (s : Text) : decode (percentEncode s) = utf8 s := by
    have h := decode_encode s []
    rw [List.append_nil] at h
    rw [h]
    exact List.append_nil _
  have hpieces : ∀ param ∈ encodedParams language keyterms,
      '&' ∉ pairText param ∧ '=' ∉ param.1 := by
    intro param hparam
    obtain ⟨hname, hvalue⟩ := encodedParams_chars hlang param hparam
    refine ⟨fun hmem => ?_, fun hmem => unreserved_ne (hname _ hmem) rfl rfl⟩
    rcases List.mem_append.1 hmem with hmem | hmem
    · exact unreserved_ne (hname _ hmem) rfl rfl
    rcases List.mem_cons.1 hmem with hmem | hmem
    · cases hmem
    rcases hvalue _ hmem with hmem | hmem
    · cases hmem
    · cases hmem
  rw [appended, pairs_flatMap q hpieces, streamingPairs, streamingParams, encodedParams,
    List.map_append, List.map_append, List.map_map, List.map_map]
  congr 2
  · refine List.map_congr_left fun param hparam => ?_
    obtain ⟨hname, hvalue⟩ :=
      deepgramStreamingParams_unreserved (languageTag_unreserved hlang) param hparam
    rw [hplain hname, hplain hvalue]
  · refine List.map_congr_left fun keyterm _ => ?_
    show (decode "keyterm".toList, decode (percentEncode keyterm)) = _
    rw [hplain keyterm_unreserved, hencoded]
    rfl

/-! ## reading it -/

theorem appended_eq (language : Text) (keyterms : List Text) :
    appended language keyterms = '&' :: (appended language keyterms).tail := rfl

theorem streamingPairs_ne_nil (language : Text) (keyterms : List Text) :
    streamingPairs language keyterms ≠ [] := List.cons_ne_nil _ _

theorem pairs_tail (hlang : languageTagIsAllowed language = true) :
    Query.pairs (appended language keyterms).tail = streamingPairs language keyterms := by
  have h := @pairs_appended language keyterms hlang []
  rw [List.nil_append, appended_eq] at h
  exact (pairs_append [] (appended language keyterms).tail).symm.trans h

/-- blanks in front of what is appended stay -/
theorem trimMatches_append_plain {s t : Text} (hne : t ≠ [])
    (ht : ∀ c ∈ t, isC0ControlOrSpace c = false) :
    trimMatches isC0ControlOrSpace (s ++ t) = trimStartMatches isC0ControlOrSpace s ++ t := by
  have hall : t.all (fun c => !isC0ControlOrSpace c) = true :=
    List.all_eq_true.2 fun c hc => by rw [ht c hc]; rfl
  have hstart : trimStartMatches isC0ControlOrSpace (s ++ t) =
      trimStartMatches isC0ControlOrSpace s ++ t := by
    unfold trimStartMatches
    rw [List.dropWhile_append]
    split
    · next hempty =>
      rw [List.isEmpty_iff.1 hempty]
      exact trimStartMatches_of_headSep (headSep_of_all hall)
    · rfl
  rw [trimMatches, hstart]
  exact trimEndMatches_of_lastSep (by rw [lastSep_append_of_ne_nil hne]; exact lastSep_of_all hall)

section
variable {parser : UrlParser} {gated : Url} {base core blank : Text}

/-- with a fragment, no parameter is read -/
theorem not_carries_fragment (hgated : parser.read core = some gated) (h : '#' ∈ core) (t : Text) :
    ¬∃ sent, parser.read (core ++ t) = some sent ∧ sent.host = gated.host ∧
      sent.pairs = gated.pairs ++ streamingPairs language keyterms := by
  rintro ⟨sent, hsent, -, hpairs⟩
  obtain ⟨sent', hsent', -, hsame⟩ := UrlParser.read_fragment h hgated t
  obtain rfl : sent' = sent := Option.some.inj (hsent'.symm.trans hsent)
  rw [hsame] at hpairs
  exact streamingPairs_ne_nil language keyterms
    (List.append_cancel_left (hpairs.symm.trans (List.append_nil _).symm))

/-- behind a query, blanks are part of its last pair -/
theorem carries_query_iff (hlang : languageTagIsAllowed language = true)
    (hgated : parser.read core = some gated) (hquery : '?' ∈ core)
    (hblank : ∀ c ∈ blank, isC0ControlOrSpace c = true)
    (h : '#' ∉ core ++ (blank ++ appended language keyterms)) :
    (∃ sent, parser.read (core ++ (blank ++ appended language keyterms)) = some sent ∧
      sent.host = gated.host ∧ sent.pairs = gated.pairs ++ streamingPairs language keyterms) ↔
    blank = [] := by
  obtain ⟨sent, query, hq, hsent, hhost, hsentq⟩ := UrlParser.read_query h hquery hgated
  have hpairs : sent.pairs = Query.pairs (query ++ blank) ++ streamingPairs language keyterms := by
    rw [Url.pairs, hsentq, ← pairs_appended hlang, List.append_assoc]
    rfl
  have hgatedPairs : gated.pairs = Query.pairs query := by
    rw [Url.pairs, hq]
    rfl
  constructor
  · rintro ⟨sent', hsent', -, hsame⟩
    obtain rfl : sent = sent' := Option.some.inj (hsent.symm.trans hsent')
    rw [hpairs, hgatedPairs] at hsame
    by_contra hne
    exact pairs_ne hblank hne query (List.append_cancel_right hsame)
  · rintro rfl
    rw [List.append_nil] at hpairs
    exact ⟨sent, hsent, hhost, by rw [hpairs, hgatedPairs]⟩

/-- without a query, blanks are read with what stands before it -/
theorem carries_front_iff (hlang : languageTagIsAllowed language = true)
    (hgated : parser.read core = some gated) (hcore : '?' ∉ core) (hblank : '?' ∉ core ++ blank)
    (h : '#' ∉ core ++ blank ++ '?' :: (appended language keyterms).tail) :
    (∃ sent, parser.read (core ++ blank ++ '?' :: (appended language keyterms).tail) = some sent ∧
      sent.host = gated.host ∧ sent.pairs = gated.pairs ++ streamingPairs language keyterms) ↔
    (parser.front (core ++ blank)).map Url.host = (parser.front core).map Url.host := by
  have hsharp : '#' ∉ core := fun hmem =>
    h (List.mem_append_left _ (List.mem_append_left _ hmem))
  rw [UrlParser.read_plain hsharp hcore] at hgated
  obtain ⟨url, hfront, rfl⟩ := Option.map_eq_some_iff.1 hgated
  rw [UrlParser.read_front h hblank, hfront]
  cases hsent : parser.front (core ++ blank) with
  | none => simp
  | some sent =>
    have hpairs : Query.pairs (appended language keyterms).tail =
        Query.pairs [] ++ streamingPairs language keyterms := pairs_tail hlang
    simp [Url.pairs, hpairs]

end

/-- what is appended to an endpoint is not blank, and holds no `#` -/
theorem behind_endpoint (hlang : languageTagIsAllowed language = true) {sep c : Char}
    (hsep : sep = '&' ∨ sep = '?') (h : c ∈ sep :: (appended language keyterms).tail) :
    isC0ControlOrSpace c = false ∧ c ≠ '#' := by
  rcases List.mem_cons.1 h with rfl | h
  · rcases hsep with rfl | rfl <;> decide
  rcases mem_appended hlang (List.mem_of_mem_tail h) with hplain | hother
  · have hbounds := (isUnreserved_bounds hplain).1
    exact ⟨decide_eq_false (by omega), unreserved_ne hplain rfl⟩
  · simp only [List.mem_cons, List.not_mem_nil, or_false] at hother
    rcases hother with rfl | rfl | rfl <;> decide

/-- a separator is in an endpoint where it is in what the gate reads -/
theorem mem_trimMatches {d : Char} (hd : isC0ControlOrSpace d = false) (s : Text) :
    d ∈ trimMatches isC0ControlOrSpace s ↔ d ∈ s := by
  obtain ⟨g, g', hs, hg, hg'⟩ := trimMatches_split isC0ControlOrSpace s
  have hnot {w : Text} (hw : w.all isC0ControlOrSpace = true) : d ∉ w := fun hmem => by
    rw [List.all_eq_true.1 hw d hmem] at hd
    cases hd
  conv_rhs => rw [hs]
  simp only [List.mem_append, hnot hg, hnot hg', false_or, or_false]

/-- **the parameters are read behind those of the endpoint exactly when it is plain** -/
theorem deepgramStreamingUrl_iff (parser : UrlParser) (base language : Text) (keyterms : List Text)
    (hlang : languageTagIsAllowed language = true) (url : Text)
    (h : deepgramStreamingUrl parser base keyterms language = .ok url) :
    Carries parser base language keyterms url ↔ Plain parser base := by
  obtain ⟨⟨gated, hgated⟩, rfl⟩ := deepgramStreamingUrl_ok h
  rw [Carries, Plain]
  generalize normalized base = endpoint at hgated ⊢
  generalize hsep : (if '?' ∈ endpoint then '&' else '?') = sep
  have hsep' : sep = '&' ∨ sep = '?' := by
    rw [← hsep]
    split
    · exact .inl rfl
    · exact .inr rfl
  obtain ⟨blank, hstart, hall, -⟩ :=
    trimEndMatches_split isC0ControlOrSpace (trimStartMatches isC0ControlOrSpace endpoint)
  have hblank := List.all_eq_true.1 hall
  have hparse : parser.parse (endpoint ++ sep :: (appended language keyterms).tail) =
      parser.read (trimMatches isC0ControlOrSpace endpoint ++ blank ++
        sep :: (appended language keyterms).tail) := by
    rw [UrlParser.parse, trimMatches_append_plain (List.cons_ne_nil _ _)
      fun c hc => (behind_endpoint hlang hsep' hc).1]
    conv_lhs => rw [hstart]
    rfl
  have hsharp := mem_trimMatches (d := '#') rfl endpoint
  have hquery := mem_trimMatches (d := '?') rfl endpoint
  rw [hparse]
  conv_rhs => rw [hstart]
  change _ ↔ _ ∧ (trimMatches isC0ControlOrSpace endpoint =
    trimMatches isC0ControlOrSpace endpoint ++ blank ∨ _ ∧
      (parser.front (trimMatches isC0ControlOrSpace endpoint ++ blank)).map Url.host = _)
  simp only [← hsharp, ← hquery] at hsep ⊢
  rw [UrlParser.parse] at hgated ⊢
  generalize trimMatches isC0ControlOrSpace endpoint = core at *
  have hread : (∃ gated' sent, parser.read core = some gated' ∧
      parser.read (core ++ blank ++ sep :: (appended language keyterms).tail) = some sent ∧
      sent.host = gated'.host ∧
      sent.pairs = gated'.pairs ++ streamingPairs language keyterms) ↔
      ∃ sent, parser.read (core ++ blank ++ sep :: (appended language keyterms).tail) = some sent ∧
        sent.host = gated.host ∧ sent.pairs = gated.pairs ++ streamingPairs language keyterms := by
    rw [hgated]
    simp
  rw [hread]
  by_cases hmem : '#' ∈ core
  · rw [List.append_assoc]
    exact iff_of_false (not_carries_fragment hgated hmem _) fun h => h.1 hmem
  have hno : '#' ∉ core ++ blank ++ sep :: (appended language keyterms).tail := by
    rw [List.append_assoc]
    intro h
    rcases List.mem_append.1 h with h | h
    · exact hmem h
    rcases List.mem_append.1 h with h | h
    · exact blank_ne (hblank _ h) rfl rfl
    · exact (behind_endpoint hlang hsep' h).2 rfl
  by_cases hq : '?' ∈ core
  · rw [if_pos hq] at hsep
    subst hsep
    rw [List.append_assoc, ← appended_eq] at hno ⊢
    rw [carries_query_iff hlang hgated hq hblank hno]
    simp [hmem, hq]
  · rw [if_neg hq] at hsep
    subst hsep
    rw [carries_front_iff hlang hgated hq (not_mem_append_blank hblank rfl hq) hno]
    refine ⟨fun heq => ⟨hmem, .inr ⟨hq, heq⟩⟩, ?_⟩
    rintro ⟨-, heq | ⟨-, heq⟩⟩
    · rw [← heq]
    · exact heq

end

/-- the parser on the endpoint that the source connects to -/
def listenParser : UrlParser where
  front text :=
    if text = "wss://api.deepgram.com/v1/listen".toList then
      some
        { scheme := "wss".toList
          username := []
          password := none
          host := some (.domain "api.deepgram.com".toList)
          port := none
          path := "/v1/listen".toList
          query := none
          fragment := none }
    else none

theorem plain_listen : Plain listenParser "wss://api.deepgram.com/v1/listen".toList :=
  ⟨by decide +kernel, .inl (by decide +kernel)⟩

theorem deepgramStreamingUrl_listen :
    Carries listenParser "wss://api.deepgram.com/v1/listen".toList "en".toList
      [" a&b ".toList, " ".toList]
      ("wss://api.deepgram.com/v1/listen?model=nova-3&language=en&encoding=linear16".toList ++
        "&sample_rate=16000&channels=1&interim_results=true&smart_format=true".toList ++
        "&punctuate=true&endpointing=300&utterance_end_ms=1000&keyterm=a%26b".toList) :=
  (deepgramStreamingUrl_iff listenParser _ _ _ (by decide) _ (by decide +kernel)).mpr plain_listen

/-- a fragment takes every parameter -/
theorem deepgramStreamingUrl_fragment :
    languageTagIsAllowed "en".toList = true ∧
      ∃ url, deepgramStreamingUrl listenParser "wss://api.deepgram.com/v1/listen#eu".toList []
          "en".toList = .ok url ∧
        (listenParser.parse url).map Url.pairs = some [] ∧
        ¬Carries listenParser "wss://api.deepgram.com/v1/listen#eu".toList "en".toList [] url := by
  refine ⟨by decide, "wss://api.deepgram.com/v1/listen#eu".toList ++ '?' ::
    (appended "en".toList []).tail, by decide +kernel, by decide +kernel, ?_⟩
  rintro ⟨gated, sent, hgated, hsent, -, hpairs⟩
  have hnone : (listenParser.parse ("wss://api.deepgram.com/v1/listen#eu".toList ++ '?' ::
      (appended "en".toList []).tail)).map Url.pairs = some [] := by decide +kernel
  rw [hsent] at hnone
  rw [Option.some.inj hnone] at hpairs
  exact streamingPairs_ne_nil "en".toList [] (List.append_eq_nil_iff.1 hpairs.symm).2

end Voisu.Deepgram
