import Mathlib
import Voisu.LocalModel.Fetch
import Voisu.Url

/-!
# A catalog download

Hops from one address of the catalog to the next, and the response at the last.  The parser of
addresses and the network are the library's.

* `checkUrl`, `Allowed`   the addresses that may be contacted;
* `followRedirects`       the hops, whatever one hop does;
* `followRedirects_run`   they end after three redirects, at addresses that are allowed, with what the
                          last hop returned;
* `fetchTo`               the hops of a download;
* `fetchTo_ok`            **a download that succeeds has the body of its last response**.
-/

namespace Voisu.Fetch
open Lib

/-! ## the policy -/

def maxRedirects : Nat := 3

def checkUrl (url : Url) (allowedHosts : List Text) : Except UrlPolicyError Unit :=
  if url.scheme ≠ "https".toList then .error .notHttps
  else if !url.username.isEmpty || url.password.isSome then .error .userinfo
  else if url.port ≠ none ∧ url.port ≠ some 443 then .error .portNotHttps
  else
    match url.host with
    | some (.domain host) =>
      if host.isEmpty then .error .missingHost
      else if !allowedHosts.any fun candidate => eqIgnoreAsciiCase candidate host then
        .error (.hostNotCataloged host)
      else if url.path.isEmpty then .error .emptyPath
      else .ok ()
    | some _ => .error .ipHost
    | none => .error .missingHost

/-- `https` on its port, without user information, at a host of the list -/
structure Allowed (allowedHosts : List Text) (url : Url) : Prop where
  scheme : url.scheme = "https".toList
  username : url.username = []
  password : url.password = none
  port : url.port = none ∨ url.port = some 443
  host : ∃ name, url.host = some (.domain name) ∧
    ∃ candidate ∈ allowedHosts, eqIgnoreAsciiCase candidate name = true

theorem checkUrl_allowed {url : Url} {allowedHosts : List Text}
    (h : checkUrl url allowedHosts = .ok ()) : Allowed allowedHosts url := by
  rw [checkUrl] at h
  split at h
  · cases h
  next hscheme =>
    split at h
    · cases h
    next huser =>
      split at h
      · cases h
      next hport =>
        split at h
        next host hhost =>
          split at h
          · cases h
          split at h
          · cases h
          next hlisted =>
            simp only [Bool.or_eq_true, not_or, Bool.not_eq_true', Bool.not_eq_false,
              List.isEmpty_iff, Option.isSome_iff_ne_none, not_not] at huser
            refine ⟨not_not.1 hscheme, huser.1, huser.2, by tauto, host, hhost, ?_⟩
            simpa using hlisted
        · cases h
        · cases h

/-- an address that has been checked -/
structure CatalogUrl (allowedHosts : List Text) where
  https : Url
  checked : checkUrl https allowedHosts = .ok ()

/-- the library: addresses read, by themselves and against another -/
structure UrlCrate where
  parse : Text → Option Url
  join : Url → Text → Option Url

structure FetchRequest where
  url : Text
  allowedHosts : List Text
  expectedBytes : Nat
deriving DecidableEq, Repr

def FetchError.ofPolicy : UrlPolicyError → FetchError
  | .hostNotCataloged host => .redirectEscape host
  | error => .policy error

section
variable (crate : UrlCrate) {hosts : List Text}

def checked (hosts : List Text) (url : Option Url) : Except UrlPolicyError (CatalogUrl hosts) :=
  match url with
  | none => .error .notHttps
  | some url =>
    match hcheck : checkUrl url hosts with
    | .error e => .error e
    | .ok () => .ok ⟨url, hcheck⟩

def validateCatalogUrl (raw : Text) (hosts : List Text) : Except UrlPolicyError (CatalogUrl hosts) :=
  checked hosts (crate.parse raw)

def resolveRedirect (previous : CatalogUrl hosts) (location : Text) (hops : Nat) :
    Except UrlPolicyError (CatalogUrl hosts) :=
  if maxRedirects ≤ hops then .error .tooManyRedirects
  else checked hosts (crate.join previous.https location)

theorem resolveRedirect_lt {previous next : CatalogUrl hosts} {location : Text} {hops : Nat}
    (h : resolveRedirect crate previous location hops = .ok next) : hops < maxRedirects := by
  rw [resolveRedirect] at h
  split at h
  · cases h
  next hlt => exact Nat.lt_of_not_le hlt

/-! ## the hops -/

variable {τ σ : Type}

/-- what one hop does, to the state of the world -/
abbrev HopFn (hosts : List Text) (τ σ : Type) :=
  CatalogUrl hosts → σ → Except FetchError (HttpHop τ) × σ

def followFrom (hop : HopFn hosts τ σ) (current : CatalogUrl hosts) (hops : Nat) (s : σ) :
    Except FetchError (τ × Nat) × σ :=
  match hop current s with
  | (.error e, s) => (.error e, s)
  | (.ok (.body body), s) => (.ok (body, hops), s)
  | (.ok (.redirect location), s) =>
    match hnext : resolveRedirect crate current location hops with
    | .error e => (.error (FetchError.ofPolicy e), s)
    | .ok next => followFrom hop next (min (hops + 1) 255) s
termination_by maxRedirects - hops
decreasing_by
  have hlt := resolveRedirect_lt crate hnext
  simp only [maxRedirects] at hlt ⊢
  omega

def followRedirects (request : FetchRequest) (hop : HopFn request.allowedHosts τ σ) (s : σ) :
    Except FetchError (τ × Nat) × σ :=
  match validateCatalogUrl crate request.url request.allowedHosts with
  | .error e => (.error (FetchError.ofPolicy e), s)
  | .ok current => followFrom crate hop current 0 s

/-- the addresses that are contacted, kept beside the state -/
def traced (hop : HopFn hosts τ σ) : HopFn hosts τ (σ × List (CatalogUrl hosts)) :=
  fun url s => ((hop url s.1).1, ((hop url s.1).2, s.2 ++ [url]))

/-- a run of hops: the addresses contacted, and the outcome -/
inductive Hopped (hop : HopFn hosts τ σ) :
    Nat → σ → List (CatalogUrl hosts) → Except FetchError (τ × Nat) × σ → Prop
  | failed {url s s'} {e : FetchError} (hops : Nat) (h : hop url s = (.error e, s')) :
      Hopped hop hops s [url] (.error e, s')
  | body {url s s'} {body : τ} (hops : Nat) (h : hop url s = (.ok (.body body), s')) :
      Hopped hop hops s [url] (.ok (body, hops), s')
  | refused {url s s'} {location : Text} (hops : Nat) {e : UrlPolicyError}
      (h : hop url s = (.ok (.redirect location), s'))
      (hnext : resolveRedirect crate url location hops = .error e) :
      Hopped hop hops s [url] (.error (FetchError.ofPolicy e), s')
  | redirect {url next s s₁ urls out} {location : Text} {hops : Nat}
      (h : hop url s = (.ok (.redirect location), s₁))
      (hnext : resolveRedirect crate url location hops = .ok next) (hhead : urls.head? = some next)
      (rest : Hopped hop (hops + 1) s₁ urls out) : Hopped hop hops s (url :: urls) out

section
variable {crate} {hop : HopFn hosts τ σ} {hops : Nat} {s s' : σ} {urls : List (CatalogUrl hosts)}
  {out : Except FetchError (τ × Nat) × σ}

theorem followFrom_eq (hop : HopFn hosts τ σ) (current : CatalogUrl hosts) (hops : Nat) (s : σ) :
    followFrom crate hop current hops s =
      match hop current s with
      | (.error e, s) => (.error e, s)
      | (.ok (.body body), s) => (.ok (body, hops), s)
      | (.ok (.redirect location), s) =>
        match resolveRedirect crate current location hops with
        | .error e => (.error (FetchError.ofPolicy e), s)
        | .ok next => followFrom crate hop next (min (hops + 1) 255) s := by
  rw [followFrom]
  split
  · rfl
  · rfl
  · split
    next hnext => rw [hnext]
    next hnext => rw [hnext]

/-- **the loop runs through hops; a trace does not change them** -/
theorem followFrom_hopped (hop : HopFn hosts τ σ) (current : CatalogUrl hosts) (hops : Nat) (s : σ) :
    ∃ urls, Hopped crate hop hops s urls (followFrom crate hop current hops s) ∧
      urls.head? = some current ∧ ∀ seen, followFrom crate (traced hop) current hops (s, seen) =
        ((followFrom crate hop current hops s).1,
          ((followFrom crate hop current hops s).2, seen ++ urls)) := by
  induction hd : maxRedirects - hops using Nat.strong_induction_on generalizing current hops s with
  | _ d ih =>
    rw [followFrom_eq]
    have htrace (seen : List (CatalogUrl hosts)) :=
      @followFrom_eq crate _ _ _ (traced hop) current hops (s, seen)
    cases hhop : hop current s with
    | mk result s₁ =>
      simp only [traced, hhop] at htrace
      cases result with
      | error e => exact ⟨[current], .failed hops hhop, rfl, htrace⟩
      | ok one =>
        cases one with
        | body body => exact ⟨[current], .body hops hhop, rfl, htrace⟩
        | redirect location =>
          dsimp only at htrace ⊢
          cases hnext : resolveRedirect crate current location hops with
          | error e =>
            simp only [hnext] at htrace
            exact ⟨[current], .refused hops hhop hnext, rfl, htrace⟩
          | ok next =>
            have hlt := resolveRedirect_lt crate hnext
            have hmin : min (hops + 1) 255 = hops + 1 := by
              simp only [maxRedirects] at hlt
              omega
            simp only [hnext, hmin] at htrace ⊢
            obtain ⟨urls, hrun, hhead, hrest⟩ := ih (maxRedirects - (hops + 1)) (by omega) next
              (hops + 1) s₁ rfl
            refine ⟨current :: urls, .redirect hhop hnext hhead hrun, rfl, fun seen => ?_⟩
            have hassoc : seen ++ current :: urls = seen ++ [current] ++ urls := by simp
            rw [hassoc, htrace]
            exact hrest (seen ++ [current])

theorem Hopped.length_le (h : Hopped crate hop hops s urls out) (hle : hops ≤ maxRedirects) :
    urls.length + hops ≤ maxRedirects + 1 := by
  induction h with
  | failed | body | refused =>
    rw [List.length_singleton]
    omega
  | redirect _ hnext _ _ ih =>
    have := ih (resolveRedirect_lt crate hnext)
    rw [List.length_cons]
    omega

/-- a run that succeeds returns what its last hop returned -/
theorem Hopped.last (h : Hopped crate hop hops s urls out) {body : τ} {n : Nat}
    (hout : out = (.ok (body, n), s')) : urls.length + hops = n + 1 ∧
      ∃ last s₀, urls.getLast? = some last ∧ hop last s₀ = (.ok (.body body), s') := by
  induction h with
  | failed => cases hout
  | refused => cases hout
  | body hops h =>
    obtain ⟨hok, rfl⟩ := Prod.mk.inj hout
    obtain ⟨rfl, rfl⟩ := Prod.mk.inj (Except.ok.inj hok)
    exact ⟨Nat.add_comm _ _, _, _, rfl, h⟩
  | redirect h hnext hhead rest ih =>
    obtain ⟨hcount, last, s₀, hlast, hbody⟩ := ih hout
    refine ⟨by rw [List.length_cons]; omega, last, s₀, ?_, hbody⟩
    rw [List.getLast?_cons, hlast]
    rfl

end

/-- what is promised of the hops of a request: three redirects at most, addresses that are allowed, and
what the last hop returned, each hop at the address that the one before it led to -/
structure Followed (request : FetchRequest) (hop : HopFn request.allowedHosts τ σ) (s : σ)
    (urls : List (CatalogUrl request.allowedHosts)) : Prop where
  trace : followRedirects crate request (traced hop) (s, []) =
    ((followRedirects crate request hop s).1, ((followRedirects crate request hop s).2, urls))
  bounded : urls.length ≤ maxRedirects + 1
  allowed : ∀ url ∈ urls, Allowed request.allowedHosts url.https
  hopped : (∃ e, validateCatalogUrl crate request.url request.allowedHosts = .error e ∧ urls = [] ∧
      followRedirects crate request hop s = (.error (FetchError.ofPolicy e), s)) ∨
    ∃ current, validateCatalogUrl crate request.url request.allowedHosts = .ok current ∧
      urls.head? = some current ∧
      Hopped crate hop 0 s urls (followRedirects crate request hop s)
  last : ∀ body n s', followRedirects crate request hop s = (.ok (body, n), s') →
    urls.length = n + 1 ∧
      ∃ last s₀, urls.getLast? = some last ∧ hop last s₀ = (.ok (.body body), s')

theorem followRedirects_followed (request : FetchRequest) (hop : HopFn request.allowedHosts τ σ)
    (s : σ) : ∃ urls, Followed crate request hop s urls := by
  cases hvalid : validateCatalogUrl crate request.url request.allowedHosts with
  | error e =>
    have hnone (hop : HopFn request.allowedHosts τ σ) (s : σ) :
        followRedirects crate request hop s = (.error (FetchError.ofPolicy e), s) := by
      rw [followRedirects, hvalid]
    refine ⟨[], ?_, Nat.zero_le _, nofun, Or.inl ⟨e, hvalid, rfl, hnone hop s⟩, fun body n s' h => ?_⟩
    · rw [hnone, followRedirects, hvalid]
    · rw [hnone] at h
      cases h
  | ok current =>
    obtain ⟨urls, hrun, hhead, htrace⟩ := @followFrom_hopped crate _ _ _ hop current 0 s
    have hrun' : followRedirects crate request hop s = followFrom crate hop current 0 s := by
      rw [followRedirects, hvalid]
    refine ⟨urls, ?_, hrun.length_le (Nat.zero_le _), fun url _ => checkUrl_allowed url.checked,
      Or.inr ⟨current, hvalid, hhead, hrun'.symm ▸ hrun⟩, fun body n s' h => hrun.last (hrun'.symm.trans h)⟩
    rw [hrun', followRedirects, hvalid]
    exact htrace []

end

/-! ## a download -/

section
variable {ω : Type} (crate : UrlCrate) (sha256Hex : List UInt8 → Text)
  (net : Text → Text → ω → Except FetchError (List (Arrival UInt8 IoError)) × ω)

def requestText (url : Url) (host : Text) : Text :=
  "GET ".toList ++ (if url.path.isEmpty then ['/'] else url.path) ++
    (url.query.map fun query => '?' :: query).getD [] ++ " HTTP/1.1\r\nHost: ".toList ++ host ++
    "\r\nConnection: close\r\nUser-Agent: voisu-l3-catalog\r\n\r\n".toList

/-- `net` connects to a host, sends a request and gives the stream of the answer -/
def httpsGet {hosts : List Text} (expected : Nat) : HopFn hosts FetchedSummary (ω × Sink) :=
  fun url s =>
    match url.https.hostStr with
    | none => (.error (.policy .missingHost), s)
    | some host =>
      match checkUrl url.https [host] with
      | .error e => (.error (FetchError.ofPolicy e), s)
      | .ok () =>
        match net host (requestText url.https host) s.1 with
        | (.error e, world) => (.error e, (world, s.2))
        | (.ok stream, world) =>
          let (result, sink) := readHttpHop sha256Hex stream s.2 expected
          (result, (world, sink))

def fetchTo (request : FetchRequest) (s : ω × Sink) : Except FetchError FetchedSummary × ω × Sink :=
  let (result, s) := followRedirects crate request (httpsGet sha256Hex net request.expectedBytes) s
  (result.map fun fetched => { fetched.1 with hops := fetched.2 }, s)

variable {crate sha256Hex net} {hosts : List Text} {expected : Nat} {url : CatalogUrl hosts}
  {s s' : ω × Sink}

theorem httpsGet_redirect {location : Text}
    (h : httpsGet sha256Hex net expected url s = (.ok (.redirect location), s')) : s'.2 = s.2 := by
  rw [httpsGet] at h
  split at h
  · cases h
  split at h
  · cases h
  split at h
  · cases h
  next stream world _ =>
    obtain ⟨hresult, rfl⟩ := Prod.mk.inj h
    exact readHttpHop_redirect hresult

theorem httpsGet_body {summary : FetchedSummary}
    (h : httpsGet sha256Hex net expected url s = (.ok (.body summary), s')) :
    ∃ stream headers body text, Answer stream s.2 expected headers body text ∧
      s'.2.written = s.2.written ++ body ∧
      summary = { bytes := expected, sha256Hex := sha256Hex body, hops := 0 } := by
  rw [httpsGet] at h
  split at h
  · cases h
  split at h
  · cases h
  split at h
  · cases h
  next stream world _ =>
    obtain ⟨hresult, rfl⟩ := Prod.mk.inj h
    obtain ⟨headers, body, text, hanswer, hsummary⟩ := readHttpHop_body_iff.1 hresult
    exact ⟨stream, headers, body, text, hanswer, readHttpHop_written hanswer, hsummary⟩

/-- the body of the last response, behind what the sink had -/
theorem Hopped.answer {hops : Nat} {urls : List (CatalogUrl hosts)}
    {out : Except FetchError (FetchedSummary × Nat) × ω × Sink}
    (h : Hopped crate (httpsGet sha256Hex net expected) hops s urls out) {summary : FetchedSummary}
    {n : Nat} (hout : out = (.ok (summary, n), s')) :
    ∃ stream headers body text, Answer stream s.2 expected headers body text ∧
      s'.2.written = s.2.written ++ body ∧
      summary = { bytes := expected, sha256Hex := sha256Hex body, hops := 0 } := by
  induction h with
  | failed => cases hout
  | refused => cases hout
  | body hops h =>
    obtain ⟨hok, rfl⟩ := Prod.mk.inj hout
    obtain ⟨rfl, -⟩ := Prod.mk.inj (Except.ok.inj hok)
    exact httpsGet_body h
  | redirect h hnext hhead rest ih =>
    rw [← httpsGet_redirect h]
    exact ih hout

/-- **a download that succeeds has the body of its last response** -/
theorem fetchTo_ok {request : FetchRequest} {summary : FetchedSummary}
    (h : fetchTo crate sha256Hex net request s = (.ok summary, s')) :
    ∃ stream headers body text, Answer stream s.2 request.expectedBytes headers body text ∧
      s'.2.written = s.2.written ++ body ∧ summary.hops ≤ maxRedirects ∧
      summary = { bytes := request.expectedBytes, sha256Hex := sha256Hex body,
                  hops := summary.hops } := by
  rw [fetchTo, followRedirects] at h
  cases hvalid : validateCatalogUrl crate request.url request.allowedHosts with
  | error e =>
    rw [hvalid] at h
    cases h
  | ok current =>
    rw [hvalid] at h
    dsimp only at h
    obtain ⟨urls, hrun, -⟩ := @followFrom_hopped crate _ _ _
      (httpsGet sha256Hex net request.expectedBytes) current 0 s
    generalize followFrom crate (httpsGet sha256Hex net request.expectedBytes) current 0 s = out
      at hrun h
    obtain ⟨result, s''⟩ := out
    obtain ⟨hresult, rfl⟩ := Prod.mk.inj h
    cases result with
    | error e => cases hresult
    | ok fetched =>
      obtain rfl := Except.ok.inj hresult
      obtain ⟨stream, headers, body, text, hanswer, hwritten, hsummary⟩ := hrun.answer rfl
      have hcount := (hrun.last rfl).1
      have hbound := hrun.length_le (Nat.zero_le _)
      refine ⟨stream, headers, body, text, hanswer, hwritten, ?_, ?_⟩
      · show fetched.2 ≤ maxRedirects
        omega
      · dsimp only
        rw [hsummary]

end

/-- what is promised of one hop, for every way in which the stream is cut -/
structure Received (sha256Hex : List UInt8 → Text) (stream : List (Arrival UInt8 IoError))
    (sink : Sink) (expected : Nat) (out : Except FetchError (HttpHop FetchedSummary) × Sink) :
    Prop where
  body_iff : ∀ summary, out.1 = .ok (.body summary) ↔
    ∃ headers body text, Answer stream sink expected headers body text ∧
      summary = { bytes := expected, sha256Hex := sha256Hex body, hops := 0 }
  written : ∀ headers body text, Answer stream sink expected headers body text →
    out.2.written = sink.written ++ body
  redirect : ∀ location, out.1 = .ok (.redirect location) → out.2 = sink
  bounded : ∃ part, out.2.written = sink.written ++ part ∧ min part.length u64Max ≤ expected

/-- **a catalog download, hop by hop** -/
theorem catalogDownload (sha256Hex : List UInt8 → Text) (crate : UrlCrate) :
    (∀ stream sink expected,
      Received sha256Hex stream sink expected (readHttpHop sha256Hex stream sink expected)) ∧
    ∀ (τ σ : Type) (request : FetchRequest) (hop : HopFn request.allowedHosts τ σ) (s : σ),
      ∃ urls, Followed crate request hop s urls :=
  ⟨fun stream sink expected =>
    ⟨fun _ => readHttpHop_body_iff, fun _ _ _ => readHttpHop_written,
      fun _ => readHttpHop_redirect, readHttpHop_bounded sha256Hex stream sink expected⟩,
    fun _ _ => followRedirects_followed crate⟩

/-! ## a body that is too long to be counted -/

def okHeaders : List UInt8 := utf8 "HTTP/1.1 200 OK\r\n\r\n".toList

def okStream (body : List UInt8) : List (Arrival UInt8 IoError) := [.data 72 (okHeaders.tail ++ body)]

theorem okStream_answer {body : List UInt8} (h : u64Max ≤ body.length) :
    Answer (okStream body) ⟨[], none⟩ u64Max okHeaders body
      "HTTP/1.1 200 OK\r\n\r\n".toList where
  headed := ⟨List.append_nil _, ⟨by decide +kernel, by decide +kernel⟩, by decide +kernel⟩
  accepted := ⟨fromUtf8_utf8 _, by decide +kernel, by decide +kernel⟩
  size := Nat.min_eq_right h
  unbroken e := by simp [okStream]
  room := nofun

/-- one byte more than a `u64` counts is taken for as many as it counts -/
theorem readHttpHop_uncounted :
    ∃ summary, (readHttpHop (fun _ => []) (okStream (List.replicate (2 ^ 64) 0)) ⟨[], none⟩
        u64Max).1 = .ok (.body summary) ∧
      (List.replicate (2 ^ 64) (0 : UInt8)).length ≠ u64Max ∧
      u64Max < (readHttpHop (fun _ => []) (okStream (List.replicate (2 ^ 64) 0)) ⟨[], none⟩
        u64Max).2.written.length := by
  have hlength : (List.replicate (2 ^ 64) (0 : UInt8)).length = u64Max + 1 := List.length_replicate
  generalize List.replicate (2 ^ 64) (0 : UInt8) = body at hlength
  have hanswer := @okStream_answer body (by omega)
  refine ⟨_, readHttpHop_body_iff.2 ⟨_, _, _, hanswer, rfl⟩, by omega, ?_⟩
  rw [readHttpHop_written hanswer, List.length_append, hlength]
  exact Nat.lt_add_left _ (Nat.lt_succ_self _)

end Voisu.Fetch
