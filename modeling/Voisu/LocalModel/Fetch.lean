import Mathlib
import Voisu.Lib.Buffered
import Voisu.Lib.Lines
import Voisu.Lib.Strings
import Voisu.Lib.Substrings
import Voisu.Provider

/-!
# One hop of a catalog download

The response of a server, read from a stream that may be cut anywhere.  No deadline passes; the digest
of bytes is the library's.

* `readHeaders`           the bytes up to the blank line;
* `streamBody`            the body, handed to the sink;
* `readHttpHop`           one response;
* `readHttpHop_body_iff`  **there is a body exactly when the response is one that is accepted**, however
                          the stream is cut.
-/

namespace Voisu.Fetch
open Lib

def maxHeaderBytes : Nat := 16 * 1024
def chunkBytes : Nat := 64 * 1024
def u64Max : Nat := 2 ^ 64 - 1

def saturatingAdd (a b : Nat) : Nat := min (a + b) u64Max

/-! ## errors -/

inductive UrlPolicyError where
  | notHttps
  | userinfo
  | missingHost
  | hostNotCataloged (host : Text)
  | portNotHttps
  | ipHost
  | emptyPath
  | tooManyRedirects
deriving DecidableEq, Repr

inductive FetchError where
  | policy (error : UrlPolicyError)
  | redirectEscape (host : Text)
  | truncated (expected actual : Nat)
  | oversized (expected actual : Nat)
  | status (code : Nat)
  | io (text : Text)
  | noSpace
  | deadline
  | noProgress
deriving DecidableEq, Repr

/-- what is asked of an error of the system -/
structure IoError where
  noSpace : Bool
  timedOut : Bool
  text : Text
deriving DecidableEq, Repr

def ioErr (error : IoError) : FetchError :=
  if error.noSpace then .noSpace
  else if error.timedOut then .noProgress
  else .io error.text

structure FetchedSummary where
  bytes : Nat
  sha256Hex : Text
  hops : Nat
deriving DecidableEq, Repr

inductive HttpHop (τ : Type) where
  | redirect (location : Text)
  | body (body : τ)
deriving DecidableEq, Repr

abbrev Reader := Buffered UInt8 IoError

/-! ## the headers -/

def blankLine : List UInt8 := [13, 10, 13, 10]

/-- the bytes of a buffer are taken up to the blank line; `consumed` are -/
def takeHeaders (headers : List UInt8) : List UInt8 → Nat → Except FetchError (List UInt8 × Nat)
  | [], consumed => .ok (headers, consumed)
  | byte :: available, consumed =>
    if maxHeaderBytes < (headers ++ [byte]).length then
      .error (.io "HTTP headers exceed cap".toList)
    else if endsWith (headers ++ [byte]) blankLine then .ok (headers ++ [byte], consumed + 1)
    else takeHeaders (headers ++ [byte]) available (consumed + 1)

/-- a buffer that is not empty is used -/
theorem takeHeaders_consumed {headers available headers' : List UInt8} {consumed consumed' : Nat}
    (h : takeHeaders headers available consumed = .ok (headers', consumed')) :
    ∃ n ≤ available.length, consumed' = consumed + n ∧ headers' = headers ++ available.take n ∧
      (available ≠ [] → 0 < n) := by
  induction available generalizing headers consumed with
  | nil =>
    obtain ⟨rfl, rfl⟩ := Prod.mk.inj (Except.ok.inj h)
    exact ⟨0, Nat.le_refl _, rfl, (List.append_nil _).symm, fun hne => absurd rfl hne⟩
  | cons byte available ih =>
    rw [takeHeaders] at h
    split at h
    · cases h
    split at h
    · obtain ⟨rfl, rfl⟩ := Prod.mk.inj (Except.ok.inj h)
      exact ⟨1, by simp, rfl, rfl, fun _ => Nat.one_pos⟩
    · obtain ⟨n, hn, rfl, rfl, -⟩ := ih h
      refine ⟨n + 1, Nat.succ_le_succ hn, by omega, ?_, fun _ => n.succ_pos⟩
      rw [List.take_succ_cons, List.append_assoc, List.singleton_append]

def readHeaders (r : Reader) (headers : List UInt8) : Except FetchError (List UInt8 × Reader) :=
  match hfill : r.fill chunkBytes with
  | .error e => .error (ioErr e)
  | .ok filled =>
    if hempty : filled.buffer = [] then .error (.io "truncated HTTP headers".toList)
    else
      match htake : takeHeaders headers filled.buffer 0 with
      | .error e => .error e
      | .ok (headers', consumed) =>
        if endsWith headers' blankLine then .ok (headers', filled.consume consumed)
        else readHeaders (filled.consume consumed) headers'
termination_by r.symbols.length
decreasing_by
  obtain ⟨n, hn, rfl, -, hpos⟩ := takeHeaders_consumed htake
  have hsymbols := congrArg List.length (filled.symbols_consume (0 + n))
  rw [(Buffered.fill_ok (by decide) hfill).1, List.length_append, List.length_take] at hsymbols
  have := hpos hempty
  omega

def crlf : Text := ['\r', '\n']

def headerLines (text : Text) : List Text := splitStr crlf text

def statusOf (text : Text) : Option Nat :=
  (headerLines text).head?.bind fun line =>
    ((splitWhitespace line)[1]?).bind (parseUnsigned (2 ^ 16 - 1))

/-- the location so far, and whether a transfer encoding was seen -/
def readHeader (seen : Option Text × Bool) (line : Text) : Option Text × Bool :=
  match splitOnceAt ':' line with
  | none => seen
  | some (name, value) =>
    if eqIgnoreAsciiCase name "location".toList then (some (trim value), seen.2)
    else if eqIgnoreAsciiCase name "transfer-encoding".toList then (seen.1, true)
    else seen

def parseHttpHeaders (headers : List UInt8) : Except FetchError (HttpHop Unit) :=
  match fromUtf8 headers with
  | none => .error (.io "HTTP headers are not UTF-8".toList)
  | some text =>
    match statusOf text with
    | none => .error (.io "invalid HTTP status".toList)
    | some status =>
      let (location, transferEncoding) := (headerLines text).tail.foldl readHeader (none, false)
      if status = 200 then
        if transferEncoding then .error (.io "unsupported HTTP Transfer-Encoding".toList)
        else .ok (.body ())
      else if status ∈ [301, 302, 303, 307, 308] then
        match location with
        | none => .error (.io "redirect without Location".toList)
        | some location => .ok (.redirect location)
      else .error (.status status)

/-! ## the body -/

/-- a writer, and how many bytes it still has room for if that is bounded -/
structure Sink where
  written : List UInt8
  room : Option Nat
deriving DecidableEq, Repr

def Sink.Holds (sink : Sink) (n : Nat) : Prop := ∀ room, sink.room = some room → n ≤ room

def noSpaceLeft : IoError :=
  { noSpace := true, timedOut := false, text := "No space left on device (os error 28)".toList }

def Sink.writeAll (sink : Sink) (chunk : List UInt8) : Except IoError Unit × Sink :=
  match sink.room with
  | none => (.ok (), { sink with written := sink.written ++ chunk })
  | some room =>
    if chunk.length ≤ room then
      (.ok (), { written := sink.written ++ chunk, room := some (room - chunk.length) })
    else (.error noSpaceLeft, { written := sink.written ++ chunk.take room, room := some 0 })

def checkSize (actual expected : Nat) : Except FetchError Unit :=
  if actual < expected then .error (.truncated expected actual)
  else if expected < actual then .error (.oversized expected actual)
  else .ok ()

/-- at most one byte is asked for beyond those that are expected -/
def probe (expected bytes : Nat) : Nat := min (saturatingAdd (expected - bytes) 1) chunkBytes

theorem probe_pos (expected bytes : Nat) : 0 < probe expected bytes := by
  simp only [probe, saturatingAdd, chunkBytes, u64Max]
  omega

section
variable (sha256Hex : List UInt8 → Text)

/-- `hashed` is what the hash was fed with -/
def streamBody (expected : Nat) (r : Reader) (sink : Sink) (bytes : Nat) (hashed : List UInt8) :
    Except FetchError FetchedSummary × Sink :=
  match hread : r.read chunkBytes (probe expected bytes) with
  | .error e => (.error (ioErr e), sink)
  | .ok (chunk, r') =>
    if hempty : chunk = [] then
      ((checkSize bytes expected).map fun _ => { bytes, sha256Hex := sha256Hex hashed, hops := 0 },
        sink)
    else
      let actual := saturatingAdd bytes chunk.length
      if expected < actual then (.error (.oversized expected actual), sink)
      else
        match sink.writeAll chunk with
        | (.error e, sink) => (.error (ioErr e), sink)
        | (.ok (), sink) => streamBody expected r' sink actual (hashed ++ chunk)
termination_by r.symbols.length
decreasing_by
  obtain ⟨hsymbols, -⟩ := Buffered.read_ok (by decide) (probe_pos expected bytes) hread
  have hpos : 0 < chunk.length := List.length_pos_iff.2 hempty
  have := congrArg List.length hsymbols
  rw [List.length_append] at this
  omega

def readHttpHop (stream : List (Arrival UInt8 IoError)) (sink : Sink) (expected : Nat) :
    Except FetchError (HttpHop FetchedSummary) × Sink :=
  match readHeaders ⟨[], stream⟩ [] with
  | .error e => (.error e, sink)
  | .ok (headers, r) =>
    match parseHttpHeaders headers with
    | .error e => (.error e, sink)
    | .ok (.redirect location) => (.ok (.redirect location), sink)
    | .ok (.body ()) =>
      let (result, sink) := streamBody sha256Hex expected r sink 0 []
      (result.map .body, sink)

end

/-! ## the first blank line -/

/-- no blank line yet -/
def Open (headers : List UInt8) : Prop :=
  ∀ k ≤ headers.length, endsWith (headers.take k) blankLine = false

/-- headers are all that is sent up to the first blank line -/
structure Head (headers : List UInt8) : Prop where
  ends : endsWith headers blankLine = true
  first : ∀ k < headers.length, endsWith (headers.take k) blankLine = false

/-- the bytes begin with headers that are not too long -/
structure Headed (bytes headers rest : List UInt8) : Prop where
  split : bytes = headers ++ rest
  head : Head headers
  short : headers.length ≤ maxHeaderBytes

section
variable {bytes headers headers' rest rest' available : List UInt8} {r r' : Reader} {byte : UInt8}

theorem open_nil : Open [] := fun k _ => by rw [List.take_nil]; rfl

theorem Open.concat (h : Open headers) (hends : endsWith (headers ++ [byte]) blankLine = false) :
    Open (headers ++ [byte]) := by
  intro k hk
  rw [List.length_append, List.length_singleton] at hk
  rcases Nat.lt_or_eq_of_le hk with hlt | rfl
  · rw [List.take_append_of_le_length (Nat.le_of_lt_succ hlt)]
    exact h k (Nat.le_of_lt_succ hlt)
  · rw [List.take_of_length_le (by simp)]
    exact hends

theorem Open.head (h : Open headers) (hends : endsWith (headers ++ [byte]) blankLine = true) :
    Head (headers ++ [byte]) := by
  refine ⟨hends, fun k hk => ?_⟩
  rw [List.length_append, List.length_singleton] at hk
  rw [List.take_append_of_le_length (Nat.le_of_lt_succ hk)]
  exact h k (Nat.le_of_lt_succ hk)

/-- headers are longer than what holds no blank line -/
theorem Head.length_lt (h : Head headers') (hopen : Open headers)
    (heq : headers ++ rest = headers' ++ rest') : headers.length < headers'.length := by
  by_contra hle
  have htake : headers.take headers'.length = headers' := by
    have := congrArg (List.take headers'.length) heq
    rwa [List.take_append_of_le_length (Nat.le_of_not_lt hle), List.take_left] at this
  have hends := hopen headers'.length (Nat.le_of_not_lt hle)
  rw [htake, h.ends] at hends
  cases hends

theorem Headed.unique (h : Headed bytes headers rest) (h' : Headed bytes headers' rest') :
    headers = headers' ∧ rest = rest' := by
  have hle {a b x y : List UInt8} (ha : Head a) (hb : Head b) (heq : a ++ x = b ++ y) :
      a.length ≤ b.length := by
    by_contra hlt
    have htake : a.take b.length = b := by
      have := congrArg (List.take b.length) heq
      rwa [List.take_append_of_le_length (by omega), List.take_left] at this
    have hends := ha.first b.length (by omega)
    rw [htake, hb.ends] at hends
    cases hends
  have heq : headers ++ rest = headers' ++ rest' := h.split.symm.trans h'.split
  exact List.append_inj heq (Nat.le_antisymm (hle h.head h'.head heq) (hle h'.head h.head heq.symm))

/-- what one buffer adds to the headers -/
theorem takeHeaders_ok (hopen : Open headers) (hshort : headers.length ≤ maxHeaderBytes)
    {consumed consumed' : Nat} (h : takeHeaders headers available consumed = .ok (headers', consumed')) :
    headers'.length ≤ maxHeaderBytes ∧
      (endsWith headers' blankLine = true ∧ Head headers' ∨
        endsWith headers' blankLine = false ∧ Open headers') := by
  induction available generalizing headers consumed with
  | nil =>
    obtain ⟨rfl, rfl⟩ := Prod.mk.inj (Except.ok.inj h)
    have hend := hopen headers.length (Nat.le_refl _)
    rw [List.take_length] at hend
    exact ⟨hshort, .inr ⟨hend, hopen⟩⟩
  | cons byte available ih =>
    rw [takeHeaders] at h
    split at h
    · cases h
    next hcap =>
      split at h
      next hends =>
        obtain ⟨rfl, rfl⟩ := Prod.mk.inj (Except.ok.inj h)
        exact ⟨Nat.le_of_not_lt hcap, .inl ⟨hends, hopen.head hends⟩⟩
      next hends =>
        exact ih (hopen.concat (by simpa using hends)) (Nat.le_of_not_lt hcap) h

/-- a failure is headers that are too long -/
theorem takeHeaders_error (hopen : Open headers) (hshort : headers.length ≤ maxHeaderBytes)
    {consumed : Nat} {e : FetchError} (h : takeHeaders headers available consumed = .error e)
    (more : List UInt8) : ¬Headed (headers ++ available ++ more) headers' rest := by
  induction available generalizing headers consumed with
  | nil => cases h
  | cons byte available ih =>
    rw [takeHeaders] at h
    have hassoc : headers ++ byte :: available ++ more =
        headers ++ [byte] ++ available ++ more := by simp
    split at h
    next hcap =>
      intro hheaded
      have hlt := hheaded.head.length_lt hopen
        (show headers ++ (byte :: available ++ more) = _ by
          rw [← List.append_assoc]; exact hheaded.split)
      have := hheaded.short
      rw [List.length_append, List.length_singleton] at hcap
      omega
    next hcap =>
      split at h
      · cases h
      next hends =>
        rw [hassoc]
        exact ih (hopen.concat (by simpa using hends)) (Nat.le_of_not_lt hcap) h

theorem readHeaders_eq (r : Reader) (headers : List UInt8) :
    readHeaders r headers =
      match r.fill chunkBytes with
      | .error e => .error (ioErr e)
      | .ok filled =>
        if filled.buffer = [] then .error (.io "truncated HTTP headers".toList)
        else
          match takeHeaders headers filled.buffer 0 with
          | .error e => .error e
          | .ok (headers', consumed) =>
            if endsWith headers' blankLine then .ok (headers', filled.consume consumed)
            else readHeaders (filled.consume consumed) headers' := by
  rw [readHeaders]
  split
  next e hfill => rw [hfill]
  next filled hfill =>
    rw [hfill]
    dsimp only
    split
    · rfl
    · split
      next e htake => rw [htake]
      next htake => rw [htake]

/-- what the headers of a buffer leave -/
theorem taken_symbols {filled : Reader} {consumed : Nat} (hfill : r.fill chunkBytes = .ok filled)
    (htake : takeHeaders headers filled.buffer 0 = .ok (headers', consumed)) :
    headers ++ r.symbols = headers' ++ (filled.consume consumed).symbols := by
  obtain ⟨n, -, hconsumed, rfl, -⟩ := takeHeaders_consumed htake
  rw [Nat.zero_add] at hconsumed
  rw [hconsumed, ← (Buffered.fill_ok (by decide) hfill).1, filled.symbols_consume n,
    List.append_assoc]

/-- **what is read of the headers is what is sent up to the first blank line** -/
theorem readHeaders_ok (hopen : Open headers) (hshort : headers.length ≤ maxHeaderBytes)
    (h : readHeaders r headers = .ok (headers', r')) :
    Headed (headers ++ r.symbols) headers' r'.symbols ∧
      (Unbroken r'.stream ↔ Unbroken r.stream) := by
  induction r, headers using readHeaders.induct with
  | case1 r headers e hfill =>
    rw [readHeaders_eq, hfill] at h
    cases h
  | case2 r headers filled hfill hempty =>
    rw [readHeaders_eq, hfill] at h
    simp only [if_pos hempty] at h
    cases h
  | case3 r headers filled hfill hempty e htake =>
    rw [readHeaders_eq, hfill] at h
    simp only [if_neg hempty, htake] at h
    cases h
  | case4 r headers filled hfill hempty headers'' consumed htake hends =>
    rw [readHeaders_eq, hfill] at h
    simp only [if_neg hempty, htake, if_pos hends] at h
    obtain ⟨rfl, rfl⟩ := Prod.mk.inj (Except.ok.inj h)
    obtain ⟨hshort', hhead⟩ := takeHeaders_ok hopen hshort htake
    refine ⟨⟨taken_symbols hfill htake, ?_, hshort'⟩, (Buffered.fill_ok (by decide) hfill).2.1⟩
    rcases hhead with ⟨-, hhead⟩ | ⟨hnot, -⟩
    · exact hhead
    · rw [hends] at hnot
      cases hnot
  | case5 r headers filled hfill hempty headers'' consumed htake hends ih =>
    rw [readHeaders_eq, hfill] at h
    simp only [if_neg hempty, htake, if_neg hends] at h
    obtain ⟨hshort', hhead⟩ := takeHeaders_ok hopen hshort htake
    rcases hhead with ⟨hnot, -⟩ | ⟨-, hopen'⟩
    · exact absurd hnot hends
    · rw [taken_symbols hfill htake]
      obtain ⟨hheaded, hunbroken⟩ := ih hopen' hshort' h
      exact ⟨hheaded, hunbroken.trans (Buffered.fill_ok (by decide) hfill).2.1⟩

/-- **a failure is a stream that breaks, or one that does not begin with headers** -/
theorem readHeaders_error (hopen : Open headers) (hshort : headers.length ≤ maxHeaderBytes)
    {e : FetchError} (h : readHeaders r headers = .error e) (hunbroken : Unbroken r.stream) :
    ¬Headed (headers ++ r.symbols) headers' rest := by
  induction r, headers using readHeaders.induct with
  | case1 r headers e hfill => exact absurd hunbroken (Buffered.fill_error hfill)
  | case2 r headers filled hfill hempty =>
    rw [((Buffered.fill_ok (by decide) hfill).2.2 hempty).1, List.append_nil]
    intro hheaded
    have hlt := hheaded.head.length_lt hopen ((List.append_nil _).trans hheaded.split)
    have := congrArg List.length hheaded.split
    rw [List.length_append] at this
    omega
  | case3 r headers filled hfill hempty e' htake =>
    rw [← (Buffered.fill_ok (by decide) hfill).1, Buffered.symbols, ← List.append_assoc]
    exact takeHeaders_error hopen hshort htake _
  | case4 r headers filled hfill hempty headers'' consumed htake hends =>
    rw [readHeaders_eq, hfill] at h
    simp only [if_neg hempty, htake, if_pos hends] at h
    cases h
  | case5 r headers filled hfill hempty headers'' consumed htake hends ih =>
    rw [readHeaders_eq, hfill] at h
    simp only [if_neg hempty, htake, if_neg hends] at h
    obtain ⟨hshort', hhead⟩ := takeHeaders_ok hopen hshort htake
    rcases hhead with ⟨hnot, -⟩ | ⟨-, hopen'⟩
    · exact absurd hnot hends
    · rw [taken_symbols hfill htake]
      exact ih hopen' hshort' h ((Buffered.fill_ok (by decide) hfill).2.1.2 hunbroken)

end

/-! ## the headers that are accepted -/

def transferEncoded (text : Text) : Bool :=
  (headerLines text).tail.any fun line =>
    (splitOnceAt ':' line).any fun header => eqIgnoreAsciiCase header.1 "transfer-encoding".toList

/-- a status of 200, and no transfer encoding -/
structure Accepted (headers : List UInt8) (text : Text) : Prop where
  utf8 : fromUtf8 headers = some text
  status : statusOf text = some 200
  plain : transferEncoded text = false

theorem readHeader_snd (seen : Option Text × Bool) (line : Text) :
    (readHeader seen line).2 = (seen.2 ||
      (splitOnceAt ':' line).any fun header =>
        eqIgnoreAsciiCase header.1 "transfer-encoding".toList) := by
  rw [readHeader]
  cases splitOnceAt ':' line with
  | none => exact (Bool.or_false _).symm
  | some header =>
    obtain ⟨name, value⟩ := header
    dsimp only [Option.any_some]
    split
    next hlocation =>
      have hne : eqIgnoreAsciiCase name "transfer-encoding".toList = false := by
        rw [eqIgnoreAsciiCase, beq_iff_eq] at hlocation
        rw [eqIgnoreAsciiCase, hlocation]
        decide
      rw [hne, Bool.or_false]
    next =>
      split
      next hencoding => rw [hencoding, Bool.or_true]
      next hencoding => rw [Bool.eq_false_of_not_eq_true hencoding, Bool.or_false]

theorem foldl_readHeader_snd (seen : Option Text × Bool) (lines : List Text) :
    (lines.foldl readHeader seen).2 = (seen.2 ||
      lines.any fun line => (splitOnceAt ':' line).any fun header =>
        eqIgnoreAsciiCase header.1 "transfer-encoding".toList) := by
  induction lines generalizing seen with
  | nil => exact (Bool.or_false _).symm
  | cons line lines ih => rw [List.foldl_cons, ih, readHeader_snd, List.any_cons, Bool.or_assoc]

theorem parseHttpHeaders_body_iff {headers : List UInt8} :
    parseHttpHeaders headers = .ok (.body ()) ↔ ∃ text, Accepted headers text := by
  rw [parseHttpHeaders]
  cases htext : fromUtf8 headers with
  | none => exact iff_of_false nofun fun ⟨text, h⟩ => nomatch htext.symm.trans h.utf8
  | some text =>
    have hsome : (∃ text', Accepted headers text') ↔
        statusOf text = some 200 ∧ transferEncoded text = false := by
      constructor
      · rintro ⟨text', h⟩
        obtain rfl := Option.some.inj (htext.symm.trans h.utf8)
        exact ⟨h.status, h.plain⟩
      · exact fun h => ⟨text, htext, h.1, h.2⟩
    have hencoded : ((headerLines text).tail.foldl readHeader (none, false)).2 =
        transferEncoded text := foldl_readHeader_snd _ _
    rw [hsome]
    dsimp only
    cases hstatus : statusOf text with
    | none => exact iff_of_false nofun fun h => nomatch h.1
    | some status =>
      dsimp only
      rw [hencoded]
      by_cases hok : status = 200
      · subst hok
        cases transferEncoded text <;> simp
      · rw [if_neg hok]
        refine iff_of_false ?_ fun h => hok (Option.some.inj h.1)
        split
        · split <;> nofun
        · nofun

/-! ## the bytes of a body -/

theorem saturatingAdd_assoc (a b c : Nat) :
    saturatingAdd (saturatingAdd a b) c = saturatingAdd a (b + c) := by
  simp only [saturatingAdd]
  omega

section
variable {sink sink' : Sink} {chunk : List UInt8} {e : IoError}

theorem writeAll_ok (h : sink.writeAll chunk = (.ok (), sink')) :
    sink'.written = sink.written ++ chunk ∧
      ∀ n, sink'.Holds n ↔ sink.Holds (chunk.length + n) := by
  rw [Sink.writeAll] at h
  cases hroom : sink.room with
  | none =>
    simp only [hroom] at h
    obtain rfl := (Prod.mk.inj h).2
    simp [Sink.Holds, hroom]
  | some room =>
    simp only [hroom] at h
    split at h
    · obtain rfl := (Prod.mk.inj h).2
      refine ⟨rfl, fun n => ?_⟩
      simp only [Sink.Holds, hroom, Option.some.injEq, forall_eq']
      omega
    · cases (Prod.mk.inj h).1

theorem writeAll_error (h : sink.writeAll chunk = (.error e, sink')) :
    (∃ k, sink'.written = sink.written ++ chunk.take k) ∧
      ∀ n, ¬sink.Holds (chunk.length + n) := by
  rw [Sink.writeAll] at h
  cases hroom : sink.room with
  | none =>
    simp only [hroom] at h
    cases (Prod.mk.inj h).1
  | some room =>
    simp only [hroom] at h
    split at h
    · cases (Prod.mk.inj h).1
    · obtain rfl := (Prod.mk.inj h).2
      refine ⟨⟨room, rfl⟩, fun n hholds => ?_⟩
      have := hholds room hroom
      omega

end

/-! ## the body -/

section
variable {sha256Hex : List UInt8 → Text} {expected bytes : Nat} {r r' : Reader} {sink : Sink}
  {hashed : List UInt8}

theorem streamBody_eq (sha256Hex : List UInt8 → Text) (expected : Nat) (r : Reader) (sink : Sink)
    (bytes : Nat) (hashed : List UInt8) :
    streamBody sha256Hex expected r sink bytes hashed =
      match r.read chunkBytes (probe expected bytes) with
      | .error e => (.error (ioErr e), sink)
      | .ok (chunk, r') =>
        if chunk = [] then
          ((checkSize bytes expected).map fun _ =>
            { bytes, sha256Hex := sha256Hex hashed, hops := 0 }, sink)
        else if expected < saturatingAdd bytes chunk.length then
          (.error (.oversized expected (saturatingAdd bytes chunk.length)), sink)
        else
          match sink.writeAll chunk with
          | (.error e, sink) => (.error (ioErr e), sink)
          | (.ok (), sink) =>
            streamBody sha256Hex expected r' sink (saturatingAdd bytes chunk.length)
              (hashed ++ chunk) := by
  rw [streamBody]
  split
  next e hread => rw [hread]
  next chunk r' hread =>
    rw [hread]
    dsimp only
    split
    · rfl
    · split
      · rfl
      · rfl

/-- the body that is promised, of what is still to come -/
structure Fits (expected : Nat) (r : Reader) (sink : Sink) (bytes : Nat) : Prop where
  size : saturatingAdd bytes r.symbols.length = expected
  unbroken : Unbroken r.stream
  room : sink.Holds r.symbols.length

/-- what is promised of the outcome -/
structure Streamed (sha256Hex : List UInt8 → Text) (expected : Nat) (r : Reader) (sink : Sink)
    (bytes : Nat) (hashed : List UInt8) (out : Except FetchError FetchedSummary × Sink) : Prop where
  ok_iff : (∃ summary, out.1 = .ok summary) ↔ Fits expected r sink bytes
  summary : ∀ summary, out.1 = .ok summary →
    summary = { bytes := expected, sha256Hex := sha256Hex (hashed ++ r.symbols), hops := 0 }
  delivered : ∀ summary, out.1 = .ok summary → out.2.written = sink.written ++ r.symbols
  bounded : ∃ part, out.2.written = sink.written ++ part ∧ part <+: r.symbols ∧
    saturatingAdd bytes part.length ≤ expected

theorem Streamed.error {e : FetchError} {part : List UInt8} {sink' : Sink}
    (hfits : ¬Fits expected r sink bytes) (hwritten : sink'.written = sink.written ++ part)
    (hpart : part <+: r.symbols) (hle : saturatingAdd bytes part.length ≤ expected) :
    Streamed sha256Hex expected r sink bytes hashed (.error e, sink') where
  ok_iff := iff_of_false (fun ⟨_, h⟩ => nomatch h) hfits
  summary _ h := nomatch h
  delivered _ h := nomatch h
  bounded := ⟨part, hwritten, hpart, hle⟩

theorem Streamed.nothing {e : FetchError} (hbytes : bytes ≤ u64Max) (hle : bytes ≤ expected)
    (hfits : ¬Fits expected r sink bytes) :
    Streamed sha256Hex expected r sink bytes hashed (.error e, sink) :=
  Streamed.error hfits (List.append_nil _).symm (List.nil_prefix) (by
    rwa [List.length_nil, saturatingAdd, Nat.add_zero, Nat.min_eq_left hbytes])

/-- at the end the size is checked -/
theorem Streamed.ended (hbytes : bytes ≤ u64Max) (hle : bytes ≤ expected)
    (hsymbols : r.symbols = []) (hunbroken : Unbroken r.stream) :
    Streamed sha256Hex expected r sink bytes hashed
      ((checkSize bytes expected).map fun _ =>
        { bytes, sha256Hex := sha256Hex hashed, hops := 0 }, sink) := by
  have hsize : saturatingAdd bytes r.symbols.length = bytes := by
    rw [hsymbols]
    exact Nat.min_eq_left hbytes
  by_cases heq : bytes = expected
  · subst heq
    have hcheck : checkSize bytes bytes = .ok () := by simp [checkSize]
    rw [hcheck]
    refine ⟨iff_of_true ⟨_, rfl⟩ ⟨hsize, hunbroken, ?_⟩, fun summary h => ?_, fun _ _ => ?_,
      [], (List.append_nil _).symm, List.nil_prefix, ?_⟩
    · rw [hsymbols]
      exact fun _ _ => Nat.zero_le _
    · rw [hsymbols, List.append_nil]
      exact (Except.ok.inj h).symm
    · rw [hsymbols, List.append_nil]
    · exact Nat.min_le_left _ _
  · have hcheck : checkSize bytes expected = .error (.truncated expected bytes) := by
      rw [checkSize, if_pos (by omega)]
    rw [hcheck]
    exact Streamed.nothing hbytes hle fun hfits => heq (hsize.symm.trans hfits.size)

/-- **what becomes of a body** -/
theorem streamBody_streamed (hbytes : bytes ≤ u64Max) (hle : bytes ≤ expected) :
    Streamed sha256Hex expected r sink bytes hashed
      (streamBody sha256Hex expected r sink bytes hashed) := by
  induction r, sink, bytes, hashed using streamBody.induct expected with
  | case1 r sink bytes hashed e hread =>
    rw [streamBody_eq, hread]
    exact Streamed.nothing hbytes hle fun hfits => Buffered.read_error hread hfits.unbroken
  | case2 r sink bytes hashed r' hread =>
    obtain ⟨hsymbols, hunbroken⟩ :=
      (Buffered.read_ok (by decide) (probe_pos expected bytes) hread).2.2.2 rfl
    rw [streamBody_eq, hread]
    exact Streamed.ended hbytes hle hsymbols hunbroken
  | case3 r sink bytes hashed chunk r' hread hne actual hlarge =>
    obtain ⟨hsymbols, -⟩ := Buffered.read_ok (by decide) (probe_pos expected bytes) hread
    rw [streamBody_eq, hread]
    replace hlarge : expected < saturatingAdd bytes chunk.length := hlarge
    simp only [if_neg hne, if_pos hlarge]
    refine Streamed.nothing hbytes hle fun hfits => ?_
    have hsize := hfits.size
    rw [hsymbols, List.length_append, ← saturatingAdd_assoc] at hsize
    have hge : saturatingAdd bytes chunk.length ≤
        saturatingAdd (saturatingAdd bytes chunk.length) r'.symbols.length := by
      simp only [saturatingAdd]
      omega
    omega
  | case4 r sink bytes hashed chunk r' hread hne actual hlarge e sink' hwrite =>
    obtain ⟨hsymbols, -⟩ := Buffered.read_ok (by decide) (probe_pos expected bytes) hread
    obtain ⟨⟨k, hwritten⟩, hfull⟩ := writeAll_error hwrite
    rw [streamBody_eq, hread]
    replace hlarge : ¬expected < saturatingAdd bytes chunk.length := hlarge
    simp only [if_neg hne, if_neg hlarge, hwrite]
    refine Streamed.error (fun hfits => ?_) hwritten ?_ ?_
    · have hroom := hfits.room
      rw [hsymbols, List.length_append] at hroom
      exact hfull _ hroom
    · rw [hsymbols]
      exact (List.take_prefix k chunk).trans (List.prefix_append _ _)
    · have hpart : (chunk.take k).length ≤ chunk.length := List.length_take_le' _ _
      simp only [saturatingAdd] at hlarge ⊢
      omega
  | case5 r sink bytes hashed chunk r' hread hne actual hlarge sink' hwrite ih =>
    obtain ⟨hsymbols, hunbroken, -⟩ := Buffered.read_ok (by decide) (probe_pos expected bytes) hread
    obtain ⟨hwritten, hholds⟩ := writeAll_ok hwrite
    have ih := ih (Nat.min_le_right _ _) (Nat.le_of_not_lt hlarge)
    rw [streamBody_eq, hread]
    replace hlarge : ¬expected < saturatingAdd bytes chunk.length := hlarge
    simp only [if_neg hne, if_neg hlarge, hwrite]
    refine ⟨ih.ok_iff.trans ⟨fun h => ⟨?_, hunbroken.1 h.unbroken, ?_⟩,
      fun h => ⟨?_, hunbroken.2 h.unbroken, ?_⟩⟩, fun summary h => ?_, fun summary h => ?_, ?_⟩
    · rw [hsymbols, List.length_append, ← saturatingAdd_assoc]
      exact h.size
    · rw [hsymbols, List.length_append]
      exact (hholds _).1 h.room
    · have hsize := h.size
      rwa [hsymbols, List.length_append, ← saturatingAdd_assoc] at hsize
    · have hroom := h.room
      rw [hsymbols, List.length_append] at hroom
      exact (hholds _).2 hroom
    · rw [ih.summary summary h, hsymbols, List.append_assoc]
    · rw [ih.delivered summary h, hwritten, hsymbols, List.append_assoc]
    · obtain ⟨part, hpart, ⟨rest, hrest⟩, hbound⟩ := ih.bounded
      refine ⟨chunk ++ part, ?_, ⟨rest, ?_⟩, ?_⟩
      · rw [hpart, hwritten, List.append_assoc]
      · rw [hsymbols, ← hrest, List.append_assoc]
      · rwa [List.length_append, ← saturatingAdd_assoc]

/-! ## one response -/

/-- the response that is accepted: headers, and a body of the size that is expected, counted in a `u64`
that saturates -/
structure Answer (stream : List (Arrival UInt8 IoError)) (sink : Sink) (expected : Nat)
    (headers body : List UInt8) (text : Text) : Prop where
  headed : Headed (symbols stream) headers body
  accepted : Accepted headers text
  size : min body.length u64Max = expected
  unbroken : Unbroken stream
  room : sink.Holds body.length

variable {stream : List (Arrival UInt8 IoError)} {summary : FetchedSummary}

theorem start_symbols (stream : List (Arrival UInt8 IoError)) :
    [] ++ (⟨[], stream⟩ : Reader).symbols = symbols stream := rfl

/-- headers that are accepted lead to the body -/
theorem readHttpHop_cases (sha256Hex : List UInt8 → Text) (stream : List (Arrival UInt8 IoError))
    (sink : Sink) (expected : Nat) :
    (∃ headers r, readHeaders ⟨[], stream⟩ [] = .ok (headers, r) ∧
        (∃ text, Accepted headers text) ∧
        readHttpHop sha256Hex stream sink expected =
          ((streamBody sha256Hex expected r sink 0 []).1.map .body,
            (streamBody sha256Hex expected r sink 0 []).2)) ∨
      (∀ headers body text, ¬Answer stream sink expected headers body text) ∧
        (∀ summary, (readHttpHop sha256Hex stream sink expected).1 ≠ .ok (.body summary)) ∧
        (readHttpHop sha256Hex stream sink expected).2 = sink := by
  rw [readHttpHop]
  cases hread : readHeaders ⟨[], stream⟩ [] with
  | error e =>
    refine .inr ⟨fun headers body text h => ?_, fun summary => nofun, rfl⟩
    exact readHeaders_error open_nil (Nat.zero_le _) hread h.unbroken h.headed
  | ok read =>
    obtain ⟨headers, r⟩ := read
    have hheaded := (readHeaders_ok open_nil (Nat.zero_le _) hread).1
    rw [start_symbols] at hheaded
    have hnot (h : ∀ text, ¬Accepted headers text) (headers' body : List UInt8) (text : Text) :
        ¬Answer stream sink expected headers' body text := fun hanswer => by
      obtain ⟨rfl, -⟩ := hheaded.unique hanswer.headed
      exact h text hanswer.accepted
    dsimp only
    cases hparse : parseHttpHeaders headers with
    | error e =>
      refine .inr ⟨hnot fun text h => ?_, fun summary => nofun, rfl⟩
      rw [parseHttpHeaders_body_iff.2 ⟨text, h⟩] at hparse
      cases hparse
    | ok hop =>
      cases hop with
      | redirect location =>
        refine .inr ⟨hnot fun text h => ?_, fun summary => nofun, rfl⟩
        rw [parseHttpHeaders_body_iff.2 ⟨text, h⟩] at hparse
        cases hparse
      | body unit => exact .inl ⟨headers, r, rfl, parseHttpHeaders_body_iff.1 hparse, rfl⟩

theorem readHttpHop_answer {headers : List UInt8} {r : Reader}
    (hread : readHeaders ⟨[], stream⟩ [] = .ok (headers, r))
    {text : Text} (haccepted : Accepted headers text) :
    Fits expected r sink 0 ↔ Answer stream sink expected headers r.symbols text := by
  obtain ⟨hheaded, hunbroken⟩ := readHeaders_ok open_nil (Nat.zero_le _) hread
  rw [start_symbols] at hheaded
  have hsize : saturatingAdd 0 r.symbols.length = min r.symbols.length u64Max := by
    rw [saturatingAdd, Nat.zero_add]
  exact ⟨fun h => ⟨hheaded, haccepted, hsize.symm.trans h.size, hunbroken.1 h.unbroken, h.room⟩,
    fun h => ⟨hsize.trans h.size, hunbroken.2 h.unbroken, h.room⟩⟩

/-- **there is a body exactly when the response is accepted** -/
theorem readHttpHop_body_iff :
    (readHttpHop sha256Hex stream sink expected).1 = .ok (.body summary) ↔
      ∃ headers body text, Answer stream sink expected headers body text ∧
        summary = { bytes := expected, sha256Hex := sha256Hex body, hops := 0 } := by
  rcases readHttpHop_cases sha256Hex stream sink expected with
    ⟨headers, r, hread, ⟨text, haccepted⟩, heq⟩ | ⟨hnone, hne, -⟩
  · have hanswer := @readHttpHop_answer expected sink stream headers r hread text haccepted
    have hstreamed := @streamBody_streamed sha256Hex expected 0 r sink [] (Nat.zero_le _)
      (Nat.zero_le _)
    rw [heq]
    constructor
    · intro h
      cases hout : (streamBody sha256Hex expected r sink 0 []).1 with
      | error e =>
        rw [hout] at h
        cases h
      | ok summary' =>
        rw [hout] at h
        obtain rfl : summary' = summary := HttpHop.body.inj (Except.ok.inj h)
        exact ⟨headers, r.symbols, text, hanswer.1 (hstreamed.ok_iff.1 ⟨_, hout⟩),
          hstreamed.summary _ hout⟩
    · rintro ⟨headers', body, text', h, hsummary⟩
      obtain ⟨rfl, rfl⟩ := (readHeaders_ok open_nil (Nat.zero_le _) hread).1.unique h.headed
      obtain ⟨summary', hout⟩ := hstreamed.ok_iff.2
        (hanswer.2 ⟨h.headed, haccepted, h.size, h.unbroken, h.room⟩)
      rw [hout, hstreamed.summary _ hout, hsummary]
      rfl
  · exact iff_of_false (hne summary) fun ⟨_, _, _, h, _⟩ => hnone _ _ _ h

/-- **the sink then has the body** -/
theorem readHttpHop_written {headers body : List UInt8} {text : Text}
    (h : Answer stream sink expected headers body text) :
    (readHttpHop sha256Hex stream sink expected).2.written = sink.written ++ body := by
  rcases readHttpHop_cases sha256Hex stream sink expected with
    ⟨headers', r, hread, ⟨text', haccepted⟩, heq⟩ | ⟨hnone, -⟩
  · obtain ⟨rfl, rfl⟩ := (readHeaders_ok open_nil (Nat.zero_le _) hread).1.unique h.headed
    have hstreamed := @streamBody_streamed sha256Hex expected 0 r sink [] (Nat.zero_le _)
      (Nat.zero_le _)
    have hfits := (readHttpHop_answer hread haccepted).2
      ⟨h.headed, haccepted, h.size, h.unbroken, h.room⟩
    obtain ⟨summary, hout⟩ := hstreamed.ok_iff.2 hfits
    rw [heq]
    exact hstreamed.delivered _ hout
  · exact absurd h (hnone _ _ _)

/-- **a redirect writes nothing** -/
theorem readHttpHop_redirect {location : Text}
    (h : (readHttpHop sha256Hex stream sink expected).1 = .ok (.redirect location)) :
    (readHttpHop sha256Hex stream sink expected).2 = sink := by
  rcases readHttpHop_cases sha256Hex stream sink expected with
    ⟨headers, r, -, -, heq⟩ | ⟨-, -, hsink⟩
  · rw [heq] at h
    cases hout : (streamBody sha256Hex expected r sink 0 []).1 with
    | error e => rw [hout] at h; cases h
    | ok summary => rw [hout] at h; cases h
  · exact hsink

/-- **nothing is written beyond what is expected** -/
theorem readHttpHop_bounded (sha256Hex : List UInt8 → Text) (stream : List (Arrival UInt8 IoError))
    (sink : Sink) (expected : Nat) :
    ∃ part, (readHttpHop sha256Hex stream sink expected).2.written = sink.written ++ part ∧
      min part.length u64Max ≤ expected := by
  rcases readHttpHop_cases sha256Hex stream sink expected with
    ⟨headers, r, -, -, heq⟩ | ⟨-, -, hsink⟩
  · obtain ⟨part, hwritten, -, hle⟩ := (@streamBody_streamed sha256Hex expected 0 r sink []
      (Nat.zero_le _) (Nat.zero_le _)).bounded
    rw [saturatingAdd, Nat.zero_add] at hle
    exact ⟨part, by rw [heq]; exact hwritten, hle⟩
  · exact ⟨[], by rw [hsink, List.append_nil], Nat.zero_le _⟩

end

end Voisu.Fetch
