import Voisu.Provider
import Voisu.Lib.Query

/-!
# Addresses

What the source asks of a parsed address.  The parser is the library's; of it, only how an address
falls apart is fixed: blanks at the ends are cut off, the first `#` starts the fragment, and the first
`?` before it the query.

* `UrlParser.parse`   an address, read;
* `Url.pairs`         the pairs of its query.
-/

namespace Voisu
open Lib Lib.Query

/-- an address of sixteen bytes comes with the text that the parser prints for it -/
inductive Host where
  | domain (name : Text)
  | ipv4 (a b c d : UInt8)
  | ipv6 (address : BitVec 128) (text : Text)
deriving DecidableEq, Repr

def Host.text : Host → Text
  | .domain name => name
  | .ipv4 a b c d => ['.'].intercalate ([a, b, c, d].map fun n => natText n.toNat)
  | .ipv6 _ text => text

def Host.isLoopback : Host → Bool
  | .domain name => name == "localhost".toList
  | .ipv4 a _ _ _ => a == 127
  | .ipv6 address _ => address == 1

structure Url where
  scheme : Text
  username : Text
  password : Option Text
  host : Option Host
  port : Option Nat
  path : Text
  query : Option Text
  fragment : Option Text
deriving DecidableEq, Repr

def Url.hostStr (url : Url) : Option Text := url.host.map Host.text

/-- the library: what stands before the query, read -/
structure UrlParser where
  front : Text → Option Url

/-- the text before a separator, and the text behind it if there is one -/
def cutAt (sep : Char) (s : Text) : Text × Option Text :=
  match splitOnceAt sep s with
  | some (before, behind) => (before, some behind)
  | none => (s, none)

/-- an address without blanks at its ends -/
def UrlParser.read (parser : UrlParser) (text : Text) : Option Url :=
  let (address, fragment) := cutAt '#' text
  let (front, query) := cutAt '?' address
  (parser.front front).map fun url => { url with query, fragment }

def UrlParser.parse (parser : UrlParser) (text : Text) : Option Url :=
  parser.read (trimMatches isC0ControlOrSpace text)

def Url.pairs (url : Url) : List (List UInt8 × List UInt8) := Query.pairs (url.query.getD [])

section
variable {sep : Char} {s t : Text}

theorem cutAt_append (h : sep ∉ s) (t : Text) : cutAt sep (s ++ sep :: t) = (s, some t) := by
  rw [cutAt, splitOnceAt_append h]

theorem cutAt_none (h : sep ∉ s) : cutAt sep s = (s, none) := by
  rw [cutAt, splitOnceAt, if_neg h]

/-- what is appended comes behind the first separator -/
theorem cutAt_behind (h : sep ∈ s) : ∃ before behind, sep ∉ before ∧ s = before ++ sep :: behind ∧
    ∀ t, cutAt sep (s ++ t) = (before, some (behind ++ t)) := by
  obtain ⟨before, behind, rfl, hbefore⟩ := List.eq_append_cons_of_mem h
  refine ⟨before, behind, hbefore, rfl, fun t => ?_⟩
  rw [List.append_assoc, List.cons_append, cutAt_append hbefore]

/-! ## a text behind an address -/

variable {parser : UrlParser} {gated : Url}

/-- behind a `#` a text is part of the fragment -/
theorem UrlParser.read_fragment (h : '#' ∈ s) (hread : parser.read s = some gated) (t : Text) :
    ∃ sent, parser.read (s ++ t) = some sent ∧ sent.host = gated.host ∧ sent.pairs = gated.pairs := by
  obtain ⟨before, behind, -, -, hcut⟩ := cutAt_behind h
  have hcore := hcut []
  simp only [List.append_nil] at hcore
  simp only [UrlParser.read, hcut t, hcore] at hread ⊢
  obtain ⟨url, hfront, rfl⟩ := Option.map_eq_some_iff.1 hread
  rw [hfront]
  exact ⟨_, rfl, rfl, rfl⟩

/-- behind a `?` it is part of the query -/
theorem UrlParser.read_query (h : '#' ∉ s ++ t) (hquery : '?' ∈ s)
    (hread : parser.read s = some gated) :
    ∃ sent query, gated.query = some query ∧ parser.read (s ++ t) = some sent ∧
      sent.host = gated.host ∧ sent.query = some (query ++ t) := by
  obtain ⟨before, behind, -, -, hcut⟩ := cutAt_behind hquery
  have hcore := hcut []
  simp only [List.append_nil] at hcore
  have hs : '#' ∉ s := fun hmem => h (List.mem_append_left _ hmem)
  simp only [UrlParser.read, cutAt_none h, cutAt_none hs, hcut t, hcore] at hread ⊢
  obtain ⟨url, hfront, rfl⟩ := Option.map_eq_some_iff.1 hread
  rw [hfront]
  exact ⟨_, _, rfl, rfl, rfl, rfl⟩

/-- a `?` starts the query -/
theorem UrlParser.read_front (h : '#' ∉ s ++ '?' :: t) (hquery : '?' ∉ s) :
    parser.read (s ++ '?' :: t) =
      (parser.front s).map fun url => { url with query := some t, fragment := none } := by
  simp only [UrlParser.read, cutAt_none h, cutAt_append hquery]

theorem UrlParser.read_plain (h : '#' ∉ s) (hquery : '?' ∉ s) :
    parser.read s = (parser.front s).map fun url => { url with query := none, fragment := none } := by
  simp only [UrlParser.read, cutAt_none h, cutAt_none hquery]

end

end Voisu
