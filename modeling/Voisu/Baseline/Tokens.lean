import Voisu.Json
import Voisu.Lib.Strings

/-!
# Tokens of the local baseline

The whitespace tokens that `local_baseline.rs` and `vocabulary.rs` share, with the two masks over
them.

* `wordTokens`             the tokens of a text with their offsets;
* `quotePairsAndSkip`      the spoken `quote … unquote` pairs, cues included;
* `metalinguisticMask`     the tokens after `words`, up to `out`, `loud` or `aloud`.
-/

namespace Voisu.Baseline
open Lib

abbrev Token := Run Char

def wordTokens (text : Text) : List Token := runs notWhitespace 0 text

/-- the token in lowercase, without a comma or a period behind it -/
def spokenCueToken (tok : Text) : Text :=
  let lower := asciiLowercase tok
  if endsWith lower [','] || endsWith lower ['.'] then lower.dropLast else lower

def isQuoteCue (tok : Token) : Bool := spokenCueToken tok.text == "quote".toList
def isUnquoteCue (tok : Token) : Bool := spokenCueToken tok.text == "unquote".toList

/-- the pairs from token `i` on; `skip` tokens still belong to the last pair -/
def quotePairsFrom (i skip : Nat) : List Token → List (Nat × Nat)
  | [] => []
  | tok :: rest =>
    if 0 < skip then quotePairsFrom (i + 1) (skip - 1) rest
    else if isQuoteCue tok then
      match rest.findIdx? isUnquoteCue with
      | some k => (i, i + 1 + k) :: quotePairsFrom (i + 1) (k + 1) rest
      | none => quotePairsFrom (i + 1) 0 rest
    else quotePairsFrom (i + 1) 0 rest

def quotePairs (tokens : List Token) : List (Nat × Nat) := quotePairsFrom 0 0 tokens

def quotePairsAndSkip (tokens : List Token) : List (Nat × Nat) × List Bool :=
  (quotePairs tokens,
    tokens.mapIdx fun i _ => (quotePairs tokens).any fun pair => pair.1 ≤ i && i ≤ pair.2)

def isMentionEnd (lower : Text) : Bool :=
  lower == "out".toList || lower == "loud".toList || lower == "aloud".toList

/-- `mentioned` tells that an earlier `words` reaches this token -/
def metalinguisticMaskFrom (mentioned : Bool) : List Token → List Bool
  | [] => []
  | tok :: rest =>
    let lower := asciiLowercase tok.text
    if isMentionEnd lower then false :: metalinguisticMaskFrom false rest
    else mentioned :: metalinguisticMaskFrom (mentioned || lower == "words".toList) rest

def metalinguisticMask (tokens : List Token) : List Bool := metalinguisticMaskFrom false tokens

end Voisu.Baseline
