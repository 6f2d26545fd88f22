import Voisu.Json
import Voisu.Lib.Runs
import Voisu.Lib.Strings

/-!
# Word tokens of the formatter

A word is a maximal run of ASCII letters and digits, with the apostrophes that stand between two of
them.  The characters are marked first, and the words are the runs of the marked ones.

* `markWords`    whether each character belongs to a word;
* `wordTokens`   the words with their offsets;
* `mapWords`     the text with every word replaced by what a function makes of it.
-/

namespace Voisu.Formatting
open Lib

abbrev Token := Run Char

def isWordChar (c : Char) : Bool := isAsciiAlphanumeric c

def isApostrophe (c : Char) : Bool := c == '\'' || c == '’'

/-- the text begins with a character of a word -/
def startsWord : Text → Bool
  | [] => false
  | c :: _ => isWordChar c

/-- `inWord` says whether the character before the text belongs to a word -/
def markWords (inWord : Bool) : Text → List (Char × Bool)
  | [] => []
  | c :: rest =>
    let belongs := isWordChar c || (inWord && isApostrophe c && startsWord rest)
    (c, belongs) :: markWords belongs rest

def unmark (r : Run (Char × Bool)) : Token := ⟨r.start, r.text.map Prod.fst⟩

def wordTokens (text : Text) : List Token := (runs Prod.snd 0 (markWords false text)).map unmark

/-- the text from an offset on -/
def textFrom (n : Nat) (text : Text) : Text := ((cut n text).map Prod.snd).getD []

/-- the text up to an offset -/
def textTo (n : Nat) (text : Text) : Text := ((cut n text).map Prod.fst).getD []

/-- `text` starts at offset `off` and holds the words given -/
def mapWordsFrom (f : Token → Text) (off : Nat) (text : Text) : List Token → Text
  | [] => text
  | tok :: rest => textTo (tok.start - off) text ++ f tok ++
      mapWordsFrom f tok.stop (textFrom (tok.stop - off) text) rest

def mapWords (f : Token → Text) (text : Text) : Text := mapWordsFrom f 0 text (wordTokens text)

example : (wordTokens "it's  a-b 'c d''e".toList).map (fun t => (t.start, String.ofList t.text)) =
    [(0, "it's"), (6, "a"), (8, "b"), (11, "c"), (13, "d"), (16, "e")] := by decide

end Voisu.Formatting
