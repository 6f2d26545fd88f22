import Mathlib
import Voisu.Provider
import Voisu.Lib.Strings
import Voisu.Lib.Unicode

/-!
# Normalized words

The word-level view of a text that every guard of the decision pipeline shares: whitespace tokens
stripped to their alphanumeric content, lowercased, with contractions expanded.

* `normalizeToken`, `normalizedWords`   the normalization of one token, and of a text;
* `isSourceDerived`    every content word of a candidate is a word that some source contains;
* `wordEditDistance`, `charEditDistance`   the two-row edit distances.
-/

namespace Voisu.Decision
open Lib

def contractions : List (String × List String) :=
  [("aren't", ["are", "not"]), ("can't", ["can", "not"]), ("couldn't", ["could", "not"]),
    ("didn't", ["did", "not"]), ("doesn't", ["does", "not"]), ("don't", ["do", "not"]),
    ("hadn't", ["had", "not"]), ("hasn't", ["has", "not"]), ("haven't", ["have", "not"]),
    ("needn't", ["need", "not"]), ("isn't", ["is", "not"]), ("let's", ["let", "us"]),
    ("mustn't", ["must", "not"]), ("shan't", ["shall", "not"]), ("shouldn't", ["should", "not"]),
    ("they're", ["they", "are"]), ("wasn't", ["was", "not"]), ("we're", ["we", "are"]),
    ("weren't", ["were", "not"]), ("won't", ["will", "not"]), ("wouldn't", ["would", "not"]),
    ("you're", ["you", "are"]), ("i'm", ["i", "am"]), ("he's", ["he", "is"]),
    ("she's", ["she", "is"]), ("it's", ["it", "is"]), ("that's", ["that", "is"]),
    ("there's", ["there", "is"]), ("here's", ["here", "is"]), ("what's", ["what", "is"]),
    ("where's", ["where", "is"]), ("who's", ["who", "is"]), ("how's", ["how", "is"]),
    ("i've", ["i", "have"]), ("we've", ["we", "have"]), ("they've", ["they", "have"]),
    ("you've", ["you", "have"]), ("i'll", ["i", "will"]), ("we'll", ["we", "will"]),
    ("they'll", ["they", "will"]), ("you'll", ["you", "will"]), ("i'd", ["i", "would"]),
    ("he'd", ["he", "would"]), ("she'd", ["she", "would"]), ("we'd", ["we", "would"]),
    ("they'd", ["they", "would"]), ("you'd", ["you", "would"])]

/-- the characters a token keeps: the curly apostrophe straightened, then lowercased -/
def foldChar (c : Char) : Text :=
  if c.toNat == 0x2019 then ['\'']
  else if isAlphanumeric c || c == '\'' then charToLowercase c
  else []

def foldToken (word : Text) : Text := word.flatMap foldChar

def normalizeToken (word : Text) : List Text :=
  let folded := foldToken word
  match contractions.find? fun entry => entry.1.toList == folded with
  | some entry => entry.2.map String.toList
  | none => [folded.filter fun c => c != '\'']

/-- the non-empty parts of one token -/
def tokenParts (word : Text) : List Text := (normalizeToken word).filter fun part => !part.isEmpty

def normalizedWords (text : Text) : List Text := (splitWhitespace text).flatMap tokenParts

theorem normalizedWords_trim (text : Text) : normalizedWords (trim text) = normalizedWords text := by
  unfold normalizedWords
  rw [splitWhitespace_trim]

def stopwords : List String :=
  ["a", "an", "and", "or", "but", "of", "to", "in", "on", "at", "for", "with", "is", "are", "was",
    "were", "be", "been", "being", "am", "the", "this", "that", "these", "those", "it", "its",
    "as", "by", "from", "into", "onto", "over", "under", "out", "up", "down", "off", "so", "then",
    "than", "we", "you", "i", "he", "she", "they", "them", "our", "your", "my", "me", "his", "her",
    "their", "do", "does", "did", "not", "no", "yes", "if", "when", "while", "about", "before",
    "after", "near", "would", "could", "should", "will", "can", "um", "uh", "uhh", "yeah", "like",
    "just", "kind", "sort", "mean", "know", "well", "okay", "ok", "there", "here", "gonna",
    "wanna", "sorta", "kinda", "really", "actually"]

def isStopword (word : Text) : Bool := stopwords.any fun stop => stop.toList == word

def contentWords (words : List Text) : List Text := words.filter fun word => !isStopword word

/-- the set of content words, each once -/
def distinctContentWords (words : List Text) : List Text := (contentWords words).dedup

def isSourceDerived (candidate : Text) (sources : List SourceTranscript) : Bool :=
  let sourceWords := sources.flatMap fun source => normalizedWords source.text
  let candidateWords := normalizedWords candidate
  let content := contentWords candidateWords
  if content.isEmpty then
    !candidateWords.isEmpty && candidateWords.all fun word => sourceWords.contains word
  else content.all fun word => (contentWords sourceWords).contains word

theorem isSourceDerived_trim (candidate : Text) (sources : List SourceTranscript) :
    isSourceDerived (trim candidate) sources = isSourceDerived candidate sources := by
  unfold isSourceDerived
  rw [normalizedWords_trim]

/-! ## edit distances -/

section
variable {α : Type} [DecidableEq α]

/-- the cells of one row after the first, `left` being the cell before them -/
def editCells (a : α) (left : Nat) : List Nat → List α → List Nat
  | diagonal :: above :: previous, b :: right =>
    let cell := if a = b then diagonal else 1 + min (min diagonal left) above
    cell :: editCells a cell (above :: previous) right
  | _, _ => []

def editRow (a : α) (first : Nat) (previous : List Nat) (right : List α) : List Nat :=
  first :: editCells a first previous right

/-- the rows of the table, from row `index` on -/
def editRows (right : List α) : Nat → List Nat → List α → List Nat
  | _, previous, [] => previous
  | index, previous, a :: left => editRows right (index + 1) (editRow a (index + 1) previous right) left

def editDistance (left right : List α) : Nat :=
  (editRows right 0 (List.range (right.length + 1)) left).getLastD 0

end

def wordEditDistance (left right : List Text) : Nat := editDistance left right
def charEditDistance (left right : Text) : Nat := editDistance left right

end Voisu.Decision
