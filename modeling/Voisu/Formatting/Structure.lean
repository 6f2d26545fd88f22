import Mathlib
import Voisu.Formatting.Protection
import Voisu.Lib.Lines

/-!
# The structural rewrites

What the formatter leaves alone as a whole, and the rewrites that it tries on a text without
commands: a shopping list, a counted enumeration, the greeting and the update of an email.

* `isShellCommandLine`, `isAlreadyCorrectIdentity`   texts that stay as they are;
* `tryBulletInference`       `buy …` becomes a list;
* `tryCountedEnumeration`    the text from a count word on is put together again from its words;
* `applyEmailHiName`         the text up to the name is put together again from its words;
* `splitEmailUpdateSentence` a sentence break in `update i will`.
-/

namespace Voisu.Formatting
open Lib

def isTerminal (c : Char) : Bool := c == '.' || c == '!' || c == '?'

/-- `ends_with(['.', '!', '?'])` -/
def endsTerminal (s : Text) : Bool := s.getLast?.any isTerminal

def isWord (words : List String) (w : Text) : Bool := words.any fun v => asciiLowercase w == v.toList

/-! ## texts that stay as they are -/

def shellVerbs : List String :=
  ["run", "ls", "cd", "cat", "grep", "git", "curl", "ssh", "sudo", "rm", "cp", "mv", "chmod",
    "chown", "docker", "kubectl", "python", "python3", "pip", "cargo", "npm", "make", "systemctl"]

/-- a leading `$` is a prompt -/
def stripPrompt (s : Text) : Text :=
  match s with
  | '$' :: rest => trimStart rest
  | s => s

def isShellCommandLine (text : Text) : Bool :=
  let t := trim text
  if t.getLast? == some '.' then false
  else match splitWhitespace (stripPrompt t) with
    | [] => false
    | first :: args =>
      isWord shellVerbs first &&
        (args.any (startsWith · ['-']) ||
          args.head?.any (fun p => isWord shellVerbs p || isWord ["cargo", "npm", "make"] p) ||
          args.head?.any (fun p => p.contains '/' || startsWith p ['.']))

def startsWithNumberedMarker (line : Text) : Bool :=
  let digits := line.takeWhile isAsciiDigit
  !digits.isEmpty && startsWith (line.drop digits.length) ". ".toList

def isAllTitleCaseWords (text : Text) : Bool :=
  let words := (wordTokens text).map Run.text
  decide (2 ≤ words.length) &&
    words.all fun w => w.head?.any fun c => isUppercase c || !isAlphabetic c

def isAlreadyCorrectIdentity (text : Text) : Bool :=
  isShellCommandLine text ||
    (text.contains '\n' &&
      (strLines text).all (fun l => (trim l).isEmpty || startsWithNumberedMarker (trim l)) &&
      (strLines text).any startsWithNumberedMarker) ||
    (endsTerminal text && text.head?.any isUppercase) ||
    (!text.contains '\n' && !endsTerminal text && isAllTitleCaseWords text)

def isNumberedListRender (text : Text) : Bool :=
  text.contains '\n' && (strLines text).all fun l =>
    (trim l).isEmpty || startsWithNumberedMarker (trim l) || startsWith (trim l) "- ".toList

/-! ## a shopping list -/

def clauseMarkers : List String :=
  ["when", "if", "because", "while", "although", "after", "before", "unless", "that", "which", "who"]

/-- a clause marker, or `and then` -/
def hasClause : List Text → Bool
  | [] => false
  | w :: rest => isWord clauseMarkers w ||
      (isWord ["and"] w && rest.head?.any (isWord ["then"])) || hasClause rest

def isItemChar (c : Char) : Bool := isAlphanumeric c || c == '-' || c == '\''

/-- the items, without the commas around them; `none` when one is not a plain word -/
def bulletItems : List Text → Option (List Text)
  | [] => some []
  | w :: rest =>
    let cleaned := trimMatches (· == ',') w
    if cleaned.isEmpty then bulletItems rest
    else if cleaned.all isItemChar then (bulletItems rest).map (cleaned :: ·)
    else none

def renderBullets (items : List Text) : Text :=
  "Buy:".toList ++ items.flatMap fun item => "\n- ".toList ++ item

def tryBulletInference (text : Text) (protection : Mask) : Option Text :=
  if spanTouchesProtection 0 (byteLen text) protection then none
  else match splitWhitespace text with
    | [] => none
    | first :: rest =>
      if !isWord ["buy"] first || rest.length < 3 || hasClause rest then none
      else match bulletItems rest with
        | none => none
        | some items => if items.length < 3 then none else some (renderBullets items)

/-! ## a counted enumeration -/

def countWords : List (String × Nat) :=
  [("two", 2), ("2", 2), ("three", 3), ("3", 3), ("four", 4), ("4", 4), ("five", 5), ("5", 5),
    ("six", 6), ("6", 6), ("seven", 7), ("7", 7), ("eight", 8), ("8", 8), ("nine", 9), ("9", 9),
    ("ten", 10), ("10", 10), ("eleven", 11), ("11", 11), ("twelve", 12), ("12", 12)]

def countWordValue (w : Text) : Option Nat :=
  (countWords.find? fun entry => asciiLowercase w == entry.1.toList).map Prod.snd

/-- the words before the first count word, the count word with its value, the words after it -/
def splitAtCount : List Token → Option (List Token × Token × Nat × List Token)
  | [] => none
  | tok :: rest =>
    match countWordValue tok.text with
    | some n => some ([], tok, n, rest)
    | none => (splitAtCount rest).map fun (before, found) => (tok :: before, found)

/-- the words before and after the last `and` -/
def splitAtLastAnd (words : List Text) : Option (List Text × List Text) :=
  match words.reverse.findIdx? (isWord ["and"]) with
  | some k => some (words.take (words.length - 1 - k), words.drop (words.length - k))
  | none => none

/-- `slice::join` -/
def joinText (sep : Text) (words : List Text) : Text := sep.intercalate words

/-- the items before `and`: surplus words go to the first -/
def leadingItems (before : List Text) (need : Nat) : List Text :=
  let extra := before.length - need
  if extra = 0 then before
  else joinText [' '] (before.take (extra + 1)) :: before.drop (extra + 1)

def enumerationBody (n : Nat) (items : List Text) (last : Text) : Text :=
  if n = 2 then joinText [] items ++ " and ".toList ++ last
  else joinText ", ".toList items ++ ", and ".toList ++ last

def tryCountedEnumeration (text : Text) (protection : Mask) : Option Text :=
  let tokens := wordTokens text
  if tokens.length < 5 then none
  else match splitAtCount tokens with
    | some (_, count, n, noun :: after) =>
      if after.isEmpty || n < 2 then none
      else match splitAtLastAnd (after.map Run.text) with
        | some (before, afterAnd) =>
          if before.isEmpty || afterAnd.isEmpty || before.length < n - 1 then none
          else
            let items := leadingItems before (n - 1)
            if items.length + 1 ≠ n then none
            else if spanTouchesProtection count.start (byteLen text) protection then none
            else some (textTo count.start text ++ count.text ++ [' '] ++ noun.text ++
              ": ".toList ++ enumerationBody n items (joinText [' '] afterAnd))
        | none => none
    | _ => none

/-! ## the greeting and the update of an email -/

def capitalizeWord : Text → Text
  | [] => []
  | c :: rest => toAsciiUppercase c :: rest

def applyEmailHiName (text : Text) (protection : Mask) : Text :=
  match wordTokens text with
  | hi :: name :: _ =>
    if !tokenIs "hi" hi || !name.text.all isAsciiAlphabetic ||
        spanTouchesProtection hi.start name.stop protection then text
    else "Hi ".toList ++ capitalizeWord name.text ++ ", ".toList ++
      trimStart (textFrom name.stop text)
  | _ => text

/-- the text before and after the first occurrence of a word, ignoring ASCII case -/
def splitAtCi (word : Text) : Text → Option (Text × Text)
  | [] => none
  | c :: rest =>
    if startsWith (asciiLowercase (c :: rest)) word then some ([], (c :: rest).drop word.length)
    else (splitAtCi word rest).map fun p => (c :: p.1, p.2)

def updateIWill : Text := "update i will".toList

def splitEmailUpdateSentence (text : Text) (protection : Mask) : Text :=
  match splitAtCi updateIWill text with
  | none => text
  | some (before, after) =>
    let start := byteLen before
    if spanTouchesProtection start (start + byteLen updateIWill) protection then text
    else before ++ (text.drop before.length).take 6 ++ ". I will".toList ++ after

end Voisu.Formatting
