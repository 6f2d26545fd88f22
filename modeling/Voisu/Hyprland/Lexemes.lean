import Voisu.Hyprland.PasteAction

/-!
# A source as Lua reads it

The lexer of Voisu passes over most symbols and all long strings, and its comments open where those of
Lua do not.  Here are the lexemes that Lua reads, and the functions that they define.

* `lexemes`         names, literals and operators, without white space and comments;
* `helperBodies`    the bodies of every definition of a function, in order;
* `regroup`         the lexemes that the tokens of the lexer stand for, when nothing else is between;
* `ToldByTokens`    the tokens say all of the lexemes.
-/

namespace Voisu.Hyprland
open Lib

/-! ## lexemes -/

/-- a numeral is its digits: a point or an exponent behind them is a lexeme of its own -/
inductive Lexeme where
  | word (token : LuaToken)
  | longString (text : Text)
  | operator (symbols : Text)
deriving DecidableEq, Repr

def isLuaSpace (c : Char) : Bool := isAsciiWhitespace c || c == '\x0b'

/-- the operators of two characters -/
def operatorPairs : List Text :=
  ["==", "~=", "<=", ">=", "//", "::", "<<", ">>", ".."].map String.toList

/-- symbols that stand together, each operator as long as it can be -/
def munch : Text → List Text
  | '.' :: '.' :: '.' :: rest => ['.', '.', '.'] :: munch rest
  | c :: d :: rest =>
    if [c, d] ∈ operatorPairs then [c, d] :: munch rest else [c] :: munch (d :: rest)
  | [c] => [[c]]
  | [] => []

/-- the operators of a run of symbols -/
def operators (run : Text) : List Lexeme := (munch run).map .operator

/-- a piece that is one symbol, whether the lexer keeps it or not -/
def symbolOf : Piece × Text → Option Char
  | (.token (.symbol c), _) => some c
  | (.other, [c]) => if isLuaSpace c then none else some c
  | _ => none

/-- a word or a long string; white space and comments are neither -/
def lexemeOf : Piece × Text → Option Lexeme
  | (.longBracket _, text) => if text.head? = some '-' then none else some (.longString text)
  | (piece, _) => piece.token?.map .word

/-- the symbols of `run` stand right before the pieces -/
def lexemesFrom (run : Text) : List (Piece × Text) → List Lexeme
  | [] => operators run
  | piece :: pieces =>
    match symbolOf piece with
    | some c => lexemesFrom (run ++ [c]) pieces
    | none => operators run ++ (lexemeOf piece).toList ++ lexemesFrom [] pieces

/-- what Lua reads: a long comment opens with two brackets -/
def lexemes (source : Text) : List Lexeme :=
  match lexPieces .scanned source with
  | .ok pieces => lexemesFrom [] pieces
  | .error _ => []

/-! ## the functions of a source -/

def keyword (name : String) : Lexeme := .word (.identifier name.toList)

def op (symbols : String) : Lexeme := .operator symbols.toList

/-- the lexemes behind the bracket that opens the parameters, where a function of the name is defined:
by a statement, or by an assignment to the name alone -/
def definitionAt (name : Text) (previous : Option Lexeme) (lexemes : List Lexeme) :
    Option (List Lexeme) :=
  let named := .word (.identifier name)
  if [keyword "function", named, op "("] <+: lexemes then some (lexemes.drop 3)
  else if [named, op "=", keyword "function", op "("] <+: lexemes ∧
      previous ∉ [".", ":", ",", "\x7b"].map (fun symbols => some (op symbols)) then
    some (lexemes.drop 4)
  else none

/-- the lexemes up to the `end` of a block; `depth` blocks are open within it -/
def blockFrom (depth : Nat) : List Lexeme → Option (List Lexeme)
  | [] => none
  | lexeme :: rest =>
    if lexeme ∈ ["function", "if", "do", "repeat"].map keyword then
      (blockFrom (depth + 1) rest).map (lexeme :: ·)
    else if lexeme ∈ ["end", "until"].map keyword then
      match depth with
      | 0 => some []
      | depth + 1 => (blockFrom depth rest).map (lexeme :: ·)
    else (blockFrom depth rest).map (lexeme :: ·)

/-- the body behind the parameters -/
def functionBody (parameters : List Lexeme) : Option (List Lexeme) :=
  blockFrom 0 (parameters.dropWhile (· ≠ op ")")).tail

/-- the body of every definition, the later ones too, which replace those before them -/
def bodiesFrom (name : Text) (previous : Option Lexeme) :
    List Lexeme → List (Option (List Lexeme))
  | [] => []
  | lexeme :: rest =>
    ((definitionAt name previous (lexeme :: rest)).map functionBody).toList ++
      bodiesFrom name (some lexeme) rest

def helperBodies (source : Text) (helper : HelperFunction) : List (Option (List Lexeme)) :=
  bodiesFrom helper.name none (lexemes source)

example : helperBodies
    "function f() a() end function f() --[ x\n if b then return end end".toList
    { name := "f".toList, parameters := [], body := [] } =
    [some (lexemes "a()".toList), some (lexemes "if b then return end".toList)] := by decide +kernel

/-! ## lexemes and tokens -/

/-- the tokens of the lexer -/
def Lexeme.tokens : Lexeme → List LuaToken
  | word token => [token]
  | longString _ => []
  | operator run => (run.filter fun c => c ∈ symbols).map .symbol

/-- the symbols of `run` stand right before the tokens -/
def regroupFrom (run : Text) : List LuaToken → List Lexeme
  | [] => operators run
  | .symbol c :: tokens => regroupFrom (run ++ [c]) tokens
  | token :: tokens => operators run ++ .word token :: regroupFrom [] tokens

def regroup (tokens : List LuaToken) : List Lexeme := regroupFrom [] tokens

/-- no symbol and no long string is lost on the lexer, and no operator is written apart -/
def ToldByTokens (body : List Lexeme) : Prop := regroup (body.flatMap Lexeme.tokens) = body

instance (body : List Lexeme) : Decidable (ToldByTokens body) :=
  inferInstanceAs (Decidable (_ = _))

/-- **bodies that their tokens tell are the same when their tokens are** -/
theorem ToldByTokens.ext {a b : List Lexeme} (ha : ToldByTokens a) (hb : ToldByTokens b)
    (h : a.flatMap Lexeme.tokens = b.flatMap Lexeme.tokens) : a = b := by
  rw [← ha, ← hb, h]

/-- a delay and the negative of it have the same tokens, of which one tells less -/
example : lexLua "timeout = -50".toList = lexLua "timeout = 50".toList ∧
    ToldByTokens (lexemes "timeout = 50".toList) ∧
    ¬ ToldByTokens (lexemes "timeout = -50".toList) := by decide +kernel

end Voisu.Hyprland
