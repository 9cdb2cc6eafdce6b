import Symbology.Double.Notation
import Symbology.Json.Basic

namespace Symbology.Json

def doubleNotation : Double.Notation where
  least := -5
  greatest := 15
  keepsPoint := true
  signsExponent := true
  tie := .even
  notANumber := "null"
  infinity := "null"

def Number.chars : Number → List Char
  | .int n => if n < 0 then '-' :: n.natAbs.repr.toList else n.natAbs.repr.toList
  | .double x => if x.isFinite then doubleNotation.chars x else ['n', 'u', 'l', 'l']

def escapeChar (c : Char) : List Char :=
  if c = '"' then ['\\', '"']
  else if c = '\\' then ['\\', '\\']
  else if c = '\x08' then ['\\', 'b']
  else if c = '\x0c' then ['\\', 'f']
  else if c = '\n' then ['\\', 'n']
  else if c = '\r' then ['\\', 'r']
  else if c = '\t' then ['\\', 't']
  else if c.toNat < 0x20 then
    ['\\', 'u', '0', '0', Nat.digitChar (c.toNat / 16), Nat.digitChar (c.toNat % 16)]
  else [c]

def textChars (s : String) : List Char :=
  '"' :: s.toList.flatMap escapeChar ++ ['"']

mutual

def chars : Json → List Char
  | .null => ['n', 'u', 'l', 'l']
  | .bool true => ['t', 'r', 'u', 'e']
  | .bool false => ['f', 'a', 'l', 's', 'e']
  | .num n => n.chars
  | .str s => textChars s
  | .arr items => '[' :: itemChars items ++ [']']
  | .obj members => '{' :: memberChars members ++ ['}']

def itemChars : List Json → List Char
  | [] => []
  | [v] => chars v
  | v :: w :: rest => chars v ++ ',' :: itemChars (w :: rest)

def memberChars : List (String × Json) → List Char
  | [] => []
  | [(k, v)] => textChars k ++ ':' :: chars v
  | (k, v) :: m :: rest => textChars k ++ ':' :: chars v ++ ',' :: memberChars (m :: rest)

end

def text (v : Json) : String :=
  String.ofList v.chars

end Symbology.Json
