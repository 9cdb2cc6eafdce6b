import Symbology.Text.Hex

namespace Symbology

structure EntityId where
  value : BitVec 128
  deriving DecidableEq, Repr

namespace EntityId

def ofNat (n : Nat) : EntityId :=
  ⟨BitVec.ofNat 128 n⟩

def hexDigits : Nat → Nat → List Char
  | 0, _ => []
  | n + 1, v => hexDigits n (v / 16) ++ [Nat.digitChar (v % 16)]

def chars (id : EntityId) : List Char :=
  let ds := hexDigits 32 id.value.toNat
  ds.take 8 ++ '-' :: (ds.drop 8).take 4 ++ '-' :: (ds.drop 12).take 4 ++
    '-' :: (ds.drop 16).take 4 ++ '-' :: ds.drop 20

def text (id : EntityId) : String :=
  String.ofList id.chars

def digitsValue? (cs : List Char) : Option Nat :=
  cs.foldlM (fun n c => (Text.hexValue? c).map (16 * n + ·)) 0

def ofDigits? (cs : List Char) : Option EntityId :=
  if cs.length = 32 then (digitsValue? cs).map ofNat else none

def ofHyphenated? (cs : List Char) : Option EntityId :=
  let hyphens := [8, 13, 18, 23]
  if cs.length = 36 && hyphens.all (cs[·]? = some '-') then
    ofDigits? (cs.take 8 ++ (cs.drop 9).take 4 ++ (cs.drop 14).take 4 ++ (cs.drop 19).take 4 ++
      cs.drop 24)
  else none

def ofChars? (cs : List Char) : Option EntityId :=
  if cs.length = 32 then ofDigits? cs
  else match cs with
    | '{' :: rest => if rest.getLast? = some '}' then ofHyphenated? rest.dropLast else none
    | 'u' :: 'r' :: 'n' :: ':' :: 'u' :: 'u' :: 'i' :: 'd' :: ':' :: rest => ofHyphenated? rest
    | cs => ofHyphenated? cs

def ofText? (s : String) : Option EntityId :=
  ofChars? s.toList

end EntityId
end Symbology
