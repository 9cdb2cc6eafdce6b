import Symbology.Json.Number
import Symbology.Text.Hex

/-!
Reading JSON text from left to right. A reader takes what it reads off the front of the text; the
first fault it meets decides. Each loop is bounded by the length of the text.
-/

namespace Symbology.Json

inductive ReadError where
  | incomplete
  | malformed
  | unsuited
  deriving DecidableEq, Repr

abbrev Reader (α : Type) :=
  List Char → Except ReadError (α × List Char)

@[simp] theorem ok_bind (a : α) (f : α → Except ReadError β) : Except.ok a >>= f = f a :=
  rfl

theorem bind_eq_ok {x : Except ReadError α} {f : α → Except ReadError β} {b : β} :
    x >>= f = .ok b ↔ ∃ a, x = .ok a ∧ f a = .ok b := by
  cases x <;> simp [bind, Except.bind]

def isSpace (c : Char) : Bool :=
  c = ' ' || c = '\n' || c = '\t' || c = '\r'

def skipSpace (cs : List Char) : List Char :=
  cs.dropWhile isSpace

def isDigit (c : Char) : Bool :=
  '0' ≤ c && c ≤ '9'

def word : List Char → Reader Unit
  | [], cs => .ok ((), cs)
  | _ :: _, [] => .error .incomplete
  | w :: ws, c :: cs => if w = c then word ws cs else .error .malformed

/-- At least one digit; `cut` is the fault if the text ends instead. -/
def someDigits (cut : ReadError) : Reader (List Char) := fun cs =>
  match cs.takeWhile isDigit with
  | [] => .error (if cs.isEmpty then cut else .malformed)
  | ds => .ok (ds, cs.dropWhile isDigit)

def wholeDigits (cut : ReadError) : Reader (List Char) := fun cs => do
  let (ds, cs) ← someDigits cut cs
  match ds with
  | '0' :: _ :: _ => .error .malformed
  | ds => .ok (ds, cs)

def fractionDigits (cut : ReadError) : Reader (Option (List Char))
  | '.' :: cs => do
      let (ds, cs) ← someDigits cut cs
      .ok (some ds, cs)
  | cs => .ok (none, cs)

def exponentSign : List Char → Bool × List Char
  | '-' :: cs => (true, cs)
  | '+' :: cs => (false, cs)
  | cs => (false, cs)

def exponentDigits (cut : ReadError) : Reader (Option (Bool × List Char)) := fun cs =>
  match cs with
  | [] => .ok (none, [])
  | c :: rest =>
      if c = 'e' ∨ c = 'E' then do
        let (negative, rest) := exponentSign rest
        let (ds, rest) ← someDigits cut rest
        .ok (some (negative, ds), rest)
      else .ok (none, c :: rest)

def minus : List Char → Bool × List Char
  | '-' :: cs => (true, cs)
  | cs => (false, cs)

def literal (cut : ReadError) : Reader Literal := fun cs => do
  let (negative, cs) := minus cs
  let (whole, cs) ← wholeDigits cut cs
  let (fraction, cs) ← fractionDigits cut cs
  let (exponent, cs) ← exponentDigits cut cs
  .ok ({ negative, whole, fraction, exponent }, cs)

def number : Reader Number := fun cs => do
  let (l, cs) ← literal .incomplete cs
  match l.number? with
  | none => .error .malformed
  | some n => .ok (n, cs)

/-- Four hexadecimal digits. Fewer than four remaining bytes count as the end of the text. -/
def hexUnit : Reader Nat
  | a :: b :: c :: d :: rest =>
      match Text.hexValue? a, Text.hexValue? b, Text.hexValue? c, Text.hexValue? d with
      | some a, some b, some c, some d => .ok (((a * 16 + b) * 16 + c) * 16 + d, rest)
      | _, _, _, _ => .error .malformed
  | cs => if (String.ofList cs).utf8ByteSize < 4 then .error .incomplete else .error .malformed

def isLeadSurrogate (n : Nat) : Bool :=
  0xd800 ≤ n && n ≤ 0xdbff

def isTrailSurrogate (n : Nat) : Bool :=
  0xdc00 ≤ n && n ≤ 0xdfff

def trailUnit : Reader Nat
  | [] => .error .incomplete
  | ['\\'] => .error .incomplete
  | '\\' :: 'u' :: cs => do
      let (n, cs) ← hexUnit cs
      if isTrailSurrogate n then .ok (n, cs) else .error .malformed
  | _ => .error .malformed

def unitEscape : Reader Char := fun cs => do
  let (n, cs) ← hexUnit cs
  if isTrailSurrogate n then .error .malformed
  else if isLeadSurrogate n then do
    let (m, cs) ← trailUnit cs
    .ok (Char.ofNat ((n - 0xd800) * 0x400 + (m - 0xdc00) + 0x10000), cs)
  else .ok (Char.ofNat n, cs)

def simpleEscape? : Char → Option Char
  | '"' => some '"'
  | '\\' => some '\\'
  | '/' => some '/'
  | 'b' => some '\x08'
  | 'f' => some '\x0c'
  | 'n' => some '\n'
  | 'r' => some '\r'
  | 't' => some '\t'
  | _ => none

def escape : Reader Char
  | [] => .error .incomplete
  | c :: cs =>
      if c = 'u' then unitEscape cs
      else match simpleEscape? c with
        | some e => .ok (e, cs)
        | none => .error .malformed

def looseEscape : Reader Char
  | [] => .error .incomplete
  | c :: cs =>
      if c = 'u' then do
        let (_, cs) ← hexUnit cs
        .ok (c, cs)
      else match simpleEscape? c with
        | some e => .ok (e, cs)
        | none => .error .malformed

def characters (escape : Reader Char) : Nat → Reader (List Char)
  | 0, _ => .error .incomplete
  | _ + 1, [] => .error .incomplete
  | n + 1, c :: cs =>
      if c = '"' then .ok ([], cs)
      else if c = '\\' then do
        let (e, cs) ← escape cs
        let (s, cs) ← characters escape n cs
        .ok (e :: s, cs)
      else if c.toNat < 0x20 then .error .malformed
      else do
        let (s, cs) ← characters escape n cs
        .ok (c :: s, cs)

def stringBody : Reader String := fun cs => do
  let (s, cs) ← characters escape cs.length cs
  .ok (String.ofList s, cs)

def looseString : Reader String := fun cs => do
  let (_, cs) ← characters looseEscape cs.length cs
  .ok ("", cs)

def items (item : Reader α) : Nat → Reader (List α)
  | 0, _ => .error .incomplete
  | n + 1, cs => do
      let (x, cs) ← item cs
      match skipSpace cs with
      | [] => .error .incomplete
      | c :: cs =>
          if c = ']' then .ok ([x], cs)
          else if c = ',' then do
            let (xs, cs) ← items item n cs
            .ok (x :: xs, cs)
          else .error .malformed

def arrayBody (item : Reader α) : Reader (List α) := fun cs =>
  match skipSpace cs with
  | ']' :: cs => .ok ([], cs)
  | cs => items item cs.length cs

def colon : Reader Unit := fun cs =>
  match skipSpace cs with
  | [] => .error .incomplete
  | c :: cs => if c = ':' then .ok ((), cs) else .error .malformed

def members (key : Reader String) (member : σ → String → Reader σ) : Nat → σ → Reader σ
  | 0, _, _ => .error .incomplete
  | n + 1, s, cs =>
      match skipSpace cs with
      | [] => .error .incomplete
      | c :: cs =>
          if c = '"' then do
            let (k, cs) ← key cs
            let (s, cs) ← member s k cs
            match skipSpace cs with
            | [] => .error .incomplete
            | c :: cs =>
                if c = '}' then .ok (s, cs)
                else if c = ',' then members key member n s cs
                else .error .malformed
          else .error .malformed

def objectBody (key : Reader String) (member : σ → String → Reader σ) (s : σ) : Reader σ :=
  fun cs =>
    match skipSpace cs with
    | '}' :: cs => .ok (s, cs)
    | cs => members key member cs.length s cs

def insertInto (value : Reader Json) (ms : List (String × Json)) (key : String) :
    Reader (List (String × Json)) := fun cs => do
  let (_, cs) ← colon cs
  let (v, cs) ← value cs
  .ok (insertMember key v ms, cs)

def valueWith (inner : Option (Reader Json)) : Reader Json := fun cs =>
  match skipSpace cs with
  | [] => .error .incomplete
  | c :: cs =>
      if c = 'n' then do
        let (_, cs) ← word ['u', 'l', 'l'] cs
        .ok (.null, cs)
      else if c = 't' then do
        let (_, cs) ← word ['r', 'u', 'e'] cs
        .ok (.bool true, cs)
      else if c = 'f' then do
        let (_, cs) ← word ['a', 'l', 's', 'e'] cs
        .ok (.bool false, cs)
      else if c = '"' then do
        let (s, cs) ← stringBody cs
        .ok (.str s, cs)
      else if c = '-' ∨ isDigit c then do
        let (n, cs) ← number (c :: cs)
        .ok (.num n, cs)
      else match inner with
        | none => .error .malformed
        | some value =>
            if c = '[' then do
              let (vs, cs) ← arrayBody value cs
              .ok (.arr vs, cs)
            else if c = '{' then do
              let (ms, cs) ← objectBody stringBody (insertInto value) [] cs
              .ok (.obj ms, cs)
            else .error .malformed

def value : Nat → Reader Json
  | 0 => valueWith none
  | depth + 1 => valueWith (some (value depth))

def skipMember (skip : Reader Unit) (_ : Unit) (_ : String) : Reader Unit := fun cs => do
  let (_, cs) ← colon cs
  skip cs

def skipNested : Nat → Reader Unit
  | 0, _ => .error .incomplete
  | depth + 1, cs =>
      match skipSpace cs with
      | [] => .error .incomplete
      | c :: cs =>
          if c = 'n' then word ['u', 'l', 'l'] cs
          else if c = 't' then word ['r', 'u', 'e'] cs
          else if c = 'f' then word ['a', 'l', 's', 'e'] cs
          else if c = '"' then do
            let (_, cs) ← looseString cs
            .ok ((), cs)
          else if c = '-' ∨ isDigit c then do
            let (_, cs) ← literal .malformed (c :: cs)
            .ok ((), cs)
          else if c = '[' then do
            let (_, cs) ← arrayBody (skipNested depth) cs
            .ok ((), cs)
          else if c = '{' then objectBody looseString (skipMember (skipNested depth)) () cs
          else .error .malformed

def skip : Reader Unit := fun cs =>
  skipNested (cs.length + 1) cs

/-- Reads past a value that has the wrong type. Words, numbers and strings are read first, so that
a fault of their own comes before the wrong type. -/
def wrongType : Reader α := fun cs =>
  match skipSpace cs with
  | [] => .error .incomplete
  | c :: cs =>
      if c = '[' ∨ c = '{' then .error .unsuited
      else do
        let _ ← valueWith none (c :: cs)
        .error .unsuited

def string : Reader String := fun cs =>
  match skipSpace cs with
  | '"' :: cs => stringBody cs
  | cs => wrongType cs

def array (item : Reader α) : Reader (List α) := fun cs =>
  match skipSpace cs with
  | '[' :: cs => arrayBody item cs
  | cs => wrongType cs

def whole (read : Reader α) (text : String) : Except ReadError α := do
  let (x, cs) ← read text.toList
  if (skipSpace cs).isEmpty then .ok x else .error .malformed

def nestingLimit : Nat := 127

def read (text : String) : Except ReadError Json :=
  whole (value nestingLimit) text

end Symbology.Json
