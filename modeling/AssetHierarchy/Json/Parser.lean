import AssetHierarchy.Json.Basic
import AssetHierarchy.Number.Reading

/-! Reading JSON text strictly: no trailing comma, no comment, no control character in a string, no
lone surrogate, no number beyond the range of a double, one value and white space around it. Arrays
and objects nest only to a given depth. -/
namespace AssetHierarchy.Json.Parser

open Double (isDigit digitValue appendDigits)

def isSpace (c : Char) : Bool :=
  c == ' ' || c == '\n' || c == '\t' || c == '\r'

def skipSpace (cs : List Char) : List Char := cs.dropWhile isSpace

/-! ### Numbers -/

/-- A significand that fits 64 bits, and the digits that were not taken because it would not. -/
def takeDigits (significand : Nat) : List Char → Nat × List Char
  | [] => (significand, [])
  | c :: rest =>
    let next := 10 * significand + digitValue c
    if next < UInt64.size then takeDigits next rest else (significand, c :: rest)

/-- The exponent after a significand, if one is written there, and what follows it. -/
def exponent? (cs : List Char) : Option (Option Int × List Char) :=
  match cs with
  | c :: rest =>
    if c == 'e' || c == 'E' then
      let (negative, rest) := Double.splitSign rest
      let ds := rest.takeWhile isDigit
      if ds.isEmpty then none
      else
        let e : Int := appendDigits 0 ds
        some (some (if negative then -e else e), rest.dropWhile isDigit)
    else some (none, cs)
  | [] => some (none, cs)

/-- The integer written by a significand without point and exponent. Zero keeps its sign and is
then no integer, as is anything below `-2 ^ 63`. -/
def ofInteger (negative : Bool) (n : Nat) : Option Number :=
  if !negative then some (.natural (UInt64.ofNat n))
  else if 0 < n ∧ n ≤ negativeCount then some (.ofNegative (n - 1))
  else (Double.ofSignificand true n 0).map .float

/-- Digits of the fraction extend the significand while it fits 64 bits; the others are ignored. -/
def number? (cs : List Char) : Option (Number × List Char) :=
  let (negative, cs) :=
    match cs with
    | '-' :: rest => (true, rest)
    | _ => (false, cs)
  let whole := cs.takeWhile isDigit
  let rest := cs.dropWhile isDigit
  if whole.isEmpty || (1 < whole.length && whole.head? == some '0') then none
  else
    let (significand, surplus) := takeDigits 0 whole
    let fraction? : Option (List Char × List Char) :=
      match rest with
      | '.' :: rest =>
        let ds := rest.takeWhile isDigit
        if ds.isEmpty then none else some (ds, rest.dropWhile isDigit)
      | rest => some ([], rest)
    fraction?.bind fun (fraction, rest) =>
      (exponent? rest).bind fun (exponent, rest) =>
        if fraction.isEmpty && surplus.isEmpty && exponent.isNone then
          (ofInteger negative significand).map fun n => (n, rest)
        else
          let (significand, ignored) := takeDigits significand fraction
          let shift : Int := surplus.length - (fraction.length - ignored.length : Nat)
          (Double.ofSignificand negative significand (exponent.getD 0 + shift)).map
            fun d => (.float d, rest)

/-! ### Strings -/

def hexValue? (c : Char) : Option Nat :=
  if isDigit c then some (digitValue c)
  else if 'a' ≤ c && c ≤ 'f' then some (c.toNat - 0x57)
  else if 'A' ≤ c && c ≤ 'F' then some (c.toNat - 0x37)
  else none

def hex4? (cs : List Char) : Option (Nat × List Char) :=
  match cs with
  | a :: b :: c :: d :: rest => do
    let a ← hexValue? a
    let b ← hexValue? b
    let c ← hexValue? c
    let d ← hexValue? d
    some (((a * 16 + b) * 16 + c) * 16 + d, rest)
  | _ => none

/-- The character of a `\u` escape, read after the `u`. A high surrogate needs a low one after it,
and a low one may not stand alone. -/
def unicode? (cs : List Char) : Option (Char × List Char) := do
  let (high, rest) ← hex4? cs
  if 0xDC00 ≤ high ∧ high ≤ 0xDFFF then none
  else if 0xD800 ≤ high ∧ high ≤ 0xDBFF then
    match rest with
    | '\\' :: 'u' :: rest => do
      let (low, rest) ← hex4? rest
      if 0xDC00 ≤ low ∧ low ≤ 0xDFFF then
        some (Char.ofNat (0x10000 + (high - 0xD800) * 0x400 + (low - 0xDC00)), rest)
      else none
    | _ => none
  else some (Char.ofNat high, rest)

/-- The character of an escape, read after the backslash. -/
def escape? (cs : List Char) : Option (Char × List Char) :=
  match cs with
  | '"' :: rest => some ('"', rest)
  | '\\' :: rest => some ('\\', rest)
  | '/' :: rest => some ('/', rest)
  | 'b' :: rest => some (Char.ofNat 0x08, rest)
  | 'f' :: rest => some (Char.ofNat 0x0C, rest)
  | 'n' :: rest => some ('\n', rest)
  | 'r' :: rest => some ('\r', rest)
  | 't' :: rest => some ('\t', rest)
  | 'u' :: rest => unicode? rest
  | _ => none

/-- The rest of a string after its opening quote, with the characters so far in reverse. Each step
uses up a character, so the length of the text is fuel enough. -/
def stringBody? (fuel : Nat) (read : List Char) (cs : List Char) : Option (String × List Char) :=
  match fuel, cs with
  | 0, _ => none
  | _, [] => none
  | fuel + 1, c :: rest =>
    if c == '"' then some (String.ofList read.reverse, rest)
    else if c == '\\' then
      (escape? rest).bind fun (c, rest) => stringBody? fuel (c :: read) rest
    else if c.toNat < 0x20 then none
    else stringBody? fuel (c :: read) rest

/-! ### Values -/

/-- The rest of the text after a word that must stand at its front. -/
def word? (word : List Char) (cs : List Char) : Option (List Char) :=
  if word.isPrefixOf cs then some (cs.drop word.length) else none

mutual

/-- A value at the front, nested at most `depth` deep. -/
def value? (fuel depth : Nat) (cs : List Char) : Option (Json × List Char) :=
  match fuel with
  | 0 => none
  | fuel + 1 =>
    match skipSpace cs with
    | 'n' :: rest => (word? ['u', 'l', 'l'] rest).map fun rest => (.null, rest)
    | 't' :: rest => (word? ['r', 'u', 'e'] rest).map fun rest => (.bool true, rest)
    | 'f' :: rest => (word? ['a', 'l', 's', 'e'] rest).map fun rest => (.bool false, rest)
    | '"' :: rest => (stringBody? (fuel + 1) [] rest).map fun (s, rest) => (.string s, rest)
    | '[' :: rest =>
      match depth with
      | 0 => none
      | depth + 1 =>
        match skipSpace rest with
        | ']' :: rest => some (.array [], rest)
        | rest => (items? fuel depth rest).map fun (vs, rest) => (.array vs, rest)
    | '\x7b' :: rest =>
      match depth with
      | 0 => none
      | depth + 1 =>
        match skipSpace rest with
        | '\x7d' :: rest => some (.object [], rest)
        | rest => (members? fuel depth rest).map fun (ms, rest) => (ofPairs ms, rest)
    | cs => (number? cs).map fun (n, rest) => (.number n, rest)

/-- One or more values with commas between them, up to the closing bracket. -/
def items? (fuel depth : Nat) (cs : List Char) : Option (List Json × List Char) :=
  match fuel with
  | 0 => none
  | fuel + 1 =>
    (value? fuel depth cs).bind fun (v, rest) =>
      match skipSpace rest with
      | ']' :: rest => some ([v], rest)
      | ',' :: rest => (items? fuel depth rest).map fun (vs, rest) => (v :: vs, rest)
      | _ => none

/-- One or more members with commas between them, up to the closing brace, in the order of the
text. -/
def members? (fuel depth : Nat) (cs : List Char) : Option (List (String × Json) × List Char) :=
  match fuel with
  | 0 => none
  | fuel + 1 =>
    match skipSpace cs with
    | '"' :: rest =>
      (stringBody? (fuel + 1) [] rest).bind fun (key, rest) =>
        match skipSpace rest with
        | ':' :: rest =>
          (value? fuel depth rest).bind fun (v, rest) =>
            match skipSpace rest with
            | '\x7d' :: rest => some ([(key, v)], rest)
            | ',' :: rest =>
              (members? fuel depth rest).map fun (ms, rest) => ((key, v) :: ms, rest)
            | _ => none
        | _ => none
    | _ => none

end

end AssetHierarchy.Json.Parser

namespace AssetHierarchy.Json

/-- The greatest nesting of arrays and objects that is read. -/
def maxDepth : Nat := 127

/-- The value that a text holds. Every two steps of the reader use up a character. -/
def parse? (text : String) : Option Json :=
  let cs := text.toList
  match Parser.value? (2 * cs.length + 2) maxDepth cs with
  | some (v, rest) => if (Parser.skipSpace rest).isEmpty then some v else none
  | none => none

end AssetHierarchy.Json
