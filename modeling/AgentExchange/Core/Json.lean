import AgentExchange.Core.Text
import AgentExchange.Library.Printer

/-!
# JSON values and their canonical text

`serde_json::Value`. An object is a map, here an association list in any order of
its keys; the canonical writer sorts the keys of every object and writes no
whitespace. Integers are kept exactly over the two machine ranges `serde_json`
holds; a finite float is its bit pattern, and its decimal text is a parameter
with the guarantees the formatter documents.
-/
namespace AgentExchange

open Library

/-- A finite `f64`, by its bits. -/
structure FiniteF64 where
  bits : UInt64
  finite : (bits >>> 52) &&& 0x7ff ≠ 0x7ff
  deriving DecidableEq

/-- `serde_json::Number`: a `u64`, a negative `i64`, or a finite `f64`. -/
inductive Number where
  | int (n : ℤ) (lower : -2 ^ 63 ≤ n) (upper : n < 2 ^ 64)
  | float (x : FiniteF64)
  deriving DecidableEq

def Number.ofUInt64 (n : UInt64) : Number :=
  .int n.toNat (by have := n.toNat_lt; omega) (by have := n.toNat_lt; omega)

def Number.ofInt64 (n : Int64) : Number :=
  .int n.toInt (by have := n.le_toInt; omega) (by have := n.toInt_lt; omega)

inductive Json where
  | null
  | bool (b : Bool)
  | num (n : Number)
  | str (s : String)
  | arr (xs : List Json)
  | obj (fields : List (String × Json))

namespace Json

def numeralChar (c : Char) : Bool :=
  c.isDigit || c = '-' || c = '+' || c = '.' || c = 'e' || c = 'E'

/-- The decimal text of finite floats: it reads back as the same float, is made of numeral
characters, and is marked as a float by a point or an exponent. -/
structure FloatText where
  format : FiniteF64 → String
  format_inj : Function.Injective format
  numeral : ∀ x, ∀ c ∈ (format x).toList, numeralChar c
  marked : ∀ x, '.' ∈ (format x).toList ∨ 'e' ∈ (format x).toList

/-- `Number::to_string`. -/
def numberText (f : FloatText) : Number → String
  | .int n _ _ => Int.repr n
  | .float x => f.format x

def escapeChar (c : Char) : List Char :=
  if c = '"' then ['\\', '"']
  else if c = '\\' then ['\\', '\\']
  else if c = '\x08' then ['\\', 'b']
  else if c = '\x0c' then ['\\', 'f']
  else if c = '\n' then ['\\', 'n']
  else if c = '\r' then ['\\', 'r']
  else if c = '\t' then ['\\', 't']
  else if c.toNat < 32 then
    ['\\', 'u', '0', '0', hexDigit (c.toNat / 16), hexDigit (c.toNat % 16)]
  else [c]

/-- `json_string`: the quoted literal. -/
def jsonString (s : String) : String :=
  String.ofList ('"' :: s.toList.flatMap escapeChar ++ ['"'])

def commaSeparated (pieces : List String) : String :=
  String.ofList (joined ',' (pieces.map String.toList))

def sortByKey {β : Type} (entries : List (String × β)) : List (String × β) :=
  entries.insertionSort fun a b => a.1 ≤ b.1

def entryText (entry : String × String) : String := jsonString entry.1 ++ ":" ++ entry.2

mutual

/-- `canonical_json`: keys of every object in order, no whitespace. -/
def writeCanonical (f : FloatText) : Json → String
  | null => "null"
  | bool b => if b then "true" else "false"
  | num n => numberText f n
  | str s => jsonString s
  | arr xs => "[" ++ commaSeparated (writeElements f xs) ++ "]"
  | obj fields =>
    "\x7b" ++ commaSeparated ((sortByKey (writeEntries f fields)).map entryText) ++ "\x7d"

def writeElements (f : FloatText) : List Json → List String
  | [] => []
  | x :: xs => writeCanonical f x :: writeElements f xs

def writeEntries (f : FloatText) : List (String × Json) → List (String × String)
  | [] => []
  | (k, v) :: rest => (k, writeCanonical f v) :: writeEntries f rest

end

mutual

/-- The same value with the keys of every object in order. -/
def sortKeys : Json → Json
  | null => null
  | bool b => bool b
  | num n => num n
  | str s => str s
  | arr xs => arr (sortKeysElements xs)
  | obj fields => obj (sortByKey (sortKeysEntries fields))

def sortKeysElements : List Json → List Json
  | [] => []
  | x :: xs => sortKeys x :: sortKeysElements xs

def sortKeysEntries : List (String × Json) → List (String × Json)
  | [] => []
  | (k, v) :: rest => (k, sortKeys v) :: sortKeysEntries rest

end

/-- Equality of JSON values up to the order of object keys. -/
def Agrees (a b : Json) : Prop := sortKeys a = sortKeys b

end Json

end AgentExchange
