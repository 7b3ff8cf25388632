import AgentExchange.Core.Json
import AgentExchange.Library.Text

/-!
# Derived deserialisers

What `#[derive(Deserialize)]` makes of a JSON value, for a struct. From an object the
fields are taken by name: a field given twice is an error, an unknown one is skipped, and
what is then missing is an error unless it has a default. From an array they are taken by
position. The position in the text that `serde_json` adds to an error is left out.
-/
namespace AgentExchange.Json

open Library

inductive DeError where
  | invalidType (found : Json) (expected : String)
  | invalidValue (found : Json) (expected : String)
  | duplicateField (name : String)
  | missingField (name : String)
  | invalidLength (found : ℕ) (expected : String)
  | trailing

def readString : Json → Except DeError String
  | .str s => .ok s
  | v => .error (.invalidType v "a string")

def readI64 : Json → Except DeError Int64
  | .num (.int n lower upper) =>
    if n < 2 ^ 63 then .ok (.ofInt n) else .error (.invalidValue (.num (.int n lower upper)) "i64")
  | v => .error (.invalidType v "i64")

def readOption {α : Type} (read : Json → Except DeError α) : Json → Except DeError (Option α)
  | .null => .ok none
  | v => (read v).map some

def readVec {α : Type} (read : Json → Except DeError α) : Json → Except DeError (List α)
  | .arr xs => xs.mapM read
  | v => .error (.invalidType v "a sequence")

/-- A field of a struct that is being read into `σ`, which holds what has been found so far. -/
structure StructField (σ : Type) where
  name : String
  found : σ → Bool
  read : Json → σ → Except DeError σ
  /-- `#[serde(default)]` -/
  defaulted : Bool

def structField {σ α : Type} (name : String) (get : σ → Option α) (set : σ → α → σ)
    (read : Json → Except DeError α) (defaulted : Bool := false) : StructField σ where
  name := name
  found s := (get s).isSome
  read v s := (read v).map (set s)
  defaulted := defaulted

section Visitor

variable {σ : Type}

/-- `visit_map`. -/
def visitMap (fields : List (StructField σ)) : σ → List (String × Json) → Except DeError σ
  | s, [] => .ok s
  | s, (k, v) :: rest =>
    match fields.find? fun f => f.name = k with
    | none => visitMap fields s rest
    | some f => do
      check (f.found s = false) (.duplicateField k)
      let s ← f.read v s
      visitMap fields s rest

/-- `visit_seq`, from position `i` on. -/
def visitSeq (expected : String) (i : ℕ) : List (StructField σ) → σ → List Json → Except DeError σ
  | [], s, [] => .ok s
  | [], _, _ :: _ => .error .trailing
  | f :: fields, s, [] =>
    if f.defaulted then visitSeq expected (i + 1) fields s []
    else .error (.invalidLength i expected)
  | f :: fields, s, v :: rest => do
    let s ← f.read v s
    visitSeq expected (i + 1) fields s rest

def visitStruct (expected : String) (fields : List (StructField σ)) (s : σ) : Json → Except DeError σ
  | .obj entries => visitMap fields s entries
  | .arr xs => visitSeq expected 0 fields s xs
  | v => .error (.invalidType v expected)

end Visitor

end AgentExchange.Json
