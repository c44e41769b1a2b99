import AgentContextLint.Lib.JsonTexts
import AgentContextLint.Lib.UnitPattern

/-!
# Reading JSON texts

`JSON.parse` for readers that look at no number: what a text stands for, with the fields of an
object in the order of `Object.keys`. Of equal keys the last one gives the value.
-/

inductive ParsedJson
  | null
  | boolean (b : Bool)
  | number
  | string (text : Utf16.Text)
  | array (items : List ParsedJson)
  | object (fields : List (Utf16.Text × ParsedJson))

namespace ParsedJson

open Utf16 UnitPattern

/-! ## Tokens -/

def isJsonSpace (u : CodeUnit) : Bool := u == 0x20 || u == 0x09 || u == 0x0a || u == 0x0d

def skipSpace (text : Text) : Text := text.dropWhile isJsonSpace

def hexValue (u : CodeUnit) : Option Nat :=
  if inRange 0x30 0x39 u then some (u.toNat - 0x30)
  else if inRange 0x41 0x46 u then some (u.toNat - 0x37)
  else if inRange 0x61 0x66 u then some (u.toNat - 0x57)
  else none

def hexUnitOf (digits : List CodeUnit) : Option CodeUnit :=
  digits.foldlM (fun n u => (hexValue u).map (n * 16 + ·)) 0 |>.map (UInt16.ofNat ·)

/-- What stands behind the opening quote, and what behind the closing one. -/
def readText : Text → Option (Text × Text)
  | [] => none
  | 0x22 :: rest => some ([], rest)
  | 0x5c :: 0x75 :: a :: b :: c :: d :: rest => do
    let unit ← hexUnitOf [a, b, c, d]
    let (text, rest) ← readText rest
    return (unit :: text, rest)
  | 0x5c :: letter :: rest => do
    let unit ← if letter = 0x2f then some letter else Json.shortEscape letter
    let (text, rest) ← readText rest
    return (unit :: text, rest)
  | u :: rest =>
    if u < 0x20 ∨ u = 0x5c then none
    else do
      let (text, rest) ← readText rest
      return (u :: text, rest)

/-- `-?(?:0|[1-9]\d*)(?:\.\d+)?(?:[eE][+-]?\d+)?` -/
def numberPattern : Pattern CodeUnit :=
  .seq (.optional (literal "-")) <|
  .seq (.either (literal "0") (.seq (.unit (inRange 0x31 0x39)) (.star (.unit isDigit)))) <|
  .seq (.optional (.seq (literal ".") (.plus (.unit isDigit)))) <|
  .optional (.seq (oneOf "eE") (.seq (.optional (oneOf "+-")) (.plus (.unit isDigit))))

/-- A literal or a number. -/
def readScalar (text : Text) : Option (ParsedJson × Text) :=
  let named := [("null", .null), ("true", .boolean true), ("false", .boolean false)]
  match named.find? fun entry => (js entry.1).isPrefixOf text with
  | some (name, value) => some (value, text.drop (js name).length)
  | none => ((numberPattern.ends text).head?).map (.number, ·)

/-! ## Fields -/

def putField (key : Text) (value : ParsedJson) : List (Text × ParsedJson) → List (Text × ParsedJson)
  | [] => [(key, value)]
  | (name, old) :: rest =>
    if name = key then (key, value) :: rest else (name, old) :: putField key value rest

/-- The number that a key is the text of, below `2 ** 32 - 1`. -/
def arrayIndex? (key : Text) : Option Nat :=
  let n := key.foldl (fun n u => n * 10 + (u.toNat - 0x30)) 0
  if key ≠ [] ∧ key.all isDigit ∧ Netstring.decimalText n = key ∧ n < 2 ^ 32 - 1 then some n
  else none

/-- Array indices come first, in ascending order. -/
def ownOrder (fields : List (Text × ParsedJson)) : List (Text × ParsedJson) :=
  Sorting.sortBy (fun left right => compare ((arrayIndex? left.1).getD 0) ((arrayIndex? right.1).getD 0))
      (fields.filter fun field => (arrayIndex? field.1).isSome) ++
    fields.filter fun field => (arrayIndex? field.1).isNone

/-! ## Values -/

mutual

/-- A value at the start of a text. Every call reads a unit, so that the length of the text is
fuel enough. -/
def readValue : Nat → Text → Option (ParsedJson × Text)
  | 0, _ => none
  | fuel + 1, text =>
    match skipSpace text with
    | 0x7b :: rest =>
      match skipSpace rest with
      | 0x7d :: rest => some (.object [], rest)
      | rest => readFields fuel [] rest
    | 0x5b :: rest =>
      match skipSpace rest with
      | 0x5d :: rest => some (.array [], rest)
      | rest => readItems fuel [] rest
    | 0x22 :: rest => (readText rest).map fun (text, rest) => (.string text, rest)
    | text => readScalar text

/-- The items of an array behind those that were read. -/
def readItems : Nat → List ParsedJson → Text → Option (ParsedJson × Text)
  | 0, _, _ => none
  | fuel + 1, items, text => do
    let (item, rest) ← readValue fuel text
    match skipSpace rest with
    | 0x2c :: rest => readItems fuel (items ++ [item]) rest
    | 0x5d :: rest => some (.array (items ++ [item]), rest)
    | _ => none

/-- The fields of an object behind those that were read. -/
def readFields : Nat → List (Text × ParsedJson) → Text → Option (ParsedJson × Text)
  | 0, _, _ => none
  | fuel + 1, fields, text =>
    match skipSpace text with
    | 0x22 :: rest => do
      let (key, rest) ← readText rest
      match skipSpace rest with
      | 0x3a :: rest =>
        let (value, rest) ← readValue fuel rest
        match skipSpace rest with
        | 0x2c :: rest => readFields fuel (putField key value fields) rest
        | 0x7d :: rest => some (.object (ownOrder (putField key value fields)), rest)
        | _ => none
      | _ => none
    | _ => none

end

/-- `JSON.parse` -/
def parse (text : Text) : Option ParsedJson :=
  match readValue (text.length + 1) text with
  | some (value, rest) => if skipSpace rest = [] then some value else none
  | none => none

/-! ## Reading fields -/

/-- `record[key]` for a key that no object inherits. -/
def get (fields : List (Text × ParsedJson)) (key : Text) : Option ParsedJson :=
  (fields.find? fun field => field.1 = key).map (·.2)

/-- `Object.keys(record).sort()` -/
def sortedFields (fields : List (Text × ParsedJson)) : List (Text × ParsedJson) :=
  Sorting.sortBy (fun left right => compareUnits left.1 right.1) fields

end ParsedJson
