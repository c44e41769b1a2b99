import AgentContextLint.Lib.Netstring
import AgentContextLint.Lib.Sorting

/-!
# JSON texts

JSON values and their compact text with sorted keys. Texts are quoted as `JSON.stringify` does it:
control characters and unpaired surrogates are escaped.
-/

inductive Json
  | null
  | string (text : Utf16.Text)
  | number (value : Nat)
  | array (items : List Json)
  | object (fields : List (Utf16.Text × Json))

namespace Json

open Utf16 Utf8 Sorting

/-! ## Quoted texts -/

def hexUnit (n : Nat) : CodeUnit := if n < 10 then .ofNat (0x30 + n) else .ofNat (0x57 + n)

/-- A backslash, `u` and four hexadecimal digits. -/
def escapeUnit (unit : CodeUnit) : Text :=
  let n := unit.toNat
  [0x5c, 0x75, hexUnit (n / 0x1000), hexUnit (n / 0x100 % 0x10), hexUnit (n / 0x10 % 0x10),
    hexUnit (n % 0x10)]

/-- The text of a unit that is not half of a pair. -/
def quoteUnit (unit : CodeUnit) : Text :=
  if unit = 0x22 ∨ unit = 0x5c then [0x5c, unit]
  else if unit = 0x08 then [0x5c, 0x62]
  else if unit = 0x0c then [0x5c, 0x66]
  else if unit = 0x0a then [0x5c, 0x6e]
  else if unit = 0x0d then [0x5c, 0x72]
  else if unit = 0x09 then [0x5c, 0x74]
  else if unit < 0x20 ∨ isSurrogate unit then escapeUnit unit
  else [unit]

def quoteUnits : Text → Text
  | [] => []
  | [unit] => quoteUnit unit
  | unit :: next :: rest =>
    if isHighSurrogate unit ∧ isLowSurrogate next then unit :: next :: quoteUnits rest
    else quoteUnit unit ++ quoteUnits (next :: rest)

def quote (text : Text) : Text := [0x22] ++ quoteUnits text ++ [0x22]

/-! ## Canonical texts -/

def commaSeparated (pieces : List Text) : Text := [0x2c].intercalate pieces

mutual

/-- The text of a value, the fields of every object in the order of their keys. -/
def canonical : Json → Text
  | .null => js "null"
  | .string text => quote text
  | .number value => Netstring.decimalText value
  | .array items => [0x5b] ++ commaSeparated (canonicalItems items) ++ [0x5d]
  | .object fields =>
    let texts := (sortBy (comparingBytes (·.1)) (canonicalFields fields)).map fun field =>
      quote field.1 ++ [0x3a] ++ field.2
    [0x7b] ++ commaSeparated texts ++ [0x7d]

def canonicalItems : List Json → List Text
  | [] => []
  | item :: rest => canonical item :: canonicalItems rest

def canonicalFields : List (Text × Json) → List (Text × Text)
  | [] => []
  | (key, value) :: rest => (key, canonical value) :: canonicalFields rest

end

end Json
