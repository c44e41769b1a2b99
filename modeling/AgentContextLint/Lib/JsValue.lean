import AgentContextLint.Lib.Utf16

/-!
# JavaScript values from outside

`JsValue` is what a function gets for an `unknown` argument: data, or something that no JSON text
has. Objects are plain and list their fields in order, with distinct keys. Numbers are told apart
as far as validators do: whole ones by their value, finite other ones by the whole number below
them, and the rest by their kind.
-/

inductive JsNumber
  | integer (n : Int)
  | negativeZero
  | fractional (floor : Int)
  | notFinite

/-- Why a value is no data. -/
inductive JsExotic
  | notJson
  | repeated
  | proxy
  | irregularArray
  | accessor
  | classInstance

inductive JsValue
  | undefined
  | null
  | boolean (b : Bool)
  | number (n : JsNumber)
  | string (text : Utf16.Text)
  | array (items : List JsValue)
  | object (fields : List (Utf16.Text × JsValue))
  | exotic (kind : JsExotic)

namespace JsValue

open Utf16

variable {value : JsValue} {front back : List (Text × JsValue)} {key : Text}

/-- `record[key]` -/
def get (fields : List (Text × JsValue)) (key : Text) : JsValue :=
  match fields with
  | [] => .undefined
  | (name, value) :: rest => if name = key then value else get rest key

/-- `Object.keys` -/
def keys (fields : List (Text × JsValue)) : List Text := fields.map (·.1)

theorem get_append_cons
    (fresh : key ∉ keys front) : get (front ++ (key, value) :: back) key = value := by
  induction front with
  | nil => exact if_pos rfl
  | cons field front ih =>
    rw [keys, List.map_cons, List.mem_cons, not_or] at fresh
    rw [List.cons_append, get, if_neg (Ne.symm fresh.1)]
    exact ih fresh.2

theorem get_append_cons_of_ne {key other : Text} (apart : other ≠ key) :
    get (front ++ (key, value) :: back) other = get (front ++ back) other := by
  induction front with
  | nil => exact if_neg (Ne.symm apart)
  | cons field front ih =>
    rw [List.cons_append, List.cons_append, get, get, ih]

theorem get_of_mem {fields : List (Text × JsValue)}
    (nodup : (keys fields).Nodup) (member : (key, value) ∈ fields) : get fields key = value := by
  obtain ⟨front, back, rfl⟩ := List.append_of_mem member
  refine get_append_cons fun inFront => ?_
  rw [keys, List.map_append, List.map_cons] at nodup
  exact (List.nodup_append.mp nodup).2.2 key inFront key List.mem_cons_self rfl

def text? : JsValue → Option Text
  | .string text => some text
  | _ => none

/-- `value === undefined` -/
def isUndefined : JsValue → Bool
  | .undefined => true
  | _ => false

def integer? : JsValue → Option Int
  | .number (.integer n) => some n
  | _ => none

end JsValue
