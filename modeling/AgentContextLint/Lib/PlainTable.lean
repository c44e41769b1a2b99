import AgentContextLint.Lib.Utf16

/-!
# Tables that are plain objects

A record that is written as an object literal inherits from `Object.prototype`, so that reading it
at an inherited key gives an object of the realm where the table has no own key.
-/

namespace PlainTable

open Utf16

/-- What inherited keys give: the functions with their number of parameters, and the prototype. -/
def inheritedFunctions : List (Text × Nat) :=
  [(js "constructor", 1), (js "__defineGetter__", 2), (js "__defineSetter__", 2),
    (js "hasOwnProperty", 1), (js "__lookupGetter__", 1), (js "__lookupSetter__", 1),
    (js "isPrototypeOf", 1), (js "propertyIsEnumerable", 1), (js "toString", 0),
    (js "valueOf", 0), (js "toLocaleString", 0)]

def prototypeKey : Text := js "__proto__"

def inheritedKeys : List Text := prototypeKey :: inheritedFunctions.map (·.1)

/-- A text, or the object of the realm that an inherited key gives. -/
inductive Value
  | text (text : Text)
  | inherited (key : Text)
  deriving DecidableEq

abbrev Table := List (Text × Text)

def Table.keys (table : Table) : List Text := table.map (·.1)

/-- `table[key]` -/
def lookup (table : Table) (key : Text) : Option Value :=
  match table.find? fun entry => entry.1 = key with
  | some entry => some (.text entry.2)
  | none => if key ∈ inheritedKeys then some (.inherited key) else none

namespace Value

/-- `value.length`, which the prototype does not have. -/
def length? : Value → Option Nat
  | .text s => some s.length
  | .inherited key => (inheritedFunctions.find? fun entry => entry.1 = key).map (·.2)

/-- `String(value)`; the constructor has a name of its own. -/
def toText : Value → Text
  | .text s => s
  | .inherited key =>
    if key = prototypeKey then js "[object Object]"
    else
      let name := if key = js "constructor" then js "Object" else key
      js "function " ++ name ++ js "() { [native code] }"

/-- The objects that `deepFreeze` reaches: no object of the realm has fields to enumerate. -/
def frozen : Value → List Text
  | .text _ => []
  | .inherited key => [key]

def IsText (value : Value) : Prop := ∃ s, value = .text s

theorem isText_text (s : Text) : IsText (.text s) := ⟨s, rfl⟩

theorem frozen_eq_nil_iff {value : Value} : value.frozen = [] ↔ value.IsText := by
  cases value with
  | text s => exact iff_of_true rfl (isText_text s)
  | inherited key => exact iff_of_false (List.cons_ne_nil key []) fun written => by cases written.choose_spec

end Value

/-! ## Lookups -/

variable {table : Table} {key : Text}

theorem lookup_of_mem (own : key ∈ table.keys) :
    ∃ text, (key, text) ∈ table ∧ lookup table key = some (.text text) := by
  rcases List.mem_map.mp own with ⟨entry, member, rfl⟩
  have isSome : (table.find? fun other => other.1 = entry.1).isSome = true :=
    List.find?_isSome.mpr ⟨entry, member, decide_eq_true rfl⟩
  rcases Option.isSome_iff_exists.mp isSome with ⟨other, found⟩
  have same : other.1 = entry.1 := by simpa using List.find?_some found
  refine ⟨other.2, ?_, by rw [lookup, found]⟩
  rw [← same]
  exact List.mem_of_find?_eq_some found

theorem lookup_of_notMem (foreign : key ∉ table.keys) :
    lookup table key = if key ∈ inheritedKeys then some (.inherited key) else none := by
  have none : (table.find? fun entry => entry.1 = key) = none := by
    apply List.find?_eq_none.mpr
    intro entry member same
    exact foreign (List.mem_map.mpr ⟨entry, member, of_decide_eq_true same⟩)
  rw [lookup, none]

/-- At a key that is not inherited, exactly the own keys give something. -/
theorem lookup_isSome_iff (plain : key ∉ inheritedKeys) :
    (lookup table key).isSome = true ↔ key ∈ table.keys := by
  by_cases own : key ∈ table.keys
  · rcases lookup_of_mem own with ⟨text, _, found⟩
    rw [found]
    exact iff_of_true rfl own
  · rw [lookup_of_notMem own, if_neg plain]
    exact iff_of_false (by decide) own

theorem isText_of_lookup (plain : key ∉ inheritedKeys ∨ key ∈ table.keys) {value : Value}
    (found : lookup table key = some value) : value.IsText := by
  by_cases own : key ∈ table.keys
  · rcases lookup_of_mem own with ⟨text, _, here⟩
    cases here.symm.trans found
    exact Value.isText_text text
  · rw [lookup_of_notMem own, if_neg (plain.resolve_right own)] at found
    cases found

end PlainTable
