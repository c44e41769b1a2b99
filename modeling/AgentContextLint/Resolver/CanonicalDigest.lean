import AgentContextLint.Lib.Metered
import AgentContextLint.Lib.Netstring
import AgentContextLint.Lib.Sha256
import AgentContextLint.Lib.Sorting

/-!
# Canonical digests

Model of `canonicalDigest` of `packages/resolver/src/effective-context-cache.ts`. A value is a tree of
data; what else a value may be has a constructor for the check that refuses it. Doubles are given by
their bits, and `String` on them is a parameter. The keys of all objects are sorted before the visit.
-/

namespace AgentContextLint

open Utf16 Utf8 Sorting Metered

abbrev Double := UInt64

namespace Double

/-- `Number.isFinite` -/
def isFinite (x : Double) : Bool := (x >>> 52) &&& 0x7ff != 0x7ff

def negativeZero : Double := 0x8000000000000000

end Double

/-- `String` and `Number` between doubles and their texts. -/
structure NumberTexts where
  text : Double → Text
  number : Text → Double
  wellFormed_text : ∀ x, wellFormed (text x) = true
  number_text : ∀ x, x.isFinite = true → x ≠ Double.negativeZero → number (text x) = x

/-- What is wrong with an array. -/
inductive ArrayFlaw
  | foreignPrototype
  | sparseOrExtended
  | accessor

/-- What is wrong with a value, or with the field that should have one. -/
inductive ValueFlaw
  | unsupported
  | cyclic
  | foreignPrototype
  | symbolKey
  | accessorField

inductive DigestValue
  | null
  | boolean (value : Bool)
  | number (value : Double)
  | string (text : Text)
  | array (items : List DigestValue)
  | object (fields : List (Text × DigestValue))
  | flawedArray (length : Nat) (flaw : ArrayFlaw)
  | flawed (flaw : ValueFlaw)

inductive EffectiveContextCacheErrorCode
  | invalidInput
  | resourceLimit

structure EffectiveContextCacheError where
  code : EffectiveContextCacheErrorCode
  message : String

/-- The limits that digests have. -/
structure CanonicalLimits where
  maximumCanonicalNodes : Nat
  maximumCanonicalTextBytes : Nat

/-- Those of `EFFECTIVE_CONTEXT_CACHE_DEFAULT_LIMITS`. -/
def defaultCanonicalLimits : CanonicalLimits := ⟨1000000, 67108864⟩

namespace CanonicalDigest

/-! ## Checks -/

def invalid (message : String) : EffectiveContextCacheError := ⟨.invalidInput, message⟩

def exceeded (message : String) : EffectiveContextCacheError := ⟨.resourceLimit, message⟩

/-- The checks of `denseArray` in front of the entries. -/
def checkLength (length maximum : Nat) (label : String) : Except EffectiveContextCacheError Unit :=
  refuseIf (maximum < length) (exceeded (label ++ " exceeds its item limit"))

/-- `denseArray` on an array that it refuses. -/
def denseArrayError (length maximum : Nat) (label : String) : ArrayFlaw → EffectiveContextCacheError
  | .foreignPrototype => invalid (label ++ " must be a regular array")
  | .sparseOrExtended =>
    if maximum < length then exceeded (label ++ " exceeds its item limit")
    else invalid (label ++ " must be dense and unextended")
  | .accessor =>
    if maximum < length then exceeded (label ++ " exceeds its item limit")
    else invalid (label ++ " must contain enumerable data entries")

def wellFormedText (value : Text) (maximum : Nat) (label : String) :
    Except EffectiveContextCacheError Unit := do
  refuseIf (wellFormed value = false) (invalid (label ++ " is not well-formed text"))
  refuseIf (byteLength value > maximum) (exceeded (label ++ " exceeds its byte limit"))

def flawMessage : ValueFlaw → String
  | .unsupported => "canonical dependency graph contains unsupported data"
  | .cyclic => "canonical dependency graph must be acyclic"
  | .foreignPrototype => "canonical dependency graph must contain only plain data records"
  | .symbolKey => "canonical dependency graph must not contain symbols"
  | .accessorField => "canonical dependency graph must contain enumerable data fields"

/-! ## Frames -/

/-- What `frame` hashes. -/
def frame (tag : UInt8) (value : Text) : List UInt8 :=
  tag :: 0x3a :: Netstring.frame (encode value)

structure CanonicalBudget where
  nodes : Nat
  textBytes : Nat

/-- The budget, and the bytes hashed so far. -/
structure DigestState where
  budget : CanonicalBudget
  hashed : List UInt8

def DigestState.hash (state : DigestState) (tag : UInt8) (value : Text) : DigestState :=
  { state with hashed := state.hashed ++ frame tag value }

/-! ## Keys -/

mutual

def sortKeys (cmp : Text → Text → Ordering) : DigestValue → DigestValue
  | .array items => .array (sortItems cmp items)
  | .object fields => .object (sortBy (comparingWith cmp (·.1)) (sortFields cmp fields))
  | .null => .null
  | .boolean value => .boolean value
  | .number value => .number value
  | .string text => .string text
  | .flawedArray length flaw => .flawedArray length flaw
  | .flawed flaw => .flawed flaw

def sortItems (cmp : Text → Text → Ordering) : List DigestValue → List DigestValue
  | [] => []
  | item :: rest => sortKeys cmp item :: sortItems cmp rest

def sortFields (cmp : Text → Text → Ordering) :
    List (Text × DigestValue) → List (Text × DigestValue)
  | [] => []
  | (key, value) :: rest => (key, sortKeys cmp value) :: sortFields cmp rest

end

/-! ## The visit -/

section Visit

variable (numbers : NumberTexts) (limits : CanonicalLimits)

def enter (state : DigestState) : Except EffectiveContextCacheError DigestState := do
  let nodes := state.budget.nodes + 1
  refuseIf (nodes > limits.maximumCanonicalNodes)
    (exceeded "canonical dependency graph exceeds its node limit")
  return { state with budget.nodes := nodes }

def visitNumber (value : Double) (state : DigestState) :
    Except EffectiveContextCacheError DigestState := do
  refuseIf (¬ value.isFinite ∨ value = Double.negativeZero)
    (invalid "canonical dependency graph contains an invalid number")
  return state.hash 0x64 (numbers.text value)

def visitString (text : Text) (state : DigestState) :
    Except EffectiveContextCacheError DigestState := do
  wellFormedText text limits.maximumCanonicalTextBytes "canonical dependency text"
  let textBytes := state.budget.textBytes + byteLength text
  refuseIf (textBytes > limits.maximumCanonicalTextBytes)
    (exceeded "canonical dependency graph exceeds its text limit")
  return { state with budget.textBytes := textBytes }.hash 0x73 text

def isAccessorField : DigestValue → Bool
  | .flawed .accessorField => true
  | _ => false

mutual

/-- `visit`, on a value whose keys are sorted. -/
def visit : DigestValue → DigestState → Except EffectiveContextCacheError DigestState
  | .null, state => do
    let state ← enter limits state
    return state.hash 0x6e []
  | .boolean value, state => do
    let state ← enter limits state
    return state.hash 0x62 (if value then js "1" else js "0")
  | .number value, state => do
    let state ← enter limits state
    visitNumber numbers value state
  | .string text, state => do
    let state ← enter limits state
    visitString limits text state
  | .array items, state => do
    let state ← enter limits state
    checkLength items.length limits.maximumCanonicalNodes "canonical dependency array"
    let state ← visitItems items (state.hash 0x61 (Netstring.decimalText items.length))
    return state.hash 0x7a (js "a")
  | .object fields, state => do
    let state ← enter limits state
    let state ← visitFields fields (state.hash 0x6f (Netstring.decimalText fields.length))
    return state.hash 0x7a (js "o")
  | .flawedArray length flaw, state => do
    let _ ← enter limits state
    .error (denseArrayError length limits.maximumCanonicalNodes "canonical dependency array" flaw)
  | .flawed flaw, state => do
    let _ ← enter limits state
    .error (invalid (flawMessage flaw))

def visitItems : List DigestValue → DigestState → Except EffectiveContextCacheError DigestState
  | [], state => .ok state
  | item :: rest, state => do
    let state ← visit item state
    visitItems rest state

def visitFields : List (Text × DigestValue) → DigestState →
    Except EffectiveContextCacheError DigestState
  | [], state => .ok state
  | (key, value) :: rest, state => do
    refuseIf (isAccessorField value) (invalid (flawMessage .accessorField))
    let state ← visit value (state.hash 0x6b key)
    visitFields rest state

end

/-- The bytes that `canonicalDigest` hashes. -/
def canonicalBytes (value : DigestValue) : Except EffectiveContextCacheError (List UInt8) := do
  let state ← visit numbers limits (sortKeys compareBytes value) ⟨⟨0, 0⟩, []⟩
  return state.hashed

def canonicalDigest (value : DigestValue) : Except EffectiveContextCacheError Text := do
  let bytes ← canonicalBytes numbers limits value
  return Sha256.sha256Hex bytes

end Visit

end CanonicalDigest

end AgentContextLint
