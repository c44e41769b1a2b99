import AgentContextLint.Resolver.TargetSampler

/-!
# The algebra of activations

Model of the results and the set operations of `packages/resolver/src/activation-algebra.ts`. A
result is one of three states with the facts that prove it. Its facts are kept in a canonical
form: each key once, sorted. A union that has an active operand takes over the facts of one of
them, the one whose text is least; without one it takes over the facts of all.
-/

namespace AgentContextLint.ActivationAlgebra

open Utf16 Utf8 Metered Sorting Netstring

/-! ## Records -/

inductive ActivationProvenanceKind
  | always
  | scopeRoot
  | directorySelector
  | globSelector
  | manualFact
  | conditionalFact
  | unknownRule
  | callerFact
  deriving DecidableEq

def ActivationProvenanceKind.text : ActivationProvenanceKind → Text
  | .always => js "always"
  | .scopeRoot => js "scope-root"
  | .directorySelector => js "directory-selector"
  | .globSelector => js "glob-selector"
  | .manualFact => js "manual-fact"
  | .conditionalFact => js "conditional-fact"
  | .unknownRule => js "unknown-rule"
  | .callerFact => js "caller-fact"

structure ActivationProvenance where
  description : Text
  key : Text
  kind : ActivationProvenanceKind
  observedState : ActivationState
  deriving DecidableEq

structure ActivationResult where
  provenance : List ActivationProvenance
  state : ActivationState
  deriving DecidableEq

inductive ActivationAlgebraErrorCode
  | callbackFailed
  | conflictingProvenance
  | invalidCallback
  | invalidResult
  | invalidRule
  | invalidTargetPath
  | resourceLimit
  deriving DecidableEq

structure ActivationAlgebraError where
  code : ActivationAlgebraErrorCode
  message : Text
  deriving DecidableEq

def failIf (condition : Prop) [Decidable condition] (code : ActivationAlgebraErrorCode)
    (message : Text) : Except ActivationAlgebraError Unit :=
  refuseIf condition ⟨code, message⟩

/-! ## Limits -/

def maxConditions : Nat := 1024

def maxInputTextBytes : Nat := 1048576

def maxOperands : Nat := 4096

def maxProvenanceFacts : Nat := 4096

def maxSelectors : Nat := 4096

def maxTextBytes : Nat := 16384

/-! ## Texts -/

def assertText (value label : Text) (code : ActivationAlgebraErrorCode) :
    Except ActivationAlgebraError Unit := do
  failIf (value = []) code (label ++ js " must be a non-empty string")
  failIf (wellFormed value = false) code (label ++ js " must contain well-formed Unicode")
  failIf (byteLength value > maxTextBytes) .resourceLimit
    (label ++ js " exceeds the 16384 byte text limit")

def indexed (label : Text) (index : Nat) : Text :=
  label ++ js "[" ++ decimalText index ++ js "]"

def lengthPrefixed (parts : List Text) : Text :=
  parts.flatMap fun part => decimalText (byteLength part) ++ js ":" ++ part

/-! ## Facts -/

def compareFacts (left right : ActivationProvenance) : Ordering :=
  (compareUnits left.key right.key).then <|
    (compareUnits left.kind.text right.kind.text).then <|
      (compareUnits left.observedState.text right.observedState.text).then
        (compareUnits left.description right.description)

/-- The facts by key, and the bytes that were read. -/
structure FactProgress where
  byKey : List ActivationProvenance
  inputBytes : Nat

def textBytes (fact : ActivationProvenance) : Nat :=
  byteLength fact.key + byteLength fact.description

/-- A round of `normalizeFacts`. -/
def normalizeFact (label : Text) (progress : FactProgress)
    (entry : ActivationProvenance × Nat) : Except ActivationAlgebraError FactProgress := do
  assertText entry.1.key (indexed label entry.2 ++ js ".key") .invalidResult
  assertText entry.1.description (indexed label entry.2 ++ js ".description") .invalidResult
  failIf (progress.inputBytes + textBytes entry.1 > maxInputTextBytes) .resourceLimit
    (label ++ js " exceeds the cumulative text limit")
  let inputBytes := progress.inputBytes + textBytes entry.1
  match progress.byKey.find? (·.key = entry.1.key) with
  | some prior =>
    failIf (prior.kind ≠ entry.1.kind ∨ prior.observedState ≠ entry.1.observedState ∨
        prior.description ≠ entry.1.description) .conflictingProvenance
      (js "provenance key '" ++ entry.1.key ++ js "' has conflicting facts")
    return { progress with inputBytes }
  | none => return ⟨progress.byKey ++ [entry.1], inputBytes⟩

def normalizeFacts (input : List ActivationProvenance) (label : Text) :
    Except ActivationAlgebraError (List ActivationProvenance) := do
  failIf (input.length > maxProvenanceFacts) .resourceLimit
    (label ++ js " exceeds the limit of 4096 items")
  let progress ← input.zipIdx.foldlM (normalizeFact label) ⟨[], 0⟩
  return sortBy compareFacts progress.byKey

def makeResult (state : ActivationState) (provenance : List ActivationProvenance) :
    Except ActivationAlgebraError ActivationResult := do
  let facts ← normalizeFacts provenance (js "activation provenance")
  return ⟨facts, state⟩

/-- The label is for operands that are no records. -/
def normalizeResult (value : ActivationResult) : Except ActivationAlgebraError ActivationResult :=
  makeResult value.state value.provenance

/-! ## Proofs -/

/-- The parts of a fact in `proofKey`. -/
def factParts (fact : ActivationProvenance) : List Text :=
  [fact.key, fact.kind.text, fact.observedState.text, fact.description]

def proofKey (result : ActivationResult) : Text :=
  result.provenance.flatMap fun fact => lengthPrefixed (factParts fact)

/-- Of several least ones, the first. -/
def leastProof (first : ActivationResult) (rest : List ActivationResult) : ActivationResult :=
  rest.foldl (fun selected candidate =>
    if proofKey candidate < proofKey selected then candidate else selected) first

def mergeProofs (results : List ActivationResult) : List ActivationProvenance :=
  results.flatMap (·.provenance)

/-! ## Operands -/

/-- What `normalizeOperands` has read. -/
structure OperandProgress where
  facts : List ActivationProvenance
  normalized : List ActivationResult
  provenanceBytes : Nat

/-- A round of `normalizeOperands`. Its inner loop fails at the fact that exceeds the limit. -/
def normalizeOperand (operation : Text) (progress : OperandProgress)
    (operand : ActivationResult) : Except ActivationAlgebraError OperandProgress := do
  let result ← normalizeResult operand
  failIf (progress.facts.length + result.provenance.length > maxProvenanceFacts) .resourceLimit
    (operation ++ js " operands exceed the cumulative provenance limit")
  let provenanceBytes := progress.provenanceBytes + (result.provenance.map textBytes).sum
  failIf (provenanceBytes > maxInputTextBytes) .resourceLimit
    (operation ++ js " operands exceed the cumulative provenance text limit")
  return ⟨progress.facts ++ result.provenance, progress.normalized ++ [result], provenanceBytes⟩

def normalizeOperands (input : List ActivationResult) (operation : Text) :
    Except ActivationAlgebraError (List ActivationResult) := do
  failIf (input.length > maxOperands) .resourceLimit
    (operation ++ js " operands exceeds the limit of 4096 items")
  let progress ← input.foldlM (normalizeOperand operation) ⟨[], [], 0⟩
  let _ ← normalizeFacts progress.facts (operation ++ js " operand provenance")
  return progress.normalized

/-! ## Operations -/

/-- The result for normalized operands: one in the deciding state decides, and the state of no
operands is the neutral one. -/
def combined (deciding neutral : ActivationState) (normalized : List ActivationResult) :
    Except ActivationAlgebraError ActivationResult :=
  if normalized = [] then makeResult neutral []
  else match normalized.filter (·.state = deciding) with
    | first :: rest => makeResult deciding (leastProof first rest).provenance
    | [] => makeResult
        (if ∃ operand ∈ normalized, operand.state = .indeterminate then .indeterminate else neutral)
        (mergeProofs normalized)

/-- What union and intersection have in common. -/
def combine (operation : Text) (deciding neutral : ActivationState)
    (operands : List ActivationResult) : Except ActivationAlgebraError ActivationResult := do
  let normalized ← normalizeOperands operands operation
  combined deciding neutral normalized

def activationUnion : List ActivationResult → Except ActivationAlgebraError ActivationResult :=
  combine (js "union") .active .inactive

/-- Strong-Kleene intersection. -/
def activationIntersection : List ActivationResult → Except ActivationAlgebraError ActivationResult :=
  combine (js "intersection") .inactive .active

def complementState : ActivationState → ActivationState
  | .active => .inactive
  | .inactive => .active
  | .indeterminate => .indeterminate

/-- Strong-Kleene complement. The facts stay what was observed. -/
def activationComplement (operand : ActivationResult) :
    Except ActivationAlgebraError ActivationResult := do
  let normalized ← normalizeResult operand
  makeResult (complementState normalized.state) normalized.provenance

end AgentContextLint.ActivationAlgebra
