import AgentContextLint.Core.DiagnosticContracts
import AgentContextLint.Lib.Sha256
import AgentContextLint.Lib.Sorting

/-!
# Diagnostic fingerprints

Model of `packages/core/src/diagnostic-fingerprint.ts`. Both fingerprints are SHA-256 digests of
framed fields; `none` stands for a thrown `TypeError`.
-/

namespace AgentContextLint

open Utf16 Utf8 Sorting Sha256
open RepositoryPath (isRepositoryRelativePath)

/-! ## Identifiers -/

def isAsciiAlphanumeric (unit : CodeUnit) : Bool :=
  let n := unit.toNat
  (0x30 ≤ n && n ≤ 0x39) || (0x41 ≤ n && n ≤ 0x5a) || (0x61 ≤ n && n ≤ 0x7a)

/-- A point, an underscore, a colon, a slash or a hyphen. -/
def isIdentifierSeparator (unit : CodeUnit) : Bool :=
  unit ∈ [0x2e, 0x5f, 0x3a, 0x2f, 0x2d]

/-- `WELL_FORMED_IDENTIFIER`: alphanumeric pieces with one separator between two of them. -/
def isStableIdentifier (text : Text) : Bool :=
  (text.splitOnP isIdentifierSeparator).all fun piece =>
    piece ≠ [] && piece.all isAsciiAlphanumeric

namespace DiagnosticFingerprint

/-- `PATH_FINGERPRINT_METHOD` -/
def pathFingerprintMethod : Text := js "agent-context-lint/path/v1"

/-- `SEMANTIC_FINGERPRINT_METHOD` -/
def semanticFingerprintMethod : Text := js "agent-context-lint/semantic/v1"

def isText (value : Text) : Bool := value ≠ [] && wellFormed value

/-- A length as eight bytes, the most significant first. -/
def lengthBytes (length : Nat) : List UInt8 :=
  (List.range 8).map fun i => .ofNat (length / 256 ^ (7 - i))

def frame (value : Text) : List UInt8 := lengthBytes (byteLength value) ++ encode value

def hashDomain (method : Text) (fields : List (Text × Text)) : Text :=
  sha256Hex (frame (js "agent-context-lint:diagnostic-fingerprint") ++ frame method ++
    fields.flatMap fun field => frame field.1 ++ frame field.2)

/-- The members of a list, each once and sorted. -/
def canonicalStrings (values : List Text) : List Text :=
  sortBy compareBytes values.eraseDups

def canonicalProfiles (profileIds : List Text) : Option (List Text) :=
  if profileIds.all fun profileId => isText profileId && isStableIdentifier profileId then
    some (canonicalStrings profileIds)
  else none

def canonicalComponents (components : List FingerprintComponent) :
    Option (List FingerprintComponent) :=
  if (components.all fun component => isText component.key && isText component.value &&
      isStableIdentifier component.key) ∧ (components.map (·.key)).Nodup then
    some (sortBy (comparingBytes (·.key)) components)
  else none

def isRule (ruleId ruleVersion : Text) : Bool :=
  isText ruleId && isText ruleVersion && isStableIdentifier ruleId &&
    isStableIdentifier ruleVersion

def computePathFingerprint (ruleId ruleVersion : Text) (path : RelativePath)
    (basis : PathFingerprintBasis) : Option Text :=
  if isRule ruleId ruleVersion && isRepositoryRelativePath path && isText basis.anchor then
    (canonicalProfiles basis.profileIds).map fun profileIds =>
      hashDomain pathFingerprintMethod <|
        [(js "rule-id", ruleId), (js "rule-version", ruleVersion), (js "repository-path", path),
          (js "anchor", basis.anchor)] ++ profileIds.map fun profileId => (js "profile-id", profileId)
  else none

def computeSemanticFingerprint (ruleId ruleVersion : Text) (basis : SemanticFingerprintBasis) :
    Option Text :=
  if isRule ruleId ruleVersion then
    (canonicalProfiles basis.profileIds).bind fun profileIds =>
      (canonicalComponents basis.components).map fun components =>
        hashDomain semanticFingerprintMethod <|
          [(js "rule-id", ruleId), (js "rule-version", ruleVersion)] ++
            (profileIds.map fun profileId => (js "profile-id", profileId)) ++
            components.map fun component => (js "component:" ++ component.key, component.value)
  else none

end DiagnosticFingerprint

end AgentContextLint
