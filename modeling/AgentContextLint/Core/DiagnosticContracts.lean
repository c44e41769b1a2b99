import AgentContextLint.Core.RepositoryPath
import AgentContextLint.Core.SourcePositions

/-!
# Diagnostic contracts

The records of `packages/core/src/diagnostic-contracts.ts`: diagnostics with their evidence,
suggestions and fingerprints, suppression records, and the bundle that carries them. Fields that
have one permitted value (record kinds, contract versions, the safety of a fix plan, destination
preconditions) are left out.
-/

namespace AgentContextLint

open Utf16

inductive SourceBom
  | none
  | utf8
  deriving DecidableEq

inductive SourceLineEnding
  | none
  | lf
  | cr
  | crlf
  | mixed
  deriving DecidableEq

inductive SourceParseState
  | complete
  | partialParse (reason : Text)
  | malformed (reason : Text)
  deriving DecidableEq

/-- The encoding is always UTF-8. -/
structure SourceDocument where
  id : Text
  path : RelativePath
  bom : SourceBom
  text : Text
  byteLength : Nat
  utf16Length : Nat
  sha256 : Text
  lineEnding : SourceLineEnding
  parseState : SourceParseState
  rootNodeId : Text
  deriving DecidableEq

inductive DiagnosticSeverity
  | error
  | info
  | warning
  deriving DecidableEq

structure DiagnosticSourceLocation where
  sourceId : Text
  path : RelativePath
  sourceDigest : Text
  range : SourceRange
  deriving DecidableEq

/-! ## Related evidence -/

structure UncertaintyAlternative where
  id : Text
  description : Text
  deriving DecidableEq

/-- `Uncertainty`, with texts from outside. -/
inductive EvidenceUncertainty
  | known
  | conditional (conditions : List Text)
  | unknown (reason : Text)
  | contradiction (reason : Text) (alternatives : List UncertaintyAlternative)
  deriving DecidableEq

structure ResolutionEvidenceRef where
  evidenceRefId : Text
  factId : Option Text
  deriving DecidableEq

structure RepositoryFactEvidence where
  collectorId : Text
  factId : Text
  subjectPath : Option RelativePath
  valueDigest : Text
  locations : List DiagnosticSourceLocation
  deriving DecidableEq

structure ResolutionEvidence where
  profileId : Text
  surfaceId : Text
  specSnapshotId : Text
  eventIds : List Text
  targetIds : List Text
  activationRuleIds : List Text
  sourceLocations : List DiagnosticSourceLocation
  evidenceRefs : List ResolutionEvidenceRef
  uncertainty : EvidenceUncertainty
  deriving DecidableEq

structure SpecEvidence where
  specSnapshotId : Text
  evidenceRefId : Text
  factId : Option Text
  url : Text
  retrievedAt : Text
  revision : Option Text
  deriving DecidableEq

/-- The fields that depend on the `kind` of related evidence. -/
inductive RelatedEvidenceBody
  | source (location : DiagnosticSourceLocation)
  | repositoryFact (fact : RepositoryFactEvidence)
  | resolution (resolution : ResolutionEvidence)
  | spec (spec : SpecEvidence)
  deriving DecidableEq

structure RelatedEvidence where
  id : Text
  label : Text
  body : RelatedEvidenceBody
  deriving DecidableEq

/-! ## Suggestions -/

inductive FixOperation
  | textEdit (sourceId : Text) (path : RelativePath) (sourceDigest : Text)
      (range : SourceRange) (newText : Text)
  | moveDocument (sourceId : Text) (path : RelativePath) (sourceDigest : Text)
      (destinationPath : RelativePath)
  | createDocument (path : RelativePath) (content : Text) (contentDigest : Text)
  deriving DecidableEq

structure AtomicFixPlan where
  id : Text
  title : Text
  operations : List FixOperation
  deriving DecidableEq

structure DiagnosticSuggestion where
  message : Text
  fixPlan : Option AtomicFixPlan
  deriving DecidableEq

/-! ## Fingerprints -/

structure FingerprintComponent where
  key : Text
  value : Text
  deriving DecidableEq

structure PathFingerprintBasis where
  anchor : Text
  profileIds : List Text
  deriving DecidableEq

structure SemanticFingerprintBasis where
  components : List FingerprintComponent
  profileIds : List Text
  deriving DecidableEq

structure DiagnosticFingerprintBasis where
  path : PathFingerprintBasis
  semantic : SemanticFingerprintBasis
  deriving DecidableEq

structure VersionedFingerprint where
  method : Text
  value : Text
  deriving DecidableEq

structure DiagnosticFingerprints where
  path : VersionedFingerprint
  semantic : VersionedFingerprint
  deriving DecidableEq

/-! ## Diagnostics and suppressions -/

structure Diagnostic where
  id : Text
  ruleId : Text
  ruleVersion : Text
  severity : DiagnosticSeverity
  message : Text
  primary : DiagnosticSourceLocation
  related : List RelatedEvidence
  suggestion : Option DiagnosticSuggestion
  fingerprintBasis : DiagnosticFingerprintBasis
  fingerprints : DiagnosticFingerprints

inductive SuppressionState
  | applicable
  | suppressed
  | unused
  deriving DecidableEq

structure SuppressionRecord where
  id : Text
  state : SuppressionState
  directive : DiagnosticSourceLocation
  targetRuleIds : List Text
  reason : Option Text
  matchedPathFingerprints : List Text
  evidence : List RelatedEvidence

structure DiagnosticBundle where
  diagnostics : List Diagnostic
  suppressions : List SuppressionRecord

def Diagnostic.pathFingerprint (diagnostic : Diagnostic) : Text :=
  diagnostic.fingerprints.path.value

end AgentContextLint
