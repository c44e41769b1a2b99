import AgentContextLint.Core.OrganizationPolicy

/-!
# The versions of trusted targets

Model of the versions in `packages/standards/src/tuf-trust.ts`: how they are read and compared, and
the check of the engine against the minimum of a target. `SEMVER` is the pattern of the organization
policies, whose groups `OrganizationPolicy.parseSemver` reads.
-/

namespace AgentContextLint

open Utf16 Utf8 Metered

/-- The codes that versions may lead to. -/
inductive TufTrustErrorCode
  | incompatibleEngine
  | invalidInput
  | invalidMetadata
  | resourceLimit
  deriving DecidableEq

structure TufTrustIssue where
  code : TufTrustErrorCode
  path : Text
  message : Text
  deriving DecidableEq

structure ParsedSemver where
  core : Text × Text × Text
  pre : List Text

namespace TufTrust

/-- `MAX_TUF_SEMVER_BYTES` -/
def maxTufSemverBytes : Nat := 256

def inputExceeds (path : Text) (maximumBytes : Nat) : TufTrustIssue :=
  ⟨.resourceLimit, path, js "input exceeds " ++ js (toString maximumBytes) ++ js " bytes"⟩

/-- The checks of a text. -/
def boundedString (value path : Text) (maximumBytes : Nat) : Except TufTrustIssue Unit := do
  refuseIf (value.length > maximumBytes) (inputExceeds path maximumBytes)
  refuseIf (byteLength value > maximumBytes) (inputExceeds path maximumBytes)

def parseSemver (value path : Text) (invalidCode : TufTrustErrorCode) :
    Except TufTrustIssue ParsedSemver := do
  boundedString value path maxTufSemverBytes
  match OrganizationPolicy.parseSemver value with
  | none => .error ⟨invalidCode, path, js "must use SemVer 2.0.0"⟩
  | some captures => .ok {
      core := (captures.major, captures.minor, captures.patch)
      pre := (captures.prerelease.map (·.splitOn 0x2e)).getD [] }

def compareNumericIdentifier (left right : Text) : Ordering :=
  if left.length ≠ right.length then
    if left.length < right.length then .lt else .gt
  else if left = right then .eq
  else if left < right then .lt
  else .gt

/-- The loop over the identifiers of two prereleases. -/
def comparePre : List Text → List Text → Ordering
  | [], [] => .eq
  | [], _ :: _ => .lt
  | _ :: _, [] => .gt
  | x :: a, y :: b =>
    if x = y then comparePre a b
    else
      let xn := x.all UnitPattern.isDigit
      let yn := y.all UnitPattern.isDigit
      if xn && yn then compareNumericIdentifier x y
      else if xn != yn then (if xn then .lt else .gt)
      else if x < y then .lt
      else .gt

def compareSemver (left right : Text) : Except TufTrustIssue Ordering := do
  let a ← parseSemver left (js "$request.engineVersion") .invalidInput
  let b ← parseSemver right (js "$metadata.signed.targets[].custom.minEngineVersion")
    .invalidMetadata
  let cores := (compareNumericIdentifier a.core.1 b.core.1).then
    ((compareNumericIdentifier a.core.2.1 b.core.2.1).then
      (compareNumericIdentifier a.core.2.2 b.core.2.2))
  return cores.then <|
    if a.pre.length = 0 ∨ b.pre.length = 0 then
      if a.pre.length = b.pre.length then .eq else if a.pre.length = 0 then .gt else .lt
    else comparePre a.pre b.pre

/-- The check of the engine in `verifyUpdate`. -/
def checkEngine (engineVersion minEngineVersion : Text) : Except TufTrustIssue Unit := do
  let compared ← compareSemver engineVersion minEngineVersion
  refuseIf (compared = .lt) ⟨.incompatibleEngine, js "$request.engineVersion",
    js "engine is older than the target minimum version"⟩

end TufTrust

end AgentContextLint
