import AgentContextLint.Evidence.ChangedFileMetadata

/-!
# The Git metadata executor

Model of `mergeWorktreeChanges` of `packages/cli/src/git-metadata-executor.ts`: the paths whose
content in the worktree differs from the index are put behind the listing that Git gave, unless
they are in it. The errors are those that the source throws.
-/

namespace AgentContextLint.GitMetadataExecutor

open Utf16 Utf8 Metered

/-- `/^[ADMT]$/` -/
def isListedStatus (statusBytes : List UInt8) : Bool :=
  [[0x41], [0x44], [0x4d], [0x54]].contains statusBytes

/-- The loop of `changedPathsFromGitNameStatus`, for at most `fuel` rounds. -/
def listedPaths : (fuel : Nat) → List (List UInt8) → Except String (List Text)
  | 0, _ => .ok []
  | _ + 1, [] => .ok []
  | fuel + 1, statusBytes :: fields => do
    refuseIf (∃ byte ∈ statusBytes, 0x7f < byte)
      "Git name-status output contains a non-ASCII status"
    refuseIf (¬ isListedStatus statusBytes)
      "Git name-status output contains an unsupported status"
    refuseIf (fields.headD [] = []) "Git name-status output contains an invalid path"
    return decodeLossy (fields.headD []) :: (← listedPaths fuel fields.tail)

def changedPathsFromGitNameStatus (bytes : List UInt8) : Except String (List Text) :=
  match ChangedFileMetadata.nulFields bytes with
  | none => .error "Git name-status output is not terminated"
  | some fields => listedPaths fields.length fields

def modifiedRecord (path : Text) : List UInt8 := 0x4d :: 0 :: encode path ++ [0]

/-- One round of the loop over the modified paths, behind the output so far. -/
def addModified (present : List Text) (maximumOutputBytes : Nat) (output : List UInt8)
    (path : Text) : Except String (List UInt8) :=
  if path ∈ present then .ok output
  else do
    let record := modifiedRecord path
    refuseIf (output.length + record.length > maximumOutputBytes)
      "combined changed paths exceed the output limit"
    return output ++ record

/-- The snapshot is read for its modified paths only. -/
def mergeWorktreeChanges (gitOutput : List UInt8) (modifiedPaths : List Text)
    (maximumOutputBytes : Nat) : Except String (List UInt8) := do
  let present ← changedPathsFromGitNameStatus gitOutput
  modifiedPaths.foldlM (addModified present maximumOutputBytes) gitOutput

end AgentContextLint.GitMetadataExecutor
