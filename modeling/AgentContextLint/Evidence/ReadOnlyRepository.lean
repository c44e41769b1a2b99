import AgentContextLint.Core.RepositoryPath

/-!
# The read-only repository

What `packages/evidence/src/read-only-filesystem.ts` offers its callers: the entries, files
and failures of a repository. A repository is a function of the path; the counters by which
the facade bounds its own use show up only as the failures it returns.
-/

namespace AgentContextLint

open Utf16

inductive ReadOnlyRepositoryErrorCode
  | aborted
  | closeFailed
  | concurrentOperation
  | deadlineExceeded
  | hardLink
  | invalidOptions
  | invalidPath
  | invalidSelection
  | limitExceeded
  | notDirectory
  | notFile
  | outsideRoot
  | pathChanged
  | pathUnavailable
  | readFailed
  | symlinkLoop
  | unsafeType
  deriving DecidableEq

def ReadOnlyRepositoryErrorCode.text : ReadOnlyRepositoryErrorCode → String
  | .aborted => "READ_ONLY_REPOSITORY_ABORTED"
  | .closeFailed => "READ_ONLY_REPOSITORY_CLOSE_FAILED"
  | .concurrentOperation => "READ_ONLY_REPOSITORY_CONCURRENT_OPERATION"
  | .deadlineExceeded => "READ_ONLY_REPOSITORY_DEADLINE_EXCEEDED"
  | .hardLink => "READ_ONLY_REPOSITORY_HARD_LINK"
  | .invalidOptions => "READ_ONLY_REPOSITORY_INVALID_OPTIONS"
  | .invalidPath => "READ_ONLY_REPOSITORY_INVALID_PATH"
  | .invalidSelection => "READ_ONLY_REPOSITORY_INVALID_SELECTION"
  | .limitExceeded => "READ_ONLY_REPOSITORY_LIMIT_EXCEEDED"
  | .notDirectory => "READ_ONLY_REPOSITORY_NOT_DIRECTORY"
  | .notFile => "READ_ONLY_REPOSITORY_NOT_FILE"
  | .outsideRoot => "READ_ONLY_REPOSITORY_OUTSIDE_ROOT"
  | .pathChanged => "READ_ONLY_REPOSITORY_PATH_CHANGED"
  | .pathUnavailable => "READ_ONLY_REPOSITORY_PATH_UNAVAILABLE"
  | .readFailed => "READ_ONLY_REPOSITORY_READ_FAILED"
  | .symlinkLoop => "READ_ONLY_REPOSITORY_SYMLINK_LOOP"
  | .unsafeType => "READ_ONLY_REPOSITORY_UNSAFE_TYPE"

structure ReadOnlyRepositoryError where
  code : ReadOnlyRepositoryErrorCode
  message : String
  operation : String
  path : Option RelativePath
  causeCode : Option String
  deriving DecidableEq

/-- What a repository operation throws: its own error, or anything else. -/
inductive RepositoryFailure
  | readOnly (error : ReadOnlyRepositoryError)
  | other
  deriving DecidableEq

structure ReadOnlyRepositoryIdentity where
  device : Text
  inode : Text
  deriving DecidableEq

inductive ReadOnlyRepositoryEntryType
  | directory
  | file
  deriving DecidableEq

structure ReadOnlyRepositoryEntry where
  identity : ReadOnlyRepositoryIdentity
  linkDepth : Nat
  path : RelativePath
  size : Nat
  type : ReadOnlyRepositoryEntryType

structure ReadOnlyRepositoryFile where
  identity : ReadOnlyRepositoryIdentity
  linkDepth : Nat
  path : RelativePath
  size : Nat
  bytes : List UInt8

structure ReadOnlyRepository where
  inspect : RelativePath → Except RepositoryFailure ReadOnlyRepositoryEntry
  readFile : RelativePath → Except RepositoryFailure ReadOnlyRepositoryFile

end AgentContextLint
