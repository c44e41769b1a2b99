import AgentContextLint.Lib.Utf16

/-!
# Positions in sources

The coordinates of `packages/core/src/ir-contracts.ts`.
-/

namespace AgentContextLint

open Utf16

structure SourcePosition where
  byteOffset : Nat
  utf16Offset : Nat
  line : Nat
  utf16Column : Nat
  deriving DecidableEq

/-- `end` is a keyword here: the end of the range is `stop`. -/
structure SourceRange where
  sourceId : Text
  start : SourcePosition
  stop : SourcePosition
  deriving DecidableEq

end AgentContextLint
