import AgentContextLint.Lib.UnitPattern
import AgentContextLint.Lib.Utf8
import Mathlib.Algebra.Order.Monoid.WithTop
import Mathlib.Algebra.BigOperators.Group.List.Basic
import Mathlib.Algebra.GroupWithZero.Nat

/-!
# Lines of the terminal formatter

Model of the layout in `packages/formatters/src/stylish.ts`: the cells of a text, the cut of a word
into chunks (`hardWrap`) and the packing of chunks into lines (`wrapText`). Grapheme clusters and
the Unicode tables are those of two packages, and they are a parameter with what is documented of
clusters. `Number.POSITIVE_INFINITY` is the top of the widths.
-/

namespace AgentContextLint

open Utf16 Utf8

inductive GraphemeCategory
  | any
  | cr
  | control
  | extend
  | extendedPictographic
  | l
  | lf
  | lv
  | lvt
  | prepend
  | regionalIndicator
  | spacingMark
  | t
  | v
  | zwj
  deriving DecidableEq

inductive EastAsianWidthType
  | ambiguous
  | fullwidth
  | halfwidth
  | narrow
  | neutral
  | wide
  deriving DecidableEq

/-- What the packages say of texts and scalars. The clusters of a text are its pieces, and none of
them ends inside of a scalar. -/
structure TerminalProfile where
  graphemeSegments : Text → List Text
  category : Nat → GraphemeCategory
  isEmojiPresentation : Nat → Bool
  isExtendedPictographic : Nat → Bool
  eastAsianWidth : Nat → Nat
  eastAsianWidthType : Nat → EastAsianWidthType
  flatten_graphemeSegments : ∀ text, (graphemeSegments text).flatten = text
  nil_notMem_graphemeSegments : ∀ text, [] ∉ graphemeSegments text
  wellFormed_graphemeSegments : ∀ text, wellFormed text = true →
    ∀ segment ∈ graphemeSegments text, wellFormed segment = true

namespace Stylish

def stylishMinWidth : Nat := 20

def stylishMaxWidth : Nat := 1000

/-- `MAX_OUTPUT_TEXT_BYTES - ANSI_BYTE_RESERVE` -/
def maxPlainLineBytes : Nat := 16384 - 32

/-- `MAX_OUTPUT_TEXT_CODE_POINTS - ANSI_CODE_POINT_RESERVE` -/
def maxPlainLineCodePoints : Nat := 4096 - 16

abbrev CellWidth := WithTop Nat

structure Cell where
  byteLength : Nat
  codePoints : Nat
  text : Text
  width : CellWidth

/-- The cell of `OVER_BUDGET_CELL_MARKER`. -/
def marker : Cell := ⟨3, 1, [0xfffd], 1⟩

variable (profile : TerminalProfile)

/-! ## Cells -/

def isNonPrintingCategory (category : GraphemeCategory) : Bool :=
  category = .cr || category = .control || category = .extend || category = .lf ||
    category = .prepend || category = .zwj

/-- `baseIndex` is the first scalar that prints. -/
def printingScalars (scalars : List Nat) : List Nat :=
  scalars.dropWhile fun scalar => isNonPrintingCategory (profile.category scalar)

def isEmoji (scalars : List Nat) (base : Nat) : Bool :=
  profile.isEmojiPresentation base ||
    2 ≤ scalars.countP (profile.category · = .regionalIndicator) ||
    scalars.contains 0x20e3 ||
    (scalars.contains 0xfe0f && profile.isExtendedPictographic base) ||
    (scalars.any (profile.category · = .zwj) && 2 ≤ scalars.countP profile.isExtendedPictographic)

def addedWidth (scalar : Nat) : Nat :=
  if profile.category scalar = .spacingMark ∨ profile.eastAsianWidthType scalar = .fullwidth ∨
      profile.eastAsianWidthType scalar = .halfwidth then profile.eastAsianWidth scalar
  else 0

def cellWidth (segment : Text) : Nat :=
  match printingScalars profile (codePoints segment) with
  | [] => 0
  | base :: rest =>
    if isEmoji profile (codePoints segment) base then 2
    else profile.eastAsianWidth base + (rest.map (addedWidth profile)).sum

def cellOf (segment : Text) : Cell where
  byteLength := byteLength segment
  codePoints := (codePoints segment).length
  text := segment
  width :=
    if maxPlainLineCodePoints < (codePoints segment).length ∨ maxPlainLineBytes < byteLength segment
    then ⊤ else (cellWidth profile segment : Nat)

def terminalCells (value : Text) : List Cell :=
  (profile.graphemeSegments value).map (cellOf profile)

def overBudget (maximumWidth : Nat) (cell : Cell) : Prop :=
  cell.width < 1 ∨ (maximumWidth : CellWidth) < cell.width ∨ maxPlainLineBytes < cell.byteLength ∨
    maxPlainLineCodePoints < cell.codePoints

instance (maximumWidth : Nat) (cell : Cell) : Decidable (overBudget maximumWidth cell) :=
  inferInstanceAs (Decidable (_ ∨ _ ∨ _ ∨ _))

def displayCell (maximumWidth : Nat) (cell : Cell) : Cell :=
  if overBudget maximumWidth cell then marker else cell

def visibleWidth (value : Text) : CellWidth := ((terminalCells profile value).map (·.width)).sum

/-! ## Words -/

/-- The variables of `hardWrap`. -/
structure HardWrap where
  lines : List Text
  line : Text
  width : CellWidth
  bytes : Nat
  codePoints : Nat

section HardWrap

variable (maximumWidth reservedBytes reservedCodePoints : Nat) (state : HardWrap)

def breaksBefore (cell : Cell) : Prop :=
  state.line ≠ [] ∧
    ((maximumWidth : CellWidth) < state.width + cell.width ∨
      maxPlainLineBytes < state.bytes + cell.byteLength ∨
      maxPlainLineCodePoints < state.codePoints + cell.codePoints)

instance (state : HardWrap) (cell : Cell) : Decidable (breaksBefore maximumWidth state cell) :=
  inferInstanceAs (Decidable (_ ∧ (_ ∨ _ ∨ _)))

def appendCell (cell : Cell) : HardWrap :=
  { state with
    line := state.line ++ cell.text
    width := state.width + cell.width
    bytes := state.bytes + cell.byteLength
    codePoints := state.codePoints + cell.codePoints }

def wrapCell (cell : Cell) : HardWrap :=
  if breaksBefore maximumWidth state cell then
    appendCell ⟨state.lines ++ [state.line], [], 0, reservedBytes, reservedCodePoints⟩ cell
  else appendCell state cell

def displayCells (value : Text) : List Cell :=
  (terminalCells profile value).map (displayCell maximumWidth)

def hardWrap (value : Text) : List Text :=
  if value = [] then [[]]
  else
    let final := (displayCells profile maximumWidth value).foldl
      (wrapCell maximumWidth reservedBytes reservedCodePoints)
      ⟨[], [], 0, reservedBytes, reservedCodePoints⟩
    if final.line ≠ [] then final.lines ++ [final.line] else final.lines

end HardWrap

/-! ## Lines -/

/-- `Math.max(1, width - visibleWidth(prefix))` -/
def availableWidth (width : Nat) : CellWidth → Nat
  | none => 1
  | some prefixWidth => max 1 (width - prefixWidth)

def isSpaceUnit (u : CodeUnit) : Bool := u == 0x20

/-- `value.split(/ +/u).filter((word) => word.length > 0)` -/
def wordsOf (value : Text) : List Text := (splitRuns isSpaceUnit value).filter (· ≠ [])

/-- The variables of the second loop of `wrapText`. -/
structure Packing where
  lines : List Text
  line : Text
  lineWidth : CellWidth
  lineBytes : Nat
  lineCodePoints : Nat

section Packing

variable (available : Nat) (linePrefix : Text)

def breaksChunk (state : Packing) (chunk : Text) : Prop :=
  state.line ≠ [] ∧
    ((available : CellWidth) < state.lineWidth + 1 + visibleWidth profile chunk ∨
      maxPlainLineBytes < state.lineBytes + 1 + byteLength chunk ∨
      maxPlainLineCodePoints < state.lineCodePoints + 1 + (codePoints chunk).length)

instance (state : Packing) (chunk : Text) :
    Decidable (breaksChunk profile available state chunk) :=
  inferInstanceAs (Decidable (_ ∧ (_ ∨ _ ∨ _)))

def packChunk (state : Packing) (chunk : Text) : Packing :=
  if breaksChunk profile available state chunk then
    { lines := state.lines ++ [linePrefix ++ state.line]
      line := chunk
      lineWidth := visibleWidth profile chunk
      lineBytes := byteLength linePrefix + byteLength chunk
      lineCodePoints := (codePoints linePrefix).length + (codePoints chunk).length }
  else if state.line = [] then
    { state with
      line := chunk
      lineWidth := state.lineWidth + visibleWidth profile chunk
      lineBytes := state.lineBytes + byteLength chunk
      lineCodePoints := state.lineCodePoints + (codePoints chunk).length }
  else
    { state with
      line := state.line ++ 0x20 :: chunk
      lineWidth := state.lineWidth + 1 + visibleWidth profile chunk
      lineBytes := state.lineBytes + 1 + byteLength chunk
      lineCodePoints := state.lineCodePoints + 1 + (codePoints chunk).length }

end Packing

/-- `String.prototype.trimEnd` -/
def trimEnd (text : Text) : Text := (text.reverse.dropWhile UnitPattern.isWhiteSpace).reverse

def chunksOf (available : Nat) (linePrefix : Text) (words : List Text) : List Text :=
  words.flatMap
    (hardWrap profile available (byteLength linePrefix) (codePoints linePrefix).length)

def wrapText (value : Text) (width : Nat) (linePrefix : Text) : List Text :=
  let available := availableWidth width (visibleWidth profile linePrefix)
  let words := wordsOf value
  if words = [] then [trimEnd linePrefix]
  else
    let final := (chunksOf profile available linePrefix words).foldl
      (packChunk profile available linePrefix)
      ⟨[], [], 0, byteLength linePrefix, (codePoints linePrefix).length⟩
    final.lines ++ [linePrefix ++ final.line]

end Stylish

end AgentContextLint
