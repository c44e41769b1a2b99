import AgentContextLint.Core.IrAcceptance
import AgentContextLint.Syntax.FrontmatterPositions
import AgentContextLint.Syntax.ImportReferences
import AgentContextLint.Syntax.SuppressionLines

/-!
# One coordinate system

The positions of the frontmatter parser, of the import lexer and of the suppression parser are the
ones that the validator of instruction IR expects, and the ranges that they build are valid
(`coordinateSystem`).
-/

namespace AgentContextLint

open Utf16 Metered SourceCoordinates
open Suppression (buildLineIndex positionAt)

/-! ## The import lexer -/

namespace ImportLexer

section Index

variable {text : Text} (ok : wellFormed text = true)
include ok

theorem byteOffsets_buildPositionIndex :
    (buildPositionIndex text).byteOffsets = byteOffsets text := by
  refine byteOffsets_of_loop (fun _ => rfl) (fun b u rest plain => ?_)
    (fun b u v rest high low => ?_) ok
  · have notHigh : ¬ isHighSurrogate u = true := by simp [isHighSurrogate_of_plain plain]
    cases rest with
    | nil => exact if_neg notHigh
    | cons v rest =>
      rw [byteOffsetsFrom, if_neg notHigh]
      rfl
  · rw [byteOffsetsFrom, if_pos high]

theorem lineStarts_buildPositionIndex : (buildPositionIndex text).lineStarts = lineStarts text := by
  refine congrArg (0 :: ·) (terminatorEnds_of_loop (fun _ => rfl) (fun i u rest plain => ?_)
    (fun i u v rest high low => ?_) ok)
  · have notHigh : ¬ isHighSurrogate u = true := by simp [isHighSurrogate_of_plain plain]
    cases rest with
    | nil =>
      refine (if_neg notHigh).trans ?_
      simp [lineStartsFrom]
    | cons v rest =>
      rw [lineStartsFrom, if_neg notHigh]
      simp only [List.head?_cons, ne_eq, Option.some.injEq]
      split_ifs <;> rfl
  · rw [lineStartsFrom, if_pos high]

variable {utf16Offset : Nat}

theorem positionAt_of_boundary (boundary : Boundary text utf16Offset) :
    positionAt (buildPositionIndex text) utf16Offset = .ok (truePosition text utf16Offset) := by
  obtain ⟨inside, whole⟩ := boundary
  have test : startsAtOrBefore (lineStarts text) utf16Offset =
      fun i => ((lineStarts text)[i]?).any (· ≤ utf16Offset) := by
    funext i
    rw [startsAtOrBefore]
    cases (lineStarts text)[i]? <;> rfl
  rw [positionAt, byteOffsets_buildPositionIndex ok, lineStarts_buildPositionIndex ok,
    getElem?_byteOffsets inside whole, test, bisect_lineStarts inside]
  dsimp only
  rw [getElem?_lineStarts inside]
  rfl

theorem boundary_of_positionAt {position : SourcePosition}
    (run : positionAt (buildPositionIndex text) utf16Offset = .ok position) :
    Boundary text utf16Offset := by
  obtain ⟨-, bytes, -⟩ := positionAt_eq_ok run
  rw [byteOffsets_buildPositionIndex ok, byteOffsets, List.getElem?_map] at bytes
  obtain ⟨offset, inRange, cell⟩ := Option.map_eq_some_iff.mp bytes
  obtain ⟨inside, rfl⟩ := List.getElem?_eq_some_iff.mp inRange
  rw [List.length_range] at inside
  rw [List.getElem_range, byteOffsetAt] at cell
  split_ifs at cell with split
  exact ⟨Nat.le_of_lt_succ inside, Bool.eq_false_iff.mpr split⟩

variable {sourceId : Text} {start stop : Nat}

theorem makeRange_of_boundaries (first : Boundary text start) (last : Boundary text stop) :
    makeRange sourceId (buildPositionIndex text) start stop =
      .ok (trueRange sourceId text start stop) := by
  rw [makeRange, positionAt_of_boundary ok first, positionAt_of_boundary ok last]
  rfl

theorem makeRange_true {range : SourceRange} (order : start ≤ stop)
    (run : makeRange sourceId (buildPositionIndex text) start stop = .ok range) :
    TrueRange sourceId text range := by
  have read := run
  obtain ⟨first, started, run⟩ := bind_eq_ok.mp run
  obtain ⟨last, stopped, run⟩ := bind_eq_ok.mp run
  have startBoundary := boundary_of_positionAt ok started
  have stopBoundary := boundary_of_positionAt ok stopped
  rw [makeRange_of_boundaries ok startBoundary stopBoundary] at read
  exact ⟨start, stop, order, startBoundary, stopBoundary, (Except.ok.inj read).symm⟩

end Index

/-- The ranges of a reference are true ranges. -/
theorem lexImportReferences_true
    {extractMarkdownContent : (sourceId text : Text) → Option MarkdownExtractionResult}
    {input : ImportLexerInput} {references : List ImportReference}
    (ok : wellFormed input.text = true)
    (run : lexImportReferences extractMarkdownContent input = .ok references) :
    ∀ reference ∈ references, TrueRange input.sourceId input.text reference.range ∧
      TrueRange input.sourceId input.text reference.specifierRange := by
  obtain ⟨_, -, run⟩ := bind_eq_ok.mp run
  split at run
  · cases run
  obtain ⟨candidates, scan, run⟩ := bind_eq_ok.mp run
  have scanned := scanFrom_eq_ok scan
  intro reference member
  obtain ⟨⟨candidate, index⟩, inScan, made⟩ := exists_of_mem_mapM run member
  have at_ := scanned.candidate candidate (List.fst_mem_of_mem_zipIdx inScan)
  obtain ⟨owner, -, made⟩ := bind_eq_ok.mp made
  obtain ⟨range, ranged, made⟩ := bind_eq_ok.mp made
  obtain ⟨specifierRange, specifierRanged, made⟩ := bind_eq_ok.mp made
  cases made
  have specifierStart := at_.specifierStart
  have stop := at_.stop
  exact ⟨makeRange_true ok (by omega) ranged, makeRange_true ok (by omega) specifierRanged⟩

end ImportLexer

/-! ## Agreement -/

open IrValidation

/-- The validator of ranges accepts the range, however its fields are ordered. -/
def ValidFor (source : JsValue) (range : SourceRange) : Prop :=
  ∀ value, RangeValue value range → validateSourceRange source value = .ok value

theorem TrueRange.validFor {source : JsValue} {facts : SourceFacts} {range : SourceRange}
    (accepted : AcceptedSource source facts) (isTrue : TrueRange facts.id facts.text range) :
    ValidFor source range := by
  obtain ⟨start, stop, order, first, last, rfl⟩ := isTrue
  exact fun value represents => (validateSourceRange_truePositions accepted first.inside last.inside
    first.whole last.whole represents).mpr order

/-- The positions and the ranges of a text are the same everywhere. -/
structure CoordinateSystem (text : Text) : Prop where
  expected : ∀ offset, Boundary text offset →
    expectedPosition (buildSourcePositionIndex text) offset = some (truePosition text offset)
  frontmatter : ∀ offset, Boundary text offset →
    Frontmatter.position (Frontmatter.buildPositionIndex text) offset =
      .ok (truePosition text offset)
  imports : ∀ offset, Boundary text offset →
    ImportLexer.positionAt (ImportLexer.buildPositionIndex text) offset =
      .ok (truePosition text offset)
  suppressionStart : ∀ number line,
    (buildLineIndex text).lines[number]? = some line → Boundary text line.start ∧
      positionAt (buildLineIndex text) number line.start =
        .ok (truePosition text line.start)
  suppressionStop : ∀ number line,
    (buildLineIndex text).lines[number]? = some line → Boundary text line.stop ∧
      positionAt (buildLineIndex text) number line.stop =
        .ok (truePosition text line.stop)
  /-- What the builders of ranges make of boundaries is there, and valid if they are in order. -/
  built : ∀ source facts, AcceptedSource source facts → facts.text = text → ∀ start stop,
    Boundary text start → Boundary text stop →
      ∃ range, Frontmatter.range facts.id (Frontmatter.buildPositionIndex text) start stop = .ok range ∧
        ImportLexer.makeRange facts.id (ImportLexer.buildPositionIndex text) start stop = .ok range ∧
        (start ≤ stop → ValidFor source range)
  frontmatterRanges : ∀ source facts, AcceptedSource source facts → facts.text = text →
    ∃ ranges, Frontmatter.frontmatterRanges facts.id text = .ok ranges ∧
      ∀ range ∈ ranges.all, ValidFor source range
  importRanges : ∀ source facts, AcceptedSource source facts → ∀ extractMarkdownContent input,
    input.sourceId = facts.id → input.text = text → facts.text = text → ∀ references,
      ImportLexer.lexImportReferences extractMarkdownContent input = .ok references →
        ∀ reference ∈ references, ValidFor source reference.range ∧
          ValidFor source reference.specifierRange
  suppressionRanges : ∀ source facts, AcceptedSource source facts → facts.text = text →
    ∀ directive, ∃ target,
      Suppression.targetRange facts.id (buildLineIndex text) directive = .ok target ∧
        ∀ range ∈ target, ValidFor source range

/-- All position functions of the repository agree on a well-formed text, and the ranges that they build are valid. -/
theorem coordinateSystem {text : Text} (ok : wellFormed text = true) : CoordinateSystem text where
  expected offset boundary := by
    rw [expectedPosition_eq ok, if_pos ⟨boundary.inside, boundary.whole⟩]
  frontmatter offset boundary := Frontmatter.position_eq_ok ok boundary
  imports offset boundary := ImportLexer.positionAt_of_boundary ok boundary
  suppressionStart number line found := (Suppression.positionAt_line_start ok found).symm
  suppressionStop number line found := (Suppression.positionAt_line_stop ok found).symm
  built source facts accepted same start stop first last := by
    subst same
    exact ⟨_, Frontmatter.range_eq_ok ok first last,
      ImportLexer.makeRange_of_boundaries ok first last, fun order =>
        TrueRange.validFor accepted ⟨start, stop, order, first, last, rfl⟩⟩
  frontmatterRanges source facts accepted same := by
    subst same
    obtain ⟨ranges, run, all⟩ := Frontmatter.frontmatterRanges_eq_ok ok facts.id
    exact ⟨ranges, run, fun range member => TrueRange.validFor accepted (all range member)⟩
  importRanges source facts accepted extractMarkdownContent input id inputText same references run
      reference member := by
    subst same
    obtain ⟨range, specifierRange⟩ :=
      ImportLexer.lexImportReferences_true (inputText.symm ▸ ok) run reference member
    rw [id, inputText] at range specifierRange
    exact ⟨TrueRange.validFor accepted range, TrueRange.validFor accepted specifierRange⟩
  suppressionRanges source facts accepted same directive := by
    subst same
    obtain ⟨target, run, all⟩ := Suppression.targetRange_eq_ok ok facts.id directive
    exact ⟨target, run, fun range member => TrueRange.validFor accepted (all range member)⟩

/-- A letter, a line terminator of two units and a surrogate pair. -/
def astralText : Text := [0x61, 0x0d, 0x0a, 0xd83d, 0xde00]

def astralSource : JsValue := .object
  [(js "id", .string (js "s")), (js "path", .string (js "AGENTS.md")),
    (js "encoding", .string (js "utf-8")), (js "bom", .string (js "none")),
    (js "text", .string astralText), (js "byteLength", natValue 7), (js "utf16Length", natValue 5),
    (js "sha256", .string (js "d8ce491735ba3cfc2dad425bd0001a2c05c3f441ab53c803383e596a58b6f198")),
    (js "lineEnding", .string (js "crlf")),
    (js "parseState", .object [(js "state", .string (js "complete"))]),
    (js "rootNodeId", .string (js "root"))]

/-- All of them agree on a surrogate pair behind a line terminator of two units. -/
theorem coordinateSystem_astral : CoordinateSystem astralText ∧
    ∃ facts, AcceptedSource astralSource facts ∧ facts.text = astralText :=
  ⟨coordinateSystem (by decide), {
      id := js "s", path := js "AGENTS.md", text := astralText, rootNodeId := js "root"
      positions := buildSourcePositionIndex astralText },
    ⟨by decide +kernel, by decide +kernel, by decide +kernel⟩, rfl⟩

end AgentContextLint
