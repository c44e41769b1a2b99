import AgentContextLint.Lib.UnitPattern
import AgentContextLint.Syntax.FrontmatterPositions
import AgentContextLint.Syntax.SuppressionLines

/-!
# Inert lines

Model of the part of `packages/syntax/src/suppression.ts` that keeps directives out of frontmatter,
beside the envelope that the frontmatter parser delimits. Which ranges of a text are HTML comments
is what a CommonMark parser says, a parameter.

Suppressions look for the end of frontmatter by a rule of their own: blanks may stand behind a
delimiter, and `...` is one, too. The lines of the envelope behind such a line are not inert
(`envelopeInert_iff`).
-/

namespace AgentContextLint.Suppression

open Utf16 Metered Frontmatter List
open Frontmatter (delimiter frontmatterRanges)

variable {htmlCommentRanges : Text → List (Nat × Nat)} {text : Text}

/-! ## Texts of lines -/

def slice (text : Text) (start stop : Nat) : Text := (text.take stop).drop start

def lineText (text : Text) (line : LineBounds) : Text := slice text line.start line.stop

def blanks : Pattern CodeUnit := .star (UnitPattern.oneOf " \t")

/-- `^---[ \t]*$` -/
def opensFrontmatter (line : Text) : Bool :=
  (Pattern.seq (UnitPattern.literal "---") blanks).matchesAll line

/-- `^(?:---|\.\.\.)[ \t]*$` -/
def closesFrontmatter (line : Text) : Bool :=
  (Pattern.seq (.either (UnitPattern.literal "---") (UnitPattern.literal "...")) blanks).matchesAll line

/-- `replace(/^\uFEFF/, "")` -/
def withoutByteOrderMark : Text → Text
  | [] => []
  | u :: rest => if u = 0xfeff then rest else u :: rest

/-! ## Frontmatter -/

def frontmatterLineCount (text : Text) : List LineBounds → Nat
  | [] => 0
  | first :: rest =>
    if opensFrontmatter (withoutByteOrderMark (lineText text first)) then
      match rest.findIdx? fun line => closesFrontmatter (lineText text line) with
      | some line => line + 2
      | none => rest.length + 1
    else 0

structure SourceContext where
  htmlCommentRanges : List (Nat × Nat)
  inertLines : List Bool
  lineIndex : LineIndex

def sourceContext (htmlCommentRanges : Text → List (Nat × Nat)) (text : Text) : SourceContext :=
  let lineIndex := buildLineIndex text
  let frontmatterLines := frontmatterLineCount text lineIndex.lines
  { htmlCommentRanges := htmlCommentRanges text
    inertLines := (List.range lineIndex.lines.length).map (· < frontmatterLines)
    lineIndex }

/-! ## Comments -/

def isBlank (text : Text) : Bool := blanks.matchesAll text

def indexOf (text pattern : Text) : Option Nat :=
  (List.range (text.length + 1)).find? fun offset => pattern.isPrefixOf (text.drop offset)

def lastIndexOf (text pattern : Text) : Option Nat :=
  (List.range (text.length + 1)).reverse.find? fun offset => pattern.isPrefixOf (text.drop offset)

/-- What stands in front of a comment that has its line for itself may be up to three spaces. -/
def isIndentedCode (before : Text) : Bool :=
  isBlank before && (before.contains 0x09 || 3 < before.length)

/-- A comment in one line, from `first` to `last` in its node. -/
def commentInLine (text : Text) (range : SourceRange) (line : LineBounds) (nodeRaw : Text)
    (first last : Nat) : Option Text :=
  let commentStart := range.start.utf16Offset + first
  let commentEnd := range.start.utf16Offset + last
  if ¬ isBlank (nodeRaw.take first) then none
  else if ¬ isBlank (nodeRaw.drop last) then none
  else if commentStart < line.start ∨ line.stop < commentEnd then none
  else
    let before := slice text line.start commentStart
    let before := if range.start.line = 0 then withoutByteOrderMark before else before
    if isIndentedCode before then none else some (slice text commentStart commentEnd)

/-- The comment of a node, for the range of the node. -/
def sourceVerifiedComment (text : Text) (range : SourceRange) (context : SourceContext) :
    Option Text :=
  match context.lineIndex.lines[range.start.line]? with
  | none => none
  | some line =>
    if context.inertLines[range.start.line]? = some true then none
    else
      let nodeRaw := slice text range.start.utf16Offset range.stop.utf16Offset
      match indexOf nodeRaw (js "<!--") with
      | none => none
      | some commentStartInNode =>
        if (range.start.utf16Offset, range.stop.utf16Offset) ∉ context.htmlCommentRanges then none
        else if range.start.line ≠ range.stop.line then some nodeRaw
        else
          match (lastIndexOf nodeRaw (js "-->")).filter (commentStartInNode ≤ ·) with
          | none => some nodeRaw
          | some commentEndInNode =>
            commentInLine text range line nodeRaw commentStartInNode (commentEndInNode + 3)

/-! ## Lines in order -/

/-- The lines that the loop still finds start behind each other. -/
theorem linesFrom_order {start index : Nat} (units : Text) (le : start ≤ index) :
    (∀ line ∈ linesFrom start index units, start ≤ line.start) ∧
      (linesFrom start index units).Pairwise fun first second => first.start < second.start := by
  induction start, index, units using linesFrom.induct with
  | case1 start index nonempty =>
    rw [linesFrom, if_pos nonempty]
    exact ⟨forall_mem_singleton.mpr le_rfl, pairwise_singleton _ _⟩
  | case2 start index empty =>
    rw [linesFrom, if_neg empty]
    exact ⟨forall_mem_nil _, List.Pairwise.nil⟩
  | case3 start index u breaks =>
    rw [linesFrom, if_pos breaks]
    exact ⟨forall_mem_singleton.mpr le_rfl, pairwise_singleton _ _⟩
  | case4 start index u none =>
    rw [linesFrom, if_neg none]
    exact ⟨forall_mem_singleton.mpr le_rfl, pairwise_singleton _ _⟩
  | case5 start index u v rest high ih =>
    rw [linesFrom, if_pos high]
    exact ih (by omega)
  | case6 start index u v rest notHigh breaks pair ih =>
    rw [linesFrom, if_neg notHigh, if_pos breaks, if_pos pair]
    rcases ih le_rfl with ⟨behind, order⟩
    refine ⟨forall_mem_cons.mpr ⟨le_rfl, fun line member => ?_⟩, pairwise_cons.mpr ⟨?_, order⟩⟩
    · have := behind line member
      omega
    · intro line member
      have := behind line member
      dsimp only
      omega
  | case7 start index u v rest notHigh breaks alone ih =>
    rw [linesFrom, if_neg notHigh, if_pos breaks, if_neg alone]
    rcases ih le_rfl with ⟨behind, order⟩
    refine ⟨forall_mem_cons.mpr ⟨le_rfl, fun line member => ?_⟩, pairwise_cons.mpr ⟨?_, order⟩⟩
    · have := behind line member
      omega
    · intro line member
      have := behind line member
      dsimp only
      omega
  | case8 start index u v rest notHigh none ih =>
    rw [linesFrom, if_neg notHigh, if_neg none]
    exact ih (by omega)

theorem lines_order (text : Text) {first second : Nat} {line other : LineBounds}
    (before : first < second) (here : (buildLineIndex text).lines[first]? = some line)
    (there : (buildLineIndex text).lines[second]? = some other) : line.start < other.start := by
  have order := (linesFrom_order text le_rfl : _ ∧ (linesFrom 0 0 text).Pairwise _).2
  rcases List.getElem?_eq_some_iff.mp here with ⟨inside, rfl⟩
  rcases List.getElem?_eq_some_iff.mp there with ⟨inside', rfl⟩
  exact pairwise_iff_getElem.mp order first second inside inside' before

/-! ## The end of frontmatter -/

theorem linesFrom_dashes {rest : Text} (breaks : ∀ u ∈ rest.head?, u = 0x0a ∨ u = 0x0d) :
    ∃ later, linesFrom 0 0 (delimiter ++ rest) = ⟨0, 3⟩ :: later := by
  have dash : ∀ (index : Nat) (v : CodeUnit) (units : Text),
      linesFrom 0 index (0x2d :: v :: units) = linesFrom 0 (index + 1) (v :: units) := by
    intro index v units
    rw [linesFrom, if_neg (by decide), if_neg (by decide)]
  change ∃ later, linesFrom 0 0 (0x2d :: 0x2d :: 0x2d :: rest) = _
  rw [dash, dash]
  cases rest with
  | nil => exact ⟨[], rfl⟩
  | cons u rest =>
    rw [dash]
    have isBreak : u = 0x0d ∨ u = 0x0a := (breaks u rfl).symm
    cases rest with
    | nil =>
      rw [linesFrom, if_pos isBreak]
      exact ⟨[], rfl⟩
    | cons v rest =>
      have low : ¬ isHighSurrogate u = true := by
        rcases isBreak with rfl | rfl <;> decide
      rw [linesFrom, if_neg low, if_pos isBreak]
      split_ifs
      · exact ⟨_, rfl⟩
      · exact ⟨_, rfl⟩

theorem lines_of_delimiter (opening : text.take (lineEnd text 0) = delimiter) :
    ∃ later, (buildLineIndex text).lines = ⟨0, 3⟩ :: later ∧
      lineText text ⟨0, 3⟩ = delimiter := by
  have first : text.takeWhile (!isLineBreak ·) = delimiter := by
    rw [lineEnd, drop_zero, Nat.zero_add] at opening
    rw [← opening]
    exact prefix_iff_eq_take.mp ( takeWhile_prefix _)
  have split : delimiter ++ text.dropWhile (!isLineBreak ·) = text := by
    rw [← first]
    exact takeWhile_append_dropWhile
  have breaks : ∀ u ∈ (text.dropWhile (!isLineBreak ·)).head?, u = 0x0a ∨ u = 0x0d := by
    intro u here
    have stopped := head?_dropWhile_not (!isLineBreak ·) text
    rw [Option.mem_def.mp here] at stopped
    have isBreak : isLineBreak u = true := by simpa using stopped
    simpa [isLineBreak] using isBreak
  rcases linesFrom_dashes breaks with ⟨later, lines⟩
  rw [split] at lines
  refine ⟨later, lines, ?_⟩
  rw [← split]
  rfl

/-- The lines of an envelope, by the index of the suppressions. -/
def LineOf (text : Text) (envelope : SourceRange) (number : Nat) (line : LineBounds) : Prop :=
  (buildLineIndex text).lines[number]? = some line ∧ line.start < envelope.stop.utf16Offset

/-- No directive in an envelope takes effect. -/
structure EnvelopeInert (text : Text) (envelope : SourceRange) : Prop where
  inert : ∀ htmlCommentRanges number line, LineOf text envelope number line →
    (sourceContext htmlCommentRanges text).inertLines[number]? = some true
  silent : ∀ htmlCommentRanges number line range, LineOf text envelope number line →
    range.start.line = number →
    sourceVerifiedComment text range (sourceContext htmlCommentRanges text) = none

/-- No line between the first and the last one of an envelope looks like its end. -/
def NoEarlierEnd (text : Text) (envelope : SourceRange) : Prop :=
  ∀ number line next, 0 < number → (buildLineIndex text).lines[number]? = some line →
    LineOf text envelope (number + 1) next → closesFrontmatter (lineText text line) = false

theorem opening_of_frontmatterRanges {sourceId text : Text} {ranges : Frontmatter.FrontmatterRanges}
    {envelope : SourceRange} (run : frontmatterRanges sourceId text = .ok ranges)
    (delimited : ranges.frontmatterRange = some envelope) :
    text.take (lineEnd text 0) = delimiter := by
  by_contra other
  have absent : findEnvelope text = .absent := if_neg other
  unfold frontmatterRanges at run
  dsimp only at run
  rw [absent] at run
  rcases bind_eq_ok.mp run with ⟨wholeRange, _, run⟩
  cases run
  cases delimited

/-- The lines up to the first one that closes are counted. -/
theorem lt_frontmatterLineCount_iff {first : LineBounds} {later : List LineBounds}
    (opening : lineText text first = delimiter) {number : Nat}
    (inside : number ≤ later.length) :
    number < frontmatterLineCount text (first :: later) ↔
      ∀ before line, later[before]? = some line → before + 1 < number →
        closesFrontmatter (lineText text line) = false := by
  have opens : opensFrontmatter (withoutByteOrderMark (lineText text first)) = true := by
    rw [opening]
    decide
  rw [frontmatterLineCount, if_pos opens]
  cases closing : later.findIdx? fun line => closesFrontmatter (lineText text line) with
  | none =>
    refine iff_of_true (Nat.lt_succ_of_le inside) fun before line found _ => ?_
    exact findIdx?_eq_none_iff.mp closing line (mem_of_getElem? found)
  | some last =>
    rcases findIdx?_eq_some_iff_getElem.mp closing with ⟨exists_, closes, earlier⟩
    dsimp only
    constructor
    · intro counted before line found less
      rcases List.getElem?_eq_some_iff.mp found with ⟨_, rfl⟩
      exact Bool.not_eq_true _ ▸ earlier before (by omega)
    · intro none
      by_contra behind
      have open_ := none last _ (getElem?_eq_getElem exists_) (by omega)
      rw [closes] at open_
      cases open_

theorem inert_iff {number : Nat}
    {line : LineBounds} (found : (buildLineIndex text).lines[number]? = some line) :
    (sourceContext htmlCommentRanges text).inertLines[number]? = some true ↔
      number < frontmatterLineCount text (buildLineIndex text).lines := by
  have inside := (List.getElem?_eq_some_iff.mp found).1
  simp only [sourceContext, getElem?_map, getElem?_range inside, Option.map_some,
    Option.some.injEq, decide_eq_true_eq]

theorem silent_of_inert {range : SourceRange}
    (inert : (sourceContext htmlCommentRanges text).inertLines[range.start.line]? = some true) :
    sourceVerifiedComment text range (sourceContext htmlCommentRanges text) = none := by
  unfold sourceVerifiedComment
  split
  · rfl
  · rw [if_pos inert]

/-- The lines of an envelope are inert exactly if none of them looks like its end too early. -/
theorem envelopeInert_iff {sourceId text : Text} {ranges : Frontmatter.FrontmatterRanges}
    {envelope : SourceRange} (run : frontmatterRanges sourceId text = .ok ranges)
    (delimited : ranges.frontmatterRange = some envelope) :
    EnvelopeInert text envelope ↔ NoEarlierEnd text envelope := by
  rcases lines_of_delimiter (opening_of_frontmatterRanges run delimited) with ⟨later, index, opening⟩
  have counted : ∀ number line, (buildLineIndex text).lines[number]? = some line →
      (number < frontmatterLineCount text (buildLineIndex text).lines ↔
        ∀ before line, 0 < before → (buildLineIndex text).lines[before]? = some line →
          before < number → closesFrontmatter (lineText text line) = false) := by
    intro number line found
    have inside := (List.getElem?_eq_some_iff.mp found).1
    rw [index, length_cons] at inside
    rw [index, lt_frontmatterLineCount_iff opening (Nat.le_of_lt_succ inside)]
    constructor
    · intro none before line positive here less
      rcases Nat.exists_eq_succ_of_ne_zero positive.ne' with ⟨earlier, rfl⟩
      exact none earlier line here less
    · intro none before line here less
      exact none (before + 1) line (Nat.succ_pos before) here less
  constructor
  · intro inert number line next positive found behind
    have lines := (inert_iff behind.1).mp (inert.inert (fun _ => []) _ _ behind)
    exact (counted _ _ behind.1).mp lines number line positive found (Nat.lt_succ_self number)
  · intro none
    have all : ∀ htmlCommentRanges number line, LineOf text envelope number line →
        (sourceContext htmlCommentRanges text).inertLines[number]? = some true := by
      intro htmlCommentRanges number line belongs
      rw [inert_iff belongs.1, counted _ _ belongs.1]
      intro before earlier positive found less
      -- the line behind an earlier one is in the envelope, too
      have inside := (List.getElem?_eq_some_iff.mp belongs.1).1
      have next := getElem?_eq_getElem (Nat.lt_of_le_of_lt less inside)
      refine none before earlier _ positive found ⟨next, ?_⟩
      rcases Nat.eq_or_lt_of_le less with same | further
      · subst same
        cases next.symm.trans belongs.1
        exact belongs.2
      · exact (lines_order text further next belongs.1).trans belongs.2
    refine ⟨all, fun htmlCommentRanges number line range belongs starts => silent_of_inert ?_⟩
    rw [starts]
    exact all htmlCommentRanges number line belongs

def markedText : Text := js "---\ndescription: fixture\n---\nbody\n"

/-- The one line between the marks does not look like an end. -/
theorem envelopeInert_iff_marked : ∃ ranges envelope,
    frontmatterRanges (js "s") markedText = .ok ranges ∧
      ranges.frontmatterRange = some envelope ∧ EnvelopeInert markedText envelope := by
  refine ⟨_, _, rfl, rfl, (envelopeInert_iff rfl rfl).mpr ?_⟩
  have open_ : ∀ number < (buildLineIndex markedText).lines.length, 0 < number →
      ∀ line ∈ (buildLineIndex markedText).lines[number]?,
        ∀ next ∈ (buildLineIndex markedText).lines[number + 1]?, next.start < 29 →
          closesFrontmatter (lineText markedText line) = false := by
    decide +kernel
  intro number line next positive found behind
  exact open_ number (List.getElem?_eq_some_iff.mp found).1 positive line found next behind.1
    behind.2

/-- Behind `...` a directive in the envelope takes effect. -/
def reopenedText : Text :=
  js "---\n...\n<!-- agent-context-lint-disable-next-line ACL250 -->\n---\nbody\n"

/-- The directive behind `...` is taken, though it is in the envelope. -/
theorem not_envelopeInert_reopened : ∃ ranges envelope range,
    frontmatterRanges (js "s") reopenedText = .ok ranges ∧
      ranges.frontmatterRange = some envelope ∧
      range.stop.utf16Offset < envelope.stop.utf16Offset ∧
      sourceVerifiedComment reopenedText range
        (sourceContext (fun _ => [(8, 60)]) reopenedText) =
          some (js "<!-- agent-context-lint-disable-next-line ACL250 -->") ∧
      ¬ EnvelopeInert reopenedText envelope := by
  have takes : sourceVerifiedComment reopenedText ⟨js "s", ⟨8, 8, 2, 0⟩, ⟨60, 60, 2, 52⟩⟩
      (sourceContext (fun _ => [(8, 60)]) reopenedText) =
        some (js "<!-- agent-context-lint-disable-next-line ACL250 -->") := by decide +kernel
  have line : (buildLineIndex reopenedText).lines[2]? = some ⟨8, 60⟩ := by decide +kernel
  refine ⟨_, _, ⟨js "s", ⟨8, 8, 2, 0⟩, ⟨60, 60, 2, 52⟩⟩, rfl, rfl, by decide, takes, fun inert => ?_⟩
  have silent := inert.silent (fun _ => [(8, 60)]) 2 ⟨8, 60⟩
    ⟨js "s", ⟨8, 8, 2, 0⟩, ⟨60, 60, 2, 52⟩⟩ ⟨line, by decide⟩ rfl
  cases takes.symm.trans silent

end AgentContextLint.Suppression
