import AgentContextLint.Core.SourceCoordinates
import AgentContextLint.Lib.Metered

/-!
# Positions in frontmatter

Model of the positions of `packages/syntax/src/frontmatter-parser.ts`: the index of a text, the
search in it, and the ranges that the parser builds in front of the YAML parse.
-/

namespace AgentContextLint

open Utf16 Metered

inductive FrontmatterParserErrorCode
  | invalidInput
  | invalidLimit

structure FrontmatterParserError where
  code : FrontmatterParserErrorCode
  message : String

namespace Frontmatter

open SourceCoordinates (unitBytes)

/-- A byte offset is missing inside a surrogate pair. -/
structure PositionIndex where
  byteOffsets : List (Option Nat)
  lineStarts : List Nat

def byteOffsetsFrom (byteOffset : Nat) : Text → List (Option Nat)
  | [] => []
  | [u] => if isHighSurrogate u then [none] else [some (byteOffset + unitBytes u)]
  | u :: v :: rest =>
    if isHighSurrogate u then none :: some (byteOffset + 4) :: byteOffsetsFrom (byteOffset + 4) rest
    else some (byteOffset + unitBytes u) :: byteOffsetsFrom (byteOffset + unitBytes u) (v :: rest)

/-- The line start behind a unit, seen from the unit that the loop goes on with. -/
def startBehind (unit : CodeUnit) (next : Option CodeUnit) (start : Nat) : List Nat :=
  if unit = 0x0a ∨ (unit = 0x0d ∧ next ≠ some 0x0a) then [start] else []

def lineStartsFrom (offset : Nat) : Text → List Nat
  | [] => []
  | [u] => startBehind u none (offset + 1)
  | u :: v :: rest =>
    if isHighSurrogate u then
      startBehind u rest.head? (offset + 2) ++ lineStartsFrom (offset + 2) rest
    else startBehind u (some v) (offset + 1) ++ lineStartsFrom (offset + 1) (v :: rest)

def buildPositionIndex (text : Text) : PositionIndex where
  byteOffsets := some 0 :: byteOffsetsFrom 0 text
  lineStarts := 0 :: lineStartsFrom 0 text

def position (index : PositionIndex) (offset : Nat) : Except FrontmatterParserError SourcePosition :=
  let bounded := min offset (index.byteOffsets.length - 1)
  let low := Bisect.lastPassing
    (fun middle => (index.lineStarts[middle]?).getD 0 ≤ bounded) index.lineStarts.length
  match index.byteOffsets[bounded]? with
  | some (some byteOffset) => .ok {
      byteOffset
      line := low
      utf16Column := bounded - (index.lineStarts[low]?).getD 0
      utf16Offset := bounded }
  | _ => .error ⟨.invalidInput, "range offset splits a Unicode surrogate pair"⟩

def range (sourceId : Text) (index : PositionIndex) (start stop : Nat) :
    Except FrontmatterParserError SourceRange := do
  let stop ← position index stop
  let start ← position index start
  return { sourceId, start, stop }

/-! ## The envelope -/

def isLineBreak (u : CodeUnit) : Bool := u == 0x0a || u == 0x0d

/-- The first loop of `lineBounds`. -/
def lineEnd (text : Text) (start : Nat) : Nat :=
  start + ((text.drop start).takeWhile (!isLineBreak ·)).length

/-- What `lineBounds` skips behind the end of a line. -/
def behindLine (text : Text) (stop : Nat) : Nat :=
  let next := if text[stop]? = some 0x0d then stop + 1 else stop
  if text[next]? = some 0x0a then next + 1 else next

/-- Where the line ends that starts at `start`, and where the next one starts. -/
def lineBounds (text : Text) (start : Nat) : Nat × Nat :=
  (lineEnd text start, behindLine text (lineEnd text start))

structure Envelope where
  bodyStart : Nat
  contentEnd : Nat
  contentStart : Nat
  envelopeEnd : Nat

inductive EnvelopeSearch
  | absent
  | unclosed
  | found (envelope : Envelope)

def delimiter : Text := js "---"

/-- The loop over the lines; every round goes on at a later line, so that one round for each unit
is enough. -/
def findClosing (text : Text) (contentStart : Nat) : (fuel lineStart : Nat) → EnvelopeSearch
  | 0, _ => .unclosed
  | fuel + 1, lineStart =>
    if lineStart < text.length then
      let (lineEnd, nextLine) := lineBounds text lineStart
      if (text.drop lineStart).take (lineEnd - lineStart) = delimiter then
        .found {
          bodyStart := nextLine, contentEnd := lineStart, contentStart, envelopeEnd := nextLine }
      else findClosing text contentStart fuel nextLine
    else .unclosed

def findEnvelope (text : Text) : EnvelopeSearch :=
  let (firstEnd, contentStart) := lineBounds text 0
  if text.take firstEnd = delimiter then findClosing text contentStart text.length contentStart
  else .absent

def isYamlCharacter (codePoint : Nat) : Bool :=
  codePoint == 0x09 || codePoint == 0x0a || codePoint == 0x0d ||
    (0x20 ≤ codePoint && codePoint ≤ 0x7e) || codePoint == 0x85 ||
    (0xa0 ≤ codePoint && codePoint ≤ 0xd7ff) || (0xe000 ≤ codePoint && codePoint ≤ 0xfffd) ||
    (0x10000 ≤ codePoint && codePoint ≤ 0x10ffff)

/-- The loop of `firstForbiddenYamlCharacter`. -/
def forbiddenFrom (offset : Nat) : Text → Option (Nat × Nat)
  | [] => none
  | [u] => if isYamlCharacter u.toNat then none else some (offset, offset + 1)
  | u :: v :: rest =>
    if isHighSurrogate u && isLowSurrogate v then
      if isYamlCharacter (0x10000 + (u.toNat - 0xd800) * 0x400 + (v.toNat - 0xdc00)) then
        forbiddenFrom (offset + 2) rest
      else some (offset, offset + 2)
    else if isYamlCharacter u.toNat then forbiddenFrom (offset + 1) (v :: rest)
    else some (offset, offset + 1)

def firstForbiddenYamlCharacter (text : Text) : Option (Nat × Nat) := forbiddenFrom 0 text

/-- The ranges of a result, and the range of an issue about a forbidden character. -/
structure FrontmatterRanges where
  bodyRange : SourceRange
  contentRange : Option SourceRange
  frontmatterRange : Option SourceRange
  forbiddenRange : Option SourceRange

/-- `parseFrontmatter` from the decoded text to the YAML parse. -/
def frontmatterRanges (sourceId text : Text) : Except FrontmatterParserError FrontmatterRanges := do
  let index := buildPositionIndex text
  let wholeRange ← range sourceId index 0 text.length
  match findEnvelope text with
  | .absent => return {
      bodyRange := wholeRange, contentRange := none, frontmatterRange := none, forbiddenRange := none }
  | .unclosed =>
    let bodyRange ← range sourceId index text.length text.length
    return {
      bodyRange, contentRange := none, frontmatterRange := some wholeRange, forbiddenRange := none }
  | .found envelope =>
    let bodyRange ← range sourceId index envelope.bodyStart text.length
    let contentRange ← range sourceId index envelope.contentStart envelope.contentEnd
    let frontmatterRange ← range sourceId index 0 envelope.envelopeEnd
    let content := (text.drop envelope.contentStart).take
      (envelope.contentEnd - envelope.contentStart)
    match firstForbiddenYamlCharacter content with
    | none => return {
        bodyRange, contentRange := some contentRange, frontmatterRange := some frontmatterRange
        forbiddenRange := none }
    | some (first, last) =>
      let forbiddenRange ← range sourceId index (envelope.contentStart + first)
        (envelope.contentStart + last)
      return {
        bodyRange, contentRange := some contentRange, frontmatterRange := some frontmatterRange
        forbiddenRange := some forbiddenRange }

/-! ## True positions -/

section Index

variable {text : Text} (ok : wellFormed text = true)
include ok

open SourceCoordinates

theorem byteOffsets_buildPositionIndex :
    (buildPositionIndex text).byteOffsets = byteOffsets text := by
  refine byteOffsets_of_loop (fun _ => rfl) (fun b u rest plain => ?_)
    (fun b u v rest high low => ?_) ok
  · have notHigh : ¬ isHighSurrogate u = true := by simp [isHighSurrogate_of_plain plain]
    cases rest with
    | nil => exact if_neg notHigh
    | cons v rest => rw [byteOffsetsFrom, if_neg notHigh]
  · rw [byteOffsetsFrom, if_pos high]

theorem lineStarts_buildPositionIndex : (buildPositionIndex text).lineStarts = lineStarts text := by
  refine congrArg (0 :: ·) (terminatorEnds_of_loop (fun _ => rfl) (fun i u rest plain => ?_)
    (fun i u v rest high low => ?_) ok)
  · have notHigh : ¬ isHighSurrogate u = true := by simp [isHighSurrogate_of_plain plain]
    cases rest with
    | nil => exact (List.append_nil _).symm
    | cons v rest =>
      rw [lineStartsFrom, if_neg notHigh]
      rfl
  · have noBreak : ¬ (u = 0x0a ∨ (u = 0x0d ∧ rest.head? ≠ some 0x0a)) := by
      rintro (rfl | ⟨rfl, -⟩)
      · exact absurd high (by decide)
      · exact absurd high (by decide)
    rw [lineStartsFrom, if_pos high, startBehind, if_neg noBreak, List.nil_append]

/-- At every offset of the text that splits no surrogate pair, the position is the true one. -/
theorem position_eq_ok {offset : Nat} (boundary : Boundary text offset) :
    position (buildPositionIndex text) offset = .ok (truePosition text offset) := by
  obtain ⟨inside, whole⟩ := boundary
  have size : (byteOffsets text).length - 1 = text.length := by
    rw [byteOffsets, List.length_map, List.length_range, Nat.add_sub_cancel]
  have tests : Bisect.lastPassing (fun middle => decide (((lineStarts text)[middle]?).getD 0 ≤ offset))
      (lineStarts text).length = (terminatorEnds text offset).length := by
    rw [← lastPassing_lineStarts inside]
    refine Bisect.lastPassing_congr fun i less => ?_
    rw [List.getElem?_eq_getElem less, Option.getD_some, Option.any_some]
  rw [position, byteOffsets_buildPositionIndex ok, lineStarts_buildPositionIndex ok, size,
    Nat.min_eq_left inside, getElem?_byteOffsets inside whole]
  dsimp only
  rw [tests, getElem?_lineStarts inside, Option.getD_some]
  rfl

theorem range_eq_ok {sourceId : Text} {start stop : Nat} (first : Boundary text start)
    (last : Boundary text stop) :
    range sourceId (buildPositionIndex text) start stop =
      .ok (trueRange sourceId text start stop) := by
  rw [range, position_eq_ok ok last, position_eq_ok ok first]
  rfl

end Index

variable {text : Text} {start : Nat} {contentStart fuel lineStart : Nat} {envelope : Envelope}

/-! ## The ranges in front of the YAML parse -/

open SourceCoordinates

theorem not_of_getElem?_length_takeWhile {α : Type} {p : α → Bool} {xs : List α} {x : α}
    (found : xs[(xs.takeWhile p).length]? = some x) : p x = false := by
  induction xs with
  | nil => cases found
  | cons y ys ih =>
    rw [List.takeWhile_cons] at found
    split at found
    · exact ih found
    · rename_i stops
      obtain rfl := Option.some.inj found
      exact Bool.eq_false_iff.mpr stops

theorem lineEnd_le (inside : start ≤ text.length) : lineEnd text start ≤ text.length := by
  have size := (List.takeWhile_sublist (!isLineBreak ·) (l := text.drop start)).length_le
  rw [List.length_drop] at size
  unfold lineEnd
  omega

theorem isLineBreak_lineEnd {u : CodeUnit}
    (unit : text[lineEnd text start]? = some u) : u = 0x0a ∨ u = 0x0d := by
  rw [lineEnd, ← List.getElem?_drop] at unit
  have stops := not_of_getElem?_length_takeWhile unit
  rwa [Bool.not_eq_false', isLineBreak, Bool.or_eq_true, beq_iff_eq, beq_iff_eq] at stops

theorem behindLine_boundary {stop : Nat} (inside : stop ≤ text.length)
    (breaks : ∀ u, text[stop]? = some u → u = 0x0a ∨ u = 0x0d) :
    stop ≤ behindLine text stop ∧ Boundary text (behindLine text stop) := by
  unfold behindLine
  dsimp only
  split_ifs with carriage feed feed
  · exact ⟨by omega, .succ feed (by decide)⟩
  · exact ⟨by omega, .succ carriage (by decide)⟩
  · exact ⟨by omega, .succ feed (by decide)⟩
  · refine ⟨Nat.le_refl _, ?_⟩
    cases unit : text[stop]? with
    | none =>
      have atEnd : stop = text.length :=
        Nat.le_antisymm inside (List.getElem?_eq_none_iff.mp unit)
      exact atEnd ▸ Boundary.length text
    | some u =>
      rcases breaks u unit with rfl | rfl
      · exact absurd unit feed
      · exact absurd unit carriage

/-- Lines lie behind each other, and start at boundaries. -/
theorem lineBounds_next (inside : start ≤ text.length) :
    start ≤ (lineBounds text start).2 ∧ Boundary text (lineBounds text start).2 := by
  obtain ⟨behind, boundary⟩ := behindLine_boundary (lineEnd_le inside) fun _ => isLineBreak_lineEnd
  exact ⟨Nat.le_trans (Nat.le_add_right _ _) behind, boundary⟩

theorem lt_behindLine {stop : Nat} {u : CodeUnit} (unit : text[stop]? = some u)
    (breaks : u = 0x0a ∨ u = 0x0d) : stop < behindLine text stop := by
  unfold behindLine
  dsimp only
  rcases breaks with rfl | rfl
  · have apart : ¬ text[stop]? = some 0x0d := by rw [unit]; decide
    rw [if_neg apart, if_pos unit]
    exact Nat.lt_succ_self stop
  · rw [if_pos unit]
    split_ifs <;> omega

theorem lt_lineBounds (inside : start < text.length) : start < (lineBounds text start).2 := by
  obtain ⟨behind, -⟩ := behindLine_boundary (lineEnd_le (Nat.le_of_lt inside)) fun _ =>
    isLineBreak_lineEnd
  have order : start ≤ lineEnd text start := Nat.le_add_right _ _
  rcases Nat.eq_or_lt_of_le order with same | less
  · have unit : text[lineEnd text start]? = some text[start] := by
      rw [← same, List.getElem?_eq_getElem inside]
    exact Nat.lt_of_le_of_lt (Nat.le_of_eq same) (lt_behindLine unit (isLineBreak_lineEnd unit))
  · exact Nat.lt_of_lt_of_le less behind

/-- The rounds that one round for each unit gives are enough. -/
theorem findClosing_enough (enough : text.length ≤ lineStart + fuel) :
    findClosing text contentStart (fuel + 1) lineStart = findClosing text contentStart fuel lineStart := by
  induction fuel generalizing lineStart with
  | zero => exact if_neg (Nat.not_lt.mpr enough)
  | succ fuel ih =>
    rw [findClosing, findClosing]
    split
    · rename_i inside
      have later := lt_lineBounds inside
      dsimp only
      rw [ih (by omega)]
    · rfl

/-- An envelope lies between boundaries of the text. -/
structure Envelope.Bounded (text : Text) (envelope : Envelope) : Prop where
  content : envelope.contentStart ≤ envelope.contentEnd
  contentStart : Boundary text envelope.contentStart
  contentEnd : Boundary text envelope.contentEnd
  bodyStart : Boundary text envelope.bodyStart
  envelopeEnd : envelope.envelopeEnd = envelope.bodyStart

theorem findClosing_bounded (order : contentStart ≤ lineStart) (start : Boundary text contentStart)
    (line : Boundary text lineStart)
    (run : findClosing text contentStart fuel lineStart = .found envelope) :
    envelope.Bounded text := by
  induction fuel generalizing lineStart with
  | zero => cases run
  | succ fuel ih =>
    rw [findClosing] at run
    obtain ⟨behind, next⟩ := lineBounds_next line.inside
    split at run
    · dsimp only at run
      split at run
      · obtain rfl := EnvelopeSearch.found.inj run
        exact ⟨order, start, line, next, rfl⟩
      · exact ih (Nat.le_trans order behind) next run
    · cases run

theorem findEnvelope_bounded
    (run : findEnvelope text = .found envelope) : envelope.Bounded text := by
  obtain ⟨-, start⟩ := lineBounds_next (Nat.zero_le text.length)
  unfold findEnvelope at run
  dsimp only at run
  split at run
  · exact findClosing_bounded (Nat.le_refl _) start start run
  · cases run

/-- The first forbidden character is one unit or one surrogate pair. -/
theorem forbiddenFrom_boundary {offset first last : Nat} {units : Text}
    (run : forbiddenFrom offset units = some (first, last)) :
    ∃ k m, first = offset + k ∧ last = offset + m ∧ k < m ∧ Boundary units k ∧ Boundary units m := by
  induction offset, units using forbiddenFrom.induct with
  | case1 offset => cases run
  | case2 offset u permitted =>
    rw [forbiddenFrom, if_pos permitted] at run
    cases run
  | case3 offset u forbidden =>
    rw [forbiddenFrom, if_neg forbidden] at run
    obtain ⟨rfl, rfl⟩ := Prod.mk.inj (Option.some.inj run)
    exact ⟨0, 1, rfl, rfl, Nat.one_pos, .zero _, .length [u]⟩
  | case4 offset u v rest pair permitted ih =>
    rw [forbiddenFrom, if_pos pair, if_pos permitted] at run
    obtain ⟨k, m, rfl, rfl, less, left, right⟩ := ih run
    rw [Bool.and_eq_true] at pair
    refine ⟨k + 2, m + 2, by omega, by omega, by omega, ?_, ?_⟩
    · exact ⟨Nat.add_le_add_right left.inside 2, (splitsPair_pair pair.2 rest k).trans left.whole⟩
    · exact ⟨Nat.add_le_add_right right.inside 2, (splitsPair_pair pair.2 rest m).trans right.whole⟩
  | case5 offset u v rest pair forbidden =>
    rw [forbiddenFrom, if_pos pair, if_neg forbidden] at run
    obtain ⟨rfl, rfl⟩ := Prod.mk.inj (Option.some.inj run)
    rw [Bool.and_eq_true] at pair
    exact ⟨0, 2, rfl, rfl, Nat.two_pos, .zero _, ⟨by simp, splitsPair_pair pair.2 rest 0⟩⟩
  | case6 offset u v rest apart permitted ih =>
    rw [forbiddenFrom, if_neg apart, if_pos permitted] at run
    obtain ⟨k, m, rfl, rfl, less, left, right⟩ := ih run
    have single : (isHighSurrogate u && ((v :: rest).head?).any isLowSurrogate) = false :=
      Bool.eq_false_iff.mpr apart
    refine ⟨k + 1, m + 1, by omega, by omega, by omega, ?_, ?_⟩
    · exact ⟨Nat.add_le_add_right left.inside 1, (splitsPair_cons single k).trans left.whole⟩
    · exact ⟨Nat.add_le_add_right right.inside 1, (splitsPair_cons single m).trans right.whole⟩
  | case7 offset u v rest apart forbidden =>
    rw [forbiddenFrom, if_neg apart, if_neg forbidden] at run
    obtain ⟨rfl, rfl⟩ := Prod.mk.inj (Option.some.inj run)
    have single : (isHighSurrogate u && ((v :: rest).head?).any isLowSurrogate) = false :=
      Bool.eq_false_iff.mpr apart
    exact ⟨0, 1, rfl, rfl, Nat.one_pos, .zero _, ⟨by simp, splitsPair_cons single 0⟩⟩

def FrontmatterRanges.all (ranges : FrontmatterRanges) : List SourceRange :=
  ranges.bodyRange :: ranges.contentRange.toList ++ ranges.frontmatterRange.toList ++
    ranges.forbiddenRange.toList

/-- The ranges in front of the YAML parse lie between such offsets. -/
theorem frontmatterRanges_eq_ok (ok : wellFormed text = true) (sourceId : Text) :
    ∃ ranges, frontmatterRanges sourceId text = .ok ranges ∧
      ∀ range ∈ ranges.all, TrueRange sourceId text range := by
  have whole : TrueRange sourceId text (trueRange sourceId text 0 text.length) :=
    ⟨0, text.length, Nat.zero_le _, .zero text, .length text, rfl⟩
  unfold frontmatterRanges
  dsimp only
  rw [range_eq_ok ok (.zero text) (.length text)]
  cases search : findEnvelope text with
  | absent => exact ⟨_, rfl, by simpa [FrontmatterRanges.all] using whole⟩
  | unclosed =>
    have atEnd : TrueRange sourceId text (trueRange sourceId text text.length text.length) :=
      ⟨_, _, Nat.le_refl _, .length text, .length text, rfl⟩
    dsimp only [ok_bind]
    rw [range_eq_ok ok (.length text) (.length text)]
    exact ⟨_, rfl, by simpa [FrontmatterRanges.all] using ⟨atEnd, whole⟩⟩
  | found envelope =>
    obtain ⟨order, contentStart, contentEnd, bodyStart, envelopeEnd⟩ := findEnvelope_bounded search
    have body : TrueRange sourceId text (trueRange sourceId text envelope.bodyStart text.length) :=
      ⟨_, _, bodyStart.inside, bodyStart, .length text, rfl⟩
    have content : TrueRange sourceId text
        (trueRange sourceId text envelope.contentStart envelope.contentEnd) :=
      ⟨_, _, order, contentStart, contentEnd, rfl⟩
    have front : TrueRange sourceId text (trueRange sourceId text 0 envelope.bodyStart) :=
      ⟨_, _, Nat.zero_le _, .zero text, bodyStart, rfl⟩
    dsimp only [ok_bind]
    rw [range_eq_ok ok bodyStart (.length text), range_eq_ok ok contentStart contentEnd, envelopeEnd,
      range_eq_ok ok (.zero text) bodyStart]
    dsimp only [ok_bind]
    cases forbidden : firstForbiddenYamlCharacter _ with
    | none => exact ⟨_, rfl, by simpa [FrontmatterRanges.all] using ⟨body, content, front⟩⟩
    | some found =>
      obtain ⟨first, last⟩ := found
      obtain ⟨k, m, rfl, rfl, less, left, right⟩ := forbiddenFrom_boundary forbidden
      rw [Nat.zero_add, Nat.zero_add]
      have from_ := contentStart.of_part contentEnd order left
      have to_ := contentStart.of_part contentEnd order right
      have character : TrueRange sourceId text (trueRange sourceId text
          (envelope.contentStart + k) (envelope.contentStart + m)) :=
        ⟨_, _, by omega, from_, to_, rfl⟩
      dsimp only
      rw [range_eq_ok ok from_ to_]
      exact ⟨_, rfl, by simpa [FrontmatterRanges.all] using ⟨body, content, front, character⟩⟩

end Frontmatter

end AgentContextLint
