import AgentContextLint.Core.SourceCoordinates
import AgentContextLint.Syntax.Suppression

/-!
# Positions of suppression targets

Model of the lines of `packages/syntax/src/suppression.ts`: the index of a text, and the range of
the line behind a directive. A last line without units is no line of the index.
-/

namespace AgentContextLint.Suppression

open Utf16 Metered List

open SourceCoordinates

variable {rest : Text} {before : Text} {u : CodeUnit}

structure LineBounds where
  start : Nat
  stop : Nat
  deriving DecidableEq

/-- A byte offset is missing inside a surrogate pair. -/
structure LineIndex where
  byteOffsets : List (Option Nat)
  lines : List LineBounds

def byteOffsetsFrom (byteOffset : Nat) : Text → List (Option Nat)
  | [] => []
  | [u] => if isHighSurrogate u then [none] else [some (byteOffset + unitBytes u)]
  | u :: v :: rest =>
    if isHighSurrogate u then none :: some (byteOffset + 4) :: byteOffsetsFrom (byteOffset + 4) rest
    else if u = 0x0d ∧ v = 0x0a then
      some (byteOffset + unitBytes u) :: some (byteOffset + unitBytes u + 1) ::
        byteOffsetsFrom (byteOffset + unitBytes u + 1) rest
    else some (byteOffset + unitBytes u) :: byteOffsetsFrom (byteOffset + unitBytes u) (v :: rest)

/-- The lines from `lineStart` on; the loop is at `index`. -/
def linesFrom (lineStart index : Nat) : Text → List LineBounds
  | [] => if lineStart < index then [⟨lineStart, index⟩] else []
  | [u] => if u = 0x0d ∨ u = 0x0a then [⟨lineStart, index⟩] else [⟨lineStart, index + 1⟩]
  | u :: v :: rest =>
    if isHighSurrogate u then linesFrom lineStart (index + 2) rest
    else if u = 0x0d ∨ u = 0x0a then
      if u = 0x0d ∧ v = 0x0a then ⟨lineStart, index⟩ :: linesFrom (index + 2) (index + 2) rest
      else ⟨lineStart, index⟩ :: linesFrom (index + 1) (index + 1) (v :: rest)
    else linesFrom lineStart (index + 1) (v :: rest)

def buildLineIndex (text : Text) : LineIndex where
  byteOffsets := some 0 :: byteOffsetsFrom 0 text
  lines := linesFrom 0 0 text

def positionAt (index : LineIndex) (line utf16Offset : Nat) :
    Except SuppressionProcessorError SourcePosition :=
  match index.lines[line]?, index.byteOffsets[utf16Offset]? with
  | some lineEntry, some (some byteOffset) =>
    .ok { byteOffset, utf16Offset, line, utf16Column := utf16Offset - lineEntry.start }
  | _, _ => .error ⟨.invalidInput, "a source position could not be derived"⟩

def targetRange (sourceId : Text) (index : LineIndex) (directive : SourceRange) :
    Except SuppressionProcessorError (Option SourceRange) :=
  let lineNumber := directive.stop.line + 1
  match index.lines[lineNumber]? with
  | none => .ok none
  | some line => do
    let start ← positionAt index lineNumber line.start
    let stop ← positionAt index lineNumber line.stop
    return some { sourceId, start, stop }

/-! ## The index -/

theorem byteOffsets_buildLineIndex {text : Text} (ok : wellFormed text = true) :
    (buildLineIndex text).byteOffsets = byteOffsets text := by
  refine byteOffsets_of_loop (fun _ => rfl) (fun b u rest plain => ?_)
    (fun b u v rest high low => ?_) ok
  · have notHigh : ¬ isHighSurrogate u = true := by simp [isHighSurrogate_of_plain plain]
    cases rest with
    | nil => exact if_neg notHigh
    | cons v rest =>
      rw [byteOffsetsFrom, if_neg notHigh]
      split_ifs with both
      · -- the line feed of the pair is counted by the same round
        obtain ⟨rfl, rfl⟩ := both
        cases rest <;> rfl
      · rfl
  · rw [byteOffsetsFrom, if_pos high]

/-- A line of a text: its number, and that it ends at a boundary. -/
structure LineAt (text : Text) (number : Nat) (line : LineBounds) : Prop where
  start : line.start = lineStart text line.stop
  number : (terminatorEnds text line.stop).length = number
  stop : Boundary text line.stop

theorem endsLine_of_break (before : Text)
    (breaks : u = 0x0d ∨ u = 0x0a) (alone : ¬ (u = 0x0d ∧ rest.head? = some 0x0a)) :
    endsLine (before ++ u :: rest) before.length = true := by
  rw [endsLine_length, decide_eq_true_eq]
  rcases breaks with rfl | rfl
  · exact .inr ⟨rfl, fun feed => alone ⟨rfl, feed⟩⟩
  · exact .inl rfl

theorem not_endsLine_of_no_break
    (none : ¬ (u = 0x0d ∨ u = 0x0a)) : endsLine (before ++ u :: rest) before.length = false := by
  rw [endsLine_length, decide_eq_false_iff_not]
  rintro (rfl | ⟨rfl, -⟩)
  · exact none (.inr rfl)
  · exact none (.inl rfl)

theorem LineAt.of_break (breaks : u = 0x0d ∨ u = 0x0a) :
    LineAt (before ++ u :: rest) (terminatorEnds (before ++ u :: rest) before.length).length
      ⟨lineStart (before ++ u :: rest) before.length, before.length⟩ :=
  ⟨rfl, rfl, .before (getElem?_length before u rest) (by rcases breaks with rfl | rfl <;> decide)⟩

variable {v : CodeUnit}

/-- No line ends inside or behind a surrogate pair. -/
theorem same_line_pair (high : isHighSurrogate u = true) (low : isLowSurrogate v = true) :
    terminatorEnds (before ++ u :: v :: rest) (before.length + 2) =
        terminatorEnds (before ++ u :: v :: rest) before.length ∧
      lineStart (before ++ u :: v :: rest) (before.length + 2) =
        lineStart (before ++ u :: v :: rest) before.length := by
  have first : endsLine (before ++ u :: v :: rest) before.length = false :=
    not_endsLine_of_surrogate _ _ (by rw [isSurrogate, high, Bool.true_or])
  have second := not_endsLine_of_surrogate (before ++ [u]) rest
    (show isSurrogate v = true by rw [isSurrogate, low, Bool.or_true])
  rw [append_assoc, singleton_append, length_append] at second
  obtain ⟨ends, starts⟩ := same_line first
  obtain ⟨ends', starts'⟩ := same_line second
  exact ⟨ends'.trans ends, starts'.trans starts⟩

/-- A carriage return and the line feed behind it end one line between them. -/
theorem next_line_crlf :
    (terminatorEnds (before ++ 0x0d :: 0x0a :: rest) (before.length + 2)).length =
        (terminatorEnds (before ++ 0x0d :: 0x0a :: rest) before.length).length + 1 ∧
      lineStart (before ++ 0x0d :: 0x0a :: rest) (before.length + 2) = before.length + 2 := by
  have first : endsLine (before ++ 0x0d :: 0x0a :: rest) before.length = false := by
    rw [endsLine_length]
    simp
  have second : endsLine ((before ++ [0x0d]) ++ 0x0a :: rest) (before ++ [0x0d]).length = true :=
    endsLine_of_break _ (.inr rfl) (by simp)
  rw [append_assoc, singleton_append, length_append] at second
  obtain ⟨ends, -⟩ := same_line first
  obtain ⟨number, starts⟩ := next_line second
  exact ⟨number.trans (congrArg (length · + 1) ends), starts⟩

/-- The lines that the loop still finds are the ones from the line on that it is in. -/
theorem linesFrom_getElem? {text : Text} {before units : Text} {start index k : Nat}
    {line : LineBounds} (ok : wellFormed units = true) (split : text = before ++ units)
    (at_ : index = before.length) (started : start = lineStart text index)
    (found : (linesFrom start index units)[k]? = some line) :
    LineAt text ((terminatorEnds text index).length + k) line := by
  induction start, index, units using linesFrom.induct generalizing before k with
  | case1 start index nonempty =>
    rw [linesFrom, if_pos nonempty] at found
    cases k with
    | succ k => cases found
    | zero =>
      obtain rfl := Option.some.inj found
      rw [append_nil] at split
      subst split at_ started
      exact ⟨rfl, rfl, .length _⟩
  | case2 start index empty =>
    rw [linesFrom, if_neg empty] at found
    cases found
  | case3 start index u breaks =>
    rw [linesFrom, if_pos breaks] at found
    cases k with
    | succ k => cases found
    | zero =>
      obtain rfl := Option.some.inj found
      subst split at_ started
      exact LineAt.of_break breaks
  | case4 start index u none =>
    rw [linesFrom, if_neg none] at found
    cases k with
    | succ k => cases found
    | zero =>
      obtain rfl := Option.some.inj found
      subst split at_ started
      obtain ⟨ends, starts⟩ := same_line (not_endsLine_of_no_break none)
      have whole := Boundary.length (before ++ [u])
      rw [length_append, length_singleton] at whole
      exact ⟨starts.symm, congrArg List.length ends, whole⟩
  | case5 start index u v rest high ih =>
    rw [wellFormed, if_pos high, Bool.and_eq_true] at ok
    rw [linesFrom, if_pos high] at found
    subst split at_
    obtain ⟨ends, starts⟩ := same_line_pair high ok.1
    have behind : before ++ u :: v :: rest = (before ++ [u, v]) ++ rest := by rw [append_assoc]; rfl
    have line := ih ok.2 behind (by rw [length_append]; rfl) (started.trans starts.symm) found
    rwa [ends] at line
  | case6 start index u v rest notHigh breaks pair ih =>
    obtain ⟨rfl, rfl⟩ := pair
    rw [wellFormed_cons (by decide), wellFormed_cons (by decide)] at ok
    rw [linesFrom, if_neg notHigh, if_pos breaks, if_pos ⟨rfl, rfl⟩] at found
    subst split at_
    cases k with
    | zero =>
      obtain rfl := Option.some.inj found
      subst started
      exact LineAt.of_break breaks
    | succ k =>
      obtain ⟨number, starts⟩ := next_line_crlf
      have behind : before ++ 0x0d :: 0x0a :: rest = (before ++ [0x0d, 0x0a]) ++ rest := by
        rw [append_assoc]
        rfl
      have line := ih ok behind (by rw [length_append]; rfl) starts.symm found
      rwa [number, Nat.add_assoc, Nat.add_comm 1 k] at line
  | case7 start index u v rest notHigh breaks alone ih =>
    rw [linesFrom, if_neg notHigh, if_pos breaks, if_neg alone] at found
    have plain : isSurrogate u = false := by rcases breaks with rfl | rfl <;> decide
    rw [wellFormed_cons plain] at ok
    subst at_
    cases k with
    | zero =>
      obtain rfl := Option.some.inj found
      subst split started
      exact LineAt.of_break breaks
    | succ k =>
      have ends : endsLine text before.length = true := by
        rw [split]
        exact endsLine_of_break _ breaks (by simpa using alone)
      obtain ⟨number, starts⟩ := next_line ends
      have behind : text = (before ++ [u]) ++ v :: rest := by rw [append_assoc]; exact split
      have line := ih ok behind (by rw [length_append]; rfl) starts.symm found
      rwa [number, Nat.add_assoc, Nat.add_comm 1 k] at line
  | case8 start index u v rest notHigh none ih =>
    rw [linesFrom, if_neg notHigh, if_neg none] at found
    rw [wellFormed, if_neg notHigh, Bool.and_eq_true] at ok
    subst at_
    have inLine : endsLine text before.length = false := by
      rw [split]
      exact not_endsLine_of_no_break none
    obtain ⟨ends, starts⟩ := same_line inLine
    have behind : text = (before ++ [u]) ++ v :: rest := by rw [append_assoc]; exact split
    have line := ih ok.2 behind (by rw [length_append]; rfl) (started.trans starts.symm) found
    rwa [ends] at line

/-! ## Targets -/

section Targets

variable {text : Text} (ok : wellFormed text = true)
include ok

variable {line : LineBounds} {number : Nat}

section

variable (found : (buildLineIndex text).lines[number]? = some line)

include found

/-- The lines of the index are the lines of the text, in their order. -/
theorem lines_getElem? : LineAt text number line := by
  have whole : text = [] ++ text := rfl
  have inText := linesFrom_getElem? ok whole rfl rfl found
  have none : (terminatorEnds text ([] : Text).length).length + number = number :=
    Nat.zero_add number
  rwa [none] at inText

/-- At the start and at the end of a line, the position is the true one. -/
theorem positionAt_line {offset : Nat}
    (boundary : Boundary text offset) (inLine : lineStart text offset = line.start)
    (numbered : (terminatorEnds text offset).length = number) :
    positionAt (buildLineIndex text) number offset = .ok (truePosition text offset) := by
  rw [positionAt, found, byteOffsets_buildLineIndex ok,
    getElem?_byteOffsets boundary.inside boundary.whole]
  dsimp only
  rw [truePosition, inLine, numbered]

theorem positionAt_line_start :
    positionAt (buildLineIndex text) number line.start = .ok (truePosition text line.start) ∧
      Boundary text line.start := by
  obtain ⟨start, numbered, stop⟩ := lines_getElem? ok found
  have boundary : Boundary text line.start := start ▸ Boundary.lineStart stop.inside
  refine ⟨positionAt_line ok found boundary ?_ ?_, boundary⟩
  · rw [start, lineStart_lineStart]
  · rw [start, terminatorEnds_lineStart, numbered]

theorem positionAt_line_stop :
    positionAt (buildLineIndex text) number line.stop = .ok (truePosition text line.stop) ∧
      Boundary text line.stop := by
  obtain ⟨start, numbered, stop⟩ := lines_getElem? ok found
  exact ⟨positionAt_line ok found stop start.symm numbered, stop⟩

end

/-- The target of a directive is the true range of a line. -/
theorem targetRange_eq_ok (sourceId : Text) (directive : SourceRange) :
    ∃ target, targetRange sourceId (buildLineIndex text) directive = .ok target ∧
      ∀ range ∈ target, TrueRange sourceId text range := by
  unfold targetRange
  dsimp only
  cases found : (buildLineIndex text).lines[directive.stop.line + 1]? with
  | none => exact ⟨none, rfl, nofun⟩
  | some line =>
    obtain ⟨started, start⟩ := positionAt_line_start ok found
    obtain ⟨stopped, stop⟩ := positionAt_line_stop ok found
    have order : line.start ≤ line.stop := by
      rw [(lines_getElem? ok found).start]
      exact lineStart_le _ _
    dsimp only
    rw [started, stopped]
    refine ⟨_, rfl, fun range member => ?_⟩
    obtain rfl := Option.some.inj member
    exact ⟨_, _, order, start, stop, rfl⟩

end Targets

end AgentContextLint.Suppression
