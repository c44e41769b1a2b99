import AgentContextLint.Core.SourceCoordinates
import AgentContextLint.Formatters.Stylish
import AgentContextLint.Lib.GreedyFill

/-!
# The layout of wrapped text

Both loops of `wrapText` are greedy fillings: `hardWrap` fills chunks with the cells of a word
(`hardWrap_eq`), and the packing fills lines with chunks (`wrapText_eq`). What is asked of the lines
is then a question about groups of cells.
-/

namespace AgentContextLint.Stylish

open Utf16 Utf8 List

open GreedyFill
open SourceCoordinates (byteLength_append wellFormed_append)

variable {profile : TerminalProfile} {maximumWidth : Nat} {cells : List Cell} {value : Text}

/-! ## Cells -/

/-- A cell counts its own text. -/
structure Cell.Sound (cell : Cell) : Prop where
  nonempty : cell.text ≠ []
  wellFormed : Utf16.wellFormed cell.text = true
  byteLength : cell.byteLength = Utf8.byteLength cell.text
  codePoints : cell.codePoints = (Utf16.codePoints cell.text).length

theorem sound_marker : marker.Sound := ⟨cons_ne_nil _ _, rfl, rfl, rfl⟩

theorem sound_displayCell {cell : Cell} (sound : cell.Sound) :
    (displayCell maximumWidth cell).Sound := by
  unfold displayCell
  split_ifs
  · exact sound_marker
  · exact sound

theorem sound_terminalCells (ok : wellFormed value = true) :
    ∀ cell ∈ terminalCells profile value, cell.Sound := by
  intro cell member
  rcases mem_map.mp member with ⟨segment, isSegment, rfl⟩
  have nonempty : segment ≠ [] := fun nil =>
    profile.nil_notMem_graphemeSegments value (nil ▸ isSegment)
  exact ⟨nonempty, profile.wellFormed_graphemeSegments value ok segment isSegment, rfl, rfl⟩

theorem sound_displayCells (ok : wellFormed value = true) :
    ∀ cell ∈ displayCells profile maximumWidth value, cell.Sound := by
  intro cell member
  rcases mem_map.mp member with ⟨raw, isCell, rfl⟩
  exact sound_displayCell (sound_terminalCells ok raw isCell)

/-- A cell that is shown is within the width and the budgets. -/
theorem displayCell_within (positive : 1 ≤ maximumWidth) (cell : Cell) :
    (displayCell maximumWidth cell).width ≤ (maximumWidth : CellWidth) := by
  unfold displayCell
  split_ifs with replaced
  · exact WithTop.coe_le_coe.mpr positive
  · exact not_lt.mp fun wide => replaced (.inr (.inl wide))

def cellsText (cells : List Cell) : Text := cells.flatMap (·.text)

def cellsWidth (cells : List Cell) : CellWidth := (cells.map (·.width)).sum

def cellsBytes (cells : List Cell) : Nat := (cells.map (·.byteLength)).sum

def cellsPoints (cells : List Cell) : Nat := (cells.map (·.codePoints)).sum

variable (front back : List Cell)

@[simp] theorem cellsText_append :
    cellsText (front ++ back) = cellsText front ++ cellsText back := flatMap_append

@[simp] theorem cellsWidth_append :
    cellsWidth (front ++ back) = cellsWidth front + cellsWidth back := by
  rw [cellsWidth, map_append, sum_append, cellsWidth, cellsWidth]

@[simp] theorem cellsBytes_append :
    cellsBytes (front ++ back) = cellsBytes front + cellsBytes back := by
  rw [cellsBytes, map_append, sum_append, cellsBytes, cellsBytes]

@[simp] theorem cellsPoints_append :
    cellsPoints (front ++ back) = cellsPoints front + cellsPoints back := by
  rw [cellsPoints, map_append, sum_append, cellsPoints, cellsPoints]

@[simp] theorem cellsText_singleton (cell : Cell) : cellsText [cell] = cell.text :=
  flatMap_singleton _ _

@[simp] theorem cellsWidth_singleton (cell : Cell) : cellsWidth [cell] = cell.width :=
  add_zero _

theorem cellsText_eq_nil (sound : ∀ cell ∈ cells, cell.Sound) :
    cellsText cells = [] ↔ cells = [] := by
  refine ⟨fun nil => eq_nil_iff_forall_not_mem.mpr fun cell member => ?_,
    fun nil => nil ▸ rfl⟩
  exact (sound cell member).nonempty (flatMap_eq_nil_iff.mp nil cell member)

theorem length_codePoints_append {text : Text} (ok : wellFormed text = true) (rest : Text) :
    (codePoints (text ++ rest)).length = (codePoints text).length + (codePoints rest).length := by
  rw [codePoints_append ok, length_append]

theorem measures_cellsText (sound : ∀ cell ∈ cells, cell.Sound) :
    wellFormed (cellsText cells) = true ∧ byteLength (cellsText cells) = cellsBytes cells ∧
      (codePoints (cellsText cells)).length = cellsPoints cells := by
  induction cells with
  | nil => exact ⟨rfl, rfl, rfl⟩
  | cons cell rest ih =>
    rcases forall_mem_cons.mp sound with ⟨first, others⟩
    rcases ih others with ⟨ok, bytes, points⟩
    have split : cellsText (cell :: rest) = cell.text ++ cellsText rest := rfl
    refine ⟨?_, ?_, ?_⟩
    · rw [split]
      exact wellFormed_append first.wellFormed ok
    · rw [split, byteLength_append first.wellFormed, bytes, ← first.byteLength]
      rfl
    · rw [split, length_codePoints_append first.wellFormed, points, ← first.codePoints]
      rfl

/-! ## Chunks -/

def cellFits (maximumWidth reservedBytes reservedCodePoints : Nat) (chunk : List Cell)
    (cell : Cell) : Bool :=
  cellsWidth chunk + cell.width ≤ (maximumWidth : CellWidth) &&
    reservedBytes + cellsBytes chunk + cell.byteLength ≤ maxPlainLineBytes &&
    reservedCodePoints + cellsPoints chunk + cell.codePoints ≤ maxPlainLineCodePoints

/-- The state of `hardWrap` and the filling of chunks. -/
structure Wraps (reservedBytes reservedCodePoints : Nat) (state : HardWrap)
    (filling : Filling Cell) : Prop where
  lines : state.lines = filling.done.map cellsText
  line : state.line = cellsText filling.group
  width : state.width = cellsWidth filling.group
  bytes : state.bytes = reservedBytes + cellsBytes filling.group
  codePoints : state.codePoints = reservedCodePoints + cellsPoints filling.group
  sound : ∀ cell ∈ filling.group, cell.Sound

section Chunks

variable {maximumWidth reservedBytes reservedCodePoints : Nat}
  {cell : Cell} {filling : Filling Cell} {state : HardWrap}

theorem Wraps.breaks_iff (wraps : Wraps reservedBytes reservedCodePoints state filling) :
    breaksBefore maximumWidth state cell ↔ filling.group ≠ [] ∧
      cellFits maximumWidth reservedBytes reservedCodePoints filling.group cell = false := by
  unfold breaksBefore cellFits
  rw [wraps.line, wraps.width, wraps.bytes, wraps.codePoints, ne_eq,
    cellsText_eq_nil wraps.sound, Bool.and_eq_false_iff, Bool.and_eq_false_iff,
    decide_eq_false_iff_not, decide_eq_false_iff_not, decide_eq_false_iff_not, not_le, not_le,
    not_le, or_assoc]

theorem Wraps.wrapCell (wraps : Wraps reservedBytes reservedCodePoints state filling)
    (sound : cell.Sound) :
    Wraps reservedBytes reservedCodePoints
      (Stylish.wrapCell maximumWidth reservedBytes reservedCodePoints state cell)
      (place (cellFits maximumWidth reservedBytes reservedCodePoints) filling cell) := by
  unfold Stylish.wrapCell place
  by_cases full : breaksBefore maximumWidth state cell
  · rw [if_pos full, if_pos (wraps.breaks_iff.mp full)]
    refine ⟨?_, ?_, ?_, ?_, ?_, forall_mem_singleton.mpr sound⟩
    · rw [map_append, ← wraps.lines, map_singleton, ← wraps.line]
      rfl
    · exact (cellsText_singleton cell).symm
    · rw [cellsWidth_singleton]
      exact zero_add _
    · rfl
    · rfl
  · rw [if_neg full, if_neg fun breaks => full (wraps.breaks_iff.mpr breaks)]
    refine ⟨wraps.lines, ?_, ?_, ?_, ?_, ?_⟩
    · rw [cellsText_append, ← wraps.line, cellsText_singleton]
      rfl
    · rw [cellsWidth_append, ← wraps.width, cellsWidth_singleton]
      rfl
    · rw [cellsBytes_append, ← Nat.add_assoc, ← wraps.bytes]
      rfl
    · rw [cellsPoints_append, ← Nat.add_assoc, ← wraps.codePoints]
      rfl
    · exact forall_mem_append.mpr ⟨wraps.sound, forall_mem_singleton.mpr sound⟩

def chunkCells (profile : TerminalProfile)
    (maximumWidth reservedBytes reservedCodePoints : Nat) (word : Text) : List (List Cell) :=
  fill (cellFits maximumWidth reservedBytes reservedCodePoints)
    (displayCells profile maximumWidth word)

theorem hardWrap_eq {word : Text} (nonempty : word ≠ []) (ok : wellFormed word = true) :
    hardWrap profile maximumWidth reservedBytes reservedCodePoints word =
      (chunkCells profile maximumWidth reservedBytes reservedCodePoints word).map cellsText := by
  have start : Wraps reservedBytes reservedCodePoints
      ⟨[], [], 0, reservedBytes, reservedCodePoints⟩ ⟨[], []⟩ :=
    ⟨rfl, rfl, rfl, rfl, rfl, forall_mem_nil _⟩
  have run := foldl_rel start
    (f := Stylish.wrapCell maximumWidth reservedBytes reservedCodePoints)
    (g := place (cellFits maximumWidth reservedBytes reservedCodePoints))
    (l := displayCells profile maximumWidth word)
    fun cell member _ _ wraps => wraps.wrapCell (sound_displayCells ok cell member)
  unfold hardWrap chunkCells fill Filling.groups
  rw [if_neg nonempty]
  dsimp only
  rw [run.line, run.lines]
  by_cases empty : ((displayCells profile maximumWidth word).foldl
      (place (cellFits maximumWidth reservedBytes reservedCodePoints)) ⟨[], []⟩).group = []
  · rw [if_neg (not_not.mpr ((cellsText_eq_nil run.sound).mpr empty)), if_pos empty]
  · rw [if_pos fun nil => empty ((cellsText_eq_nil run.sound).mp nil), if_neg empty,
      map_append, map_singleton]

end Chunks

variable {front : List (List Cell)} {line : List (List Cell)}

/-! ## Lines -/

/-- A chunk as the packing gets it. -/
structure SoundChunk (chunk : List Cell) : Prop where
  nonempty : chunk ≠ []
  sound : ∀ cell ∈ chunk, cell.Sound

theorem SoundChunk.text_ne_nil {chunk : List Cell} (sound : SoundChunk chunk) :
    cellsText chunk ≠ [] :=
  fun nil => sound.nonempty ((cellsText_eq_nil sound.sound).mp nil)

/-- The chunks of a line are parted by spaces. -/
def lineText (line : List (List Cell)) : Text := [0x20].intercalate (line.map cellsText)

def lineWidth (profile : TerminalProfile) (line : List (List Cell)) : CellWidth :=
  (line.map fun chunk => visibleWidth profile (cellsText chunk)).sum + (line.length - 1 : Nat)

def lineBytes (line : List (List Cell)) : Nat := (line.map cellsBytes).sum + (line.length - 1)

def linePoints (line : List (List Cell)) : Nat := (line.map cellsPoints).sum + (line.length - 1)

theorem intercalate_snoc {α : Type} {separator : List α} {front : List (List α)}
    (nonempty : front ≠ []) (last : List α) : separator.intercalate (front ++ [last]) =
      separator.intercalate front ++ (separator ++ last) := by
  induction front with
  | nil => exact absurd rfl nonempty
  | cons first rest ih =>
    cases rest with
    | nil => simp
    | cons second others =>
      have later := ih (cons_ne_nil _ _)
      simp only [cons_append, intercalate_cons_cons] at later ⊢
      rw [later]
      simp only [append_assoc]

theorem lineText_snoc (nonempty : front ≠ []) (chunk : List Cell) :
    lineText (front ++ [chunk]) = lineText front ++ 0x20 :: cellsText chunk := by
  rw [lineText, map_append, map_singleton, intercalate_snoc fun nil => nonempty (map_eq_nil_iff.mp nil)]
  rfl

variable (chunk : List Cell)

theorem lineText_singleton : lineText [chunk] = cellsText chunk :=
  intercalate_singleton

theorem lineText_eq_nil (sound : ∀ chunk ∈ line, SoundChunk chunk) :
    lineText line = [] ↔ line = [] := by
  refine ⟨fun nil => ?_, fun nil => nil ▸ rfl⟩
  induction line using reverseRecOn with
  | nil => rfl
  | append_singleton front chunk ih =>
    by_cases empty : front = []
    · rw [empty, nil_append, lineText_singleton] at nil
      have last := sound chunk (mem_append_right _ mem_cons_self)
      exact absurd nil last.text_ne_nil
    · rw [lineText_snoc empty] at nil
      exact absurd nil (append_ne_nil_of_right_ne_nil _ (cons_ne_nil _ _))

theorem length_snoc_pred (nonempty : front ≠ []) (chunk : List Cell) :
    (front ++ [chunk]).length - 1 = front.length - 1 + 1 := by
  have positive := length_pos_iff.mpr nonempty
  rw [length_append, length_singleton]
  omega

theorem cast_succ (n : Nat) : ((n + 1 : Nat) : CellWidth) = n + 1 := rfl

theorem lineWidth_snoc (nonempty : front ≠ []) (chunk : List Cell) :
    lineWidth profile (front ++ [chunk]) =
      lineWidth profile front + 1 + visibleWidth profile (cellsText chunk) := by
  unfold lineWidth
  rw [map_append, sum_append, map_singleton, sum_singleton,
    length_snoc_pred nonempty, cast_succ, add_right_comm, ← add_assoc]

theorem lineBytes_snoc (nonempty : front ≠ []) (chunk : List Cell) :
    lineBytes (front ++ [chunk]) = lineBytes front + 1 + cellsBytes chunk := by
  unfold lineBytes
  rw [map_append, sum_append, map_singleton, sum_singleton, length_snoc_pred nonempty]
  omega

theorem linePoints_snoc (nonempty : front ≠ []) (chunk : List Cell) :
    linePoints (front ++ [chunk]) = linePoints front + 1 + cellsPoints chunk := by
  unfold linePoints
  rw [map_append, sum_append, map_singleton, sum_singleton, length_snoc_pred nonempty]
  omega

theorem lineWidth_singleton :
    lineWidth profile [chunk] = visibleWidth profile (cellsText chunk) := by
  rw [lineWidth, map_singleton, sum_singleton]
  exact add_zero _

theorem lineBytes_singleton : lineBytes [chunk] = cellsBytes chunk := by
  simp [lineBytes]

theorem linePoints_singleton : linePoints [chunk] = cellsPoints chunk := by
  simp [linePoints]

theorem measures_lineText (sound : ∀ chunk ∈ line, SoundChunk chunk) :
    wellFormed (lineText line) = true ∧ byteLength (lineText line) = lineBytes line ∧
      (codePoints (lineText line)).length = linePoints line := by
  induction line using reverseRecOn with
  | nil => exact ⟨rfl, rfl, rfl⟩
  | append_singleton front chunk ih =>
    rcases forall_mem_append.mp sound with ⟨before, last⟩
    rcases measures_cellsText (last chunk mem_cons_self).sound with ⟨ok, bytes, points⟩
    by_cases empty : front = []
    · rw [empty, nil_append, lineText_singleton, lineBytes_singleton, linePoints_singleton]
      exact ⟨ok, bytes, points⟩
    · rcases ih before with ⟨frontOk, frontBytes, frontPoints⟩
      have spaceOk : wellFormed [(0x20 : CodeUnit)] = true := rfl
      have behind : (0x20 : CodeUnit) :: cellsText chunk = [0x20] ++ cellsText chunk := rfl
      rw [lineText_snoc empty, lineBytes_snoc empty, linePoints_snoc empty, behind]
      refine ⟨wellFormed_append frontOk (wellFormed_append spaceOk ok), ?_, ?_⟩
      · rw [byteLength_append frontOk, byteLength_append spaceOk, frontBytes, bytes, Nat.add_assoc]
        rfl
      · rw [length_codePoints_append frontOk, length_codePoints_append spaceOk, frontPoints,
          points, Nat.add_assoc]
        rfl

def chunkFits (profile : TerminalProfile) (available : Nat) (linePrefix : Text)
    (line : List (List Cell)) (chunk : List Cell) : Bool :=
  lineWidth profile line + 1 + visibleWidth profile (cellsText chunk) ≤ (available : CellWidth) &&
    byteLength linePrefix + lineBytes line + 1 + cellsBytes chunk ≤ maxPlainLineBytes &&
    (codePoints linePrefix).length + linePoints line + 1 + cellsPoints chunk ≤
      maxPlainLineCodePoints

/-- The state of the packing and the filling of lines. -/
structure Packs (profile : TerminalProfile) (linePrefix : Text) (state : Packing)
    (filling : Filling (List Cell)) : Prop where
  lines : state.lines = filling.done.map fun line => linePrefix ++ lineText line
  line : state.line = lineText filling.group
  lineWidth : state.lineWidth = Stylish.lineWidth profile filling.group
  lineBytes : state.lineBytes = byteLength linePrefix + Stylish.lineBytes filling.group
  lineCodePoints :
    state.lineCodePoints = (codePoints linePrefix).length + linePoints filling.group
  sound : ∀ chunk ∈ filling.group, SoundChunk chunk

section Lines

variable {available : Nat} {linePrefix : Text} {filling : Filling (List Cell)} {chunk : List Cell}
  {state : Packing}

theorem Packs.breaks_iff (packs : Packs profile linePrefix state filling) (sound : SoundChunk chunk) :
    breaksChunk profile available state (cellsText chunk) ↔ filling.group ≠ [] ∧
      chunkFits profile available linePrefix filling.group chunk = false := by
  rcases measures_cellsText sound.sound with ⟨_, bytes, points⟩
  unfold breaksChunk chunkFits
  rw [packs.line, packs.lineWidth, packs.lineBytes, packs.lineCodePoints, ne_eq,
    lineText_eq_nil packs.sound, bytes, points, Bool.and_eq_false_iff, Bool.and_eq_false_iff,
    decide_eq_false_iff_not, decide_eq_false_iff_not, decide_eq_false_iff_not, not_le, not_le,
    not_le, or_assoc]

theorem Packs.packChunk (packs : Packs profile linePrefix state filling) (sound : SoundChunk chunk) :
    Packs profile linePrefix
      (Stylish.packChunk profile available linePrefix state (cellsText chunk))
      (place (chunkFits profile available linePrefix) filling chunk) := by
  rcases measures_cellsText sound.sound with ⟨_, bytes, points⟩
  unfold Stylish.packChunk place
  by_cases full : breaksChunk profile available state (cellsText chunk)
  · rw [if_pos full, if_pos ((packs.breaks_iff sound).mp full)]
    refine ⟨?_, ?_, ?_, ?_, ?_, forall_mem_singleton.mpr sound⟩
    · rw [map_append, ← packs.lines, map_singleton, ← packs.line]
    · exact (lineText_singleton chunk).symm
    · exact (lineWidth_singleton chunk).symm
    · rw [lineBytes_singleton, ← bytes]
    · rw [linePoints_singleton, ← points]
  · rw [if_neg full, if_neg fun breaks => full ((packs.breaks_iff sound).mpr breaks)]
    have both : ∀ other ∈ filling.group ++ [chunk], SoundChunk other :=
      forall_mem_append.mpr ⟨packs.sound, forall_mem_singleton.mpr sound⟩
    by_cases empty : filling.group = []
    · rw [if_pos (packs.line.trans ((lineText_eq_nil packs.sound).mpr empty))]
      refine ⟨packs.lines, ?_, ?_, ?_, ?_, both⟩
      · rw [empty]
        exact (lineText_singleton chunk).symm
      · rw [empty, nil_append, lineWidth_singleton]
        show state.lineWidth + _ = _
        rw [packs.lineWidth, empty]
        exact zero_add _
      · rw [empty, nil_append, lineBytes_singleton]
        show state.lineBytes + _ = _
        rw [packs.lineBytes, empty, bytes]
        rfl
      · rw [empty, nil_append, linePoints_singleton]
        show state.lineCodePoints + _ = _
        rw [packs.lineCodePoints, empty, points]
        rfl
    · rw [if_neg fun nil => empty ((lineText_eq_nil packs.sound).mp (packs.line.symm.trans nil))]
      refine ⟨packs.lines, ?_, ?_, ?_, ?_, both⟩
      · rw [lineText_snoc empty, ← packs.line]
      · rw [lineWidth_snoc empty, ← packs.lineWidth]
      · rw [lineBytes_snoc empty]
        show state.lineBytes + 1 + _ = _
        rw [packs.lineBytes, bytes]
        omega
      · rw [linePoints_snoc empty]
        show state.lineCodePoints + 1 + _ = _
        rw [packs.lineCodePoints, points]
        omega

end Lines

variable {word : Text}

/-! ## The whole text -/

theorem wordsOf_eq (value : Text) : wordsOf value = (value.splitOnP isSpaceUnit).filter (· ≠ []) :=
  filter_ne_nil_splitRuns isSpaceUnit value

theorem wordsOf_nonempty {value word : Text} (member : word ∈ wordsOf value) : word ≠ [] :=
  of_decide_eq_true (mem_filter.mp member).2

theorem isSurrogate_of_isSpaceUnit (u : CodeUnit) (space : isSpaceUnit u = true) :
    isSurrogate u = false := by
  rw [eq_of_beq space]
  rfl

theorem wordsOf_wellFormed {value word : Text} (ok : wellFormed value = true)
    (member : word ∈ wordsOf value) : wellFormed word = true := by
  rw [wordsOf_eq] at member
  rw [wellFormed_eq_all_splitOnP isSurrogate_of_isSpaceUnit] at ok
  exact all_eq_true.mp ok word (mem_of_mem_filter member)

theorem terminalCells_text (profile : TerminalProfile) (value : Text) :
    cellsText (terminalCells profile value) = value := by
  rw [cellsText, terminalCells, flatMap_map]
  show (profile.graphemeSegments value).flatMap id = value
  rw [flatMap_id]
  exact profile.flatten_graphemeSegments value

theorem displayCells_ne_nil {maximumWidth : Nat} (nonempty : word ≠ []) :
    displayCells profile maximumWidth word ≠ [] := by
  intro nil
  refine nonempty ?_
  rw [← terminalCells_text profile word, map_eq_nil_iff.mp nil]
  rfl

theorem sound_chunkCells {maximumWidth reservedBytes reservedCodePoints : Nat}
    (ok : wellFormed word = true) :
    ∀ chunk ∈ chunkCells profile maximumWidth reservedBytes reservedCodePoints word,
      SoundChunk chunk := by
  have each : ∀ chunk ∈ chunkCells profile maximumWidth reservedBytes reservedCodePoints word,
      chunk ≠ [] ∧ ∀ cell ∈ chunk, cell.Sound :=
    forall_fill
      (fun cell isCell => forall_mem_singleton.mpr (sound_displayCells ok cell isCell))
      (fun group _ sound cell isCell _ => forall_mem_append.mpr
        ⟨sound, forall_mem_singleton.mpr (sound_displayCells ok cell isCell)⟩)
  exact fun chunk member => ⟨(each chunk member).1, (each chunk member).2⟩

variable (profile) in
def chunksOfWords (available : Nat) (linePrefix value : Text) : List (List Cell) :=
  (wordsOf value).flatMap
    (chunkCells profile available (byteLength linePrefix) (codePoints linePrefix).length)

variable (profile) in
/-- The lines of a text, as chunks of cells. -/
def layout (available : Nat) (linePrefix value : Text) : List (List (List Cell)) :=
  fill (chunkFits profile available linePrefix) (chunksOfWords profile available linePrefix value)

variable {linePrefix value : Text} {available : Nat}

theorem sound_chunksOfWords (ok : wellFormed value = true) :
    ∀ chunk ∈ chunksOfWords profile available linePrefix value, SoundChunk chunk := by
  intro chunk member
  rcases mem_flatMap.mp member with ⟨word, isWord, inWord⟩
  exact sound_chunkCells (wordsOf_wellFormed ok isWord) chunk inWord

theorem chunksOfWords_ne_nil
    (words : wordsOf value ≠ []) : chunksOfWords profile available linePrefix value ≠ [] := by
  intro nil
  rcases exists_mem_of_ne_nil _ words with ⟨word, isWord⟩
  have none := flatMap_eq_nil_iff.mp nil word isWord
  have cells := flatten_fill
    (cellFits available (byteLength linePrefix) (codePoints linePrefix).length)
    (displayCells profile available word)
  rw [← chunkCells, none, flatten_nil] at cells
  exact displayCells_ne_nil (wordsOf_nonempty isWord) cells.symm

theorem chunksOf_eq (ok : wellFormed value = true) :
    chunksOf profile available linePrefix (wordsOf value) =
      (chunksOfWords profile available linePrefix value).map cellsText := by
  unfold chunksOf chunksOfWords
  rw [map_flatMap]
  exact flatMap_congr fun word isWord =>
    hardWrap_eq (wordsOf_nonempty isWord) (wordsOf_wellFormed ok isWord)

theorem wrapText_eq {value linePrefix : Text} {width : Nat} (ok : wellFormed value = true)
    (words : wordsOf value ≠ []) :
    wrapText profile value width linePrefix =
      (layout profile (availableWidth width (visibleWidth profile linePrefix)) linePrefix
        value).map fun line => linePrefix ++ lineText line := by
  unfold wrapText layout fill Filling.groups
  dsimp only
  generalize availableWidth width (visibleWidth profile linePrefix) = available
  have start : Packs profile linePrefix
      ⟨[], [], 0, byteLength linePrefix, (codePoints linePrefix).length⟩ ⟨[], []⟩ :=
    ⟨rfl, rfl, rfl, rfl, rfl, forall_mem_nil _⟩
  have run := foldl_rel start
    (f := fun state chunk => packChunk profile available linePrefix state (cellsText chunk))
    (g := place (chunkFits profile available linePrefix))
    (l := chunksOfWords profile available linePrefix value)
    fun chunk member _ _ packs => packs.packChunk (sound_chunksOfWords ok chunk member)
  have some : chunksOfWords profile available linePrefix value ≠ [] := chunksOfWords_ne_nil words
  have opened := group_foldl_ne_nil (chunkFits profile available linePrefix) some ⟨[], []⟩
  rw [if_neg words, chunksOf_eq ok, foldl_map, if_neg opened, run.line, run.lines,
    map_append, map_singleton]

end AgentContextLint.Stylish
