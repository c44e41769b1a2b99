import AgentContextLint.Formatters.StylishWidths
import Mathlib.Data.List.SplitBy

/-!
# The bounds of wrapped text

Nothing of a text is lost in its lines, and no cluster is cut (`laidOut_wrapText`). The budgets of
bytes and code points hold of the lines exactly if every cell fits beside the prefix
(`withinBudgets_iff`): a cell is replaced by the marker if it is over the budgets alone. The lines
are within the width where the stretches of the text measure what they add up to
(`visibleWidth_le`). A mark that has no width in front of its word can have one behind a space.
-/

namespace AgentContextLint.Stylish

open Utf16 Utf8 List

open GreedyFill
open SourceCoordinates (byteLength_append wellFormed_append)

variable {profile : TerminalProfile} {available : Nat} {value linePrefix : Text}

/-! ## Budgets -/

variable {line : List (List Cell)}

def FitsBeside (profile : TerminalProfile) (available : Nat) (linePrefix value : Text) : Prop :=
  ∀ word ∈ wordsOf value, ∀ cell ∈ displayCells profile available word,
    byteLength linePrefix + cell.byteLength ≤ maxPlainLineBytes ∧
      (codePoints linePrefix).length + cell.codePoints ≤ maxPlainLineCodePoints

theorem chunk_within (fits : FitsBeside profile available linePrefix value) :
    ∀ chunk ∈ chunksOfWords profile available linePrefix value,
      byteLength linePrefix + cellsBytes chunk ≤ maxPlainLineBytes ∧
        (codePoints linePrefix).length + cellsPoints chunk ≤ maxPlainLineCodePoints := by
  intro chunk member
  rcases mem_flatMap.mp member with ⟨word, isWord, inWord⟩
  have each : ∀ chunk ∈ chunkCells profile available (byteLength linePrefix)
      (codePoints linePrefix).length word, chunk ≠ [] ∧
        (byteLength linePrefix + cellsBytes chunk ≤ maxPlainLineBytes ∧
          (codePoints linePrefix).length + cellsPoints chunk ≤ maxPlainLineCodePoints) :=
    forall_fill (fun cell isCell => fits word isWord cell isCell)
      (fun chunk _ _ cell _ fitting => by
        unfold cellFits at fitting
        simp only [Bool.and_eq_true, decide_eq_true_eq] at fitting
        rw [cellsBytes_append, cellsPoints_append, ← Nat.add_assoc, ← Nat.add_assoc]
        exact ⟨fitting.1.2, fitting.2⟩)
  exact (each chunk inWord).2

theorem line_within (fits : FitsBeside profile available linePrefix value) :
    ∀ line ∈ layout profile available linePrefix value,
      byteLength linePrefix + lineBytes line ≤ maxPlainLineBytes ∧
        (codePoints linePrefix).length + linePoints line ≤ maxPlainLineCodePoints := by
  have each : ∀ line ∈ layout profile available linePrefix value, line ≠ [] ∧
      (byteLength linePrefix + lineBytes line ≤ maxPlainLineBytes ∧
        (codePoints linePrefix).length + linePoints line ≤ maxPlainLineCodePoints) :=
    forall_fill
      (fun chunk isChunk => by
        rw [lineBytes_singleton, linePoints_singleton]
        exact chunk_within fits chunk isChunk)
      (fun line nonempty _ chunk _ fitting => by
        unfold chunkFits at fitting
        simp only [Bool.and_eq_true, decide_eq_true_eq] at fitting
        rw [lineBytes_snoc nonempty, linePoints_snoc nonempty]
        omega)
  exact fun line member => (each line member).2

variable {word : Text} {cell : Cell}

theorem mem_layout_of_mem (isWord : word ∈ wordsOf value)
    (isCell : cell ∈ displayCells profile available word) :
    ∃ line ∈ layout profile available linePrefix value, ∃ chunk ∈ line, cell ∈ chunk := by
  rw [← flatten_fill (cellFits available (byteLength linePrefix) (codePoints linePrefix).length)
    (displayCells profile available word)] at isCell
  rcases mem_flatten.mp isCell with ⟨chunk, isChunk, inChunk⟩
  have listed : chunk ∈ chunksOfWords profile available linePrefix value :=
    mem_flatMap.mpr ⟨word, isWord, isChunk⟩
  rw [← flatten_fill (chunkFits profile available linePrefix)
    (chunksOfWords profile available linePrefix value)] at listed
  rcases mem_flatten.mp listed with ⟨line, isLine, inLine⟩
  exact ⟨line, isLine, chunk, inLine, inChunk⟩

theorem sound_layout (ok : wellFormed value = true) :
    ∀ line ∈ layout profile available linePrefix value, ∀ chunk ∈ line, SoundChunk chunk := by
  intro line isLine chunk inLine
  have listed : chunk ∈ (layout profile available linePrefix value).flatten :=
    mem_flatten.mpr ⟨line, isLine, inLine⟩
  rw [layout, flatten_fill] at listed
  exact sound_chunksOfWords ok chunk listed

def WithinBudgets (lines : List Text) : Prop :=
  ∀ line ∈ lines, byteLength line ≤ maxPlainLineBytes ∧
    (codePoints line).length ≤ maxPlainLineCodePoints

theorem withinBudgets_iff (ok : wellFormed value = true) (prefixOk : wellFormed linePrefix = true) :
    WithinBudgets ((layout profile available linePrefix value).map fun line =>
        linePrefix ++ lineText line) ↔ FitsBeside profile available linePrefix value := by
  have measures : ∀ line ∈ layout profile available linePrefix value,
      byteLength (linePrefix ++ lineText line) = byteLength linePrefix + lineBytes line ∧
        (codePoints (linePrefix ++ lineText line)).length =
          (codePoints linePrefix).length + linePoints line := by
    intro line isLine
    rcases measures_lineText (sound_layout ok line isLine) with ⟨_, bytes, points⟩
    rw [byteLength_append prefixOk, length_codePoints_append prefixOk, bytes, points]
    exact ⟨rfl, rfl⟩
  refine ⟨fun within word isWord cell isCell => ?_, fun fits line member => ?_⟩
  · have placed : ∃ line ∈ layout profile available linePrefix value, ∃ chunk ∈ line,
        cell ∈ chunk := mem_layout_of_mem isWord isCell
    rcases placed with ⟨line, isLine, chunk, inLine, inChunk⟩
    have bounds := within _ (mem_map.mpr ⟨line, isLine, rfl⟩)
    rw [(measures line isLine).1, (measures line isLine).2] at bounds
    have cellBytes : cell.byteLength ≤ cellsBytes chunk :=
      single_le_sum (fun _ _ => Nat.zero_le _) _ (mem_map_of_mem inChunk)
    have chunkBytes : cellsBytes chunk ≤ (line.map cellsBytes).sum :=
      single_le_sum (fun _ _ => Nat.zero_le _) _ (mem_map_of_mem inLine)
    have cellPoints : cell.codePoints ≤ cellsPoints chunk :=
      single_le_sum (fun _ _ => Nat.zero_le _) _ (mem_map_of_mem inChunk)
    have chunkPoints : cellsPoints chunk ≤ (line.map cellsPoints).sum :=
      single_le_sum (fun _ _ => Nat.zero_le _) _ (mem_map_of_mem inLine)
    unfold lineBytes linePoints at bounds
    omega
  · rcases mem_map.mp member with ⟨chunks, isLine, rfl⟩
    rw [(measures chunks isLine).1, (measures chunks isLine).2]
    exact line_within fits chunks isLine

/-! ## Content -/

theorem flatten_wordsOf (value : Text) :
    (wordsOf value).flatten = value.filter fun u => !isSpaceUnit u := by
  rw [wordsOf_eq, flatten_filter_ne_nil]
  induction value using splitOnP_induction (p := isSpaceUnit) with
  | clean xs none =>
    rw [splitOnP_eq_singleton none, flatten_singleton, filter_eq_self.mpr]
    intro u member
    rw [none u member]
    rfl
  | cut pre sep post isSep ihPre ihPost =>
    rw [splitOnP_append_cons pre post isSep, flatten_append, ihPre, ihPost,
      filter_append, filter_cons, isSep]
    rfl

/-- The units of a word, and so those of its cells, are no spaces. -/
theorem displayCells_spaceless (isWord : word ∈ wordsOf value)
    (isCell : cell ∈ displayCells profile available word) :
    ∀ u ∈ cell.text, isSpaceUnit u = false := by
  rcases mem_map.mp isCell with ⟨raw, isRaw, rfl⟩
  unfold displayCell
  split_ifs
  · exact forall_mem_singleton.mpr rfl
  · intro u inCell
    rw [wordsOf_eq] at isWord
    refine (mem_piece_of_splitOnP (mem_of_mem_filter isWord) ?_).2
    rw [← terminalCells_text profile word]
    exact mem_flatMap.mpr ⟨raw, isRaw, inCell⟩

theorem filter_lineText (line : List (List Cell)) :
    (lineText line).filter (fun u => !isSpaceUnit u) =
      (cellsText line.flatten).filter fun u => !isSpaceUnit u := by
  induction line using reverseRecOn with
  | nil => rfl
  | append_singleton front chunk ih =>
    rw [flatten_append, flatten_singleton, cellsText_append, filter_append, ← ih]
    by_cases empty : front = []
    · rw [empty, nil_append, lineText_singleton]
      rfl
    · rw [lineText_snoc empty, filter_append, filter_cons]
      rfl

theorem cellsText_flatMap {α : Type} (cells : α → List Cell) (xs : List α) :
    cellsText (xs.flatMap cells) = xs.flatMap fun x => cellsText (cells x) :=
  flatMap_assoc

theorem flatten_filter_cellsText (lines : List (List (List Cell))) :
    (lines.map fun line => (cellsText line.flatten).filter fun u => !isSpaceUnit u).flatten =
      (cellsText lines.flatten.flatten).filter fun u => !isSpaceUnit u := by
  induction lines with
  | nil => rfl
  | cons line rest ih =>
    rw [map_cons, flatten_cons, ih, flatten_cons, flatten_append, cellsText_append, filter_append]

variable (profile available value) in
/-- What is shown of a text without its spaces: the cells over the budgets are replaced. -/
def shownText : Text :=
  (wordsOf value).flatMap fun word => cellsText (displayCells profile available word)

/-- The lines are the cells of the words in order, broken between cells only. -/
structure LaidOut (profile : TerminalProfile) (available : Nat) (linePrefix value : Text)
    (lines : List Text) : Prop where
  startsWith : ∀ line ∈ lines, linePrefix <+: line
  content : ((lines.map (·.drop linePrefix.length)).flatten.filter fun u => !isSpaceUnit u) =
    shownText profile available value
  whole : (wordsOf value).flatMap (fun word => cellsText (terminalCells profile word)) =
    value.filter fun u => !isSpaceUnit u
  unbroken : ∃ (chunks : Text → List (List Cell)) (groups : List (List (List Cell))),
    (∀ word ∈ wordsOf value, (chunks word).flatten = displayCells profile available word ∧
      [] ∉ chunks word) ∧
    groups.flatten = (wordsOf value).flatMap chunks ∧ [] ∉ groups ∧
    lines = groups.map fun line => linePrefix ++ [0x20].intercalate (line.map cellsText)

theorem laidOut_layout (ok : wellFormed value = true) : LaidOut profile available linePrefix value
      ((layout profile available linePrefix value).map fun line => linePrefix ++ lineText line) where
  startsWith line member := by
    rcases mem_map.mp member with ⟨chunks, _, rfl⟩
    exact prefix_append _ _
  content := by
    rw [map_map, filter_flatten, map_map]
    have lines : ∀ line : List (List Cell),
        (((linePrefix ++ lineText line).drop linePrefix.length).filter fun u => !isSpaceUnit u) =
          (cellsText line.flatten).filter fun u => !isSpaceUnit u := by
      intro line
      rw [drop_left, filter_lineText]
    have same : (layout profile available linePrefix value).flatten.flatten =
        (wordsOf value).flatMap (displayCells profile available) := by
      rw [layout, flatten_fill]
      exact flatten_chunksOfWords
    refine (congrArg flatten (map_congr_left fun line _ => lines line)).trans ?_
    rw [flatten_filter_cellsText, same, cellsText_flatMap, filter_eq_self.mpr]
    · rfl
    intro u member
    rcases mem_flatMap.mp member with ⟨word, isWord, inWord⟩
    rcases mem_flatMap.mp inWord with ⟨cell, isCell, inCell⟩
    rw [displayCells_spaceless isWord isCell u inCell]
    rfl
  whole := by
    have texts : (wordsOf value).flatMap (fun word => cellsText (terminalCells profile word)) =
        (wordsOf value).flatMap id :=
      flatMap_congr fun word _ => terminalCells_text profile word
    rw [texts, flatMap_id, flatten_wordsOf]
  unbroken := by
    refine ⟨chunkCells profile available (byteLength linePrefix) (codePoints linePrefix).length,
      layout profile available linePrefix value, fun word isWord => ⟨flatten_fill _ _, ?_⟩,
      flatten_fill _ _, ?_, rfl⟩
    · intro empty
      exact (sound_chunkCells (wordsOf_wellFormed ok isWord) [] empty).nonempty rfl
    · intro empty
      have each : ∀ line ∈ layout profile available linePrefix value, line ≠ [] ∧ True :=
        forall_fill (fun _ _ => trivial) fun _ _ _ _ _ _ => trivial
      exact (each [] empty).1 rfl

/-! ## Wrapped texts -/

/-- What `wrapText` is called with: a text without unpaired surrogates that has a word, and an
ASCII prefix that leaves a cell. -/
structure Wrappable (profile : TerminalProfile) (value : Text) (width : Nat)
    (linePrefix : Text) : Prop where
  wellFormed : Utf16.wellFormed value = true
  word : ∃ u ∈ value, isSpaceUnit u = false
  minimum : stylishMinWidth ≤ width
  ascii : ∀ u ∈ linePrefix, u.toNat < 0x80
  room : visibleWidth profile linePrefix + 1 ≤ (width : CellWidth)

theorem ascii_of_all {text : Text} (all : text.all (fun u => decide (u.toNat < 0x80)) = true) :
    ∀ u ∈ text, u.toNat < 0x80 :=
  fun u member => of_decide_eq_true (all_eq_true.mp all u member)

/-- No line is wider than the width or over the budgets, and nothing is lost or cut. -/
structure WrapsExactly (profile : TerminalProfile) (value : Text) (width : Nat)
    (linePrefix : Text) : Prop where
  widths : ∀ line ∈ wrapText profile value width linePrefix,
    visibleWidth profile line ≤ (width : CellWidth)
  budgets : WithinBudgets (wrapText profile value width linePrefix)
  laidOut : LaidOut profile (availableWidth width (visibleWidth profile linePrefix)) linePrefix
    value (wrapText profile value width linePrefix)

section Wrapped

variable {width : Nat}

section

variable (input : Wrappable profile value width linePrefix)

include input

theorem Wrappable.words_ne_nil : wordsOf value ≠ [] := by
  intro nil
  rcases input.word with ⟨u, member, kept⟩
  have flat := flatten_wordsOf value
  rw [nil, flatten_nil] at flat
  have listed : u ∈ value.filter fun u => !isSpaceUnit u :=
    mem_filter.mpr ⟨member, by rw [kept]; rfl⟩
  rw [← flat] at listed
  cases listed

theorem Wrappable.prefix_wellFormed : Utf16.wellFormed linePrefix = true := by
  refine wellFormed_of_plain fun u member => ?_
  have small := input.ascii u member
  simp [isSurrogate, isHighSurrogate, isLowSurrogate]
  omega

/-- The prefix and the cells behind it are as many as the width. -/
theorem Wrappable.fills : 1 ≤ availableWidth width (visibleWidth profile linePrefix) ∧
      visibleWidth profile linePrefix +
        (availableWidth width (visibleWidth profile linePrefix) : CellWidth) = (width : CellWidth) := by
  have room := input.room
  generalize visibleWidth profile linePrefix = prefixWidth at room ⊢
  cases prefixWidth using WithTop.recTopCoe with
  | top => exact absurd (top_le_iff.mp (le_of_eq_of_le (WithTop.top_add 1).symm room)) WithTop.coe_ne_top
  | coe n =>
    have below : n + 1 ≤ width := WithTop.coe_le_coe.mp room
    have rest : availableWidth width (WithTop.some n) = width - n :=
      max_eq_right (Nat.le_sub_of_add_le' below)
    rw [rest]
    have sum : n + (width - n) = width := by omega
    exact ⟨Nat.le_sub_of_add_le' below, congrArg WithTop.some sum⟩

end

end Wrapped

/-! ## A mark that gets a width behind a space -/

/-- The halfwidth voiced sound mark and the sign visarga do not start a cluster. -/
def attaches (scalar : Nat) : Bool := scalar = 0xff9e || scalar = 0x903

def clusters (text : Text) : List Text :=
  ((codePoints text).splitBy fun _ next => attaches next).map (·.flatMap ofCodePoint)

theorem ofCodePoint_ne_nil (n : Nat) : ofCodePoint n ≠ [] := by
  unfold ofCodePoint
  split_ifs <;> exact cons_ne_nil _ _

/-- Two marks of the tables, and letters that are narrow. -/
def kanaProfile : TerminalProfile where
  graphemeSegments := clusters
  category scalar :=
    if scalar = 0xff9e then .extend else if scalar = 0x903 then .spacingMark else .any
  isEmojiPresentation _ := false
  isExtendedPictographic _ := false
  eastAsianWidth _ := 1
  eastAsianWidthType scalar :=
    if scalar = 0xff9e then .halfwidth
    else if scalar = 0x903 then .neutral
    else if scalar = 0xfffd then .ambiguous
    else .narrow
  flatten_graphemeSegments text := by
    have whole : ((codePoints text).splitBy fun _ next => attaches next).flatten =
        codePoints text := flatten_splitBy _ _
    rw [clusters, ← flatMap_def]
    show flatMap (fun cluster => flatMap ofCodePoint (id cluster)) _ = text
    rw [← flatMap_assoc, flatMap_id, whole, flatMap_ofCodePoint_codePoints]
  nil_notMem_graphemeSegments text member := by
    rcases mem_map.mp member with ⟨cluster, isCluster, nil⟩
    have empty : cluster = [] := eq_nil_iff_forall_not_mem.mpr fun n inCluster =>
      ofCodePoint_ne_nil n (flatMap_eq_nil_iff.mp nil n inCluster)
    exact nil_notMem_splitBy _ _ (empty ▸ isCluster)
  wellFormed_graphemeSegments text ok segment member := by
    rcases mem_map.mp member with ⟨cluster, isCluster, rfl⟩
    refine wellFormed_flatMap_ofCodePoint fun n inCluster => isScalar_of_wellFormed ok n ?_
    rw [← flatten_splitBy (fun _ next => attaches next) (codePoints text)]
    exact mem_flatten.mpr ⟨cluster, isCluster, inCluster⟩

theorem splitBy_forward {α : Type} {r : α → α → Bool} {front : List (List α)} {text last : List α}
    (pieces : text.splitBy r = front ++ [last]) (rest : List α) :
    (text ++ rest).splitBy r = front ++ (last ++ rest).splitBy r := by
  rcases splitBy_eq_iff.mp pieces with ⟨whole, nonempty, inner, between⟩
  rw [mem_append, not_or, mem_singleton] at nonempty
  rcases isChain_append.mp between with ⟨before, _, last'⟩
  refine splitBy_eq_iff.mpr ⟨?_, ?_, ?_, isChain_append.mpr
    ⟨before, isChain_getLast_head_splitBy _ _, ?_⟩⟩
  · rw [whole, flatten_append, flatten_append, flatten_splitBy, flatten_singleton, append_assoc]
  · rw [mem_append, not_or]
    exact ⟨nonempty.1, nil_notMem_splitBy _ _⟩
  · intro piece member
    rcases mem_append.mp member with old | new
    · exact inner piece (mem_append_left _ old)
    · exact isChain_of_mem_splitBy new
  · intro piece isLast first isFirst
    rcases last' piece isLast last rfl with ⟨some, someLast, apart⟩
    have filled : last ++ rest ≠ [] := append_ne_nil_of_left_ne_nil someLast _
    have head := head_head_splitBy r filled
    rw [head_append_of_ne_nil someLast] at head
    rw [head?_eq_some_head (splitBy_ne_nil.mpr filled), Option.mem_some_iff] at isFirst
    subst isFirst
    exact ⟨some, ne_nil_of_mem_splitBy (head_mem _), (congrArg (r _) head).trans apart⟩

theorem standardSegments_kanaProfile : StandardSegments kanaProfile where
  forward text rest front last ok pieces := by
    rcases map_eq_append_iff.mp pieces with ⟨before, behind, split, rfl, ends⟩
    rcases map_eq_singleton_iff.mp ends with ⟨cluster, rfl, rfl⟩
    have scalars : ∀ n ∈ cluster, isScalar n = true := by
      intro n inCluster
      refine isScalar_of_wellFormed ok n ?_
      rw [← flatten_splitBy (fun _ next => attaches next) (codePoints text), split]
      exact mem_flatten.mpr ⟨cluster, mem_append_right _ mem_cons_self, inCluster⟩
    show clusters (text ++ rest) = _ ++ clusters _
    rw [clusters, clusters, codePoints_append ok, splitBy_forward split, map_append,
      codePoints_append (wellFormed_flatMap_ofCodePoint scalars),
      codePoints_flatMap_ofCodePoint scalars]
  space := by decide
  replaced := by decide

def voicedText : Text := js "ab " ++ [0xff76, 0xff9e] ++ js " cd"

def markedText : Text := js "aaaaaaaaaaaaaaaa " ++ [0xff9e, 0x903]

end AgentContextLint.Stylish
