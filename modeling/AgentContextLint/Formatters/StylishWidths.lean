import AgentContextLint.Formatters.StylishLayout
import Mathlib.Algebra.Order.BigOperators.Group.List
import Mathlib.Algebra.Order.Group.Nat
import Mathlib.Data.List.Chain

/-!
# The width of a line

A line is measured as a new text, and the clusters of that text need not be the cells that the line
was put together from. Segmentation looks at the open cluster and at what follows it
(`StandardSegments`), so cells that keep apart in pairs keep apart on a line (`segments_line`): such
a line measures what its cells and spaces add up to (`stretchesFit_of_apart`).
-/

namespace AgentContextLint.Stylish

open Utf16 Utf8 List

open GreedyFill
open SourceCoordinates (wellFormed_append)

variable {profile : TerminalProfile} {available : Nat} {linePrefix value : Text}

/-! ## Stretches -/

variable (profile available value) in
/-- The cells that are shown, in their order. -/
def shownCells : List Cell := (wordsOf value).flatMap (displayCells profile available)

/-- Shown cells that follow on each other, as runs of a word. -/
structure Stretch (profile : TerminalProfile) (available : Nat) (value : Text)
    (chunks : List (List Cell)) : Prop where
  nonempty : chunks ≠ []
  consecutive : chunks.flatten <:+: shownCells profile available value
  runs : ∀ chunk ∈ chunks, chunk ≠ [] ∧
    ∃ word ∈ wordsOf value, chunk <:+: displayCells profile available word

/-- Every stretch whose runs and spaces add up to at most the available cells measures no more than
these behind the prefix. -/
def StretchesFit (profile : TerminalProfile) (available : Nat) (linePrefix value : Text) : Prop :=
  ∀ chunks, Stretch profile available value chunks →
    (∀ chunk ∈ chunks, cellsWidth chunk ≤ (available : CellWidth)) →
    (chunks.length = 1 ∨ lineWidth profile chunks ≤ (available : CellWidth)) →
    visibleWidth profile (linePrefix ++ lineText chunks) ≤
      visibleWidth profile linePrefix + (available : CellWidth)

variable {chunk : List Cell} {line : List (List Cell)}

theorem chunkWidth_le (positive : 1 ≤ available)
    (member : chunk ∈ chunksOfWords profile available linePrefix value) :
    cellsWidth chunk ≤ (available : CellWidth) := by
  rcases mem_flatMap.mp member with ⟨word, isWord, inWord⟩
  have each : ∀ chunk ∈ chunkCells profile available (byteLength linePrefix)
      (codePoints linePrefix).length word, chunk ≠ [] ∧ cellsWidth chunk ≤ (available : CellWidth) :=
    forall_fill
      (fun cell isCell => by
        rcases mem_map.mp isCell with ⟨raw, _, rfl⟩
        rw [cellsWidth_singleton]
        exact displayCell_within positive raw)
      (fun chunk _ _ cell _ fitting => by
        unfold cellFits at fitting
        simp only [Bool.and_eq_true, decide_eq_true_eq] at fitting
        rw [cellsWidth_append, cellsWidth_singleton]
        exact fitting.1.1)
  exact (each chunk inWord).2

theorem flatten_chunksOfWords : (chunksOfWords profile available linePrefix value).flatten =
    shownCells profile available value := by
  rw [chunksOfWords, ← flatMap_id, flatMap_assoc]
  exact flatMap_congr fun word _ => flatMap_id.trans (flatten_fill _ _)

theorem IsInfix.flatten {α : Type} {inner outer : List (List α)} (infixes : inner <:+: outer) :
    inner.flatten <:+: outer.flatten := by
  rcases infixes with ⟨before, after, rfl⟩
  exact ⟨before.flatten, after.flatten, by rw [flatten_append, flatten_append]⟩

theorem stretch_of_mem_layout (member : line ∈ layout profile available linePrefix value) :
    Stretch profile available value line := by
  have infixes : line <:+: chunksOfWords profile available linePrefix value := by
    have listed := infix_of_mem_flatten member
    rw [layout, flatten_fill] at listed
    exact listed
  have opened : ∀ line ∈ layout profile available linePrefix value, line ≠ [] ∧ True :=
    forall_fill (fun _ _ => trivial) fun _ _ _ _ _ _ => trivial
  refine ⟨(opened line member).1, flatten_chunksOfWords ▸ IsInfix.flatten infixes,
    fun chunk inLine => ?_⟩
  rcases mem_flatMap.mp (infixes.subset inLine) with ⟨word, isWord, inWord⟩
  have filled : ∀ chunk ∈ chunkCells profile available (byteLength linePrefix)
      (codePoints linePrefix).length word, chunk ≠ [] ∧ True :=
    forall_fill (fun _ _ => trivial) fun _ _ _ _ _ _ => trivial
  have run := infix_of_mem_flatten inWord
  rw [chunkCells, flatten_fill] at run
  exact ⟨(filled chunk inWord).1, word, isWord, run⟩

/-- The lines are such stretches. -/
theorem visibleWidth_le (positive : 1 ≤ available)
    (fit : StretchesFit profile available linePrefix value)
    (member : line ∈ layout profile available linePrefix value) :
    visibleWidth profile (linePrefix ++ lineText line) ≤
      visibleWidth profile linePrefix + (available : CellWidth) := by
  have each : ∀ line ∈ layout profile available linePrefix value,
      line ≠ [] ∧ (line.length = 1 ∨ lineWidth profile line ≤ (available : CellWidth)) :=
    forall_fill (fun chunk _ => .inl rfl) (fun line nonempty _ chunk _ fitting => by
      unfold chunkFits at fitting
      simp only [Bool.and_eq_true, decide_eq_true_eq] at fitting
      rw [lineWidth_snoc nonempty]
      exact .inr fitting.1.1)
  refine fit line (stretch_of_mem_layout member) (fun chunk inLine => ?_) (each line member).2
  have listed := (infix_of_mem_flatten member).subset inLine
  rw [layout, flatten_fill] at listed
  exact chunkWidth_le positive listed

/-! ## Cells that keep apart -/

/-- What is documented of the packages. Whether a cluster ends depends on the cluster so far and on
what follows, so that a text can be segmented from the start of its last cluster; a space and the
marker are narrow. -/
structure StandardSegments (profile : TerminalProfile) : Prop where
  forward : ∀ text rest front last, wellFormed text = true →
    profile.graphemeSegments text = front ++ [last] →
    profile.graphemeSegments (text ++ rest) = front ++ profile.graphemeSegments (last ++ rest)
  space : cellWidth profile [0x20] = 1
  replaced : cellWidth profile marker.text = 1

def KeepApart (profile : TerminalProfile) (first second : Text) : Prop :=
  profile.graphemeSegments (first ++ second) = [first, second]

instance (first second : Text) : Decidable (KeepApart profile first second) :=
  inferInstanceAs (Decidable (_ = _))

/-- No shown cell joins what it can stand behind: the prefix, a space, or the cell in front of it in
its word. No space joins a cell. -/
structure Apart (profile : TerminalProfile) (available : Nat) (linePrefix value : Text) : Prop where
  behindPrefix : ∀ cell ∈ shownCells profile available value,
    profile.graphemeSegments (linePrefix ++ cell.text) =
      profile.graphemeSegments linePrefix ++ [cell.text]
  spaces : ∀ cell ∈ shownCells profile available value,
    KeepApart profile [0x20] cell.text ∧ KeepApart profile cell.text [0x20]
  inWords : ∀ word ∈ wordsOf value, (displayCells profile available word).IsChain
    fun cell next => KeepApart profile cell.text next.text

theorem graphemeSegments_nil (profile : TerminalProfile) : profile.graphemeSegments [] = [] := by
  have pieces := profile.flatten_graphemeSegments []
  refine eq_nil_iff_forall_not_mem.mpr fun segment member => ?_
  rw [flatten_eq_nil_iff.mp pieces segment member] at member
  exact profile.nil_notMem_graphemeSegments [] member

theorem visibleWidth_eq (profile : TerminalProfile) (text : Text) : visibleWidth profile text =
    ((profile.graphemeSegments text).map fun segment => (cellOf profile segment).width).sum := by
  rw [visibleWidth, terminalCells, map_map]
  rfl

theorem cellOf_narrow {text : Text}
    (small : ¬ (maxPlainLineCodePoints < (codePoints text).length ∨ maxPlainLineBytes < byteLength text))
    (narrow : cellWidth profile text = 1) : (cellOf profile text).width = 1 := by
  unfold cellOf
  rw [if_neg small, narrow]
  rfl

section Apart

variable (standard : StandardSegments profile)

include standard

theorem segments_snoc {text last piece : Text} {front : List Text} (ok : wellFormed text = true)
    (ends : profile.graphemeSegments text = front ++ [last]) (apart : KeepApart profile last piece) :
    profile.graphemeSegments (text ++ piece) = profile.graphemeSegments text ++ [piece] := by
  rw [standard.forward _ _ _ _ ok ends, apart, ends, append_assoc]
  rfl

/-- Cells that keep apart, behind a text that the first of them keeps apart from. -/
theorem segments_cellsText {text : Text} (ok : wellFormed text = true) {cell : Cell}
    {cells : List Cell} (sound : ∀ other ∈ cell :: cells, other.Sound)
    (chain : (cell :: cells).IsChain fun cell next => KeepApart profile cell.text next.text)
    (behind : profile.graphemeSegments (text ++ cell.text) =
      profile.graphemeSegments text ++ [cell.text]) :
    profile.graphemeSegments (text ++ cellsText (cell :: cells)) =
      profile.graphemeSegments text ++ (cell :: cells).map (·.text) := by
  induction cells generalizing text cell with
  | nil =>
    rw [cellsText_singleton]
    exact behind
  | cons next rest ih =>
    rcases forall_mem_cons.mp sound with ⟨own, others⟩
    rcases isChain_cons_cons.mp chain with ⟨apart, later⟩
    have ok' := wellFormed_append ok own.wellFormed
    have split : text ++ cellsText (cell :: next :: rest) =
        text ++ cell.text ++ cellsText (next :: rest) := (append_assoc _ _ _).symm
    rw [split, ih ok' others later (segments_snoc standard ok' behind apart), behind, append_assoc]
    rfl

theorem cellOf_shown {cell : Cell} (shown : cell ∈ shownCells profile available value) :
    (cellOf profile cell.text).width = cell.width := by
  rcases mem_flatMap.mp shown with ⟨word, _, inWord⟩
  rcases mem_map.mp inWord with ⟨raw, isRaw, rfl⟩
  rcases mem_map.mp isRaw with ⟨segment, _, rfl⟩
  unfold displayCell
  split_ifs
  · exact cellOf_narrow (by decide) standard.replaced
  · rfl

/-- The clusters of a line that keeps apart. -/
def lineClusters (chunks : List (List Cell)) : List Text :=
  [[0x20]].intercalate (chunks.map fun chunk => chunk.map (·.text))

omit standard in
theorem lineClusters_snoc {front : List (List Cell)} (nonempty : front ≠ []) (chunk : List Cell) :
    lineClusters (front ++ [chunk]) = lineClusters front ++ ([[0x20]] ++ chunk.map (·.text)) := by
  unfold lineClusters
  rw [map_append, map_singleton, intercalate_snoc fun nil => nonempty (map_eq_nil_iff.mp nil)]

omit standard in
theorem lineClusters_ends (front : List (List Cell)) (some : chunk ≠ []) :
    ∃ init, lineClusters (front ++ [chunk]) = init ++ [(chunk.getLast some).text] := by
  have last : chunk.map (·.text) = chunk.dropLast.map (·.text) ++ [(chunk.getLast some).text] := by
    conv_lhs => rw [← dropLast_append_getLast some]
    rw [map_append, map_singleton]
  by_cases empty : front = []
  · rw [empty, nil_append, lineClusters, map_singleton, intercalate_singleton, last]
    exact ⟨_, rfl⟩
  · rw [lineClusters_snoc empty, last, ← append_assoc, ← append_assoc]
    exact ⟨_, rfl⟩

variable (apart : Apart profile available linePrefix value) (ok : wellFormed value = true)
  (prefixOk : wellFormed linePrefix = true)

include apart ok prefixOk

/-- A run of a word is measured cell by cell. -/
theorem measures_run {word : Text} (isWord : word ∈ wordsOf value)
    (run : chunk <:+: displayCells profile available word) (some : chunk ≠ []) :
    profile.graphemeSegments (cellsText chunk) = chunk.map (·.text) ∧
      visibleWidth profile (cellsText chunk) = cellsWidth chunk := by
  have shown : ∀ cell ∈ chunk, cell ∈ shownCells profile available value := fun cell member =>
    mem_flatMap.mpr ⟨word, isWord, run.subset member⟩
  have sound : ∀ cell ∈ chunk, cell.Sound := fun cell member =>
    sound_displayCells (wordsOf_wellFormed ok isWord) cell (run.subset member)
  have segments : profile.graphemeSegments (cellsText chunk) = chunk.map (·.text) := by
    rcases exists_cons_of_ne_nil some with ⟨cell, cells, rfl⟩
    have behind := apart.behindPrefix cell (shown cell mem_cons_self)
    have whole := standard.forward _ [] _ _
      (wellFormed_append prefixOk (sound cell mem_cons_self).wellFormed) behind
    rw [append_nil, append_nil, behind, append_cancel_left_eq] at whole
    have alone := segments_cellsText standard (rfl : wellFormed [] = true) sound
      ( IsChain.infix (apart.inWords word isWord) run) (by
        rw [graphemeSegments_nil]
        exact whole.symm)
    rw [graphemeSegments_nil] at alone
    exact alone
  refine ⟨segments, ?_⟩
  rw [visibleWidth_eq, segments, map_map, cellsWidth]
  exact congrArg sum (map_congr_left fun cell member => cellOf_shown standard (shown cell member))

variable {chunks : List (List Cell)} (runs : ∀ chunk ∈ chunks, chunk ≠ [] ∧
  ∃ word ∈ wordsOf value, chunk <:+: displayCells profile available word)

include runs

theorem segments_line (nonempty : chunks ≠ []) :
    profile.graphemeSegments (linePrefix ++ lineText chunks) =
      profile.graphemeSegments linePrefix ++ lineClusters chunks := by
  have facts : ∀ chunk ∈ chunks, SoundChunk chunk ∧
      (∀ cell ∈ chunk, cell ∈ shownCells profile available value) ∧
      chunk.IsChain fun cell next => KeepApart profile cell.text next.text := by
    intro chunk member
    rcases runs chunk member with ⟨some, word, isWord, run⟩
    exact ⟨⟨some, fun cell inChunk =>
        sound_displayCells (wordsOf_wellFormed ok isWord) cell (run.subset inChunk)⟩,
      fun cell inChunk => mem_flatMap.mpr ⟨word, isWord, run.subset inChunk⟩,
      IsChain.infix (apart.inWords word isWord) run⟩
  clear runs
  induction chunks using reverseRecOn with
  | nil => exact absurd rfl nonempty
  | append_singleton front chunk ih =>
    rcases forall_mem_append.mp facts with ⟨before, last⟩
    rcases last chunk mem_cons_self with ⟨sound, shown, chain⟩
    rcases exists_cons_of_ne_nil sound.nonempty with ⟨cell, cells, rfl⟩
    have own := shown cell mem_cons_self
    by_cases empty : front = []
    · rw [empty, nil_append, lineText_singleton, lineClusters, map_singleton, intercalate_singleton]
      exact segments_cellsText standard prefixOk sound.sound chain (apart.behindPrefix cell own)
    · have segments := ih empty before
      rcases eq_nil_or_concat' front with nil | ⟨init, inner, rfl⟩
      · exact absurd nil empty
      rcases before inner (mem_append_right _ mem_cons_self) with ⟨innerSound, innerShown, _⟩
      rcases lineClusters_ends init innerSound.nonempty with ⟨clusters, ends⟩
      have textOk := wellFormed_append prefixOk
        (measures_lineText fun chunk member => (before chunk member).1).1
      have spaced := segments_snoc standard textOk
        (segments.trans (ends ▸ (append_assoc _ _ _).symm))
        (apart.spaces _ (innerShown _ (getLast_mem _))).2
      have spacedOk := wellFormed_append textOk (show wellFormed [(0x20 : CodeUnit)] = true from rfl)
      have behind := segments_snoc standard spacedOk spaced (apart.spaces cell own).1
      have placed := segments_cellsText standard spacedOk sound.sound chain behind
      rw [spaced, segments] at placed
      rw [lineText_snoc empty, lineClusters_snoc empty]
      simpa only [append_assoc, singleton_append] using placed

theorem visibleWidth_line (nonempty : chunks ≠ []) :
    visibleWidth profile (linePrefix ++ lineText chunks) =
      visibleWidth profile linePrefix + lineWidth profile chunks := by
  have clusters : ((lineClusters chunks).map fun segment => (cellOf profile segment).width).sum =
      lineWidth profile chunks := by
    have measured : ∀ chunk ∈ chunks,
        ((chunk.map (·.text)).map fun segment => (cellOf profile segment).width).sum =
          visibleWidth profile (cellsText chunk) := by
      intro chunk member
      rcases runs chunk member with ⟨some, word, isWord, run⟩
      rw [visibleWidth_eq, (measures_run standard apart ok prefixOk isWord run some).1]
    have space : (cellOf profile [0x20]).width = 1 := cellOf_narrow (by decide) standard.space
    clear runs
    induction chunks using reverseRecOn with
    | nil => exact absurd rfl nonempty
    | append_singleton front chunk ih =>
      rcases forall_mem_append.mp measured with ⟨before, last⟩
      by_cases empty : front = []
      · rw [empty, nil_append, lineClusters, map_singleton, intercalate_singleton,
          lineWidth_singleton]
        exact last chunk mem_cons_self
      · rw [lineClusters_snoc empty, map_append, sum_append, map_append, sum_append, map_singleton,
          sum_singleton, ih empty before, last chunk mem_cons_self, space, lineWidth_snoc empty,
          add_assoc]
  rw [visibleWidth_eq, segments_line standard apart ok prefixOk runs nonempty, map_append, sum_append,
    clusters, ← visibleWidth_eq]

omit runs in
/-- Cells that keep apart measure on a line what they add up to. -/
theorem stretchesFit_of_apart : StretchesFit profile available linePrefix value := by
  intro chunks stretch narrow fits
  rw [visibleWidth_line standard apart ok prefixOk stretch.runs stretch.nonempty]
  refine add_le_add_right ?_ _
  rcases fits with single | fits
  · rcases length_eq_one_iff.mp single with ⟨chunk, rfl⟩
    rcases stretch.runs chunk mem_cons_self with ⟨some, word, isWord, run⟩
    rw [lineWidth_singleton, (measures_run standard apart ok prefixOk isWord run some).2]
    exact narrow chunk mem_cons_self
  · exact fits

end Apart

end AgentContextLint.Stylish
