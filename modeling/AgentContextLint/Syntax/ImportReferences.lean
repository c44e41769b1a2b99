import AgentContextLint.Syntax.ImportLexer
import AgentContextLint.Lib.Metered
import Mathlib.Data.Nat.Digits.Lemmas

/-!
# What the import lexer returns

`lexImportReferences_eq_ok` collects what readers of the references rely on: bounded counts
and specifiers, forward ranges in the source of the document, references in the order of the
text, and identifiers that are stable and pairwise different.
-/

namespace AgentContextLint

open Utf16 Metered List
open Sha256 (isHexDigit length_sha256Hex sha256Hex)

/-- The end of a half-open range lies no earlier than its start. -/
structure SourceRange.Forward (range : SourceRange) : Prop where
  byteOffset : range.start.byteOffset ≤ range.stop.byteOffset
  utf16Offset : range.start.utf16Offset ≤ range.stop.utf16Offset
  line : range.start.line ≤ range.stop.line
  column : range.start.line = range.stop.line → range.start.utf16Column ≤ range.stop.utf16Column

/-- A position in a text of at most `size` units. -/
structure SourcePosition.Within (size : Nat) (position : SourcePosition) : Prop where
  byteOffset : position.byteOffset ≤ 3 * size
  utf16Offset : position.utf16Offset ≤ size
  line : position.line ≤ size
  utf16Column : position.utf16Column ≤ size

namespace ImportLexer

variable {limits : ImportLexerOptions} {input : ImportLexerInput} {candidates : List Candidate}
  {references : List ImportReference} {candidate : Candidate} {index : Nat}

/-! ## Positions -/

def Increasing (offsets : List (Option Nat)) : Prop :=
  offsets.Pairwise fun offset later => ∀ a ∈ offset, ∀ b ∈ later, a ≤ b

theorem byteOffsetsFrom_bounded (byteOffset : Nat) (text : Text) :
    (byteOffsetsFrom byteOffset text).length = text.length ∧
      Increasing (byteOffsetsFrom byteOffset text) ∧
      ∀ offset ∈ byteOffsetsFrom byteOffset text, ∀ a ∈ offset,
        byteOffset ≤ a ∧ a ≤ byteOffset + 3 * text.length := by
  have bytes : ∀ u, unitBytes u ≤ 3 := fun u => by unfold unitBytes; split_ifs <;> omega
  induction byteOffset, text using byteOffsetsFrom.induct with
  | case1 byteOffset => simp [byteOffsetsFrom, Increasing]
  | case2 byteOffset u high => simp [byteOffsetsFrom, high, Increasing]
  | case3 byteOffset u high => simpa [byteOffsetsFrom, high, Increasing] using bytes u
  | case4 byteOffset u v rest high ih =>
    obtain ⟨length, increasing, bounds⟩ := ih
    rw [byteOffsetsFrom, if_pos high]
    refine ⟨by simp only [length_cons, length], ?_, fun offset member a eq => ?_⟩
    · refine pairwise_cons.mpr ⟨fun _ _ _ none => (by cases none), ?_⟩
      refine pairwise_cons.mpr ⟨fun later member a eq b eq' => ?_, increasing⟩
      cases eq
      exact (bounds later member b eq').1
    · simp only [length_cons]
      rcases mem_cons.mp member with rfl | member
      · cases eq
      rcases mem_cons.mp member with rfl | member
      · cases eq
        omega
      · have := bounds offset member a eq
        omega
  | case5 byteOffset u v rest high ih =>
    obtain ⟨length, increasing, bounds⟩ := ih
    rw [byteOffsetsFrom, if_neg high]
    refine ⟨by simp only [length_cons, length], ?_, fun offset member a eq => ?_⟩
    · refine pairwise_cons.mpr ⟨fun later member a eq b eq' => ?_, increasing⟩
      cases eq
      exact (bounds later member b eq').1
    · have small := bytes u
      simp only [length_cons] at bounds ⊢
      rcases mem_cons.mp member with rfl | member
      · cases eq
        omega
      · have := bounds offset member a eq
        omega

/-- The lines start at some of the offsets behind the first one, in their order. -/
theorem lineStartsFrom_sublist (utf16Offset : Nat) (text : Text) :
    (lineStartsFrom utf16Offset text).Sublist (range' (utf16Offset + 1) text.length) := by
  induction utf16Offset, text using lineStartsFrom.induct with
  | case1 utf16Offset => exact Sublist.refl _
  | case2 utf16Offset u high => simp [lineStartsFrom, high]
  | case3 utf16Offset u high breaks => simp [lineStartsFrom, high, breaks]
  | case4 utf16Offset u high breaks => simp [lineStartsFrom, high, breaks]
  | case5 utf16Offset u v rest high ih =>
    rw [lineStartsFrom, if_pos high]
    exact (ih.cons _).cons _
  | case6 utf16Offset u v rest high breaks ih =>
    rw [lineStartsFrom, if_neg high, if_pos breaks]
    exact ih.cons_cons _
  | case7 utf16Offset u v rest high breaks ih =>
    rw [lineStartsFrom, if_neg high, if_neg breaks]
    exact ih.cons _

theorem lineStarts_increasing (text : Text) :
    (buildPositionIndex text).lineStarts.Pairwise (· < ·) :=
  Pairwise.sublist ((lineStartsFrom_sublist 0 text).cons_cons 0)
    (@pairwise_lt_range' 0 (text.length + 1) 1 Nat.one_pos)

theorem byteOffsets_increasing (text : Text) :
    Increasing (buildPositionIndex text).byteOffsets := by
  refine pairwise_cons.mpr ⟨fun later member a eq b eq' => ?_, (byteOffsetsFrom_bounded 0 text).2.1⟩
  cases eq
  exact Nat.zero_le b

theorem startsAtOrBefore_antitone {lineStarts : List Nat} (increasing : lineStarts.Pairwise (· < ·))
    (utf16Offset : Nat) :
    Bisect.Antitone (startsAtOrBefore lineStarts utf16Offset) lineStarts.length := by
  intro i j order inside holds
  have before : i < lineStarts.length := by omega
  simp only [startsAtOrBefore, getElem?_eq_getElem inside, getElem?_eq_getElem before,
    decide_eq_true_eq] at holds ⊢
  rcases Nat.lt_or_eq_of_le order with less | rfl
  · exact Nat.le_trans (Nat.le_of_lt (pairwise_iff_getElem.mp increasing i j before inside less))
      holds
  · exact holds

variable {utf16Offset : Nat} {position : SourcePosition}

theorem positionAt_eq_ok {index : PositionIndex} (run : positionAt index utf16Offset = .ok position) :
    position.utf16Offset = utf16Offset ∧
      index.byteOffsets[utf16Offset]? = some (some position.byteOffset) ∧
      position.line + 1 = Bisect.bisect (startsAtOrBefore index.lineStarts utf16Offset)
        index.lineStarts.length ∧
      ∃ lineStart, index.lineStarts[position.line]? = some lineStart ∧
        position.utf16Column = utf16Offset - lineStart := by
  unfold positionAt at run
  split at run
  · rename_i byteOffset known
    dsimp only at run
    split at run
    · cases run
    · rename_i line found
      split at run
      · cases run
      · rename_i lineStart started
        cases run
        exact ⟨rfl, known, found.symm, lineStart, started, rfl⟩
  · cases run

variable {text : Text}

theorem positionAt_within (run : positionAt (buildPositionIndex text) utf16Offset = .ok position) :
    position.Within text.length := by
  obtain ⟨offset, bytes, -, lineStart, atLine, column⟩ := positionAt_eq_ok run
  obtain ⟨lengthEq, -, bounds⟩ := byteOffsetsFrom_bounded 0 text
  have inside := (List.getElem?_eq_some_iff.mp bytes).1
  have lineInside := (List.getElem?_eq_some_iff.mp atLine).1
  have lines := (lineStartsFrom_sublist 0 text).length_le
  simp only [buildPositionIndex, length_cons, length_range'] at inside lineInside lines
  refine ⟨?_, by omega, by omega, by omega⟩
  rcases mem_cons.mp (mem_of_getElem? bytes) with first | later
  · exact Nat.le_trans (Nat.le_of_eq (Option.some.inj first)) (Nat.zero_le _)
  · simpa using (bounds _ later _ rfl).2

/-- What readers of a range rely on. -/
structure RangeOf (sourceId text : Text) (range : SourceRange) : Prop where
  sourceId : range.sourceId = sourceId
  forward : range.Forward
  start : range.start.Within text.length
  stop : range.stop.Within text.length

theorem makeRange_eq_ok {sourceId : Text} {start stop : Nat} {range : SourceRange}
    (order : start ≤ stop)
    (run : makeRange sourceId (buildPositionIndex text) start stop = .ok range) :
    range.start.utf16Offset = start ∧ RangeOf sourceId text range := by
  obtain ⟨first, started, run⟩ := bind_eq_ok.mp run
  obtain ⟨last, stopped, run⟩ := bind_eq_ok.mp run
  cases run
  obtain ⟨startOffset, startBytes, startLine, lineStart, atLine, startColumn⟩ :=
    positionAt_eq_ok started
  obtain ⟨stopOffset, stopBytes, stopLine, lineStart', atLine', stopColumn⟩ :=
    positionAt_eq_ok stopped
  have lines : first.line ≤ last.line := by
    have mono := Bisect.bisect_mono
      (startsAtOrBefore_antitone (lineStarts_increasing text) start)
      (startsAtOrBefore_antitone (lineStarts_increasing text) stop)
      (fun i inside holds => by
        simp only [startsAtOrBefore, getElem?_eq_getElem inside, decide_eq_true_eq] at holds ⊢
        omega)
    omega
  have bytes : first.byteOffset ≤ last.byteOffset := by
    obtain ⟨inside, startEq⟩ := List.getElem?_eq_some_iff.mp startBytes
    obtain ⟨inside', stopEq⟩ := List.getElem?_eq_some_iff.mp stopBytes
    rcases Nat.lt_or_eq_of_le order with less | rfl
    · exact pairwise_iff_getElem.mp (byteOffsets_increasing text) start stop inside inside' less
        _ startEq _ stopEq
    · exact Nat.le_of_eq (Option.some.inj (startEq.symm.trans stopEq))
  refine ⟨startOffset, rfl, ⟨bytes, by dsimp only; omega, lines, fun same => ?_⟩,
    positionAt_within started, positionAt_within stopped⟩
  dsimp only at same ⊢
  rw [same, atLine'] at atLine
  cases atLine
  omega

/-! ## Candidates -/

/-- A candidate is an `@` and the specifier behind it. -/
structure Candidate.At (index : Nat) (limits : ImportLexerOptions) (candidate : Candidate) :
    Prop where
  start : index ≤ candidate.start
  specifierStart : candidate.specifierStart = candidate.start + 1
  stop : candidate.stop = candidate.specifierStart + candidate.raw.length
  raw : candidate.raw.length ≤ limits.maxSpecifierUtf16CodeUnits

variable {later : Nat}

theorem Candidate.At.mono {index : Nat} (at_ : candidate.At later limits) (order : index ≤ later) :
    candidate.At index limits :=
  { at_ with start := Nat.le_trans order at_.start }

/-- What the scan of a text from `index` finds, `count` candidates being there already. -/
structure ScannedFrom (limits : ImportLexerOptions) (count index : Nat)
    (candidates : List Candidate) : Prop where
  count : count ≤ limits.maxImports → count + candidates.length ≤ limits.maxImports
  candidate : ∀ candidate ∈ candidates, candidate.At index limits
  ordered : candidates.Pairwise fun first second => first.start < second.start

variable {count : Nat}

theorem ScannedFrom.mono {index : Nat} (scanned : ScannedFrom limits count later candidates)
    (order : index ≤ later) : ScannedFrom limits count index candidates :=
  { scanned with candidate := fun c member => (scanned.candidate c member).mono order }

theorem ScannedFrom.nil (limits : ImportLexerOptions) (count index : Nat) :
    ScannedFrom limits count index [] :=
  ⟨id, fun _ member => (by cases member), Pairwise.nil⟩

theorem ScannedFrom.cons {index : Nat} (room : count < limits.maxImports)
    (here : candidate.start = index) (at_ : candidate.At index limits)
    (scanned : ScannedFrom limits (count + 1) (index + 1) candidates) :
    ScannedFrom limits count index (candidate :: candidates) where
  count := fun _ => by
    have := scanned.count room
    simp only [length_cons]
    omega
  candidate := fun other member => by
    rcases mem_cons.mp member with rfl | member
    · exact at_
    · exact (scanned.candidate other member).mono (Nat.le_succ index)
  ordered := pairwise_cons.mpr ⟨fun other member => by
    have := (scanned.candidate other member).start
    omega, scanned.ordered⟩

theorem scanFrom_eq_ok {syntaxName : ImportDialect} {ranges : List DispositionRange}
    {before : Text} {skip index : Nat}
    (run : scanFrom syntaxName ranges limits count skip index before text = .ok candidates) :
    ScannedFrom limits count index candidates := by
  induction text generalizing count skip index before candidates with
  | nil =>
    unfold scanFrom at run
    cases run
    exact .nil limits count index
  | cons unit rest ih =>
    cases skip with
    | succ skip => exact (ih (by simpa only [scanFrom] using run)).mono (Nat.le_succ index)
    | zero =>
      have next : ∀ {skip found}, scanFrom syntaxName ranges limits count skip (index + 1)
          (unit :: before) rest = .ok found → ScannedFrom limits count index found :=
        fun run => (ih run).mono (Nat.le_succ index)
      unfold scanFrom at run
      dsimp only at run
      split at run
      · exact next run
      split at run
      · exact next run
      split at run
      · exact next run
      split at run
      · cases run
      rename_i long
      split at run
      · exact next run
      split at run
      · cases run
      rename_i room
      cases found : scanFrom syntaxName ranges limits (count + 1) (specifierAt rest).length
          (index + 1) (unit :: before) rest with
      | error failure => rw [found] at run; cases run
      | ok later =>
        rw [found] at run
        cases run
        exact .cons (by omega) rfl
          ⟨Nat.le_refl _, rfl, rfl, by simpa only [makeCandidate, Nat.not_lt] using long⟩
          (ih found)

/-! ## Identifiers -/

def digitValue (u : CodeUnit) : Nat := if u.toNat < 0x57 then u.toNat - 0x30 else u.toNat - 0x57

def base36Value (text : Text) : Nat := Nat.ofDigits 36 (text.reverse.map digitValue)

theorem base36Value_paddedBase36 (index : Nat) : base36Value (paddedBase36 index) = index := by
  have value : ∀ n < 36, digitValue (if n < 10 then .ofNat (0x30 + n) else .ofNat (0x57 + n)) = n := by
    decide
  have digits : ((Nat.digits 36 index).map fun n : Nat =>
      digitValue (if n < 10 then .ofNat (0x30 + n) else .ofNat (0x57 + n))) = Nat.digits 36 index := by
    conv_rhs => rw [← map_id (Nat.digits 36 index)]
    exact map_congr_left fun n member => value n (Nat.digits_lt_base (by decide) member)
  simp only [base36Value, paddedBase36, reverse_append, reverse_reverse, map_append,
    map_map, reverse_replicate, map_replicate, Function.comp_def, digits]
  rw [show digitValue 0x30 = 0 from rfl, Nat.ofDigits_append_replicate_zero, Nat.ofDigits_digits]

theorem paddedBase36_injective {first second : Nat}
    (eq : paddedBase36 first = paddedBase36 second) : first = second := by
  rw [← base36Value_paddedBase36 first, eq, base36Value_paddedBase36]

/-- A run of alphanumeric units passes the test wherever it stands. -/
theorem isStableIdentifierFrom_run (inRun : Bool) {units : Text} (rest : Text) (nonempty : units ≠ [])
    (alphanumeric : ∀ u ∈ units, isAlphanumeric u = true) :
    isStableIdentifierFrom inRun (units ++ rest) = isStableIdentifierFrom true rest := by
  induction units generalizing inRun with
  | nil => exact absurd rfl nonempty
  | cons u units ih =>
    rw [cons_append, isStableIdentifierFrom, if_pos (alphanumeric u mem_cons_self)]
    cases units with
    | nil => rfl
    | cons v units =>
      exact ih true (cons_ne_nil v units) fun w member =>
        alphanumeric w (mem_cons_of_mem u member)

theorem isStableIdentifierFrom_colon (rest : Text) :
    isStableIdentifierFrom true (0x3a :: rest) = isStableIdentifierFrom false rest := by
  rw [isStableIdentifierFrom, if_neg (by decide)]
  rfl

theorem isAlphanumeric_of_isHexDigit {u : CodeUnit} (digit : isHexDigit u = true) :
    isAlphanumeric u = true := by
  simp only [isHexDigit, isAlphanumeric, isAsciiLetter, isAsciiDigit, Bool.or_eq_true,
    Bool.and_eq_true, decide_eq_true_eq] at digit ⊢
  omega

theorem isAlphanumeric_of_mem_sha256Hex {message : List UInt8} (u : CodeUnit)
    (member : u ∈ sha256Hex message) : isAlphanumeric u = true :=
  isAlphanumeric_of_isHexDigit (Sha256.isHexDigit_of_mem_sha256Hex member)

theorem sha256Hex_ne_nil (message : List UInt8) : sha256Hex message ≠ [] :=
  ne_nil_of_length_pos (by rw [length_sha256Hex]; decide)

theorem isStableIdentifier_digest (word : Text) (message : List UInt8) (nonempty : word ≠ [])
    (alphanumeric : ∀ u ∈ word, isAlphanumeric u = true) (short : word.length ≤ 64) :
    isStableIdentifier (word ++ 0x3a :: sha256Hex message) = true := by
  have last := isStableIdentifierFrom_run false [] (sha256Hex_ne_nil message)
    isAlphanumeric_of_mem_sha256Hex
  rw [append_nil] at last
  rw [isStableIdentifier, isStableIdentifierFrom_run _ _ nonempty alphanumeric,
    isStableIdentifierFrom_colon, last]
  simp only [length_append, length_cons, length_sha256Hex, isStableIdentifierFrom,
    Bool.and_true, decide_eq_true_eq]
  omega

theorem isAlphanumeric_of_mem_paddedBase36 (u : CodeUnit)
    (member : u ∈ paddedBase36 index) : isAlphanumeric u = true := by
  have digits : ∀ n < 36,
      isAlphanumeric (if n < 10 then .ofNat (0x30 + n) else .ofNat (0x57 + n)) = true := by decide
  rcases mem_append.mp member with padding | digit
  · rw [eq_of_mem_replicate padding]
    rfl
  · obtain ⟨n, ofIndex, rfl⟩ := mem_map.mp (mem_reverse.mp digit)
    exact digits n (Nat.digits_lt_base (by decide) ofIndex)

theorem three_le_length_paddedBase36 (index : Nat) : 3 ≤ (paddedBase36 index).length := by
  simp only [paddedBase36, length_append, length_replicate]
  omega

theorem length_paddedBase36_le (small : index < 46656) : (paddedBase36 index).length ≤ 3 := by
  have digits := (Nat.digits_length_le_iff (k := 3) (show 1 < 36 by decide) index).mpr small
  simp only [paddedBase36, length_append, length_replicate, length_reverse, length_map]
  omega

/-- The identifier of the reference at `index`. -/
def referenceId (input : ImportLexerInput) (index : Nat) : Text :=
  js "import:" ++ sha256Hex (referenceIdentityInput input) ++ js ":" ++ paddedBase36 index

theorem isStableIdentifier_referenceId (input : ImportLexerInput)
    (small : index < 46656) : isStableIdentifier (referenceId input index) = true := by
  have padded := isStableIdentifierFrom_run false []
    (ne_nil_of_length_pos (Nat.lt_of_lt_of_le (by decide) (three_le_length_paddedBase36 index)))
    isAlphanumeric_of_mem_paddedBase36
  rw [append_nil] at padded
  have shape : referenceId input index = js "import" ++ 0x3a ::
      (sha256Hex (referenceIdentityInput input) ++ 0x3a :: paddedBase36 index) := by
    rw [referenceId, show js "import:" = js "import" ++ [0x3a] by decide,
      show js ":" = [0x3a] by decide]
    simp
  have length := length_paddedBase36_le small
  rw [shape, isStableIdentifier, isStableIdentifierFrom_run _ _ (by decide) (all_eq_true.mp rfl),
    isStableIdentifierFrom_colon,
    isStableIdentifierFrom_run _ _ (sha256Hex_ne_nil _) isAlphanumeric_of_mem_sha256Hex,
    isStableIdentifierFrom_colon, padded]
  simp only [length_append, length_cons, length_sha256Hex, isStableIdentifierFrom,
    Bool.and_true, decide_eq_true_eq, show (js "import").length = 6 by decide]
  omega

/-- Identifiers of references name the hash of their document and the index in it. -/
theorem referenceId_inj {first second : ImportLexerInput} {i j : Nat}
    (eq : referenceId first i = referenceId second j) :
    sha256Hex (referenceIdentityInput first) =
      sha256Hex (referenceIdentityInput second) ∧ i = j := by
  simp only [referenceId, append_assoc, append_cancel_left_eq] at eq
  obtain ⟨hash, rest⟩ := append_inj eq (by simp only [length_sha256Hex])
  exact ⟨hash, paddedBase36_injective (append_cancel_left rest)⟩

/-! ## References -/

/-- The references that the lexer may return for an input. -/
structure LexedReferences (input : ImportLexerInput) (references : List ImportReference) : Prop where
  count : references.length ≤ 4096
  id : ∀ (i : Nat) (reference : ImportReference), references[i]? = some reference →
    reference.id = referenceId input i
  documentId : ∀ reference ∈ references, reference.documentId = input.documentId
  range : ∀ reference ∈ references, RangeOf input.sourceId input.text reference.range
  specifierRange : ∀ reference ∈ references,
    RangeOf input.sourceId input.text reference.specifierRange
  rawSpecifier : ∀ reference ∈ references, reference.rawSpecifier.length ≤ 4096
  ordered : references.Pairwise fun first second =>
    first.range.start.utf16Offset < second.range.start.utf16Offset

theorem LexedReferences.nil : LexedReferences input [] where
  count := Nat.zero_le _
  id := fun _ _ found => by cases found
  documentId := fun _ member => by cases member
  range := fun _ member => by cases member
  specifierRange := fun _ member => by cases member
  rawSpecifier := fun _ member => by cases member
  ordered := Pairwise.nil

/-- The reference of a candidate. -/
structure MadeFrom (input : ImportLexerInput) (candidate : Candidate) (index : Nat)
    (reference : ImportReference) : Prop where
  id : reference.id = referenceId input index
  documentId : reference.documentId = input.documentId
  range : RangeOf input.sourceId input.text reference.range
  specifierRange : RangeOf input.sourceId input.text reference.specifierRange
  rawSpecifier : reference.rawSpecifier = candidate.raw
  start : reference.range.start.utf16Offset = candidate.start

theorem makeReference_eq_ok {markdown : MarkdownExtractionResult}
    {reference : ImportReference} (at_ : candidate.At 0 limits)
    (run : makeReference input markdown (buildPositionIndex input.text)
      (sha256Hex (referenceIdentityInput input)) candidate index = .ok reference) :
    MadeFrom input candidate index reference := by
  obtain ⟨owner, -, run⟩ := bind_eq_ok.mp run
  obtain ⟨range, ranged, run⟩ := bind_eq_ok.mp run
  obtain ⟨specifierRange, specifierRanged, run⟩ := bind_eq_ok.mp run
  cases run
  have specifierStart := at_.specifierStart
  have stop := at_.stop
  obtain ⟨offset, rangeOf⟩ := makeRange_eq_ok (by omega) ranged
  exact ⟨rfl, rfl, rangeOf, (makeRange_eq_ok (by omega) specifierRanged).2, rfl, offset⟩

/-- The candidates of a scan, each made into its reference, are what the lexer may return. -/
theorem lexedReferences_of_made (scanned : ScannedFrom defaultImportLexerLimits 0 0 candidates)
    (same : references.length = candidates.length)
    (made : ∀ (i : Nat) (left : i < candidates.length) (right : i < references.length),
      MadeFrom input candidates[i] i references[i]) : LexedReferences input references := by
  have each : ∀ reference ∈ references, ∃ candidate ∈ candidates, ∃ i,
      MadeFrom input candidate i reference := by
    intro reference member
    obtain ⟨i, inside, rfl⟩ := mem_iff_getElem.mp member
    exact ⟨candidates[i], getElem_mem _, i, made i (by omega) inside⟩
  have count := scanned.count (Nat.zero_le _)
  constructor
  case count =>
    rw [same, ← Nat.zero_add candidates.length]
    exact count
  case id =>
    intro i reference found
    obtain ⟨inside, rfl⟩ := List.getElem?_eq_some_iff.mp found
    exact (made i (by omega) inside).id
  case ordered =>
    refine pairwise_iff_getElem.mpr fun i j first second less => ?_
    rw [(made i (by omega) first).start, (made j (by omega) second).start]
    exact pairwise_iff_getElem.mp scanned.ordered i j (by omega) (by omega) less
  all_goals
    intro reference member
    obtain ⟨candidate, candidateMember, i, from_⟩ := each reference member
  case documentId => exact from_.documentId
  case range => exact from_.range
  case specifierRange => exact from_.specifierRange
  case rawSpecifier =>
    rw [from_.rawSpecifier]
    exact (scanned.candidate candidate candidateMember).raw

theorem lexImportReferences_eq_ok
    {extractMarkdownContent : (sourceId text : Text) → Option MarkdownExtractionResult}
    (run : lexImportReferences extractMarkdownContent input = .ok references) :
    LexedReferences input references := by
  obtain ⟨_, -, run⟩ := bind_eq_ok.mp run
  split at run
  · cases run
  obtain ⟨candidates, scan, run⟩ := bind_eq_ok.mp run
  have scanned := scanFrom_eq_ok scan
  have made := mapM_eq_ok.mp run
  have same : references.length = candidates.length := by
    rw [← made.length_eq, length_zipIdx]
  refine lexedReferences_of_made scanned same fun i left right => ?_
  have here := made.get (by rwa [length_zipIdx]) right
  simp only [get_eq_getElem, getElem_zipIdx, Nat.zero_add] at here
  exact makeReference_eq_ok (scanned.candidate _ (getElem_mem left)) here

theorem LexedReferences.nodup
    (lexed : LexedReferences input references) : (references.map (·.id)).Nodup := by
  refine nodup_iff_injective_getElem.mpr fun i j eq => Fin.ext ?_
  simp only [getElem_map] at eq
  rw [lexed.id i _ (getElem?_eq_getElem _), lexed.id j _ (getElem?_eq_getElem _)] at eq
  exact (referenceId_inj eq).2

end ImportLexer

end AgentContextLint
