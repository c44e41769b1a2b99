import AgentContextLint.Core.SourcePositions
import AgentContextLint.Lib.Bisect
import AgentContextLint.Lib.Utf8

/-!
# The coordinates of an offset

What the position at an offset of a text is: the bytes before it, the line terminators before it,
and how far it is into its line. A line feed, a carriage return and the two in this order are line
terminators.

Loops over a text that take units and surrogate pairs one after the other compute the indexes
`byteOffsets` and `terminatorEnds` (`byteOffsets_of_loop`, `terminatorEnds_of_loop`), and both
binary searches over the starts of the lines find the line of an offset (`bisect_lineStarts`,
`lastPassing_lineStarts`).
-/

namespace AgentContextLint.SourceCoordinates

open Utf16 Utf8 List
open Option (any_some getD_some)

variable {u : CodeUnit} (text : Text)

/-- A line terminator ends with this unit. -/
def endsLine (i : Nat) : Bool :=
  text[i]? == some 0x0a || (text[i]? == some 0x0d && text[i + 1]? != some 0x0a)

/-- The offset lies inside a surrogate pair. -/
def splitsPair (text : Text) : (utf16Offset : Nat) → Bool
  | 0 => false
  | before + 1 => (text[before]?).any isHighSurrogate && (text[before + 1]?).any isLowSurrogate

/-- Where the line terminators that lie wholly before an offset end. -/
def terminatorEnds (utf16Offset : Nat) : List Nat :=
  ((range utf16Offset).filter (endsLine text)).map (· + 1)

def lineStart (utf16Offset : Nat) : Nat :=
  ((terminatorEnds text utf16Offset).getLast?).getD 0

def truePosition (utf16Offset : Nat) : SourcePosition where
  byteOffset := byteLength (text.take utf16Offset)
  utf16Offset := utf16Offset
  line := (terminatorEnds text utf16Offset).length
  utf16Column := utf16Offset - lineStart text utf16Offset

/-- `unit <= 0x7f ? 1 : unit <= 0x7ff ? 2 : 3` -/
def unitBytes (u : CodeUnit) : Nat := if u.toNat ≤ 0x7f then 1 else if u.toNat ≤ 0x7ff then 2 else 3

def byteOffsetAt (utf16Offset : Nat) : Option Nat :=
  if splitsPair text utf16Offset then none else some (byteLength (text.take utf16Offset))

/-- The byte offset at each offset, missing inside of surrogate pairs. -/
def byteOffsets (text : Text) : List (Option Nat) :=
  (range (text.length + 1)).map (byteOffsetAt text)

def lineStarts (text : Text) : List Nat := 0 :: terminatorEnds text text.length

/-! ## Units and pairs -/

theorem wellFormed_cons_pair {u v : CodeUnit} (high : isHighSurrogate u = true)
    (low : isLowSurrogate v = true) (rest : Text) :
    wellFormed (u :: v :: rest) = wellFormed rest := by
  rw [wellFormed, if_pos high, low, Bool.true_and]

/-- A well-formed text is a row of units that are no surrogates, and of surrogate pairs. -/
theorem wellFormed_rec {motive : (text : Text) → wellFormed text = true → Prop}
    (nil : motive [] rfl)
    (plain : ∀ u rest (isPlain : isSurrogate u = false) (ok : wellFormed rest = true),
      motive rest ok → motive (u :: rest) ((wellFormed_cons isPlain rest).trans ok))
    (pair : ∀ u v rest (high : isHighSurrogate u = true) (low : isLowSurrogate v = true)
      (ok : wellFormed rest = true), motive rest ok →
        motive (u :: v :: rest) ((wellFormed_cons_pair high low rest).trans ok))
    {text : Text} (ok : wellFormed text = true) : motive text ok := by
  induction text using wellFormed.induct with
  | case1 => exact nil
  | case2 u =>
    have isPlain : isSurrogate u = false := by simpa [wellFormed] using ok
    exact plain u [] isPlain rfl nil
  | case3 u v rest high ih =>
    have split := ok
    rw [wellFormed, if_pos high, Bool.and_eq_true] at split
    exact pair u v rest high split.1 split.2 (ih split.2)
  | case4 u v rest notHigh ih =>
    have split := ok
    rw [wellFormed, if_neg notHigh, Bool.and_eq_true, Bool.not_eq_true'] at split
    exact plain u (v :: rest)
      (isSurrogate_eq_false_iff.mpr ⟨Bool.eq_false_iff.mpr notHigh, split.1⟩) split.2 (ih split.2)

theorem length_encodeScalar (n : Nat) : (encodeScalar n).length =
    if n < 0x80 then 1 else if n < 0x800 then 2 else if n < 0x10000 then 3 else 4 := by
  unfold encodeScalar
  split_ifs <;> rfl

theorem byteLength_plain (plain : isSurrogate u = false) : byteLength [u] = unitBytes u := by
  have small : u.toNat < 0x10000 := u.toNat_lt
  have scalar : isScalar u.toNat = true := by
    simp [isSurrogate, isHighSurrogate, isLowSurrogate, isScalar] at plain ⊢
    omega
  rw [byteLength, encode, codePoints, flatMap_singleton, if_pos scalar, length_encodeScalar,
    unitBytes, if_pos small]
  split_ifs <;> omega

theorem byteLength_pair {u v : CodeUnit} (high : isHighSurrogate u = true)
    (low : isLowSurrogate v = true) : byteLength [u, v] = 4 := by
  have scalar : isScalar (0x10000 + (u.toNat - 0xd800) * 0x400 + (v.toNat - 0xdc00)) = true := by
    simp [isHighSurrogate, isLowSurrogate, isScalar] at high low ⊢
    omega
  have both : (isHighSurrogate u && isLowSurrogate v) = true := by rw [high, low]; rfl
  rw [byteLength, encode, codePoints, if_pos both, codePoints, flatMap_singleton,
    if_pos scalar, length_encodeScalar, if_neg (by omega), if_neg (by omega), if_neg (by omega)]

theorem byteLength_append {s : Text} (ok : wellFormed s = true) (rest : Text) :
    byteLength (s ++ rest) = byteLength s + byteLength rest := by
  rw [byteLength, encode_append ok, length_append, byteLength, byteLength]

theorem wellFormed_append {s t : Text} (left : wellFormed s = true)
    (right : wellFormed t = true) : wellFormed (s ++ t) = true := by
  induction left using wellFormed_rec with
  | nil => exact right
  | plain u rest isPlain _ ih => rwa [cons_append, wellFormed_cons isPlain]
  | pair u v rest high low _ ih =>
    rwa [cons_append, cons_append, wellFormed_cons_pair high low]

theorem wellFormed_plain (plain : isSurrogate u = false) : wellFormed [u] = true := by
  rw [wellFormed, plain]
  rfl

theorem wellFormed_pair {u v : CodeUnit} (high : isHighSurrogate u = true)
    (low : isLowSurrogate v = true) : wellFormed [u, v] = true := by
  rw [wellFormed, if_pos high, low]
  rfl

theorem isHighSurrogate_of_plain (plain : isSurrogate u = false) :
    isHighSurrogate u = false := (isSurrogate_eq_false_iff.mp plain).1

/-! ## Loops over a text -/

theorem getElem?_length_append (before rest : Text) (i : Nat) :
    (before ++ rest)[before.length + i]? = rest[i]? := by
  rw [getElem?_append_right (by omega), Nat.add_sub_cancel_left]

theorem take_length_append (before rest : Text) (i : Nat) :
    (before ++ rest).take (before.length + i) = before ++ rest.take i := by
  rw [take_append, take_of_length_le (by omega), Nat.add_sub_cancel_left]

theorem getElem?_length (before : Text) (u : CodeUnit) (rest : Text) :
    (before ++ u :: rest)[before.length]? = some u := getElem?_length_append before (u :: rest) 0

section Offsets

variable {before : Text} (front : wellFormed before = true) (rest : Text)
include front

theorem byteOffsetAt_plain {u : CodeUnit} (plain : isSurrogate u = false) :
    byteOffsetAt (before ++ u :: rest) (before.length + 1) =
      some (byteLength before + unitBytes u) := by
  have whole : splitsPair (before ++ u :: rest) (before.length + 1) = false := by
    rw [splitsPair, getElem?_length, any_some, isHighSurrogate_of_plain plain, Bool.false_and]
  rw [byteOffsetAt, whole, if_neg Bool.false_ne_true, take_length_append, byteLength_append front]
  exact congrArg (fun n => some (byteLength before + n)) (byteLength_plain plain)

variable {u v : CodeUnit} (high : isHighSurrogate u = true) (low : isLowSurrogate v = true)
include high low

omit front in
theorem byteOffsetAt_inside :
    byteOffsetAt (before ++ u :: v :: rest) (before.length + 1) = none := by
  rw [byteOffsetAt, splitsPair, getElem?_length, getElem?_length_append, getElem?_cons_succ,
    getElem?_cons_zero, any_some, any_some, high, low, Bool.and_self, if_pos rfl]

theorem byteOffsetAt_pair :
    byteOffsetAt (before ++ u :: v :: rest) (before.length + 2) = some (byteLength before + 4) := by
  have notHigh : isHighSurrogate v = false := by
    rw [Bool.eq_false_iff]
    intro both
    rw [not_low_of_high both] at low
    cases low
  have whole : splitsPair (before ++ u :: v :: rest) (before.length + 2) = false := by
    rw [splitsPair, getElem?_length_append, getElem?_cons_succ, getElem?_cons_zero,
      any_some, notHigh, Bool.false_and]
  rw [byteOffsetAt, whole, if_neg Bool.false_ne_true, take_length_append, byteLength_append front]
  exact congrArg (fun n => some (byteLength before + n)) (byteLength_pair high low)

end Offsets

variable {text : Text}

/-- A loop that counts the bytes of units and pairs yields the byte offsets. -/
theorem byteOffsets_of_loop {loop : Nat → Text → List (Option Nat)} (nil : ∀ b, loop b [] = [])
    (plain : ∀ b u rest, isSurrogate u = false →
      loop b (u :: rest) = some (b + unitBytes u) :: loop (b + unitBytes u) rest)
    (pair : ∀ b u v rest, isHighSurrogate u = true → isLowSurrogate v = true →
      loop b (u :: v :: rest) = none :: some (b + 4) :: loop (b + 4) rest) (ok : wellFormed text = true) : some 0 :: loop 0 text = byteOffsets text := by
  -- what the loop yields behind a part of the text
  have behind : ∀ before, wellFormed before = true → loop (byteLength before) text =
      (range' (before.length + 1) text.length).map (byteOffsetAt (before ++ text)) := by
    induction ok using wellFormed_rec with
    | nil => exact fun before _ => nil _
    | plain u rest isPlain _ ih =>
      intro before front
      have next := ih (before ++ [u]) (wellFormed_append front (wellFormed_plain isPlain))
      rw [byteLength_append front, byteLength_plain isPlain, append_assoc,
        singleton_append, length_append, length_singleton] at next
      rw [plain _ _ _ isPlain, next, length_cons, range'_succ, map_cons,
        byteOffsetAt_plain front rest isPlain]
    | pair u v rest high low _ ih =>
      intro before front
      have next : loop (byteLength before + 4) rest =
          (range' (before.length + 1 + 1 + 1) rest.length).map
            (byteOffsetAt (before ++ u :: v :: rest)) := by
        have behind := ih (before ++ [u, v]) (wellFormed_append front (wellFormed_pair high low))
        rwa [byteLength_append front, byteLength_pair high low, append_assoc,
          length_append] at behind
      rw [pair _ _ _ _ high low, next, length_cons, length_cons, range'_succ,
        range'_succ, map_cons, map_cons, byteOffsetAt_inside rest high low,
        byteOffsetAt_pair front rest high low]
  have whole := behind [] rfl
  rw [nil_append] at whole
  rw [byteOffsets, range_eq_range', range'_succ, map_cons]
  exact congrArg₂ _ rfl whole

/-- Whether a line terminator ends with a unit, seen from the unit behind it. -/
theorem endsLine_length (before : Text) (u : CodeUnit) (rest : Text) :
    endsLine (before ++ u :: rest) before.length =
      decide (u = 0x0a ∨ (u = 0x0d ∧ rest.head? ≠ some 0x0a)) := by
  have atUnit := getElem?_length_append before (u :: rest) 0
  rw [Nat.add_zero, getElem?_cons_zero] at atUnit
  rw [endsLine, atUnit, getElem?_length_append, getElem?_cons_succ, ← head?_eq_getElem?,
    Bool.eq_iff_iff]
  simp

theorem not_endsLine_of_surrogate (before : Text) {u : CodeUnit} (rest : Text)
    (surrogate : isSurrogate u = true) : endsLine (before ++ u :: rest) before.length = false := by
  rw [endsLine_length, decide_eq_false_iff_not]
  rintro (rfl | ⟨rfl, -⟩)
  · exact absurd surrogate (by decide)
  · exact absurd surrogate (by decide)

/-- A loop that notes where lines end yields the ends of the line terminators. -/
theorem terminatorEnds_of_loop {loop : Nat → Text → List Nat} (nil : ∀ i, loop i [] = [])
    (plain : ∀ i u rest, isSurrogate u = false → loop i (u :: rest) =
        (if u = 0x0a ∨ (u = 0x0d ∧ rest.head? ≠ some 0x0a) then [i + 1] else []) ++
          loop (i + 1) rest)
    (pair : ∀ i u v rest, isHighSurrogate u = true → isLowSurrogate v = true →
      loop i (u :: v :: rest) = loop (i + 2) rest) (ok : wellFormed text = true) :
    loop 0 text = terminatorEnds text text.length := by
  have behind : ∀ before : Text, loop before.length text =
      ((range' before.length text.length).filter (endsLine (before ++ text))).map (· + 1) := by
    induction ok using wellFormed_rec with
    | nil => exact fun before => nil _
    | plain u rest isPlain _ ih =>
      intro before
      have next := ih (before ++ [u])
      rw [append_assoc, singleton_append, length_append, length_singleton] at next
      rw [plain _ _ _ isPlain, next, length_cons, range'_succ, filter_cons, endsLine_length]
      simp only [decide_eq_true_eq]
      split_ifs <;> rfl
    | pair u v rest high low _ ih =>
      intro before
      have next : loop (before.length + 2) rest =
          ((range' (before.length + 1 + 1) rest.length).filter
            (endsLine (before ++ u :: v :: rest))).map (· + 1) := by
        have behind := ih (before ++ [u, v])
        rwa [append_assoc, length_append] at behind
      have first : endsLine (before ++ u :: v :: rest) before.length = false :=
        not_endsLine_of_surrogate _ _ (by rw [isSurrogate, high, Bool.true_or])
      have second : endsLine (before ++ u :: v :: rest) (before.length + 1) = false := by
        have atNext := not_endsLine_of_surrogate (before ++ [u]) rest
          (show isSurrogate v = true by rw [isSurrogate, low, Bool.or_true])
        rwa [append_assoc, singleton_append, length_append] at atNext
      rw [pair _ _ _ _ high low, next, length_cons, length_cons, range'_succ,
        range'_succ, filter_cons, filter_cons, if_neg (by rw [first]; decide),
        if_neg (by rw [second]; decide)]
  have whole := behind []
  rw [terminatorEnds, range_eq_range']
  exact whole

/-! ## Finding the line -/

theorem terminatorEnds_pairwise (text : Text) (utf16Offset : Nat) :
    (terminatorEnds text utf16Offset).Pairwise (· < ·) :=
  pairwise_map.mpr
    ((pairwise_lt_range.sublist filter_sublist).imp fun less => Nat.succ_lt_succ less)

theorem lineStarts_pairwise (text : Text) : (lineStarts text).Pairwise (· < ·) := by
  refine pairwise_cons.mpr ⟨fun start member => ?_, terminatorEnds_pairwise text _⟩
  obtain ⟨i, -, rfl⟩ := mem_map.mp member
  exact Nat.succ_pos i

/-- The line terminators before an offset are those of the text that end at or before it. -/
theorem filter_terminatorEnds {utf16Offset size : Nat} (inside : utf16Offset ≤ size) :
    (terminatorEnds text size).filter (· ≤ utf16Offset) = terminatorEnds text utf16Offset := by
  induction inside with
  | refl =>
    refine filter_eq_self.mpr fun start member => ?_
    obtain ⟨i, picked, rfl⟩ := mem_map.mp member
    exact decide_eq_true (mem_range.mp (mem_filter.mp picked).1)
  | @step size inside ih =>
    have split : terminatorEnds text (size + 1) =
        terminatorEnds text size ++ ([size].filter (endsLine text)).map (· + 1) := by
      rw [terminatorEnds, range_succ, filter_append, map_append, terminatorEnds]
    have none : (([size].filter (endsLine text)).map (· + 1)).filter (· ≤ utf16Offset) = [] := by
      refine filter_eq_nil_iff.mpr fun start member => ?_
      obtain ⟨i, picked, rfl⟩ := mem_map.mp member
      obtain rfl := mem_singleton.mp (mem_filter.mp picked).1
      rw [decide_eq_true_eq, Nat.not_le]
      exact Nat.lt_succ_of_le inside
    rw [split, filter_append, ih, none, append_nil]

section Line

variable {text : Text} {utf16Offset : Nat} (inside : utf16Offset ≤ text.length)
include inside

theorem filter_lineStarts :
    (lineStarts text).filter (· ≤ utf16Offset) = 0 :: terminatorEnds text utf16Offset := by
  rw [lineStarts, filter_cons, if_pos (by simp), filter_terminatorEnds inside]

omit inside in
theorem startsInFront (text : Text) (utf16Offset : Nat) : (lineStarts text).Pairwise fun first second =>
    decide (second ≤ utf16Offset) = true → decide (first ≤ utf16Offset) = true :=
  (lineStarts_pairwise text).imp fun less holds =>
    decide_eq_true (Nat.le_trans (Nat.le_of_lt less) (of_decide_eq_true holds))

/-- The search for the first start behind an offset ends behind the line of the offset. -/
theorem bisect_lineStarts :
    Bisect.bisect (fun i => ((lineStarts text)[i]?).any (· ≤ utf16Offset)) (lineStarts text).length =
      (terminatorEnds text utf16Offset).length + 1 := by
  have antitone := Bisect.antitone_of_pairwise (startsInFront text utf16Offset)
  have taken := (Bisect.take_bisect (startsInFront text utf16Offset)).1
  rw [filter_lineStarts inside] at taken
  have size := congrArg length taken
  rwa [length_take, Nat.min_eq_left (Bisect.bisect_boundary antitone).1] at size

theorem lastPassing_lineStarts :
    Bisect.lastPassing (fun i => ((lineStarts text)[i]?).any (· ≤ utf16Offset))
      (lineStarts text).length = (terminatorEnds text utf16Offset).length := by
  have antitone := Bisect.antitone_of_pairwise (startsInFront text utf16Offset)
  have boundary := Bisect.lastPassing_add_one antitone (Nat.succ_pos _) (by simp [lineStarts])
  rw [bisect_lineStarts inside] at boundary
  exact Nat.succ.inj boundary

theorem getElem?_lineStarts : (lineStarts text)[(terminatorEnds text utf16Offset).length]? =
      some (lineStart text utf16Offset) := by
  have taken := (Bisect.take_bisect (startsInFront text utf16Offset)).1
  rw [filter_lineStarts inside, bisect_lineStarts inside] at taken
  rw [← getElem?_take_of_lt (Nat.lt_succ_self _), taken, lineStart]
  cases ends : terminatorEnds text utf16Offset with
  | nil => rfl
  | cons first rest =>
    rw [length_cons, getElem?_cons_succ, getLast?_eq_getElem?, length_cons, Nat.add_sub_cancel]
    have inRest : rest.length < (first :: rest).length := Nat.lt_succ_self _
    rw [getElem?_eq_getElem inRest, getD_some]

end Line

variable {text : Text} {utf16Offset : Nat} {u : CodeUnit} {i : Nat}

theorem lineStart_le (text : Text) (utf16Offset : Nat) :
    lineStart text utf16Offset ≤ utf16Offset := by
  unfold lineStart
  cases last : (terminatorEnds text utf16Offset).getLast? with
  | none => exact Nat.zero_le _
  | some start =>
    obtain ⟨i, member, rfl⟩ := mem_map.mp (mem_of_getLast? last)
    exact mem_range.mp (mem_filter.mp member).1

theorem length_terminatorEnds_le (text : Text) (utf16Offset : Nat) :
    (terminatorEnds text utf16Offset).length ≤ utf16Offset := by
  rw [terminatorEnds, length_map]
  exact Nat.le_trans (length_filter_le _ _) (Nat.le_of_eq length_range)

theorem terminatorEnds_succ (text : Text) (i : Nat) : terminatorEnds text (i + 1) =
      terminatorEnds text i ++ if endsLine text i then [i + 1] else [] := by
  rw [terminatorEnds, range_succ, filter_append, map_append, terminatorEnds]
  cases ends : endsLine text i <;> simp [ends]

theorem lineStart_succ (text : Text) (i : Nat) :
    lineStart text (i + 1) = if endsLine text i then i + 1 else lineStart text i := by
  rw [lineStart, terminatorEnds_succ]
  split_ifs
  · rw [getLast?_concat, getD_some]
  · rw [append_nil, lineStart]

theorem same_line (inLine : endsLine text i = false) :
    terminatorEnds text (i + 1) = terminatorEnds text i ∧
      lineStart text (i + 1) = lineStart text i := by
  rw [terminatorEnds_succ, lineStart_succ, inLine, if_neg Bool.false_ne_true,
    if_neg Bool.false_ne_true, append_nil]
  exact ⟨rfl, rfl⟩

theorem next_line (ends : endsLine text i = true) :
    (terminatorEnds text (i + 1)).length = (terminatorEnds text i).length + 1 ∧
      lineStart text (i + 1) = i + 1 := by
  rw [terminatorEnds_succ, lineStart_succ, if_pos ends, if_pos ends, length_append]
  exact ⟨rfl, rfl⟩

theorem terminatorEnds_lineStart (text : Text) (utf16Offset : Nat) :
    terminatorEnds text (lineStart text utf16Offset) = terminatorEnds text utf16Offset := by
  induction utf16Offset with
  | zero => rfl
  | succ i ih =>
    rw [lineStart_succ]
    split_ifs with ends
    · rfl
    · rw [ih, terminatorEnds_succ, if_neg ends, append_nil]

theorem lineStart_lineStart (text : Text) (utf16Offset : Nat) :
    lineStart text (lineStart text utf16Offset) = lineStart text utf16Offset := by
  rw [lineStart, terminatorEnds_lineStart, ← lineStart]

theorem isLineBreak_of_endsLine (ends : endsLine text i = true) :
    text[i]? = some 0x0a ∨ text[i]? = some 0x0d := by
  simp only [endsLine, Bool.or_eq_true, Bool.and_eq_true, beq_iff_eq] at ends
  exact ends.imp_right And.left

/-! ## Boundaries -/

/-- An offset of the text that splits no surrogate pair. -/
structure Boundary (text : Text) (utf16Offset : Nat) : Prop where
  inside : utf16Offset ≤ text.length
  whole : splitsPair text utf16Offset = false

theorem Boundary.zero (text : Text) : Boundary text 0 := ⟨Nat.zero_le _, rfl⟩

theorem Boundary.length (text : Text) : Boundary text text.length := by
  refine ⟨Nat.le_refl _, ?_⟩
  cases size : text.length with
  | zero => rfl
  | succ before =>
    have outside : text[before + 1]? = none := getElem?_eq_none_iff.mpr (Nat.le_of_eq size)
    rw [splitsPair, outside, Option.any_none, Bool.and_false]

theorem Boundary.succ {before : Nat} (unit : text[before]? = some u)
    (plain : isHighSurrogate u = false) : Boundary text (before + 1) :=
  ⟨(List.getElem?_eq_some_iff.mp unit).1, by
    rw [splitsPair, unit, any_some, plain, Bool.false_and]⟩

theorem Boundary.before (unit : text[i]? = some u)
    (plain : isLowSurrogate u = false) : Boundary text i := by
  refine ⟨Nat.le_of_lt (List.getElem?_eq_some_iff.mp unit).1, ?_⟩
  cases i with
  | zero => rfl
  | succ before => rw [splitsPair, unit, any_some, plain, Bool.and_false]

/-- Lines start at boundaries. -/
theorem Boundary.lineStart
    (inside : utf16Offset ≤ text.length) : Boundary text (lineStart text utf16Offset) := by
  induction utf16Offset with
  | zero => exact .zero text
  | succ i ih =>
    rw [lineStart_succ]
    split_ifs with ends
    · rcases isLineBreak_of_endsLine ends with unit | unit
      · exact .succ unit (by decide)
      · exact .succ unit (by decide)
    · exact ih (Nat.le_of_succ_le inside)

/-- Between boundaries, what is a boundary of the part is one of the text. -/
theorem Boundary.of_part {start stop k : Nat} (first : Boundary text start)
    (last : Boundary text stop) (order : start ≤ stop)
    (part : Boundary ((text.drop start).take (stop - start)) k) : Boundary text (start + k) := by
  have size : ((text.drop start).take (stop - start)).length = stop - start := by
    rw [length_take, length_drop]
    exact Nat.min_eq_left (Nat.sub_le_sub_right last.inside start)
  have inside := part.inside
  rw [size] at inside
  rcases Nat.eq_or_lt_of_le inside with atEnd | before
  · rwa [atEnd, Nat.add_sub_cancel' order]
  · cases k with
    | zero => exact first
    | succ k =>
      have unit : ∀ i, i < stop - start →
          ((text.drop start).take (stop - start))[i]? = text[start + i]? := fun i less => by
        rw [getElem?_take_of_lt less, getElem?_drop]
      refine ⟨by have := last.inside; omega, ?_⟩
      have whole := part.whole
      rwa [splitsPair, unit k (by omega), unit (k + 1) before] at whole

def trueRange (sourceId text : Text) (start stop : Nat) : SourceRange where
  sourceId := sourceId
  start := truePosition text start
  stop := truePosition text stop

/-- A range of the text between the true positions of two boundaries. -/
def TrueRange (sourceId text : Text) (range : SourceRange) : Prop :=
  ∃ start stop, start ≤ stop ∧ Boundary text start ∧ Boundary text stop ∧
    range = trueRange sourceId text start stop

/-! ## Cutting a text -/

theorem splitsPair_cons {rest : Text}
    (apart : (isHighSurrogate u && (rest.head?).any isLowSurrogate) = false) (k : Nat) :
    splitsPair (u :: rest) (k + 1) = splitsPair rest k := by
  cases k with
  | zero =>
    change ((some u).any isHighSurrogate && (rest[0]?).any isLowSurrogate) = false
    rw [← head?_eq_getElem?, any_some, apart]
  | succ k => rfl

theorem splitsPair_pair {u v : CodeUnit} (low : isLowSurrogate v = true) (rest : Text) (k : Nat) :
    splitsPair (u :: v :: rest) (k + 2) = splitsPair rest k := by
  have notHigh : isHighSurrogate v = false :=
    Bool.eq_false_iff.mpr fun high => by rw [not_low_of_high high] at low; cases low
  exact splitsPair_cons (by rw [notHigh, Bool.false_and]) k

theorem wellFormed_take (ok : wellFormed text = true)
    (whole : splitsPair text utf16Offset = false) : wellFormed (text.take utf16Offset) = true := by
  induction ok using wellFormed_rec generalizing utf16Offset with
  | nil => rw [take_nil]; rfl
  | plain u rest isPlain _ ih =>
    cases utf16Offset with
    | zero => rfl
    | succ before =>
      rw [splitsPair_cons (by rw [isHighSurrogate_of_plain isPlain, Bool.false_and])] at whole
      rw [take_succ_cons, wellFormed_cons isPlain]
      exact ih whole
  | pair u v rest high low _ ih =>
    match utf16Offset with
    | 0 => rfl
    | 1 =>
      rw [splitsPair, getElem?_cons_zero, getElem?_cons_succ, getElem?_cons_zero,
        any_some, any_some, high, low] at whole
      cases whole
    | before + 2 =>
      rw [splitsPair_pair low] at whole
      rw [take_succ_cons, take_succ_cons, wellFormed_cons_pair high low]
      exact ih whole

theorem byteLength_take_le (ok : wellFormed text = true) {first last : Nat}
    (whole : splitsPair text first = false) (order : first ≤ last) :
    byteLength (text.take first) ≤ byteLength (text.take last) := by
  have front : (text.take last).take first = text.take first := by
    rw [take_take, Nat.min_eq_left order]
  have split := byteLength_append (wellFormed_take ok whole) ((text.take last).drop first)
  rw [← front, take_append_drop] at split
  rw [← front]
  omega

theorem byteLength_take_le_length (ok : wellFormed text = true) (whole : splitsPair text utf16Offset = false) :
    byteLength (text.take utf16Offset) ≤ byteLength text := by
  have split := byteLength_append (wellFormed_take ok whole) (text.drop utf16Offset)
  rw [take_append_drop] at split
  omega

theorem getElem?_byteOffsets
    (inside : utf16Offset ≤ text.length) (whole : splitsPair text utf16Offset = false) :
    (byteOffsets text)[utf16Offset]? = some (some (truePosition text utf16Offset).byteOffset) := by
  rw [byteOffsets, getElem?_map, getElem?_range (Nat.lt_succ_of_le inside),
    Option.map_some, byteOffsetAt, whole, if_neg Bool.false_ne_true]
  rfl

end AgentContextLint.SourceCoordinates
