import AgentContextLint.Lib.Utf8

/-!
# URI components

`encodeURIComponent` and `decodeURIComponent`; `none` stands for a thrown `URIError`.
-/

namespace UriComponent

open Utf16 Utf8 List
open Option (bind_some map_some)

variable {n : Nat}

/-! ## Escapes -/

def percent : CodeUnit := 0x25

def upperHex (n : Nat) : CodeUnit := if n < 10 then .ofNat (0x30 + n) else .ofNat (0x37 + n)

def escapeByte (b : UInt8) : Text := [percent, upperHex (b.toNat / 16), upperHex (b.toNat % 16)]

def hexValue (unit : CodeUnit) : Option Nat :=
  let n := unit.toNat
  if 0x30 ≤ n ∧ n ≤ 0x39 then some (n - 0x30)
  else if 0x41 ≤ n ∧ n ≤ 0x46 then some (n - 0x37)
  else if 0x61 ≤ n ∧ n ≤ 0x66 then some (n - 0x57)
  else none

/-- The byte of the escape that a text starts with. -/
def escapedByte : Text → Option UInt8
  | sign :: high :: low :: _ =>
    if sign = percent then
      (hexValue high).bind fun x => (hexValue low).map fun y => .ofNat (x * 16 + y)
    else none
  | _ => none

/-- The bytes of `count` escapes in a row. -/
def escapedBytes : (count : Nat) → Text → Option (List UInt8)
  | 0, _ => some []
  | count + 1, text =>
    (escapedByte text).bind fun b => (escapedBytes count (text.drop 3)).map (b :: ·)

/-- How many bytes follow a lead byte. -/
def continuationCount (lead : UInt8) : Option Nat :=
  if lead.toNat < 0x80 then some 0
  else if lead.toNat < 0xc0 then none
  else if lead.toNat < 0xe0 then some 1
  else if lead.toNat < 0xf0 then some 2
  else if lead.toNat < 0xf8 then some 3
  else none

/-- The scalar value whose escapes a text starts with, and how many units they take behind the
first one. -/
def readEscapes (text : Text) : Option (Nat × Nat) :=
  (escapedByte text).bind fun lead =>
  (continuationCount lead).bind fun more =>
  (escapedBytes more (text.drop 3)).bind fun rest =>
  (leadScalar lead rest).map fun read => (read.1, 3 * more + 2)

/-! ## Components -/

def isUnescaped (unit : CodeUnit) : Bool :=
  let n := unit.toNat
  (0x30 ≤ n && n ≤ 0x39) || (0x41 ≤ n && n ≤ 0x5a) || (0x61 ≤ n && n ≤ 0x7a) ||
    unit ∈ [0x2d, 0x5f, 0x2e, 0x21, 0x7e, 0x2a, 0x27, 0x28, 0x29]

def escapes (n : Nat) : Text := (encodeScalar n).flatMap escapeByte

def encodeCodePoint (n : Nat) : Text :=
  if n < 0x80 ∧ isUnescaped (.ofNat n) then [.ofNat n] else escapes n

def encodeURIComponent (text : Text) : Option Text :=
  if wellFormed text then some ((codePoints text).flatMap encodeCodePoint) else none

/-- The text behind the next `skip` units. -/
def decodeFrom : (skip : Nat) → Text → Option Text
  | _, [] => some []
  | skip + 1, _ :: rest => decodeFrom skip rest
  | 0, unit :: rest =>
    if unit = percent then
      (readEscapes (unit :: rest)).bind fun read =>
        (decodeFrom read.2 rest).map (ofCodePoint read.1 ++ ·)
    else (decodeFrom 0 rest).map (unit :: ·)

def decodeURIComponent (text : Text) : Option Text := decodeFrom 0 text

/-! ## Reading escapes -/

theorem hexValue_upperHex : ∀ n < 16, hexValue (upperHex n) = some n := by decide

theorem escapedByte_escapeByte (b : UInt8) (rest : Text) :
    escapedByte (escapeByte b ++ rest) = some b := by
  have bound : b.toNat < 0x100 := b.toNat_lt
  have high := hexValue_upperHex (b.toNat / 16) (by omega)
  have low := hexValue_upperHex (b.toNat % 16) (by omega)
  have value : b.toNat / 16 * 16 + b.toNat % 16 = b.toNat := by omega
  rw [escapeByte, cons_append, cons_append, cons_append, nil_append,
    escapedByte, if_pos rfl, high, low, bind_some, map_some, value, UInt8.ofNat_toNat]

theorem escapedBytes_flatMap (bytes : List UInt8) (rest : Text) :
    escapedBytes bytes.length (bytes.flatMap escapeByte ++ rest) = some bytes := by
  induction bytes with
  | nil => rfl
  | cons b bytes ih =>
    rw [length_cons, escapedBytes, flatMap_cons, append_assoc,
      escapedByte_escapeByte, bind_some]
    have behind : (escapeByte b ++ (bytes.flatMap escapeByte ++ rest)).drop 3 =
        bytes.flatMap escapeByte ++ rest := rfl
    rw [behind, ih, map_some]

/-- The bytes of a scalar value are a lead byte and as many as it says. -/
theorem exists_lead (scalar : isScalar n = true) : ∃ lead others, encodeScalar n = lead :: others ∧
      continuationCount lead = some others.length ∧
      leadScalar lead others = some (n, others.length) := by
  have bound := scalar
  simp only [isScalar, Bool.or_eq_true, Bool.and_eq_true, decide_eq_true_eq] at bound
  unfold encodeScalar
  split_ifs with one two three
  · refine ⟨_, _, rfl, ?_, leadScalar_one [] one⟩
    rw [continuationCount, UInt8.toNat_ofNat', if_pos (by omega)]
    rfl
  · refine ⟨_, _, rfl, ?_, leadScalar_two [] one two⟩
    rw [continuationCount, toNat_ofNat_add _ (by omega), if_neg (by omega), if_neg (by omega),
      if_pos (by omega)]
    rfl
  · refine ⟨_, _, rfl, ?_, leadScalar_three [] two three scalar⟩
    rw [continuationCount, toNat_ofNat_add _ (by omega), if_neg (by omega), if_neg (by omega),
      if_neg (by omega), if_pos (by omega)]
    rfl
  · refine ⟨_, _, rfl, ?_, leadScalar_four [] three scalar⟩
    rw [continuationCount, toNat_ofNat_add _ (by omega), if_neg (by omega), if_neg (by omega),
      if_neg (by omega), if_neg (by omega), if_pos (by omega)]
    rfl

theorem readEscapes_escapes (scalar : isScalar n = true) (rest : Text) :
    readEscapes (escapes n ++ rest) = some (n, (escapes n).length - 1) := by
  obtain ⟨lead, others, bytes, count, read⟩ := exists_lead scalar
  have length : ∀ bytes : List UInt8, (bytes.flatMap escapeByte).length = 3 * bytes.length := by
    intro bytes
    rw [length_flatMap]
    simp [escapeByte, Nat.mul_comm]
  rw [escapes, bytes, flatMap_cons, append_assoc, readEscapes, escapedByte_escapeByte,
    bind_some, count, bind_some]
  have behind : (escapeByte lead ++ (others.flatMap escapeByte ++ rest)).drop 3 =
      others.flatMap escapeByte ++ rest := rfl
  rw [behind, escapedBytes_flatMap, bind_some, read, map_some, length_append,
    length, escapeByte]
  simp only [length_cons, length_nil, Option.some.injEq, Prod.mk.injEq, true_and]
  omega

theorem decodeFrom_skip (front rest : Text) :
    decodeFrom front.length (front ++ rest) = decodeFrom 0 rest := by
  induction front with
  | nil => rfl
  | cons unit front ih => rw [length_cons, cons_append, decodeFrom, ih]

/-- The escapes of a scalar value are read back as this value. -/
theorem decodeFrom_escapes (scalar : isScalar n = true) (rest : Text) :
    decodeFrom 0 (escapes n ++ rest) = (decodeFrom 0 rest).map (ofCodePoint n ++ ·) := by
  have read := readEscapes_escapes scalar rest
  obtain ⟨lead, others, bytes, _⟩ := exists_lead scalar
  obtain ⟨behind, split⟩ : ∃ behind, escapes n = percent :: behind := by
    rw [escapes, bytes]
    exact ⟨_, rfl⟩
  rw [split] at read ⊢
  rw [cons_append] at read ⊢
  rw [decodeFrom, if_pos rfl, read, bind_some, length_cons, Nat.add_sub_cancel]
  exact congrArg (Option.map _) (decodeFrom_skip behind rest)

/-- A unit that is not a percent sign stands for itself. -/
theorem decodeFrom_unit {unit : CodeUnit} (plain : unit ≠ percent) (rest : Text) :
    decodeFrom 0 (unit :: rest) = (decodeFrom 0 rest).map (unit :: ·) := by
  rw [decodeFrom, if_neg plain]

end UriComponent
