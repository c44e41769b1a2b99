import AgentContextLint.Lib.Utf8

/-!
# Decoders of UTF-8

The decoders of the platform besides the strict one: `decodeLossy` puts U+FFFD for what is not
UTF-8, one for each longest front of a sequence, and `decodeWithoutBom` is strict and drops a byte
order mark. On the bytes of a string the first gives the string back (`decodeLossy_encode`), and so
does the second unless the string starts with the mark.
-/

namespace Utf8

open Utf16

variable {s : Text} {bytes : List UInt8}

/-- How many bytes behind a lead byte belong to the longest front of a sequence it begins. -/
def frontLength (lead : UInt8) (rest : List UInt8) : Nat :=
  let n := lead.toNat
  let low := if n = 0xe0 then 0xa0 else if n = 0xf0 then 0x90 else 0x80
  let high := if n = 0xed then 0x9f else if n = 0xf4 then 0x8f else 0xbf
  match rest with
  | [] => 0
  | second :: rest =>
    if ¬ (0xe0 ≤ n ∧ n ≤ 0xf4) ∨ second.toNat < low ∨ high < second.toNat then 0
    else if n < 0xf0 then 1
    else if (rest.head?.map isContinuation).getD false then 2 else 1

/-- The scalar values of the bytes behind the next `skip` ones. -/
def decodeLossyScalars : (skip : Nat) → List UInt8 → List Nat
  | _, [] => []
  | skip + 1, _ :: rest => decodeLossyScalars skip rest
  | 0, lead :: rest =>
    match leadScalar lead rest with
    | some (n, more) => n :: decodeLossyScalars more rest
    | none => 0xfffd :: decodeLossyScalars (frontLength lead rest) rest

/-- `Buffer.toString("utf8")` -/
def decodeLossy (bytes : List UInt8) : Text :=
  (decodeLossyScalars 0 bytes).flatMap ofCodePoint

theorem decodeLossyScalars_of_decodeScalars {skip : Nat} {scalars : List Nat}
    (decoded : decodeScalars skip bytes = some scalars) :
    decodeLossyScalars skip bytes = scalars := by
  induction bytes generalizing skip scalars with
  | nil =>
    cases skip with
    | zero => cases decoded; rfl
    | succ skip => cases decoded; rfl
  | cons lead rest ih =>
    cases skip with
    | succ skip => exact ih decoded
    | zero =>
      rw [decodeScalars] at decoded
      rw [decodeLossyScalars]
      cases found : leadScalar lead rest with
      | none => rw [found] at decoded; cases decoded
      | some sequence =>
        rw [found, Option.bind_some, Option.map_eq_some_iff] at decoded
        rcases decoded with ⟨later, ok, rfl⟩
        exact congrArg (sequence.1 :: ·) (ih ok)

theorem decodeLossy_of_decode {text : Text}
    (decoded : decode bytes = some text) : decodeLossy bytes = text := by
  rcases Option.map_eq_some_iff.mp decoded with ⟨scalars, ok, rfl⟩
  rw [decodeLossy, decodeLossyScalars_of_decodeScalars ok]

theorem decodeLossy_encode (ok : wellFormed s = true) : decodeLossy (encode s) = s :=
  decodeLossy_of_decode (decode_encode ok)

/-! ## Byte order marks -/

def byteOrderMark : CodeUnit := 0xfeff

def StartsWithBom (s : Text) : Prop := s.head? = some byteOrderMark

instance (s : Text) : Decidable (StartsWithBom s) :=
  inferInstanceAs (Decidable (s.head? = some byteOrderMark))

def withoutBom (s : Text) : Text := if StartsWithBom s then s.tail else s

/-- `new TextDecoder("utf-8", { fatal: true }).decode` -/
def decodeWithoutBom (bytes : List UInt8) : Option Text := (decode bytes).map withoutBom

theorem decodeWithoutBom_encode (ok : wellFormed s = true) :
    decodeWithoutBom (encode s) = some (withoutBom s) := by
  rw [decodeWithoutBom, decode_encode ok, Option.map_some]

theorem withoutBom_of_not (plain : ¬ StartsWithBom s) : withoutBom s = s :=
  if_neg plain

/-- Without its mark a string is shorter. -/
theorem length_withoutBom (marked : StartsWithBom s) : (withoutBom s).length < s.length := by
  rw [withoutBom, if_pos marked, List.length_tail]
  have nonempty : s ≠ [] := fun eq => by rw [eq] at marked; cases marked
  exact Nat.sub_lt (List.length_pos_iff.mpr nonempty) Nat.one_pos

theorem length_withoutBom_le (s : Text) : (withoutBom s).length ≤ s.length := by
  by_cases marked : StartsWithBom s
  · exact Nat.le_of_lt (length_withoutBom marked)
  · exact Nat.le_of_eq (congrArg List.length (withoutBom_of_not marked))

end Utf8
