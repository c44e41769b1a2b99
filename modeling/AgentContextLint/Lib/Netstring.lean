import AgentContextLint.Lib.Utf8
import Mathlib.Data.Nat.Digits.Lemmas

/-!
# Length-prefixed byte strings

A frame is the decimal length of a byte string, a colon and the bytes. A concatenation of frames
determines them (`flatMap_frame_injective`), which is what hashing a list of fields rests on.
-/

namespace Netstring

open Utf16 List

variable {m n : Nat}

/-! ## Separators -/

/-- What stands before the first separator. -/
theorem append_cons_inj {α : Type} {separator : α} {first second rest rest' : List α}
    (left : separator ∉ first) (right : separator ∉ second)
    (eq : first ++ separator :: rest = second ++ separator :: rest') :
    first = second ∧ rest = rest' := by
  induction first generalizing second with
  | nil =>
    cases second with
    | nil => exact ⟨rfl, (cons.inj eq).2⟩
    | cons b second => exact absurd mem_cons_self ((cons.inj eq).1 ▸ right)
  | cons a first ih =>
    cases second with
    | nil => exact absurd mem_cons_self ((cons.inj eq).1 ▸ left)
    | cons b second =>
      obtain ⟨head, tail⟩ := cons.inj eq
      obtain ⟨same, rest⟩ := ih (fun member => left (mem_cons_of_mem a member))
        (fun member => right (mem_cons_of_mem b member)) tail
      exact ⟨by rw [head, same], rest⟩

/-! ## Decimal numbers -/

/-- The decimal digits of a number, the first one first. -/
def digits (n : Nat) : List Nat := if n = 0 then [0] else (Nat.digits 10 n).reverse

theorem digits_lt {n : Nat} : ∀ d ∈ digits n, d < 10 := by
  intro d member
  unfold digits at member
  split at member
  · cases mem_singleton.mp member
    decide
  · exact Nat.digits_lt_base (by decide) (mem_reverse.mp member)

theorem ofDigits_digits (n : Nat) : Nat.ofDigits 10 (digits n).reverse = n := by
  unfold digits
  split
  · rename_i zero
    rw [zero]
    rfl
  · rw [reverse_reverse, Nat.ofDigits_digits]

theorem digits_injective (same : digits m = digits n) : m = n := by
  rw [← ofDigits_digits m, same, ofDigits_digits]

def decimal (n : Nat) : List UInt8 := (digits n).map fun d => .ofNat (0x30 + d)

def decimalText (n : Nat) : Text := (digits n).map fun d => .ofNat (0x30 + d)

theorem decimal_injective (same : decimal m = decimal n) : m = n := by
  have value : ∀ d < 10, (UInt8.ofNat (0x30 + d)).toNat - 0x30 = d := by decide
  have read : ∀ n, (decimal n).map (fun b => b.toNat - 0x30) = digits n := fun n => by
    rw [decimal, map_map]
    conv_rhs => rw [← map_id (digits n)]
    exact map_congr_left fun d member => value d (digits_lt d member)
  exact digits_injective (by rw [← read m, same, read n])

theorem mem_decimal {n : Nat} {b : UInt8} (member : b ∈ decimal n) :
    0x30 ≤ b.toNat ∧ b.toNat ≤ 0x39 := by
  have bounds : ∀ d < 10,
      0x30 ≤ (UInt8.ofNat (0x30 + d)).toNat ∧ (UInt8.ofNat (0x30 + d)).toNat ≤ 0x39 := by decide
  obtain ⟨d, ofNumber, rfl⟩ := mem_map.mp member
  exact bounds d (digits_lt d ofNumber)

theorem colon_notMem_decimal (n : Nat) : (0x3a : UInt8) ∉ decimal n := fun member =>
  absurd (mem_decimal member).2 (by decide)

/-- The bytes of a number's text are its digits. -/
theorem encode_decimalText (n : Nat) : Utf8.encode (decimalText n) = decimal n := by
  have unit : ∀ d < 10, codePoints [UInt16.ofNat (0x30 + d)] = [0x30 + d] ∧
      Utf8.encodeScalar (if Utf8.isScalar (0x30 + d) then 0x30 + d else 0xfffd) =
        [.ofNat (0x30 + d)] ∧ isHighSurrogate (.ofNat (0x30 + d)) = false := by decide
  have text : ∀ ds : List Nat, (∀ d ∈ ds, d < 10) →
      codePoints (ds.map fun d => UInt16.ofNat (0x30 + d)) = ds.map (0x30 + ·) := by
    intro ds small
    induction ds with
    | nil => rfl
    | cons d rest ih =>
      obtain ⟨point, -, plain⟩ := unit d (small d mem_cons_self)
      have later := ih fun e member => small e (mem_cons_of_mem d member)
      cases rest with
      | nil => exact point
      | cons e rest =>
        rw [map_cons, map_cons, codePoints, plain, Bool.false_and, if_neg (by simp)]
        rw [map_cons] at later
        rw [later, map_cons]
        exact congrArg (· :: _) (cons.inj point).1
  rw [Utf8.encode, decimalText, text _ fun d => digits_lt d, flatMap_map, decimal, map_eq_flatMap]
  exact flatMap_congr fun d member => (unit d (digits_lt d member)).2.1

/-! ## Frames -/

/-- The length of a byte string, a colon and the bytes. -/
def frame (bytes : List UInt8) : List UInt8 := decimal bytes.length ++ 0x3a :: bytes

/-- A frame determines its bytes and what follows it. -/
theorem frame_append_inj {first second rest rest' : List UInt8}
    (eq : frame first ++ rest = frame second ++ rest') : first = second ∧ rest = rest' := by
  rw [frame, frame, append_assoc, append_assoc, cons_append, cons_append] at eq
  obtain ⟨lengths, bytes⟩ :=
    append_cons_inj (colon_notMem_decimal _) (colon_notMem_decimal _) eq
  exact append_inj bytes (decimal_injective lengths)

theorem frame_ne_nil (bytes : List UInt8) : frame bytes ≠ [] := by
  simp [frame]

theorem flatMap_frame_injective {first second : List (List UInt8)}
    (eq : first.flatMap frame = second.flatMap frame) : first = second := by
  induction first generalizing second with
  | nil =>
    cases second with
    | nil => rfl
    | cons b second =>
      exact absurd (append_eq_nil_iff.mp eq.symm).1 (frame_ne_nil b)
  | cons a first ih =>
    cases second with
    | nil => exact absurd (append_eq_nil_iff.mp eq).1 (frame_ne_nil a)
    | cons b second =>
      obtain ⟨head, tail⟩ := frame_append_inj eq
      rw [head, ih tail]

end Netstring
