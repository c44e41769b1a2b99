import Mathlib.Data.List.Basic

/-!
# Fields of a byte string

`At bytes offset chunk` says that the bytes of `chunk` stand at an offset. Chunks are taken apart
from the front (`At.left`, `At.right`, `At.head`), as a reader that walks over its input needs it.
Numbers are big-endian: `be16` and `be32` write them, `toNat_be16` and `toNat_be32` read them back.
-/

namespace ByteFields

/-- The bytes of `chunk` stand at an offset of `bytes`. -/
def At (bytes : List UInt8) (offset : Nat) (chunk : List UInt8) : Prop :=
  ∃ rest, bytes.drop offset = chunk ++ rest

section Parts

variable {bytes first second : List UInt8} {offset : Nat}

theorem At.left (stands : At bytes offset (first ++ second)) : At bytes offset first := by
  obtain ⟨rest, eq⟩ := stands
  exact ⟨second ++ rest, by rw [eq, List.append_assoc]⟩

theorem At.right (stands : At bytes offset (first ++ second)) :
    At bytes (offset + first.length) second := by
  obtain ⟨rest, eq⟩ := stands
  refine ⟨rest, ?_⟩
  rw [← List.drop_drop, eq, List.append_assoc, List.drop_left]

theorem At.head {b : UInt8} (stands : At bytes offset (b :: second)) : bytes[offset]? = some b := by
  obtain ⟨rest, eq⟩ := stands
  rw [← List.head?_drop, eq, List.cons_append, List.head?_cons]

theorem At.tail {b : UInt8} (stands : At bytes offset (b :: second)) :
    At bytes (offset + 1) second :=
  (show At bytes offset ([b] ++ second) from stands).right

theorem At.take (stands : At bytes offset first) : (bytes.drop offset).take first.length = first := by
  obtain ⟨rest, eq⟩ := stands
  rw [eq, List.take_left]

/-- What follows the bytes does not matter. -/
theorem At.append_right (stands : At bytes offset first) (more : List UInt8) :
    At (bytes ++ more) offset first := by
  obtain ⟨rest, eq⟩ := stands
  exact ⟨rest ++ more.drop (offset - bytes.length), by rw [List.drop_append, eq, List.append_assoc]⟩

theorem At.le (stands : At bytes offset first) (nonempty : first ≠ []) :
    offset + first.length ≤ bytes.length := by
  obtain ⟨rest, eq⟩ := stands
  have lengths := congrArg List.length eq
  have positive := List.length_pos_iff.mpr nonempty
  rw [List.length_drop, List.length_append] at lengths
  omega

end Parts

/-! ## Numbers -/

def be16 (n : Nat) : List UInt8 := [.ofNat (n / 0x100), .ofNat n]

def be32 (n : Nat) : List UInt8 :=
  [.ofNat (n / 0x1000000), .ofNat (n / 0x10000), .ofNat (n / 0x100), .ofNat n]

/-- Eight bytes. -/
def be64 (n : Nat) : List UInt8 := be32 (n / 0x100000000) ++ be32 n

theorem length_be16 (n : Nat) : (be16 n).length = 2 := rfl

theorem length_be32 (n : Nat) : (be32 n).length = 4 := rfl

theorem toNat_be16 {n : Nat} (small : n < 0x10000) :
    (UInt8.ofNat (n / 0x100)).toNat * 0x100 + (UInt8.ofNat n).toNat = n := by
  simp only [UInt8.toNat_ofNat']
  omega

theorem toNat_be32 {n : Nat} (small : n < 0x100000000) :
    (UInt8.ofNat (n / 0x1000000)).toNat * 0x1000000 + (UInt8.ofNat (n / 0x10000)).toNat * 0x10000 +
      (UInt8.ofNat (n / 0x100)).toNat * 0x100 + (UInt8.ofNat n).toNat = n := by
  simp only [UInt8.toNat_ofNat']
  omega

end ByteFields
