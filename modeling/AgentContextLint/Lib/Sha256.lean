import AgentContextLint.Lib.ByteFields
import AgentContextLint.Lib.Utf16
import Mathlib.Algebra.Group.Nat.Defs

/-!
# SHA-256

The hash of a byte string as 64 lowercase hexadecimal digits. Words are natural numbers below
`2 ^ 32`. The message schedule is kept as the window of its next sixteen words, so that one
recursion over the round constants runs schedule and compression together.

Nothing is assumed about the hash. `CollisionFree` says of a finite set of inputs that no two
of them have the same digest; programs that identify inputs by digests rely on it for the
inputs of one run.
-/

namespace Sha256

open Utf16

variable (message : List UInt8)

/-! ## Words -/

def wordSize : Nat := 2 ^ 32

def add (x y : Nat) : Nat := (x + y) % wordSize

def rotr (n x : Nat) : Nat := (x >>> n ||| x <<< (32 - n)) % wordSize

def not (x : Nat) : Nat := wordSize - 1 - x

def ch (x y z : Nat) : Nat := (x &&& y) ^^^ (not x &&& z)

def maj (x y z : Nat) : Nat := (x &&& y) ^^^ (x &&& z) ^^^ (y &&& z)

def bigSigma0 (x : Nat) : Nat := rotr 2 x ^^^ rotr 13 x ^^^ rotr 22 x

def bigSigma1 (x : Nat) : Nat := rotr 6 x ^^^ rotr 11 x ^^^ rotr 25 x

def smallSigma0 (x : Nat) : Nat := rotr 7 x ^^^ rotr 18 x ^^^ x >>> 3

def smallSigma1 (x : Nat) : Nat := rotr 17 x ^^^ rotr 19 x ^^^ x >>> 10

def roundConstants : List Nat :=
  [0x428a2f98, 0x71374491, 0xb5c0fbcf, 0xe9b5dba5, 0x3956c25b, 0x59f111f1, 0x923f82a4, 0xab1c5ed5,
    0xd807aa98, 0x12835b01, 0x243185be, 0x550c7dc3, 0x72be5d74, 0x80deb1fe, 0x9bdc06a7, 0xc19bf174,
    0xe49b69c1, 0xefbe4786, 0x0fc19dc6, 0x240ca1cc, 0x2de92c6f, 0x4a7484aa, 0x5cb0a9dc, 0x76f988da,
    0x983e5152, 0xa831c66d, 0xb00327c8, 0xbf597fc7, 0xc6e00bf3, 0xd5a79147, 0x06ca6351, 0x14292967,
    0x27b70a85, 0x2e1b2138, 0x4d2c6dfc, 0x53380d13, 0x650a7354, 0x766a0abb, 0x81c2c92e, 0x92722c85,
    0xa2bfe8a1, 0xa81a664b, 0xc24b8b70, 0xc76c51a3, 0xd192e819, 0xd6990624, 0xf40e3585, 0x106aa070,
    0x19a4c116, 0x1e376c08, 0x2748774c, 0x34b0bcb5, 0x391c0cb3, 0x4ed8aa4a, 0x5b9cca4f, 0x682e6ff3,
    0x748f82ee, 0x78a5636f, 0x84c87814, 0x8cc70208, 0x90befffa, 0xa4506ceb, 0xbef9a3f7, 0xc67178f2]

/-! ## Compression -/

structure State where
  a : Nat
  b : Nat
  c : Nat
  d : Nat
  e : Nat
  f : Nat
  g : Nat
  h : Nat

def initial : State where
  a := 0x6a09e667
  b := 0xbb67ae85
  c := 0x3c6ef372
  d := 0xa54ff53a
  e := 0x510e527f
  f := 0x9b05688c
  g := 0x1f83d9ab
  h := 0x5be0cd19

def round (constant word : Nat) (s : State) : State :=
  let first := add (add (add s.h (bigSigma1 s.e)) (add (ch s.e s.f s.g) constant)) word
  let second := add (bigSigma0 s.a) (maj s.a s.b s.c)
  { a := add first second, b := s.a, c := s.b, d := s.c
    e := add s.d first, f := s.e, g := s.f, h := s.g }

/-- The word behind the window: `w[t] = σ₁ w[t-2] + w[t-7] + σ₀ w[t-15] + w[t-16]`. -/
def scheduled (window : List Nat) : Nat :=
  add (add (smallSigma1 (window.getD 14 0)) (window.getD 9 0))
    (add (smallSigma0 (window.getD 1 0)) (window.getD 0 0))

def rounds : List Nat → List Nat → State → State
  | [], _, s => s
  | constant :: rest, window, s =>
    rounds rest (window.tail ++ [scheduled window]) (round constant (window.headD 0) s)

def compress (s : State) (block : List Nat) : State :=
  let t := rounds roundConstants block s
  { a := add s.a t.a, b := add s.b t.b, c := add s.c t.c, d := add s.d t.d
    e := add s.e t.e, f := add s.f t.f, g := add s.g t.g, h := add s.h t.h }

/-! ## Messages -/

def bigEndian (bytes : List UInt8) : Nat := bytes.foldl (fun n b => n * 256 + b.toNat) 0

/-- The groups of `size + 1` elements; an incomplete last group is dropped. -/
def groups {α : Type} (size : Nat) : (group : List α) → List α → List (List α)
  | _, [] => []
  | group, x :: rest =>
    if group.length = size then (group ++ [x]) :: groups size [] rest
    else groups size (group ++ [x]) rest

def lengthBytes (n : Nat) : List UInt8 :=
  (List.range 8).map fun i => .ofNat (n * 8 / 256 ^ (7 - i))

/-- The message, a one bit, zeros up to 56 bytes in the last block and the length in bits. -/
def pad (message : List UInt8) : List UInt8 :=
  message ++ 0x80 :: List.replicate ((119 - message.length % 64) % 64) 0 ++
    lengthBytes message.length

def digest (message : List UInt8) : State :=
  (groups 15 [] ((groups 3 [] (pad message)).map bigEndian)).foldl compress initial

/-- The digest as thirty-two bytes. -/
@[irreducible] def sha256 (message : List UInt8) : List UInt8 :=
  let s := digest message
  [s.a, s.b, s.c, s.d, s.e, s.f, s.g, s.h].flatMap ByteFields.be32

@[simp] theorem length_sha256 : (sha256 message).length = 32 := by
  unfold sha256
  simp [ByteFields.length_be32]

/-! ## Hexadecimal digits -/

def hexDigit (n : Nat) : CodeUnit := if n < 10 then .ofNat (0x30 + n) else .ofNat (0x57 + n)

def hexWord (word : Nat) : Text :=
  (List.range 8).map fun i => hexDigit (word / 16 ^ (7 - i) % 16)

@[irreducible] def sha256Hex (message : List UInt8) : Text :=
  let s := digest message
  [s.a, s.b, s.c, s.d, s.e, s.f, s.g, s.h].flatMap hexWord

/-- `[0-9a-f]` -/
def isHexDigit (u : CodeUnit) : Bool :=
  (0x30 ≤ u.toNat && u.toNat ≤ 0x39) || (0x61 ≤ u.toNat && u.toNat ≤ 0x66)

theorem isHexDigit_hexDigit (n : Nat) : isHexDigit (hexDigit (n % 16)) = true := by
  have digits : ∀ k < 16, isHexDigit (hexDigit k) = true := by decide
  exact digits _ (Nat.mod_lt _ (by decide))

@[simp] theorem length_sha256Hex : (sha256Hex message).length = 64 := by
  unfold sha256Hex
  simp [hexWord]

theorem isHexDigit_of_mem_sha256Hex {message : List UInt8} {u : CodeUnit}
    (member : u ∈ sha256Hex message) : isHexDigit u = true := by
  unfold sha256Hex at member
  obtain ⟨word, -, inWord⟩ := List.mem_flatMap.mp member
  obtain ⟨i, -, rfl⟩ := List.mem_map.mp inWord
  exact isHexDigit_hexDigit _

/-- A plain word with some digits of a digest behind it. -/
theorem wellFormed_append_take {word : Text} (plain : (word.all fun u => !isSurrogate u) = true)
    (message : List UInt8) (n : Nat) : wellFormed (word ++ (sha256Hex message).take n) = true := by
  apply wellFormed_of_plain
  intro u member
  rcases List.mem_append.mp member with inWord | inHash
  · simpa using List.all_eq_true.mp plain u inWord
  · have digit := isHexDigit_of_mem_sha256Hex (List.mem_of_mem_take inHash)
    simp only [isHexDigit, Bool.or_eq_true, Bool.and_eq_true, decide_eq_true_eq] at digit
    simp only [isSurrogate, isHighSurrogate, isLowSurrogate, Bool.or_eq_false_iff,
      Bool.and_eq_false_iff, decide_eq_false_iff_not]
    omega

/-! ## Collisions -/

/-- No two of the inputs have the same digest. -/
def CollisionFree (inputs : List (List UInt8)) : Prop :=
  ∀ first ∈ inputs, ∀ second ∈ inputs, sha256Hex first = sha256Hex second → first = second

instance (inputs : List (List UInt8)) : Decidable (CollisionFree inputs) :=
  inferInstanceAs (Decidable (∀ first ∈ inputs, ∀ second ∈ inputs, _))

theorem CollisionFree.subset {inputs more : List (List UInt8)} (free : CollisionFree more)
    (subset : inputs ⊆ more) : CollisionFree inputs :=
  fun first left second right => free first (subset left) second (subset right)

end Sha256
