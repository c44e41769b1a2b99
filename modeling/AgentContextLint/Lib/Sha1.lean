import AgentContextLint.Lib.Sha256

/-!
# SHA-1

The hash of a byte string as twenty bytes, for formats that still use it as a checksum. Padding,
blocks and words are those of `Sha256`, and the message schedule is kept as the same window of
sixteen words.
-/

namespace Sha1

open Sha256 ByteFields

structure State where
  a : Nat
  b : Nat
  c : Nat
  d : Nat
  e : Nat

def initial : State where
  a := 0x67452301
  b := 0xefcdab89
  c := 0x98badcfe
  d := 0x10325476
  e := 0xc3d2e1f0

def rotl (n x : Nat) : Nat := rotr (32 - n) x

/-- The function and the constant of a round. -/
def mix (t : Nat) (s : State) : Nat × Nat :=
  if t < 20 then (ch s.b s.c s.d, 0x5a827999)
  else if t < 40 then (s.b ^^^ s.c ^^^ s.d, 0x6ed9eba1)
  else if t < 60 then (maj s.b s.c s.d, 0x8f1bbcdc)
  else (s.b ^^^ s.c ^^^ s.d, 0xca62c1d6)

def round (t word : Nat) (s : State) : State :=
  let (value, constant) := mix t s
  { a := add (add (add (rotl 5 s.a) value) (add s.e constant)) word
    b := s.a, c := rotl 30 s.b, d := s.c, e := s.d }

/-- The word behind the window: `w[t] = rotl₁ (w[t-3] ⊕ w[t-8] ⊕ w[t-14] ⊕ w[t-16])`. -/
def scheduled (window : List Nat) : Nat :=
  rotl 1 (window.getD 13 0 ^^^ window.getD 8 0 ^^^ window.getD 2 0 ^^^ window.getD 0 0)

def rounds : List Nat → List Nat → State → State
  | [], _, s => s
  | t :: rest, window, s =>
    rounds rest (window.tail ++ [scheduled window]) (round t (window.headD 0) s)

def compress (s : State) (block : List Nat) : State :=
  let t := rounds (List.range 80) block s
  { a := add s.a t.a, b := add s.b t.b, c := add s.c t.c, d := add s.d t.d, e := add s.e t.e }

@[irreducible] def sha1 (message : List UInt8) : List UInt8 :=
  let s := (groups 15 [] ((groups 3 [] (pad message)).map bigEndian)).foldl compress initial
  [s.a, s.b, s.c, s.d, s.e].flatMap be32

@[simp] theorem length_sha1 (message : List UInt8) : (sha1 message).length = 20 := by
  unfold sha1
  simp [length_be32]

end Sha1
