import AgentContextLint.Lib.Utf16

/-!
# UTF-8

The encoding of UTF-16 strings as UTF-8 bytes and the strict decoding of bytes, the one that
refuses every ill-formed sequence.

* `encode` replaces unpaired surrogates by U+FFFD, as encoders of such strings do.
  `encode_injective` says that nothing is lost on well-formed strings.
* `decode` keeps a leading byte order mark.
-/

namespace Utf8

open Utf16 List
open Option (map_eq_some_iff map_some)
open Nat (mod_eq_of_lt mod_lt succ_le_succ)
open Bool (and_eq_true or_eq_true)

/-! ## Bytes of a scalar value -/

def isScalar (n : Nat) : Bool := n < 0xd800 || (0xe000 ≤ n && n < 0x110000)

def encodeScalar (n : Nat) : List UInt8 :=
  if n < 0x80 then [.ofNat n]
  else if n < 0x800 then [.ofNat (0xc0 + n / 0x40), .ofNat (0x80 + n % 0x40)]
  else if n < 0x10000 then
    [.ofNat (0xe0 + n / 0x1000), .ofNat (0x80 + n / 0x40 % 0x40), .ofNat (0x80 + n % 0x40)]
  else
    [.ofNat (0xf0 + n / 0x40000), .ofNat (0x80 + n / 0x1000 % 0x40),
      .ofNat (0x80 + n / 0x40 % 0x40), .ofNat (0x80 + n % 0x40)]

def isContinuation (b : UInt8) : Bool := 0x80 ≤ b.toNat && b.toNat < 0xc0

/-- The scalar value behind a lead byte, and how many more bytes it takes. Sequences that are
longer than necessary, surrogates and values past U+10FFFF are refused. -/
def leadScalar (lead : UInt8) (rest : List UInt8) : Option (Nat × Nat) :=
  if lead.toNat < 0x80 then some (lead.toNat, 0)
  else if lead.toNat < 0xc0 then none
  else if lead.toNat < 0xe0 then
    match rest with
    | b :: _ =>
      let n := (lead.toNat - 0xc0) * 0x40 + (b.toNat - 0x80)
      if isContinuation b ∧ 0x80 ≤ n then some (n, 1) else none
    | _ => none
  else if lead.toNat < 0xf0 then
    match rest with
    | b :: c :: _ =>
      let n := (lead.toNat - 0xe0) * 0x1000 + (b.toNat - 0x80) * 0x40 + (c.toNat - 0x80)
      if isContinuation b ∧ isContinuation c ∧ 0x800 ≤ n ∧ isScalar n then some (n, 2) else none
    | _ => none
  else
    match rest with
    | b :: c :: d :: _ =>
      let n := (lead.toNat - 0xf0) * 0x40000 + (b.toNat - 0x80) * 0x1000 +
        (c.toNat - 0x80) * 0x40 + (d.toNat - 0x80)
      if isContinuation b ∧ isContinuation c ∧ isContinuation d ∧ 0x10000 ≤ n ∧ isScalar n then
        some (n, 3)
      else none
    | _ => none

/-- The scalar values of the bytes behind the next `skip` ones. -/
def decodeScalars : (skip : Nat) → List UInt8 → Option (List Nat)
  | _, [] => some []
  | skip + 1, _ :: rest => decodeScalars skip rest
  | 0, lead :: rest =>
    (leadScalar lead rest).bind fun (n, more) => (decodeScalars more rest).map (n :: ·)

theorem toNat_ofNat_add (base : Nat) {n : Nat} (small : base + n < 0x100) :
    (UInt8.ofNat (base + n)).toNat = base + n := by
  rw [UInt8.toNat_ofNat']
  exact mod_eq_of_lt small

theorem isContinuation_ofNat (n : Nat) : isContinuation (.ofNat (0x80 + n % 0x40)) = true := by
  have small : n % 0x40 < 0x40 := mod_lt _ (by decide)
  rw [isContinuation, toNat_ofNat_add _ (by omega)]
  simp
  omega

theorem decodeScalars_skip (front rest : List UInt8) :
    decodeScalars front.length (front ++ rest) = decodeScalars 0 rest := by
  induction front with
  | nil => rfl
  | cons b front ih => rw [length_cons, cons_append, decodeScalars, ih]

theorem decodeScalars_of_lead {lead : UInt8} {front rest : List UInt8} {n : Nat}
    (read : leadScalar lead (front ++ rest) = some (n, front.length)) :
    decodeScalars 0 (lead :: front ++ rest) = (decodeScalars 0 rest).map (n :: ·) := by
  rw [cons_append, decodeScalars, read, Option.bind_some]
  simp only [decodeScalars_skip]

section LeadScalar

variable {n : Nat} (rest : List UInt8)

theorem leadScalar_one (small : n < 0x80) : leadScalar (.ofNat n) rest = some (n, 0) := by
  have byte : (UInt8.ofNat n).toNat = n := by
    rw [UInt8.toNat_ofNat']
    omega
  unfold leadScalar
  rw [byte, if_pos small]

theorem leadScalar_two (large : ¬ n < 0x80) (small : n < 0x800) :
    leadScalar (.ofNat (0xc0 + n / 0x40)) (.ofNat (0x80 + n % 0x40) :: rest) = some (n, 1) := by
  have low : n % 0x40 < 0x40 := mod_lt _ (by decide)
  have value : (0xc0 + n / 0x40 - 0xc0) * 0x40 + (0x80 + n % 0x40 - 0x80) = n := by omega
  simp only [leadScalar, toNat_ofNat_add 0xc0 (n := n / 0x40) (by omega),
    toNat_ofNat_add 0x80 (n := n % 0x40) (by omega), value, isContinuation_ofNat]
  rw [if_neg (by omega), if_neg (by omega), if_pos (by omega), if_pos ⟨trivial, by omega⟩]

theorem leadScalar_three (large : ¬ n < 0x800) (small : n < 0x10000) (scalar : isScalar n = true) :
    leadScalar (.ofNat (0xe0 + n / 0x1000))
      (.ofNat (0x80 + n / 0x40 % 0x40) :: .ofNat (0x80 + n % 0x40) :: rest) = some (n, 2) := by
  have low : n % 0x40 < 0x40 := mod_lt _ (by decide)
  have middle : n / 0x40 % 0x40 < 0x40 := mod_lt _ (by decide)
  have value : (0xe0 + n / 0x1000 - 0xe0) * 0x1000 + (0x80 + n / 0x40 % 0x40 - 0x80) * 0x40 +
      (0x80 + n % 0x40 - 0x80) = n := by omega
  simp only [leadScalar, toNat_ofNat_add 0xe0 (n := n / 0x1000) (by omega),
    toNat_ofNat_add 0x80 (n := n / 0x40 % 0x40) (by omega),
    toNat_ofNat_add 0x80 (n := n % 0x40) (by omega), value, isContinuation_ofNat]
  rw [if_neg (by omega), if_neg (by omega), if_neg (by omega), if_pos (by omega),
    if_pos ⟨trivial, trivial, by omega, scalar⟩]

theorem leadScalar_four (large : ¬ n < 0x10000) (scalar : isScalar n = true) :
    leadScalar (.ofNat (0xf0 + n / 0x40000))
      (.ofNat (0x80 + n / 0x1000 % 0x40) :: .ofNat (0x80 + n / 0x40 % 0x40) ::
        .ofNat (0x80 + n % 0x40) :: rest) = some (n, 3) := by
  have small : n < 0x110000 := by
    simp only [isScalar, or_eq_true, and_eq_true, decide_eq_true_eq] at scalar
    omega
  have low : n % 0x40 < 0x40 := mod_lt _ (by decide)
  have middle : n / 0x40 % 0x40 < 0x40 := mod_lt _ (by decide)
  have high : n / 0x1000 % 0x40 < 0x40 := mod_lt _ (by decide)
  have value : (0xf0 + n / 0x40000 - 0xf0) * 0x40000 + (0x80 + n / 0x1000 % 0x40 - 0x80) * 0x1000 +
      (0x80 + n / 0x40 % 0x40 - 0x80) * 0x40 + (0x80 + n % 0x40 - 0x80) = n := by omega
  simp only [leadScalar, toNat_ofNat_add 0xf0 (n := n / 0x40000) (by omega),
    toNat_ofNat_add 0x80 (n := n / 0x1000 % 0x40) (by omega),
    toNat_ofNat_add 0x80 (n := n / 0x40 % 0x40) (by omega),
    toNat_ofNat_add 0x80 (n := n % 0x40) (by omega), value, isContinuation_ofNat]
  rw [if_neg (by omega), if_neg (by omega), if_neg (by omega), if_neg (by omega),
    if_pos ⟨trivial, trivial, trivial, by omega, scalar⟩]

/-- The bytes of a scalar value are read back as this value. -/
theorem decodeScalars_encodeScalar (scalar : isScalar n = true) :
    decodeScalars 0 (encodeScalar n ++ rest) = (decodeScalars 0 rest).map (n :: ·) := by
  unfold encodeScalar
  split_ifs with one two three
  · exact decodeScalars_of_lead (leadScalar_one _ one)
  · exact decodeScalars_of_lead (leadScalar_two _ one two)
  · exact decodeScalars_of_lead (leadScalar_three _ two three scalar)
  · exact decodeScalars_of_lead (leadScalar_four _ three scalar)

end LeadScalar

theorem decodeScalars_flatMap_encodeScalar {scalars : List Nat}
    (all : ∀ n ∈ scalars, isScalar n = true) :
    decodeScalars 0 (scalars.flatMap encodeScalar) = some scalars := by
  induction scalars with
  | nil => rfl
  | cons n rest ih =>
    rw [flatMap_cons, decodeScalars_encodeScalar _ (all n mem_cons_self),
      ih fun m member => all m (mem_cons_of_mem n member), map_some]

/-! ## Strings -/

/-- A string without unpaired surrogates is a sequence of scalar values. -/
theorem isScalar_of_wellFormed {s : Text} (ok : wellFormed s = true) :
    ∀ n ∈ codePoints s, isScalar n = true := by
  induction s using codePoints.induct with
  | case1 => simp [codePoints]
  | case2 u =>
    have bound : u.toNat < 0x10000 := u.toNat_lt
    simp [wellFormed, isSurrogate, isHighSurrogate, isLowSurrogate] at ok
    simp [codePoints, isScalar]
    omega
  | case3 u v rest pair ih =>
    obtain ⟨high, low⟩ := (and_eq_true _ _).mp pair
    rw [wellFormed, if_pos high, low, Bool.true_and] at ok
    rw [codePoints, if_pos pair]
    simp only [isHighSurrogate, isLowSurrogate, and_eq_true, decide_eq_true_eq] at high low
    refine forall_mem_cons.mpr ⟨?_, ih ok⟩
    simp only [isScalar, or_eq_true, and_eq_true, decide_eq_true_eq]
    omega
  | case4 u v rest pair ih =>
    have bound : u.toNat < 0x10000 := u.toNat_lt
    have notHigh : ¬ isHighSurrogate u = true := by
      intro high
      rw [wellFormed, if_pos high] at ok
      simp only [and_eq_true] at ok
      exact pair ((and_eq_true _ _).mpr ⟨high, ok.1⟩)
    rw [wellFormed, if_neg notHigh, and_eq_true] at ok
    rw [codePoints, if_neg pair]
    refine forall_mem_cons.mpr ⟨?_, ih ok.2⟩
    simp [isHighSurrogate, isLowSurrogate, isScalar] at notHigh ok ⊢
    omega

def encode (s : Text) : List UInt8 :=
  (codePoints s).flatMap fun n => encodeScalar (if isScalar n then n else 0xfffd)

/-- `Buffer.byteLength` of a string. -/
def byteLength (s : Text) : Nat := (encode s).length

theorem one_le_length_encodeScalar (n : Nat) : 1 ≤ (encodeScalar n).length := by
  unfold encodeScalar
  split_ifs <;> exact succ_le_succ (Nat.zero_le _)

theorem two_le_length_encodeScalar {n : Nat} (large : 0x80 ≤ n) : 2 ≤ (encodeScalar n).length := by
  unfold encodeScalar
  rw [if_neg (Nat.not_lt.mpr large)]
  split_ifs <;> exact succ_le_succ (succ_le_succ (Nat.zero_le _))

/-- A code unit takes at least one byte, and a pair of surrogates two. -/
theorem length_le_byteLength (s : Text) : s.length ≤ byteLength s := by
  unfold byteLength encode
  fun_induction codePoints s with
  | case1 => exact Nat.le_refl 0
  | case2 u =>
    rw [flatMap_cons, length_append]
    exact Nat.le_add_right_of_le (one_le_length_encodeScalar _)
  | case3 u v rest paired ih =>
    rw [flatMap_cons, length_append, length_cons, length_cons, Nat.add_assoc, Nat.add_comm]
    refine Nat.add_le_add (two_le_length_encodeScalar ?_) ih
    split_ifs
    · omega
    · omega
  | case4 u v rest unpaired ih =>
    rw [flatMap_cons, length_append, length_cons, Nat.add_comm]
    exact Nat.add_le_add (one_le_length_encodeScalar _) ih

def decode (bytes : List UInt8) : Option Text :=
  (decodeScalars 0 bytes).map (·.flatMap ofCodePoint)

theorem encode_of_wellFormed {s : Text} (ok : wellFormed s = true) :
    encode s = (codePoints s).flatMap encodeScalar := by
  refine flatMap_congr fun n member => ?_
  rw [if_pos (isScalar_of_wellFormed ok n member)]

theorem decode_encode {s : Text} (ok : wellFormed s = true) : decode (encode s) = some s := by
  rw [encode_of_wellFormed ok, decode,
    decodeScalars_flatMap_encodeScalar (isScalar_of_wellFormed ok), map_some,
    flatMap_ofCodePoint_codePoints]

theorem encode_injective {s t : Text} (left : wellFormed s = true) (right : wellFormed t = true)
    (same : encode s = encode t) : s = t := by
  have decoded := decode_encode left
  rw [same, decode_encode right] at decoded
  exact (Option.some.inj decoded).symm

theorem ofNat_ne_zero {n : Nat} (positive : 0 < n) (small : n < 0x100) : UInt8.ofNat n ≠ 0 := by
  intro zero
  have value := congrArg UInt8.toNat zero
  rw [UInt8.toNat_ofNat', mod_eq_of_lt small] at value
  exact absurd value (by change n ≠ 0; omega)

theorem zero_notMem_encodeScalar {n : Nat} (scalar : isScalar n = true) (positive : 0 < n) :
    (0 : UInt8) ∉ encodeScalar n := by
  simp only [isScalar, or_eq_true, and_eq_true, decide_eq_true_eq] at scalar
  have apart : ∀ k, 0 < k → k < 0x100 → (0 : UInt8) ≠ .ofNat k := fun k positive small =>
    (ofNat_ne_zero positive small).symm
  unfold encodeScalar
  split_ifs
  · simpa using apart n positive (by omega)
  · simp only [mem_cons, not_mem_nil, or_false, not_or]
    exact ⟨apart _ (by omega) (by omega), apart _ (by omega) (by omega)⟩
  · simp only [mem_cons, not_mem_nil, or_false, not_or]
    exact ⟨apart _ (by omega) (by omega), apart _ (by omega) (by omega),
      apart _ (by omega) (by omega)⟩
  · simp only [mem_cons, not_mem_nil, or_false, not_or]
    exact ⟨apart _ (by omega) (by omega), apart _ (by omega) (by omega),
      apart _ (by omega) (by omega), apart _ (by omega) (by omega)⟩

/-- Only the NUL character has a zero byte. -/
theorem zero_notMem_encode {s : Text} (plain : (0 : CodeUnit) ∉ s) : (0 : UInt8) ∉ encode s := by
  intro zero
  obtain ⟨n, member, inScalar⟩ := mem_flatMap.mp zero
  split_ifs at inScalar with scalar
  · refine zero_notMem_encodeScalar scalar (Nat.pos_of_ne_zero ?_) inScalar
    rintro rfl
    refine plain ?_
    rw [← flatMap_ofCodePoint_codePoints s]
    exact mem_flatMap.mpr ⟨0, member, by decide⟩
  · revert inScalar
    decide

theorem length_decodeScalars_le {skip : Nat} {bytes : List UInt8} {scalars : List Nat}
    (decoded : decodeScalars skip bytes = some scalars) : scalars.length ≤ bytes.length := by
  induction bytes generalizing skip scalars with
  | nil =>
    rw [decodeScalars] at decoded
    cases decoded
    exact Nat.le_refl 0
  | cons lead rest ih =>
    cases skip with
    | succ skip => exact Nat.le_succ_of_le (ih decoded)
    | zero =>
      obtain ⟨⟨n, more⟩, -, read⟩ := Option.bind_eq_some_iff.mp decoded
      obtain ⟨later, others, rfl⟩ := map_eq_some_iff.mp read
      exact succ_le_succ (ih others)

/-- A text has no more than two code units for each of its bytes. -/
theorem length_decode_le {bytes : List UInt8} {text : Text} (decoded : decode bytes = some text) :
    text.length ≤ 2 * bytes.length := by
  obtain ⟨scalars, read, rfl⟩ := map_eq_some_iff.mp decoded
  have units : ∀ scalars : List Nat, (scalars.flatMap ofCodePoint).length ≤ 2 * scalars.length := by
    intro scalars
    induction scalars with
    | nil => exact Nat.le_refl 0
    | cons n rest ih =>
      have few : (ofCodePoint n).length ≤ 2 := by unfold ofCodePoint; split_ifs <;> simp
      rw [flatMap_cons, length_append, length_cons]
      omega
  exact Nat.le_trans (units scalars) (Nat.mul_le_mul_left 2 (length_decodeScalars_le read))

/-! ## Bytes that decode -/

theorem ofNat_eq {b : UInt8} {n : Nat} (value : n = b.toNat) : UInt8.ofNat n = b := by
  rw [value, UInt8.ofNat_toNat]

/-- A lead byte is accepted in front of the other bytes of its scalar value only. -/
theorem encodeScalar_of_leadScalar {lead : UInt8} {rest : List UInt8} {n more : Nat}
    (read : leadScalar lead rest = some (n, more)) :
    isScalar n = true ∧
      ∃ front back, rest = front ++ back ∧ front.length = more ∧ encodeScalar n = lead :: front := by
  have bound : lead.toNat < 0x100 := lead.toNat_lt
  unfold leadScalar at read
  split_ifs at read with one two three four
  · obtain ⟨rfl, rfl⟩ := Prod.mk.inj (Option.some.inj read)
    refine ⟨by simp [isScalar]; omega, [], rest, rfl, rfl, ?_⟩
    rw [encodeScalar, if_pos one, UInt8.ofNat_toNat]
  · split at read
    · rename_i b back
      dsimp only at read
      split_ifs at read with ok
      obtain ⟨rfl, rfl⟩ := Prod.mk.inj (Option.some.inj read)
      simp only [isContinuation, and_eq_true, decide_eq_true_eq] at ok
      refine ⟨by simp [isScalar]; omega, [b], back, rfl, rfl, ?_⟩
      rw [encodeScalar, if_neg (by omega), if_pos (by omega), ofNat_eq (b := lead) (by omega),
        ofNat_eq (b := b) (by omega)]
    · cases read
  · split at read
    · rename_i b c back
      dsimp only at read
      split_ifs at read with ok
      obtain ⟨rfl, rfl⟩ := Prod.mk.inj (Option.some.inj read)
      obtain ⟨first, second, large, scalar⟩ := ok
      refine ⟨scalar, [b, c], back, rfl, rfl, ?_⟩
      simp only [isContinuation, and_eq_true, decide_eq_true_eq] at first second
      rw [encodeScalar, if_neg (by omega), if_neg (by omega), if_pos (by omega),
        ofNat_eq (b := lead) (by omega), ofNat_eq (b := b) (by omega),
        ofNat_eq (b := c) (by omega)]
    · cases read
  · split at read
    · rename_i b c d back
      dsimp only at read
      split_ifs at read with ok
      obtain ⟨rfl, rfl⟩ := Prod.mk.inj (Option.some.inj read)
      obtain ⟨first, second, third, large, scalar⟩ := ok
      refine ⟨scalar, [b, c, d], back, rfl, rfl, ?_⟩
      simp only [isContinuation, and_eq_true, decide_eq_true_eq] at first second third
      rw [encodeScalar, if_neg (by omega), if_neg (by omega), if_neg (by omega),
        ofNat_eq (b := lead) (by omega), ofNat_eq (b := b) (by omega),
        ofNat_eq (b := c) (by omega), ofNat_eq (b := d) (by omega)]
    · cases read

/-- What decodes is the encoding of the scalar values that it decodes to. -/
theorem flatMap_encodeScalar_of_decodeScalars (bytes : List UInt8) {scalars : List Nat}
    (decoded : decodeScalars 0 bytes = some scalars) :
    (∀ n ∈ scalars, isScalar n = true) ∧ scalars.flatMap encodeScalar = bytes := by
  match bytes with
  | [] =>
    rw [decodeScalars] at decoded
    cases decoded
    exact ⟨nofun, rfl⟩
  | lead :: rest =>
    obtain ⟨⟨n, more⟩, read, later⟩ := Option.bind_eq_some_iff.mp decoded
    obtain ⟨others, readLater, rfl⟩ := map_eq_some_iff.mp later
    obtain ⟨scalar, front, back, rfl, rfl, bytes⟩ := encodeScalar_of_leadScalar read
    rw [decodeScalars_skip] at readLater
    obtain ⟨scalars, encoded⟩ := flatMap_encodeScalar_of_decodeScalars back readLater
    refine ⟨forall_mem_cons.mpr ⟨scalar, scalars⟩, ?_⟩
    rw [flatMap_cons, bytes, encoded]
    rfl
termination_by bytes.length
decreasing_by
  subst_vars
  simp only [length_cons, length_append]
  omega

theorem isSurrogate_ofNat {n : Nat} (scalar : isScalar n = true) (small : n < 0x10000) :
    isSurrogate (.ofNat n) = false := by
  have value : (UInt16.ofNat n).toNat = n := by
    rw [UInt16.toNat_ofNat']
    omega
  simp only [isScalar, or_eq_true, and_eq_true, decide_eq_true_eq] at scalar
  simp [isSurrogate, isHighSurrogate, isLowSurrogate, value]
  omega

theorem isHighSurrogate_of_toNat {u : CodeUnit} {k : Nat} (value : u.toNat = 0xd800 + k)
    (small : k < 0x400) : isHighSurrogate u = true := by
  simp only [isHighSurrogate, and_eq_true, decide_eq_true_eq]
  omega

theorem isLowSurrogate_of_toNat {u : CodeUnit} {k : Nat} (value : u.toNat = 0xdc00 + k)
    (small : k < 0x400) : isLowSurrogate u = true := by
  simp only [isLowSurrogate, and_eq_true, decide_eq_true_eq]
  omega

/-- The two units of a scalar value past U+FFFF. -/
theorem surrogates_of_large {n : Nat} (scalar : isScalar n = true) (large : ¬ n < 0x10000) :
    (UInt16.ofNat (0xd800 + (n - 0x10000) / 0x400)).toNat = 0xd800 + (n - 0x10000) / 0x400 ∧
      (UInt16.ofNat (0xdc00 + (n - 0x10000) % 0x400)).toNat = 0xdc00 + (n - 0x10000) % 0x400 ∧
      (n - 0x10000) / 0x400 < 0x400 := by
  simp only [isScalar, or_eq_true, and_eq_true, decide_eq_true_eq] at scalar
  have low : (n - 0x10000) % 0x400 < 0x400 := mod_lt _ (by decide)
  rw [UInt16.toNat_ofNat', UInt16.toNat_ofNat']
  omega

theorem wellFormed_ofCodePoint_append {n : Nat} (scalar : isScalar n = true) (s : Text) :
    wellFormed (ofCodePoint n ++ s) = wellFormed s := by
  unfold ofCodePoint
  split_ifs with small
  · exact wellFormed_cons (isSurrogate_ofNat scalar small) s
  · obtain ⟨high, low, bound⟩ := surrogates_of_large scalar small
    have mod : (n - 0x10000) % 0x400 < 0x400 := mod_lt _ (by decide)
    rw [cons_append, cons_append, nil_append, wellFormed,
      if_pos (isHighSurrogate_of_toNat high bound), isLowSurrogate_of_toNat low mod, Bool.true_and]

theorem codePoints_ofCodePoint_append {n : Nat} (scalar : isScalar n = true) (s : Text) :
    codePoints (ofCodePoint n ++ s) = n :: codePoints s := by
  unfold ofCodePoint
  split_ifs with small
  · have plain := isSurrogate_ofNat scalar small
    have value : (UInt16.ofNat n).toNat = n := by
      rw [UInt16.toNat_ofNat']
      omega
    cases s with
    | nil => exact congrArg (fun m => [m]) value
    | cons v s =>
      rw [isSurrogate, Bool.or_eq_false_iff] at plain
      rw [cons_append, nil_append, codePoints, plain.1, Bool.false_and,
        if_neg Bool.false_ne_true, value]
  · obtain ⟨high, low, bound⟩ := surrogates_of_large scalar small
    have mod : (n - 0x10000) % 0x400 < 0x400 := mod_lt _ (by decide)
    rw [cons_append, cons_append, nil_append, codePoints,
      if_pos (by rw [isHighSurrogate_of_toNat high bound, isLowSurrogate_of_toNat low mod]; rfl),
      high, low]
    refine congrArg (· :: codePoints s) ?_
    omega

theorem wellFormed_flatMap_ofCodePoint {scalars : List Nat}
    (all : ∀ n ∈ scalars, isScalar n = true) : wellFormed (scalars.flatMap ofCodePoint) = true := by
  induction scalars with
  | nil => rfl
  | cons n rest ih =>
    rw [flatMap_cons, wellFormed_ofCodePoint_append (all n mem_cons_self)]
    exact ih fun m member => all m (mem_cons_of_mem n member)

theorem codePoints_flatMap_ofCodePoint {scalars : List Nat} (all : ∀ n ∈ scalars, isScalar n = true)
    : codePoints (scalars.flatMap ofCodePoint) = scalars := by
  induction scalars with
  | nil => rfl
  | cons n rest ih =>
    rw [flatMap_cons, codePoints_ofCodePoint_append (all n mem_cons_self),
      ih fun m member => all m (mem_cons_of_mem n member)]

/-- Decoding gives a string without unpaired surrogates, and nothing of the bytes is lost. -/
theorem encode_decode {bytes : List UInt8} {text : Text} (decoded : decode bytes = some text) :
    wellFormed text = true ∧ encode text = bytes := by
  obtain ⟨scalars, read, rfl⟩ := map_eq_some_iff.mp decoded
  obtain ⟨all, encoded⟩ := flatMap_encodeScalar_of_decodeScalars bytes read
  have ok := wellFormed_flatMap_ofCodePoint all
  exact ⟨ok, by rw [encode_of_wellFormed ok, codePoints_flatMap_ofCodePoint all, encoded]⟩

theorem codePoints_append {s : Text} (ok : wellFormed s = true) (rest : Text) :
    codePoints (s ++ rest) = codePoints s ++ codePoints rest := by
  have all := isScalar_of_wellFormed ok
  rw [← flatMap_ofCodePoint_codePoints s]
  generalize codePoints s = scalars at all
  rw [codePoints_flatMap_ofCodePoint all]
  induction scalars with
  | nil => rfl
  | cons n scalars ih =>
    rw [flatMap_cons, append_assoc, codePoints_ofCodePoint_append (all n mem_cons_self),
      ih fun m member => all m (mem_cons_of_mem n member), cons_append]

theorem encode_append {s : Text} (ok : wellFormed s = true) (rest : Text) :
    encode (s ++ rest) = encode s ++ encode rest := by
  rw [encode, codePoints_append ok, flatMap_append, encode, encode]

theorem decode_encode_append {s : Text} (ok : wellFormed s = true) (rest : List UInt8) :
    decode (encode s ++ rest) = (decode rest).map (s ++ ·) := by
  have scalars : decodeScalars 0 (encode s ++ rest) =
      (decodeScalars 0 rest).map (codePoints s ++ ·) := by
    rw [encode_of_wellFormed ok]
    have all := isScalar_of_wellFormed ok
    generalize codePoints s = scalars at all
    induction scalars with
    | nil => exact Option.map_id'.symm
    | cons n scalars ih =>
      rw [flatMap_cons, append_assoc, decodeScalars_encodeScalar _ (all n mem_cons_self),
        ih fun m member => all m (mem_cons_of_mem n member), Option.map_map]
      rfl
  rw [decode, scalars, decode, Option.map_map, Option.map_map]
  refine congrArg (Option.map · _) (funext fun points => ?_)
  simp [Function.comp_apply, flatMap_ofCodePoint_codePoints]

theorem encode_prefix_iff {s t : Text} (left : wellFormed s = true)
    (right : wellFormed t = true) : encode s <+: encode t ↔ s <+: t := by
  constructor
  · rintro ⟨rest, eq⟩
    have decoded := decode_encode right
    rw [← eq, decode_encode_append left] at decoded
    obtain ⟨text, -, rfl⟩ := map_eq_some_iff.mp decoded
    exact prefix_append s text
  · rintro ⟨rest, rfl⟩
    rw [encode_append left]
    exact prefix_append _ _

/-! ## ASCII separators -/

/-- An ASCII byte of a scalar value is the value itself. -/
theorem eq_toNat_of_mem_encodeScalar {n : Nat} {b : UInt8} (ascii : b.toNat < 0x80)
    (scalar : isScalar n = true) (member : b ∈ encodeScalar n) : n = b.toNat := by
  have high : ∀ k, 0x80 ≤ k → k < 0x100 → b ≠ .ofNat k := by
    intro k large small same
    rw [same, UInt8.toNat_ofNat', mod_eq_of_lt small] at ascii
    exact absurd ascii (Nat.not_lt.mpr large)
  simp only [isScalar, or_eq_true, and_eq_true, decide_eq_true_eq] at scalar
  unfold encodeScalar at member
  split_ifs at member with one two three
  · rw [mem_singleton.mp member, UInt8.toNat_ofNat', mod_eq_of_lt (by omega)]
  · simp only [mem_cons, not_mem_nil, or_false] at member
    rcases member with same | same <;> exact absurd same (high _ (by omega) (by omega))
  · simp only [mem_cons, not_mem_nil, or_false] at member
    rcases member with same | same | same <;> exact absurd same (high _ (by omega) (by omega))
  · simp only [mem_cons, not_mem_nil, or_false] at member
    rcases member with same | same | same | same <;>
      exact absurd same (high _ (by omega) (by omega))

theorem mem_of_mem_encode {s : Text} {u : CodeUnit} (ascii : u.toNat < 0x80)
    (member : UInt8.ofNat u.toNat ∈ encode s) : u ∈ s := by
  have value : (UInt8.ofNat u.toNat).toNat = u.toNat := by
    rw [UInt8.toNat_ofNat', mod_eq_of_lt (by omega)]
  have small : (UInt8.ofNat u.toNat).toNat < 0x80 := by rw [value]; exact ascii
  rcases mem_flatMap.mp member with ⟨n, inPoints, inScalar⟩
  split_ifs at inScalar with scalar
  · have same := eq_toNat_of_mem_encodeScalar small scalar inScalar
    rw [value] at same
    rw [← flatMap_ofCodePoint_codePoints s]
    apply mem_flatMap.mpr ⟨n, inPoints, _⟩
    rw [same, ofCodePoint_toNat]
    exact mem_singleton_self u
  · have same := eq_toNat_of_mem_encodeScalar small (by decide) inScalar
    omega

theorem encode_ascii {u : CodeUnit} (ascii : u.toNat < 0x80) :
    encode [u] = [UInt8.ofNat u.toNat] := by
  have scalar : isScalar u.toNat = true := by
    rw [isScalar, or_eq_true, decide_eq_true_eq]
    exact .inl (by omega)
  have points : codePoints [u] = [u.toNat] := rfl
  rw [encode, points, flatMap_singleton, if_pos scalar, encodeScalar, if_pos ascii]

theorem isSurrogate_of_ascii {u : CodeUnit} (ascii : u.toNat < 0x80) : isSurrogate u = false := by
  simp only [isSurrogate, isHighSurrogate, isLowSurrogate, Bool.or_eq_false_iff,
    Bool.and_eq_false_iff, decide_eq_false_iff_not]
  omega

theorem byteLength_of_ascii {s : Text} (ascii : ∀ u ∈ s, u.toNat < 0x80) :
    byteLength s = s.length := by
  induction s with
  | nil => rfl
  | cons u rest ih =>
    rcases forall_mem_cons.mp ascii with ⟨here, later⟩
    have single : wellFormed [u] = true :=
      wellFormed_of_plain (forall_mem_singleton.mpr (isSurrogate_of_ascii here))
    rw [byteLength, ← singleton_append, encode_append single, encode_ascii here, length_append,
      length_append]
    exact congrArg _ (ih later)

/-- Splitting at an ASCII unit commutes with encoding. -/
theorem splitOn_encode {s : Text} (ok : wellFormed s = true) {u : CodeUnit} (ascii : u.toNat < 0x80) :
    (encode s).splitOn (UInt8.ofNat u.toNat) = (s.splitOn u).map encode := by
  induction s using splitOnP_induction (p := (· == u)) with
  | clean s none =>
    have absent : ∀ b ∈ encode s, (b == UInt8.ofNat u.toNat) = false := by
      intro b member
      rw [beq_eq_false_iff_ne]
      intro same
      have inside := none u (mem_of_mem_encode ascii (same ▸ member))
      exact absurd rfl (beq_eq_false_iff_ne.mp inside)
    rw [splitOn_eq_splitOnP, splitOn_eq_splitOnP, splitOnP_eq_singleton none,
      splitOnP_eq_singleton absent, map_singleton]
  | cut pre sep post isSep ihPre ihPost =>
    cases beq_iff_eq.mp isSep
    have plain := isSurrogate_of_ascii ascii
    rw [wellFormed_append_cons plain, and_eq_true] at ok
    have single : wellFormed [u] = true :=
      wellFormed_of_plain fun v member => mem_singleton.mp member ▸ plain
    have bytes : encode (pre ++ u :: post) = encode pre ++ UInt8.ofNat u.toNat :: encode post := by
      rw [encode_append ok.1, ← singleton_append, encode_append single, encode_ascii ascii]
      rfl
    rw [bytes, splitOn_append_cons_self, splitOn_append_cons_self, ihPre ok.1,
      ihPost ok.2, map_append]
end Utf8
