import AgentContextLint.Evidence.GitIndexPaths
import Mathlib.Data.Nat.Bitwise

/-!
# The encodings of an index

`encodeIndex` writes a list of stored entries as Git does, in version 2, 3 or 4. Where a version 4
name shares a prefix with the name before, how much of it is shared is the writer's choice
(`NameSharing`).

The readers of the source are run on what is written, field by field, up to
`parseCandidate_encodeIndex`: an encoded index is accepted exactly if its entries are admitted.
-/

namespace AgentContextLint.TrackedFileEnumeration

open Utf16 RepositoryPath ByteFields Metered List

/-! ## What is stored -/

inductive IndexVersion
  | v2
  | v3
  | v4
  deriving DecidableEq

def IndexVersion.number : IndexVersion → Nat
  | .v2 => 2
  | .v3 => 3
  | .v4 => 4

/-- The modes of files. -/
inductive StoredMode
  | regular
  | executable
  | symbolicLink
  | gitlink

def StoredMode.value : StoredMode → Nat
  | .regular => 0o100644
  | .executable => 0o100755
  | .symbolicLink => 0o120000
  | .gitlink => 0o160000

/-- An entry of an index. -/
structure StoredEntry (format : GitObjectFormat) where
  ctimeSeconds : UInt32
  ctimeNanoseconds : UInt32
  mtimeSeconds : UInt32
  mtimeNanoseconds : UInt32
  device : UInt32
  inode : UInt32
  mode : StoredMode
  uid : UInt32
  gid : UInt32
  size : UInt32
  objectId : List UInt8
  length_objectId : objectId.length = GitObjectFormat.oidBytes format
  assumeValid : Bool
  stage : Fin 4
  skipWorktree : Bool
  intentToAdd : Bool
  path : RelativePath

/-- An extension that readers may skip. -/
structure OptionalExtension where
  signature : List UInt8
  length_signature : signature.length = 4
  upperCase : ∃ first, signature[0]? = some first ∧ 0x41 ≤ first.toNat ∧ first.toNat ≤ 0x5a
  data : List UInt8
  small : data.length < 0x100000000

/-- How many bytes of the name before a version 4 entry shares with it, entry by entry. -/
structure NameSharing where
  kept : (index : Nat) → (previous name : List UInt8) → Nat
  kept_le (index : Nat) (previous name : List UInt8) : kept index previous name ≤ previous.length
  take_kept (index : Nat) (previous name : List UInt8) :
    previous.take (kept index previous name) <+: name

/-- The bytes that two names have in common at their start. -/
def commonLength : (previous name : List UInt8) → Nat
  | p :: previous, n :: name => if p = n then commonLength previous name + 1 else 0
  | _, _ => 0

def NameSharing.longest : NameSharing where
  kept _ := commonLength
  kept_le _ previous name := by
    induction previous generalizing name with
    | nil => exact Nat.le_refl 0
    | cons p previous ih =>
      cases name with
      | nil => exact Nat.zero_le _
      | cons n name =>
        rw [commonLength]
        split_ifs
        · exact Nat.succ_le_succ (ih name)
        · exact Nat.zero_le _
  take_kept _ previous name := by
    induction previous generalizing name with
    | nil => exact nil_prefix
    | cons p previous ih =>
      cases name with
      | nil => exact nil_prefix
      | cons n name =>
        rw [commonLength]
        split_ifs with same
        · rw [take_succ_cons, same]
          exact cons_prefix_cons.mpr ⟨rfl, ih name⟩
        · exact nil_prefix

/-! ## How it is written -/

section Entry

variable {format : GitObjectFormat} (entry : StoredEntry format)

def StoredEntry.name : List UInt8 := Utf8.encode entry.path

def StoredEntry.extended : Bool := entry.skipWorktree || entry.intentToAdd

def StoredEntry.flags : Nat :=
  (if entry.assumeValid then 0x8000 else 0) + (if entry.extended then 0x4000 else 0) +
    entry.stage.val * 0x1000 + min entry.name.length 0xfff

def StoredEntry.extendedFlags : Nat :=
  (if entry.skipWorktree then 0x4000 else 0) + (if entry.intentToAdd then 0x2000 else 0)

/-- The fields of an entry in front of its name. -/
def StoredEntry.head : List UInt8 :=
  be32 entry.ctimeSeconds.toNat ++ (be32 entry.ctimeNanoseconds.toNat ++
    (be32 entry.mtimeSeconds.toNat ++ (be32 entry.mtimeNanoseconds.toNat ++
    (be32 entry.device.toNat ++ (be32 entry.inode.toNat ++ (be32 entry.mode.value ++
    (be32 entry.uid.toNat ++ (be32 entry.gid.toNat ++ (be32 entry.size.toNat ++
    (entry.objectId ++ (be16 entry.flags ++
      if entry.extended then be16 entry.extendedFlags else [])))))))))))

/-- The bytes of a variable-width number behind which another one follows. -/
def varintHigh (n : Nat) : List UInt8 :=
  match n with
  | 0 => []
  | n + 1 => varintHigh (n / 0x80) ++ [.ofNat (0x80 + n % 0x80)]
termination_by n
decreasing_by omega

/-- The number format of offsets in packs: a group of seven bits that another one follows counts
from one. -/
def varint (n : Nat) : List UInt8 := varintHigh (n / 0x80) ++ [.ofNat (n % 0x80)]

def StoredEntry.tail (version : IndexVersion) (kept : Nat) (previous : List UInt8) : List UInt8 :=
  match version with
  | .v4 => varint (previous.length - kept) ++ (entry.name.drop kept ++ [0])
  | _ => entry.name ++ replicate (8 - (entry.head.length + entry.name.length) % 8) 0

end Entry

variable {format : GitObjectFormat}

def encodeEntries (version : IndexVersion) (sharing : NameSharing) :
    (index : Nat) → (previous : List UInt8) → List (StoredEntry format) → List UInt8
  | _, _, [] => []
  | index, previous, entry :: entries =>
    entry.head ++ (entry.tail version (sharing.kept index previous entry.name) previous ++
      encodeEntries version sharing (index + 1) entry.name entries)

def OptionalExtension.encode (extension : OptionalExtension) : List UInt8 :=
  extension.signature ++ (be32 extension.data.length ++ extension.data)

def indexContent (version : IndexVersion) (sharing : NameSharing)
    (extensions : List OptionalExtension) (entries : List (StoredEntry format)) : List UInt8 :=
  [0x44, 0x49, 0x52, 0x43] ++ (be32 version.number ++ (be32 entries.length ++
    (encodeEntries version sharing 0 [] entries ++ extensions.flatMap OptionalExtension.encode)))

def encodeIndex (version : IndexVersion) (sharing : NameSharing)
    (extensions : List OptionalExtension) (entries : List (StoredEntry format)) : List UInt8 :=
  indexContent version sharing extensions entries ++
    checksum format (indexContent version sharing extensions entries)

/-! ## Reading fields back

The content of the file is followed by its checksum, and readers stop at the end of the content. -/

section Fields

variable {content sum : List UInt8} {offset : Nat}

theorem byteAt_at {b : UInt8} {rest : List UInt8} (stands : At content offset (b :: rest)) :
    byteAt (content ++ sum) offset = .ok b.toNat := by
  rw [byteAt, (stands.append_right sum).head]

theorem u16_at {n : Nat} (stands : At content offset (be16 n)) (small : n < 0x10000) :
    u16 (content ++ sum) offset content.length = .ok n := by
  have inside : ¬ content.length < offset + 2 := Nat.not_lt.mpr (stands.le (by simp [be16]))
  rw [u16, byteAt_at stands, byteAt_at stands.tail]
  simp only [inside, decide_false, failIf_ok, bind, Except.bind, pure, Except.pure, toNat_be16 small]

theorem u32_at {n : Nat} (stands : At content offset (be32 n)) (small : n < 0x100000000) :
    u32 (content ++ sum) offset content.length = .ok n := by
  have inside : ¬ content.length < offset + 4 := Nat.not_lt.mpr (stands.le (by simp [be32]))
  rw [u32, byteAt_at stands, byteAt_at stands.tail, byteAt_at stands.tail.tail,
    byteAt_at stands.tail.tail.tail]
  simp only [inside, decide_false, failIf_ok, bind, Except.bind, pure, Except.pure, toNat_be32 small]

theorem slice_at {chunk : List UInt8} (stands : At content offset chunk) :
    slice (content ++ sum) offset (offset + chunk.length) = chunk := by
  rw [slice, Nat.add_sub_cancel_left]
  exact (stands.append_right sum).take

theorem nul_at {name rest : List UInt8} (stands : At content offset (name ++ 0 :: rest))
    (plain : 0 ∉ name) :
    nul (content ++ sum) offset content.length = .ok (offset + name.length) := by
  have inside := stands.le (by simp)
  rw [length_append, length_cons] at inside
  obtain ⟨size, eq⟩ : ∃ size, content.length - offset = name.length + 1 + size :=
    ⟨content.length - offset - (name.length + 1), by omega⟩
  rw [nul, eq]
  clear inside eq
  induction name generalizing offset with
  | nil =>
    rw [length_nil, Nat.zero_add, Nat.add_comm, nulFrom, (stands.append_right sum).head, if_pos rfl]
    rfl
  | cons b name ih =>
    have head : (content ++ sum)[offset]? = some b := (stands.append_right sum).head
    have nonzero : b ≠ 0 := by
      rintro rfl
      exact plain mem_cons_self
    rw [length_cons, show name.length + 1 + 1 + size = name.length + 1 + size + 1 by omega,
      nulFrom, head, if_neg (by simpa using nonzero),
      ih stands.tail fun member => plain (mem_cons_of_mem b member)]
    congr 1
    omega

theorem length_varintHigh {n : Nat} (small : n ≤ 0x80) : (varintHigh n).length ≤ 1 := by
  cases n with
  | zero => simp [varintHigh]
  | succ n =>
    rw [varintHigh, Nat.div_eq_of_lt (by omega), varintHigh]
    simp

/-- Behind the high groups of a number the loop has this number. -/
theorem v4RemoveFrom_at {value count : Nat} (stands : At content offset (varintHigh value))
    (small : value ≤ maxSafeInteger / 128) :
    v4RemoveFrom (content ++ sum) content.length (count + (varintHigh value).length) 0 offset =
      v4RemoveFrom (content ++ sum) content.length count value
        (offset + (varintHigh value).length) := by
  induction value using varintHigh.induct generalizing count with
  | case1 => rw [varintHigh, length_nil, Nat.add_zero, Nat.add_zero]
  | case2 value ih =>
    rw [varintHigh] at stands ⊢
    have low : value % 0x80 < 0x80 := Nat.mod_lt _ (by decide)
    have byte : (UInt8.ofNat (0x80 + value % 0x80)).toNat = 0x80 + value % 0x80 := by
      rw [UInt8.toNat_ofNat']
      omega
    have inside := stands.right.le (by simp)
    rw [length_append, length_singleton] at *
    rw [show count + ((varintHigh (value / 0x80)).length + 1) =
      count + 1 + (varintHigh (value / 0x80)).length by omega, ih stands.left (by omega),
      v4RemoveFrom, byteAt_at stands.right]
    simp only [byte, bind, Except.bind]
    rw [show decide (content.length ≤ offset + (varintHigh (value / 0x80)).length) = false by
      simp; omega, failIf_ok]
    simp only
    rw [show decide (maxSafeInteger / 128 < value / 0x80) = false by simp; omega, failIf_ok]
    simp only
    rw [if_neg (by omega), show value / 0x80 * 128 + (0x80 + value % 0x80) % 0x80 + 1 = value + 1 by
      omega, Nat.add_assoc]

theorem v4Remove_at {n : Nat} (stands : At content offset (varint n)) (small : n ≤ 16384) :
    v4Remove (content ++ sum) offset content.length = .ok (n, offset + (varint n).length) := by
  have low : n % 0x80 < 0x80 := Nat.mod_lt _ (by decide)
  have byte : (UInt8.ofNat (n % 0x80)).toNat = n % 0x80 := by
    rw [UInt8.toNat_ofNat']
    omega
  have few := length_varintHigh (n := n / 0x80) (by omega)
  have safe : n / 0x80 ≤ maxSafeInteger / 128 := by
    rw [maxSafeInteger]
    omega
  have inside := stands.right.le (by simp)
  rw [v4Remove, show 10 = 9 - (varintHigh (n / 0x80)).length + 1 + (varintHigh (n / 0x80)).length by
    omega, v4RemoveFrom_at stands.left safe, v4RemoveFrom, byteAt_at stands.right]
  simp only [byte, bind, Except.bind]
  rw [show decide (content.length ≤ offset + (varintHigh (n / 0x80)).length) = false by
    simp at inside ⊢; omega, failIf_ok]
  simp only
  rw [show decide (maxSafeInteger / 128 < n / 0x80) = false by simp; omega, failIf_ok]
  simp only
  rw [if_pos low, show n / 0x80 * 128 + n % 0x80 % 0x80 = n by omega, varint, length_append,
    length_singleton, Nat.add_assoc]
  rfl

end Fields

/-! ## Reading an entry back -/

section Flags

variable (entry : StoredEntry format)

theorem StoredEntry.flags_lt : entry.flags < 0x10000 := by
  have stage := entry.stage.isLt
  unfold StoredEntry.flags
  split_ifs <;> omega

theorem StoredEntry.extended_flags : (entry.flags &&& 0x4000 != 0) = entry.extended := by
  have stage := entry.stage.isLt
  have bit : entry.flags &&& 0x4000 = (entry.flags.testBit 14).toNat * 2 ^ 14 := Nat.and_two_pow _ 14
  rw [bit, Nat.testBit_eq_decide_div_mod_eq]
  unfold StoredEntry.flags
  cases entry.extended
  · rw [decide_eq_false (by split_ifs <;> simp_all <;> omega)]
    rfl
  · rw [decide_eq_true (by split_ifs <;> simp_all <;> omega)]
    rfl

theorem StoredEntry.nameLength_flags : entry.flags &&& 0x0fff = min entry.name.length 0xfff := by
  have stage := entry.stage.isLt
  have low : entry.flags &&& 0x0fff = entry.flags % 2 ^ 12 := Nat.and_two_pow_sub_one_eq_mod _ 12
  rw [low]
  unfold StoredEntry.flags
  split_ifs <;> omega

theorem StoredEntry.stage_flags : entry.flags >>> 12 &&& 3 = entry.stage.val := by
  have stage := entry.stage.isLt
  have low : entry.flags >>> 12 &&& 3 = entry.flags >>> 12 % 2 ^ 2 :=
    Nat.and_two_pow_sub_one_eq_mod _ 2
  rw [low, Nat.shiftRight_eq_div_pow]
  unfold StoredEntry.flags
  split_ifs <;> omega

theorem StoredEntry.extendedFlags_lt : entry.extendedFlags < 0x10000 := by
  unfold StoredEntry.extendedFlags
  split_ifs <;> omega

/-- The extended flags are known ones, and show whether the entry is outside a sparse checkout. -/
theorem StoredEntry.extendedFlags_known : (entry.extendedFlags &&& 0x9fff != 0) = false ∧
    (entry.extendedFlags &&& 0x4000 != 0) = entry.skipWorktree := by
  unfold StoredEntry.extendedFlags
  cases entry.skipWorktree <;> cases entry.intentToAdd <;> decide

theorem StoredEntry.extendedFlags_eq_zero (plain : entry.extended = false) :
    entry.extendedFlags = 0 := by
  rw [StoredEntry.extended, Bool.or_eq_false_iff] at plain
  rw [StoredEntry.extendedFlags, plain.1, plain.2]
  rfl

end Flags

/-- What is read of an entry, but for where the next one starts. -/
def StoredEntry.read (entry : StoredEntry format) : EntryRead where
  ctimeNanoseconds := instantText entry.ctimeSeconds.toNat entry.ctimeNanoseconds.toNat
  device := Netstring.decimalText entry.device.toNat
  inode := Netstring.decimalText entry.inode.toNat
  mode := entry.mode.value
  mtimeNanoseconds := instantText entry.mtimeSeconds.toNat entry.mtimeNanoseconds.toNat
  objectId := hexText entry.objectId
  size := entry.size.toNat
  stage := entry.stage.val
  raw := entry.name
  next := 0

section Entry

variable {content sum : List UInt8} {offset : Nat}

theorem readInstant_at {seconds nanoseconds : UInt32}
    (first : At content offset (be32 seconds.toNat))
    (second : At content (offset + 4) (be32 nanoseconds.toNat)) :
    readInstant (content ++ sum) offset content.length =
      .ok (instantText seconds.toNat nanoseconds.toNat) := by
  rw [readInstant, u32_at first seconds.toNat_lt, u32_at second nanoseconds.toNat_lt]
  rfl

theorem readExtendedFlags_at (entry : StoredEntry format) {version : IndexVersion}
    (stands : At content offset (if entry.extended then be16 entry.extendedFlags else []))
    (supported : version = .v2 → entry.extended = false) :
    readExtendedFlags (content ++ sum) version.number entry.flags offset content.length =
      .ok (entry.extendedFlags,
        offset + (if entry.extended then be16 entry.extendedFlags else []).length) := by
  rw [readExtendedFlags, entry.extended_flags]
  have second : (version.number == 2 && entry.extended) = false := by
    cases version with
    | v2 => rw [supported rfl]; rfl
    | v3 => rfl
    | v4 => rfl
  simp only [second, failIf_ok, bind, Except.bind, pure, Except.pure]
  cases extended : entry.extended with
  | false =>
    rw [entry.extendedFlags_eq_zero extended]
    rfl
  | true =>
    rw [extended] at stands
    simp only [if_true] at stands ⊢
    rw [u16_at stands entry.extendedFlags_lt]
    simp only [entry.extendedFlags_known.1, failIf_ok]
    rfl

theorem readPrefixedName_at {previous name : List UInt8} {kept : Nat}
    (stands : At content offset (varint (previous.length - kept) ++ (name.drop kept ++ [0])))
    (short : previous.length ≤ 16384) (fits : kept ≤ previous.length)
    (shared : previous.take kept <+: name) (plain : 0 ∉ name) :
    readPrefixedName (content ++ sum) previous offset content.length =
      .ok (name, offset + (varint (previous.length - kept) ++ (name.drop kept ++ [0])).length) := by
  have suffix : 0 ∉ name.drop kept := fun member => plain (mem_of_mem_drop member)
  obtain ⟨rest, rfl⟩ := shared
  have taken : (previous.take kept).length = kept := by rw [length_take]; omega
  have dropped : (previous.take kept ++ rest).drop kept = rest := by
    exact drop_left' taken
  rw [dropped] at stands suffix ⊢
  rw [readPrefixedName, v4Remove_at stands.left (by omega)]
  simp only [bind, Except.bind]
  rw [show decide (previous.length < previous.length - kept) = false by simp, failIf_ok,
    nul_at stands.right suffix]
  simp only [pure, Except.pure]
  rw [slice_at stands.right.left, show previous.length - (previous.length - kept) = kept by omega]
  simp [Nat.add_assoc]

theorem readPaddedName_at {entryStart headLength : Nat} {name : List UInt8}
    (stands : At content (entryStart + headLength)
      (name ++ replicate (8 - (headLength + name.length) % 8) 0)) (plain : 0 ∉ name) :
    readPaddedName (content ++ sum) entryStart (entryStart + headLength) content.length =
      .ok (name, entryStart + headLength +
        (name ++ replicate (8 - (headLength + name.length) % 8) 0).length) := by
  obtain ⟨pad, eq⟩ : ∃ pad, 8 - (headLength + name.length) % 8 = pad + 1 :=
    ⟨7 - (headLength + name.length) % 8, by omega⟩
  rw [eq] at stands ⊢
  rw [replicate_succ] at stands ⊢
  have inside := stands.le (by simp)
  have zeros := stands.right.tail
  simp only [length_append, length_cons, length_replicate] at inside
  rw [readPaddedName, nul_at stands plain]
  simp only [bind, Except.bind]
  rw [show (8 - (entryStart + headLength + name.length + 1 - entryStart) % 8) % 8 = pad by omega,
    show decide (content.length < entryStart + headLength + name.length + 1 + pad) = false by
      simp; omega, failIf_ok]
  have padding : slice (content ++ sum) (entryStart + headLength + name.length + 1)
      (entryStart + headLength + name.length + 1 + pad) = replicate pad 0 := by
    conv => lhs; rw [show pad = (replicate pad (0 : UInt8)).length by simp]
    exact slice_at zeros
  simp only [padding]
  rw [show (replicate pad (0 : UInt8)).any (· != 0) = false by simp, failIf_ok,
    slice_at stands.left]
  simp only [pure, Except.pure, length_append, length_cons, length_replicate]
  congr 2
  omega

theorem At.be32_append {n : Nat} {rest : List UInt8} (stands : At content offset (be32 n ++ rest)) :
    At content offset (be32 n) ∧ At content (offset + 4) rest := ⟨stands.left, stands.right⟩

theorem StoredMode.value_mem (mode : StoredMode) :
    mode.value < 0x100000000 ∧ supportedModes.contains mode.value = true ∧
      (mode.value == 0o040000) = false := by
  cases mode <;> decide

theorem nameLength_read (entry : StoredEntry format) :
    ((min entry.name.length 0xfff == 0xfff && decide (entry.name.length < 0xfff)) ||
      (min entry.name.length 0xfff != 0xfff && min entry.name.length 0xfff != entry.name.length)) =
        false := by
  simp only [Bool.or_eq_false_iff, Bool.and_eq_false_iff, beq_eq_false_iff_ne, bne_eq_false_iff_eq,
    decide_eq_false_iff_not]
  omega

/-- The name of an entry is read back with what ends it. -/
theorem readName_at (entry : StoredEntry format) {version : IndexVersion} {previous : List UInt8}
    {entryStart kept : Nat}
    (stands : At content (entryStart + entry.head.length) (entry.tail version kept previous))
    (plain : 0 ∉ entry.name) (short : previous.length ≤ 16384) (fits : kept ≤ previous.length)
    (shared : previous.take kept <+: entry.name) :
    readName version.number (content ++ sum) previous entryStart (entryStart + entry.head.length)
        content.length =
      .ok (entry.name,
        entryStart + entry.head.length + (entry.tail version kept previous).length) := by
  cases version with
  | v2 => exact readPaddedName_at stands plain
  | v3 => exact readPaddedName_at stands plain
  | v4 => exact readPrefixedName_at stands short fits shared plain

theorem readEntry_at (entry : StoredEntry format) {version : IndexVersion} {previous : List UInt8}
    {entryStart kept : Nat}
    (stands : At content entryStart (entry.head ++ entry.tail version kept previous))
    (supported : version = .v2 → entry.extended = false) (present : entry.skipWorktree = false)
    (plain : 0 ∉ entry.name) (short : previous.length ≤ 16384) (fits : kept ≤ previous.length)
    (shared : previous.take kept <+: entry.name) :
    readEntry format version.number (content ++ sum) content.length previous entryStart =
      .ok { entry.read with
        next := entryStart + (entry.head ++ entry.tail version kept previous).length } := by
  have head := stands.left
  rw [StoredEntry.head] at head
  obtain ⟨ctimeSeconds, head⟩ := At.be32_append head
  obtain ⟨ctimeNanoseconds, head⟩ := At.be32_append head
  obtain ⟨mtimeSeconds, head⟩ := At.be32_append head
  obtain ⟨mtimeNanoseconds, head⟩ := At.be32_append head
  obtain ⟨device, head⟩ := At.be32_append head
  obtain ⟨inode, head⟩ := At.be32_append head
  obtain ⟨mode, head⟩ := At.be32_append head
  obtain ⟨uid, head⟩ := At.be32_append head
  obtain ⟨gid, head⟩ := At.be32_append head
  obtain ⟨size, head⟩ := At.be32_append head
  have objectId := @slice_at _ sum (entryStart + 40) _ head.left
  have flagsAt := head.right.left
  have flags := @u16_at _ sum (entryStart + 40 + GitObjectFormat.oidBytes format) _
    (entry.length_objectId ▸ flagsAt) entry.flags_lt
  have extendedFlags := @readExtendedFlags_at _ _ sum
    (entryStart + 40 + GitObjectFormat.oidBytes format + 2) entry _
    (entry.length_objectId ▸ head.right.right) supported
  have name := @readName_at _ _ sum entry _ _ _ _ stands.right plain short fits shared
  have headLength : entryStart + 40 + GitObjectFormat.oidBytes format + 2 +
      (if entry.extended then be16 entry.extendedFlags else []).length =
        entryStart + entry.head.length := by
    simp only [StoredEntry.head, length_append, length_be32, length_be16, entry.length_objectId]
    omega
  have inside : decide (content.length < entryStart + (40 + GitObjectFormat.oidBytes format + 2)) =
      false := by
    have := flagsAt.le (by simp [be16])
    rw [entry.length_objectId, length_be16] at this
    simp only [decide_eq_false_iff_not]
    omega
  rw [entry.length_objectId] at objectId
  rw [headLength] at extendedFlags
  rw [readEntry]
  simp only [inside, failIf_ok, bind, Except.bind, pure, Except.pure,
    @readInstant_at _ sum _ _ _ ctimeSeconds ctimeNanoseconds,
    @readInstant_at _ sum (entryStart + 8) _ _ mtimeSeconds mtimeNanoseconds,
    @u32_at _ sum (entryStart + 16) _ device entry.device.toNat_lt,
    @u32_at _ sum (entryStart + 20) _ inode entry.inode.toNat_lt,
    @u32_at _ sum (entryStart + 24) _ mode entry.mode.value_mem.1,
    @u32_at _ sum (entryStart + 36) _ size entry.size.toNat_lt,
    objectId, flags, extendedFlags, name, entry.mode.value_mem.2.1, entry.mode.value_mem.2.2,
    entry.extendedFlags_known.2, present, entry.nameLength_flags, entry.stage_flags,
    nameLength_read entry, Bool.not_true, Bool.or_false]
  rw [length_append, ← Nat.add_assoc]
  rfl

end Entry

/-! ## Reading the file back -/

/-- What is read of an entry without where the next one starts. -/
def EntryRead.untied (read : EntryRead) : EntryRead := { read with next := 0 }

section File

variable {content sum : List UInt8} {offset : Nat}

/-- What the reader needs of an entry. -/
structure Readable (version : IndexVersion) (entry : StoredEntry format) : Prop where
  supported : version = .v2 → entry.extended = false
  present : entry.skipWorktree = false
  plain : 0 ∉ entry.name
  short : entry.name.length ≤ 16384

theorem storedEntries_at {version : IndexVersion} {sharing : NameSharing} {index : Nat}
    {previous : List UInt8} {entries : List (StoredEntry format)}
    (readable : ∀ entry ∈ entries, Readable version entry) (short : previous.length ≤ 16384)
    (stands : At content offset (encodeEntries version sharing index previous entries)) :
    ∃ reads, storedEntries format version.number (content ++ sum) content.length entries.length
        offset previous =
          .ok (reads, offset + (encodeEntries version sharing index previous entries).length) ∧
      reads.map EntryRead.untied = entries.map StoredEntry.read := by
  induction entries generalizing index previous offset with
  | nil => exact ⟨[], rfl, rfl⟩
  | cons entry entries ih =>
    obtain ⟨first, others⟩ := forall_mem_cons.mp readable
    rw [encodeEntries, ← append_assoc] at stands ⊢
    have read := @readEntry_at _ _ sum entry _ _ _ _ stands.left first.supported first.present
      first.plain short (sharing.kept_le index previous entry.name)
      (sharing.take_kept index previous entry.name)
    obtain ⟨reads, later, untied⟩ := ih others first.short stands.right
    refine ⟨{ entry.read with
      next := offset + (entry.head ++
        entry.tail version (sharing.kept index previous entry.name) previous).length } :: reads,
      ?_, ?_⟩
    · rw [length_cons, storedEntries, read]
      simp only [bind, Except.bind]
      rw [show entry.read.raw = entry.name from rfl, later]
      simp [pure, Except.pure, Nat.add_assoc]
    · rw [map_cons, map_cons, untied]
      rfl

theorem asciiText_ne {signature : List UInt8} {first : UInt8} (head : signature[0]? = some first)
    (lower : 0x41 ≤ first.toNat) (upper : first.toNat ≤ 0x5a) {text : Text}
    (other : text[0]? = some 0x6c ∨ text[0]? = some 0x73) : (asciiText signature == text) = false := by
  rw [beq_eq_false_iff_ne]
  rintro rfl
  rw [asciiText, getElem?_map, head, Option.map_some] at other
  have value : (UInt16.ofNat (first.toNat % 0x80)).toNat = first.toNat := by
    rw [UInt16.toNat_ofNat']
    omega
  obtain same | same := other <;>
  · have := congrArg UInt16.toNat (Option.some.inj same)
    rw [value] at this
    simp at this
    omega

/-- Extensions that may be skipped are. -/
theorem readExtensions_at {extensions : List OptionalExtension}
    (stands : At content offset (extensions.flatMap OptionalExtension.encode))
    (last : offset + (extensions.flatMap OptionalExtension.encode).length = content.length) :
    readExtensions (content ++ sum) content.length offset = .ok content.length := by
  induction extensions generalizing offset with
  | nil =>
    rw [readExtensions, if_neg (by simp at last; omega), ← last]
    rfl
  | cons extension extensions ih =>
    rw [flatMap_cons, OptionalExtension.encode] at stands last
    have signatureAt := stands.left.left
    have lengthAt := stands.left.right.left
    have dataAt := stands.left.right.right
    obtain ⟨first, head, lower, upper⟩ := extension.upperCase
    simp only [length_append, extension.length_signature, length_be32] at last
    have restAt := stands.right
    rw [length_append, length_append, extension.length_signature, length_be32,
      show offset + (4 + (4 + extension.data.length)) = offset + 8 + extension.data.length by omega]
      at restAt
    have rest := ih restAt (by omega)
    have signature := @slice_at _ sum _ _ signatureAt
    rw [extension.length_signature] at signature lengthAt
    rw [readExtensions, if_pos (by omega)]
    simp only [@u32_at _ sum _ _ lengthAt extension.small, signature, bind, Except.bind,
      @asciiText_ne _ _ head lower upper (js "link") (.inl (by decide)),
      @asciiText_ne _ _ head lower upper (js "sdir") (.inr (by decide)), byteAt, head]
    rw [show decide (content.length < offset + 8) = false by simp; omega,
      show decide (content.length < offset + 8 + extension.data.length) = false by simp; omega,
      show (decide (first.toNat < 0x41) || decide (0x5a < first.toNat)) = false by simp; omega]
    exact rest

end File

/-- The checks do not look at where an entry ends. -/
theorem admitEntries_untied {lowerCase : Text → Text} {limits : TrackedFileEnumerationLimits}
    {index : Nat} {state : IndexState} (reads : List EntryRead) :
    admitEntries lowerCase limits index state (reads.map EntryRead.untied) =
      admitEntries lowerCase limits index state reads := by
  induction reads generalizing index state with
  | nil => rfl
  | cons read reads ih =>
    rw [map_cons, admitEntries, admitEntries]
    simp only [ih]
    rfl

section Index

variable {lowerCase : Text → Text} {limits : TrackedFileEnumerationLimits}
  {version : IndexVersion} {sharing : NameSharing} {extensions : List OptionalExtension}
  {entries : List (StoredEntry format)}

theorem contentEnd_encodeIndex :
    (encodeIndex version sharing extensions entries).length - GitObjectFormat.oidBytes format =
      (indexContent version sharing extensions entries).length := by
  rw [encodeIndex, length_append, length_checksum, Nat.add_sub_cancel]

/-- The reads of an encoded index are those of its entries. -/
theorem storedEntries_encodeIndex (readable : ∀ entry ∈ entries, Readable version entry)
    (countable : entries.length < 0x100000000) :
    let bytes := encodeIndex version sharing extensions entries
    let contentEnd := (indexContent version sharing extensions entries).length
    u32 bytes 4 contentEnd = .ok version.number ∧ u32 bytes 8 contentEnd = .ok entries.length ∧
      ∃ reads stop, storedEntries format version.number bytes contentEnd entries.length
          indexHeaderBytes [] = .ok (reads, stop) ∧
        readExtensions bytes contentEnd stop = .ok contentEnd ∧
        reads.map EntryRead.untied = entries.map StoredEntry.read := by
  intro bytes contentEnd
  have whole : At (indexContent version sharing extensions entries) 0
      (indexContent version sharing extensions entries) := ⟨[], (append_nil _).symm⟩
  conv at whole => arg 3; rw [indexContent]
  have number : version.number < 0x100000000 := by cases version <;> decide
  have entriesAt := whole.right.right.right.left
  have extensionsAt := whole.right.right.right.right
  obtain ⟨reads, stored, untied⟩ := @storedEntries_at _ _
    (checksum format (indexContent version sharing extensions entries)) _ _ _ _ _ _ readable
    (Nat.zero_le _) entriesAt
  refine ⟨u32_at whole.right.left number, u32_at whole.right.right.left countable, reads, _, stored,
    readExtensions_at extensionsAt ?_, untied⟩
  conv => rhs; rw [indexContent]
  simp only [length_append, Nat.zero_add, Nat.add_assoc]

/-- An encoded index is accepted exactly if its entries are admitted. -/
theorem parseCandidate_encodeIndex (readable : ∀ entry ∈ entries, Readable version entry)
    (countable : entries.length < 0x100000000) (few : entries.length ≤ limits.maximumIndexEntries)
    (fewFiles : entries.length ≤ limits.maximumFiles) {parsed : ParsedGitIndex} :
    parseCandidate lowerCase (encodeIndex version sharing extensions entries) format limits =
        .ok parsed ↔
      ∃ state, admitEntries lowerCase limits 0 initialIndexState (entries.map StoredEntry.read) =
          .ok state ∧
        parsed = {
          entries := state.entries
          objectFormat := format
          paths := Sorting.sortBy compareUnits state.paths
          version := version.number } := by
  obtain ⟨isVersion, isCount, reads, stop, stored, last, untied⟩ :=
    @storedEntries_encodeIndex _ version sharing extensions entries readable countable
  rw [← contentEnd_encodeIndex] at isVersion isCount stored last
  rw [parseCandidate_eq_ok, ← untied, admitEntries_untied]
  constructor
  · rintro ⟨number, count, others, state, file, rfl⟩
    obtain rfl : version.number = number := by
      simpa only [isVersion, Except.ok.injEq] using file.isVersion
    obtain rfl : entries.length = count := by
      simpa only [isCount, Except.ok.injEq] using file.isCount
    obtain ⟨_, others, -⟩ := file.entries
    rw [stored] at others
    cases others
    exact ⟨state, file.admitted, rfl⟩
  · rintro ⟨state, admitted, rfl⟩
    refine ⟨version.number, entries.length, reads, state, ?_, rfl⟩
    exact {
      long := by
        rw [encodeIndex, length_append, length_checksum, indexContent]
        simp only [length_append, length_be32, length_cons, length_nil, indexHeaderBytes]
        omega
      checksum := by
        rw [contentEnd_encodeIndex, encodeIndex, take_left, drop_left]
      signature := by
        rw [encodeIndex, indexContent]
        exact (by decide : asciiText [0x44, 0x49, 0x52, 0x43] = js "DIRC")
      isVersion := isVersion
      supported := by cases version <;> decide
      isCount := isCount
      fewEntries := few
      fewFiles := fewFiles
      entries := ⟨stop, stored, last⟩
      admitted := admitted }

end Index

end AgentContextLint.TrackedFileEnumeration
