import AgentContextLint.Lib.NumeralOrder
import AgentContextLint.Standards.TufTrust

/-!
# The precedence of versions

Two places compare versions, by the texts of their identifiers. Both follow the precedence of
SemVer 2.0.0, where numerals are numbers (`compareSemver_eq`, `tufCompareSemver_eq`), which is a
total preorder; the trust store only reads versions of a limited length.
-/

namespace AgentContextLint.SemverPrecedence

open Utf16 Utf8 Sorting Metered OrganizationPolicy List
open UnitPattern (isDigit)
open Option (bind_some getD_none getD_some map_none map_some)

variable {first second : Text} {a b : Semver}
  {left right : List Text} {value : Text} {semver : Semver}
  {capabilities : OrganizationPolicyCapabilities} {options : OrganizationPolicyLocationProvider}

/-! ## Precedence -/

/-- The identifiers of a prerelease. -/
inductive Identifier
  | numeric (number : Nat)
  | alphanumeric (text : Text)

/-- Numbers are compared as such, and come before texts. -/
def compareIdentifiers : Identifier → Identifier → Ordering
  | .numeric a, .numeric b => compare a b
  | .numeric _, .alphanumeric _ => .lt
  | .alphanumeric _, .numeric _ => .gt
  | .alphanumeric a, .alphanumeric b => compareUnits a b

/-- A release comes behind its prereleases. -/
def compareReleases {α : Type} (cmp : α → α → Ordering) : Option α → Option α → Ordering
  | none, none => .eq
  | none, some _ => .gt
  | some _, none => .lt
  | some a, some b => cmp a b

/-- What the precedence of a version depends on. -/
structure Version where
  major : Nat
  minor : Nat
  patch : Nat
  prerelease : Option (List Identifier)

/-- A longer prerelease comes behind one that it continues. -/
def precedence (left right : Version) : Ordering :=
  (compare left.major right.major).then <| (compare left.minor right.minor).then <|
    (compare left.patch right.patch).then <|
      compareReleases (List.compareLex compareIdentifiers) left.prerelease right.prerelease

instance : Std.TransCmp compareIdentifiers where
  eq_swap := by
    rintro (a | a) (b | b)
    · exact (Std.OrientedCmp.eq_swap : compare a b = (compare b a).swap)
    · rfl
    · rfl
    · exact (Std.OrientedCmp.eq_swap : compareUnits a b = (compareUnits b a).swap)
  isLE_trans := by
    rintro (a | a) (b | b) (c | c) first second
    · have numbers : (compare a b).isLE = true → (compare b c).isLE = true → (compare a c).isLE = true :=
        Std.TransCmp.isLE_trans
      exact numbers first second
    · rfl
    · cases second
    · rfl
    · cases first
    · cases first
    · cases second
    · have texts : (compareUnits a b).isLE = true → (compareUnits b c).isLE = true →
          (compareUnits a c).isLE = true := Std.TransCmp.isLE_trans
      exact texts first second

instance {α : Type} (cmp : α → α → Ordering) [Std.TransCmp cmp] : Std.TransCmp (compareReleases cmp) where
  eq_swap := by
    rintro (_ | a) (_ | b)
    · rfl
    · rfl
    · rfl
    · exact (Std.OrientedCmp.eq_swap : cmp a b = (cmp b a).swap)
  isLE_trans := by
    rintro (_ | a) (_ | b) (_ | c) first second
    · rfl
    · exact second
    · rfl
    · cases first
    · rfl
    · cases second
    · rfl
    · have parts : (cmp a b).isLE = true → (cmp b c).isLE = true → (cmp a c).isLE = true :=
        Std.TransCmp.isLE_trans
      exact parts first second

instance : Std.TransCmp precedence :=
  inferInstanceAs (Std.TransCmp (compareLex (comparingWith compare Version.major)
    (compareLex (comparingWith compare Version.minor) (compareLex (comparingWith compare Version.patch)
      (comparingWith (compareReleases (List.compareLex compareIdentifiers)) Version.prerelease)))))

/-! ## Numerals -/

theorem toNat_of_isDigit {u : CodeUnit} (digit : isDigit u = true) :
    0x30 ≤ u.toNat ∧ u.toNat ≤ 0x39 := by
  rcases (Bool.and_eq_true _ _).mp digit with ⟨least, most⟩
  exact ⟨of_decide_eq_true least, of_decide_eq_true most⟩

def digitOf (u : CodeUnit) : Nat := u.toNat - 0x30

theorem compare_digitOf {u v : CodeUnit} (digitU : isDigit u = true)
    (digitV : isDigit v = true) : compare (digitOf u) (digitOf v) = compare u v := by
  have leastU := (toNat_of_isDigit digitU).1
  have leastV := (toNat_of_isDigit digitV).1
  unfold digitOf
  cases order : compare u v with
  | lt =>
    have less : u.toNat < v.toNat := UInt16.lt_iff_toNat_lt.mp (Std.compare_eq_lt.mp order)
    exact Nat.compare_eq_lt.mpr (by omega)
  | eq =>
    rw [Std.compare_eq_iff_eq.mp order]
    exact Nat.compare_eq_eq.mpr rfl
  | gt =>
    have greater : v.toNat < u.toNat := UInt16.lt_iff_toNat_lt.mp (Std.compare_eq_gt.mp order)
    exact Nat.compare_eq_gt.mpr (by omega)

theorem digits_of_numeric {text : Text} (numeric : isNumericIdentifier text = true) :
    text.all isDigit = true ∧ NumeralOrder.Plain digitOf text := by
  unfold isNumericIdentifier at numeric
  cases text with
  | nil => cases numeric
  | cons u rest =>
    rw [Bool.and_eq_true, Bool.and_eq_true] at numeric
    rcases numeric with ⟨⟨_, digits⟩, leading⟩
    refine ⟨digits, u, rest, rfl, fun long => ?_⟩
    have least := (toNat_of_isDigit (all_eq_true.mp digits u mem_cons_self)).1
    rcases (Bool.or_eq_true _ _).mp leading with single | notZero
    · have length : (u :: rest).length = 1 := eq_of_beq single
      exact absurd (eq_nil_of_length_eq_zero (Nat.succ.inj length)) long
    · have differs : u ≠ 0x30 := by
        rintro rfl
        cases notZero
      have other : u.toNat ≠ 0x30 := fun same => differs (UInt16.toNat_inj.mp same)
      unfold digitOf
      omega

theorem compareNumericText_then (left right : Text) : compareNumericText left right =
    (compare left.length right.length).then (compareUnits left right) := by
  unfold compareNumericText
  split_ifs with same
  · rw [Nat.compare_eq_eq.mpr same]
    rfl
  · cases order : compare left.length right.length with
    | lt => rfl
    | gt => rfl
    | eq => exact absurd (Nat.compare_eq_eq.mp order) same

theorem compareNumericText_eq_eq {left right : Text} :
    compareNumericText left right = .eq ↔ left = right := by
  rw [compareNumericText_then, Ordering.then_eq_eq, compareUnits_eq_iff, Nat.compare_eq_eq]
  exact and_iff_right_of_imp (congrArg length)

/-- Numerals are compared as numbers. -/
theorem compareNumericText_eq {left right : Text} (numericLeft : isNumericIdentifier left = true)
    (numericRight : isNumericIdentifier right = true) :
    compareNumericText left right = compare (digitsValue left) (digitsValue right) := by
  rcases digits_of_numeric numericLeft with ⟨digitsLeft, plainLeft⟩
  rcases digits_of_numeric numericRight with ⟨digitsRight, plainRight⟩
  have small : ∀ {text : Text}, text.all isDigit = true → ∀ u ∈ text, digitOf u < 10 := by
    intro text digits u member
    have most := (toNat_of_isDigit (all_eq_true.mp digits u member)).2
    unfold digitOf
    omega
  rw [compareNumericText_then]
  exact (NumeralOrder.compare_numeral plainLeft plainRight
    (fun u inLeft v inRight => compare_digitOf (all_eq_true.mp digitsLeft u inLeft)
      (all_eq_true.mp digitsRight v inRight)) (small digitsLeft) (small digitsRight)).symm

/-! ## Versions -/

def identifier (text : Text) : Identifier :=
  if text.all isDigit then .numeric (digitsValue text) else .alphanumeric text

/-- The version that a text writes. -/
def versionOf (semver : Semver) : Version where
  major := digitsValue semver.major
  minor := digitsValue semver.minor
  patch := digitsValue semver.patch
  prerelease := semver.prerelease.map fun text => (text.splitOn 0x2e).map identifier

/-- The parts of a text that has been read. -/
structure Readable (semver : Semver) : Prop where
  major : isNumericIdentifier semver.major = true
  minor : isNumericIdentifier semver.minor = true
  patch : isNumericIdentifier semver.patch = true
  prerelease : ∀ text, semver.prerelease = some text →
    ∀ part ∈ text.splitOn 0x2e, isPrereleaseIdentifier part = true

theorem readable_of_parseSemver (read : parseSemver value = some semver) : Readable semver := by
  unfold parseSemver at read
  dsimp only at read
  split at read
  · split_ifs at read with valid
    cases read
    simp only [Bool.and_eq_true] at valid
    rcases valid with ⟨⟨⟨⟨major, minor⟩, patch⟩, prerelease⟩, _⟩
    refine ⟨major, minor, patch, fun text found => ?_⟩
    dsimp only at found
    rw [found] at prerelease
    exact all_eq_true.mp prerelease
  · cases read

theorem isNumeric_of_digits {part : Text} (valid : isPrereleaseIdentifier part = true)
    (digits : part.all isDigit = true) : isNumericIdentifier part = true := by
  rcases (Bool.and_eq_true _ _).mp valid with ⟨_, either⟩
  rw [digits] at either
  exact either

/-- How two identifiers are compared that differ. -/
theorem compareIdentifiers_eq {a b : Text} (validA : isPrereleaseIdentifier a = true)
    (validB : isPrereleaseIdentifier b = true) (apart : a ≠ b) :
    (if a.all isDigit && b.all isDigit then compareNumericText a b
      else if a.all isDigit then .lt
      else if b.all isDigit then .gt
      else compareUnits a b) = compareIdentifiers (identifier a) (identifier b) ∧
    compareIdentifiers (identifier a) (identifier b) ≠ .eq := by
  unfold identifier
  cases digitsA : a.all isDigit with
  | true =>
    cases digitsB : b.all isDigit with
    | true =>
      have numbers := compareNumericText_eq (isNumeric_of_digits validA digitsA)
        (isNumeric_of_digits validB digitsB)
      refine ⟨numbers, fun same => apart (compareNumericText_eq_eq.mp (numbers.trans same))⟩
    | false => exact ⟨rfl, fun same => by cases same⟩
  | false =>
    cases digitsB : b.all isDigit with
    | true => exact ⟨rfl, fun same => by cases same⟩
    | false => exact ⟨rfl, fun same => apart (compareUnits_eq_iff.mp same)⟩

theorem comparePrereleases_eq (validLeft : ∀ part ∈ left, isPrereleaseIdentifier part = true)
    (validRight : ∀ part ∈ right, isPrereleaseIdentifier part = true) :
    comparePrereleases left right =
      List.compareLex compareIdentifiers (left.map identifier) (right.map identifier) := by
  induction left generalizing right with
  | nil =>
    cases right with
    | nil => rfl
    | cons b right => rfl
  | cons a left ih =>
    cases right with
    | nil => rfl
    | cons b right =>
      have later := ih (fun part member => validLeft part (mem_cons_of_mem _ member))
        fun part member => validRight part (mem_cons_of_mem _ member)
      rw [map_cons, map_cons, List.compareLex_cons_cons, ← later, comparePrereleases]
      by_cases same : a = b
      · have itself : compareIdentifiers (identifier a) (identifier b) = .eq := by
          rw [same]
          exact Std.ReflCmp.compare_self
        rw [if_pos same, itself]
        rfl
      · rcases compareIdentifiers_eq (validLeft a mem_cons_self)
          (validRight b mem_cons_self) same with ⟨compared, differ⟩
        rw [if_neg same, compared]
        cases order : compareIdentifiers (identifier a) (identifier b) with
        | eq => exact absurd order differ
        | lt => rfl
        | gt => rfl

theorem comparePrereleases_eq_eq : comparePrereleases left right = .eq ↔ left = right := by
  induction left generalizing right with
  | nil =>
    cases right with
    | nil => exact iff_of_true rfl rfl
    | cons b right => exact iff_of_false (fun same => by cases same) (cons_ne_nil b right).symm
  | cons a left ih =>
    cases right with
    | nil => exact iff_of_false (fun same => by cases same) (cons_ne_nil a left)
    | cons b right =>
      rw [comparePrereleases, List.cons.injEq]
      split_ifs with same
      · rw [ih, and_iff_right same]
      · exact iff_of_false (fun also => same (compareNumericText_eq_eq.mp also)) fun both => same both.1
      · exact iff_of_false (fun also => by cases also) fun both => same both.1
      · exact iff_of_false (fun also => by cases also) fun both => same both.1
      · exact iff_of_false (fun also => same (compareUnits_eq_iff.mp also)) fun both => same both.1

theorem splitOn_injective (same : first.splitOn 0x2e = second.splitOn 0x2e) : first = second := by
  have back (text : Text) : [0x2e].intercalate (text.splitOn 0x2e) = text :=
    intercalate_splitOn 0x2e
  rw [← back first, same, back]

theorem comparePrereleases_texts (readableA : Readable a) (readableB : Readable b) (foundA : a.prerelease = some first) (foundB : b.prerelease = some second) :
    comparePrereleases (first.splitOn 0x2e) (second.splitOn 0x2e) =
      List.compareLex compareIdentifiers ((first.splitOn 0x2e).map identifier)
        ((second.splitOn 0x2e).map identifier) :=
  comparePrereleases_eq (readableA.prerelease first foundA) (readableB.prerelease second foundB)

theorem compareSemver_eq (readFirst : parseSemver first = some a)
    (readSecond : parseSemver second = some b) :
    compareSemver first second = some (precedence (versionOf a) (versionOf b)) := by
  have readableA := readable_of_parseSemver readFirst
  have readableB := readable_of_parseSemver readSecond
  rw [compareSemver, readFirst, readSecond, Option.bind_eq_bind, bind_some, bind_some,
    compareNumericText_eq readableA.major readableB.major,
    compareNumericText_eq readableA.minor readableB.minor,
    compareNumericText_eq readableA.patch readableB.patch]
  dsimp only
  rw [Ordering.then_assoc, Ordering.then_assoc]
  unfold precedence versionOf
  cases foundA : a.prerelease with
  | none =>
    cases foundB : b.prerelease with
    | none => rfl
    | some second => rfl
  | some first =>
    cases foundB : b.prerelease with
    | none => rfl
    | some second =>
      have compared := comparePrereleases_texts readableA readableB foundA foundB
      have prereleases : (if first = second then .eq
          else comparePrereleases (first.splitOn 0x2e) (second.splitOn 0x2e)) =
          comparePrereleases (first.splitOn 0x2e) (second.splitOn 0x2e) := by
        split_ifs with same
        · exact (comparePrereleases_eq_eq.mpr (congrArg _ same)).symm
        · rfl
      dsimp only [map_some, compareReleases]
      rw [prereleases, compared]
      rfl

/-- The comparison tells all versions apart but those that only differ in their builds. -/
theorem precedence_eq_eq (readableA : Readable a) (readableB : Readable b) :
    precedence (versionOf a) (versionOf b) = .eq ↔ a = b := by
  constructor
  · intro same
    simp only [precedence, Ordering.then_eq_eq] at same
    rcases same with ⟨major, minor, patch, prerelease⟩
    have numerals : ∀ {x y : Text}, isNumericIdentifier x = true → isNumericIdentifier y = true →
        compare (digitsValue x) (digitsValue y) = .eq → x = y := fun numericX numericY same =>
      compareNumericText_eq_eq.mp ((compareNumericText_eq numericX numericY).trans same)
    have majors := numerals readableA.major readableB.major major
    have minors := numerals readableA.minor readableB.minor minor
    have patches := numerals readableA.patch readableB.patch patch
    have prereleases : a.prerelease = b.prerelease := by
      unfold versionOf at prerelease
      cases foundA : a.prerelease with
      | none =>
        cases foundB : b.prerelease with
        | none => rfl
        | some second =>
          rw [foundA, foundB] at prerelease
          cases prerelease
      | some first =>
        cases foundB : b.prerelease with
        | none =>
          rw [foundA, foundB] at prerelease
          cases prerelease
        | some second =>
          rw [foundA, foundB] at prerelease
          have compared := comparePrereleases_texts readableA readableB foundA foundB
          exact congrArg some (splitOn_injective (comparePrereleases_eq_eq.mp
            (compared.trans prerelease)))
    cases a
    cases b
    cases majors
    cases minors
    cases patches
    cases prereleases
    rfl
  · rintro rfl
    exact Std.ReflCmp.compare_self

/-! ## The trust store -/

theorem compareNumericIdentifier_eq (left right : Text) :
    TufTrust.compareNumericIdentifier left right = compareNumericText left right := by
  unfold TufTrust.compareNumericIdentifier
  rw [compareNumericText_then]
  split_ifs with lengths shorter same less
  · rw [Nat.compare_eq_lt.mpr shorter]
    rfl
  · have longer := Nat.lt_of_le_of_ne (Nat.not_lt.mp shorter) (Ne.symm lengths)
    rw [Nat.compare_eq_gt.mpr longer]
    rfl
  · rw [same, Nat.compare_eq_eq.mpr rfl, compareUnits_eq_iff.mpr rfl]
    rfl
  · rw [Nat.compare_eq_eq.mpr (not_not.mp lengths), compareUnits_eq_lt_iff.mpr less]
    rfl
  · rw [Nat.compare_eq_eq.mpr (not_not.mp lengths)]
    cases order : compareUnits left right with
    | lt => exact absurd (compareUnits_eq_lt_iff.mp order) less
    | eq => exact absurd (compareUnits_eq_iff.mp order) same
    | gt => rfl

theorem comparePre_eq (left right : List Text) :
    TufTrust.comparePre left right = comparePrereleases left right := by
  induction left generalizing right with
  | nil =>
    cases right with
    | nil => rfl
    | cons b right => rfl
  | cons a left ih =>
    cases right with
    | nil => rfl
    | cons b right =>
      rw [TufTrust.comparePre, comparePrereleases, ih, compareNumericIdentifier_eq]
      dsimp only
      by_cases same : a = b
      · rw [if_pos same, if_pos same]
      · rw [if_neg same, if_neg same]
        cases digitsA : a.all isDigit with
        | true =>
          cases digitsB : b.all isDigit with
          | true => rfl
          | false => rfl
        | false =>
          cases digitsB : b.all isDigit with
          | true => rfl
          | false =>
            cases order : compareUnits a b with
            | lt => exact if_pos (compareUnits_eq_lt_iff.mp order)
            | eq => exact absurd (compareUnits_eq_iff.mp order) same
            | gt =>
              have notLess : ¬ a < b := fun less => by
                cases order.symm.trans (compareUnits_eq_lt_iff.mpr less)
              exact if_neg notLess

/-- The trust store reads a version that is not too long as the policies do. -/
theorem tufParseSemver_eq (read : parseSemver value = some semver)
    (short : byteLength value ≤ TufTrust.maxTufSemverBytes) (path : Text) (code : TufTrustErrorCode) :
    TufTrust.parseSemver value path code = .ok {
      core := (semver.major, semver.minor, semver.patch)
      pre := (semver.prerelease.map (·.splitOn 0x2e)).getD [] } := by
  have fewUnits : ¬ value.length > TufTrust.maxTufSemverBytes :=
    Nat.not_lt.mpr ((length_le_byteLength value).trans short)
  unfold TufTrust.parseSemver TufTrust.boundedString refuseIf
  rw [if_neg fewUnits, if_neg (Nat.not_lt.mpr short), read]
  rfl

theorem tufCompareSemver_eq (readFirst : parseSemver first = some a)
    (readSecond : parseSemver second = some b) (shortFirst : byteLength first ≤ TufTrust.maxTufSemverBytes)
    (shortSecond : byteLength second ≤ TufTrust.maxTufSemverBytes) :
    TufTrust.compareSemver first second = .ok (precedence (versionOf a) (versionOf b)) := by
  have readableA := readable_of_parseSemver readFirst
  have readableB := readable_of_parseSemver readSecond
  have some : ∀ text : Text, (text.splitOn 0x2e).length ≠ 0 := fun text none =>
    splitOn_ne_nil _ _ (eq_nil_of_length_eq_zero none)
  rw [TufTrust.compareSemver, tufParseSemver_eq readFirst shortFirst,
    tufParseSemver_eq readSecond shortSecond, ok_bind, ok_bind]
  dsimp only
  rw [compareNumericIdentifier_eq, compareNumericIdentifier_eq, compareNumericIdentifier_eq,
    compareNumericText_eq readableA.major readableB.major,
    compareNumericText_eq readableA.minor readableB.minor,
    compareNumericText_eq readableA.patch readableB.patch, Ordering.then_assoc, Ordering.then_assoc]
  unfold precedence versionOf
  cases foundA : a.prerelease with
  | none =>
    cases foundB : b.prerelease with
    | none => rfl
    | some second =>
      rw [map_some, getD_some, map_none, getD_none,
        length_nil, if_pos (Or.inl rfl),
        if_neg (Ne.symm (some second)), if_pos rfl]
      rfl
  | some first =>
    cases foundB : b.prerelease with
    | none =>
      rw [map_some, getD_some, map_none, getD_none,
        length_nil, if_pos (Or.inr rfl),
        if_neg (some first), if_neg (some first)]
      rfl
    | some second =>
      rw [map_some, getD_some, map_some, getD_some,
        if_neg (not_or.mpr ⟨some first, some second⟩), comparePre_eq,
        comparePrereleases_texts readableA readableB foundA foundB]
      rfl

/-- An engine that is not older than a fitting one fits. -/
theorem checkEngine_mono {first second third : Text} {a b c : Semver}
    (readFirst : parseSemver first = some a) (readSecond : parseSemver second = some b)
    (readThird : parseSemver third = some c) (shortFirst : byteLength first ≤ TufTrust.maxTufSemverBytes)
    (shortSecond : byteLength second ≤ TufTrust.maxTufSemverBytes)
    (shortThird : byteLength third ≤ TufTrust.maxTufSemverBytes)
    (raised : (precedence (versionOf a) (versionOf b)).isLE = true)
    (fits : TufTrust.checkEngine first third = .ok ()) : TufTrust.checkEngine second third = .ok () := by
  rw [TufTrust.checkEngine, tufCompareSemver_eq readFirst readThird shortFirst shortThird, ok_bind,
    refuseIf_eq_ok] at fits
  rw [TufTrust.checkEngine, tufCompareSemver_eq readSecond readThird shortSecond shortThird, ok_bind,
    refuseIf_eq_ok]
  exact fun older => fits (Std.TransCmp.lt_of_isLE_of_lt raised older)

/-! ## Versions of any length -/

/-- Version texts in the order of the policies. -/
def NotNewer (first second : Text) : Prop := compareSemver first second ≠ some .gt

instance : Decidable (NotNewer first second) := inferInstanceAs (Decidable (_ ≠ _))

theorem notNewer_iff (readFirst : parseSemver first = some a)
    (readSecond : parseSemver second = some b) :
    NotNewer first second ↔ (precedence (versionOf a) (versionOf b)).isLE = true := by
  rw [NotNewer, compareSemver_eq readFirst readSecond, ← Ordering.ne_gt_iff_isLE, ne_eq, Option.some.injEq]

/-- The pack check of an engine: its version is taken as a capability, and with it the pack's
compatibility has no issue. -/
def PackFits (options : OrganizationPolicyLocationProvider)
    (capabilities : OrganizationPolicyCapabilities) (compatibility : JsValue) (engine : Text) :
    Prop :=
  (capabilityVersion [(js "engineVersion", .string engine)] "engineVersion" options).Clean ∧
    (validateCompatibility compatibility (some { capabilities with engineVersion := engine })
      options).Clean

theorem checkMinimumEngineVersion_mono (readFirst : parseSemver first = some a)
    (readSecond : parseSemver second = some b) (raised : NotNewer first second)
    {minimum : Option Text}
    (fits : (checkMinimumEngineVersion minimum (some { capabilities with engineVersion := first })
      options).Clean) :
    (checkMinimumEngineVersion minimum (some { capabilities with engineVersion := second })
      options).Clean := by
  unfold checkMinimumEngineVersion at fits ⊢
  cases found : minimum.filter fun version => (parseSemver version).isSome with
  | none => exact (Checked.not_clean_push _ (found ▸ fits)).elim
  | some version =>
    obtain ⟨c, read⟩ := Option.isSome_iff_exists.mp (Option.filter_eq_some_iff.mp found).2
    simp only [found, Checked.clean_pushIf, map_some, getD_some,
      compareSemver_eq readFirst read, compareSemver_eq readSecond read] at fits ⊢
    rw [notNewer_iff readFirst readSecond] at raised
    exact fun older => fits (Std.TransCmp.lt_of_isLE_of_lt raised older)

/-- The version of the engine is compared with the minimum of a pack, and nothing else is. -/
theorem packFits_mono (readFirst : parseSemver first = some a) (readSecond : parseSemver second = some b)
    (taken : fitsSafeUtf8 second 128 = true) (raised : NotNewer first second)
    {compatibility : JsValue} (fits : PackFits options capabilities compatibility first) :
    PackFits options capabilities compatibility second := by
  constructor
  · have read : (JsValue.get [(js "engineVersion", JsValue.string second)] (js "engineVersion")).text? =
      some second := rfl
    rw [capabilityVersion, read]
    simp only [taken, readSecond]
    rfl
  · have older := fits.2
    unfold validateCompatibility at older ⊢
    rw [Checked.clean_bind] at older ⊢
    refine ⟨older.1, ?_⟩
    cases found : (exactObject compatibility (js "$.compatibility") [js "configurationVersion",
      js "minimumEngineVersion", js "profileCatalogVersion", js "ruleRegistryVersion"] options).value with
    | none => exact Checked.clean_pure _
    | some record =>
      simp only [found, Checked.clean_bind] at older ⊢
      obtain ⟨-, present, configuration, catalog, minimum, registry⟩ := older
      exact ⟨present, configuration, catalog,
        checkMinimumEngineVersion_mono readFirst readSecond raised minimum, registry⟩

/-- The comparison of the policies is that of SemVer, whatever the lengths of the numerals are. It is a
total preorder, ties two versions exactly if at most their builds differ, and a pack takes a newer engine
where it takes an older one, if the newer version is one that engines may have. The trust store has the
same order on the versions that it reads. -/
theorem compareSemver_exact {first second third : Text} {a b c : Semver}
    (readFirst : parseSemver first = some a) (readSecond : parseSemver second = some b)
    (readThird : parseSemver third = some c) :
    compareSemver first second = some (precedence (versionOf a) (versionOf b)) ∧
    compareSemver second first = (compareSemver first second).map Ordering.swap ∧
    (compareSemver first second = some .eq ↔ a = b) ∧
    (NotNewer first second → NotNewer second third → NotNewer first third) ∧
    (fitsSafeUtf8 second 128 = true → NotNewer first second →
      ∀ options capabilities compatibility, PackFits options capabilities compatibility first →
        PackFits options capabilities compatibility second) ∧
    (byteLength first ≤ TufTrust.maxTufSemverBytes → byteLength second ≤ TufTrust.maxTufSemverBytes →
      (∀ order, compareSemver first second = some order →
        TufTrust.compareSemver first second = .ok order) ∧
      (byteLength third ≤ TufTrust.maxTufSemverBytes → NotNewer first second →
        TufTrust.checkEngine first third = .ok () → TufTrust.checkEngine second third = .ok ())) := by
  have readableA := readable_of_parseSemver readFirst
  have readableB := readable_of_parseSemver readSecond
  refine ⟨compareSemver_eq readFirst readSecond, ?_, ?_, ?_, ?_, ?_⟩
  · rw [compareSemver_eq readFirst readSecond, compareSemver_eq readSecond readFirst]
    exact congrArg some Std.OrientedCmp.eq_swap
  · rw [compareSemver_eq readFirst readSecond, Option.some.injEq]
    exact precedence_eq_eq readableA readableB
  · rw [notNewer_iff readFirst readSecond, notNewer_iff readSecond readThird,
      notNewer_iff readFirst readThird]
    exact Std.TransCmp.isLE_trans
  · exact fun taken raised options capabilities compatibility =>
      packFits_mono readFirst readSecond taken raised
  · intro shortFirst shortSecond
    constructor
    · intro order compared
      cases (compareSemver_eq readFirst readSecond).symm.trans compared
      exact tufCompareSemver_eq readFirst readSecond shortFirst shortSecond
    · rw [notNewer_iff readFirst readSecond]
      exact checkEngine_mono readFirst readSecond readThird shortFirst shortSecond

/-- What a pack asks for that fits every engine from 1.0.0-1 on. -/
def compatibilityFrom1 : JsValue := .object [
  (js "configurationVersion", .number (.integer 1)),
  (js "minimumEngineVersion", .string (js "1.0.0-1")),
  (js "profileCatalogVersion", .string profileCatalogContractVersion),
  (js "ruleRegistryVersion", .string (js "1.0.0"))]

instance (options : OrganizationPolicyLocationProvider) (capabilities : OrganizationPolicyCapabilities)
    (compatibility : JsValue) (engine : Text) :
    Decidable (PackFits options capabilities compatibility engine) :=
  inferInstanceAs (Decidable (_ ∧ _))

/-- 1.0.0-alpha.9, 1.0.0-alpha.10 and 1.0.0 are in this order for both. -/
theorem compareSemver_exact_alpha :
    NotNewer (js "1.0.0-alpha.9") (js "1.0.0") ∧
      PackFits noProvider ⟨[], [], js "1.0.0"⟩ compatibilityFrom1 (js "1.0.0-alpha.10") ∧
      TufTrust.compareSemver (js "1.0.0-alpha.9") (js "1.0.0-alpha.10") = .ok .lt := by
  have first : parseSemver (js "1.0.0-alpha.9") =
      some ⟨js "1", js "0", js "0", some (js "alpha.9")⟩ := by decide +kernel
  have second : parseSemver (js "1.0.0-alpha.10") =
      some ⟨js "1", js "0", js "0", some (js "alpha.10")⟩ := by decide +kernel
  have third : parseSemver (js "1.0.0") = some ⟨js "1", js "0", js "0", none⟩ := by decide +kernel
  have older : NotNewer (js "1.0.0-alpha.9") (js "1.0.0-alpha.10") := by decide +kernel
  rcases compareSemver_exact first second third with ⟨_, _, _, trans, pack, trust⟩
  exact ⟨trans older (by decide +kernel),
    pack (by decide) older noProvider ⟨[], [], js "1.0.0"⟩ compatibilityFrom1 (by decide +kernel),
    (trust (by decide +kernel) (by decide +kernel)).1 _ (by decide +kernel)⟩

/-- A prerelease of 300 digits. -/
def longVersion : Text := js "1.0.0-" ++ replicate 300 0x31

/-- The trust store refuses a valid version that the policies compare, and no pack takes it, though
it is newer than one that a pack takes. -/
theorem longVersion_refused : compareSemver longVersion longVersion = some .eq ∧
    TufTrust.compareSemver longVersion longVersion = .error
      (TufTrust.inputExceeds (js "$request.engineVersion") TufTrust.maxTufSemverBytes) ∧
    PackFits noProvider ⟨[], [], js "1.0.0"⟩ compatibilityFrom1 (js "1.0.0-1") ∧
    NotNewer (js "1.0.0-1") longVersion ∧
    ¬ PackFits noProvider ⟨[], [], js "1.0.0"⟩ compatibilityFrom1 longVersion := by
  refine ⟨?_, ?_, ?_, ?_, ?_⟩
  all_goals decide +kernel

end AgentContextLint.SemverPrecedence
