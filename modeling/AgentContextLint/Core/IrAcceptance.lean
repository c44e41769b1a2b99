import AgentContextLint.Core.IrValidation

/-!
# What the readers of instruction IR accept

A reader returns a value exactly if it has no issue. So what a validator without issues has read is
known (`validateSource_eq`), and a range with the true positions of its source is valid
(`validateSourceRange_of_true`).
-/

namespace AgentContextLint.IrValidation

open Utf16 Utf8 Sha256 Checked List
open SourceCoordinates (splitsPair truePosition)
open Option (filter_some isSome_iff_exists isSome_some map_some)
open JsValue (get isUndefined text?)

/-! ## Readers -/

section Readers

variable {record : Fields} {key : String} {path : Text} {message : String}
  {code : InstructionIrValidationCode}

@[simp] theorem clean_addIssue : ¬ (addIssue code path message).Clean := not_clean_push _

@[simp] theorem clean_addIssueIf {condition : Prop} [Decidable condition] :
    (addIssueIf condition code path message).Clean ↔ ¬ condition := clean_pushIf

variable {α : Type}

theorem value_requiredField {read : JsValue → Option α} (undefined : read .undefined = none) :
    (requiredField read message record key path).value = read (get record (js key)) := by
  unfold requiredField
  cases get record (js key) <;>
    first
    | exact undefined.symm
    | (simp only [isUndefined, Bool.false_eq_true, if_false]
       split
       · rename_i eq
         exact eq.symm
       · rename_i eq
         exact eq.symm)

theorem clean_requiredField {read : JsValue → Option α} (undefined : read .undefined = none) :
    (requiredField read message record key path).Clean ↔
      (read (get record (js key))).isSome := by
  unfold requiredField
  cases get record (js key) <;>
    first
    | (rw [undefined]
       exact iff_of_false (fun clean => absurd clean (cons_ne_nil _ _)) Bool.false_ne_true)
    | (simp only [isUndefined, Bool.false_eq_true, if_false]
       split
       · rename_i eq
         rw [eq]
         exact iff_of_true rfl rfl
       · rename_i eq
         rw [eq]
         exact iff_of_false (fun clean => absurd clean (cons_ne_nil _ _)) Bool.false_ne_true)

@[simp] theorem value_requiredString : (requiredString record key path).value =
    nonEmptyText? (get record (js key)) := value_requiredField rfl

@[simp] theorem clean_requiredString : (requiredString record key path).Clean ↔
    (nonEmptyText? (get record (js key))).isSome := clean_requiredField rfl

@[simp] theorem value_requiredText : (requiredText record key path).value =
    (get record (js key)).text? := value_requiredField rfl

@[simp] theorem clean_requiredText : (requiredText record key path).Clean ↔
    ((get record (js key)).text?).isSome := clean_requiredField rfl

@[simp] theorem value_requiredInteger : (requiredInteger record key path).value =
    safeNat? (get record (js key)) := value_requiredField rfl

@[simp] theorem clean_requiredInteger : (requiredInteger record key path).Clean ↔
    (safeNat? (get record (js key))).isSome := clean_requiredField rfl

@[simp] theorem value_requiredArray : (requiredArray record key path).value =
    array? (get record (js key)) := value_requiredField rfl

@[simp] theorem clean_requiredArray : (requiredArray record key path).Clean ↔
    (array? (get record (js key))).isSome := clean_requiredField rfl

def identifier? (value : JsValue) : Option Text :=
  (nonEmptyText? value).filter isStableIdentifier

@[simp] theorem value_requiredIdentifier : (requiredIdentifier record key path).value =
    identifier? (get record (js key)) := by
  unfold requiredIdentifier
  rw [value_bind, value_bind, value_pure, value_requiredString]
  rfl

@[simp] theorem clean_requiredIdentifier : (requiredIdentifier record key path).Clean ↔
    (identifier? (get record (js key))).isSome := by
  unfold requiredIdentifier identifier?
  simp only [clean_bind, clean_requiredString, clean_addIssueIf, value_requiredString, clean_pure,
    and_true]
  cases nonEmptyText? (get record (js key)) with
  | none => simp
  | some text => cases stable : isStableIdentifier text <;> simp [stable, Option.filter]

variable {allowed : List String}

@[simp] theorem value_enumString : (enumString record key path allowed).value =
    (nonEmptyText? (get record (js key))).filter ((allowed.map js).contains ·) := by
  unfold enumString
  rw [value_bind, value_requiredString]
  cases nonEmptyText? (get record (js key)) with
  | none => rfl
  | some text =>
    dsimp only
    split_ifs with known
    · rw [filter_some, if_pos known]
      rfl
    · rw [filter_some, if_neg known]

@[simp] theorem clean_enumString : (enumString record key path allowed).Clean ↔
      ((nonEmptyText? (get record (js key))).filter
        ((allowed.map js).contains ·)).isSome := by
  unfold enumString
  rw [clean_bind, clean_requiredString, value_requiredString]
  cases nonEmptyText? (get record (js key)) with
  | none => simp
  | some text =>
    dsimp only
    split_ifs with known
    · rw [filter_some, if_pos known]
      simp
    · rw [filter_some, if_neg known]
      simp [Clean]

variable {keys : List String}

theorem value_objectValue {value : JsValue} : (objectValue value path keys).value = match value with
      | .object fields => some fields
      | _ => none := by
  cases value <;> rfl

/-- An object with no other field than the permitted ones. -/
theorem clean_objectValue {value : JsValue} : (objectValue value path keys).Clean ↔
      ∃ fields, value = .object fields ∧ ∀ key ∈ JsValue.keys fields, key ∈ keys.map js := by
  cases value with
  | object fields =>
    unfold objectValue Clean
    rw [map_eq_nil_iff, filter_eq_nil_iff]
    simp
  | _ => exact iff_of_false (cons_ne_nil _ _) (by rintro ⟨fields, ⟨⟩, -⟩)

end Readers

/-! ## Sources -/

theorem identifier?_eq_some {value : JsValue} {id : Text} :
    identifier? value = some id ↔ value = .string id ∧ id ≠ [] ∧ isStableIdentifier id = true := by
  unfold identifier? nonEmptyText?
  cases value <;> simp [text?, Option.filter_eq_some_iff]

variable {n : Nat}

theorem safeNat?_le {value : JsValue} (read : safeNat? value = some n) : n ≤ maxSafeInteger := by
  unfold safeNat? at read
  split at read
  · split_ifs at read with safe
    obtain rfl := Option.some.inj read
    omega
  · obtain rfl := Option.some.inj read
    exact Nat.zero_le _
  · cases read

/-- What is known of the text of a source without issues. -/
structure SourceFacts.Sound (facts : SourceFacts) : Prop where
  id : isStableIdentifier facts.id = true
  nonempty : facts.id ≠ []
  wellFormed : wellFormed facts.text = true
  byteLength : byteLength facts.text ≤ maxSafeInteger
  utf16Length : facts.text.length ≤ maxSafeInteger
  positions : facts.positions = buildSourcePositionIndex facts.text

theorem validateSource_sound {value : JsValue} {path : Text} {facts : SourceFacts}
    (clean : (validateSource value path).Clean) (read : (validateSource value path).value = some facts) :
    facts.Sound := by
  unfold validateSource at clean read
  rw [clean_bind, clean_objectValue, value_objectValue] at clean
  obtain ⟨⟨record, rfl, -⟩, clean⟩ := clean
  simp only [clean_bind, clean_requiredInteger, clean_requiredText, value_bind, value_objectValue,
    value_requiredIdentifier, value_requiredString, value_requiredText, value_requiredInteger,
    value_enumString] at clean read
  obtain ⟨-, -, -, -, -, -, text, bytes, units, -, -, -, -, described, -⟩ := clean
  obtain ⟨text, textEq⟩ := isSome_iff_exists.mp text
  obtain ⟨bytes, bytesEq⟩ := isSome_iff_exists.mp bytes
  obtain ⟨units, unitsEq⟩ := isSome_iff_exists.mp units
  rw [textEq] at read
  simp only [textEq, bytesEq, unitsEq] at described
  split at read
  · rename_i id sourcePath text' rootNodeId idEq pathEq textEq' rootEq
    cases textEq'
    obtain rfl := Option.some.inj read
    obtain ⟨-, nonempty, stable⟩ := identifier?_eq_some.mp idEq
    have texts : (validateSourceText path text _).Clean := described
    simp only [validateSourceText, clean_bind, clean_addIssueIf, Option.any_some,
      decide_eq_true_eq, not_not, Bool.not_eq_false] at texts
    obtain ⟨wellFormed, bytesAre, unitsAre, -⟩ := texts
    exact ⟨stable, nonempty, wellFormed, bytesAre ▸ safeNat?_le bytesEq,
      unitsAre ▸ safeNat?_le unitsEq, rfl⟩
  · cases read

/-! ## Positions -/

section Index

variable {text : Text} (ok : wellFormed text = true)
include ok

open SourceCoordinates

theorem byteOffsets_buildSourcePositionIndex :
    (buildSourcePositionIndex text).byteOffsets = byteOffsets text := by
  refine byteOffsets_of_loop (fun _ => rfl) (fun b u rest plain => ?_)
    (fun b u v rest high low => ?_) ok
  · cases rest with
    | nil => rfl
    | cons v rest =>
      rw [byteOffsetsFrom, isHighSurrogate_of_plain plain, Bool.false_and,
        if_neg Bool.false_ne_true]
  · rw [byteOffsetsFrom, high, low, Bool.and_self, if_pos rfl]

theorem lineStarts_buildSourcePositionIndex :
    (buildSourcePositionIndex text).lineStarts = lineStarts text := by
  refine congrArg (0 :: ·) (terminatorEnds_of_loop (fun _ => rfl) (fun i u rest plain => ?_)
    (fun i u v rest high low => ?_) ok)
  · cases rest with
    | nil => simp [lineStartsFrom]
    | cons v rest =>
      rw [lineStartsFrom, isHighSurrogate_of_plain plain, Bool.false_and, if_neg Bool.false_ne_true]
      simp only [head?_cons, ne_eq, Option.some.injEq]
      split_ifs <;> rfl
  · rw [lineStartsFrom, high, low, Bool.and_self, if_pos rfl]

/-- The expected position is the true one, and there is none outside of the text and inside of
surrogate pairs. -/
theorem expectedPosition_eq (utf16Offset : Nat) :
    expectedPosition (buildSourcePositionIndex text) utf16Offset =
      if utf16Offset ≤ text.length ∧ splitsPair text utf16Offset = false then
        some (truePosition text utf16Offset)
      else none := by
  rw [expectedPosition, byteOffsets_buildSourcePositionIndex ok,
    lineStarts_buildSourcePositionIndex ok]
  by_cases inside : utf16Offset ≤ text.length
  · cases split : splitsPair text utf16Offset with
    | false =>
      rw [getElem?_byteOffsets inside split, bisect_lineStarts inside, if_pos ⟨inside, rfl⟩]
      dsimp only
      rw [getElem?_lineStarts inside]
      rfl
    | true =>
      have missing : (byteOffsets text)[utf16Offset]? = some none := by
        rw [byteOffsets, getElem?_map, getElem?_range (Nat.lt_succ_of_le inside),
          map_some, byteOffsetAt, split, if_pos rfl]
      rw [missing, if_neg fun holds => Bool.false_ne_true holds.2.symm]
  · have outside : (byteOffsets text)[utf16Offset]? = none := by
      rw [getElem?_eq_none_iff, byteOffsets, length_map, length_range]
      omega
    rw [outside, if_neg fun holds => inside holds.1]

end Index

variable {path : Text} {facts : SourceFacts} {value : JsValue} {range : SourceRange}

/-! ## Ranges as values -/

def natValue (n : Nat) : JsValue := .number (.integer n)

def positionFields (position : SourcePosition) : Fields :=
  [(js "byteOffset", natValue position.byteOffset), (js "utf16Offset", natValue position.utf16Offset),
    (js "line", natValue position.line), (js "utf16Column", natValue position.utf16Column)]

def PositionValue (value : JsValue) (position : SourcePosition) : Prop :=
  ∃ fields, value = .object fields ∧ fields.Perm (positionFields position)

/-- A plain object with the fields of a range, in any order. -/
def RangeValue (value : JsValue) (range : SourceRange) : Prop :=
  ∃ fields start stop, value = .object fields ∧
    fields.Perm [(js "sourceId", .string range.sourceId), (js "start", start), (js "end", stop)] ∧
    PositionValue start range.start ∧ PositionValue stop range.stop

theorem safeNat?_natValue (small : n ≤ maxSafeInteger) : safeNat? (natValue n) = some n := by
  unfold safeNat? natValue
  dsimp only
  rw [if_pos ⟨Int.natCast_nonneg n, Int.ofNat_le.mpr small⟩, Int.toNat_natCast]

/-- All coordinates of the position are safe integers. -/
structure SafePosition (position : SourcePosition) : Prop where
  byteOffset : position.byteOffset ≤ maxSafeInteger
  utf16Offset : position.utf16Offset ≤ maxSafeInteger
  line : position.line ≤ maxSafeInteger
  utf16Column : position.utf16Column ≤ maxSafeInteger

theorem SourceFacts.Sound.safePosition (sound : facts.Sound)
    {utf16Offset : Nat} (inside : utf16Offset ≤ facts.text.length)
    (whole : splitsPair facts.text utf16Offset = false) :
    SafePosition (truePosition facts.text utf16Offset) where
  byteOffset := Nat.le_trans (SourceCoordinates.byteLength_take_le_length sound.wellFormed whole)
    sound.byteLength
  utf16Offset := Nat.le_trans inside sound.utf16Length
  line := Nat.le_trans (SourceCoordinates.length_terminatorEnds_le _ _)
    (Nat.le_trans inside sound.utf16Length)
  utf16Column := Nat.le_trans (Nat.sub_le _ _) (Nat.le_trans inside sound.utf16Length)

variable {fields : Fields}

theorem get_of_perm {fields' : Fields} (perm : fields.Perm fields')
    (nodup : (JsValue.keys fields').Nodup) {key : Text} (member : (key, value) ∈ fields') :
    get fields key = value :=
  JsValue.get_of_mem ((perm.map _).nodup_iff.mpr nodup) (perm.mem_iff.mpr member)

variable {position : SourcePosition}

theorem validatePosition_of_true {positions : SourcePositionIndex}
    (represents : PositionValue value position) (safe : SafePosition position)
    (expected : expectedPosition positions position.utf16Offset = some position) :
    (validatePosition value path (some positions)).Clean ∧
      (validatePosition value path (some positions)).value = some position := by
  obtain ⟨fields, rfl, perm⟩ := represents
  have nodup : (JsValue.keys (positionFields position)).Nodup := by
    change [js "byteOffset", js "utf16Offset", js "line", js "utf16Column"].Nodup
    decide
  have byteOffset : get fields (js "byteOffset") = natValue position.byteOffset :=
    get_of_perm perm nodup (by simp [positionFields])
  have utf16Offset : get fields (js "utf16Offset") = natValue position.utf16Offset :=
    get_of_perm perm nodup (by simp [positionFields])
  have line : get fields (js "line") = natValue position.line :=
    get_of_perm perm nodup (by simp [positionFields])
  have utf16Column : get fields (js "utf16Column") = natValue position.utf16Column :=
    get_of_perm perm nodup (by simp [positionFields])
  have permitted : ∀ key ∈ JsValue.keys fields,
      key ∈ ["byteOffset", "utf16Offset", "line", "utf16Column"].map js := fun key member =>
    (perm.map _).mem_iff.mp member
  have checked : (checkPosition positions position path).Clean := by
    rw [checkPosition, expected]
    simp
  unfold validatePosition
  simp only [clean_bind, clean_objectValue, value_bind, value_objectValue, clean_requiredInteger,
    value_requiredInteger, byteOffset, utf16Offset, line, utf16Column,
    safeNat?_natValue safe.byteOffset, safeNat?_natValue safe.utf16Offset,
    safeNat?_natValue safe.line, safeNat?_natValue safe.utf16Column, isSome_some, true_and,
    value_pure, clean_pure, and_true]
  exact ⟨⟨fields, rfl, permitted⟩, checked⟩

theorem validateRange_of_true {sources : Sources} (represents : RangeValue value range)
    (known : sources.get? range.sourceId = some facts)
    (stable : isStableIdentifier range.sourceId = true) (nonempty : range.sourceId ≠ [])
    (safeStart : SafePosition range.start) (safeStop : SafePosition range.stop)
    (start : expectedPosition facts.positions range.start.utf16Offset = some range.start)
    (stop : expectedPosition facts.positions range.stop.utf16Offset = some range.stop) :
    ((validateRange value path sources).Clean ↔ range.start.utf16Offset ≤ range.stop.utf16Offset ∧
        range.start.byteOffset ≤ range.stop.byteOffset) ∧
      (validateRange value path sources).value = some range := by
  obtain ⟨fields, first, last, rfl, perm, isFirst, isLast⟩ := represents
  have nodup : (JsValue.keys [(js "sourceId", .string range.sourceId), (js "start", first),
      (js "end", last)]).Nodup := by
    change [js "sourceId", js "start", js "end"].Nodup
    decide
  have sourceId : get fields (js "sourceId") = .string range.sourceId :=
    get_of_perm perm nodup (by simp)
  have startIs : get fields (js "start") = first := get_of_perm perm nodup (by simp)
  have stopIs : get fields (js "end") = last := get_of_perm perm nodup (by simp)
  have permitted : ∀ key ∈ JsValue.keys fields, key ∈ ["sourceId", "start", "end"].map js :=
    fun key member => (perm.map _).mem_iff.mp member
  have isId : identifier? (.string range.sourceId) = some range.sourceId :=
    identifier?_eq_some.mpr ⟨rfl, nonempty, stable⟩
  obtain ⟨firstClean, firstValue⟩ :
      (validatePosition first (fieldPath path "start") (some facts.positions)).Clean ∧ _ :=
    validatePosition_of_true isFirst safeStart start
  obtain ⟨lastClean, lastValue⟩ :
      (validatePosition last (fieldPath path "end") (some facts.positions)).Clean ∧ _ :=
    validatePosition_of_true isLast safeStop stop
  have firstThere : first.isUndefined = false := by obtain ⟨_, rfl, -⟩ := isFirst; rfl
  have lastThere : last.isUndefined = false := by obtain ⟨_, rfl, -⟩ := isLast; rfl
  unfold validateRange requiredPosition
  simp only [clean_bind, clean_objectValue, value_bind, value_objectValue, clean_requiredIdentifier,
    value_requiredIdentifier, clean_addIssueIf, sourceId, startIs, stopIs, isId, Option.bind_some,
    known, map_some, firstThere, lastThere, Bool.false_eq_true, if_false, firstValue, lastValue,
    isSome_some, Option.isNone_some, true_and, and_false, not_false_eq_true, value_pure,
    clean_pure, and_true, firstClean, lastClean]
  refine ⟨fun ordered => by omega, fun ordered => ⟨⟨fields, rfl, permitted⟩, by omega⟩⟩

/-! ## The JSON boundary -/

variable {depth : Nat}

theorem jsonFieldIssues_eq_nil : jsonFieldIssues path depth fields = [] ↔
      ∀ field ∈ fields, jsonIssues (path ++ js "." ++ field.1) (depth + 1) field.2 = [] := by
  induction fields with
  | nil => simp [jsonFieldIssues]
  | cons field rest ih =>
    rw [jsonFieldIssues, append_eq_nil_iff, ih, forall_mem_cons]

theorem jsonIssues_object (shallow : depth < maxJsonNestingDepth) :
    jsonIssues path depth (.object fields) = [] ↔
      ∀ field ∈ fields, jsonIssues (path ++ js "." ++ field.1) (depth + 1) field.2 = [] := by
  rw [jsonIssues, if_neg (Nat.not_le.mpr shallow), jsonFieldIssues_eq_nil]

theorem jsonIssues_natValue (path : Text) (depth n : Nat) :
    jsonIssues path depth (natValue n) = [] := by
  rw [natValue, jsonIssues]

theorem jsonIssues_positionValue (shallow : depth < maxJsonNestingDepth)
    (represents : PositionValue value position) : jsonIssues path depth value = [] := by
  obtain ⟨fields, rfl, perm⟩ := represents
  refine (jsonIssues_object shallow).mpr fun field member => ?_
  have listed := perm.mem_iff.mp member
  simp only [positionFields, mem_cons, not_mem_nil, or_false] at listed
  rcases listed with rfl | rfl | rfl | rfl <;> exact jsonIssues_natValue _ _ _

theorem jsonIssues_rangeValue
    (represents : RangeValue value range) : jsonIssues path 0 value = [] := by
  obtain ⟨fields, first, last, rfl, perm, isFirst, isLast⟩ := represents
  refine (jsonIssues_object (by decide)).mpr fun field member => ?_
  have listed := perm.mem_iff.mp member
  simp only [mem_cons, not_mem_nil, or_false] at listed
  rcases listed with rfl | rfl | rfl
  · rw [jsonIssues]
  · exact jsonIssues_positionValue (by decide) isFirst
  · exact jsonIssues_positionValue (by decide) isLast

/-! ## A range by itself -/

/-- A source that the validator of ranges has nothing to say about. -/
structure AcceptedSource (source : JsValue) (facts : SourceFacts) : Prop where
  json : jsonIssues (js "$.source") 0 source = []
  clean : (validateSource source (js "$.source")).Clean
  read : (validateSource source (js "$.source")).value = some facts

variable {source : JsValue}

theorem AcceptedSource.sound (accepted : AcceptedSource source facts) : facts.Sound :=
  validateSource_sound accepted.clean accepted.read

/-- Between true positions of the source, a range is valid if they are in order. -/
theorem validateSourceRange_of_true {value : JsValue} (accepted : AcceptedSource source facts)
    (represents : RangeValue value range) (ofSource : range.sourceId = facts.id)
    (safeStart : SafePosition range.start) (safeStop : SafePosition range.stop)
    (start : expectedPosition facts.positions range.start.utf16Offset = some range.start)
    (stop : expectedPosition facts.positions range.stop.utf16Offset = some range.stop) :
    validateSourceRange source value = .ok value ↔
      range.start.utf16Offset ≤ range.stop.utf16Offset ∧
        range.start.byteOffset ≤ range.stop.byteOffset := by
  have sound := accepted.sound
  have known : (singleSource (some facts)).get? range.sourceId = some facts := by
    rw [singleSource, OrderedMap.get?_set, if_pos ofSource.symm]
  obtain ⟨clean, read⟩ : ((validateRange value (js "$.range") (singleSource (some facts))).Clean ↔
      _) ∧ _ :=
    validateRange_of_true represents known (ofSource ▸ sound.id) (ofSource ▸ sound.nonempty)
      safeStart safeStop start stop
  have result : validateSourceRangeValue source value =
      validateSource source (js "$.source") >>= fun facts =>
        validateRange value (js "$.range") (singleSource facts) := by
    rw [validateSourceRangeValue, accepted.json, jsonIssues_rangeValue represents]
    rfl
  have issues : (validateSourceRangeValue source value).issues = [] ↔
      (validateRange value (js "$.range") (singleSource (some facts))).Clean := by
    change (validateSourceRangeValue source value).Clean ↔ _
    rw [result, clean_bind, accepted.read]
    exact and_iff_right accepted.clean
  have there : (validateSourceRangeValue source value).value.isSome := by
    rw [result, value_bind, accepted.read, read]
    rfl
  rw [← clean, ← issues, validateSourceRange]
  split_ifs with ok
  · exact iff_of_true rfl ok.1
  · exact iff_of_false (fun eq => by cases eq) fun none => ok ⟨none, there⟩

/-- What a parser with the true positions builds is valid where the end is not in front of the
start. -/
theorem validateSourceRange_truePositions {source value : JsValue}
    {start stop : Nat} (accepted : AcceptedSource source facts)
    (startInside : start ≤ facts.text.length) (stopInside : stop ≤ facts.text.length)
    (startWhole : splitsPair facts.text start = false)
    (stopWhole : splitsPair facts.text stop = false)
    (represents : RangeValue value {
      sourceId := facts.id
      start := truePosition facts.text start
      stop := truePosition facts.text stop }) :
    validateSourceRange source value = .ok value ↔ start ≤ stop := by
  have sound := accepted.sound
  have expected : ∀ offset ≤ facts.text.length,
      splitsPair facts.text offset = false →
        expectedPosition facts.positions offset =
          some (truePosition facts.text offset) := fun offset inside whole => by
    rw [sound.positions, expectedPosition_eq sound.wellFormed, if_pos ⟨inside, whole⟩]
  rw [validateSourceRange_of_true accepted represents rfl (sound.safePosition startInside startWhole)
    (sound.safePosition stopInside stopWhole) (expected start startInside startWhole)
    (expected stop stopInside stopWhole)]
  exact and_iff_left_of_imp fun order =>
    SourceCoordinates.byteLength_take_le sound.wellFormed startWhole order

end AgentContextLint.IrValidation
