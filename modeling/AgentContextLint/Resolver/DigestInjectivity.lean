import AgentContextLint.Resolver.CanonicalDigest

/-!
# What a canonical digest determines

The bytes of a digest are a list of frames, and the frames are a prefix code of the value with its keys
sorted (`frames_append_inj`): a tag tells the kind, a count how much belongs to an array or an object.

Texts are only hashed when they are well formed, so that their bytes determine them. Keys are hashed in
any case. So the digest is injective exactly on the values whose keys have distinct bytes
(`canonicalBytes_injective_iff`).
-/

namespace AgentContextLint.CanonicalDigest

open Utf16 Utf8 Sorting Metered List
open Netstring (decimalText digits digits_lt encode_decimalText)

/-! ## Frames -/

/-- A tag and the bytes that it stands before. -/
abbrev Frame := UInt8 × List UInt8

def frameBytes (piece : Frame) : List UInt8 := piece.1 :: 0x3a :: Netstring.frame piece.2

theorem flatMap_frameBytes_injective {first second : List Frame}
    (same : first.flatMap frameBytes = second.flatMap frameBytes) : first = second := by
  induction first generalizing second with
  | nil =>
    cases second with
    | nil => rfl
    | cons piece second => cases same
  | cons piece first ih =>
    cases second with
    | nil => cases same
    | cons other second =>
      rw [flatMap_cons, flatMap_cons, frameBytes, frameBytes, cons_append,
        cons_append, cons_append, cons_append, cons.injEq, cons.injEq] at same
      rcases same with ⟨tags, _, rest⟩
      rcases Netstring.frame_append_inj rest with ⟨bytes, later⟩
      rw [ih later, Prod.ext tags bytes]

section Code

variable (numbers : NumberTexts)

mutual

/-- The frames of a value whose keys are sorted. -/
def frames : DigestValue → List Frame
  | .null => [(0x6e, [])]
  | .boolean value => [(0x62, encode (if value then js "1" else js "0"))]
  | .number value => [(0x64, encode (numbers.text value))]
  | .string text => [(0x73, encode text)]
  | .array items =>
    (0x61, encode (decimalText items.length)) ::
      (framesOfItems items ++ [(0x7a, encode (js "a"))])
  | .object fields =>
    (0x6f, encode (decimalText fields.length)) ::
      (framesOfFields fields ++ [(0x7a, encode (js "o"))])
  | .flawedArray _ _ => []
  | .flawed _ => []

def framesOfItems : List DigestValue → List Frame
  | [] => []
  | item :: rest => frames item ++ framesOfItems rest

def framesOfFields : List (Text × DigestValue) → List Frame
  | [] => []
  | (key, value) :: rest => (0x6b, encode key) :: (frames value ++ framesOfFields rest)

end

end Code

/-! ## What is accepted -/

mutual

/-- A value without flaws, with finite numbers and well-formed texts. -/
def Accepted : DigestValue → Prop
  | .null => True
  | .boolean _ => True
  | .number value => value.isFinite = true ∧ value ≠ Double.negativeZero
  | .string text => wellFormed text = true
  | .array items => AcceptedItems items
  | .object fields => AcceptedFields fields
  | .flawedArray _ _ => False
  | .flawed _ => False

def AcceptedItems : List DigestValue → Prop
  | [] => True
  | item :: rest => Accepted item ∧ AcceptedItems rest

def AcceptedFields : List (Text × DigestValue) → Prop
  | [] => True
  | (_, value) :: rest => Accepted value ∧ AcceptedFields rest

end

section Visit

variable {numbers : NumberTexts} {limits : CanonicalLimits} {state next : DigestState}

@[simp] theorem hashed_hash (state : DigestState) (tag : UInt8) (value : Text) :
    (state.hash tag value).hashed = state.hashed ++ frameBytes (tag, encode value) := rfl

theorem enter_eq_ok (entered : enter limits state = .ok next) : next.hashed = state.hashed := by
  rw [enter, check_bind_eq_ok] at entered
  cases entered.2
  rfl

def Hashes (state next : DigestState) (pieces : List Frame) : Prop :=
  next.hashed = state.hashed ++ pieces.flatMap frameBytes

theorem Hashes.of_hash {state entered : DigestState} {tag : UInt8} {value : Text}
    (same : entered.hashed = state.hashed) :
    Hashes state (entered.hash tag value) [(tag, encode value)] := by
  rw [Hashes, hashed_hash, same, flatMap_singleton]

theorem visitNumber_eq_ok {value : Double} (visited : visitNumber numbers value state = .ok next) :
    next = state.hash 0x64 (numbers.text value) ∧
      value.isFinite = true ∧ value ≠ Double.negativeZero := by
  rw [visitNumber, check_bind_eq_ok, refuseIf_eq_ok, not_or, not_not] at visited
  rcases visited with ⟨valid, made⟩
  cases made
  exact ⟨rfl, valid⟩

theorem visitString_eq_ok {text : Text} (visited : visitString limits text state = .ok next) :
    next.hashed = state.hashed ++ frameBytes (0x73, encode text) ∧ wellFormed text = true := by
  rw [visitString, check_bind_eq_ok] at visited
  rcases visited with ⟨checked, rest⟩
  rw [wellFormedText, check_bind_eq_ok, refuseIf_eq_ok, Bool.not_eq_false] at checked
  rw [check_bind_eq_ok] at rest
  cases rest.2
  exact ⟨rfl, checked.1⟩

mutual

theorem visit_eq_ok (value : DigestValue) {state next : DigestState}
    (visited : visit numbers limits value state = .ok next) :
    Hashes state next (frames numbers value) ∧ Accepted value := by
  cases value with
  | null =>
    rw [visit, bind_eq_ok] at visited
    rcases visited with ⟨entered, ran, made⟩
    cases made
    exact ⟨.of_hash (enter_eq_ok ran), trivial⟩
  | boolean value =>
    rw [visit, bind_eq_ok] at visited
    rcases visited with ⟨entered, ran, made⟩
    cases made
    exact ⟨.of_hash (enter_eq_ok ran), trivial⟩
  | number value =>
    rw [visit, bind_eq_ok] at visited
    rcases visited with ⟨entered, ran, made⟩
    rcases visitNumber_eq_ok made with ⟨rfl, valid⟩
    exact ⟨.of_hash (enter_eq_ok ran), valid⟩
  | string text =>
    rw [visit, bind_eq_ok] at visited
    rcases visited with ⟨entered, ran, made⟩
    rcases visitString_eq_ok made with ⟨hashed, valid⟩
    refine ⟨?_, valid⟩
    rw [Hashes, hashed, enter_eq_ok ran, frames, flatMap_singleton]
  | array items =>
    rw [visit, bind_eq_ok] at visited
    rcases visited with ⟨entered, ran, rest⟩
    rw [check_bind_eq_ok, bind_eq_ok] at rest
    rcases rest with ⟨_, inner, visitedItems, made⟩
    cases made
    rcases visitItems_eq_ok items visitedItems with ⟨hashed, accepted⟩
    refine ⟨?_, accepted⟩
    rw [Hashes, hashed_hash, hashed, hashed_hash, enter_eq_ok ran, frames]
    simp
  | object fields =>
    rw [visit, bind_eq_ok] at visited
    rcases visited with ⟨entered, ran, rest⟩
    rw [bind_eq_ok] at rest
    rcases rest with ⟨inner, visitedFields, made⟩
    cases made
    rcases visitFields_eq_ok fields visitedFields with ⟨hashed, accepted⟩
    refine ⟨?_, accepted⟩
    rw [Hashes, hashed_hash, hashed, hashed_hash, enter_eq_ok ran, frames]
    simp
  | flawedArray length flaw =>
    rw [visit, bind_eq_ok] at visited
    rcases visited with ⟨_, _, made⟩
    cases made
  | flawed flaw =>
    rw [visit, bind_eq_ok] at visited
    rcases visited with ⟨_, _, made⟩
    cases made

theorem visitItems_eq_ok (items : List DigestValue) {state next : DigestState}
    (visited : visitItems numbers limits items state = .ok next) :
    Hashes state next (framesOfItems numbers items) ∧ AcceptedItems items := by
  cases items with
  | nil =>
    cases visited
    exact ⟨(append_nil _).symm, trivial⟩
  | cons item rest =>
    rw [visitItems, bind_eq_ok] at visited
    rcases visited with ⟨between, first, later⟩
    rcases visit_eq_ok item first with ⟨hashed, accepted⟩
    rcases visitItems_eq_ok rest later with ⟨hashedRest, acceptedRest⟩
    refine ⟨?_, accepted, acceptedRest⟩
    rw [Hashes, hashedRest, hashed, framesOfItems, flatMap_append, append_assoc]

theorem visitFields_eq_ok (fields : List (Text × DigestValue)) {state next : DigestState}
    (visited : visitFields numbers limits fields state = .ok next) :
    Hashes state next (framesOfFields numbers fields) ∧ AcceptedFields fields := by
  cases fields with
  | nil =>
    cases visited
    exact ⟨(append_nil _).symm, trivial⟩
  | cons field rest =>
    rcases field with ⟨key, value⟩
    rw [visitFields, check_bind_eq_ok, bind_eq_ok] at visited
    rcases visited with ⟨_, between, first, later⟩
    rcases visit_eq_ok value first with ⟨hashed, accepted⟩
    rcases visitFields_eq_ok rest later with ⟨hashedRest, acceptedRest⟩
    refine ⟨?_, accepted, acceptedRest⟩
    rw [Hashes, hashedRest, hashed, hashed_hash, framesOfFields, flatMap_cons,
      flatMap_append, append_assoc, append_assoc]

end

end Visit

/-! ## Objects -/

mutual

/-- The objects of a value have distinct keys, which are all among some. -/
def KeysIn (allowed : Text → Prop) : DigestValue → Prop
  | .array items => KeysInItems allowed items
  | .object fields => (fields.map (·.1)).Nodup ∧ KeysInFields allowed fields
  | .null => True
  | .boolean _ => True
  | .number _ => True
  | .string _ => True
  | .flawedArray _ _ => True
  | .flawed _ => True

def KeysInItems (allowed : Text → Prop) : List DigestValue → Prop
  | [] => True
  | item :: rest => KeysIn allowed item ∧ KeysInItems allowed rest

def KeysInFields (allowed : Text → Prop) : List (Text × DigestValue) → Prop
  | [] => True
  | (key, value) :: rest => allowed key ∧ KeysIn allowed value ∧ KeysInFields allowed rest

end

/-- Two values are the same data, up to the order of the keys of objects. -/
def Same (value other : DigestValue) : Prop :=
  sortKeys compareUnits value = sortKeys compareUnits other

section Unique

variable {numbers : NumberTexts} {allowed : Text → Prop} {x y : List Frame}

theorem encode_number_injective {x y : Double} (validX : x.isFinite = true ∧ x ≠ Double.negativeZero)
    (validY : y.isFinite = true ∧ y ≠ Double.negativeZero)
    (same : encode (numbers.text x) = encode (numbers.text y)) : x = y := by
  have texts := encode_injective (numbers.wellFormed_text x) (numbers.wellFormed_text y) same
  rw [← numbers.number_text x validX.1 validX.2, texts, numbers.number_text y validY.1 validY.2]

theorem encode_count_injective {m n : Nat}
    (same : encode (decimalText m) = encode (decimalText n)) : m = n := by
  rw [encode_decimalText, encode_decimalText] at same
  exact Netstring.decimal_injective same

/-- Frames with different tags are different. -/
theorem tags_of_cons {tag tag' : UInt8} {bytes bytes' : List UInt8}
    (same : (tag, bytes) :: x = (tag', bytes') :: y) : tag = tag' ∧ bytes = bytes' ∧ x = y := by
  rw [cons.injEq, Prod.mk.injEq] at same
  exact ⟨same.1.1, same.1.2, same.2⟩

/-- The tag of a value's first frame. -/
def tagOf : DigestValue → UInt8
  | .null => 0x6e
  | .boolean _ => 0x62
  | .number _ => 0x64
  | .string _ => 0x73
  | .array _ => 0x61
  | .object _ => 0x6f
  | .flawedArray _ _ => 0
  | .flawed _ => 0

variable (numbers) in
theorem frames_head {value : DigestValue} (accepted : Accepted value) :
    ∃ bytes rest, frames numbers value = (tagOf value, bytes) :: rest := by
  cases value with
  | flawedArray length flaw => cases accepted
  | flawed flaw => cases accepted
  | _ => exact ⟨_, _, rfl⟩

theorem tagOf_eq {value other : DigestValue} (accepted : Accepted value) (acceptedOther : Accepted other) (same : frames numbers value ++ x = frames numbers other ++ y) :
    tagOf value = tagOf other := by
  rcases frames_head numbers accepted with ⟨bytes, rest, first⟩
  rcases frames_head numbers acceptedOther with ⟨bytes', rest', second⟩
  rw [first, second] at same
  exact (tags_of_cons same).1

/-- The bytes of these texts determine them. -/
def Distinct (allowed : Text → Prop) : Prop :=
  ∀ first second, allowed first → allowed second → encode first = encode second → first = second

mutual

/-- A value is read off in front of whatever follows its frames. -/
theorem frames_append_inj (apart : Distinct allowed) (value other : DigestValue) (accepted : Accepted value)
    (acceptedOther : Accepted other) (keys : KeysIn allowed value) (keysOther : KeysIn allowed other)
    {x y : List Frame} (same : frames numbers value ++ x = frames numbers other ++ y) :
    value = other ∧ x = y := by
  have tags := tagOf_eq accepted acceptedOther same
  cases value with
  | null =>
    cases other with
    | null => exact ⟨rfl, (tags_of_cons same).2.2⟩
    | _ => simp [tagOf] at tags
  | boolean value =>
    cases other with
    | boolean other =>
      rcases tags_of_cons same with ⟨_, bytes, rest⟩
      refine ⟨congrArg _ ?_, rest⟩
      revert bytes
      cases value <;> cases other <;> decide
    | _ => simp [tagOf] at tags
  | number value =>
    cases other with
    | number other =>
      rcases tags_of_cons same with ⟨_, bytes, rest⟩
      exact ⟨congrArg _ (encode_number_injective accepted acceptedOther bytes), rest⟩
    | _ => simp [tagOf] at tags
  | string text =>
    cases other with
    | string other =>
      rcases tags_of_cons same with ⟨_, bytes, rest⟩
      exact ⟨congrArg _ (encode_injective accepted acceptedOther bytes), rest⟩
    | _ => simp [tagOf] at tags
  | array items =>
    cases other with
    | array others =>
      rw [frames, frames, cons_append, cons_append, append_assoc, append_assoc] at same
      rcases tags_of_cons same with ⟨_, counts, rest⟩
      rcases framesOfItems_append_inj apart items others (encode_count_injective counts) accepted
        acceptedOther keys keysOther rest with ⟨rfl, closed⟩
      exact ⟨rfl, (tags_of_cons closed).2.2⟩
    | _ => simp [tagOf] at tags
  | object fields =>
    cases other with
    | object others =>
      rw [frames, frames, cons_append, cons_append, append_assoc, append_assoc] at same
      rcases tags_of_cons same with ⟨_, counts, rest⟩
      rcases framesOfFields_append_inj apart fields others (encode_count_injective counts) accepted
        acceptedOther keys.2 keysOther.2 rest with ⟨rfl, closed⟩
      exact ⟨rfl, (tags_of_cons closed).2.2⟩
    | _ => simp [tagOf] at tags
  | flawedArray length flaw => cases accepted
  | flawed flaw => cases accepted

theorem framesOfItems_append_inj (apart : Distinct allowed) (items others : List DigestValue)
    (length : items.length = others.length)
    (accepted : AcceptedItems items) (acceptedOthers : AcceptedItems others)
    (keys : KeysInItems allowed items) (keysOthers : KeysInItems allowed others) {x y : List Frame}
    (same : framesOfItems numbers items ++ x = framesOfItems numbers others ++ y) :
    items = others ∧ x = y := by
  cases items with
  | nil =>
    cases others with
    | nil => exact ⟨rfl, same⟩
    | cons other others => cases length
  | cons item items =>
    cases others with
    | nil => cases length
    | cons other others =>
      rw [framesOfItems, framesOfItems, append_assoc, append_assoc] at same
      rcases frames_append_inj apart item other accepted.1 acceptedOthers.1 keys.1 keysOthers.1 same with
        ⟨rfl, later⟩
      rcases framesOfItems_append_inj apart items others (Nat.succ.inj length) accepted.2
        acceptedOthers.2 keys.2 keysOthers.2 later with ⟨rfl, tail⟩
      exact ⟨rfl, tail⟩

theorem framesOfFields_append_inj (apart : Distinct allowed)
    (fields others : List (Text × DigestValue))
    (length : fields.length = others.length) (accepted : AcceptedFields fields)
    (acceptedOthers : AcceptedFields others) (keys : KeysInFields allowed fields)
    (keysOthers : KeysInFields allowed others) {x y : List Frame}
    (same : framesOfFields numbers fields ++ x = framesOfFields numbers others ++ y) :
    fields = others ∧ x = y := by
  cases fields with
  | nil =>
    cases others with
    | nil => exact ⟨rfl, same⟩
    | cons other others => cases length
  | cons field fields =>
    rcases field with ⟨key, value⟩
    cases others with
    | nil => cases length
    | cons other others =>
      rcases other with ⟨otherKey, other⟩
      rw [framesOfFields, framesOfFields, cons_append, cons_append, append_assoc,
        append_assoc] at same
      rcases tags_of_cons same with ⟨_, bytes, rest⟩
      cases apart key otherKey keys.1 keysOthers.1 bytes
      rcases frames_append_inj apart value other accepted.1 acceptedOthers.1 keys.2.1 keysOthers.2.1 rest
        with ⟨rfl, later⟩
      rcases framesOfFields_append_inj apart fields others (Nat.succ.inj length) accepted.2
        acceptedOthers.2 keys.2.2 keysOthers.2.2 later with ⟨rfl, tail⟩
      exact ⟨rfl, tail⟩

end

end Unique

/-! ## Sorted keys -/

section Keys

variable {allowed : Text → Prop} {cmp other : Text → Text → Ordering}
  (fields : List (Text × DigestValue))

theorem sortFields_eq_map :
    sortFields cmp fields = fields.map fun field => (field.1, sortKeys cmp field.2) := by
  induction fields with
  | nil => rfl
  | cons field rest ih => rw [sortFields, ih, map_cons]

theorem keysInFields_iff {fields : List (Text × DigestValue)} :
    KeysInFields allowed fields ↔ ∀ field ∈ fields, allowed field.1 ∧ KeysIn allowed field.2 := by
  induction fields with
  | nil => exact iff_of_true trivial fun field member => (by cases member)
  | cons field rest ih => rw [KeysInFields, ih, forall_mem_cons, and_assoc]

theorem keys_sortBy_sortFields :
    ((sortBy (comparingWith cmp (·.1)) (sortFields other fields)).map (·.1)).Perm
      (fields.map (·.1)) := by
  have keys : (sortFields other fields).map (·.1) = fields.map (·.1) := by
    rw [sortFields_eq_map, map_map]
    rfl
  rw [← keys]
  exact (sortBy_perm _ _).map _

mutual

theorem KeysIn.sortKeys (value : DigestValue) (keys : KeysIn allowed value) :
    KeysIn allowed (CanonicalDigest.sortKeys cmp value) := by
  cases value with
  | array items =>
    exact keysInItems_sortItems items keys
  | object fields =>
    rw [CanonicalDigest.sortKeys]
    refine ⟨(keys_sortBy_sortFields fields).nodup_iff.mpr keys.1, keysInFields_iff.mpr ?_⟩
    intro field member
    exact keysInFields_iff.mp (keysInFields_sortFields fields keys.2) field ((mem_sortBy _).mp member)
  | null => trivial
  | boolean value => trivial
  | number value => trivial
  | string text => trivial
  | flawedArray length flaw => trivial
  | flawed flaw => trivial

theorem keysInItems_sortItems (items : List DigestValue) (keys : KeysInItems allowed items) :
    KeysInItems allowed (sortItems cmp items) := by
  cases items with
  | nil => trivial
  | cons item rest => exact ⟨KeysIn.sortKeys item keys.1, keysInItems_sortItems rest keys.2⟩

theorem keysInFields_sortFields (fields : List (Text × DigestValue))
    (keys : KeysInFields allowed fields) : KeysInFields allowed (sortFields cmp fields) := by
  cases fields with
  | nil => trivial
  | cons field rest =>
    exact ⟨keys.1, KeysIn.sortKeys field.2 keys.2.1, keysInFields_sortFields rest keys.2.2⟩

end

/-- Entries with distinct keys are told apart by them. -/
theorem ties_of_nodup {fields : List (Text × DigestValue)} (distinct : (fields.map (·.1)).Nodup) :
    ∀ x ∈ fields, ∀ y ∈ fields, comparingWith compareUnits (·.1) x y = .eq → x = y :=
  fun _ inFields _ inFields' same =>
    inj_on_of_nodup_map distinct inFields inFields' (compareUnits_eq_iff.mp same)

mutual

/-- Sorting the keys another way before makes no difference. -/
theorem sortKeys_sortKeys (value : DigestValue) (keys : KeysIn allowed value) :
    sortKeys compareUnits (sortKeys cmp value) = sortKeys compareUnits value := by
  cases value with
  | array items =>
    exact congrArg DigestValue.array (sortItems_sortItems items keys)
  | object fields =>
    rw [sortKeys, sortKeys, sortKeys, ← sortFields_sortFields fields keys.2]
    refine congrArg DigestValue.object (sortBy_eq_of_perm _ (ties_of_nodup ?_) ?_)
    · rw [sortFields_eq_map, map_map]
      exact (keys_sortBy_sortFields fields).nodup_iff.mpr keys.1
    · simp only [sortFields_eq_map]
      exact (sortBy_perm _ _).map _
  | null => rfl
  | boolean value => rfl
  | number value => rfl
  | string text => rfl
  | flawedArray length flaw => rfl
  | flawed flaw => rfl

theorem sortItems_sortItems (items : List DigestValue) (keys : KeysInItems allowed items) :
    sortItems compareUnits (sortItems cmp items) = sortItems compareUnits items := by
  cases items with
  | nil => rfl
  | cons item rest =>
    rw [sortItems, sortItems, sortItems, sortKeys_sortKeys item keys.1, sortItems_sortItems rest keys.2]

theorem sortFields_sortFields (fields : List (Text × DigestValue))
    (keys : KeysInFields allowed fields) :
    sortFields compareUnits (sortFields cmp fields) = sortFields compareUnits fields := by
  cases fields with
  | nil => rfl
  | cons field rest =>
    rw [sortFields, sortFields, sortFields, sortKeys_sortKeys field.2 keys.2.1,
      sortFields_sortFields rest keys.2.2]

end

end Keys

variable {bytes : List UInt8}

/-! ## Injectivity -/

variable {numbers : NumberTexts} {limits : CanonicalLimits} {allowed : Text → Prop}

theorem canonicalBytes_eq_ok {value : DigestValue}
    (hashed : canonicalBytes numbers limits value = .ok bytes) :
    bytes = (frames numbers (sortKeys compareBytes value)).flatMap frameBytes ∧
      Accepted (sortKeys compareBytes value) := by
  unfold canonicalBytes at hashed
  rcases bind_eq_ok.mp hashed with ⟨state, visited, made⟩
  rcases visit_eq_ok _ visited with ⟨pieces, accepted⟩
  cases made
  exact ⟨pieces, accepted⟩

/-- Values with distinct keys that are hashed to the same bytes are the same data. -/
theorem same_of_canonicalBytes {others : CanonicalLimits} (apart : Distinct allowed)
    {value other : DigestValue} (keys : KeysIn allowed value)
    (keysOther : KeysIn allowed other) (first : canonicalBytes numbers limits value = .ok bytes)
    (second : canonicalBytes numbers others other = .ok bytes) : Same value other := by
  rcases canonicalBytes_eq_ok first with ⟨hashed, accepted⟩
  rcases canonicalBytes_eq_ok second with ⟨hashedOther, acceptedOther⟩
  have pieces := flatMap_frameBytes_injective (hashed.symm.trans hashedOther)
  have fronts : frames numbers (sortKeys compareBytes value) ++ [] =
      frames numbers (sortKeys compareBytes other) ++ [] := by rw [pieces]
  have sorted := (frames_append_inj apart _ _ accepted acceptedOther keys.sortKeys keysOther.sortKeys fronts).1
  unfold Same
  rw [← sortKeys_sortKeys value keys, sorted, sortKeys_sortKeys other keysOther]

def loneKey (key : Text) : DigestValue := .object [(key, .null)]

theorem canonicalBytes_loneKey (numbers : NumberTexts) (key : Text) :
    canonicalBytes numbers defaultCanonicalLimits (loneKey key) =
      .ok ([(0x6f, encode (decimalText 1)), (0x6b, encode key), (0x6e, []),
        (0x7a, encode (js "o"))].flatMap frameBytes) := by
  have sorted : sortKeys compareBytes (loneKey key) = loneKey key := rfl
  have first : enter defaultCanonicalLimits ⟨⟨0, 0⟩, []⟩ = .ok ⟨⟨1, 0⟩, []⟩ := rfl
  have second (hashed : List UInt8) :
      enter defaultCanonicalLimits ⟨⟨1, 0⟩, hashed⟩ = .ok ⟨⟨2, 0⟩, hashed⟩ := rfl
  have plain : refuseIf (isAccessorField .null) (invalid (flawMessage .accessorField)) = .ok () := rfl
  unfold canonicalBytes
  rw [sorted, loneKey, visit, first, ok_bind, visitFields, plain, ok_bind, visit]
  have framed (tag : UInt8) (text : Text) : frame tag text = frameBytes (tag, encode text) := rfl
  have blank : encode [] = [] := rfl
  simp [DigestState.hash, second, ok_bind, visitFields, pure, Except.pure, framed, blank]

theorem keysIn_loneKey {key : Text} (inAllowed : allowed key) : KeysIn allowed (loneKey key) :=
  ⟨nodup_singleton key, inAllowed, trivial, trivial⟩

theorem eq_of_same_loneKey {first second : Text} (same : Same (loneKey first) (loneKey second)) :
    first = second := by
  have fields : [(first, DigestValue.null)] = [(second, .null)] := DigestValue.object.inj same
  exact congrArg Prod.fst (cons.inj fields).1

/-- The bytes of values with certain keys determine them, up to the order of keys, exactly if the bytes of
these keys determine the keys. -/
theorem canonicalBytes_injective_iff (numbers : NumberTexts) (allowed : Text → Prop) :
    (∀ limits others value other bytes, KeysIn allowed value → KeysIn allowed other →
      canonicalBytes numbers limits value = .ok bytes → canonicalBytes numbers others other = .ok bytes →
        Same value other) ↔ Distinct allowed := by
  constructor
  · intro injective first second inAllowed inAllowed' bytes
    refine eq_of_same_loneKey (injective defaultCanonicalLimits defaultCanonicalLimits _ _ _
      (keysIn_loneKey inAllowed) (keysIn_loneKey inAllowed') (canonicalBytes_loneKey numbers first) ?_)
    rw [canonicalBytes_loneKey, bytes]
  · intro apart limits others value other bytes keys keysOther
    exact same_of_canonicalBytes apart keys keysOther

theorem distinct_wellFormed : Distinct (wellFormed · = true) :=
  fun _ _ left right => encode_injective left right

/-- Values whose keys are well formed are determined by their bytes. -/
theorem same_of_wellFormed_keys {others : CanonicalLimits} {value other : DigestValue}
    (keys : KeysIn (wellFormed · = true) value) (keysOther : KeysIn (wellFormed · = true) other)
    (first : canonicalBytes numbers limits value = .ok bytes)
    (second : canonicalBytes numbers others other = .ok bytes) : Same value other :=
  same_of_canonicalBytes distinct_wellFormed keys keysOther first second

/-- The doubles from 0 to 9. -/
def digitDoubles : List (Double × Text) :=
  [(0, js "0"), (0x3ff0000000000000, js "1"), (0x4000000000000000, js "2"),
    (0x4008000000000000, js "3"), (0x4010000000000000, js "4"), (0x4014000000000000, js "5"),
    (0x4018000000000000, js "6"), (0x401c000000000000, js "7"), (0x4020000000000000, js "8"),
    (0x4022000000000000, js "9")]

/-- Texts that are those of `String` on digits, and give any other double by its bits. -/
def digitTexts : NumberTexts where
  text x := match digitDoubles.find? (·.1 = x) with
    | some entry => entry.2
    | none => 0x62 :: decimalText x.toNat
  number text := match digitDoubles.find? (·.2 = text) with
    | some entry => entry.1
    | none => .ofNat (Nat.ofDigits 10 (text.tail.map fun unit => unit.toNat - 0x30).reverse)
  wellFormed_text x := by
    have plain : ∀ d < 10, isSurrogate (.ofNat (0x30 + d)) = false := by decide
    cases found : digitDoubles.find? (·.1 = x) with
    | some entry =>
      have all : ∀ entry ∈ digitDoubles, wellFormed entry.2 = true := by decide
      exact all entry (mem_of_find?_eq_some found)
    | none =>
      refine wellFormed_of_plain (forall_mem_cons.mpr ⟨by decide, fun unit member => ?_⟩)
      rcases mem_map.mp member with ⟨d, isDigit, rfl⟩
      exact plain d (digits_lt d isDigit)
  number_text x _ _ := by
    cases found : digitDoubles.find? (·.1 = x) with
    | some entry =>
      have back : ∀ entry ∈ digitDoubles, digitDoubles.find? (·.2 = entry.2) = some entry := by decide
      dsimp only
      rw [back entry (mem_of_find?_eq_some found)]
      exact of_decide_eq_true (find?_some found :)
    | none =>
      have apart : ∀ entry ∈ digitDoubles, entry.2.head? ≠ some 0x62 := by decide
      have value : ∀ d < 10, (UInt16.ofNat (0x30 + d)).toNat - 0x30 = d := by decide
      have read : (decimalText x.toNat).map (fun unit => unit.toNat - 0x30) =
          digits x.toNat := by
        rw [decimalText, map_map]
        conv_rhs => rw [← map_id (digits x.toNat)]
        exact map_congr_left fun d member => value d (digits_lt d member)
      have none : digitDoubles.find? (·.2 = 0x62 :: decimalText x.toNat) = none :=
        find?_eq_none.mpr fun entry member same =>
          apart entry member (congrArg head? (of_decide_eq_true same))
      dsimp only
      rw [none]
      dsimp only
      rw [tail_cons, read, Netstring.ofDigits_digits, UInt64.ofNat_toNat]

example : (canonicalBytes digitTexts defaultCanonicalLimits
    (.object [(js "n", .number 0x3ff0000000000000)])).toOption =
      some (encode (js "o:1:1k:1:nd:1:1z:1:o")) := by
  decide +kernel

/-- A lone surrogate and the replacement character are different keys with the same bytes. -/
theorem loneKeys_not_injective : ¬ ∀ (numbers : NumberTexts) limits value other bytes,
    canonicalBytes numbers limits value = .ok bytes → canonicalBytes numbers limits other = .ok bytes →
      Same value other := by
  intro injective
  have bytes : encode [0xd800] = encode [0xfffd] := by decide +kernel
  have second := canonicalBytes_loneKey digitTexts [0xfffd]
  rw [← bytes] at second
  have same := eq_of_same_loneKey (injective digitTexts defaultCanonicalLimits (loneKey [0xd800])
    (loneKey [0xfffd]) _ (canonicalBytes_loneKey digitTexts [0xd800]) second)
  exact absurd same (by decide)

end AgentContextLint.CanonicalDigest
