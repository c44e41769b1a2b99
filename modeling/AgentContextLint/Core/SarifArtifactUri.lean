import AgentContextLint.Core.RepositoryPath
import AgentContextLint.Lib.UriComponent

/-!
# SARIF artifact URIs

Model of `encodeSarifArtifactUri` and `decodeSarifArtifactUri` of
`packages/core/src/output-sanitization.ts`, where `none` stands for `undefined`.

* `decodeFrom_encodeSegment`: decoding reads a segment back.
* `decodeSarifArtifactUri_eq_some_iff`: the decoder inverts the encoder, and accepts nothing
  else.
-/

namespace AgentContextLint.SarifArtifactUri

open Utf16 Utf8 UriComponent List
open RepositoryPath (isRepositoryRelativePath joinSegments)
open Option (map_some)

variable {segments : List Text} {unit : CodeUnit} {segment : Text} {path uri : Text} (n : Nat)

/-- The replacement of `/[!'()*]/gu`. -/
def escapeReserved (unit : CodeUnit) : Text :=
  if unit ∈ [0x21, 0x27, 0x28, 0x29, 0x2a] then
    [percent, upperHex (unit.toNat / 16), upperHex (unit.toNat % 16)]
  else [unit]

def encodeSegment (segment : Text) : Option Text :=
  (encodeURIComponent segment).map (·.flatMap escapeReserved)

def encodeSarifArtifactUri (path : Text) : Option Text :=
  if isRepositoryRelativePath path then
    ((path.splitOn 0x2f).mapM encodeSegment).map joinSegments
  else none

/-- `[A-Za-z0-9._~-]` -/
def isUnreserved (unit : CodeUnit) : Bool :=
  let n := unit.toNat
  (0x30 ≤ n && n ≤ 0x39) || (0x41 ≤ n && n ≤ 0x5a) || (0x61 ≤ n && n ≤ 0x7a) ||
    unit ∈ [0x2e, 0x5f, 0x7e, 0x2d]

/-- `[0-9A-F]` -/
def isUpperHex (unit : CodeUnit) : Bool :=
  let n := unit.toNat
  (0x30 ≤ n && n ≤ 0x39) || (0x41 ≤ n && n ≤ 0x46)

/-- `(?:[A-Za-z0-9._~-]|%[0-9A-F]{2})*` -/
def isUriText : Text → Bool
  | [] => true
  | [unit] => isUnreserved unit
  | [first, second] => isUnreserved first && isUnreserved second
  | unit :: high :: low :: rest =>
    if unit = percent then isUpperHex high && isUpperHex low && isUriText rest
    else isUnreserved unit && isUriText (high :: low :: rest)

/-- Nonempty texts of this kind between slashes. -/
def isUri (uri : Text) : Bool :=
  (uri.splitOn 0x2f).all fun piece => piece ≠ [] && isUriText piece

/-- The tests for `""`, `?` and `#` come first in the source. -/
def decodeSarifArtifactUri (uri : Text) : Option RelativePath :=
  if uri = [] ∨ 0x3f ∈ uri ∨ 0x23 ∈ uri ∨ isUri uri = false then none
  else
    (decodeURIComponent uri).bind fun decoded =>
      if encodeSarifArtifactUri decoded = some uri then some decoded else none

/-! ## Segments -/

/-- The text that a code point of a segment is encoded by. -/
def encodePoint (n : Nat) : Text := (encodeCodePoint n).flatMap escapeReserved

theorem encodeSegment_of_wellFormed (ok : wellFormed segment = true) :
    encodeSegment segment = some ((codePoints segment).flatMap encodePoint) := by
  rw [encodeSegment, encodeURIComponent, if_pos ok, map_some, flatMap_assoc]
  rfl

theorem isUpperHex_upperHex : ∀ n < 16, isUpperHex (upperHex n) = true := by decide

theorem upperHex_notReserved : ∀ n < 16,
    upperHex n ∉ ([0x21, 0x27, 0x28, 0x29, 0x2a] : List CodeUnit) := by decide

theorem escapeReserved_escapeByte (b : UInt8) :
    (escapeByte b).flatMap escapeReserved = escapeByte b := by
  have bound : b.toNat < 0x100 := b.toNat_lt
  have plain : escapeReserved percent = [percent] := rfl
  have high := upperHex_notReserved (b.toNat / 16) (by omega)
  have low := upperHex_notReserved (b.toNat % 16) (by omega)
  rw [escapeByte, flatMap_cons, flatMap_cons, flatMap_cons, flatMap_nil, plain,
    escapeReserved, if_neg high, escapeReserved, if_neg low]
  rfl

theorem escapeReserved_escapes : (escapes n).flatMap escapeReserved = escapes n := by
  rw [escapes, flatMap_assoc]
  exact flatMap_congr fun b _ => escapeReserved_escapeByte b

theorem escapeReserved_of_unescaped : ∀ n < 0x80, isUnescaped (.ofNat n) = true →
    isUnreserved (.ofNat n) = true ∧ escapeReserved (.ofNat n) = [.ofNat n] ∨
      escapeReserved (.ofNat n) = escapes n := by
  decide

/-- A code point stands for itself, or for its escapes. -/
theorem encodePoint_cases : n < 0x80 ∧ isUnreserved (.ofNat n) = true ∧ encodePoint n = [.ofNat n] ∨
      encodePoint n = escapes n := by
  rw [encodePoint, encodeCodePoint]
  split_ifs with unescaped
  · rw [flatMap_singleton]
    rcases escapeReserved_of_unescaped n unescaped.1 unescaped.2 with ⟨unreserved, same⟩ | escaped
    · exact .inl ⟨unescaped.1, unreserved, same⟩
    · exact .inr escaped
  · exact .inr (escapeReserved_escapes n)

theorem ne_percent_of_isUnreserved (unreserved : isUnreserved unit = true) : unit ≠ percent := by
  intro sign
  rw [sign] at unreserved
  revert unreserved
  decide

theorem isUriText_unit (unreserved : isUnreserved unit = true)
    (rest : Text) : isUriText (unit :: rest) = isUriText rest := by
  match rest with
  | [] => exact unreserved
  | [second] =>
    show (isUnreserved unit && isUnreserved second) = isUnreserved second
    rw [unreserved, Bool.true_and]
  | high :: low :: rest =>
    rw [isUriText, if_neg (ne_percent_of_isUnreserved unreserved), unreserved, Bool.true_and]

theorem isUriText_escapeByte (b : UInt8) (rest : Text) :
    isUriText (escapeByte b ++ rest) = isUriText rest := by
  have bound : b.toNat < 0x100 := b.toNat_lt
  have high := isUpperHex_upperHex (b.toNat / 16) (by omega)
  have low := isUpperHex_upperHex (b.toNat % 16) (by omega)
  rw [escapeByte, cons_append, cons_append, cons_append, nil_append, isUriText,
    if_pos rfl, high, low, Bool.true_and, Bool.true_and]

theorem isUriText_escapes (rest : Text) : isUriText (escapes n ++ rest) = isUriText rest := by
  rw [escapes]
  induction encodeScalar n with
  | nil => rfl
  | cons b bytes ih => rw [flatMap_cons, append_assoc, isUriText_escapeByte, ih]

theorem isUriText_encodePoint (rest : Text) :
    isUriText (encodePoint n ++ rest) = isUriText rest := by
  rcases encodePoint_cases n with ⟨_, unreserved, same⟩ | escaped
  · rw [same]
    exact isUriText_unit unreserved rest
  · rw [escaped, isUriText_escapes]

theorem decodeFrom_encodePoint {n : Nat} (scalar : isScalar n = true) (rest : Text) :
    decodeFrom 0 (encodePoint n ++ rest) = (decodeFrom 0 rest).map (ofCodePoint n ++ ·) := by
  rcases encodePoint_cases n with ⟨small, unreserved, same⟩ | escaped
  · have unit : ofCodePoint n = [.ofNat n] := if_pos (by omega)
    rw [same, unit]
    exact decodeFrom_unit (ne_percent_of_isUnreserved unreserved) rest
  · rw [escaped, decodeFrom_escapes scalar]

theorem isUriText_flatMap (points : List Nat) : isUriText (points.flatMap encodePoint) = true := by
  induction points with
  | nil => rfl
  | cons n points ih => rw [flatMap_cons, isUriText_encodePoint, ih]

theorem decodeFrom_flatMap {points : List Nat} (scalars : ∀ n ∈ points, isScalar n = true)
    (rest : Text) :
    decodeFrom 0 (points.flatMap encodePoint ++ rest) =
      (decodeFrom 0 rest).map (points.flatMap ofCodePoint ++ ·) := by
  induction points with
  | nil =>
    rw [flatMap_nil, flatMap_nil, nil_append]
    exact Option.map_id'.symm
  | cons n points ih =>
    rw [flatMap_cons, append_assoc, decodeFrom_encodePoint (scalars n mem_cons_self),
      ih fun m member => scalars m (mem_cons_of_mem n member), Option.map_map, flatMap_cons]
    congr 1
    funext text
    exact (append_assoc _ _ _).symm

theorem mem_escapeByte {b : UInt8} (member : unit ∈ escapeByte b) :
    unit = percent ∨ ∃ n < 16, unit = upperHex n := by
  have bound : b.toNat < 0x100 := b.toNat_lt
  simp only [escapeByte, mem_cons, not_mem_nil, or_false] at member
  rcases member with sign | high | low
  · exact .inl sign
  · exact .inr ⟨_, by omega, high⟩
  · exact .inr ⟨_, by omega, low⟩

/-- No unit of an encoded text is a slash, a question mark or a number sign. -/
theorem encodePoint_notDelimiter {n : Nat} (member : unit ∈ encodePoint n) :
    unit ∉ ([0x2f, 0x3f, 0x23] : List CodeUnit) := by
  have hex : ∀ n < 16, upperHex n ∉ ([0x2f, 0x3f, 0x23] : List CodeUnit) := by decide
  have small : ∀ n < 0x80, isUnreserved (.ofNat n) = true →
      UInt16.ofNat n ∉ ([0x2f, 0x3f, 0x23] : List CodeUnit) := by decide
  rcases encodePoint_cases n with ⟨bound, unreserved, same⟩ | escaped
  · rw [same, mem_singleton] at member
    rw [member]
    exact small n bound unreserved
  · rw [escaped, escapes] at member
    obtain ⟨b, _, inEscape⟩ := mem_flatMap.mp member
    rcases mem_escapeByte inEscape with rfl | ⟨n, bound, rfl⟩
    · decide
    · exact hex n bound

/-! ## Paths -/

theorem flatMap_encodePoint_ne_nil (nonempty : segment ≠ [])
    (ok : wellFormed segment = true) : (codePoints segment).flatMap encodePoint ≠ [] := by
  intro empty
  have decoded := decodeFrom_flatMap (isScalar_of_wellFormed ok) []
  rw [empty, flatMap_ofCodePoint_codePoints, nil_append, decodeFrom, map_some,
    append_nil] at decoded
  exact nonempty (Option.some.inj decoded).symm

/-- The segments of a canonical path are well-formed and not empty. -/
theorem segments_of_isRepositoryRelativePath {path : Text}
    (canonical : isRepositoryRelativePath path = true) :
    ∀ segment ∈ path.splitOn 0x2f, segment ≠ [] ∧ wellFormed segment = true := by
  rw [RepositoryPath.isRepositoryRelativePath_eq_true, RepositoryPath.canonicalize_eq_ok] at canonical
  obtain ⟨accepted, same⟩ := canonical
  split_ifs at same with root
  · rw [same]
    decide
  · have split := RepositoryPath.splitOnP_joinSegments accepted.canonical root .posix
    intro segment member
    rw [same, splitOn_eq_splitOnP] at member
    have kept : segment ∈ RepositoryPath.keptSegments .posix path := split ▸ member
    exact ⟨(accepted.canonical segment kept).ne_nil, (accepted.canonical segment kept).unicode⟩

/-- The texts that the segments are encoded by. -/
def encodeSegments (segments : List Text) : List Text :=
  segments.map fun segment => (codePoints segment).flatMap encodePoint

theorem decodeFrom_segment (ok : wellFormed segment = true) (rest : Text) :
    decodeFrom 0 ((codePoints segment).flatMap encodePoint ++ rest) =
      (decodeFrom 0 rest).map (segment ++ ·) := by
  rw [decodeFrom_flatMap (isScalar_of_wellFormed ok), flatMap_ofCodePoint_codePoints]

theorem decodeFrom_joinSegments (ok : ∀ segment ∈ segments, wellFormed segment = true) :
    decodeFrom 0 (joinSegments (encodeSegments segments)) = some (joinSegments segments) := by
  induction segments with
  | nil => rfl
  | cons first rest ih =>
    have firstOk := ok first mem_cons_self
    have later := ih fun segment member => ok segment (mem_cons_of_mem _ member)
    cases rest with
    | nil =>
      have read := decodeFrom_segment firstOk []
      rw [append_nil, decodeFrom, map_some, append_nil] at read
      simpa [joinSegments, encodeSegments] using read
    | cons second others =>
      have slash : (0x2f : CodeUnit) ≠ percent := by decide
      have joined : joinSegments (encodeSegments (first :: second :: others)) =
          (codePoints first).flatMap encodePoint ++
            0x2f :: joinSegments (encodeSegments (second :: others)) := by
        simp [joinSegments, encodeSegments]
      rw [joined, decodeFrom_segment firstOk, decodeFrom_unit slash, later]
      simp [joinSegments]

theorem mapM_encodeSegment (ok : ∀ segment ∈ segments, wellFormed segment = true) :
    segments.mapM encodeSegment = some (encodeSegments segments) := by
  induction segments with
  | nil => rfl
  | cons first rest ih =>
    rw [mapM_cons, encodeSegment_of_wellFormed (ok first mem_cons_self),
      ih fun segment member => ok segment (mem_cons_of_mem _ member)]
    rfl

theorem encodeSarifArtifactUri_eq {path : Text} (canonical : isRepositoryRelativePath path = true) :
    encodeSarifArtifactUri path = some (joinSegments (encodeSegments (path.splitOn 0x2f))) := by
  have each := mapM_encodeSegment fun segment member =>
    (segments_of_isRepositoryRelativePath canonical segment member).2
  rw [encodeSarifArtifactUri, if_pos canonical, each, map_some]

theorem splitOn_encodeSegments (nonempty : segments ≠ []) :
    (joinSegments (encodeSegments segments)).splitOn 0x2f = encodeSegments segments := by
  apply splitOn_intercalate
  · intro piece member slash
    obtain ⟨segment, _, rfl⟩ := mem_map.mp member
    obtain ⟨n, _, inPoint⟩ := mem_flatMap.mp slash
    exact encodePoint_notDelimiter inPoint mem_cons_self
  · exact mt map_eq_nil_iff.mp nonempty

/-- An encoded path passes the tests of the decoder. -/
theorem isUri_encodeSegments (nonempty : segments ≠ [])
    (ok : ∀ segment ∈ segments, segment ≠ [] ∧ wellFormed segment = true) :
    isUri (joinSegments (encodeSegments segments)) = true := by
  rw [isUri, splitOn_encodeSegments nonempty, all_eq_true]
  intro piece member
  obtain ⟨segment, inSegments, rfl⟩ := mem_map.mp member
  obtain ⟨some, wellFormed⟩ := ok segment inSegments
  rw [isUriText_flatMap, Bool.and_true]
  exact decide_eq_true (flatMap_encodePoint_ne_nil some wellFormed)

theorem notMem_joinSegments (delimiter : unit ∈ ([0x3f, 0x23] : List CodeUnit)) :
    unit ∉ joinSegments (encodeSegments segments) := by
  intro member
  rcases RepositoryPath.mem_joinSegments member with slash | ⟨piece, inPieces, inPiece⟩
  · rw [slash] at delimiter
    revert delimiter
    decide
  · obtain ⟨segment, _, rfl⟩ := mem_map.mp inPieces
    obtain ⟨n, _, inPoint⟩ := mem_flatMap.mp inPiece
    exact encodePoint_notDelimiter inPoint (mem_cons_of_mem _ delimiter)

theorem decodeSarifArtifactUri_of_encode (encoded : encodeSarifArtifactUri path = some uri) :
    decodeSarifArtifactUri uri = some path := by
  have canonical : isRepositoryRelativePath path = true := by
    by_contra refused
    rw [encodeSarifArtifactUri, if_neg refused] at encoded
    cases encoded
  have segments := segments_of_isRepositoryRelativePath canonical
  have nonempty : path.splitOn 0x2f ≠ [] := splitOn_ne_nil _ _
  have value := encodeSarifArtifactUri_eq canonical
  rw [encoded, Option.some.injEq] at value
  have whole := isUri_encodeSegments nonempty segments
  have decoded := decodeFrom_joinSegments fun segment member => (segments segment member).2
  have joined : joinSegments (path.splitOn 0x2f) = path := intercalate_splitOn _
  rw [joined, ← value] at decoded
  rw [← value] at whole
  have passes : ¬ (uri = [] ∨ 0x3f ∈ uri ∨ 0x23 ∈ uri ∨ isUri uri = false) := by
    rintro (empty | question | number | refused)
    · rw [empty] at whole
      revert whole
      decide
    · rw [value] at question
      exact notMem_joinSegments (by decide) question
    · rw [value] at number
      exact notMem_joinSegments (by decide) number
    · rw [whole] at refused
      cases refused
  rw [decodeSarifArtifactUri, if_neg passes, decodeURIComponent, decoded, Option.bind_some,
    if_pos encoded]

theorem decodeSarifArtifactUri_eq_some (decoded : decodeSarifArtifactUri uri = some path) :
    encodeSarifArtifactUri path = some uri := by
  rw [decodeSarifArtifactUri] at decoded
  split_ifs at decoded with refused
  obtain ⟨text, _, accepted⟩ := Option.bind_eq_some_iff.mp decoded
  split_ifs at accepted with encoded
  rw [← Option.some.inj accepted]
  exact encoded

/-- Every canonical path has a URI, and decoding is the inverse of encoding: it gives a path back,
and accepts the URIs of paths only. -/
theorem sarifArtifactUri_round_trip :
    (∀ path, isRepositoryRelativePath path = true →
      ∃ uri, encodeSarifArtifactUri path = some uri ∧ decodeSarifArtifactUri uri = some path) ∧
    ∀ path uri, decodeSarifArtifactUri uri = some path ↔ encodeSarifArtifactUri path = some uri :=
  ⟨fun _ canonical => ⟨_, encodeSarifArtifactUri_eq canonical,
      decodeSarifArtifactUri_of_encode (encodeSarifArtifactUri_eq canonical)⟩,
    fun _ _ => ⟨decodeSarifArtifactUri_eq_some, decodeSarifArtifactUri_of_encode⟩⟩

/-- A path with a blank and an exclamation mark, and an escape that no path is encoded with. -/
theorem sarifArtifactUri_round_trip_paths :
    (∃ uri, encodeSarifArtifactUri (js "src/a b!.md") = some uri ∧
      decodeSarifArtifactUri uri = some (js "src/a b!.md")) ∧
    (decodeSarifArtifactUri (js "%41") = some (js "A") ↔
      encodeSarifArtifactUri (js "A") = some (js "%41")) :=
  ⟨sarifArtifactUri_round_trip.1 _ (by decide +kernel), sarifArtifactUri_round_trip.2 _ _⟩

end AgentContextLint.SarifArtifactUri
