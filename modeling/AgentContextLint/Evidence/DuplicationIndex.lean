import AgentContextLint.Core.DiagnosticFingerprint
import AgentContextLint.Lib.Json
import AgentContextLint.Lib.OrderedMap
import AgentContextLint.Lib.UnitPattern

/-!
# The duplication index

Model of `packages/evidence/src/duplication-index.ts`. The entries are data; what a value may be
besides is left to the types. Unicode normalization and case mapping are parameters
(`TextFunctions`).

`find` and `union` work on a list of parents. Their loops are given a number of rounds, and have no
result if they have not ended by then.
-/

namespace AgentContextLint

open Utf16 Utf8 Metered Sorting
open OrderedMap (empty group)

/-! ## Contracts -/

structure DuplicationIndexEntry where
  documentId : Text
  nodeIds : List Text
  normalizedText : Text
  range : SourceRange
  statementId : Text

inductive DuplicationIndexLimitName
  | maximumAnchorsPerEntry
  | maximumCandidateComparisons
  | maximumClusterMembers
  | maximumEntries
  | maximumNodeIdsPerEntry
  | maximumNormalizedTextLength
  | maximumPostingLength
  | maximumShinglesPerEntry
  | maximumTotalNormalizedTextLength
  | maximumTotalShingleOccurrences
  | minimumNearDuplicateCodePoints
  | minimumSimilarityBasisPoints

def DuplicationIndexLimitName.text : DuplicationIndexLimitName → String
  | .maximumAnchorsPerEntry => "maximumAnchorsPerEntry"
  | .maximumCandidateComparisons => "maximumCandidateComparisons"
  | .maximumClusterMembers => "maximumClusterMembers"
  | .maximumEntries => "maximumEntries"
  | .maximumNodeIdsPerEntry => "maximumNodeIdsPerEntry"
  | .maximumNormalizedTextLength => "maximumNormalizedTextLength"
  | .maximumPostingLength => "maximumPostingLength"
  | .maximumShinglesPerEntry => "maximumShinglesPerEntry"
  | .maximumTotalNormalizedTextLength => "maximumTotalNormalizedTextLength"
  | .maximumTotalShingleOccurrences => "maximumTotalShingleOccurrences"
  | .minimumNearDuplicateCodePoints => "minimumNearDuplicateCodePoints"
  | .minimumSimilarityBasisPoints => "minimumSimilarityBasisPoints"

structure DuplicationIndexLimits where
  maximumAnchorsPerEntry : Nat
  maximumCandidateComparisons : Nat
  maximumClusterMembers : Nat
  maximumEntries : Nat
  maximumNodeIdsPerEntry : Nat
  maximumNormalizedTextLength : Nat
  maximumPostingLength : Nat
  maximumShinglesPerEntry : Nat
  maximumTotalNormalizedTextLength : Nat
  maximumTotalShingleOccurrences : Nat
  minimumNearDuplicateCodePoints : Nat
  minimumSimilarityBasisPoints : Nat
  deriving DecidableEq

/-- The limits that are given, as integers. -/
abbrev DuplicationIndexOptions := DuplicationIndexLimitName → Option Int

/-- `DUPLICATION_INDEX_DEFAULT_LIMITS` -/
def duplicationIndexDefaultLimit : DuplicationIndexLimitName → Nat
  | .maximumAnchorsPerEntry => 16
  | .maximumCandidateComparisons => 2000000
  | .maximumClusterMembers => 100000
  | .maximumEntries => 100000
  | .maximumNodeIdsPerEntry => 4096
  | .maximumNormalizedTextLength => 65536
  | .maximumPostingLength => 1024
  | .maximumShinglesPerEntry => 4096
  | .maximumTotalNormalizedTextLength => 67108864
  | .maximumTotalShingleOccurrences => 2000000
  | .minimumNearDuplicateCodePoints => 12
  | .minimumSimilarityBasisPoints => 8000

/-- `DUPLICATION_INDEX_HARD_LIMITS` -/
def duplicationIndexHardLimit : DuplicationIndexLimitName → Nat
  | .maximumAnchorsPerEntry => 128
  | .maximumCandidateComparisons => 20000000
  | .maximumClusterMembers => 1000000
  | .maximumEntries => 1000000
  | .maximumNodeIdsPerEntry => 65536
  | .maximumNormalizedTextLength => 1048576
  | .maximumPostingLength => 65536
  | .maximumShinglesPerEntry => 65536
  | .maximumTotalNormalizedTextLength => 536870912
  | .maximumTotalShingleOccurrences => 20000000
  | .minimumNearDuplicateCodePoints => 1024
  | .minimumSimilarityBasisPoints => 10000

structure DuplicationEvidencePointer where
  documentId : Text
  nodeIds : List Text
  range : SourceRange
  statementId : Text

structure ExactDuplicationCluster where
  id : Text
  members : List DuplicationEvidencePointer
  normalizedTextSha256 : Text

structure NearDuplicationEdge where
  intersectionShingles : Nat
  leftStatementId : Text
  rightStatementId : Text
  similarityBasisPoints : Nat
  unionShingles : Nat
  deriving DecidableEq

structure NearDuplicationCluster where
  edges : List NearDuplicationEdge
  id : Text
  members : List DuplicationEvidencePointer

inductive DuplicationExclusionReason
  | emptyNormalizedText
  | nearTextTooShort

structure DuplicationIndexExclusion where
  evidence : DuplicationEvidencePointer
  reason : DuplicationExclusionReason

structure DuplicationIndexMetrics where
  candidateComparisons : Nat
  entryCount : Nat
  exactClusterCount : Nat
  exactDuplicateEntryCount : Nat
  nearClusterCount : Nat
  nearEdgeCount : Nat
  totalNormalizedTextLength : Nat
  totalShingleOccurrences : Nat
  uniqueNormalizedTextCount : Nat

structure DuplicationIndexResult where
  exactClusters : List ExactDuplicationCluster
  exclusions : List DuplicationIndexExclusion
  limits : DuplicationIndexLimits
  metrics : DuplicationIndexMetrics
  nearClusters : List NearDuplicationCluster

inductive DuplicationIndexErrorCode
  | invalidInput
  | invalidOptions
  | limitExceeded

structure DuplicationIndexError where
  code : DuplicationIndexErrorCode
  message : String
  limitName : Option DuplicationIndexLimitName

structure UniqueTextRecord where
  members : List DuplicationIndexEntry
  normalizedText : Text
  shingles : List Text

/-- An edge between two records, by their indices. -/
structure RecordEdge where
  left : Nat
  right : Nat
  value : NearDuplicationEdge
  deriving DecidableEq

/-- `normalize("NFC")` and `toLowerCase()`. -/
structure TextFunctions where
  normalize : Text → Text
  toLowerCase : Text → Text

namespace DuplicationIndex

def requireInput (condition : Prop) [Decidable condition] (message : String) :
    Except DuplicationIndexError Unit := refuseIf (¬ condition) ⟨.invalidInput, message, none⟩

def limitExceeded (name : DuplicationIndexLimitName) : DuplicationIndexError :=
  ⟨.limitExceeded, name.text ++ " was exceeded", some name⟩

def within (count limit : Nat) (name : DuplicationIndexLimitName) :
    Except DuplicationIndexError Unit := refuseIf (count > limit) (limitExceeded name)

/-! ## Options -/

def validateLimit (value : Int) (name : DuplicationIndexLimitName) :
    Except DuplicationIndexError Nat := do
  refuseIf (value < 1 ∨ duplicationIndexHardLimit name < value) ⟨.invalidOptions,
    name.text ++ " must be a positive safe integer no greater than " ++
      toString (duplicationIndexHardLimit name), some name⟩
  return value.toNat

def validateOptions (options : DuplicationIndexOptions) :
    Except DuplicationIndexError DuplicationIndexLimits := do
  let read (name : DuplicationIndexLimitName) :=
    validateLimit ((options name).getD (duplicationIndexDefaultLimit name)) name
  return {
    maximumAnchorsPerEntry := ← read .maximumAnchorsPerEntry
    maximumCandidateComparisons := ← read .maximumCandidateComparisons
    maximumClusterMembers := ← read .maximumClusterMembers
    maximumEntries := ← read .maximumEntries
    maximumNodeIdsPerEntry := ← read .maximumNodeIdsPerEntry
    maximumNormalizedTextLength := ← read .maximumNormalizedTextLength
    maximumPostingLength := ← read .maximumPostingLength
    maximumShinglesPerEntry := ← read .maximumShinglesPerEntry
    maximumTotalNormalizedTextLength := ← read .maximumTotalNormalizedTextLength
    maximumTotalShingleOccurrences := ← read .maximumTotalShingleOccurrences
    minimumNearDuplicateCodePoints := ← read .minimumNearDuplicateCodePoints
    minimumSimilarityBasisPoints := ← read .minimumSimilarityBasisPoints }

/-! ## Entries -/

def stableIdentifier (value : Text) (name : String) : Except DuplicationIndexError Unit :=
  requireInput (value ≠ [] ∧ value.length ≤ 512 ∧ isStableIdentifier value)
    (name ++ " must be a bounded stable identifier")

def sourceRange (value : SourceRange) (name : String) : Except DuplicationIndexError Unit := do
  requireInput (¬ (value.stop.byteOffset < value.start.byteOffset ∨
      value.stop.utf16Offset < value.start.utf16Offset ∨ value.stop.line < value.start.line ∨
      (value.stop.line = value.start.line ∧ value.stop.utf16Column < value.start.utf16Column)))
    (name ++ ".range must not be reversed")
  stableIdentifier value.sourceId (name ++ ".range.sourceId")

/-- The loop over the identifiers, behind the one read last. -/
def sortedNodeIds (name : String) : (index : Nat) → (previous : Text) → List Text →
    Except DuplicationIndexError Unit
  | _, _, [] => .ok ()
  | index, previous, current :: rest => do
    stableIdentifier current (name ++ ".nodeIds[" ++ toString index ++ "]")
    requireInput (compareUnits previous current = .lt)
      (name ++ ".nodeIds must be sorted and unique")
    sortedNodeIds name (index + 1) current rest

def denseNodeIds (value : List Text) (name : String) (limits : DuplicationIndexLimits) :
    Except DuplicationIndexError Unit := do
  requireInput (value ≠ []) (name ++ ".nodeIds must not be empty")
  within value.length limits.maximumNodeIdsPerEntry .maximumNodeIdsPerEntry
  sortedNodeIds name 0 [] value

/-- The white space that normalized text does not have, besides two blanks in a row. -/
def isUnwantedSpace (unit : CodeUnit) : Bool :=
  let n := unit.toNat
  (0x09 ≤ n && n ≤ 0x0d) || n == 0x85 || n == 0xa0 || n == 0x1680 || (0x2000 ≤ n && n ≤ 0x200a) ||
    n == 0x2028 || n == 0x2029 || n == 0x202f || n == 0x205f || n == 0x3000

def hasTwoBlanks : Text → Bool
  | u :: v :: rest => (u == 0x20 && v == 0x20) || hasTwoBlanks (v :: rest)
  | _ => false

def isTrimmed (text : Text) : Bool :=
  !(text.head?.any UnitPattern.isWhiteSpace) && !(text.getLast?.any UnitPattern.isWhiteSpace)

def normalizedText (functions : TextFunctions) (value : Text) (name : String)
    (limits : DuplicationIndexLimits) : Except DuplicationIndexError Unit := do
  within value.length limits.maximumNormalizedTextLength .maximumNormalizedTextLength
  requireInput (Utf16.wellFormed value)
    (name ++ ".normalizedText must contain well-formed Unicode")
  requireInput (value = functions.normalize value ∧ value = functions.toLowerCase value ∧
      isTrimmed value ∧ ¬ value.any isUnwantedSpace ∧ ¬ hasTwoBlanks value)
    (name ++ ".normalizedText must be canonical F03 normalized text")

variable (functions : TextFunctions) (limits : DuplicationIndexLimits)

/-- One round of the loop over the entries: the statement and the length read so far. -/
def validateEntry (state : Text × Nat) (entry : DuplicationIndexEntry × Nat) :
    Except DuplicationIndexError (Text × Nat) := do
  let name := "entries[" ++ toString entry.2 ++ "]"
  stableIdentifier entry.1.statementId (name ++ ".statementId")
  requireInput (compareUnits state.1 entry.1.statementId = .lt)
    "entries must be sorted by unique statementId"
  normalizedText functions entry.1.normalizedText name limits
  let total := state.2 + entry.1.normalizedText.length
  within total limits.maximumTotalNormalizedTextLength .maximumTotalNormalizedTextLength
  stableIdentifier entry.1.documentId (name ++ ".documentId")
  denseNodeIds entry.1.nodeIds name limits
  sourceRange entry.1.range name
  return (entry.1.statementId, total)

variable (entries : List DuplicationIndexEntry)

def validateEntries (limits : DuplicationIndexLimits) : Except DuplicationIndexError Nat := do
  within entries.length limits.maximumEntries .maximumEntries
  let (_, total) ← entries.zipIdx.foldlM (validateEntry functions limits) ([], 0)
  return total

def evidence (entry : DuplicationIndexEntry) : DuplicationEvidencePointer where
  documentId := entry.documentId
  nodeIds := entry.nodeIds
  range := entry.range
  statementId := entry.statementId

/-- `JSON.stringify` of a list of texts. -/
def stringifyTexts (texts : List Text) : Text := Json.canonical (.array (texts.map .string))

def stableClusterId (kind : Text) (statementIds : List Text) : Text :=
  js "duplicate-" ++ kind ++ js "-" ++
    (Sha256.sha256Hex (encode (stringifyTexts statementIds))).take 20

/-! ## Records -/

/-- `Array.from` of a text: its code points, each as a text. -/
def symbolsOf : Text → List Text
  | [] => []
  | [u] => [[u]]
  | u :: v :: rest =>
    if isHighSurrogate u && isLowSurrogate v then [u, v] :: symbolsOf rest
    else [u] :: symbolsOf (v :: rest)

/-- The texts of three symbols in a row. -/
def triples : List Text → List Text
  | first :: second :: third :: rest =>
    (first ++ second ++ third) :: triples (second :: third :: rest)
  | _ => []

def createShingles (text : Text) (limits : DuplicationIndexLimits) :
    Except DuplicationIndexError (List Text) := do
  let shingles := (triples ([0x02] :: symbolsOf text ++ [[0x03]])).eraseDups
  within shingles.length limits.maximumShinglesPerEntry .maximumShinglesPerEntry
  return sortBy compareUnits shingles

/-- One round of the loop over the groups, on the records and the number of shingles so far. -/
def buildRecord (state : List UniqueTextRecord × Nat) (group : Text × List DuplicationIndexEntry) :
    Except DuplicationIndexError (List UniqueTextRecord × Nat) := do
  let shingles ← createShingles group.1 limits
  let total := state.2 + shingles.length
  within total limits.maximumTotalShingleOccurrences .maximumTotalShingleOccurrences
  let record := {
    members := sortBy (comparingWith compareUnits (·.statementId)) group.2
    normalizedText := group.1
    shingles }
  return (state.1 ++ [record], total)

def buildUniqueRecords (limits : DuplicationIndexLimits) :
    Except DuplicationIndexError (List UniqueTextRecord × Nat) :=
  let grouped := group (·.normalizedText) entries
  (sortBy (comparingWith compareUnits (·.1)) grouped.entries).foldlM (buildRecord limits) ([], 0)

def sortedEvidence (entries : List DuplicationIndexEntry) : List DuplicationEvidencePointer :=
  sortBy (comparingWith compareUnits (·.statementId)) (entries.map evidence)

def exactCluster (record : UniqueTextRecord) :
    Except DuplicationIndexError ExactDuplicationCluster := do
  let members := sortedEvidence record.members
  within members.length limits.maximumClusterMembers .maximumClusterMembers
  return {
    id := stableClusterId (js "exact") (members.map (·.statementId))
    members
    normalizedTextSha256 := Sha256.sha256Hex (encode record.normalizedText) }

variable (records : List UniqueTextRecord)

def exactClusters (limits : DuplicationIndexLimits) :
    Except DuplicationIndexError (List ExactDuplicationCluster) := do
  let clusters ← (records.filter fun record =>
    record.normalizedText.length > 0 ∧ record.members.length > 1).mapM (exactCluster limits)
  return sortBy (comparingWith compareUnits (·.id)) clusters

/-! ## Edges -/

structure Similarity where
  intersection : Nat
  similarityBasisPoints : Nat
  union : Nat

def jaccard (left right : List Text) : Similarity :=
  let intersection := left.countP (· ∈ right)
  let union := left.length + right.length - intersection
  { intersection, union
    similarityBasisPoints := if union = 0 then 10000 else intersection * 10000 / union }

/-- The number of records that have a shingle. -/
abbrev Support := OrderedMap Text Nat

variable (support : Support)

def supportOf (shingle : Text) : Nat := (support.get? shingle).getD 0

def compareSupport (left right : Text) : Ordering :=
  (compare (supportOf support left) (supportOf support right)).then (compareUnits left right)

def selectedAnchors (record : UniqueTextRecord) (support : Support)
    (limits : DuplicationIndexLimits) : List Text :=
  (sortBy (compareSupport support) (record.shingles.filter fun shingle =>
    2 ≤ supportOf support shingle ∧
      supportOf support shingle ≤ limits.maximumPostingLength)).take limits.maximumAnchorsPerEntry

/-- A record has a member; without one, an internal error would be thrown. -/
def primaryStatementId (record : UniqueTextRecord) : Text :=
  (record.members.head?.map (·.statementId)).getD []

def isEligible (record : UniqueTextRecord) : Bool :=
  limits.minimumNearDuplicateCodePoints ≤ (symbolsOf record.normalizedText).length

def countShingle (shingle : Text) : Support :=
  support.set shingle (supportOf support shingle + 1)

def countRecord (record : UniqueTextRecord) : Support :=
  if isEligible limits record then record.shingles.foldl countShingle support else support

def countSupport (limits : DuplicationIndexLimits) : Support :=
  records.foldl (countRecord limits) empty

def nearEdge (leftRecord rightRecord : UniqueTextRecord) : NearDuplicationEdge :=
  let similarity := jaccard leftRecord.shingles rightRecord.shingles
  { intersectionShingles := similarity.intersection
    leftStatementId := primaryStatementId leftRecord
    rightStatementId := primaryStatementId rightRecord
    similarityBasisPoints := similarity.similarityBasisPoints
    unionShingles := similarity.union }

/-- The records that have a shingle as an anchor. -/
abbrev Postings := OrderedMap Text (List Nat)

structure NearState where
  postings : Postings
  output : List RecordEdge
  candidateComparisons : Nat

/-- `candidates`, in order. -/
def candidatesOf (postings : Postings) (anchors : List Text) : List Nat :=
  sortBy compare (anchors.flatMap fun anchor => (postings.get? anchor).getD []).eraseDups

/-- One round of the loop over the candidates. There is a record at each of them. -/
def compareCandidate (limits : DuplicationIndexLimits) (record : UniqueTextRecord) (right : Nat)
    (state : List RecordEdge × Nat) (left : Nat) :
    Except DuplicationIndexError (List RecordEdge × Nat) := do
  let comparisons := state.2 + 1
  within comparisons limits.maximumCandidateComparisons .maximumCandidateComparisons
  match records[left]? with
  | none => .ok (state.1, comparisons)
  | some leftRecord =>
    let value := nearEdge leftRecord record
    if value.similarityBasisPoints < limits.minimumSimilarityBasisPoints then
      .ok (state.1, comparisons)
    else .ok (state.1 ++ [⟨left, right, value⟩], comparisons)

def post (right : Nat) (postings : Postings) (anchor : Text) : Postings :=
  postings.append anchor right

/-- One round of the loop over the records. -/
def nearStep (limits : DuplicationIndexLimits) (support : Support) (state : NearState)
    (entry : UniqueTextRecord × Nat) : Except DuplicationIndexError NearState := do
  let (record, right) := entry
  if !isEligible limits record then return state
  let anchors := selectedAnchors record support limits
  let (output, comparisons) ← (candidatesOf state.postings anchors).foldlM
    (compareCandidate records limits record right) (state.output, state.candidateComparisons)
  return {
    postings := anchors.foldl (post right) state.postings
    output
    candidateComparisons := comparisons }

def nearEdges (limits : DuplicationIndexLimits) :
    Except DuplicationIndexError (List RecordEdge × Nat) := do
  let state ← records.zipIdx.foldlM (nearStep records limits (countSupport records limits))
    { postings := empty, output := [], candidateComparisons := 0 }
  return (state.output, state.candidateComparisons)

/-! ## Disjoint sets -/

/-- The first loop of `find`. -/
def climb (parent : List Nat) : (rounds : Nat) → (current : Nat) → Option Nat
  | 0, _ => none
  | rounds + 1, current =>
    if parent[current]? = some current then some current
    else climb parent rounds (parent[current]?.getD current)

/-- The second loop of `find`. -/
def compress (root : Nat) : (rounds : Nat) → (parent : List Nat) → (next : Nat) → Option (List Nat)
  | 0, _, _ => none
  | rounds + 1, parent, next =>
    if parent[next]? = some root then some parent
    else match parent[next]? with
      | none => some (parent.set next root)
      | some following => compress root rounds (parent.set next root) following

variable (rounds : Nat) (parent : List Nat)

def find (value : Nat) : Option (Nat × List Nat) := do
  let root ← climb parent rounds value
  let parent ← compress root rounds parent value
  return (root, parent)

def union (left right : Nat) : Option (List Nat) := do
  let (leftRoot, parent) ← find rounds parent left
  let (rightRoot, parent) ← find rounds parent right
  if leftRoot = rightRoot then return parent
  else if leftRoot < rightRoot then return parent.set rightRoot leftRoot
  else return parent.set leftRoot rightRoot

/-! ## Clusters -/

def unionEdge (edge : RecordEdge) : Option (List Nat) :=
  union rounds parent edge.left edge.right

/-- A set in the order of insertion. -/
def insertIndex (set : List Nat) (index : Nat) : List Nat :=
  if index ∈ set then set else set ++ [index]

def collectEdge (state : List Nat × OrderedMap Nat (List Nat)) (edge : RecordEdge) :
    Option (List Nat × OrderedMap Nat (List Nat)) := do
  let (root, parent) ← find rounds state.1 edge.left
  let component := (state.2.get? root).getD []
  return (parent,
    state.2.set root (insertIndex (insertIndex component edge.left) edge.right))

/-- The sets of indices that the edges join. -/
def components (rounds : Nat) (recordCount : Nat) (edges : List RecordEdge) :
    Option (List (List Nat)) := do
  let parent ← edges.foldlM (unionEdge rounds) (List.range recordCount)
  let (_, components) ← edges.foldlM (collectEdge rounds) (parent, empty)
  return components.values

def compareEdges (left right : NearDuplicationEdge) : Ordering :=
  (compareUnits left.leftStatementId right.leftStatementId).then
    (compareUnits left.rightStatementId right.rightStatementId)

def nearCluster (edges : List RecordEdge) (limits : DuplicationIndexLimits) (component : List Nat) :
    Except DuplicationIndexError NearDuplicationCluster := do
  let indices := sortBy compare component
  let members := sortedEvidence
    (indices.flatMap fun index => (records[index]?.map (·.members)).getD [])
  within members.length limits.maximumClusterMembers .maximumClusterMembers
  return {
    edges := sortBy compareEdges
      ((edges.filter fun edge => edge.left ∈ indices ∧ edge.right ∈ indices).map (·.value))
    id := stableClusterId (js "near") (members.map (·.statementId))
    members }

/-- The clusters; without a result, a loop has not ended within the rounds. -/
def nearClusters (records : List UniqueTextRecord) (edges : List RecordEdge)
    (limits : DuplicationIndexLimits) :
    Option (Except DuplicationIndexError (List NearDuplicationCluster)) := do
  let components ← components rounds records.length edges
  return do
    let clusters ← components.mapM (nearCluster records edges limits)
    return sortBy (comparingWith compareUnits (·.id)) clusters

/-! ## The index -/

def exclusions (limits : DuplicationIndexLimits) : List DuplicationIndexExclusion :=
  (entries.filter fun entry => entry.normalizedText.length = 0 ∨
    (symbolsOf entry.normalizedText).length < limits.minimumNearDuplicateCodePoints).map fun entry =>
      { evidence := evidence entry
        reason := if entry.normalizedText.length = 0 then .emptyNormalizedText
          else .nearTextTooShort }

def buildDuplicationIndex (entries : List DuplicationIndexEntry) (options : DuplicationIndexOptions) :
    Option (Except DuplicationIndexError DuplicationIndexResult) :=
  let prepared : Except DuplicationIndexError _ := do
    let limits ← validateOptions options
    let totalLength ← validateEntries functions entries limits
    let (records, totalShingles) ← buildUniqueRecords entries limits
    let exact ← exactClusters records limits
    let (edges, comparisons) ← nearEdges records limits
    return (limits, totalLength, records, totalShingles, exact, edges, comparisons)
  match prepared with
  | .error error => some (.error error)
  | .ok (limits, totalLength, records, totalShingles, exact, edges, comparisons) => do
    let clusters ← nearClusters rounds records edges limits
    return clusters.map fun near => {
      exactClusters := exact
      exclusions := exclusions entries limits
      limits
      metrics := {
        candidateComparisons := comparisons
        entryCount := entries.length
        exactClusterCount := exact.length
        exactDuplicateEntryCount := (exact.map (·.members.length)).sum
        nearClusterCount := near.length
        nearEdgeCount := edges.length
        totalNormalizedTextLength := totalLength
        totalShingleOccurrences := totalShingles
        uniqueNormalizedTextCount := records.length }
      nearClusters := near }

end DuplicationIndex

end AgentContextLint
