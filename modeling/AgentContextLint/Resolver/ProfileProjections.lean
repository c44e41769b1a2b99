import AgentContextLint.Resolver.EffectiveContext

/-!
# The projections of the other profiles

Model of `projectCodex`, `projectCopilot` and `projectCursor` of
`packages/resolver/src/effective-context.ts`, and of `resolveEffectiveContext` for resolutions of
all five profiles. For the Claude Code and the Gemini CLI profiles it is the one of
`EffectiveContext`.
-/

namespace AgentContextLint.ProfileProjections

open Utf16 Utf8 Metered Sorting

open EffectiveContext (EffectiveContextDocument EffectiveContextOccurrence
  EffectiveContextConflictOpportunity EffectiveContextAmbiguity EffectiveContextResolution
  EffectiveContextError EffectiveDocumentState EffectiveContentState Truncation AmbiguityRequest
  Projection ContextOrdering failIf makeDocument addAmbiguities assembly loadOrder possible)

/-- What a projection reads of the descriptor of a profile. -/
structure ProfileIdentity where
  clientVersion : Option Text
  contractVersion : Text
  profileId : Text
  specSnapshotId : Text
  surfaceId : Text

/-! ## Codex -/

inductive CodexCliRepositoryEntryKind
  | brokenSymlink
  | directory
  | externalSymlink
  | file
  | internalSymlink
  | unknown
  | unreadableFile

inductive CodexCliCandidateDecisionState
  | missing
  | selectionContingent
  | selectionUnknown
  | selected
  | shadowed
  | skippedBrokenSymlink
  | skippedNotFile
  deriving DecidableEq

def CodexCliCandidateDecisionState.text : CodexCliCandidateDecisionState → Text
  | .missing => js "missing"
  | .selectionContingent => js "selection-contingent"
  | .selectionUnknown => js "selection-unknown"
  | .selected => js "selected"
  | .shadowed => js "shadowed"
  | .skippedBrokenSymlink => js "skipped-broken-symlink"
  | .skippedNotFile => js "skipped-not-file"

structure CodexCliCandidateDecision where
  entryKind : Option CodexCliRepositoryEntryKind
  path : RelativePath
  state : CodexCliCandidateDecisionState

inductive CodexCliSelectionState
  | aggregateBudgetExhausted
  | boundedPrefixEmptyAfterTrim
  | contentUnavailableExternalSymlink
  | emptyAfterTrim
  | included
  | instructionReadError
  | projectDocLoadingDisabled
  | selectionUnknown
  deriving DecidableEq

def CodexCliSelectionState.text : CodexCliSelectionState → Text
  | .aggregateBudgetExhausted => js "aggregate-budget-exhausted"
  | .boundedPrefixEmptyAfterTrim => js "bounded-prefix-empty-after-trim"
  | .contentUnavailableExternalSymlink => js "content-unavailable-external-symlink"
  | .emptyAfterTrim => js "empty-after-trim"
  | .included => js "included"
  | .instructionReadError => js "instruction-read-error"
  | .projectDocLoadingDisabled => js "project-doc-loading-disabled"
  | .selectionUnknown => js "selection-unknown"

structure CodexCliSelectedDocument where
  availableBytes : Option Nat
  bytesIncluded : Nat
  path : RelativePath
  state : CodexCliSelectionState
  truncated : Bool
  deriving DecidableEq

structure CodexCliContribution where
  path : RelativePath
  /-- `syntax?.document.id`. -/
  documentId : Option Text
  text : Text

inductive CodexCliGlobalContextState
  | base
  | none
  | override
  | unavailable
  deriving DecidableEq

structure CodexCliAgentsResolution where
  analysisIsPartial : Bool
  assembledText : Text
  candidateDecisions : List CodexCliCandidateDecision
  contributions : List CodexCliContribution
  externalContext : CodexCliGlobalContextState
  profile : ProfileIdentity
  selected : List CodexCliSelectedDocument
  semanticPrecedence : Text
  targetPath : RelativePath

def CodexCliCandidateDecisionState.isConditional (state : CodexCliCandidateDecisionState) : Bool :=
  state = .selectionContingent ∨ state = .selectionUnknown

variable (value : CodexCliAgentsResolution)

/-- `selectedByPath.get`: of several entries with one path the last one counts. -/
def selectedAt (path : RelativePath) :
    Option CodexCliSelectedDocument := value.selected.reverse.find? (·.path = path)

def contributionAt (path : RelativePath) :
    Option CodexCliContribution := value.contributions.reverse.find? (·.path = path)

variable (state : CodexCliCandidateDecisionState)

def codexActivation (selected : Option CodexCliSelectedDocument) : ActivationState :=
  if state.isConditional then .indeterminate
  else if selected.isSome then .active
  else .inactive

def selectedState (selected : CodexCliSelectedDocument) : EffectiveDocumentState :=
  if selected.availableBytes = none then .unavailable
  else if selected.state = .emptyAfterTrim ∨ selected.state = .boundedPrefixEmptyAfterTrim
  then .empty
  else .effective

def codexState (selected : Option CodexCliSelectedDocument) : EffectiveDocumentState :=
  if state = .shadowed then .shadowed
  else if state.isConditional then .conditional
  else (selected.map selectedState).getD .inactive

def codexContentState (selected : Option CodexCliSelectedDocument)
    (contribution : Option CodexCliContribution) : EffectiveContentState :=
  if ∃ entry ∈ selected, entry.availableBytes = none then .unavailable
  else if ∃ entry ∈ selected, entry.truncated then .truncated
  else if contribution.isNone then .identityOnly
  else .complete

def codexTruncation (selected : Option CodexCliSelectedDocument) : Truncation :=
  if ∃ entry ∈ selected, entry.truncated then .front
  else if ∃ entry ∈ selected, entry.availableBytes = none then .unknown
  else .whole

/-- A document, from what was selected at its path and what that contributes. For `indexOf`,
entries with the same fields are one entry. -/
def codexDocumentOf (decision : CodexCliCandidateDecision)
    (selected : Option CodexCliSelectedDocument) (contribution : Option CodexCliContribution) :
    EffectiveContextDocument :=
  let document := makeDocument {
    activation := codexActivation decision.state selected
    contentState := codexContentState selected contribution
    formatId := js "agents-markdown"
    order := selected.map value.selected.idxOf
    path := decision.path
    profileId := value.profile.profileId
    reasonCode := decision.state.text
    sourceDocumentId := contribution.bind (·.documentId)
    state := codexState decision.state selected
    text := contribution.map (·.text) }
  { document with
    availableBytes := (selected.bind (·.availableBytes)).or document.availableBytes
    includedBytes := (selected.map (·.bytesIncluded)).or document.includedBytes
    truncation := codexTruncation selected }

def codexDocument (decision : CodexCliCandidateDecision) : EffectiveContextDocument :=
  codexDocumentOf value decision (selectedAt value decision.path)
    (contributionAt value decision.path)

/-- The decisions that the loop does not pass by. -/
def presentDecisions (value : CodexCliAgentsResolution) : List CodexCliCandidateDecision :=
  value.candidateDecisions.filter fun decision =>
    decision.entryKind ≠ none ∧ decision.state ≠ .missing

def codexDocuments (value : CodexCliAgentsResolution) : List EffectiveContextDocument :=
  (presentDecisions value).map (codexDocument value)

def decisionAmbiguities (decision : CodexCliCandidateDecision) : List AmbiguityRequest :=
  let id := (codexDocument value decision).id
  (if decision.state.isConditional then [⟨.activation, decision.state.text, [id]⟩] else []) ++
  ((selectedAt value decision.path).filter (·.truncated)).toList.map fun entry =>
    ⟨.truncation, entry.state.text, [id]⟩

def codexEffective (value : CodexCliAgentsResolution) : List EffectiveContextDocument :=
  sortBy (comparingWith compare fun entry => entry.order.getD 0)
    ((codexDocuments value).filter fun entry =>
      entry.activation = .active ∧ entry.state ≠ .shadowed)

def codexAmbiguities (value : CodexCliAgentsResolution) : List AmbiguityRequest :=
  (presentDecisions value).flatMap (decisionAmbiguities value) ++
  (if (codexEffective value).length > 1 then
    [⟨.semanticPrecedence, value.semanticPrecedence, (codexEffective value).map (·.id)⟩] else []) ++
  if value.externalContext = .unavailable then
    [⟨.externalContext, js "codex-global-context-unavailable", []⟩] else []

def projectCodex (value : CodexCliAgentsResolution) : Except EffectiveContextError Projection := do
  let ambiguities ← addAmbiguities [] (codexAmbiguities value)
  let sequence := (codexEffective value).map (·.id)
  return {
    ambiguities
    assembly := assembly
      (if ¬ value.analysisIsPartial ∧ value.externalContext ≠ .unavailable then .exact
        else .incomplete)
      sequence (some value.assembledText)
    clientVersion := value.profile.clientVersion
    documents := codexDocuments value
    ordering := if ∃ entry ∈ codexDocuments value, entry.activation = .indeterminate
      then .incomplete else .total
    precedence := loadOrder (codexEffective value)
    profileId := value.profile.profileId
    profileVersion := value.profile.contractVersion
    sequence
    specSnapshotId := value.profile.specSnapshotId
    surfaceId := value.profile.surfaceId }

/-! ## Copilot -/

/-- What `bodyText` reads of the syntax of a file. -/
structure InstructionSyntax where
  /-- The UTF-16 offsets of the body. -/
  bodyRange : Option (Nat × Nat)
  documentId : Text
  text : Option Text

def bodyText (value : InstructionSyntax) : Option Text :=
  match value.text, value.bodyRange with
  | some text, some range => some ((text.take range.2).drop range.1)
  | text, _ => text

inductive CopilotInstructionFormat
  | pathSpecific
  | repositoryWide

def CopilotInstructionFormat.text : CopilotInstructionFormat → Text
  | .pathSpecific => js "path-specific"
  | .repositoryWide => js "repository-wide"

inductive CopilotProfileDecisionCode
  | documentedAuto
  | documentedDisabled
  | documentedExclusion
  | documentedNoMatch
  | documentedNotDiscovered
  | manualAttachment
  | malformedSyntax
  | missingRuntimeEvent
  | unknownDiscovery
  | unknownEventState
  | unknownGlobSemantics
  | unknownSettingState
  | unknownTargetState
  | vscodeDescriptionContradiction

def CopilotProfileDecisionCode.text : CopilotProfileDecisionCode → Text
  | .documentedAuto => js "documented-auto"
  | .documentedDisabled => js "documented-disabled"
  | .documentedExclusion => js "documented-exclusion"
  | .documentedNoMatch => js "documented-no-match"
  | .documentedNotDiscovered => js "documented-not-discovered"
  | .manualAttachment => js "manual-attachment"
  | .malformedSyntax => js "malformed-syntax"
  | .missingRuntimeEvent => js "missing-runtime-event"
  | .unknownDiscovery => js "unknown-discovery"
  | .unknownEventState => js "unknown-event-state"
  | .unknownGlobSemantics => js "unknown-glob-semantics"
  | .unknownSettingState => js "unknown-setting-state"
  | .unknownTargetState => js "unknown-target-state"
  | .vscodeDescriptionContradiction => js "vscode-description-contradiction"

structure CopilotTargetDecision where
  state : ActivationState
  targetPath : RelativePath

structure CopilotCandidateDecision where
  code : CopilotProfileDecisionCode
  format : CopilotInstructionFormat
  path : RelativePath
  syntaxResult : InstructionSyntax
  targetDecisions : List CopilotTargetDecision

structure CopilotProfileResolution where
  analysisIsPartial : Bool
  candidates : List CopilotCandidateDecision
  profile : ProfileIdentity

def targetActivation (candidate : CopilotCandidateDecision) (targetPath : RelativePath) :
    ActivationState :=
  ((candidate.targetDecisions.find? (·.targetPath = targetPath)).map (·.state)).getD .indeterminate

def copilotDocument (profileId : Text) (targetPath : RelativePath)
    (candidate : CopilotCandidateDecision) : EffectiveContextDocument :=
  makeDocument {
    activation := targetActivation candidate targetPath
    contentState := if bodyText candidate.syntaxResult = none then .unavailable else .complete
    formatId := candidate.format.text
    order := none
    path := candidate.path
    profileId := profileId
    reasonCode := candidate.code.text
    sourceDocumentId := some candidate.syntaxResult.documentId
    state := EffectiveContext.claudeState (targetActivation candidate targetPath)
    text := bodyText candidate.syntaxResult }

def copilotDocuments (value : CopilotProfileResolution) (targetPath : RelativePath) :
    List EffectiveContextDocument :=
  sortBy (comparingBytes (·.path))
    (value.candidates.map (copilotDocument value.profile.profileId targetPath))

def copilotAmbiguities (value : CopilotProfileResolution) (targetPath : RelativePath) :
    List AmbiguityRequest :=
  (if ∃ candidate ∈ value.candidates, ∃ entry ∈ candidate.targetDecisions,
    entry.targetPath = targetPath then []
    else [⟨.targetScope, js "copilot-target-not-profiled", []⟩]) ++
  (value.candidates.filter (targetActivation · targetPath = .indeterminate)).map (fun candidate =>
    ⟨.activation, candidate.code.text,
      [(copilotDocument value.profile.profileId targetPath candidate).id]⟩) ++
  if (possible (copilotDocuments value targetPath)).length > 1 then
    [⟨.precedence, js "copilot-general-precedence-undefined",
      (possible (copilotDocuments value targetPath)).map (·.id)⟩] else []

def projectCopilot (value : CopilotProfileResolution) (targetPath : RelativePath) :
    Except EffectiveContextError Projection := do
  let ambiguities ← addAmbiguities [] (copilotAmbiguities value targetPath)
  let documents := copilotDocuments value targetPath
  return {
    ambiguities
    assembly := assembly
      (if (possible documents).length ≤ 1 ∧ ∀ entry ∈ possible documents, entry.text ≠ none
        then .incomplete else .unknown)
      ((possible documents).map (·.id)) none
    clientVersion := value.profile.clientVersion
    documents
    ordering := if (possible documents).length ≤ 1 then .total else .unordered
    precedence := []
    profileId := value.profile.profileId
    profileVersion := value.profile.contractVersion
    sequence := sortBy compareBytes ((possible documents).map (·.id))
    specSnapshotId := value.profile.specSnapshotId
    surfaceId := value.profile.surfaceId }

/-! ## Cursor -/

inductive CursorRuleFormat
  | legacy
  | mdc
  deriving DecidableEq

inductive CursorProfileDecisionCode
  | agentSelection
  | alwaysEvent
  | autoEvent
  | externalContext
  | legacyConditional
  | manualMention
  | malformedSyntax
  | mixedMode
  | noRuntimeEvent
  | notDiscovered
  | projectRulesDisabled
  | projectRulesSettingUnknown
  | unsupportedVersion
  | unknownMode
  | unknownSurfaceSupport
  | unknownVersion

def CursorProfileDecisionCode.text : CursorProfileDecisionCode → Text
  | .agentSelection => js "agent-selection"
  | .alwaysEvent => js "always-event"
  | .autoEvent => js "auto-event"
  | .externalContext => js "external-context"
  | .legacyConditional => js "legacy-conditional"
  | .manualMention => js "manual-mention"
  | .malformedSyntax => js "malformed-syntax"
  | .mixedMode => js "mixed-mode"
  | .noRuntimeEvent => js "no-runtime-event"
  | .notDiscovered => js "not-discovered"
  | .projectRulesDisabled => js "project-rules-disabled"
  | .projectRulesSettingUnknown => js "project-rules-setting-unknown"
  | .unsupportedVersion => js "unsupported-version"
  | .unknownMode => js "unknown-mode"
  | .unknownSurfaceSupport => js "unknown-surface-support"
  | .unknownVersion => js "unknown-version"

inductive CursorExternalContextState
  | absent
  | present
  | unknown
  deriving DecidableEq

def CursorExternalContextState.text : CursorExternalContextState → Text
  | .absent => js "absent"
  | .present => js "present"
  | .unknown => js "unknown"

structure CursorCandidateDecision where
  activation : ActivationState
  code : CursorProfileDecisionCode
  format : CursorRuleFormat
  path : RelativePath
  /-- The states of the references. -/
  references : List ActivationState
  syntaxResult : InstructionSyntax

structure CursorProfileResolution where
  analysisIsPartial : Bool
  candidates : List CursorCandidateDecision
  clientVersion : Option Text
  /-- The targets of the runtime events. -/
  eventTargets : List RelativePath
  externalContext : CursorExternalContextState
  profile : ProfileIdentity

def cursorActivation (runtimeTargets : List RelativePath)
    (targetPath : RelativePath) (candidate : CursorCandidateDecision) : ActivationState :=
  if runtimeTargets.length = 0 ∨ (runtimeTargets.length = 1 ∧ targetPath ∈ runtimeTargets)
  then candidate.activation else .indeterminate

def cursorDocument (profileId : Text) (runtimeTargets : List RelativePath)
    (targetPath : RelativePath) (candidate : CursorCandidateDecision) : EffectiveContextDocument :=
  makeDocument {
    activation := cursorActivation runtimeTargets targetPath candidate
    contentState := if bodyText candidate.syntaxResult = none then .unavailable else .complete
    formatId := if candidate.format = .mdc then js "cursor-rule-mdc" else js "cursor-legacy"
    order := none
    path := candidate.path
    profileId := profileId
    reasonCode := candidate.code.text
    sourceDocumentId := some candidate.syntaxResult.documentId
    state := EffectiveContext.claudeState (cursorActivation runtimeTargets targetPath candidate)
    text := bodyText candidate.syntaxResult }

/-- `new Set` of the targets of the events. -/
def runtimeTargets (value : CursorProfileResolution) : List RelativePath :=
  value.eventTargets.eraseDups

def cursorDocuments (value : CursorProfileResolution) (targetPath : RelativePath) :
    List EffectiveContextDocument :=
  sortBy (comparingBytes (·.path))
    (value.candidates.map (cursorDocument value.profile.profileId (runtimeTargets value) targetPath))

def cursorCandidateAmbiguities (value : CursorProfileResolution) (targetPath : RelativePath)
    (candidate : CursorCandidateDecision) : List AmbiguityRequest :=
  let document := cursorDocument value.profile.profileId (runtimeTargets value) targetPath candidate
  (if document.activation = .indeterminate then
    [⟨.activation, candidate.code.text, [document.id]⟩] else []) ++
  if .indeterminate ∈ candidate.references then
    [⟨.importResolution, js "cursor-reference-base-unknown", [document.id]⟩] else []

def cursorAmbiguities (value : CursorProfileResolution) (targetPath : RelativePath) :
    List AmbiguityRequest :=
  (if (runtimeTargets value).length > 1 then
    [⟨.targetScope, js "cursor-multi-target-trace", []⟩] else []) ++
  value.candidates.flatMap (cursorCandidateAmbiguities value targetPath) ++
  (if (possible (cursorDocuments value targetPath)).length > 1 then
    [⟨.precedence, js "cursor-rule-precedence-unknown",
      (possible (cursorDocuments value targetPath)).map (·.id)⟩] else []) ++
  if value.externalContext ≠ .absent then
    [⟨.externalContext, js "cursor-external-" ++ value.externalContext.text, []⟩] else []

def projectCursor (value : CursorProfileResolution) (targetPath : RelativePath) :
    Except EffectiveContextError Projection := do
  let ambiguities ← addAmbiguities [] (cursorAmbiguities value targetPath)
  let documents := cursorDocuments value targetPath
  let sequence := sortBy compareBytes ((possible documents).map (·.id))
  return {
    ambiguities
    assembly := assembly .unknown sequence none
    clientVersion := value.clientVersion
    documents
    ordering := if (possible documents).length ≤ 1 then .total else .unknown
    precedence := []
    profileId := value.profile.profileId
    profileVersion := value.profile.contractVersion
    sequence
    specSnapshotId := value.profile.specSnapshotId
    surfaceId := value.profile.surfaceId }

/-! ## The resolver -/

inductive EffectiveContextProfileResolution
  | codexCli (value : CodexCliAgentsResolution)
  | copilot (value : CopilotProfileResolution)
  | cursor (value : CursorProfileResolution)
  /-- Claude Code and Gemini CLI. -/
  | modelled (value : EffectiveContext.EffectiveContextProfileResolution)

structure ResolveEffectiveContextInput where
  importDags : List DocumentImportDag
  profileResolution : EffectiveContextProfileResolution
  targetPath : RelativePath

def EffectiveContextProfileResolution.analysisIsPartial : EffectiveContextProfileResolution → Bool
  | .codexCli value => value.analysisIsPartial
  | .copilot value => value.analysisIsPartial
  | .cursor value => value.analysisIsPartial
  | .modelled value => value.analysisIsPartial

def project (profileResolution : EffectiveContextProfileResolution)
    (targetPath : RelativePath) : Except EffectiveContextError Projection :=
  match profileResolution with
  | .codexCli value => do
    failIf (value.targetPath ≠ targetPath) .invalidRelationship
      "Codex resolution target differs from E05 target"
    projectCodex value
  | .copilot value => projectCopilot value targetPath
  | .cursor value => projectCursor value targetPath
  | .modelled value => EffectiveContext.project value

def resolveEffectiveContext (input : ResolveEffectiveContextInput) :
    Except EffectiveContextError EffectiveContextResolution :=
  EffectiveContext.resolveProjection input.importDags input.targetPath
    (project input.profileResolution input.targetPath) input.profileResolution.analysisIsPartial

def Issued (result : EffectiveContextResolution) : Prop :=
  ∃ input, resolveEffectiveContext input = .ok result

end AgentContextLint.ProfileProjections
