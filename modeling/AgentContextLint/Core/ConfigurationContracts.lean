import AgentContextLint.Core.SourcePositions
import AgentContextLint.Core.RepositoryPath

/-!
# Configuration contracts

The enumerations of `packages/core/src/configuration-contracts.ts`, each with its texts and with
the lookup of a text, and the source locations of a configuration.
-/

namespace AgentContextLint

open Utf16

inductive ConfigurationProfileId
  | claudeCode
  | codexCli
  | copilotCli
  | copilotCloudAgent
  | copilotCodeReview
  | copilotVscode
  | cursorAgent
  | geminiCli
  deriving DecidableEq

namespace ConfigurationProfileId

/-- `CONFIGURATION_PROFILE_IDS` -/
def all : List ConfigurationProfileId :=
  [claudeCode, codexCli, copilotCli, copilotCloudAgent, copilotCodeReview, copilotVscode,
    cursorAgent, geminiCli]

def text : ConfigurationProfileId → Text
  | claudeCode => js "claude-code"
  | codexCli => js "codex-cli"
  | copilotCli => js "copilot-cli"
  | copilotCloudAgent => js "copilot-cloud-agent"
  | copilotCodeReview => js "copilot-code-review"
  | copilotVscode => js "copilot-vscode"
  | cursorAgent => js "cursor-agent"
  | geminiCli => js "gemini-cli"

def ofText (s : Text) : Option ConfigurationProfileId := all.find? fun id => id.text = s

end ConfigurationProfileId

inductive ConfigurationSurfaceId
  | claudeCodeLocalSession
  | codexCliLocalCliSingleCwd
  | copilotCliLocalTerminal
  | copilotCloudAgentGithubHosted
  | copilotCodeReviewGithubHosted
  | copilotVscodeLocalChat
  | cursorAgentCli
  | cursorAgentIde
  | geminiCliLocalTerminal
  deriving DecidableEq

namespace ConfigurationSurfaceId

def text : ConfigurationSurfaceId → Text
  | claudeCodeLocalSession => js "claude-code/local-session"
  | codexCliLocalCliSingleCwd => js "codex-cli/local-cli-single-cwd"
  | copilotCliLocalTerminal => js "copilot-cli/local-terminal"
  | copilotCloudAgentGithubHosted => js "copilot-cloud-agent/github-hosted"
  | copilotCodeReviewGithubHosted => js "copilot-code-review/github-hosted"
  | copilotVscodeLocalChat => js "copilot-vscode/local-chat"
  | cursorAgentCli => js "cursor-agent/cli"
  | cursorAgentIde => js "cursor-agent/ide"
  | geminiCliLocalTerminal => js "gemini-cli/local-terminal"

end ConfigurationSurfaceId

/-- `CONFIGURATION_SURFACES_BY_PROFILE` -/
def configurationSurfacesByProfile : ConfigurationProfileId → List ConfigurationSurfaceId
  | .claudeCode => [.claudeCodeLocalSession]
  | .codexCli => [.codexCliLocalCliSingleCwd]
  | .copilotCli => [.copilotCliLocalTerminal]
  | .copilotCloudAgent => [.copilotCloudAgentGithubHosted]
  | .copilotCodeReview => [.copilotCodeReviewGithubHosted]
  | .copilotVscode => [.copilotVscodeLocalChat]
  | .cursorAgent => [.cursorAgentCli, .cursorAgentIde]
  | .geminiCli => [.geminiCliLocalTerminal]

inductive ConfigurationRuleSeverity
  | error
  | warning
  | info
  | off
  deriving DecidableEq

namespace ConfigurationRuleSeverity

/-- `CONFIGURATION_RULE_SEVERITIES` -/
def all : List ConfigurationRuleSeverity := [error, warning, info, off]

def text : ConfigurationRuleSeverity → Text
  | error => js "error"
  | warning => js "warning"
  | info => js "info"
  | off => js "off"

def ofText (s : Text) : Option ConfigurationRuleSeverity := all.find? fun id => id.text = s

end ConfigurationRuleSeverity

def packageManagers : List Text := [js "auto", js "npm", js "pnpm", js "yarn", js "bun"]

def standardsChannels : List Text := [js "stable", js "preview"]

def efficiencyTokenizers : List Text := [js "estimate"]

def efficiencyScoreVersions : List Text := [js "1.0.0"]

def configurationContractVersion : Int := 1

/-- `PROFILE_CATALOG_CONTRACT_VERSION` of `profile-contracts.ts`. -/
def profileCatalogContractVersion : Text := js "0.1.0"

structure ConfigurationSourceLocation where
  path : RelativePath
  start : SourcePosition
  stop : SourcePosition
  deriving DecidableEq

end AgentContextLint
