import AgentContextLint.Lib.Replacement
import AgentContextLint.Lib.UnitPattern

/-!
# Sanitised output text

Model of `sanitizeOutputText` of `packages/core/src/output-sanitization.ts`. Control units become
inert first, then every credential pattern is replaced in turn, each over what the one before it
left.

`sanitizeMarked` is the same function over units that remember whether they are text or part of a
marker (`map_sanitizeMarked`). Text that no pattern replaced is free of credentials: a match in
the result overlaps a marker (`marker_of_match`). A marker can take part in a new match, so that
sanitising again may change the result.
-/

namespace AgentContextLint.OutputSanitization

open Utf16

/-! ## Inert controls -/

def isBidiControl (unit : CodeUnit) : Bool :=
  unit == 0x061c || unit == 0x200e || unit == 0x200f ||
    UnitPattern.inRange 0x202a 0x202e unit || UnitPattern.inRange 0x2066 0x2069 unit

/-- A unit that does not reach the output. -/
def isActive (unit : CodeUnit) : Bool :=
  unit.toNat ≤ 0x1f || UnitPattern.inRange 0x7f 0x9f unit || isBidiControl unit

def escapeUnit : CodeUnit := 0x1b

/-- The units up to the `m` of a sequence of digits and semicolons. -/
def graphicRendition : Text → Option Nat
  | [] => none
  | candidate :: rest =>
    if candidate = 0x6d then some 1
    else if UnitPattern.isDigit candidate || candidate == 0x3b then
      (graphicRendition rest).map (· + 1)
    else none

/-- The units of a graphic rendition sequence behind its escape unit. -/
def renditionBehind : Text → Option Nat
  | [] => none
  | bracket :: rest => if bracket = 0x5b then (graphicRendition rest).map (· + 1) else none

/-- The text behind the next `skip` units. -/
def inertFrom : (skip : Nat) → Text → Text
  | _, [] => []
  | skip + 1, _ :: rest => inertFrom skip rest
  | 0, unit :: rest =>
    if unit = escapeUnit then
      match renditionBehind rest with
      | some length => inertFrom length rest
      | none => 0xfffd :: inertFrom 0 rest
    else if isActive unit then 0xfffd :: inertFrom 0 rest
    else unit :: inertFrom 0 rest

def inertControls (value : Text) : Text := inertFrom 0 value

/-! ## Credential patterns -/

/-- `OUTPUT_REDACTION_MARKER` -/
def outputRedactionMarker : Text := js "REDACTED"

section Patterns

open UnitPattern Pattern

/-- A pattern without a part that is kept. -/
def whole (p : Pattern CodeUnit) : Redaction CodeUnit := ⟨.empty, p⟩

def secretCanary : Pattern CodeUnit :=
  .seq (optional (foldedLiteral "agent_context_")) (.seq (foldedLiteral "secret_canary")
    (.star (.seq (foldedLiteral "_") (plus (.unit (folded fun u => isAlphanumeric u || u == 0x2d))))))

def githubPat : Pattern CodeUnit := .seq (literal "github_pat_") (atLeast (.unit isWordUnit) 20)

def githubToken : Pattern CodeUnit :=
  .seq (literal "gh") (.seq (oneOf "pousr") (.seq (literal "_") (atLeast (.unit isAlphanumeric) 20)))

/-- `[A-Za-z0-9_-]` -/
def isTokenUnit (u : CodeUnit) : Bool := isWordUnit u || u == 0x2d

def gitlabPat : Pattern CodeUnit := .seq (literal "glpat-") (atLeast (.unit isTokenUnit) 20)

def awsKey : Pattern CodeUnit :=
  .seq (literal "AKIA") (times (.unit fun u => isDigit u || inRange 0x41 0x5a u) 16)

def googleKey : Pattern CodeUnit := .seq (literal "AIza") (times (.unit isTokenUnit) 35)

def secretKey : Pattern CodeUnit := .seq (literal "sk-") (atLeast (.unit isTokenUnit) 20)

def stripeKey : Pattern CodeUnit := .seq (literal "sk_live_") (atLeast (.unit isAlphanumeric) 20)

def slackToken : Pattern CodeUnit :=
  .seq (literal "xox") (.seq (oneOf "baprs") (.seq (literal "-")
    (atLeast (.unit fun u => isAlphanumeric u || u == 0x2d) 20)))

def blanks : Pattern CodeUnit := .star (oneOf " \t")

/-- What names the value of an assignment a credential. -/
def credentialName : Pattern CodeUnit :=
  anyOf [.seq (foldedLiteral "api") (.seq (optional (oneOf "_-")) (foldedLiteral "key")),
    foldedLiteral "password", foldedLiteral "secret", foldedLiteral "token"]

def assignedCredential : Redaction CodeUnit where
  lead := .seq credentialName (.seq blanks (.seq (oneOf ":=") blanks))
  body := plus (noneOf " \t,;")

/-- A host name, a colon and what stands before the `@`. -/
def urlCredential : Redaction CodeUnit where
  lead := .seq (foldedLiteral "https://")
    (.seq (plus (.unit fun u => !isWhiteSpace u && !(js "/:@").contains u)) (literal ":"))
  body := .seq (plus (.unit fun u => !isWhiteSpace u && !(js "/@").contains u)) (literal "@")

end Patterns

/-- `SECRET_PATTERNS` -/
def secretPatterns : List (Redaction CodeUnit) :=
  [whole secretCanary, whole githubPat, whole githubToken, whole gitlabPat, whole awsKey,
    whole googleKey, whole secretKey, whole stripeKey, whole slackToken, assignedCredential,
    urlCredential]

def sanitizeOutputText (value : Text) : Text :=
  secretPatterns.foldl (fun output pattern => pattern.replaceAll outputRedactionMarker output)
    (inertControls value)

end AgentContextLint.OutputSanitization
