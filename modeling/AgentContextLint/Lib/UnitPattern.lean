import AgentContextLint.Lib.Pattern
import AgentContextLint.Lib.Utf16

/-!
# Patterns over code units

The classes and literals of ECMAScript regular expressions in Unicode mode, over code units.
An expression whose literals and positive classes are ASCII matches the same text by units as
by code points: a surrogate is then only met by a negated class, under a repetition.

`foldCase` is the simple case folding of the `i` flag, as far as ASCII patterns see it: two
units outside ASCII fold to ASCII letters.
-/

namespace UnitPattern

open Utf16

def inRange (first last u : CodeUnit) : Bool := first.toNat ≤ u.toNat && u.toNat ≤ last.toNat

/-- `[A-Za-z]` -/
def isLetter (u : CodeUnit) : Bool := inRange 0x41 0x5a u || inRange 0x61 0x7a u

/-- `\d` -/
def isDigit (u : CodeUnit) : Bool := inRange 0x30 0x39 u

/-- `[A-Za-z0-9]` -/
def isAlphanumeric (u : CodeUnit) : Bool := isLetter u || isDigit u

/-- `\w` -/
def isWordUnit (u : CodeUnit) : Bool := isAlphanumeric u || u == 0x5f

/-- `\s` -/
def isWhiteSpace (u : CodeUnit) : Bool :=
  inRange 0x09 0x0d u || u == 0x20 || u == 0xa0 || u == 0x1680 || inRange 0x2000 0x200a u ||
    u == 0x2028 || u == 0x2029 || u == 0x202f || u == 0x205f || u == 0x3000 || u == 0xfeff

def foldCase (u : CodeUnit) : CodeUnit :=
  if inRange 0x41 0x5a u then u + 0x20
  else if u = 0x17f then 0x73
  else if u = 0x212a then 0x6b
  else u

/-- A class under the `i` flag, given by its members in lower case. -/
def folded (accepts : CodeUnit → Bool) (u : CodeUnit) : Bool := accepts (foldCase u)

def oneOf (members : String) : Pattern CodeUnit := .unit fun u => (js members).contains u

/-- A negated class that lists what it leaves out. -/
def noneOf (members : String) : Pattern CodeUnit := .unit fun u => !(js members).contains u

def literal (s : String) : Pattern CodeUnit := .text (fun expected u => u == expected) (js s)

/-- A literal in lower case under the `i` flag. -/
def foldedLiteral (s : String) : Pattern CodeUnit :=
  .text (fun expected u => foldCase u == expected) (js s)

/-- The pattern occurs between two word boundaries; its words start and end with word units, and
`before` says that a word unit stands in front of the text. -/
def occursAsWord (isWord : CodeUnit → Bool) (p : Pattern CodeUnit) : Bool → Text → Bool
  | _, [] => false
  | before, u :: rest =>
    (!before && (p.ends (u :: rest)).any fun behind => !(behind.head?.any isWord)) ||
      occursAsWord isWord p (isWord u) rest

end UnitPattern
