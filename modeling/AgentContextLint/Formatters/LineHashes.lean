import AgentContextLint.Core.IrValidation
import AgentContextLint.Lib.JsonTexts
import AgentContextLint.Lib.RollingHash

/-!
# Line hashes

Model of `computeGithubPrimaryLocationLineHashes` in `packages/formatters/src/sarif.ts`: one pass
over a text that keeps the last hundred counted characters in a ring, beside a ring with the lines
that start at them. The hash of a line is output when its first character leaves the rings.

`-1` in the ring of line numbers is `none`.
-/

namespace AgentContextLint.SarifLineHashes

open Utf16

/-- `HASH_WINDOW` -/
def hashWindow : Nat := 100

/-- `HASH_MULTIPLIER` -/
def hashMultiplier : Nat := 37

/-- `HASH_EOF` -/
def hashEof : Nat := 65535

/-- `value & MASK_64`, also for negative values. -/
def mask64 (value : Int) : Nat := (value % 2 ^ 64).toNat

/-- The loop that computes `firstMod`. -/
def firstMod : Nat := (fun m => mask64 (m * hashMultiplier))^[hashWindow] 1

/-- `value.toString(16)` -/
def hexText (n : Nat) : Text :=
  if n = 0 then [Json.hexUnit 0] else ((Nat.digits 16 n).reverse).map Json.hexUnit

/-- The rings, and what has been output of them. -/
structure Rings where
  window : List Nat
  lineNumbers : List (Option Nat)
  hashes : OrderedMap Nat Text
  counts : OrderedMap Text Nat
  hash : Nat
  index : Nat

structure HashState extends Rings where
  lineNumber : Nat
  lineStart : Bool
  previousCarriageReturn : Bool

def initial : HashState where
  window := List.replicate hashWindow 0
  lineNumbers := List.replicate hashWindow none
  hashes := .empty
  counts := .empty
  hash := 0
  index := 0
  lineNumber := 0
  lineStart := true
  previousCarriageReturn := false

def outputHash (r : Rings) : Rings :=
  let raw := hexText r.hash
  let count := (r.counts.get? raw).getD 0 + 1
  let hashes := match r.lineNumbers[r.index]? with
    | some (some outputLine) =>
      if 0 < outputLine then
        r.hashes.set outputLine (raw ++ js ":" ++ Netstring.decimalText count)
      else r.hashes
    | _ => r.hashes
  { r with
    counts := r.counts.set raw count, hashes, lineNumbers := r.lineNumbers.set r.index none }

/-- `if (lineNumbers[index] !== -1) outputHash()` -/
def outputPending (r : Rings) : Rings :=
  if r.lineNumbers[r.index]? = some none then r else outputHash r

def updateHash (current : Nat) (r : Rings) : Rings :=
  let beginning := (r.window[r.index]?).getD 0
  { r with
    window := r.window.set r.index current
    hash := mask64 (hashMultiplier * r.hash + current - firstMod * beginning)
    index := (r.index + 1) % hashWindow }

/-- What `processCharacter` does with a character that counts. -/
def processCounted (current : Nat) (s : HashState) : HashState :=
  let s := { s with toRings := outputPending s.toRings }
  let s := if s.lineStart then
      { s with
        lineStart := false, lineNumber := s.lineNumber + 1
        lineNumbers := s.lineNumbers.set s.index (some (s.lineNumber + 1)) }
    else s
  let s := if current = 10 then { s with lineStart := true } else s
  { s with toRings := updateHash current s.toRings }

def processCharacter (s : HashState) (input : Nat) : HashState :=
  if input = 32 ∨ input = 9 ∨ (s.previousCarriageReturn = true ∧ input = 10) then
    { s with previousCarriageReturn := false }
  else if input = 13 then processCounted 10 { s with previousCarriageReturn := true }
  else processCounted input { s with previousCarriageReturn := false }

/-- One round of the loop behind the text. -/
def flushOne (r : Rings) : Rings := updateHash 0 (outputPending r)

def computeGithubPrimaryLocationLineHashes (text : Text) : OrderedMap Nat Text :=
  let s := text.foldl (fun s u => processCharacter s u.toNat) initial
  (flushOne^[hashWindow] (processCharacter s hashEof).toRings).hashes

variable (text : Text)

def primaryLocationLineHash (primary : SourceRange) : Option Text :=
  (computeGithubPrimaryLocationLineHashes text).get? (primary.start.line + 1)

/-! ## What the hashes are -/

/-- The lines of a text: a line feed, a carriage return and the two in this order end one. -/
def textLines : Text → List Text
  | [] => [[]]
  | 0x0d :: 0x0a :: rest => [] :: textLines rest
  | u :: rest =>
    if u = 0x0a ∨ u = 0x0d then [] :: textLines rest
    else (textLines rest).modifyHead (u :: ·)

/-- The units of a line but for its spaces and tabs. -/
def counted (line : Text) : List Nat :=
  (line.map (·.toNat)).filter fun unit => unit ≠ 32 ∧ unit ≠ 9

/-- The counted characters, a line feed for each terminator, and what is put behind them; further on
there are zeros. -/
def hashStream (text : Text) : List Nat :=
  List.intercalate [10] ((textLines text).map counted) ++ [hashEof]

/-- Where the first counted character of a line is in the stream. -/
def streamStart (line : Nat) : Nat :=
  (((textLines text).take line).map fun units => (counted units).length + 1).sum

/-- The hash of a line, given by its number from zero on. -/
def lineHash (line : Nat) : Nat :=
  (∑ j ∈ Finset.range 100, (hashStream text).getD (streamStart text line + j) 0 * 37 ^ (99 - j)) %
    2 ^ 64

/-- How many lines up to a line have its hash. -/
def occurrence (line : Nat) : Nat :=
  ((List.range (line + 1)).filter fun earlier => lineHash text earlier = lineHash text line).length

def lineEntry (line : Nat) : Text :=
  hexText (lineHash text line) ++ js ":" ++ Netstring.decimalText (occurrence text line)

end AgentContextLint.SarifLineHashes
