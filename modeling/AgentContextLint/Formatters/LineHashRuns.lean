import AgentContextLint.Formatters.LineHashes

/-!
# Runs of the line hashes

What one character does to the rings is the step of a queue: the oldest character leaves, together
with the line that starts at it, and the character enters (`enter_step`). Hence a run outputs the
hash of the window of every character at which a line starts, in the order of the lines.
-/

namespace AgentContextLint.SarifLineHashes

open Utf16 RollingHash List

variable {r : Rings}

/-! ## Numbers below the mask -/

theorem mask64_eq_iff {a b : Int} : mask64 a = mask64 b ↔ a ≡ b [ZMOD 2 ^ 64] := by
  have natural : ∀ a : Int, 0 ≤ a % 2 ^ 64 := fun a => Int.emod_nonneg a (by decide)
  unfold mask64 Int.ModEq
  constructor
  · intro same
    rw [← Int.toNat_of_nonneg (natural a), same, Int.toNat_of_nonneg (natural b)]
  · intro same
    rw [same]

theorem mask64_modEq (a : Int) : (mask64 a : Int) ≡ a [ZMOD 2 ^ 64] := by
  rw [mask64, Int.toNat_of_nonneg (Int.emod_nonneg a (by decide))]
  exact Int.mod_modEq a _

theorem firstMod_modEq : (firstMod : Int) ≡ 37 ^ 100 [ZMOD 2 ^ 64] := by decide +kernel

/-! ## The queue -/

abbrev Entry := Nat × Option Nat

/-- The characters in the rings, the oldest first, with the lines that start at them. -/
def queue (r : Rings) : List Entry := (held r.window r.index).zip (held r.lineNumbers r.index)

def hashOf (characters : List Nat) : Nat :=
  mask64 (polynomial 37 (characters.map fun character : Nat => (character : Int)))

structure Valid (r : Rings) : Prop where
  window : r.window.length = hashWindow
  lineNumbers : r.lineNumbers.length = hashWindow
  index : r.index < hashWindow
  hash : r.hash = hashOf (held r.window r.index)

abbrev Output := OrderedMap Nat Text × OrderedMap Text Nat

def output (r : Rings) : Output := (r.hashes, r.counts)

def outputLine (out : Output) (line : Nat) (hash : Nat) : Output :=
  let raw := hexText hash
  let count := (out.2.get? raw).getD 0 + 1
  (if 0 < line then out.1.set line (raw ++ js ":" ++ Netstring.decimalText count) else out.1,
    out.2.set raw count)

/-- What is output when the first entry of a window leaves. -/
def emit (out : Output) (window : List Entry) : Output :=
  match window.head? with
  | some (_, some line) => outputLine out line (hashOf (window.map (·.1)))
  | _ => out

/-- A character enters, with the line that starts at it. -/
def enter (r : Rings) (entry : Entry) : Rings :=
  let r := outputPending r
  updateHash entry.1 { r with lineNumbers := r.lineNumbers.set r.index entry.2 }

theorem map_fst_queue (valid : Valid r) : (queue r).map (·.1) = held r.window r.index := by
  have window := length_held (valid.window ▸ valid.index)
  have lineNumbers := length_held (valid.lineNumbers ▸ valid.index)
  apply map_fst_zip
  rw [window, lineNumbers, valid.window, valid.lineNumbers]

theorem length_queue (valid : Valid r) : (queue r).length = hashWindow := by
  rw [← length_map (fun entry : Entry => entry.1), map_fst_queue valid,
    length_held (valid.window ▸ valid.index), valid.window]

/-- The entry that leaves is the one at the index. -/
theorem head_queue (valid : Valid r) : ∃ character line,
    r.window[r.index]? = some character ∧ r.lineNumbers[r.index]? = some line ∧
      (queue r).head? = some (character, line) := by
  have inside : r.index < r.window.length := valid.window ▸ valid.index
  have inside' : r.index < r.lineNumbers.length := valid.lineNumbers ▸ valid.index
  refine ⟨r.window[r.index], r.lineNumbers[r.index], getElem?_eq_getElem inside,
    getElem?_eq_getElem inside', ?_⟩
  rw [queue, held_eq_cons inside, held_eq_cons inside']
  rfl

theorem set_of_getElem? {α : Type} {as : List α} {i : Nat} {a : α} (here : as[i]? = some a) :
    as.set i a = as := by
  rcases List.getElem?_eq_some_iff.mp here with ⟨inside, rfl⟩
  exact set_getElem_self inside

/-- The line that leaves is output, and its cell is free. -/
theorem outputPending_eq (valid : Valid r) : outputPending r = { r with
      hashes := (emit (output r) (queue r)).1, counts := (emit (output r) (queue r)).2
      lineNumbers := r.lineNumbers.set r.index none } := by
  rcases head_queue valid with ⟨character, line, _, here, head⟩
  unfold outputPending emit
  rw [head, here]
  cases line with
  | none =>
    rw [if_pos rfl, set_of_getElem? here]
    rfl
  | some line =>
    rw [if_neg (by simp), map_fst_queue valid, ← valid.hash]
    unfold outputHash
    rw [here]
    rfl

/-- Nothing is at the index once the line that was there is output. -/
theorem free_outputPending (valid : Valid r) :
    { outputPending r with lineNumbers :=
      (outputPending r).lineNumbers.set (outputPending r).index none } = outputPending r := by
  rw [outputPending_eq valid]
  dsimp only
  rw [set_set]

theorem mask64_roll (first character : Nat) {rest : List Nat} (long : rest.length + 1 = hashWindow) :
    mask64 (hashMultiplier * hashOf (first :: rest) + character - firstMod * first) =
      hashOf (rest ++ [character]) := by
  unfold hashOf
  rw [mask64_eq_iff, map_append, map_singleton, map_cons,
    polynomial_roll 37 (first : Int), length_map, long]
  apply Int.ModEq.sub
  · exact ((mask64_modEq _).mul_left _).add_right _
  · exact firstMod_modEq.mul_right _

/-- One character leaves and one enters. -/
theorem enter_step (r : Rings) (entry : Entry) (valid : Valid r) :
    Valid (enter r entry) ∧ queue (enter r entry) = (queue r).tail ++ [entry] ∧
      output (enter r entry) = emit (output r) (queue r) := by
  have inside : r.index < r.window.length := valid.window ▸ valid.index
  have inside' : r.index < r.lineNumbers.length := valid.lineNumbers ▸ valid.index
  have window := held_push inside entry.1
  have lines := held_push inside' entry.2
  rw [valid.window] at window
  rw [valid.lineNumbers] at lines
  have entered : enter r entry = updateHash entry.1 { r with
      hashes := (emit (output r) (queue r)).1, counts := (emit (output r) (queue r)).2
      lineNumbers := r.lineNumbers.set r.index entry.2 } := by
    unfold enter
    rw [outputPending_eq valid]
    dsimp only
    rw [set_set]
  rw [entered]
  refine ⟨⟨?_, ?_, Nat.mod_lt _ (by decide), ?_⟩, ?_, rfl⟩
  · exact (length_set).trans valid.window
  · exact (length_set).trans valid.lineNumbers
  · unfold updateHash
    dsimp only
    rw [window, held_eq_cons inside, tail_cons, getElem?_eq_getElem inside,
      Option.getD_some, valid.hash, held_eq_cons inside]
    apply mask64_roll
    rw [length_append, length_drop, length_take, valid.window]
    have bound := valid.index
    omega
  · change (held (r.window.set r.index entry.1) ((r.index + 1) % hashWindow)).zip
      (held (r.lineNumbers.set r.index entry.2) ((r.index + 1) % hashWindow)) = _
    rw [window, lines, queue, held_eq_cons inside, held_eq_cons inside']
    rw [tail_cons, tail_cons, zip_cons_cons, tail_cons]
    rw [zip_append]
    · rfl
    · simp [length_drop, length_take, valid.window, valid.lineNumbers]

theorem valid_foldl (entries : List Entry) (valid : Valid r) : Valid (entries.foldl enter r) := by
  induction entries generalizing r with
  | nil => exact valid
  | cons entry rest ih => exact ih (enter_step r entry valid).1

/-! ## The scan -/

/-- The characters that count, behind a carriage return or not. -/
def scan : (previousCarriageReturn : Bool) → List Nat → List Nat
  | _, [] => []
  | previous, input :: rest =>
    if input = 32 ∨ input = 9 ∨ (previous = true ∧ input = 10) then scan false rest
    else if input = 13 then 10 :: scan true rest
    else input :: scan false rest

/-- Characters with the lines that start at them, behind a line number. -/
def marked : (lineStart : Bool) → (lineNumber : Nat) → List Nat → List Entry
  | _, _, [] => []
  | true, lineNumber, c :: rest => (c, some (lineNumber + 1)) :: marked (c = 10) (lineNumber + 1) rest
  | false, lineNumber, c :: rest => (c, none) :: marked (c = 10) lineNumber rest

variable {s : HashState}

theorem processCounted_eq (current : Nat) (valid : Valid s.toRings) :
    processCounted current s = { s with
      toRings := enter s.toRings (current, if s.lineStart then some (s.lineNumber + 1) else none)
      lineStart := current = 10
      lineNumber := if s.lineStart then s.lineNumber + 1 else s.lineNumber } := by
  rcases s with ⟨r, lineNumber, lineStart, previous⟩
  cases lineStart with
  | true =>
    by_cases ends : current = 10
    · rw [ends]
      rfl
    · unfold processCounted
      dsimp only
      rw [if_neg ends, decide_eq_false ends]
      rfl
  | false =>
    have entered : enter r (current, none) = updateHash current (outputPending r) := by
      unfold enter
      dsimp only
      rw [free_outputPending valid]
    by_cases ends : current = 10
    · rw [ends] at entered ⊢
      rw [if_neg Bool.false_ne_true, if_neg Bool.false_ne_true, entered]
      rfl
    · unfold processCounted
      dsimp only
      rw [if_neg ends, decide_eq_false ends, if_neg Bool.false_ne_true, if_neg Bool.false_ne_true,
        entered]
      rfl

theorem marked_cons (lineStart : Bool) (lineNumber c : Nat) (rest : List Nat) :
    marked lineStart lineNumber (c :: rest) =
      (c, if lineStart then some (lineNumber + 1) else none) ::
        marked (c = 10) (if lineStart then lineNumber + 1 else lineNumber) rest := by
  cases lineStart with
  | true => rfl
  | false => rfl

/-- The rings take in the characters that count, marked with their lines. -/
theorem foldl_processCharacter (inputs : List Nat) (valid : Valid s.toRings) :
    (inputs.foldl processCharacter s).toRings =
      (marked s.lineStart s.lineNumber (scan s.previousCarriageReturn inputs)).foldl enter
        s.toRings := by
  induction inputs generalizing s with
  | nil => rfl
  | cons input rest ih =>
    have counts : ∀ current previous, (rest.foldl processCharacter
          (processCounted current { s with previousCarriageReturn := previous })).toRings =
        (marked s.lineStart s.lineNumber (current :: scan previous rest)).foldl enter s.toRings := by
      intro current previous
      have same : Valid { s with previousCarriageReturn := previous }.toRings := valid
      rw [processCounted_eq current same, ih (enter_step s.toRings _ valid).1, marked_cons,
        foldl_cons]
    rw [foldl_cons, processCharacter, scan]
    split_ifs with skipped carriage
    · exact ih valid
    · exact counts 10 true
    · exact counts input false

theorem flushOne_eq (valid : Valid r) : flushOne r = enter r (0, none) := by
  unfold flushOne enter
  dsimp only
  rw [free_outputPending valid]

theorem iterate_flushOne (n : Nat) (valid : Valid r) :
    flushOne^[n] r = (replicate n ((0, none) : Entry)).foldl enter r := by
  induction n generalizing r with
  | zero => rfl
  | succ n ih =>
    rw [Function.iterate_succ_apply, flushOne_eq valid, ih (enter_step r _ valid).1,
      replicate_succ, foldl_cons]

/-! ## A run -/

theorem valid_initial : Valid initial.toRings := ⟨rfl, rfl, by decide, by decide +kernel⟩

theorem queue_initial : queue initial.toRings = replicate hashWindow (0, none) := by
  decide +kernel

/-- What is behind the counted characters of a text. -/
def trailer : List Entry := replicate hashWindow (0, none)

variable {others tail : List Entry}

/-- Entries without lines output nothing. -/
theorem foldl_emit_none (none : ∀ entry ∈ others, entry.2 = none) (long : hashWindow ≤ tail.length)
    (out : Output) :
    (windows hashWindow (others ++ tail)).foldl emit out =
      (windows hashWindow tail).foldl emit out := by
  induction others with
  | nil => rfl
  | cons entry others ih =>
    rcases forall_mem_cons.mp none with ⟨here, later⟩
    rw [cons_append, windows_cons (by rw [length_append]; omega), foldl_cons]
    have nothing : emit out ((entry :: (others ++ tail)).take hashWindow) = out := by
      rcases entry with ⟨character, line⟩
      cases here
      rfl
    rw [nothing, ih later]

theorem foldl_emit_line (none : ∀ entry ∈ others, entry.2 = none) (long : hashWindow ≤ tail.length)
    (character line : Nat) (out : Output) :
    (windows hashWindow ((character, some line) :: others ++ tail)).foldl emit out =
      (windows hashWindow tail).foldl emit (outputLine out line
        (hashOf ((((character, some line) :: others ++ tail).map (·.1)).take hashWindow))) := by
  rw [cons_append, windows_cons (by rw [length_append]; omega), foldl_cons,
    foldl_emit_none none long, ← map_take]
  rfl

/-- A run outputs the hashes of the windows of its characters. -/
theorem hashes_eq (text : Text) : computeGithubPrimaryLocationLineHashes text =
    ((windows hashWindow (marked true 0 (scan false (text.map (·.toNat) ++ [hashEof])) ++
      trailer)).foldl emit (.empty, .empty)).1 := by
  have inputs : processCharacter (text.foldl (fun s u => processCharacter s u.toNat) initial) hashEof =
      (text.map (·.toNat) ++ [hashEof]).foldl processCharacter initial := by
    rw [foldl_append, foldl_map]
    rfl
  have rings := foldl_processCharacter (text.map (·.toNat) ++ [hashEof]) valid_initial
  unfold computeGithubPrimaryLocationLineHashes
  dsimp only
  rw [inputs, rings, iterate_flushOne, ← foldl_append]
  · have ran := foldl_enter (by decide) enter_step (fun _ => length_queue) initial.toRings valid_initial
      (marked true 0 (scan false (text.map (·.toNat) ++ [hashEof])) ++ trailer)
    rw [queue_initial, foldl_emit_none] at ran
    · exact congrArg Prod.fst ran
    · intro entry member
      rw [eq_of_mem_replicate member]
    · rw [length_append, trailer, length_replicate]
      exact Nat.le_add_left _ _
  · exact valid_foldl _ valid_initial

end AgentContextLint.SarifLineHashes
