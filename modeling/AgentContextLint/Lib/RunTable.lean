import AgentContextLint.Lib.RowMatching

/-!
# Matching a sequence with runs of tested letters

The tables of `RowMatching` with a test on what a star may pass: an item is `many b`, any number of
letters that pass `b`, or `one b`, one letter that passes it. Every cell is paid for, the first of a
row too.
-/

namespace RunTable

open Metered RowMatching

inductive Item (β : Type)
  | many (test : β)
  | one (test : β)

variable {α β : Type}

def Matches (holds : β → α → Prop) : List (Item β) → List α → Prop
  | [], word => word = []
  | .many b :: items, word =>
    ∃ skipped rest, word = skipped ++ rest ∧ (∀ x ∈ skipped, holds b x) ∧ Matches holds items rest
  | .one b :: items, word => ∃ x rest, word = x :: rest ∧ holds b x ∧ Matches holds items rest

/-! ## The table -/

section Table

variable {m : Type → Type} [Monad m] (tick : m PUnit) (test : β → α → m Bool)

/-- The cells of a run behind its first one; `carry` is the cell before. -/
def manyCells (b : β) (carry : Bool) : List Bool → List α → m (List Bool)
  | previous :: rest, x :: word => do
    tick
    let passed ← testBehind test carry b x
    let cells ← manyCells b (previous || passed) rest word
    return (previous || passed) :: cells
  | _, _ => pure []

def nextRow (word : List α) (previous : List Bool) (item : Item β) : m (List Bool) := do
  tick
  match item, previous with
  | .many b, first :: rest => (first :: ·) <$> manyCells tick test b first rest word
  | .many _, [] => pure []
  | .one b, row => (false :: ·) <$> oneCells tick test b row word

/-- Whether the items match the whole word: the last cell of the last row. -/
def matchRows (items : List (Item β)) (word : List α) : m Bool := do
  let row ← items.foldlM (nextRow tick test word) (firstRow word)
  return row.getLast?.getD false

end Table

/-! ## Correctness of the table -/

section Correct

variable {m : Type → Type} [Monad m] [LawfulMonad m] {charge : Nat → m PUnit} {amount : Nat}
  {test : β → α → m Bool} {value : β → α → Bool} {holds : β → α → Prop} {word : List α}

theorem exists_manyCells (tests : ∀ b x, Computes charge (test b x) (value b x)) (b : β) (first : Bool)
    (rest : List Bool) (fits : rest.length = word.length) :
    ∃ cells, Computes charge (manyCells (charge amount) test b first rest word) cells ∧
      cells.length = word.length ∧
      ∀ p, Reaches p (first :: cells) word ↔
        Reaches (Run (fun x => value b x = true) p) (first :: rest) word := by
  induction word generalizing first rest with
  | nil =>
    rw [List.length_eq_zero_iff.mp fits]
    exact ⟨[], computes_pure _, rfl, fun p => by simp only [Reaches, run_nil]⟩
  | cons x word ih =>
    obtain ⟨previous, rest, rfl⟩ := List.exists_cons_of_length_eq_add_one fits
    have here : Computes charge (testBehind test first b x) (if first then value b x else false) :=
      Computes.ite (fun _ => tests b x) (fun _ => computes_pure _)
    obtain ⟨cells, computes, length, same⟩ := ih (previous || _) rest (Nat.succ.inj fits)
    refine ⟨_ :: cells, (computes_charge amount).bind (here.bind (computes.bind (computes_pure _))),
      congrArg (· + 1) length, fun p => reaches_run_cons (by simp) (same p)⟩

/-- The table decides what the items stand for, whatever the charges do. -/
theorem exists_matchRows (tests : ∀ b x, Computes charge (test b x) (value b x))
    (sound : ∀ b x, value b x = true ↔ holds b x) (items : List (Item β)) (word : List α) :
    ∃ result, Computes charge (matchRows (charge amount) test items word) result ∧
      (result = true ↔ Matches holds items word) := by
  have same : (fun b x => value b x = true) = holds := funext₂ fun b x => propext (sound b x)
  rw [← same]
  refine exists_rows rfl (fun item row fits => ?_) items
  cases item with
  | many b =>
    obtain ⟨first, rest, rfl⟩ := List.exists_cons_of_length_eq_add_one fits
    obtain ⟨cells, computes, length, same⟩ := exists_manyCells tests b first rest (Nat.succ.inj fits)
    exact ⟨_, (computes_charge amount).bind (computes.map _), congrArg (· + 1) length,
      fun items => same _⟩
  | one b =>
    obtain ⟨cells, computes, length, same⟩ := exists_oneCells tests b row fits
    exact ⟨_, (computes_charge amount).bind (computes.map _), congrArg (· + 1) length,
      fun items => same _⟩

end Correct

/-! ## Items of another table -/

def Item.map {γ : Type} (f : β → γ) : Item β → Item γ
  | .many b => .many (f b)
  | .one b => .one (f b)

/-- Tests that pass more match more. -/
theorem Matches.map {γ δ : Type} {holds : β → α → Prop} {holds' : γ → δ → Prop} (f : β → γ) (g : α → δ)
    (more : ∀ b x, holds b x → holds' (f b) (g x)) {items : List (Item β)} {word : List α}
    (found : Matches holds items word) : Matches holds' (items.map (Item.map f)) (word.map g) := by
  induction items generalizing word with
  | nil => exact congrArg (List.map g) found
  | cons item items ih =>
    cases item with
    | many b =>
      obtain ⟨skipped, rest, rfl, pass, behind⟩ := found
      exact ⟨skipped.map g, rest.map g, List.map_append, List.forall_mem_map.mpr fun x member =>
        more b x (pass x member), ih behind⟩
    | one b =>
      obtain ⟨x, rest, rfl, pass, behind⟩ := found
      exact ⟨g x, rest.map g, rfl, more b x pass, ih behind⟩

end RunTable
