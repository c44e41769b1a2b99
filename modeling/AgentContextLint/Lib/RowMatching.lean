import AgentContextLint.Lib.Metered

/-!
# Matching a sequence of items row by row

A pattern is a list of items, each either `star`, which stands for any number of
letters, or `one b`, which stands for one letter satisfying the test `b`. `Matches`
is its language.

`matchRows` decides it the way table-driven matchers do: one row of cells per item,
cell `i` telling whether the items so far match the first `i` letters. The program is
generic in the monad of the tests, and `tick` runs once for each cell.
`exists_matchRows` is the correctness of the table against the language.
-/

namespace RowMatching

open Metered List

inductive Item (β : Type)
  | star
  | one (test : β)
  deriving DecidableEq

variable {α β : Type}

/-! ## The language of a pattern -/

/-- The words a pattern stands for. -/
def Matches (holds : β → α → Prop) : List (Item β) → List α → Prop
  | [], word => word = []
  | .star :: items, word => ∃ skipped rest, word = skipped ++ rest ∧ Matches holds items rest
  | .one b :: items, word => ∃ x rest, word = x :: rest ∧ holds b x ∧ Matches holds items rest

variable {holds : β → α → Prop} {word : List α}

theorem matches_append {items items' : List (Item β)} : Matches holds (items ++ items') word ↔
      ∃ first second, word = first ++ second ∧ Matches holds items first ∧
        Matches holds items' second := by
  induction items generalizing word with
  | nil => simp [Matches]
  | cons item items ih =>
    cases item with
    | star =>
      simp only [cons_append, Matches, ih]
      constructor
      · rintro ⟨skipped, _, rfl, first, second, rfl, left, right⟩
        exact ⟨skipped ++ first, second, (append_assoc ..).symm, ⟨skipped, first, rfl, left⟩, right⟩
      · rintro ⟨_, second, rfl, ⟨skipped, first, rfl, left⟩, right⟩
        exact ⟨skipped, first ++ second, append_assoc .., first, second, rfl, left, right⟩
    | one b =>
      simp only [cons_append, Matches, ih]
      constructor
      · rintro ⟨x, _, rfl, test, first, second, rfl, left, right⟩
        exact ⟨x :: first, second, rfl, ⟨x, first, rfl, test, left⟩, right⟩
      · rintro ⟨_, second, rfl, ⟨x, first, rfl, test, left⟩, right⟩
        exact ⟨x, first ++ second, rfl, test, first, second, rfl, left, right⟩

theorem matches_star_singleton : Matches holds [.star] word :=
  ⟨word, [], (append_nil word).symm, rfl⟩

/-- With a final star the pattern matches what some prefix of the word matches. -/
theorem matches_append_star {items : List (Item β)} : Matches holds (items ++ [.star]) word ↔
      ∃ first second, word = first ++ second ∧ Matches holds items first := by
  simp [matches_append, matches_star_singleton]

/-! ## The table -/

section Table

variable {m : Type → Type} [Monad m] (tick : m PUnit) (test : β → α → m Bool)

/-- The cells of a star row behind its first one; `carry` is the cell before. -/
def starCells (carry : Bool) : List Bool → m (List Bool)
  | [] => pure []
  | previous :: rest => do
    tick
    let cells ← starCells (previous || carry) rest
    return (previous || carry) :: cells

/-- `previous && test b x`: a letter is tested only behind a prefix that matches. -/
def testBehind (previous : Bool) (b : β) (x : α) : m Bool :=
  if previous then test b x else pure false

def oneCells (b : β) : List Bool → List α → m (List Bool)
  | previous :: rest, x :: word => do
    tick
    let cell ← testBehind test previous b x
    let cells ← oneCells b rest word
    return cell :: cells
  | _, _ => pure []

def nextRow (word : List α) (previous : List Bool) (item : Item β) : m (List Bool) :=
  match item, previous with
  | .star, first :: rest => (first :: ·) <$> starCells tick first rest
  | .star, [] => pure []
  | .one b, row => (false :: ·) <$> oneCells tick test b row word

/-- The row before any item: only the empty prefix matches. -/
def firstRow (word : List α) : List Bool := true :: replicate word.length false

/-- Whether the items match the whole word: the last cell of the last row. -/
def matchRows (items : List (Item β)) (word : List α) : m Bool := do
  let row ← items.foldlM (nextRow tick test word) (firstRow word)
  return row.getLast?.getD false

end Table

/-! ## Correctness of the table -/

/-- A set cell of the row has a rest of the word behind it with `p`. -/
def Reaches (p : List α → Prop) : List Bool → List α → Prop
  | [], _ => False
  | cell :: row, word => (cell = true ∧ p word) ∨ Reaches p row word.tail

/-- Behind letters that pass comes a rest with `p`. -/
def Run (passes : α → Prop) (p : List α → Prop) (word : List α) : Prop :=
  ∃ skipped rest, word = skipped ++ rest ∧ (∀ x ∈ skipped, passes x) ∧ p rest

section Rows

variable {passes : α → Prop} {p : List α → Prop} {x : α}

theorem run_nil : Run passes p [] ↔ p [] := by
  constructor
  · rintro ⟨skipped, rest, eq, -, here⟩
    rw [nil_eq_append_iff] at eq
    rwa [eq.2] at here
  · exact fun here => ⟨[], [], rfl, by simp, here⟩

theorem run_cons : Run passes p (x :: word) ↔ p (x :: word) ∨ (passes x ∧ Run passes p word) := by
  constructor
  · rintro ⟨_ | ⟨y, skipped⟩, rest, eq, pass, here⟩
    · exact .inl (eq ▸ here)
    · cases eq
      rw [forall_mem_cons] at pass
      exact .inr ⟨pass.1, skipped, rest, rfl, pass.2, here⟩
  · rintro (here | ⟨pass, skipped, rest, rfl, more, here⟩)
    · exact ⟨[], _, rfl, by simp, here⟩
    · exact ⟨x :: skipped, rest, rfl, forall_mem_cons.mpr ⟨pass, more⟩, here⟩

theorem reaches_run_cons {first previous cell : Bool} {cells rest : List Bool}
    (made : cell = true ↔ previous = true ∨ (first = true ∧ passes x))
    (behind : Reaches p (cell :: cells) word ↔ Reaches (Run passes p) (cell :: rest) word) :
    Reaches p (first :: cell :: cells) (x :: word) ↔
      Reaches (Run passes p) (first :: previous :: rest) (x :: word) := by
  rw [Reaches, tail_cons, behind, Reaches, Reaches, Reaches, tail_cons, run_cons, made]
  tauto

theorem reaches_firstRow : Reaches p (firstRow word) word ↔ p word := by
  have none : ∀ (n : Nat) (word : List α), ¬ Reaches p (replicate n false) word := by
    intro n
    induction n with
    | zero => exact fun _ reached => reached
    | succ n ih => exact fun word => not_or.mpr ⟨by simp, ih word.tail⟩
  rw [firstRow, Reaches]
  simp only [true_and, none, or_false]

theorem reaches_getLast {row : List Bool} (fits : row.length = word.length + 1) :
    Reaches (· = []) row word ↔ row.getLast?.getD false = true := by
  induction word generalizing row with
  | nil =>
    obtain ⟨cell, rfl⟩ := length_eq_one_iff.mp fits
    simp [Reaches]
  | cons x word ih =>
    obtain ⟨cell, _, rfl⟩ := exists_cons_of_length_eq_add_one fits
    rename_i row
    obtain ⟨next, rest, rfl⟩ := exists_cons_of_length_eq_add_one (Nat.succ.inj fits)
    rw [Reaches, getLast?_cons_cons, tail_cons, ih (Nat.succ.inj fits)]
    simp

end Rows

section Correct

variable {m : Type → Type} [Monad m] [LawfulMonad m] {charge : Nat → m PUnit} {amount : Nat}
  {test : β → α → m Bool} {value : β → α → Bool}

/-- A table whose rows reach what the items ask for decides the language of the items. -/
theorem exists_rows {ι : Type} {next : List Bool → ι → m (List Bool)} {lang : List ι → List α → Prop}
    (ends : lang [] = (· = []))
    (step : ∀ item row, row.length = word.length + 1 → ∃ row', Computes charge (next row item) row' ∧
      row'.length = word.length + 1 ∧
      ∀ items, Reaches (lang items) row' word ↔ Reaches (lang (item :: items)) row word)
    (items : List ι) :
    ∃ result, Computes charge (do
        let row ← items.foldlM next (firstRow word)
        return row.getLast?.getD false) result ∧ (result = true ↔ lang items word) := by
  have rows : ∀ row, row.length = word.length + 1 → ∃ last, Computes charge (items.foldlM next row) last ∧
      last.length = word.length + 1 ∧
      (Reaches (· = []) last word ↔ Reaches (lang items) row word) := by
    induction items with
    | nil => exact fun row fits => ⟨row, computes_pure _, fits, by rw [ends]⟩
    | cons item items ih =>
      intro row fits
      obtain ⟨row', computes, fits', same⟩ := step item row fits
      obtain ⟨last, later, fitsLast, sameLast⟩ := ih row' fits'
      refine ⟨last, ?_, fitsLast, sameLast.trans (same items)⟩
      rw [foldlM_cons]
      exact computes.bind later
  obtain ⟨last, computes, fits, same⟩ := rows (firstRow word) (by simp [firstRow])
  exact ⟨_, computes.bind (computes_pure _),
    (reaches_getLast fits).symm.trans (same.trans reaches_firstRow)⟩

theorem exists_starCells (charge : Nat → m PUnit) (amount : Nat) (first : Bool) (rest : List Bool)
    (fits : rest.length = word.length) :
    ∃ cells, Computes charge (starCells (charge amount) first rest) cells ∧
      cells.length = word.length ∧
      ∀ p, Reaches p (first :: cells) word ↔ Reaches (Run (fun _ => True) p) (first :: rest) word := by
  induction word generalizing first rest with
  | nil =>
    rw [length_eq_zero_iff.mp fits]
    exact ⟨[], computes_pure _, rfl, fun p => by simp only [Reaches, run_nil]⟩
  | cons x word ih =>
    obtain ⟨previous, rest, rfl⟩ := exists_cons_of_length_eq_add_one fits
    obtain ⟨cells, computes, length, same⟩ := ih (previous || first) rest (Nat.succ.inj fits)
    refine ⟨(previous || first) :: cells, ?_, congrArg (· + 1) length,
      fun p => reaches_run_cons (by simp) (same p)⟩
    exact (computes_charge amount).bind (computes.bind (computes_pure _))

theorem exists_oneCells (tests : ∀ b x, Computes charge (test b x) (value b x)) (b : β)
    (row : List Bool) (fits : row.length = word.length + 1) :
    ∃ cells, Computes charge (oneCells (charge amount) test b row word) cells ∧
      cells.length = word.length ∧
      ∀ p, Reaches p (false :: cells) word ↔
        Reaches (fun w => ∃ x rest, w = x :: rest ∧ value b x = true ∧ p rest) row word := by
  induction word generalizing row with
  | nil =>
    obtain ⟨cell, rfl⟩ := length_eq_one_iff.mp fits
    exact ⟨[], computes_pure _, rfl, fun p => by simp [Reaches]⟩
  | cons x word ih =>
    obtain ⟨previous, row, rfl⟩ := exists_cons_of_length_eq_add_one fits
    obtain ⟨cells, computes, length, same⟩ := ih row (Nat.succ.inj fits)
    have here : Computes charge (testBehind test previous b x) (if previous then value b x else false) :=
      Computes.ite (fun _ => tests b x) (fun _ => computes_pure _)
    refine ⟨_ :: cells, (computes_charge amount).bind (here.bind (computes.bind (computes_pure _))),
      congrArg (· + 1) length, fun p => ?_⟩
    have behind := same p
    rw [Reaches] at behind
    rw [Reaches, Reaches, tail_cons, Reaches, tail_cons, ← behind]
    simp [and_assoc]

/-- The table decides the language of the pattern, whatever the charges do. -/
theorem exists_matchRows (tests : ∀ b x, Computes charge (test b x) (value b x))
    (sound : ∀ b x, value b x = true ↔ holds b x) (items : List (Item β)) (word : List α) :
    ∃ result, Computes charge (matchRows (charge amount) test items word) result ∧
      (result = true ↔ Matches holds items word) := by
  refine exists_rows rfl (fun item row fits => ?_) items
  cases item with
  | star =>
    obtain ⟨first, rest, rfl⟩ := exists_cons_of_length_eq_add_one fits
    obtain ⟨cells, computes, length, same⟩ := exists_starCells charge amount first rest (Nat.succ.inj fits)
    refine ⟨_, computes.map _, congrArg (· + 1) length, fun items => (same _).trans ?_⟩
    have all : Run (fun _ => True) (Matches holds items) = Matches holds (.star :: items) := by
      funext word
      simp [Run, Matches]
    rw [all]
  | one b =>
    obtain ⟨cells, computes, length, same⟩ := exists_oneCells tests b row fits
    refine ⟨_, computes.map _, congrArg (· + 1) length, fun items => (same _).trans ?_⟩
    simp only [sound, Matches]

end Correct

end RowMatching
