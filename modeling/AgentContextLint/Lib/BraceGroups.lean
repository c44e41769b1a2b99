import Mathlib.Data.List.Basic

/-!
# Groups of alternatives

A text with groups of alternatives in marks, as `a{b,c}d`, is read from the left: the first opening mark
opens a group, the first closing mark behind it closes the group, and separators stand between its
alternatives. A text is read in one way only (`lead_unique`), up to where no group follows (`exists_lead`).
-/

namespace BraceGroups

open List

variable {α : Type} [DecidableEq α]

structure Marks (α : Type) where
  opening : α
  closing : α
  separator : α
  different : separator ≠ closing

/-- A group of alternatives with the text in front of it. -/
structure BraceGroup (α : Type) where
  text : List α
  alternatives : List (List α)

variable (marks : Marks α)

def BraceGroup.spelled (group : BraceGroup α) : List α :=
  group.text ++ marks.opening ::
    ([marks.separator].intercalate group.alternatives ++ marks.closing :: [])

def spelled (groups : List (BraceGroup α)) : List α := groups.flatMap (BraceGroup.spelled marks)

/-- A group that reads as it is spelled: at least two alternatives, none of them empty, with no marks
inside, and no opening mark in front. -/
structure BraceGroup.Sound (group : BraceGroup α) : Prop where
  text : marks.opening ∉ group.text
  two : 2 ≤ group.alternatives.length
  each : ∀ alternative ∈ group.alternatives, alternative ≠ [] ∧ marks.separator ∉ alternative ∧
    marks.opening ∉ alternative ∧ marks.closing ∉ alternative

/-- Every choice of alternatives, the choice in the first group changing last. -/
def product : List (BraceGroup α) → List (List α)
  | [] => [[]]
  | group :: rest => group.alternatives.flatMap fun alternative =>
    (product rest).map fun later => group.text ++ alternative ++ later

/-- What is chosen so far, with a choice in one more group. -/
def extend (done : List (List α)) (group : BraceGroup α) : List (List α) :=
  done.flatMap fun front => group.alternatives.map fun alternative => front ++ group.text ++ alternative

/-! ## Products -/

omit [DecidableEq α] in
theorem foldl_extend (groups : List (BraceGroup α)) (done : List (List α)) :
    groups.foldl extend done = done.flatMap fun front => (product groups).map (front ++ ·) := by
  induction groups generalizing done with
  | nil => simp [product]
  | cons group rest ih =>
    rw [foldl_cons, ih, extend, flatMap_assoc]
    refine flatMap_congr fun front _ => ?_
    rw [flatMap_map, product, map_flatMap]
    refine flatMap_congr fun alternative _ => ?_
    rw [map_map]
    refine map_congr_left fun later _ => ?_
    simp [Function.comp_apply]

omit [DecidableEq α] in
theorem product_eq_foldl (groups : List (BraceGroup α)) : product groups = groups.foldl extend [[]] := by
  rw [foldl_extend, flatMap_singleton]
  exact (map_id'' (fun text => nil_append text) _).symm

omit [DecidableEq α] in
theorem extend_ne_nil {done : List (List α)} {group : BraceGroup α} (some : done ≠ [])
    (two : 2 ≤ group.alternatives.length) : extend done group ≠ [] := by
  rcases exists_mem_of_ne_nil done some with ⟨front, member⟩
  have alternatives : group.alternatives ≠ [] := by
    intro none
    rw [none] at two
    exact absurd two (Nat.not_succ_le_zero 1)
  rcases exists_mem_of_ne_nil _ alternatives with ⟨first, inside⟩
  have made : front ++ group.text ++ first ∈ extend done group :=
    mem_flatMap.mpr ⟨front, member, mem_map_of_mem inside⟩
  exact ne_nil_of_mem made

/-! ## Reading -/

theorem takeWhile_until {x : α} {front : List α} (absent : x ∉ front) (back : List α) :
    (front ++ x :: back).takeWhile (· ≠ x) = front := by
  have all : ∀ y ∈ front, decide (y ≠ x) = true := fun y member =>
    decide_eq_true (ne_of_mem_of_not_mem member absent)
  rw [takeWhile_append_of_pos all, takeWhile_cons_of_neg (by simp), append_nil]

theorem dropWhile_until {x : α} {front : List α} (absent : x ∉ front) (back : List α) :
    (front ++ x :: back).dropWhile (· ≠ x) = x :: back := by
  have all : ∀ y ∈ front, decide (y ≠ x) = true := fun y member =>
    decide_eq_true (ne_of_mem_of_not_mem member absent)
  rw [dropWhile_append_of_pos all, dropWhile_cons_of_neg (by simp)]

theorem until_inj {x : α} {front front' back back' : List α} (absent : x ∉ front) (absent' : x ∉ front')
    (same : front ++ x :: back = front' ++ x :: back') : front = front' ∧ back = back' := by
  have fronts := takeWhile_until absent back
  rw [same, takeWhile_until absent' back'] at fronts
  subst fronts
  exact ⟨rfl, (cons.inj (append_cancel_left same)).2⟩

/-- The pieces of a text have no separator, and their entries are the text's. -/
theorem mem_splitOn {separator : α} {body piece : List α} (member : piece ∈ body.splitOn separator) :
    separator ∉ piece ∧ ∀ x ∈ piece, x ∈ body := by
  induction body generalizing piece with
  | nil =>
    rw [splitOn_nil, mem_singleton] at member
    subst member
    exact ⟨not_mem_nil, fun x inside => (by cases inside)⟩
  | cons first body ih =>
    rw [splitOn_cons_eq_if_modifyHead] at member
    split_ifs at member with same
    · rcases mem_cons.mp member with rfl | later
      · exact ⟨not_mem_nil, fun x inside => (by cases inside)⟩
      · rcases ih later with ⟨absent, inside⟩
        exact ⟨absent, fun x inPiece => mem_cons_of_mem _ (inside x inPiece)⟩
    · cases pieces : body.splitOn separator with
      | nil => exact absurd pieces (splitOn_ne_nil _ _)
      | cons head others =>
        rw [pieces, modifyHead_cons] at member
        rcases mem_cons.mp member with rfl | later
        · have own := ih (pieces ▸ mem_cons_self)
          refine ⟨?_, fun x inside => ?_⟩
          · rw [mem_cons, not_or]
            exact ⟨fun eq => same (beq_iff_eq.mpr eq.symm), own.1⟩
          · rcases mem_cons.mp inside with rfl | inHead
            · exact mem_cons_self
            · exact mem_cons_of_mem _ (own.2 x inHead)
        · have own := ih (pieces ▸ mem_cons_of_mem _ later)
          exact ⟨own.1, fun x inPiece => mem_cons_of_mem _ (own.2 x inPiece)⟩

variable {marks} {group other : BraceGroup α} {groups lead : List (BraceGroup α)} {tail rest x y : List α}

omit [DecidableEq α] in
theorem notMem_intercalate {separator mark : α} (different : separator ≠ mark) {texts : List (List α)}
    (absent : ∀ text ∈ texts, mark ∉ text) : mark ∉ [separator].intercalate texts := by
  induction texts with
  | nil => exact not_mem_nil
  | cons text rest ih =>
    rw [forall_mem_cons] at absent
    cases rest with
    | nil =>
      rw [intercalate_singleton]
      exact absent.1
    | cons next rest =>
      rw [intercalate_cons_of_ne_nil (cons_ne_nil _ _)]
      simp only [mem_append, mem_singleton, not_or]
      exact ⟨⟨absent.1, different.symm⟩, ih absent.2⟩

omit [DecidableEq α] in
theorem BraceGroup.Sound.closing_notMem (sound : group.Sound marks) :
    marks.closing ∉ [marks.separator].intercalate group.alternatives :=
  notMem_intercalate marks.different fun alternative member => (sound.each alternative member).2.2.2

omit [DecidableEq α] in
theorem BraceGroup.Sound.alternatives_ne_nil (sound : group.Sound marks) : group.alternatives ≠ [] := by
  intro none
  have two := sound.two
  rw [none] at two
  exact absurd two (Nat.not_succ_le_zero 1)

theorem BraceGroup.Sound.splitOn (sound : group.Sound marks) :
    ([marks.separator].intercalate group.alternatives).splitOn marks.separator = group.alternatives :=
  splitOn_intercalate _ (fun alternative member => (sound.each alternative member).2.1)
    sound.alternatives_ne_nil

omit [DecidableEq α] in
theorem BraceGroup.spelled_append (group : BraceGroup α) (rest : List α) : group.spelled marks ++ rest =
    group.text ++ marks.opening ::
      ([marks.separator].intercalate group.alternatives ++ marks.closing :: rest) := by
  simp [BraceGroup.spelled, cons_append]

/-- A group is read in one way. -/
theorem BraceGroup.Sound.unique (sound : group.Sound marks) (soundOther : other.Sound marks)
    (same : group.spelled marks ++ x = other.spelled marks ++ y) : group = other ∧ x = y := by
  rw [BraceGroup.spelled_append, BraceGroup.spelled_append] at same
  rcases until_inj sound.text soundOther.text same with ⟨texts, inner⟩
  rcases until_inj sound.closing_notMem soundOther.closing_notMem inner with ⟨joined, rests⟩
  have alternatives : group.alternatives = other.alternatives := by
    rw [← sound.splitOn, joined, soundOther.splitOn]
  refine ⟨?_, rests⟩
  cases group
  cases other
  exact congrArg₂ BraceGroup.mk texts alternatives

variable (marks) in
def Stuck (tail : List α) : Prop :=
  ∀ (group : BraceGroup α) (rest : List α), group.Sound marks → tail ≠ group.spelled marks ++ rest

omit [DecidableEq α] in
theorem stuck_of_notMem (absent : marks.opening ∉ tail) : Stuck marks tail := by
  rintro group rest _ rfl
  apply absent
  rw [BraceGroup.spelled_append]
  exact mem_append_right _ mem_cons_self

omit [DecidableEq α] in
theorem stuck_of_unclosed (absent : marks.closing ∉ tail) : Stuck marks tail := by
  rintro group rest _ rfl
  apply absent
  rw [BraceGroup.spelled_append]
  exact mem_append_right _ (mem_cons_of_mem _ (mem_append_right _ mem_cons_self))

/-- What stands between an opening mark and the closing mark behind it is a group, if its pieces are not
empty and are more than one. -/
theorem not_stuck {text body back : List α} (opening : marks.opening ∉ text)
    (inner : marks.opening ∉ body) (closing : marks.closing ∉ body)
    (two : 2 ≤ (body.splitOn marks.separator).length) (some : [] ∉ body.splitOn marks.separator) :
    ¬ Stuck marks (text ++ marks.opening :: (body ++ marks.closing :: back)) := by
  intro stuck
  refine stuck ⟨text, body.splitOn marks.separator⟩ back ⟨opening, two, fun piece member => ?_⟩ ?_
  · rcases mem_splitOn member with ⟨absent, inBody⟩
    exact ⟨fun empty => some (empty ▸ member), absent, fun mark => inner (inBody _ mark),
      fun mark => closing (inBody _ mark)⟩
  · rw [BraceGroup.spelled_append, intercalate_splitOn]

omit [DecidableEq α] in
variable (marks) in
/-- A text is read up to where no group follows. -/
theorem exists_lead (text : List α) : ∃ groups tail, (∀ group ∈ groups, BraceGroup.Sound marks group) ∧
    text = spelled marks groups ++ tail ∧ Stuck marks tail := by
  by_cases stuck : Stuck marks text
  · exact ⟨[], text, fun group member => (by cases member), rfl, stuck⟩
  · unfold Stuck at stuck
    push Not at stuck
    rcases stuck with ⟨group, rest, sound, rfl⟩
    have shorter : rest.length < (group.spelled marks ++ rest).length := by
      rw [BraceGroup.spelled_append]
      simp only [length_append, length_cons]
      omega
    rcases exists_lead rest with ⟨groups, tail, soundRest, same, stuck⟩
    refine ⟨group :: groups, tail, forall_mem_cons.mpr ⟨sound, soundRest⟩, ?_, stuck⟩
    rw [spelled, flatMap_cons, append_assoc]
    exact congrArg (group.spelled marks ++ ·) same
  termination_by text.length

/-- Groups at the front of a text are the first ones that are read. -/
theorem lead_unique (soundLead : ∀ group ∈ lead, BraceGroup.Sound marks group)
    (sound : ∀ group ∈ groups, BraceGroup.Sound marks group) (stuck : Stuck marks tail)
    (same : spelled marks lead ++ rest = spelled marks groups ++ tail) :
    ∃ more, groups = lead ++ more ∧ rest = spelled marks more ++ tail := by
  induction lead generalizing groups with
  | nil => exact ⟨groups, rfl, same⟩
  | cons first lead ih =>
    rw [forall_mem_cons] at soundLead
    rw [spelled, flatMap_cons, append_assoc] at same
    cases groups with
    | nil => exact absurd same.symm (stuck first _ soundLead.1)
    | cons group groups =>
      rw [forall_mem_cons] at sound
      rw [spelled, flatMap_cons, append_assoc] at same
      rcases soundLead.1.unique sound.1 same with ⟨rfl, later⟩
      rcases ih soundLead.2 sound.2 later with ⟨more, split, rest⟩
      exact ⟨more, congrArg (first :: ·) split, rest⟩

theorem length_le_count (groups : List (BraceGroup α)) (tail : List α) :
    groups.length ≤ (spelled marks groups ++ tail).count marks.opening := by
  induction groups with
  | nil => exact Nat.zero_le _
  | cons group groups ih =>
    rw [spelled, flatMap_cons, append_assoc, count_append, length_cons]
    have one : 0 < (group.spelled marks).count marks.opening :=
      count_pos_iff.mpr (mem_append_right _ mem_cons_self)
    change _ ≤ _ + (spelled marks groups ++ tail).count marks.opening
    omega

/-! ## Well formed texts -/

/-- The groups and the text behind them have no mark that is not one of a group's own. -/
structure Balanced (marks : Marks α) (groups : List (BraceGroup α)) (tail : List α) : Prop where
  sound : ∀ group ∈ groups, BraceGroup.Sound marks group
  texts : ∀ group ∈ groups, marks.closing ∉ group.text
  opening : marks.opening ∉ tail
  closing : marks.closing ∉ tail

omit [DecidableEq α] in
theorem Balanced.stuck (balanced : Balanced marks groups tail) : Stuck marks tail :=
  stuck_of_notMem balanced.opening

/-- There is one way to read a well formed text. -/
theorem Balanced.unique {others : List (BraceGroup α)} (balanced : Balanced marks groups tail)
    (sound : ∀ group ∈ others, BraceGroup.Sound marks group) (stuck : Stuck marks rest)
    (same : spelled marks groups ++ tail = spelled marks others ++ rest) :
    others = groups ∧ rest = tail := by
  rcases lead_unique balanced.sound sound stuck same with ⟨more, rfl, split⟩
  cases more with
  | nil => exact ⟨append_nil _, split.symm⟩
  | cons group more =>
    rw [forall_mem_append, forall_mem_cons] at sound
    rw [spelled, flatMap_cons, append_assoc] at split
    exact absurd split (balanced.stuck group _ sound.2.1)

section

variable (sound : ∀ group ∈ groups, BraceGroup.Sound marks group)

include sound

omit [DecidableEq α] in
theorem product_ne_nil : product groups ≠ [] := by
  induction groups with
  | nil => exact cons_ne_nil _ _
  | cons group rest ih =>
    rw [forall_mem_cons] at sound
    rcases exists_mem_of_ne_nil _ sound.1.alternatives_ne_nil with ⟨first, inGroup⟩
    rcases exists_mem_of_ne_nil _ (ih sound.2) with ⟨later, inRest⟩
    have made : group.text ++ first ++ later ∈ product (group :: rest) :=
      mem_flatMap.mpr ⟨first, inGroup, mem_map_of_mem inRest⟩
    exact ne_nil_of_mem made

omit [DecidableEq α] in
/-- A choice has a closing mark exactly if one of the texts has. -/
theorem closing_mem_product {choice : List α} (member : choice ∈ product groups) :
    marks.closing ∈ choice ↔ ∃ group ∈ groups, marks.closing ∈ group.text := by
  induction groups generalizing choice with
  | nil =>
    rw [mem_singleton.mp member]
    simp
  | cons group rest ih =>
    rw [forall_mem_cons] at sound
    rcases mem_flatMap.mp member with ⟨alternative, inGroup, later⟩
    rcases mem_map.mp later with ⟨back, inRest, rfl⟩
    have none := (sound.1.each alternative inGroup).2.2.2
    rw [mem_append, mem_append, ih sound.2 inRest, exists_mem_cons_iff, or_iff_left none]

omit [DecidableEq α] in
theorem opening_notMem_product {choice : List α}
    (member : choice ∈ product groups) : marks.opening ∉ choice := by
  induction groups generalizing choice with
  | nil =>
    rw [mem_singleton.mp member]
    exact not_mem_nil
  | cons group rest ih =>
    rw [forall_mem_cons] at sound
    rcases mem_flatMap.mp member with ⟨alternative, inGroup, later⟩
    rcases mem_map.mp later with ⟨back, inRest, rfl⟩
    have none := (sound.1.each alternative inGroup).2.2.1
    simp only [mem_append, not_or]
    exact ⟨⟨sound.1.text, none⟩, ih sound.2 inRest⟩

end

end BraceGroups
