import AgentContextLint.Lib.BraceGroups
import AgentContextLint.Resolver.ProfileGlobDialects

/-!
# What brace expansion gives

A round of the expansion replaces the first group of every value by its alternatives, and the values of a
round are counted and measured before the groups behind are looked at. So the expansion is the product of
the groups, or the limit, or unsupported, as the pattern says, unless the values of an early round are
beyond a limit: then the expansion is the limit, whatever follows in the pattern
(`braceExpansion_exact_iff`).
-/

namespace AgentContextLint.ProfileGlobDialects

open Utf16 Utf8 Metered BraceGroups
open List (append_assoc cons_ne_nil foldlM_cons forall_mem_cons forall_mem_singleton length_append mem_append mem_cons_self mem_map nil_append not_mem_nil replicate)

def braces : Marks CodeUnit := ⟨0x7b, 0x7d, 0x2c, by decide⟩

def totalBytes (patterns : List Text) : Nat := (patterns.map byteLength).sum

def Fits (dialect : ProfileGlobDialect) (patterns : List Text) : Prop :=
  (patterns.length ≤ maxExpandedPatterns ∧
    ∀ count ∈ dialect.braceExpansionMaximumPatterns, patterns.length ≤ count) ∧
  (totalBytes patterns ≤ maxExpandedBytes ∧
    ∀ bytes ∈ dialect.braceExpansionMaximumBytes, totalBytes patterns ≤ bytes)

instance (dialect : ProfileGlobDialect) (patterns : List Text) : Decidable (Fits dialect patterns) :=
  inferInstanceAs (Decidable (_ ∧ _))

variable {dialect : ProfileGlobDialect} {groups lead : List (BraceGroup CodeUnit)} {group : BraceGroup CodeUnit}
  {done next more : List Text} {rest tail pattern : Text} {value : Text}

theorem totalBytes_append (first second : List Text) :
    totalBytes (first ++ second) = totalBytes first + totalBytes second := by
  unfold totalBytes
  rw [List.map_append, List.sum_append]

theorem Fits.of_append (fits : Fits dialect (next ++ more)) : Fits dialect next := by
  have fewer : next.length ≤ (next ++ more).length := by
    rw [length_append]
    exact Nat.le_add_right _ _
  have shorter : totalBytes next ≤ totalBytes (next ++ more) := by
    rw [totalBytes_append]
    exact Nat.le_add_right _ _
  exact ⟨⟨Nat.le_trans fewer fits.1.1, fun count limit => Nat.le_trans fewer (fits.1.2 count limit)⟩,
    ⟨Nat.le_trans shorter fits.2.1, fun bytes limit => Nat.le_trans shorter (fits.2.2 bytes limit)⟩⟩

theorem fits_nil : Fits dialect [] :=
  ⟨⟨Nat.zero_le _, fun _ _ => Nat.zero_le _⟩, ⟨Nat.zero_le _, fun _ _ => Nat.zero_le _⟩⟩

/-! ## One round -/

variable {condition : Prop} {e : ExpansionFailure}

theorem pass [Decidable condition] (not : ¬ condition) : refuseIf condition e = .ok () := if_neg not

theorem stop [Decidable condition] (holds : condition) :
    refuseIf condition e = .error e := if_pos holds

abbrev roundOf (expanded : Bool) (next : List Text) : ExpansionRound := ⟨expanded, next, totalBytes next⟩

/-- A round with these values, or the limit. -/
def pushed (dialect : ProfileGlobDialect) (next : List Text) : Except ExpansionFailure ExpansionRound :=
  if Fits dialect next then .ok (roundOf true next) else .error .limit

theorem pushed_of_fits (fits : Fits dialect next) : pushed dialect next = .ok (roundOf true next) :=
  if_pos fits

theorem pushed_of_over (beyond : ¬ Fits dialect next) : pushed dialect next = .error .limit := if_neg beyond

theorem fits_concat {candidate : Text} : Fits dialect (next ++ [candidate]) ↔
    (¬ (next.length + 1 > maxExpandedPatterns ∨
      ∃ count ∈ dialect.braceExpansionMaximumPatterns, next.length + 1 > count)) ∧
    ¬ (totalBytes next + byteLength candidate > maxExpandedBytes ∨
      ∃ bytes ∈ dialect.braceExpansionMaximumBytes, totalBytes next + byteLength candidate > bytes) := by
  have length : (next ++ [candidate]).length = next.length + 1 := length_append
  have bytes : totalBytes (next ++ [candidate]) = totalBytes next + byteLength candidate := by
    rw [totalBytes_append]
    rfl
  unfold Fits
  rw [length, bytes]
  simp

theorem pushAlternative_eq (front back alternative : Text) :
    pushAlternative dialect front back (roundOf true next) alternative =
      pushed dialect (next ++ [front ++ alternative ++ back]) := by
  unfold pushAlternative
  by_cases fits : Fits dialect (next ++ [front ++ alternative ++ back])
  · rcases fits_concat.mp fits with ⟨few, short⟩
    have bytes : totalBytes (next ++ [front ++ alternative ++ back]) =
        totalBytes next + byteLength (front ++ alternative ++ back) := totalBytes_append _ _
    rw [pushed_of_fits fits, roundOf, roundOf, bytes]
    dsimp only
    rw [pass few, ok_bind, pass short]
    rfl
  · rw [pushed_of_over fits]
    by_cases few : next.length + 1 > maxExpandedPatterns ∨
        ∃ count ∈ dialect.braceExpansionMaximumPatterns, next.length + 1 > count
    · rw [stop few]
      rfl
    · have beyond := fun short => fits (fits_concat.mpr ⟨few, short⟩)
      rw [pass few, ok_bind]
      dsimp only
      rw [stop (not_not.mp beyond)]
      rfl

/-- A loop each of whose rounds pushes values pushes all of them. -/
theorem foldlM_pushes {β : Type} {f : ExpansionRound → β → Except ExpansionFailure ExpansionRound}
    {made : β → List Text} {list : List β} (each : ∀ next, ∀ b ∈ list, Fits dialect next →
      f (roundOf true next) b = pushed dialect (next ++ made b)) (fits : Fits dialect next) :
    list.foldlM f (roundOf true next) = pushed dialect (next ++ list.flatMap made) := by
  induction list generalizing next with
  | nil =>
    rw [List.flatMap_nil, List.append_nil, pushed_of_fits fits]
    rfl
  | cons b list ih =>
    rw [foldlM_cons, each next b mem_cons_self fits, List.flatMap_cons, ← append_assoc]
    by_cases now : Fits dialect (next ++ made b)
    · rw [pushed_of_fits now, ok_bind]
      exact ih (fun next other member => each next other (List.mem_cons_of_mem _ member)) now
    · rw [pushed_of_over now, pushed_of_over fun later => now later.of_append]
      rfl

theorem separator_ne_opening : braces.separator ≠ braces.opening := by decide

/-- The values that a group makes of a front. -/
def madeOf (group : BraceGroup CodeUnit) (rest front : Text) : List Text :=
  group.alternatives.map fun alternative => front ++ group.text ++ alternative ++ rest

variable {front : Text}

theorem expandValue_group (documented : dialect.braceExpansion = .documented)
    (clean : braces.opening ∉ front) (sound : group.Sound braces) (expanded : Bool)
    (fits : Fits dialect next) :
    expandValue dialect (roundOf expanded next) (front ++ (group.spelled braces ++ rest)) =
      pushed dialect (next ++ madeOf group rest front) := by
  let joined : Text := [braces.separator].intercalate group.alternatives
  have whole : front ++ (group.spelled braces ++ rest) =
      (front ++ group.text) ++ 0x7b :: (joined ++ 0x7d :: rest) := by
    rw [BraceGroup.spelled_append, append_assoc]
    rfl
  have absent : braces.opening ∉ front ++ group.text := by
    rw [mem_append, not_or]
    exact ⟨clean, sound.text⟩
  have closing : braces.closing ∉ joined := sound.closing_notMem
  have opening : braces.opening ∉ joined :=
    notMem_intercalate separator_ne_opening fun alternative member => (sound.each alternative member).2.2.1
  have fronts : ((front ++ group.text) ++ 0x7b :: (joined ++ 0x7d :: rest)).takeWhile (· ≠ 0x7b) =
      front ++ group.text := takeWhile_until absent _
  have backs : ((front ++ group.text) ++ 0x7b :: (joined ++ 0x7d :: rest)).dropWhile (· ≠ 0x7b) =
      0x7b :: (joined ++ 0x7d :: rest) := dropWhile_until absent _
  have body : (joined ++ 0x7d :: rest).takeWhile (· ≠ 0x7d) = joined := takeWhile_until closing rest
  have behind : (joined ++ 0x7d :: rest).dropWhile (· ≠ 0x7d) = 0x7d :: rest :=
    dropWhile_until closing rest
  have alternatives : joined.splitOn 0x2c = group.alternatives := sound.splitOn
  have marked : ¬ ((0x7d : CodeUnit) ∉ joined ++ 0x7d :: rest ∨ 0x7b ∈ joined) := by
    rw [not_or, not_not]
    exact ⟨List.mem_append_right _ mem_cons_self, opening⟩
  have several : ¬ (group.alternatives.length < 2 ∨ [] ∈ group.alternatives) := by
    rw [not_or]
    exact ⟨Nat.not_lt.mpr sound.two, fun member => (sound.each [] member).1 rfl⟩
  have loop : group.alternatives.foldlM (pushAlternative dialect (front ++ group.text) rest)
      (roundOf true next) = pushed dialect (next ++ madeOf group rest front) := by
    rw [foldlM_pushes (fun next alternative _ _ => pushAlternative_eq _ _ alternative) fits,
      ← List.map_eq_flatMap]
    rfl
  unfold expandValue
  rw [whole, backs]
  simp only [fronts, body, behind, alternatives, pass (not_not.mpr documented), pass marked,
    pass several, ok_bind, List.drop_one, List.tail_cons]
  exact loop

/-- What is no group is not supported. -/
theorem expandValue_stuck (documented : dialect.braceExpansion = .documented)
    (clean : braces.opening ∉ front) (opened : braces.opening ∈ rest) (stuck : Stuck braces rest)
    (round : ExpansionRound) : expandValue dialect round (front ++ rest) = .error .unsupported := by
  rcases List.eq_append_cons_of_mem opened with ⟨text, inner, rfl, absent⟩
  have cleanText : braces.opening ∉ front ++ text := by
    rw [mem_append, not_or]
    exact ⟨clean, absent⟩
  have backs : ((front ++ text) ++ 0x7b :: inner).dropWhile (· ≠ 0x7b) = 0x7b :: inner :=
    dropWhile_until cleanText inner
  have whole : front ++ (text ++ braces.opening :: inner) = (front ++ text) ++ 0x7b :: inner :=
    (append_assoc _ _ _).symm
  unfold expandValue
  rw [whole, backs]
  dsimp only
  rw [pass (not_not.mpr documented), ok_bind]
  by_cases closed : (0x7d : CodeUnit) ∈ inner
  · rcases List.eq_append_cons_of_mem closed with ⟨body, back, rfl, unclosed⟩
    have bodies : (body ++ 0x7d :: back).takeWhile (· ≠ 0x7d) = body := takeWhile_until unclosed back
    rw [bodies]
    by_cases nested : (0x7b : CodeUnit) ∈ body
    · rw [stop (.inr nested)]
      rfl
    · rw [pass (not_or.mpr ⟨not_not.mpr closed, nested⟩), ok_bind]
      by_cases few : (body.splitOn 0x2c).length < 2 ∨ [] ∈ body.splitOn 0x2c
      · rw [stop few]
        rfl
      · rw [not_or, Nat.not_lt] at few
        exact absurd stuck (not_stuck absent nested unclosed few.1 few.2)
  · rw [stop (.inl closed)]
    rfl

theorem dropWhile_of_notMem (absent : braces.opening ∉ value) :
    value.dropWhile (· ≠ 0x7b) = [] := by
  rw [List.dropWhile_eq_nil_iff]
  intro unit member
  exact decide_eq_true (ne_of_mem_of_not_mem member absent)

theorem expandValue_closed (opening : braces.opening ∉ value) (closing : braces.closing ∈ value)
    (round : ExpansionRound) : expandValue dialect round value = .error .unsupported := by
  unfold expandValue
  rw [dropWhile_of_notMem opening]
  have closed : (0x7d : CodeUnit) ∈ value := closing
  dsimp only
  rw [stop closed]
  rfl

/-- A value without marks is kept, within the limit of the bytes. -/
theorem expandValue_plain (opening : braces.opening ∉ value)
    (closing : braces.closing ∉ value) : expandValue dialect (roundOf false next) value =
      if totalBytes (next ++ [value]) ≤ maxExpandedBytes then .ok (roundOf false (next ++ [value]))
      else .error .limit := by
  have bytes : totalBytes (next ++ [value]) = totalBytes next + byteLength value := totalBytes_append _ _
  unfold expandValue
  rw [dropWhile_of_notMem opening, roundOf, roundOf, bytes]
  have unclosed : (0x7d : CodeUnit) ∉ value := closing
  dsimp only
  rw [pass unclosed, ok_bind]
  split_ifs with short
  · rw [pass (Nat.not_lt.mpr short)]
    rfl
  · rw [stop (Nat.lt_of_not_le short)]
    rfl

theorem foldlM_plain {values : List Text}
    (clean : ∀ value ∈ values, braces.opening ∉ value ∧ braces.closing ∉ value)
    (short : totalBytes (next ++ values) ≤ maxExpandedBytes) :
    values.foldlM (expandValue dialect) (roundOf false next) = .ok (roundOf false (next ++ values)) := by
  induction values generalizing next with
  | nil =>
    rw [List.append_nil]
    rfl
  | cons value values ih =>
    rw [forall_mem_cons] at clean
    rw [List.append_cons] at short ⊢
    have now : totalBytes (next ++ [value]) ≤ maxExpandedBytes := by
      rw [totalBytes_append] at short
      exact Nat.le_trans (Nat.le_add_right _ _) short
    rw [foldlM_cons, expandValue_plain clean.1.1 clean.1.2, if_pos now, ok_bind]
    exact ih clean.2 short

/-! ## All rounds -/

theorem expandRounds_group (documented : dialect.braceExpansion = .documented) (some : done ≠ [])
    (clean : ∀ front ∈ done, braces.opening ∉ front) (sound : group.Sound braces) (rounds : Nat) :
    expandRounds dialect (rounds + 1) (done.map (· ++ (group.spelled braces ++ rest))) =
      if Fits dialect ((extend done group).map (· ++ rest)) then
        expandRounds dialect rounds ((extend done group).map (· ++ rest))
      else .error .limit := by
  have made : done.flatMap (madeOf group rest) = (extend done group).map (· ++ rest) := by
    unfold extend
    rw [List.map_flatMap]
    refine List.flatMap_congr fun front _ => ?_
    rw [List.map_map]
    rfl
  let step (round : ExpansionRound) (front : Text) : Except ExpansionFailure ExpansionRound :=
    expandValue dialect round (front ++ (group.spelled braces ++ rest))
  have each : ∀ next, ∀ front ∈ done, Fits dialect next →
      step (roundOf true next) front = pushed dialect (next ++ madeOf group rest front) :=
    fun next front member => expandValue_group documented (clean front member) sound true
  have loop : (done.map (· ++ (group.spelled braces ++ rest))).foldlM (expandValue dialect)
      (roundOf false []) = pushed dialect ((extend done group).map (· ++ rest)) := by
    have all := foldlM_pushes each fits_nil
    rw [nil_append, made] at all
    rw [List.foldlM_map, ← all]
    change done.foldlM step (roundOf false []) = _
    cases done with
    | nil => exact absurd rfl some
    | cons first others =>
      have start : step (roundOf false []) first = step (roundOf true []) first :=
        (expandValue_group documented (clean first mem_cons_self) sound false fits_nil).trans
          (each [] first mem_cons_self fits_nil).symm
      rw [foldlM_cons, foldlM_cons, start]
  change ((done.map (· ++ (group.spelled braces ++ rest))).foldlM (expandValue dialect)
    (roundOf false []) >>= _) = _
  rw [loop]
  split_ifs with fits
  · rw [pushed_of_fits fits, ok_bind]
    rfl
  · rw [pushed_of_over fits]
    rfl

/-- The values of every round up to the last group are within the limits. -/
def EarlyFits (dialect : ProfileGlobDialect) (tail : Text) :
    List Text → List (BraceGroup CodeUnit) → Prop
  | _, [] => True
  | done, group :: groups =>
    Fits dialect ((extend done group).map (· ++ (spelled braces groups ++ tail))) ∧
      EarlyFits dialect tail (extend done group) groups

theorem earlyFits_iff : EarlyFits dialect tail done groups ↔
    ∀ lead others, lead ≠ [] → groups = lead ++ others →
      Fits dialect ((lead.foldl extend done).map (· ++ (spelled braces others ++ tail))) := by
  induction groups generalizing done with
  | nil =>
    refine iff_of_true trivial fun lead others some split => ?_
    exact absurd (List.append_eq_nil_iff.mp split.symm).1 some
  | cons group groups ih =>
    rw [EarlyFits, ih]
    constructor
    · rintro ⟨first, later⟩ lead others some split
      cases lead with
      | nil => exact absurd rfl some
      | cons front lead =>
        rcases List.cons.inj split with ⟨rfl, rest⟩
        rw [List.foldl_cons]
        by_cases last : lead = []
        · subst last
          rw [rest] at first
          exact first
        · exact later lead others last rest
    · intro all
      refine ⟨all [group] groups (cons_ne_nil _ _) rfl, fun lead others some split => ?_⟩
      exact all (group :: lead) others (cons_ne_nil _ _) (congrArg (group :: ·) split)

theorem opening_notMem_extend (clean : ∀ front ∈ done, braces.opening ∉ front)
    (sound : group.Sound braces) : ∀ front ∈ extend done group, braces.opening ∉ front := by
  intro front member
  rcases List.mem_flatMap.mp member with ⟨begin, inDone, made⟩
  rcases mem_map.mp made with ⟨alternative, inGroup, rfl⟩
  simp only [mem_append, not_or]
  exact ⟨⟨clean begin inDone, sound.text⟩, (sound.each alternative inGroup).2.2.1⟩

/-- The rounds over groups end with a choice in each, or at the limit. -/
theorem expandRounds_groups (documented : dialect.braceExpansion = .documented) (some : done ≠ [])
    (clean : ∀ front ∈ done, braces.opening ∉ front) (sound : ∀ group ∈ groups, group.Sound braces)
    (rounds : Nat) :
    (EarlyFits dialect tail done groups →
      expandRounds dialect (groups.length + rounds) (done.map (· ++ (spelled braces groups ++ tail))) =
        expandRounds dialect rounds ((groups.foldl extend done).map (· ++ tail))) ∧
    (¬ EarlyFits dialect tail done groups →
      expandRounds dialect (groups.length + rounds) (done.map (· ++ (spelled braces groups ++ tail))) =
        .error .limit) := by
  induction groups generalizing done with
  | nil =>
    refine ⟨fun _ => ?_, fun not => absurd trivial not⟩
    rw [List.length_nil, Nat.zero_add]
    rfl
  | cons group groups ih =>
    rw [forall_mem_cons] at sound
    have whole : spelled braces (group :: groups) ++ tail =
        group.spelled braces ++ (spelled braces groups ++ tail) := by
      rw [spelled, List.flatMap_cons, append_assoc]
      rfl
    have count : (group :: groups).length + rounds = groups.length + rounds + 1 := by
      rw [List.length_cons]
      omega
    have later := ih (extend_ne_nil some sound.1.two) (opening_notMem_extend clean sound.1) sound.2
    rw [whole, count, expandRounds_group documented some clean sound.1, EarlyFits, List.foldl_cons]
    constructor
    · rintro ⟨fits, rest⟩
      rw [if_pos fits]
      exact later.1 rest
    · intro early
      split_ifs with fits
      · exact later.2 fun rest => early ⟨fits, rest⟩
      · rfl

/-! ## The whole expansion -/

def choices (groups : List (BraceGroup CodeUnit)) (tail : Text) : List Text :=
  (product groups).map (· ++ tail)

theorem braceExpansion_groups (documented : dialect.braceExpansion = .documented)
    (sound : ∀ group ∈ groups, group.Sound braces) :
    ∃ rounds, (EarlyFits dialect tail [[]] groups →
      braceExpansion (spelled braces groups ++ tail) dialect =
        expandRounds dialect (rounds + 1) (choices groups tail)) ∧
    (¬ EarlyFits dialect tail [[]] groups →
      braceExpansion (spelled braces groups ++ tail) dialect = .error .limit) := by
  have marks : groups.length ≤ (spelled braces groups ++ tail).count braces.opening :=
    length_le_count groups tail
  have enough : groups.length ≤ (spelled braces groups ++ tail).count 0x7b := marks
  have clean : ∀ front ∈ [([] : Text)], braces.opening ∉ front := by
    intro front member
    rw [List.mem_singleton.mp member]
    exact not_mem_nil
  have run := @expandRounds_groups dialect groups [[]] tail documented (cons_ne_nil _ _) clean sound
    ((spelled braces groups ++ tail).count 0x7b - groups.length + 1)
  have count : groups.length + ((spelled braces groups ++ tail).count 0x7b - groups.length + 1) =
      (spelled braces groups ++ tail).count 0x7b + 1 := by omega
  rw [count, ← product_eq_foldl] at run
  exact ⟨_, run⟩

/-- What ends the rounds when no group follows. -/
theorem expandRounds_stuck (documented : dialect.braceExpansion = .documented)
    (sound : ∀ group ∈ groups, group.Sound braces) (stuck : Stuck braces tail)
    (unbalanced : ¬ Balanced braces groups tail) (rounds : Nat) :
    expandRounds dialect (rounds + 1) (choices groups tail) = .error .unsupported := by
  have some : product groups ≠ [] := product_ne_nil sound
  have fails : ∀ round choice, choice ∈ product groups →
      expandValue dialect round (choice ++ tail) = .error .unsupported := by
    intro round choice member
    by_cases opened : braces.opening ∈ tail
    · exact expandValue_stuck documented (opening_notMem_product sound member) opened stuck round
    · refine expandValue_closed ?_ ?_ round
      · rw [mem_append, not_or]
        exact ⟨opening_notMem_product sound member, opened⟩
      · rw [mem_append, closing_mem_product sound member]
        by_contra unclosed
        rw [not_or] at unclosed
        exact unbalanced ⟨sound, fun group inGroups closed => unclosed.1 ⟨group, inGroups, closed⟩, opened,
          unclosed.2⟩
  rcases List.exists_cons_of_ne_nil some with ⟨first, others, split⟩
  change ((choices groups tail).foldlM (expandValue dialect) (roundOf false []) >>= _) = _
  have member : first ∈ product groups := split ▸ mem_cons_self
  rw [choices, split, List.map_cons, foldlM_cons, fails _ first member]
  rfl

theorem expandRounds_plain
    (clean : ∀ choice ∈ choices groups tail, braces.opening ∉ choice ∧ braces.closing ∉ choice)
    (short : totalBytes (choices groups tail) ≤ maxExpandedBytes) (rounds : Nat) :
    expandRounds dialect (rounds + 1) (choices groups tail) = .ok (choices groups tail) := by
  change ((choices groups tail).foldlM (expandValue dialect) (roundOf false []) >>= _) = _
  rw [foldlM_plain clean (by rw [nil_append]; exact short), ok_bind]
  rfl

def WellFormed (pattern : Text) : Prop :=
  ∃ groups tail, Balanced braces groups tail ∧ pattern = spelled braces groups ++ tail

/-- The expansion of a pattern is the product of its groups if they are well formed and the product is
within the limits; it is the limit if the product is not, and unsupported if they are not well formed. -/
structure ExpandsExactly (dialect : ProfileGlobDialect) (pattern : Text) : Prop where
  expands : ∀ patterns, braceExpansion pattern dialect = .ok patterns ↔
    ∃ groups tail, Balanced braces groups tail ∧ pattern = spelled braces groups ++ tail ∧
      Fits dialect (choices groups tail) ∧ patterns = choices groups tail
  unsupported : ¬ WellFormed pattern → braceExpansion pattern dialect = .error .unsupported
  limit : ∀ groups tail, Balanced braces groups tail → pattern = spelled braces groups ++ tail →
    ¬ Fits dialect (choices groups tail) → braceExpansion pattern dialect = .error .limit

/-- The choices in the first groups of a pattern, with the rest of it behind them, are within the limits,
however many groups are taken. -/
def EveryRoundFits (dialect : ProfileGlobDialect) (pattern : Text) : Prop :=
  ∀ lead rest, lead ≠ [] → (∀ group ∈ lead, group.Sound braces) →
    pattern = spelled braces lead ++ rest → Fits dialect (choices lead rest)

theorem earlyFits_iff_everyRoundFits (sound : ∀ group ∈ groups, group.Sound braces)
    (stuck : Stuck braces tail) : EarlyFits dialect tail [[]] groups ↔
      EveryRoundFits dialect (spelled braces groups ++ tail) := by
  rw [earlyFits_iff]
  constructor
  · intro early lead rest some soundLead same
    rcases lead_unique soundLead sound stuck same.symm with ⟨more, split, rfl⟩
    have fits := early lead more some split
    rw [← product_eq_foldl] at fits
    exact fits
  · rintro every lead more some rfl
    have whole : spelled braces (lead ++ more) ++ tail =
        spelled braces lead ++ (spelled braces more ++ tail) := by
      rw [spelled, List.flatMap_append, append_assoc]
      rfl
    have fits := every lead _ some (fun group member => sound group (List.mem_append_left _ member)) whole
    rw [← product_eq_foldl]
    exact fits

theorem choices_clean (balanced : Balanced braces groups tail) :
    ∀ choice ∈ choices groups tail, braces.opening ∉ choice ∧ braces.closing ∉ choice := by
  intro choice member
  rcases mem_map.mp member with ⟨front, inProduct, rfl⟩
  have opening := opening_notMem_product balanced.sound inProduct
  have closing : braces.closing ∉ front := by
    rw [closing_mem_product balanced.sound inProduct]
    rintro ⟨group, inGroups, closed⟩
    exact balanced.texts group inGroups closed
  simp only [mem_append, not_or]
  exact ⟨⟨opening, balanced.opening⟩, closing, balanced.closing⟩

/-- The limits of a dialect are those of all dialects, or none. -/
def StandardLimits (dialect : ProfileGlobDialect) : Prop :=
  (∀ count ∈ dialect.braceExpansionMaximumPatterns, count = maxExpandedPatterns) ∧
    ∀ bytes ∈ dialect.braceExpansionMaximumBytes, bytes = maxExpandedBytes

theorem standardLimits_of_mem (member : dialect ∈ profileGlobDialects) : StandardLimits dialect := by
  unfold StandardLimits
  revert dialect
  decide +kernel

theorem fits_of_standard {patterns : List Text} (standard : StandardLimits dialect)
    (few : patterns.length ≤ maxExpandedPatterns) (short : totalBytes patterns ≤ maxExpandedBytes) :
    Fits dialect patterns :=
  ⟨⟨few, fun count limit => standard.1 count limit ▸ few⟩,
    ⟨short, fun bytes limit => standard.2 bytes limit ▸ short⟩⟩

/-- A single pattern is within the limits if its bytes are. -/
theorem fits_singleton (standard : StandardLimits dialect) :
    Fits dialect [pattern] ↔ totalBytes [pattern] ≤ maxExpandedBytes := by
  constructor
  · intro fits
    exact fits.2.1
  · intro short
    have one : [pattern].length ≤ maxExpandedPatterns := by
      rw [List.length_singleton]
      decide
    exact fits_of_standard standard one short

theorem wellFormed_iff (sound : ∀ group ∈ groups, group.Sound braces) (stuck : Stuck braces tail) :
    WellFormed (spelled braces groups ++ tail) ↔ Balanced braces groups tail := by
  constructor
  · rintro ⟨others, rest, balanced, same⟩
    rcases balanced.unique sound stuck same.symm with ⟨rfl, rfl⟩
    exact balanced
  · intro balanced
    exact ⟨groups, tail, balanced, rfl⟩

/-- What the expansion is, by the one way to read the pattern. -/
theorem expandsExactly_iff (sound : ∀ group ∈ groups, group.Sound braces) (stuck : Stuck braces tail) :
    ExpandsExactly dialect (spelled braces groups ++ tail) ↔
      (Balanced braces groups tail → Fits dialect (choices groups tail) →
        braceExpansion (spelled braces groups ++ tail) dialect = .ok (choices groups tail)) ∧
      (Balanced braces groups tail → ¬ Fits dialect (choices groups tail) →
        braceExpansion (spelled braces groups ++ tail) dialect = .error .limit) ∧
      (¬ Balanced braces groups tail →
        braceExpansion (spelled braces groups ++ tail) dialect = .error .unsupported) := by
  constructor
  · intro exactly
    refine ⟨fun balanced fits => ?_, fun balanced => exactly.limit groups tail balanced rfl, ?_⟩
    · exact (exactly.expands _).mpr ⟨groups, tail, balanced, rfl, fits, rfl⟩
    · rw [← wellFormed_iff sound stuck]
      exact exactly.unsupported
  · rintro ⟨product, limit, unsupported⟩
    refine ⟨fun patterns => ⟨fun ran => ?_, ?_⟩, ?_, ?_⟩
    · by_cases balanced : Balanced braces groups tail
      · by_cases fits : Fits dialect (choices groups tail)
        · rw [product balanced fits] at ran
          exact ⟨groups, tail, balanced, rfl, fits, (Except.ok.inj ran).symm⟩
        · rw [limit balanced fits] at ran
          cases ran
      · rw [unsupported balanced] at ran
        cases ran
    · rintro ⟨others, rest, balanced, same, fits, rfl⟩
      rcases balanced.unique sound stuck same.symm with ⟨rfl, rfl⟩
      exact product balanced fits
    · rw [wellFormed_iff sound stuck]
      exact unsupported
    · intro others rest balanced same beyond
      rcases balanced.unique sound stuck same.symm with ⟨rfl, rfl⟩
      exact limit balanced beyond

/-- An early round beyond a limit ends the expansion there. -/
theorem braceExpansion_of_early (documented : dialect.braceExpansion = .documented)
    (early : ¬ EveryRoundFits dialect pattern) : braceExpansion pattern dialect = .error .limit := by
  rcases exists_lead braces pattern with ⟨groups, tail, sound, rfl, stuck⟩
  rcases @braceExpansion_groups dialect groups tail documented sound with ⟨_, _, limit⟩
  exact limit (mt (earlyFits_iff_everyRoundFits sound stuck).mp early)

theorem braceExpansion_of_every (documented : dialect.braceExpansion = .documented)
    (standard : StandardLimits dialect) (sound : ∀ group ∈ groups, group.Sound braces)
    (stuck : Stuck braces tail) (every : EveryRoundFits dialect (spelled braces groups ++ tail)) :
    ExpandsExactly dialect (spelled braces groups ++ tail) := by
  rcases @braceExpansion_groups dialect groups tail documented sound with ⟨rounds, ran, _⟩
  have last := ran ((earlyFits_iff_everyRoundFits sound stuck).mpr every)
  rw [expandsExactly_iff sound stuck, last]
  by_cases none : groups = []
  · subst none
    have single : choices [] tail = [tail] := rfl
    rw [single, fits_singleton standard]
    refine ⟨fun balanced short => ?_, fun balanced beyond => ?_, fun unbalanced => ?_⟩
    · rw [← single] at short ⊢
      exact expandRounds_plain (choices_clean balanced) short rounds
    · change (expandValue dialect (roundOf false []) tail >>= _) >>= _ = _
      rw [expandValue_plain balanced.opening balanced.closing, nil_append, if_neg beyond]
      rfl
    · rw [← single]
      exact expandRounds_stuck documented sound stuck unbalanced rounds
  · have fits := every groups tail none sound rfl
    refine ⟨fun balanced _ => ?_, fun _ beyond => absurd fits beyond, fun unbalanced => ?_⟩
    · exact expandRounds_plain (choices_clean balanced) fits.2.1 rounds
    · exact expandRounds_stuck documented sound stuck unbalanced rounds

/-- The expansion is as it should be exactly if no round is beyond the limits, or the pattern is well formed
and beyond the limits as a whole too. -/
theorem braceExpansion_exact_iff : ∀ dialect ∈ profileGlobDialects,
    dialect.braceExpansion = .documented → ∀ pattern, ExpandsExactly dialect pattern ↔
      (EveryRoundFits dialect pattern ∨ ∃ groups tail, Balanced braces groups tail ∧
        pattern = spelled braces groups ++ tail ∧ ¬ Fits dialect (choices groups tail)) := by
  intro dialect member documented pattern
  have standard := standardLimits_of_mem member
  rcases exists_lead braces pattern with ⟨groups, tail, sound, rfl, stuck⟩
  by_cases every : EveryRoundFits dialect (spelled braces groups ++ tail)
  · exact iff_of_true (braceExpansion_of_every documented standard sound stuck every) (.inl every)
  · have limit := braceExpansion_of_early documented every
    rw [or_iff_right every, expandsExactly_iff sound stuck, limit]
    constructor
    · rintro ⟨product, _, unsupported⟩
      have balanced : Balanced braces groups tail := by
        by_contra unbalanced
        cases unsupported unbalanced
      refine ⟨groups, tail, balanced, rfl, fun fits => ?_⟩
      cases product balanced fits
    · rintro ⟨others, rest, balanced, same, beyond⟩
      rcases balanced.unique sound stuck same.symm with ⟨rfl, rfl⟩
      exact ⟨fun _ fits => absurd fits beyond, fun _ _ => rfl, fun unbalanced => absurd balanced unbalanced⟩

/-- In `{a,b}c` all is within the limits. -/
theorem braceExpansion_exact_iff_pair : ExpandsExactly claudeDialect
    (spelled braces [⟨[], [js "a", js "b"]⟩] ++ js "c") := by
  have member : claudeDialect ∈ profileGlobDialects := mem_cons_self
  refine (braceExpansion_exact_iff claudeDialect member rfl _).mpr (.inl ?_)
  have sound : BraceGroup.Sound braces ⟨[], [js "a", js "b"]⟩ :=
    ⟨not_mem_nil, Nat.le_refl 2, by decide⟩
  have stuck : Stuck braces (js "c") := stuck_of_unclosed (by decide)
  refine (earlyFits_iff_everyRoundFits (forall_mem_singleton.mpr sound) stuck).mp ⟨?_, trivial⟩
  decide +kernel

def crowded : BraceGroup CodeUnit := ⟨[], replicate 1001 (js "a")⟩

theorem crowded_sound : crowded.Sound braces where
  text := not_mem_nil
  two := by
    change 2 ≤ (replicate 1001 _).length
    rw [List.length_replicate]
    decide
  each := by
    intro alternative member
    rw [List.eq_of_mem_replicate member]
    decide

/-- A brace that is not closed, behind a group that is beyond the limit. -/
def unclosed : Text := spelled braces [crowded] ++ js "\x7b"

theorem crowded_over : ¬ EveryRoundFits claudeDialect unclosed := by
  intro every
  have fits := every [crowded] (js "\x7b") (cons_ne_nil _ _) (forall_mem_singleton.mpr crowded_sound) rfl
  have few := fits.1.1
  have count : (choices [crowded] (js "\x7b")).length = 1001 := by decide +kernel
  rw [count] at few
  exact absurd few (by decide)

/-- The pattern is malformed, and the expansion is the limit. -/
theorem unclosed_expandsExactly_false : ¬ ExpandsExactly claudeDialect unclosed := by
  intro exactly
  have stuck : Stuck braces (js "\x7b") := stuck_of_unclosed (by decide)
  have malformed : ¬ WellFormed unclosed := by
    rw [unclosed, wellFormed_iff (forall_mem_singleton.mpr crowded_sound) stuck]
    intro balanced
    exact balanced.opening mem_cons_self
  have limit := @braceExpansion_of_early claudeDialect unclosed rfl crowded_over
  rw [exactly.unsupported malformed] at limit
  cases limit

/-- Two groups of two alternatives, of one letter and of `size` letters. -/
def unequal (size : Nat) : List (BraceGroup CodeUnit) :=
  [⟨[], [js "a", js "b"]⟩, ⟨[], [replicate size 0x61, replicate size 0x62]⟩]

theorem balanced_unequal {size : Nat} (positive : 0 < size) : Balanced braces (unequal size) [] where
  sound := by
    have letters : ∀ u ∈ [0x61, 0x62], (replicate size u : Text) ≠ [] ∧
        braces.separator ∉ replicate size u ∧ braces.opening ∉ replicate size u ∧
          braces.closing ∉ replicate size u := by
      simp [braces, List.mem_replicate, positive.ne']
    exact forall_mem_cons.mpr ⟨⟨not_mem_nil, Nat.le_refl 2, by decide⟩,
      forall_mem_singleton.mpr ⟨not_mem_nil, Nat.le_refl 2, by simpa using letters⟩⟩
  texts := by simp [unequal]
  opening := not_mem_nil
  closing := not_mem_nil

theorem fits_unequal {size : Nat} (short : 4 * (size + 1) ≤ maxExpandedBytes) :
    Fits claudeDialect (choices (unequal size) []) := by
  have bytes : ∀ first ∈ [js "a", js "b"], ∀ u : CodeUnit, u.toNat < 0x80 →
      byteLength (first ++ replicate size u) = size + 1 := by
    intro first inLetters u ascii
    have letters : ∀ letter ∈ [js "a", js "b"], (∀ u ∈ letter, u.toNat < 0x80) ∧
        letter.length = 1 := by decide
    rw [byteLength_of_ascii (List.forall_mem_append.mpr ⟨(letters first inLetters).1,
      fun v member => List.eq_of_mem_replicate member ▸ ascii⟩), length_append,
      (letters first inLetters).2, List.length_replicate, Nat.add_comm]
  have total : totalBytes (choices (unequal size) []) = 4 * (size + 1) := by
    simp [totalBytes, choices, unequal, product, bytes]
    omega
  have member : claudeDialect ∈ profileGlobDialects := mem_cons_self
  have few : 4 ≤ maxExpandedPatterns := by decide
  exact fits_of_standard (standardLimits_of_mem member) few (total ▸ short)

/-- The first round has the second group twice, with its marks. -/
theorem not_everyRoundFits_unequal {size : Nat} (positive : 0 < size)
    (large : maxExpandedBytes < 4 * (size + 2)) :
    ¬ EveryRoundFits claudeDialect (spelled braces (unequal size)) := by
  intro every
  rcases forall_mem_cons.mp (balanced_unequal positive).sound with ⟨sound, _⟩
  have split : spelled braces (unequal size) =
      spelled braces [⟨[], [js "a", js "b"]⟩] ++ spelled braces (unequal size).tail := by
    simp [unequal, spelled]
  have fits := every _ _ (cons_ne_nil _ []) (forall_mem_singleton.mpr sound) split
  generalize rests : spelled braces (unequal size).tail = rest at fits
  have long : rest.length = 2 * size + 3 := by
    simp [← rests, unequal, spelled, BraceGroup.spelled]
    omega
  have measured : byteLength (js "a" ++ rest) + byteLength (js "b" ++ rest) ≤ maxExpandedBytes := by
    simpa [totalBytes, choices, product] using fits.2.1
  have first := length_le_byteLength (js "a" ++ rest)
  have second := length_le_byteLength (js "b" ++ rest)
  rw [length_append, show (js "a").length = 1 from rfl] at first
  rw [length_append, show (js "b").length = 1 from rfl] at second
  omega

/-- Four patterns of 1 MiB are within the limits, and yet the first round is beyond them. -/
theorem unequal_refused : Balanced braces (unequal 1048575) [] ∧
    Fits claudeDialect (choices (unequal 1048575) []) ∧
    braceExpansion (spelled braces (unequal 1048575)) claudeDialect = .error .limit :=
  ⟨balanced_unequal (by decide), fits_unequal (by decide), braceExpansion_of_early rfl
    (not_everyRoundFits_unequal (by decide) (by decide))⟩

end AgentContextLint.ProfileGlobDialects
