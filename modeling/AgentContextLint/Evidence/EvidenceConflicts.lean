import AgentContextLint.Evidence.EvidenceIndex

/-!
# Conflicts of evidence

Facts are grouped under a text. As long as names are texts and scopes hold no NUL, this text stands
for a category, a scope and a name, and the conflicts are the groups that hold two values
(`conflictsExact`).
-/

namespace AgentContextLint.EvidenceIndex

open Utf16 PlainTable List

def IsGrouped (fact other : DraftFact) : Prop :=
  other.category = fact.category ∧ other.scope = fact.scope ∧ other.name = fact.name

instance (fact other : DraftFact) : Decidable (IsGrouped fact other) :=
  inferInstanceAs (Decidable (_ ∧ _ ∧ _))

variable (facts : List EvidenceFact)

def groupOf (fact : DraftFact) : List EvidenceFact :=
  facts.filter fun other => IsGrouped fact other.toDraftFact

def conflictFor (fact : DraftFact) : EvidenceConflict where
  category := fact.category
  factIds := Sorting.sortBy compareUnits ((groupOf facts fact).map (·.id))
  name := fact.name
  scope := fact.scope
  values := Sorting.sortBy (fun left right => compareUnits left.toText right.toText)
    ((groupOf facts fact).map (·.value)).dedup

/-- The conflicts are the groups that hold two values. -/
def ConflictsExact (conflicts : List EvidenceConflict) : Prop :=
  conflicts.Nodup ∧ ∀ conflict, conflict ∈ conflicts ↔
    ∃ fact ∈ facts, fact.category ∈ conflictCategories ∧
      2 ≤ ((groupOf facts fact.toDraftFact).map (·.value)).dedup.length ∧
      conflict = conflictFor facts fact.toDraftFact

/-! ## Group keys -/

/-- A fact whose group key can be read back. -/
structure Keyed (fact : DraftFact) : Prop where
  name : fact.name.IsText
  scope : (0 : UInt16) ∉ fact.scope

theorem nul_notMem_category (category : EvidenceFactCategory) : (0 : UInt16) ∉ category.text := by
  cases category <;> decide

theorem category_injective {first second : EvidenceFactCategory} (same : first.text = second.text) :
    first = second := by
  cases first <;> cases second <;> first | rfl | exact absurd same (by decide)

theorem groupKey_eq_iff {fact other : DraftFact} (keyed : Keyed fact) (otherKeyed : Keyed other) :
    groupKey other = groupKey fact ↔ IsGrouped fact other := by
  constructor
  · intro same
    rw [groupKey, groupKey, append_assoc, append_assoc, append_assoc,
      append_assoc, append_assoc, append_assoc, singleton_append,
      singleton_append, singleton_append, singleton_append] at same
    rcases Netstring.append_cons_inj (nul_notMem_category _) (nul_notMem_category _) same with
      ⟨categories, same⟩
    rcases Netstring.append_cons_inj otherKeyed.scope keyed.scope same with ⟨scopes, names⟩
    rcases keyed.name with ⟨name, isText⟩
    rcases otherKeyed.name with ⟨otherName, otherText⟩
    rw [isText, otherText] at names
    refine ⟨category_injective categories, scopes, ?_⟩
    rw [isText, otherText]
    exact congrArg Value.text names
  · intro ⟨categories, scopes, names⟩
    rw [groupKey, groupKey, categories, scopes, names]

variable {facts : List EvidenceFact} {fact : EvidenceFact} {key : Text}

theorem self_mem_groupOf (member : fact ∈ facts) : fact ∈ groupOf facts fact.toDraftFact :=
  mem_filter.mpr ⟨member, decide_eq_true ⟨rfl, rfl, rfl⟩⟩

/-- The members of a group key are those that agree with one of them. -/
theorem members_groupsOf (keyed : ∀ fact ∈ facts, Keyed fact.toDraftFact)
    (member : fact ∈ facts) (counted : fact.category ∈ conflictCategories) :
    (groupsOf facts).members (groupKey fact.toDraftFact) = groupOf facts fact.toDraftFact := by
  rw [groupsOf, OrderedMap.members_group, filter_filter, groupOf]
  apply filter_congr
  intro other otherMember
  have keys := groupKey_eq_iff (keyed fact member) (keyed other otherMember)
  by_cases grouped : IsGrouped fact.toDraftFact other.toDraftFact
  · rw [decide_eq_true (keys.mpr grouped), decide_eq_true grouped, Bool.true_and]
    exact decide_eq_true (grouped.1 ▸ counted)
  · rw [decide_eq_false fun same => grouped (keys.mp same), decide_eq_false grouped, Bool.false_and]

theorem mem_keys_groupsOf : key ∈ (groupsOf facts).keys ↔
    ∃ fact ∈ facts, fact.category ∈ conflictCategories ∧ groupKey fact.toDraftFact = key := by
  rw [groupsOf, OrderedMap.mem_keys_group]
  constructor
  · intro ⟨fact, member, same⟩
    rcases mem_filter.mp member with ⟨inFacts, counted⟩
    exact ⟨fact, inFacts, of_decide_eq_true counted, same⟩
  · intro ⟨fact, inFacts, counted, same⟩
    exact ⟨fact, mem_filter.mpr ⟨inFacts, decide_eq_true counted⟩, same⟩

theorem mem_entries_groupsOf (keyed : ∀ fact ∈ facts, Keyed fact.toDraftFact)
    {group : List EvidenceFact} : (key, group) ∈ (groupsOf facts).entries ↔
      ∃ fact ∈ facts, fact.category ∈ conflictCategories ∧ groupKey fact.toDraftFact = key ∧
        group = groupOf facts fact.toDraftFact := by
  rw [← OrderedMap.get?_eq_some]
  constructor
  · intro found
    have isKey : key ∈ (groupsOf facts).keys := by
      rw [← OrderedMap.isSome_get?, found]
      rfl
    rcases mem_keys_groupsOf.mp isKey with ⟨fact, member, counted, rfl⟩
    refine ⟨fact, member, counted, rfl, ?_⟩
    rw [← members_groupsOf keyed member counted, OrderedMap.members, found, Option.getD_some]
  · intro listed
    rcases listed with ⟨fact, member, counted, same, grouped⟩
    have isKey : key ∈ (groupsOf facts).keys := mem_keys_groupsOf.mpr ⟨fact, member, counted, same⟩
    rcases Option.isSome_iff_exists.mp (OrderedMap.isSome_get?.mpr isKey) with ⟨other, found⟩
    have read := members_groupsOf keyed member counted
    rw [same, OrderedMap.members, found, Option.getD_some] at read
    rw [found, grouped, read]

theorem conflictOf_groupOf (member : fact ∈ facts) : conflictOf (groupOf facts fact.toDraftFact) =
      if 2 ≤ ((groupOf facts fact.toDraftFact).map (·.value)).dedup.length then
        some (conflictFor facts fact.toDraftFact) else none := by
  have present := self_mem_groupOf member
  unfold conflictOf conflictFor
  dsimp only
  split
  · next empty =>
      rw [empty] at present
      cases present
  · next first rest eq =>
      have inGroup : first ∈ groupOf facts fact.toDraftFact := by
        rw [eq]
        exact mem_cons_self
      have same : IsGrouped fact.toDraftFact first.toDraftFact :=
        of_decide_eq_true (mem_filter.mp inGroup).2
      rw [Sorting.length_sortBy, same.1, same.2.1, same.2.2]
      split_ifs <;> first | rfl | omega

section

variable (keyed : ∀ fact ∈ facts, Keyed fact.toDraftFact)

include keyed

theorem mem_buildConflicts {conflict : EvidenceConflict} : conflict ∈ buildConflicts facts ↔
      ∃ fact ∈ facts, fact.category ∈ conflictCategories ∧
        2 ≤ ((groupOf facts fact.toDraftFact).map (·.value)).dedup.length ∧
        conflict = conflictFor facts fact.toDraftFact := by
  rw [buildConflicts, Sorting.mem_sortBy, mem_filterMap]
  constructor
  · intro ⟨group, member, made⟩
    rcases mem_map.mp member with ⟨⟨key, _⟩, inEntries, rfl⟩
    rcases (mem_entries_groupsOf keyed).mp inEntries with ⟨fact, inFacts, counted, _, rfl⟩
    rw [conflictOf_groupOf inFacts] at made
    split_ifs at made with distinct
    cases made
    exact ⟨fact, inFacts, counted, distinct, rfl⟩
  · intro ⟨fact, inFacts, counted, distinct, same⟩
    refine ⟨groupOf facts fact.toDraftFact, ?_, ?_⟩
    · exact mem_map.mpr ⟨_, (mem_entries_groupsOf keyed).mpr
        ⟨fact, inFacts, counted, rfl, rfl⟩, rfl⟩
    · rw [conflictOf_groupOf inFacts, if_pos distinct, same]

/-- Different keys give different conflicts. -/
theorem nodup_buildConflicts : (buildConflicts facts).Nodup := by
  rw [buildConflicts, Sorting.nodup_sortBy, OrderedMap.values, filterMap_map]
  have keys := pairwise_map.mp (groupsOf facts).nodup
  have apart : (groupsOf facts).entries.Pairwise fun first second =>
      ∀ conflict, conflictOf first.2 = some conflict → conflictOf second.2 ≠ some conflict := by
    apply Pairwise.imp_of_mem _ keys
    intro first second inFirst inSecond distinct conflict made same
    rcases first with ⟨key, group⟩
    rcases second with ⟨otherKey, otherGroup⟩
    rcases (mem_entries_groupsOf keyed).mp inFirst with ⟨fact, inFacts, _, ofFact, rfl⟩
    rcases (mem_entries_groupsOf keyed).mp inSecond with ⟨other, otherIn, _, ofOther, rfl⟩
    rw [conflictOf_groupOf inFacts] at made
    rw [conflictOf_groupOf otherIn] at same
    split_ifs at made same
    have agree : conflictFor facts other.toDraftFact = conflictFor facts fact.toDraftFact :=
      (Option.some.inj same).trans (Option.some.inj made).symm
    apply distinct
    rw [← ofFact, ← ofOther]
    exact (groupKey_eq_iff (keyed _ otherIn) (keyed _ inFacts)).mpr
      ⟨(congrArg (·.category) agree).symm, (congrArg (·.scope) agree).symm,
        (congrArg (·.name) agree).symm⟩
  apply Pairwise.filterMap _ _ apart
  intro first second never conflict made other same equal
  rw [← equal] at same
  exact never conflict made same

theorem conflictsExact : ConflictsExact facts (buildConflicts facts) :=
  ⟨nodup_buildConflicts keyed, fun _ => mem_buildConflicts keyed⟩

end

end AgentContextLint.EvidenceIndex
