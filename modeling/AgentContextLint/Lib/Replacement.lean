import AgentContextLint.Lib.Pattern

/-!
# Replacing the matches of a pattern

A global replacement scans a text once: at a match it keeps the text of the pattern's lead, puts
the marker for the text of its body and goes on behind the match. The patterns consume what they
match.

The result mixes symbols of the text with markers. A predicate `kept` tells them apart: a stretch
of kept symbols in the result is a stretch of the text (`infix_of_replaceAll`), and none of them
matches the pattern (`not_infix_replaceAll`), unless a match fits into a lead.
-/

/-- A pattern whose matches are replaced behind the text of its lead. -/
structure Redaction (α : Type) where
  lead : Pattern α
  body : Pattern α

namespace Redaction

open Pattern (ends_comap mem_ends mem_language_seq nullable_of_nil_mem)

open List

variable {α : Type}

def pattern (r : Redaction α) : Pattern α := .seq r.lead r.body

/-- The texts of the lead and of the body that the first way of matching takes at the start. -/
def matched (r : Redaction α) (text : List α) : Option (List α × List α) :=
  ((r.lead.ends text).flatMap fun middle =>
    (r.body.ends middle).map fun rest => (middle, rest)).head?.map fun found =>
      (text.take (text.length - found.1.length),
        found.1.take (found.1.length - found.2.length))

/-- The text behind the next `skip` symbols, replaced. -/
def replaceFrom (r : Redaction α) (marker : List α) : (skip : Nat) → List α → List α
  | _, [] => []
  | skip + 1, _ :: rest => replaceFrom r marker skip rest
  | 0, c :: rest =>
    match r.matched (c :: rest) with
    | some (lead, body) =>
      lead ++ marker ++ replaceFrom r marker (lead.length + body.length - 1) rest
    | none => c :: replaceFrom r marker 0 rest

def replaceAll (r : Redaction α) (marker text : List α) : List α := replaceFrom r marker 0 text

/-! ## One round of the scan -/

/-- The body is the first way to go on behind the lead. -/
theorem exists_ends_of_matched {r : Redaction α} {text lead body : List α}
    (found : r.matched text = some (lead, body)) :
    lead ∈ r.lead.language ∧ body ∈ r.body.language ∧ ∃ rest, text = lead ++ (body ++ rest) ∧
      (r.body.ends (body ++ rest)).head? = some rest := by
  rw [matched, Option.map_eq_some_iff] at found
  obtain ⟨⟨middle, rest⟩, way, eq⟩ := found
  rw [head?_flatMap] at way
  obtain ⟨after, inLead, onward⟩ := exists_of_findSome?_eq_some way
  rw [head?_map, Option.map_eq_some_iff] at onward
  obtain ⟨rest, first, made⟩ := onward
  cases made
  obtain ⟨front, frontWord, rfl⟩ := mem_ends.mp inLead
  obtain ⟨back, backWord, rfl⟩ := mem_ends.mp (mem_of_mem_head? first)
  simp only [length_append, Nat.add_sub_cancel, take_left] at eq
  cases eq
  exact ⟨frontWord, backWord, rest, rfl, first⟩

theorem matched_eq_some {r : Redaction α} {text lead body : List α}
    (found : r.matched text = some (lead, body)) :
    lead ∈ r.lead.language ∧ body ∈ r.body.language ∧ ∃ rest, text = lead ++ body ++ rest := by
  obtain ⟨inLead, inBody, rest, eq, -⟩ := exists_ends_of_matched found
  exact ⟨inLead, inBody, rest, eq.trans (append_assoc ..).symm⟩

theorem matched_eq_none {r : Redaction α} {text : List α} (none : r.matched text = none) :
    ∀ word ∈ r.pattern.language, ¬ word <+: text := by
  rw [matched, Option.map_eq_none_iff, head?_eq_none_iff, flatMap_eq_nil_iff] at none
  rintro word inLanguage ⟨rest, eq⟩
  obtain ⟨front, inLead, back, inBody, rfl⟩ := mem_language_seq.mp inLanguage
  rw [append_assoc] at eq
  have nothing := map_eq_nil_iff.mp (none _ (mem_ends.mpr ⟨front, inLead, eq⟩))
  have left : rest ∈ r.body.ends (back ++ rest) := mem_ends.mpr ⟨back, inBody, rfl⟩
  rw [nothing] at left
  cases left

theorem replaceFrom_eq_drop (r : Redaction α) (marker : List α) (skip : Nat) (text : List α) :
    replaceFrom r marker skip text = replaceAll r marker (text.drop skip) := by
  induction skip generalizing text with
  | zero => rfl
  | succ skip ih =>
    cases text with
    | nil => rfl
    | cons c rest => exact ih rest

@[simp] theorem replaceAll_nil (r : Redaction α) (marker : List α) : replaceAll r marker [] = [] := rfl

theorem replaceAll_of_none {r : Redaction α} {marker : List α} {c : α} {rest : List α}
    (none : r.matched (c :: rest) = none) :
    replaceAll r marker (c :: rest) = c :: replaceAll r marker rest := by
  rw [replaceAll, replaceFrom, none]
  rfl

theorem replaceAll_of_some {r : Redaction α} {marker lead body rest : List α}
    (consumes : r.pattern.nullable = false)
    (found : r.matched (lead ++ body ++ rest) = some (lead, body)) :
    replaceAll r marker (lead ++ body ++ rest) = lead ++ marker ++ replaceAll r marker rest := by
  obtain ⟨inLead, inBody, -⟩ := matched_eq_some found
  have nonempty : lead ++ body ≠ [] := by
    intro empty
    have nullable := nullable_of_nil_mem (p := r.pattern)
      (mem_language_seq.mpr ⟨lead, inLead, body, inBody, empty⟩)
    rw [consumes] at nullable
    cases nullable
  cases word : lead ++ body with
  | nil => exact absurd word nonempty
  | cons c tail =>
    have length : lead.length + body.length - 1 = tail.length := by
      rw [← length_append, word]
      rfl
    rw [word, cons_append] at found
    rw [cons_append, replaceAll, replaceFrom, found]
    dsimp only
    rw [replaceFrom_eq_drop, length, drop_left]

/-- Induction along the scan: the end of the text, a symbol that stays, a match. -/
theorem scan_induction {r : Redaction α} (consumes : r.pattern.nullable = false)
    {motive : List α → Prop} (done : motive [])
    (stays : ∀ c rest, r.matched (c :: rest) = none → motive rest → motive (c :: rest))
    (found : ∀ lead body rest, r.matched (lead ++ body ++ rest) = some (lead, body) →
      motive rest → motive (lead ++ body ++ rest)) (text : List α) : motive text := by
  generalize size : text.length = n
  induction n using Nat.strongRecOn generalizing text with
  | ind n ih =>
    cases text with
    | nil => exact done
    | cons c rest =>
      cases match_ : r.matched (c :: rest) with
      | none => exact stays c rest match_ (ih rest.length (by simp at size; omega) rest rfl)
      | some parts =>
        obtain ⟨lead, body⟩ := parts
        obtain ⟨inLead, inBody, behind, eq⟩ := matched_eq_some match_
        have positive : 0 < (lead ++ body).length := by
          refine length_pos_iff.mpr fun empty => ?_
          have nullable := nullable_of_nil_mem (p := r.pattern)
            (mem_language_seq.mpr ⟨lead, inLead, body, inBody, empty⟩)
          rw [consumes] at nullable
          cases nullable
        rw [eq] at match_ size ⊢
        rw [length_append] at size
        exact found lead body behind match_ (ih behind.length (by omega) behind rfl)

theorem mem_of_mem_replaceAll {r : Redaction α} (consumes : r.pattern.nullable = false)
    {marker text : List α} {c : α} (member : c ∈ replaceAll r marker text) :
    c ∈ text ∨ c ∈ marker := by
  induction text using scan_induction consumes with
  | done => exact .inl member
  | stays d rest none ih =>
    rw [replaceAll_of_none none] at member
    rcases mem_cons.mp member with rfl | later
    · exact .inl mem_cons_self
    · exact (ih later).imp_left (mem_cons_of_mem _)
  | found lead body rest match_ ih =>
    rw [replaceAll_of_some consumes match_, mem_append, mem_append] at member
    rcases member with (inLead | inMarker) | later
    · exact .inl (mem_append_left _ (mem_append_left _ inLead))
    · exact .inr inMarker
    · exact (ih later).imp_left (mem_append_right _)

/-! ## Stretches of kept symbols -/

section Kept

variable {kept : α → Bool}

theorem prefix_of_kept {word front back : List α} {m : α} (keeps : ∀ c ∈ word, kept c = true)
    (lost : kept m = false) (starts : word <+: front ++ m :: back) : word <+: front := by
  induction front generalizing word with
  | nil =>
    cases word with
    | nil => exact nil_prefix
    | cons c rest =>
      have same := (cons_prefix_cons.mp starts).1
      have here := keeps c mem_cons_self
      rw [same, lost] at here
      cases here
  | cons x front ih =>
    cases word with
    | nil => exact nil_prefix
    | cons c rest =>
      obtain ⟨same, later⟩ := cons_prefix_cons.mp starts
      refine cons_prefix_cons.mpr ⟨same, ih (fun d member => ?_) later⟩
      exact keeps d (mem_cons_of_mem _ member)

theorem infix_of_kept {word front back : List α} {m : α} (keeps : ∀ c ∈ word, kept c = true)
    (lost : kept m = false) (within : word <:+: front ++ m :: back) :
    word <:+: front ∨ word <:+: back := by
  induction front with
  | nil =>
    rcases infix_cons_iff.mp within with starts | later
    · exact .inl (@prefix_of_kept _ kept word [] back m keeps lost starts).isInfix
    · exact .inr later
  | cons x front ih =>
    rcases infix_cons_iff.mp within with starts | later
    · exact .inl (@prefix_of_kept _ kept word (x :: front) back m keeps lost starts).isInfix
    · rcases ih later with inFront | inBack
      · exact .inl (infix_cons inFront)
      · exact .inr inBack

/-- A marker of symbols that are not kept separates stretches of kept ones. -/
theorem infix_around_marker {word front marker back : List α} (keeps : ∀ c ∈ word, kept c = true)
    (nonempty : marker ≠ []) (lost : ∀ c ∈ marker, kept c = false)
    (within : word <:+: front ++ marker ++ back) : word <:+: front ∨ word <:+: back := by
  induction marker generalizing front with
  | nil => exact absurd rfl nonempty
  | cons m rest ih =>
    rw [append_assoc, cons_append] at within
    rcases @infix_of_kept _ kept _ _ _ _ keeps (lost m mem_cons_self) within with inFront | later
    · exact .inl inFront
    · cases rest with
      | nil => exact .inr later
      | cons next rest =>
        have others : ∀ c ∈ next :: rest, kept c = false := fun c member =>
          lost c (mem_cons_of_mem _ member)
        have later : word <:+: [] ++ (next :: rest) ++ back := later
        rcases ih (cons_ne_nil _ _) others later with empty | inBack
        · exact .inl (empty.trans nil_infix)
        · exact .inr inBack

theorem prefix_before_marker {word front marker back : List α} (keeps : ∀ c ∈ word, kept c = true)
    (nonempty : marker ≠ []) (lost : ∀ c ∈ marker, kept c = false)
    (starts : word <+: front ++ marker ++ back) : word <+: front := by
  cases marker with
  | nil => exact absurd rfl nonempty
  | cons m rest =>
    rw [append_assoc, cons_append] at starts
    exact prefix_of_kept keeps (lost m mem_cons_self) starts

variable {r : Redaction α} {marker : List α}

section

variable (consumes : r.pattern.nullable = false)

include consumes

theorem prefix_of_replaceAll (nonempty : marker ≠ [])
    (lost : ∀ c ∈ marker, kept c = false) {text word : List α} (keeps : ∀ c ∈ word, kept c = true)
    (starts : word <+: replaceAll r marker text) : word <+: text := by
  induction text using scan_induction consumes generalizing word with
  | done => exact starts
  | stays c rest none ih =>
    rw [replaceAll_of_none none] at starts
    cases word with
    | nil => exact nil_prefix
    | cons d tail =>
      obtain ⟨same, later⟩ := cons_prefix_cons.mp starts
      refine cons_prefix_cons.mpr ⟨same, ih (fun e member => ?_) later⟩
      exact keeps e (mem_cons_of_mem _ member)
  | found lead body rest match_ ih =>
    rw [replaceAll_of_some consumes match_] at starts
    rw [append_assoc]
    exact (prefix_before_marker keeps nonempty lost starts).trans (prefix_append ..)

/-- A stretch of kept symbols in the result is one in the text. -/
theorem infix_of_replaceAll (nonempty : marker ≠ [])
    (lost : ∀ c ∈ marker, kept c = false) {text word : List α} (keeps : ∀ c ∈ word, kept c = true)
    (within : word <:+: replaceAll r marker text) : word <:+: text := by
  induction text using scan_induction consumes with
  | done => exact within
  | stays c rest none ih =>
    have starts := @prefix_of_replaceAll _ kept r marker consumes nonempty lost (c :: rest) word keeps
    rw [replaceAll_of_none none] at within starts
    rcases infix_cons_iff.mp within with first | later
    · exact (starts first).isInfix
    · exact infix_cons (ih later)
  | found lead body rest match_ ih =>
    rw [replaceAll_of_some consumes match_] at within
    rcases infix_around_marker keeps nonempty lost within with inLead | later
    · rw [append_assoc]
      exact inLead.trans (prefix_append ..).isInfix
    · exact (ih later).trans (suffix_append ..).isInfix

/-- No stretch of kept symbols in the result matches, when no match fits into a lead. -/
theorem not_infix_replaceAll (nonempty : marker ≠ []) (lost : ∀ c ∈ marker, kept c = false)
    (outside : ∀ word ∈ r.pattern.language, ∀ lead ∈ r.lead.language, ¬ word <:+: lead)
    {text word : List α} (inLanguage : word ∈ r.pattern.language)
    (keeps : ∀ c ∈ word, kept c = true) : ¬ word <:+: replaceAll r marker text := by
  intro within
  induction text using scan_induction consumes with
  | done =>
    rw [replaceAll_nil, infix_nil] at within
    subst within
    have nullable := nullable_of_nil_mem inLanguage
    rw [consumes] at nullable
    cases nullable
  | stays c rest none ih =>
    have starts := @prefix_of_replaceAll _ kept r marker consumes nonempty lost (c :: rest) word keeps
    rw [replaceAll_of_none none] at within starts
    rcases infix_cons_iff.mp within with first | later
    · exact matched_eq_none none word inLanguage (starts first)
    · exact ih later
  | found lead body rest match_ ih =>
    rw [replaceAll_of_some consumes match_] at within
    rcases infix_around_marker keeps nonempty lost within with inLead | later
    · exact outside word inLanguage lead (matched_eq_some match_).1 inLead
    · exact ih later

end

end Kept

/-! ## Texts of which only the end is matched -/

theorem replaceAll_ne_nil {r : Redaction α} {marker text : List α}
    (consumes : r.pattern.nullable = false) (filled : marker ≠ []) (nonempty : text ≠ []) :
    replaceAll r marker text ≠ [] := by
  induction text using scan_induction consumes with
  | done => exact absurd rfl nonempty
  | stays c rest none =>
    rw [replaceAll_of_none none]
    exact cons_ne_nil _ _
  | found lead body rest match_ =>
    rw [replaceAll_of_some consumes match_]
    simp [filled]

/-- What a pattern finds behind clean text and a symbol that it avoids, it finds alone. -/
theorem replaceAll_behind [DecidableEq α] {r : Redaction α} {marker front back : List α} {d : α}
    (clean : ∀ word, word <:+: front → word ∉ r.pattern.language)
    (avoids : ∀ word ∈ r.pattern.language, d ∉ word) :
    replaceAll r marker (front ++ d :: back) = front ++ d :: replaceAll r marker back := by
  have none : ∀ start, start <:+ front → r.matched (start ++ d :: back) = none := by
    intro start ends
    by_contra some
    obtain ⟨⟨lead, body⟩, found⟩ := Option.ne_none_iff_exists'.mp some
    obtain ⟨inLead, inBody, rest, eq⟩ := matched_eq_some found
    have inLanguage : lead ++ body ∈ r.pattern.language :=
      mem_language_seq.mpr ⟨lead, inLead, body, inBody, rfl⟩
    have within := @prefix_of_kept _ (· != d) _ start back d (fun c member => by
      simpa using fun same : c = d => avoids _ inLanguage (same ▸ member)) (by simp) ⟨rest, eq.symm⟩
    exact clean _ (within.isInfix.trans ends.isInfix) inLanguage
  induction front with
  | nil => exact replaceAll_of_none (none [] (suffix_refl _))
  | cons c front ih =>
    have here := none _ (suffix_refl _)
    rw [cons_append] at here ⊢
    rw [replaceAll_of_none here, ih (fun word within => clean word (infix_cons within))
      fun start ends => none start (ends.trans (suffix_cons ..))]
    rfl

/-! ## Replacements under a map -/

section Comap

variable {β : Type} {f : β → α}

def comap (f : β → α) (r : Redaction α) : Redaction β := ⟨r.lead.comap f, r.body.comap f⟩

theorem pattern_comap (r : Redaction α) : (r.comap f).pattern = r.pattern.comap f := rfl

theorem matched_comap (r : Redaction α) (text : List β) :
    ((r.comap f).matched text).map (Prod.map (map f) (map f)) =
      r.matched (text.map f) := by
  rw [matched, matched, Option.map_map, comap, ← ends_comap, flatMap_map]
  have ways : ((r.lead.comap f).ends text).flatMap (fun middle =>
        (r.body.ends (middle.map f)).map fun rest => (middle.map f, rest)) =
      (((r.lead.comap f).ends text).flatMap fun middle =>
        ((r.body.comap f).ends middle).map fun rest => (middle, rest)).map
          (Prod.map (map f) (map f)) := by
    rw [map_flatMap]
    refine flatMap_congr fun middle _ => ?_
    rw [← ends_comap, map_map, map_map]
    rfl
  rw [ways, head?_map, Option.map_map]
  congr 1
  funext found
  simp only [Function.comp_apply, Prod.map, map_take, length_map]

theorem replaceFrom_comap (r : Redaction α) (marker : List β) (skip : Nat) (text : List β) :
    (replaceFrom (r.comap f) marker skip text).map f =
      replaceFrom r (marker.map f) skip (text.map f) := by
  induction text generalizing skip with
  | nil => cases skip <;> rfl
  | cons b rest ih =>
    cases skip with
    | succ skip => exact ih skip
    | zero =>
      have same := @matched_comap _ _ f r (b :: rest)
      rw [map_cons] at same ⊢
      rw [replaceFrom, replaceFrom, ← same]
      cases (r.comap f).matched (b :: rest) with
      | none =>
        show f b :: (replaceFrom (r.comap f) marker 0 rest).map f = _
        rw [ih]
        rfl
      | some parts =>
        show (parts.1 ++ marker ++ replaceFrom (r.comap f) marker _ rest).map f =
          parts.1.map f ++ marker.map f ++
            replaceFrom r (marker.map f) ((parts.1.map f).length + (parts.2.map f).length - 1) _
        rw [map_append, map_append, ih, length_map, length_map]

theorem replaceAll_comap (r : Redaction α) (marker text : List β) :
    (replaceAll (r.comap f) marker text).map f = replaceAll r (marker.map f) (text.map f) :=
  replaceFrom_comap r marker 0 text

end Comap

/-! ## Replacements that change nothing -/

/-- A text in which every match is a lead with the marker behind it is not changed. -/
theorem replaceAll_eq_self {r : Redaction α} {marker : List α}
    (consumes : r.pattern.nullable = false) {text : List α}
    (marked : ∀ rest lead body, rest <:+ text → r.matched rest = some (lead, body) → body = marker) :
    replaceAll r marker text = text := by
  induction text using scan_induction consumes with
  | done => rfl
  | stays c rest none ih =>
    rw [replaceAll_of_none none, ih]
    intro suffix lead body ends
    exact marked suffix lead body (ends.trans (suffix_cons ..))
  | found lead body rest match_ ih =>
    have same := marked _ lead body (suffix_refl _) match_
    rw [replaceAll_of_some consumes match_, ih, same]
    intro suffix front back ends
    exact marked suffix front back (ends.trans (suffix_append ..))

end Redaction
