import AgentContextLint.Core.SanitizedText

/-!
# Sanitised assignments

`sanitizeOutputText` is not idempotent: a marker can stand in a new match. It is on texts that
end in the assignment of a credential. No other pattern reaches over the sign, and the value is
replaced as a whole, so that only the marker is found again.
-/

namespace AgentContextLint.OutputSanitization

open Utf16 List Pattern UnitPattern

variable {front word : Text} {sign : CodeUnit}

/-! ## Assigned credentials -/

/-- What a value ends at. -/
def isDelimiter (u : CodeUnit) : Bool := (js " \t,;").contains u

/-- The patterns that keep nothing of a match. -/
def wholePatterns : List (Redaction CodeUnit) := secretPatterns.take 9

/-- A text without controls that ends in the assignment of a credential: text without a match,
a sign or an `@`, with the name at its end, then the sign and a value. -/
structure Assigns (front : Text) (sign : CodeUnit) (word : Text) : Prop where
  inert : ∀ unit ∈ front ++ sign :: word, isActive unit = false
  clean : ∀ pattern ∈ wholePatterns, ∀ part, part <:+: front → part ∉ pattern.pattern.language
  plain : 0x40 ∉ front
  unsigned : ∀ unit ∈ front, isAssignment unit = false
  named : ∃ before, ∃ name ∈ credentialName.language, front = before ++ name
  assigns : isAssignment sign = true
  nonempty : word ≠ []
  value : ∀ unit ∈ word, isDelimiter unit = false

theorem avoids_assignment {pattern : Redaction CodeUnit} (listed : pattern ∈ wholePatterns)
    (assigns : isAssignment sign = true) : ∀ part ∈ pattern.pattern.language, sign ∉ part := by
  have avoided : wholePatterns.all fun pattern =>
    pattern.pattern.avoids 0x3a && pattern.pattern.avoids 0x3d := by decide
  obtain ⟨colon, equals⟩ := (Bool.and_eq_true _ _).mp (all_eq_true.mp avoided pattern listed)
  rw [isAssignment, Bool.or_eq_true, beq_iff_eq, beq_iff_eq] at assigns
  intro part member
  rcases assigns with rfl | rfl
  · exact notMem_of_avoids colon member
  · exact notMem_of_avoids equals member

theorem mem_value {c : CodeUnit} (inside : isDelimiter c = false) :
    [c] ∈ assignedCredential.body.language :=
  mem_language_seq.mpr
    ⟨[c], ⟨c, (Bool.not_eq_true' _).mpr inside, rfl⟩, [], Language.nil_mem_kstar _, rfl⟩

theorem mem_lead {name : Text} (member : name ∈ credentialName.language)
    (assigns : isAssignment sign = true) : name ++ [sign] ∈ assignedCredential.lead.language := by
  have accepted : (js ":=").contains sign = true := by
    rw [isAssignment, Bool.or_eq_true, beq_iff_eq, beq_iff_eq] at assigns
    rcases assigns with rfl | rfl <;> decide
  exact mem_language_seq.mpr ⟨name, member, [sign], mem_language_seq.mpr
    ⟨[], Language.nil_mem_kstar _, [sign], mem_language_seq.mpr
      ⟨[sign], ⟨sign, accepted, rfl⟩, [], Language.nil_mem_kstar _, rfl⟩, rfl⟩, rfl⟩

namespace Assigns

variable (shape : Assigns front sign word)

include shape

/-- A match that starts before the value takes the name and the sign as lead and all of the
value as body. -/
theorem matched_eq {start lead body : Text} (ends : start <:+ front)
    (found : assignedCredential.matched (start ++ sign :: word) = some (lead, body)) :
    lead = start ++ [sign] ∧ body = word := by
  obtain ⟨inLead, inBody, rest, eq, greedy⟩ := Redaction.exists_ends_of_matched found
  obtain ⟨name, mark, blanks, rfl, marks, unsigned, blank⟩ := mem_lead_assignedCredential inLead
  have same : name = start → sign = mark → word = blanks ++ (body ++ rest) →
      name ++ mark :: blanks = start ++ [sign] ∧ body = word := by
    rintro rfl rfl split
    rcases blanks with _ | ⟨u, blanks⟩
    · refine ⟨rfl, ?_⟩
      have whole : (assignedCredential.body.ends word).head? = some [] :=
        head?_ends_plus_unit shape.nonempty fun u member => (Bool.not_eq_true' _).mpr (shape.value u member)
      rw [nil_append] at split
      rw [split] at whole
      rw [Option.some.inj (greedy.symm.trans whole), append_nil] at split
      exact split.symm
    · have filled := shape.value u (by simp [split])
      have isBlank := blank u mem_cons_self
      rw [OutputSanitization.isBlank, Bool.or_eq_true, beq_iff_eq, beq_iff_eq] at isBlank
      rcases isBlank with rfl | rfl <;> cases filled
  rw [append_assoc, cons_append] at eq
  rcases append_eq_append_iff.mp eq with ⟨between, rfl, split⟩ | ⟨between, rfl, split⟩
  · rcases between with _ | ⟨u, between⟩
    · exact same (append_nil _) (cons.inj split).1 (cons.inj split).2
    · obtain ⟨rfl, -⟩ := cons.inj split
      exact absurd shape.assigns (by simp [unsigned sign (by simp)])
  · rcases between with _ | ⟨u, between⟩
    · exact same (append_nil _).symm (cons.inj split).1.symm (cons.inj split).2.symm
    · have unsigned := shape.unsigned u (ends.subset (by simp))
      rw [← (cons.inj split).1, marks] at unsigned
      cases unsigned

theorem replaceAll_of_matched {start : Text} {parts : Text × Text} (ends : start <:+ front)
    (found : assignedCredential.matched (start ++ sign :: word) = some parts) :
    assignedCredential.replaceAll outputRedactionMarker (start ++ sign :: word) =
      start ++ sign :: outputRedactionMarker := by
  obtain ⟨lead, body⟩ := parts
  obtain ⟨rfl, rfl⟩ := shape.matched_eq ends found
  have split : start ++ sign :: body = start ++ [sign] ++ body ++ [] := by simp
  rw [split] at found ⊢
  rw [Redaction.replaceAll_of_some rfl found]
  simp

theorem replaceAll_whole {pattern : Redaction CodeUnit} (listed : pattern ∈ wholePatterns) :
    pattern.replaceAll outputRedactionMarker (front ++ sign :: word) =
        front ++ sign :: pattern.replaceAll outputRedactionMarker word ∧
      Assigns front sign (pattern.replaceAll outputRedactionMarker word) := by
  have inPatterns : pattern ∈ secretPatterns := mem_of_mem_take listed
  have consumes := nullable_secretPatterns pattern inPatterns
  have units : ∀ p : CodeUnit → Prop, (∀ u ∈ word, p u) → (∀ u ∈ outputRedactionMarker, p u) →
      ∀ u ∈ pattern.replaceAll outputRedactionMarker word, p u :=
    fun p ofWord ofMarker u member =>
      (Redaction.mem_of_mem_replaceAll consumes member).elim (ofWord u) (ofMarker u)
  obtain ⟨inFront, inWord⟩ := forall_mem_append.mp shape.inert
  obtain ⟨inSign, inWord⟩ := forall_mem_cons.mp inWord
  exact ⟨Redaction.replaceAll_behind (shape.clean pattern listed)
    (avoids_assignment listed shape.assigns), { shape with
      inert := forall_mem_append.mpr
        ⟨inFront, forall_mem_cons.mpr ⟨inSign, units _ inWord (by decide)⟩⟩
      nonempty := Redaction.replaceAll_ne_nil consumes (by decide) shape.nonempty
      value := units _ shape.value (by decide) }⟩

theorem foldl_wholes {patterns : List (Redaction CodeUnit)} (listed : patterns ⊆ wholePatterns) :
    ∃ left, patterns.foldl (fun output pattern => pattern.replaceAll outputRedactionMarker output)
        (front ++ sign :: word) = front ++ sign :: left ∧ Assigns front sign left := by
  induction patterns generalizing word with
  | nil => exact ⟨word, rfl, shape⟩
  | cons pattern rest ih =>
    obtain ⟨here, others⟩ := cons_subset.mp listed
    obtain ⟨made, shape⟩ := shape.replaceAll_whole here
    rw [foldl_cons, made]
    exact ih shape others

theorem replaceAll_assigned :
    assignedCredential.replaceAll outputRedactionMarker (front ++ sign :: word) =
      front ++ sign :: outputRedactionMarker := by
  have consumes : assignedCredential.pattern.nullable = false := rfl
  obtain ⟨before, name, member, rfl⟩ := shape.named
  have along : ∀ ahead, ahead <:+ before →
      assignedCredential.replaceAll outputRedactionMarker (ahead ++ name ++ sign :: word) =
        ahead ++ name ++ sign :: outputRedactionMarker := by
    intro ahead ends
    have within : ahead ++ name <:+ before ++ name := by
      obtain ⟨start, rfl⟩ := ends
      exact ⟨start, (append_assoc ..).symm⟩
    induction ahead with
    | nil =>
      cases found : assignedCredential.matched (name ++ sign :: word) with
      | some parts => exact shape.replaceAll_of_matched within found
      | none =>
        obtain ⟨c, rest, rfl⟩ := exists_cons_of_ne_nil shape.nonempty
        have value : [c] ∈ assignedCredential.body.language :=
          mem_value (shape.value c mem_cons_self)
        refine absurd ⟨rest, ?_⟩ (Redaction.matched_eq_none found (name ++ [sign] ++ [c])
          (mem_language_seq.mpr ⟨_, mem_lead member shape.assigns, _, value, rfl⟩))
        simp
    | cons u ahead ih =>
      cases found : assignedCredential.matched (u :: ahead ++ name ++ sign :: word) with
      | some parts => exact shape.replaceAll_of_matched within found
      | none =>
        rw [cons_append, cons_append] at found ⊢
        rw [Redaction.replaceAll_of_none found, ih ((suffix_cons u ahead).trans ends)
          (IsSuffix.trans ⟨[u], rfl⟩ within)]
        rfl
  exact along before (suffix_refl _)

omit shape in
/-- Only the assignment is matched again, with the marker for its value. -/
theorem markedOnly (marked : Assigns front sign outputRedactionMarker) :
    MarkedOnly (front ++ sign :: outputRedactionMarker) := by
  intro pattern listed rest lead body ends found
  obtain ⟨inLead, inBody, behind, eq, -⟩ := Redaction.exists_ends_of_matched found
  have inLanguage : lead ++ body ∈ pattern.pattern.language :=
    mem_language_seq.mpr ⟨lead, inLead, body, inBody, rfl⟩
  have within : lead ++ body <:+: front ++ sign :: outputRedactionMarker :=
    IsInfix.trans ⟨[], behind, by rw [eq]; simp⟩ ends.isInfix
  rcases (by simpa [secretPatterns, wholePatterns, or_assoc] using listed :
    pattern ∈ wholePatterns ∨ pattern = assignedCredential ∨ pattern = urlCredential) with
    whole | rfl | rfl
  · have avoids := avoids_assignment whole marked.assigns _ inLanguage
    rcases @Redaction.infix_of_kept _ (· != sign) _ _ _ sign (fun u member => by
      simpa using fun same : u = sign => avoids (same ▸ member)) (by simp) within with
      inFront | inMarker
    · exact absurd inLanguage (marked.clean pattern whole _ inFront)
    · have none : wholePatterns.all fun pattern =>
        !pattern.pattern.occursIn outputRedactionMarker := by decide +kernel
      have here := all_eq_true.mp none pattern whole
      rw [occursIn_of_part inLanguage inMarker] at here
      cases here
  · obtain ⟨ahead, split⟩ := ends
    rcases append_eq_append_iff.mp split with ⟨start, rfl, rfl⟩ | ⟨past, rfl, behind⟩
    · exact (marked.matched_eq ⟨ahead, rfl⟩ found).2
    · rcases past with _ | ⟨u, past⟩
      · rw [nil_append] at behind
        exact (marked.matched_eq nil_suffix (behind ▸ found)).2
      · obtain ⟨name, mark, blanks, rfl, marks, -, -⟩ := mem_lead_assignedCredential inLead
        have member : mark ∈ outputRedactionMarker := by
          rw [(cons.inj behind).2, eq]
          simp
        rw [(by decide : ∀ u ∈ outputRedactionMarker, isAssignment u = false) mark member] at marks
        cases marks
  · have member := (within.subset (mem_append_right _ (at_mem_url inBody)))
    rw [mem_append, mem_cons] at member
    rcases member with inFront | rfl | inMarker
    · exact absurd inFront marked.plain
    · exact absurd marked.assigns (by decide)
    · exact absurd inMarker (by decide)

end Assigns

/-- An assignment at the end of a text is found, all of its value is replaced, and in the result
only the marker is found again. -/
theorem sanitizeOutputText_assigns (shape : Assigns front sign word) :
    sanitizeOutputText (front ++ sign :: word) = front ++ sign :: outputRedactionMarker ∧
      MarkedOnly (front ++ sign :: outputRedactionMarker) := by
  obtain ⟨left, made, shape'⟩ := shape.foldl_wholes (Subset.refl _)
  have marked : Assigns front sign outputRedactionMarker := { shape with
    inert := by
      obtain ⟨inFront, inWord⟩ := forall_mem_append.mp shape.inert
      exact forall_mem_append.mpr
        ⟨inFront, forall_mem_cons.mpr ⟨(forall_mem_cons.mp inWord).1, by decide⟩⟩
    nonempty := by decide
    value := by decide }
  refine ⟨?_, marked.markedOnly⟩
  have split : secretPatterns = wholePatterns ++ [assignedCredential, urlCredential] := rfl
  rw [sanitizeOutputText, inertControls_eq_self shape.inert, split, foldl_append, made,
    foldl_cons, shape'.replaceAll_assigned, foldl_cons, foldl_nil]
  exact Redaction.replaceAll_eq_self rfl (marked.markedOnly urlCredential (by simp [secretPatterns]))

end AgentContextLint.OutputSanitization
