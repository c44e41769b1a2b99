import AgentContextLint.Core.OutputSanitization

/-!
# What sanitised text is free of

`sanitizeMarked` sanitises units that remember whether they are text or part of a marker. A match
of a credential pattern in the result overlaps a marker, since the stretches of text in it are
stretches of the text before (`Redaction.infix_of_replaceAll`) and each pattern leaves none that it
matches (`Redaction.not_infix_replaceAll`).
-/

namespace AgentContextLint.OutputSanitization

open Utf16 List Pattern
open Prod (fst snd)

variable {value : Text} {word : Text}

/-! ## Marked text -/

/-- A unit and whether it is text; a unit of a marker is not. -/
abbrev MarkedUnit := CodeUnit × Bool

def markedMarker : List MarkedUnit := outputRedactionMarker.map fun unit => (unit, false)

def redactMarked (text : List MarkedUnit) : List MarkedUnit :=
  secretPatterns.foldl (fun output pattern => (pattern.comap fst).replaceAll markedMarker output)
    text

/-- `sanitizeOutputText` over marked units. -/
def sanitizeMarked (value : Text) : List MarkedUnit :=
  redactMarked ((inertControls value).map fun unit => (unit, true))

theorem map_fst_map (text : Text) (mark : Bool) :
    (text.map fun unit => ((unit, mark) : MarkedUnit)).map fst = text := by
  rw [map_map]
  exact map_id _

/-- Marks change nothing. -/
theorem map_sanitizeMarked (value : Text) :
    (sanitizeMarked value).map fst = sanitizeOutputText value := by
  have fold : ∀ (patterns : List (Redaction CodeUnit)) (text : List MarkedUnit),
      (patterns.foldl (fun output pattern =>
        (pattern.comap fst).replaceAll markedMarker output) text).map fst =
      patterns.foldl (fun output pattern => pattern.replaceAll outputRedactionMarker output)
        (text.map fst) := by
    intro patterns
    induction patterns with
    | nil => exact fun _ => rfl
    | cons pattern rest ih =>
      intro text
      rw [foldl_cons, foldl_cons, ih, Redaction.replaceAll_comap, markedMarker, map_fst_map]
  rw [sanitizeMarked, redactMarked, fold, map_fst_map]
  rfl

/-! ## The patterns -/

theorem nullable_secretPatterns : ∀ pattern ∈ secretPatterns, pattern.pattern.nullable = false := by
  refine forall_mem_cons.mpr ⟨rfl, ?_⟩
  repeat refine forall_mem_cons.mpr ⟨rfl, ?_⟩
  exact fun _ member => absurd member not_mem_nil

/-- The lead of a pattern holds no match of it. -/
def LeadIsClear (r : Redaction CodeUnit) : Prop :=
  ∀ word ∈ r.pattern.language, ∀ lead ∈ r.lead.language, ¬ word <:+: lead

theorem leadIsClear_whole {p : Pattern CodeUnit} (consumes : (whole p).pattern.nullable = false) :
    LeadIsClear (whole p) := by
  intro word inLanguage lead inLead within
  rw [whole] at inLead
  rw [mem_language_empty.mp inLead, infix_nil] at within
  subst within
  have nullable := nullable_of_nil_mem inLanguage
  rw [consumes] at nullable
  cases nullable

theorem mem_text_singleton {expected : CodeUnit}
    (member : word ∈ (Pattern.text (fun expected u => u == expected) [expected]).language) :
    word = [expected] := by
  obtain ⟨front, ⟨c, same, rfl⟩, back, empty, rfl⟩ := mem_language_seq.mp member
  rw [mem_language_empty.mp empty, eq_of_beq same]
  rfl

theorem at_mem_url (member : word ∈ urlCredential.body.language) : 0x40 ∈ word := by
  obtain ⟨before, -, last, atSign, rfl⟩ := mem_language_seq.mp member
  rw [mem_text_singleton atSign]
  exact mem_append_right _ mem_cons_self

/-- The `@` that ends a match stands in no lead. -/
theorem leadIsClear_urlCredential : LeadIsClear urlCredential := by
  intro word inLanguage lead inLead within
  have avoids : urlCredential.lead.avoids 0x40 = true := by decide
  obtain ⟨front, -, back, inBody, rfl⟩ := mem_language_seq.mp inLanguage
  exact notMem_of_avoids avoids inLead (within.subset (mem_append_right _ (at_mem_url inBody)))

def isAssignment (u : CodeUnit) : Bool := u == 0x3a || u == 0x3d

def isBlank (u : CodeUnit) : Bool := u == 0x20 || u == 0x09

/-- Behind a colon or an equals sign there are only blanks. -/
def BlankBehind (text : Text) : Prop :=
  text.Pairwise fun first second => isAssignment first = true → isBlank second = true

theorem isBlank_of_mem_blanks (member : word ∈ blanks.language) :
    ∀ unit ∈ word, isBlank unit = true := by
  obtain ⟨pieces, rfl, each⟩ := Language.mem_kstar.mp member
  intro unit inWord
  obtain ⟨piece, listed, inPiece⟩ := mem_flatten.mp inWord
  obtain ⟨c, accepted, rfl⟩ := each piece listed
  rw [mem_singleton.mp inPiece]
  have listed : c ∈ js " \t" := contains_iff_mem.mp accepted
  simpa [js, ofChar, isBlank] using listed

theorem not_isAssignment_of_notMem (colon : (0x3a : CodeUnit) ∉ word)
    (equals : (0x3d : CodeUnit) ∉ word) : ∀ unit ∈ word, isAssignment unit = false := by
  intro unit member
  rw [isAssignment, Bool.or_eq_false_iff, beq_eq_false_iff_ne, beq_eq_false_iff_ne]
  exact ⟨fun same => colon (same ▸ member), fun same => equals (same ▸ member)⟩

variable {unit : CodeUnit}

theorem not_isAssignment_of_isBlank (blank : isBlank unit = true) : isAssignment unit = false := by
  rw [isBlank, Bool.or_eq_true, beq_iff_eq, beq_iff_eq] at blank
  rcases blank with rfl | rfl <;> rfl

theorem blankBehind_of_notAssignment
    (none : ∀ unit ∈ word, isAssignment unit = false) : BlankBehind word := by
  refine pairwise_of_forall_mem_list fun first inFirst second _ assigns => ?_
  rw [none first inFirst] at assigns
  cases assigns

theorem mem_lead_assignedCredential {lead : Text} (member : lead ∈ assignedCredential.lead.language) :
    ∃ name sign behind, lead = name ++ sign :: behind ∧ isAssignment sign = true ∧
      (∀ unit ∈ name, isAssignment unit = false) ∧ ∀ unit ∈ behind, isBlank unit = true := by
  obtain ⟨key, inKey, _, tail, rfl⟩ := mem_language_seq.mp member
  obtain ⟨before, inBefore, _, signed, rfl⟩ := mem_language_seq.mp tail
  obtain ⟨_, ⟨c, accepted, rfl⟩, behind, inBehind, rfl⟩ := mem_language_seq.mp signed
  have listed : c ∈ js ":=" := contains_iff_mem.mp accepted
  have assigns : isAssignment c = true := by simpa [js, ofChar, isAssignment] using listed
  have colon : credentialName.avoids 0x3a = true := by decide
  have equals : credentialName.avoids 0x3d = true := by decide
  refine ⟨key ++ before, c, behind, (append_assoc ..).symm, assigns, fun unit inName => ?_,
    isBlank_of_mem_blanks inBehind⟩
  rcases mem_append.mp inName with inKey' | inBefore'
  · exact not_isAssignment_of_notMem (notMem_of_avoids colon inKey)
      (notMem_of_avoids equals inKey) unit inKey'
  · exact not_isAssignment_of_isBlank (isBlank_of_mem_blanks inBefore unit inBefore')

/-- What stands behind the sign of a match is no blank; in a lead it is. -/
theorem leadIsClear_assignedCredential : LeadIsClear assignedCredential := by
  intro word inLanguage lead inLead within
  obtain ⟨front, inFront, back, inBody, rfl⟩ := mem_language_seq.mp inLanguage
  obtain ⟨key, sign, spaces, rfl, assigns, -, -⟩ := mem_lead_assignedCredential inFront
  obtain ⟨first, ⟨c, accepted, rfl⟩, more, -, rfl⟩ := mem_language_seq.mp inBody
  have filled : isBlank c = false := by
    cases blank : isBlank c with
    | false => rfl
    | true =>
      rw [isBlank, Bool.or_eq_true, beq_iff_eq, beq_iff_eq] at blank
      rcases blank with rfl | rfl <;> exact absurd accepted (by decide)
  obtain ⟨name, mark, behind, rfl, -, plain, blank⟩ := mem_lead_assignedCredential inLead
  have ordered : BlankBehind (name ++ mark :: behind) := by
    refine pairwise_append.mpr ⟨blankBehind_of_notAssignment plain, ?_, ?_⟩
    · refine pairwise_cons.mpr ⟨fun unit member _ => blank unit member, ?_⟩
      exact blankBehind_of_notAssignment fun unit member =>
        not_isAssignment_of_isBlank (blank unit member)
    · intro unit member other _ signed
      rw [plain unit member] at signed
      cases signed
  have inside : [sign, c].Sublist (name ++ mark :: behind) := by
    refine Sublist.trans ?_ within.sublist
    rw [append_assoc, cons_append]
    refine Sublist.trans ?_ (sublist_append_right key _)
    refine Sublist.cons_cons sign ?_
    refine Sublist.trans ?_ (sublist_append_right spaces _)
    exact Sublist.cons_cons c (nil_sublist _)
  have behindSign := pairwise_cons.mp (Pairwise.sublist inside ordered)
  rw [behindSign.1 c mem_cons_self assigns] at filled
  cases filled

theorem leadIsClear_secretPatterns : ∀ pattern ∈ secretPatterns, LeadIsClear pattern := by
  repeat refine forall_mem_cons.mpr ⟨leadIsClear_whole rfl, ?_⟩
  refine forall_mem_cons.mpr ⟨leadIsClear_assignedCredential, ?_⟩
  refine forall_mem_cons.mpr ⟨leadIsClear_urlCredential, ?_⟩
  exact fun _ member => absurd member not_mem_nil

/-! ## Matches in the result -/

theorem markedMarker_ne_nil : markedMarker ≠ [] := by decide

theorem snd_of_mem_markedMarker {unit : MarkedUnit} (member : unit ∈ markedMarker) :
    unit.2 = false := by
  obtain ⟨plain, -, rfl⟩ := mem_map.mp member
  rfl

variable {patterns : List (Redaction CodeUnit)} {text : List MarkedUnit}

/-- A stretch of text in the result is one in what the patterns were given. -/
theorem infix_of_patterns (consume : ∀ pattern ∈ patterns, pattern.pattern.nullable = false)
    {word : List MarkedUnit} (keeps : ∀ unit ∈ word, unit.2 = true)
    (within : word <:+: patterns.foldl (fun output pattern => (pattern.comap fst).replaceAll markedMarker output) text) :
    word <:+: text := by
  induction patterns generalizing text with
  | nil => exact within
  | cons pattern rest ih =>
    have consumes : (pattern.comap (fst : MarkedUnit → CodeUnit)).pattern.nullable = false := by
      rw [Redaction.pattern_comap, nullable_comap]
      exact consume pattern mem_cons_self
    have before := ih (fun other member => consume other (mem_cons_of_mem _ member)) within
    exact Redaction.infix_of_replaceAll consumes markedMarker_ne_nil
      (fun unit member => snd_of_mem_markedMarker member) keeps before

variable {pattern : Redaction CodeUnit}

/-- A stretch of text in the result matches none of the patterns. -/
theorem not_match_of_patterns (consume : ∀ pattern ∈ patterns, pattern.pattern.nullable = false)
    (clear : ∀ pattern ∈ patterns, LeadIsClear pattern) {word : List MarkedUnit}
    (keeps : ∀ unit ∈ word, unit.2 = true)
    (within : word <:+: patterns.foldl (fun output pattern => (pattern.comap fst).replaceAll markedMarker output) text)
    (listed : pattern ∈ patterns) : word.map fst ∉ pattern.pattern.language := by
  induction patterns generalizing text with
  | nil => cases listed
  | cons first rest ih =>
    have consumeRest : ∀ other ∈ rest, other.pattern.nullable = false := fun other member =>
      consume other (mem_cons_of_mem _ member)
    rcases mem_cons.mp listed with rfl | later
    · intro matched
      have before := infix_of_patterns consumeRest keeps within
      refine @Redaction.not_infix_replaceAll _ snd (pattern.comap fst) markedMarker ?_
        markedMarker_ne_nil (fun unit member => snd_of_mem_markedMarker member) ?_ text word ?_ keeps
        before
      · rw [Redaction.pattern_comap, nullable_comap]
        exact consume pattern mem_cons_self
      · intro other inLanguage lead inLead inside
        exact clear pattern mem_cons_self _ (mem_language_comap.mp inLanguage) _
          (mem_language_comap.mp inLead) (inside.map _)
      · exact mem_language_comap.mpr matched
    · exact ih consumeRest (fun other member => clear other (mem_cons_of_mem _ member)) within
        later

/-- Every match in the result overlaps a marker. -/
theorem marker_of_match {word : List MarkedUnit} (within : word <:+: sanitizeMarked value)
    (listed : pattern ∈ secretPatterns) (matched : word.map fst ∈ pattern.pattern.language) :
    ∃ unit ∈ word, unit.2 = false := by
  by_contra none
  have keeps : ∀ unit ∈ word, unit.2 = true := by
    intro unit member
    cases mark : unit.2 with
    | true => rfl
    | false => exact absurd ⟨unit, member, mark⟩ none
  exact not_match_of_patterns nullable_secretPatterns leadIsClear_secretPatterns keeps within listed
    matched

/-! ## Controls and a second run -/

theorem not_isActive_of_mem_inertFrom {skip : Nat} (member : unit ∈ inertFrom skip value) :
    isActive unit = false := by
  induction value generalizing skip with
  | nil => cases skip <;> cases member
  | cons first rest ih =>
    cases skip with
    | succ skip => exact ih member
    | zero =>
      unfold inertFrom at member
      have replaced : ∀ {later : Text}, (unit ∈ later → isActive unit = false) →
          unit ∈ 0xfffd :: later → isActive unit = false := by
        intro later behind inside
        rcases mem_cons.mp inside with rfl | inLater
        · rfl
        · exact behind inLater
      split_ifs at member with escape active
      · cases found : renditionBehind rest with
        | some length =>
          rw [found] at member
          exact ih member
        | none =>
          rw [found] at member
          exact replaced ih member
      · exact replaced ih member
      · rcases mem_cons.mp member with rfl | inLater
        · exact Bool.eq_false_iff.mpr active
        · exact ih inLater

theorem inertControls_eq_self (inert : ∀ unit ∈ value, isActive unit = false) :
    inertControls value = value := by
  induction value with
  | nil => rfl
  | cons unit rest ih =>
    have here := inert unit mem_cons_self
    have plain : unit ≠ escapeUnit := by
      rintro rfl
      cases here
    rw [inertControls, inertFrom, if_neg plain, if_neg (by rw [here]; exact Bool.false_ne_true)]
    exact congrArg (unit :: ·) (ih fun other member => inert other (mem_cons_of_mem _ member))

theorem not_isActive_of_mem_sanitizeOutputText (member : unit ∈ sanitizeOutputText value) :
    isActive unit = false := by
  have fold : ∀ (patterns : List (Redaction CodeUnit)) (text : Text),
      (∀ pattern ∈ patterns, pattern.pattern.nullable = false) →
      (∀ other ∈ text, isActive other = false) →
      ∀ other ∈ patterns.foldl (fun output pattern =>
        pattern.replaceAll outputRedactionMarker output) text, isActive other = false := by
    intro patterns
    induction patterns with
    | nil => exact fun _ _ inert => inert
    | cons pattern rest ih =>
      intro text consume inert
      refine ih _ (fun other member => consume other (mem_cons_of_mem _ member)) ?_
      intro other inReplaced
      rcases Redaction.mem_of_mem_replaceAll (consume pattern mem_cons_self) inReplaced with
        inText | inMarker
      · exact inert other inText
      · exact all_eq_true.mp (rfl : outputRedactionMarker.all (fun u => !isActive u) = true)
          other inMarker |> (Bool.not_eq_true' _).mp
  exact fold secretPatterns _ nullable_secretPatterns
    (fun other inInert => not_isActive_of_mem_inertFrom inInert) unit member

def MarkedOnly (text : Text) : Prop :=
  ∀ pattern ∈ secretPatterns, ∀ rest lead body, rest <:+ text →
    pattern.matched rest = some (lead, body) → body = outputRedactionMarker

theorem sanitizeOutputText_eq_self {text : Text} (inert : ∀ unit ∈ text, isActive unit = false)
    (marked : MarkedOnly text) : sanitizeOutputText text = text := by
  have fold : ∀ patterns : List (Redaction CodeUnit), (∀ pattern ∈ patterns, pattern ∈ secretPatterns) →
      patterns.foldl (fun output pattern => pattern.replaceAll outputRedactionMarker output) text =
        text := by
    intro patterns
    induction patterns with
    | nil => exact fun _ => rfl
    | cons pattern rest ih =>
      intro listed
      have here := listed pattern mem_cons_self
      rw [foldl_cons, Redaction.replaceAll_eq_self (nullable_secretPatterns pattern here)
        (marked pattern here)]
      exact ih fun other member => listed other (mem_cons_of_mem _ member)
  rw [sanitizeOutputText, inertControls_eq_self inert]
  exact fold secretPatterns fun _ listed => listed

end AgentContextLint.OutputSanitization
