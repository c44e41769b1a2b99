import AgentContextLint.Evidence.CommandLexer

/-!
# Command words and the text

That the tokens of a scan tile its text is `TilesText`. One round of a loop moves the index to
`nextIndex`, inside the text with one exception: the loops over a double-quoted part and over a
backtick substitution step over an escape mark and over the unit behind it without asking whether
there is one, so that an escape mark at the end of the text takes the index past it. `Overruns`
says so of the text behind the opening mark.
-/

namespace AgentContextLint.CommandLexer

open Utf16 Metered List

/-! ## Tilings -/

/-- The parts follow each other from one index to another. -/
def TilesParts (text : Text) : Nat → List CommandWordPart → Nat → Prop
  | start, [], stop => start = stop
  | start, item :: rest, stop =>
    item.start = start ∧ start < item.stop ∧ item.raw = slice text start item.stop ∧
      TilesParts text item.stop rest stop

structure TokenFits (text : Text) (token : CommandToken) : Prop where
  nonempty : token.start < token.stop
  within : token.stop ≤ text.length
  raw : token.raw = slice text token.start token.stop
  length : token.raw.length = token.stop - token.start
  parts : token.kind = .word ∨ token.kind = .environmentAssignment →
    TilesParts text token.start token.parts token.stop

def Uncovered (tokens : List CommandToken) (index : Nat) : Prop :=
  ∀ token ∈ tokens, ¬ (token.start ≤ index ∧ index < token.stop)

def IssueFits (text : Text) (issue : CommandLexerIssue) : Prop :=
  issue.start ≤ text.length ∧ issue.stop ≤ text.length

structure TilesText (text : Text) (tokens : List CommandToken)
    (issues : List CommandLexerIssue) : Prop where
  ordered : tokens.Pairwise fun first second => first.stop ≤ second.start
  fits : ∀ token ∈ tokens, TokenFits text token
  gaps : ∀ index character, text[index]? = some character → Uncovered tokens index →
    isSpace character = true
  issues : ∀ issue ∈ issues, IssueFits text issue

/-! ## The course of the index -/

/-- A reader that steps over units and looks for a mark steps past the end of the text: `passes`
is the number of further units stepped over at a unit, and `pending` those still to come. -/
def runsOver (mark : CodeUnit) (passes : Text → Nat) : Nat → Text → Bool
  | pending, [] => pending ≠ 0
  | 0, character :: rest =>
    if character = mark then false else runsOver mark passes (passes (character :: rest)) rest
  | pending + 1, _ :: rest => runsOver mark passes pending rest

/-- The escape marks at the head of the rest of a quoted part. -/
def escapeMarks (dialect : ResolvedCommandDialect) (quote : CodeUnit) (rest : Text) : Nat :=
  let behind := if dialect ≠ .windowsCmd ∧ quote = doubleQuote ∧ rest[0]? = some backslash then 1 else 0
  if dialect = .windowsPowershell ∧ quote = doubleQuote ∧ rest[behind]? = some backtick then
    behind + 1
  else behind

/-- The escape mark at the head of the rest of a backtick substitution. -/
def backslashMarks (rest : Text) : Nat := if rest[0]? = some backslash then 1 else 0

/-- A word's unit opens a part in which an escape mark is the last unit of the text. -/
def Overruns (text : Text) (dialect : ResolvedCommandDialect) (index : Nat)
    (character : CodeUnit) : Prop :=
  endsWord text index character = false ∧
    ((character = doubleQuote ∧ dialect ≠ .windowsCmd ∧
        runsOver doubleQuote (escapeMarks dialect doubleQuote) 0 (text.drop (index + 1)) = true) ∨
      (character = backtick ∧ dialect = .posixShell ∧
        runsOver backtick backslashMarks 0 (text.drop (index + 1)) = true))

/-- The index behind a part whose content ends at `reached`. -/
def closedStop (text : Text) (reached : Nat) : Nat :=
  if text.length ≤ reached then reached else reached + 1

section

variable (text : Text) (limits : CommandLexerLimits) (dialect : ResolvedCommandDialect)

def balancedNext (index : Nat) : Nat :=
  match balancedStop text limits (js "$(") (js ")") text.length 1 none (index + 2) with
  | .ok (some stop) => stop
  | _ => text.length

/-- The index behind one round of the loop of `scanWord`. -/
def wordNext (index : Nat) (character : CodeUnit) : Nat :=
  if character = singleQuote ∨ character = doubleQuote then
    closedStop text (quotedStop text dialect character text.length (index + 1))
  else if character = escapeOf dialect then closedStop text (index + 1)
  else if dialect ≠ .windowsCmd ∧ startsWith text (js "$(") index then
    balancedNext text limits index
  else if dialect = .posixShell ∧ character = backtick then
    closedStop text (backtickStop text text.length (index + 1))
  else
    match expansionAt text index dialect with
    | some expansion => index + expansion.length
    | none => index + 1

/-- The index behind one round of the loops. -/
def nextIndex (index : Nat) (character : CodeUnit) : Nat :=
  if isSpace character then index + 1
  else
    match redirectionAt text index, operatorAt text index with
    | some raw, _ => index + raw.length
    | none, some raw => index + raw.length
    | none, none => wordNext text limits dialect index character

def Moves (index next : Nat) : Prop :=
  ∃ character, text[index]? = some character ∧ next = nextIndex text limits dialect index character

/-- From the index on, no round of the loops opens a part that ends in an escape mark. -/
def Safe (index : Nat) : Prop :=
  ∀ reached character, Relation.ReflTransGen (Moves text limits dialect) index reached →
    text[reached]? = some character → ¬ Overruns text dialect reached character

end

/-! ## Readers -/

theorem drop_eq_cons {text : Text} {index : Nat} {character : CodeUnit}
    (here : text[index]? = some character) : text.drop index = character :: text.drop (index + 1) := by
  obtain ⟨inside, rfl⟩ := List.getElem?_eq_some_iff.mp here
  exact drop_eq_getElem_cons inside

/-- Units still to be stepped over, when there are that many. -/
theorem runsOver_eq_of_le {mark : CodeUnit} {passes : Text → Nat} {pending : Nat}
    {rest : Text} (enough : pending ≤ rest.length) :
    runsOver mark passes pending rest = runsOver mark passes 0 (rest.drop pending) := by
  induction pending generalizing rest with
  | zero => rfl
  | succ pending ih =>
    cases rest with
    | nil => cases enough
    | cons c rest => exact ih (Nat.le_of_succ_le_succ enough)

theorem runsOver_eq_true_of_lt {mark : CodeUnit} {passes : Text → Nat} {pending : Nat} {rest : Text}
    (missing : rest.length < pending) : runsOver mark passes pending rest = true := by
  induction rest generalizing pending with
  | nil => exact decide_eq_true (Nat.ne_of_gt missing)
  | cons c rest ih =>
    cases pending with
    | zero => cases missing
    | succ pending => exact ih (Nat.lt_of_succ_lt_succ missing)

/-- The loop both readers are: look for the mark, stepping over further units. -/
def markStop (text : Text) (mark : CodeUnit) (passes : Text → Nat) : Nat → Nat → Nat
  | 0, index => index
  | fuel + 1, index =>
    match text[index]? with
    | none => index
    | some character =>
      if character = mark then index
      else markStop text mark passes fuel (index + passes (text.drop index) + 1)

/-- The loop ends inside the text, or one unit past it when an escape mark is last. -/
theorem markStop_spec {text : Text} {mark : CodeUnit} {passes : Text → Nat}
    (bounded : ∀ rest, passes rest ≤ rest.length) {fuel index : Nat}
    (enough : text.length ≤ index + fuel) (inside : index ≤ text.length) :
    index ≤ markStop text mark passes fuel index ∧
      (runsOver mark passes 0 (text.drop index) = false →
        markStop text mark passes fuel index ≤ text.length) ∧
      (runsOver mark passes 0 (text.drop index) = true →
        markStop text mark passes fuel index = text.length + 1) := by
  induction fuel generalizing index with
  | zero =>
    have atEnd : index = text.length := by omega
    subst atEnd
    rw [drop_length]
    exact ⟨le_refl _, fun _ => le_refl _, fun impossible => absurd impossible Bool.false_ne_true⟩
  | succ fuel ih =>
    unfold markStop
    cases here : text[index]? with
    | none =>
      have atEnd : text.drop index = [] :=
        drop_eq_nil_iff.mpr (getElem?_eq_none_iff.mp here)
      rw [atEnd]
      exact ⟨le_refl _, fun _ => inside, fun impossible => absurd impossible Bool.false_ne_true⟩
    | some character =>
      have within := (List.getElem?_eq_some_iff.mp here).1
      have split := drop_eq_cons here
      by_cases found : character = mark
      · simp only [if_pos found, split, runsOver]
        exact ⟨le_refl _, fun _ => inside, fun impossible => (by cases impossible)⟩
      · have few := bounded (text.drop index)
        rw [split] at few
        simp only [if_neg found, split, runsOver, length_cons, length_drop] at few ⊢
        generalize passes (character :: text.drop (index + 1)) = steps at few ⊢
        by_cases room : index + steps + 1 ≤ text.length
        · obtain ⟨later, stays, leaves⟩ := @ih (index + steps + 1) (by omega) room
          have dropped : text.drop (index + steps + 1) = (text.drop (index + 1)).drop steps := by
            rw [drop_drop]
            congr 1
            omega
          rw [runsOver_eq_of_le (by rw [length_drop]; omega), ← dropped]
          exact ⟨by omega, stays, leaves⟩
        · have past : index + steps + 1 = text.length + 1 := by omega
          have ends : markStop text mark passes fuel (text.length + 1) = text.length + 1 := by
            cases fuel with
            | zero => rfl
            | succ fuel =>
              unfold markStop
              rw [getElem?_eq_none_iff.mpr (Nat.le_succ _)]
          rw [past, ends, runsOver_eq_true_of_lt (by rw [length_drop]; omega)]
          exact ⟨by omega, fun impossible => (by cases impossible), fun _ => rfl⟩

theorem escapeMarks_le (dialect : ResolvedCommandDialect) (quote : CodeUnit) (rest : Text) :
    escapeMarks dialect quote rest ≤ rest.length := by
  have first : ∀ {mark : CodeUnit}, rest[0]? = some mark → 0 < rest.length := fun found =>
    (List.getElem?_eq_some_iff.mp found).1
  have second : ∀ {mark : CodeUnit}, rest[1]? = some mark → 1 < rest.length := fun found =>
    (List.getElem?_eq_some_iff.mp found).1
  unfold escapeMarks
  by_cases one : dialect ≠ .windowsCmd ∧ quote = doubleQuote ∧ rest[0]? = some backslash
  · simp only [if_pos one]
    split_ifs with two
    · exact second two.2.2
    · exact first one.2.2
  · simp only [if_neg one]
    split_ifs with two
    · exact first two.2.2
    · exact Nat.zero_le _

theorem passEscapes_eq (text : Text) (dialect : ResolvedCommandDialect) (quote : CodeUnit)
    (index : Nat) :
    passEscapes text dialect quote index = index + escapeMarks dialect quote (text.drop index) := by
  unfold passEscapes escapeMarks
  by_cases one : dialect ≠ .windowsCmd ∧ quote = doubleQuote ∧ text[index]? = some backslash
  · simp only [getElem?_drop, Nat.add_zero, if_pos one]
    split_ifs <;> rfl
  · simp only [getElem?_drop, Nat.add_zero, if_neg one]
    split_ifs <;> rfl

theorem quotedStop_eq (text : Text) (dialect : ResolvedCommandDialect) (quote : CodeUnit)
    (fuel index : Nat) :
    quotedStop text dialect quote fuel index =
      markStop text quote (escapeMarks dialect quote) fuel index := by
  induction fuel generalizing index with
  | zero => rfl
  | succ fuel ih =>
    unfold quotedStop markStop
    cases here : text[index]? with
    | none => rfl
    | some character =>
      show (if character = quote then index else _) = if character = quote then index else _
      rw [passEscapes_eq, ih]

theorem backtickStop_eq (text : Text) (fuel index : Nat) :
    backtickStop text fuel index = markStop text backtick backslashMarks fuel index := by
  induction fuel generalizing index with
  | zero => rfl
  | succ fuel ih =>
    unfold backtickStop markStop
    cases here : text[index]? with
    | none => rfl
    | some character =>
      show (if character = backtick then index else _) = if character = backtick then index else _
      rw [ih, backslashMarks, getElem?_drop, Nat.add_zero index, here]
      by_cases escaped : character = backslash
      · simp only [escaped, if_true]
      · simp [escaped]

theorem backslashMarks_le (rest : Text) : backslashMarks rest ≤ rest.length := by
  unfold backslashMarks
  split_ifs with found
  · exact (List.getElem?_eq_some_iff.mp found).1
  · exact Nat.zero_le _

/-- Outside a double-quoted part with escapes nothing is stepped over. -/
theorem runsOver_eq_false {mark : CodeUnit} {passes : Text → Nat}
    (none : ∀ rest, passes rest = 0) (rest : Text) : runsOver mark passes 0 rest = false := by
  induction rest with
  | nil => rfl
  | cons c rest ih =>
    rw [runsOver, none, ih, ite_self]

/-! ## Parts -/

theorem TilesParts.snoc {text : Text} {items : List CommandWordPart} {item : CommandWordPart}
    {start stop : Nat} (front : TilesParts text start items stop) (follows : item.start = stop)
    (nonempty : stop < item.stop) (raw : item.raw = slice text stop item.stop) :
    TilesParts text start (items ++ [item]) item.stop := by
  induction items generalizing start with
  | nil =>
    cases front
    exact ⟨follows, nonempty, raw, rfl⟩
  | cons first rest ih =>
    obtain ⟨here, consumes, spells, later⟩ := front
    exact ⟨here, consumes, spells, ih later⟩

section Words

variable {text : Text} {limits : CommandLexerLimits} {dialect : ResolvedCommandDialect}

theorem part_eq_ok {word next : Word} {kind : CommandPartKind} {start stop : Nat}
    {value : Option Text} (run : part text limits word kind start stop value = .ok next) :
    next.state.tokens = word.state.tokens ∧ next.state.issues = word.state.issues ∧
      next.index = word.index ∧ next.literalStart = word.literalStart ∧
      next.parts = word.parts ++ [⟨kind, slice text start stop, start, stop, value⟩] := by
  obtain ⟨-, made⟩ := check_bind_eq_ok.mp run
  cases made
  exact ⟨rfl, rfl, rfl, rfl, rfl⟩

theorem issue_eq_ok {state next : ScanState} {start stop : Nat} {message : Text}
    {code : CommandIssueCode} (run : issue limits state start stop message code = .ok next) :
    next.tokens = state.tokens ∧ next.issues = state.issues ++ [⟨code, message, start, stop⟩] := by
  obtain ⟨-, made⟩ := check_bind_eq_ok.mp run
  cases made
  exact ⟨rfl, rfl⟩

theorem pushToken_eq_ok {state next : ScanState} {token : CommandToken}
    (run : pushToken limits state token = .ok next) :
    next.issues = state.issues ∧ next.tokens = state.tokens ++ [token] := by
  obtain ⟨-, made⟩ := check_bind_eq_ok.mp run
  cases made
  exact ⟨rfl, rfl⟩

/-- What stands before the parts and behind them stays; the parts now reach to the index. -/
structure Flushed (text : Text) (word next : Word) : Prop where
  tokens : next.state.tokens = word.state.tokens
  issues : next.state.issues = word.state.issues
  index : next.index = word.index
  parts : ∀ start, TilesParts text start word.parts word.literalStart →
    word.literalStart ≤ word.index → TilesParts text start next.parts word.index

theorem flushed_of_flushLiteral {word next : Word}
    (run : flushLiteral text limits word word.index = .ok next) : Flushed text word next := by
  unfold flushLiteral at run
  split_ifs at run with pending
  · obtain ⟨tokens, issues, index, -, parts⟩ := part_eq_ok run
    refine ⟨tokens, issues, index, fun start front _ => ?_⟩
    rw [parts]
    exact front.snoc rfl pending rfl
  · cases run
    refine ⟨rfl, rfl, rfl, fun start front before => ?_⟩
    have same : word.literalStart = word.index := by omega
    exact same ▸ front

/-- A part from the index to `stop` was added, with at most an issue about it. -/
structure Moved (text : Text) (word next : Word) (stop : Nat) : Prop where
  tokens : next.state.tokens = word.state.tokens
  issues : ∀ issue ∈ next.state.issues,
    issue ∈ word.state.issues ∨
      issue.start = word.index ∧ issue.stop = stop ∧ issue.code = .malformedSyntax
  parts : ∀ start, TilesParts text start word.parts word.literalStart →
    word.literalStart ≤ word.index → word.index < stop → TilesParts text start next.parts stop
  index : next.index = stop
  literalStart : next.literalStart = stop

/-- How every part is made: flush the literal text, report, add the part, move on. -/
theorem moved_of_part {word flushed reported added : Word} {kind : CommandPartKind} {stop : Nat}
    {value : Option Text} (flushes : Flushed text word flushed)
    (tokens : reported.state.tokens = flushed.state.tokens) (parts : reported.parts = flushed.parts)
    (issues : ∀ issue ∈ reported.state.issues, issue ∈ flushed.state.issues ∨
        issue.start = flushed.index ∧ issue.stop = stop ∧ issue.code = .malformedSyntax)
    (adds : part text limits reported kind flushed.index stop value = .ok added) :
    Moved text word (added.moveTo stop) stop := by
  obtain ⟨addedTokens, addedIssues, -, -, addedParts⟩ := part_eq_ok adds
  refine ⟨addedTokens.trans (tokens.trans flushes.tokens), ?_, ?_, rfl, rfl⟩
  · intro issue member
    have member : issue ∈ added.state.issues := member
    rw [addedIssues] at member
    rw [← flushes.issues, ← flushes.index]
    exact issues issue member
  · intro start front before after
    have reaches := flushes.parts start front before
    show TilesParts text start added.parts stop
    rw [addedParts, parts, flushes.index]
    exact reaches.snoc rfl after rfl

theorem closeAt_eq_ok {word next : Word} {start reached stop : Nat} {message : Text}
    (run : closeAt text limits word start reached message = .ok (stop, next)) :
    stop = closedStop text reached ∧ next.state.tokens = word.state.tokens ∧
      next.parts = word.parts ∧
      ∀ issue ∈ next.state.issues, issue ∈ word.state.issues ∨
          issue.start = start ∧ issue.stop = stop ∧ issue.code = .malformedSyntax := by
  unfold closeAt at run
  unfold closedStop
  split_ifs at run ⊢ with past
  · obtain ⟨state, reports, made⟩ := bind_eq_ok.mp run
    cases made
    obtain ⟨tokens, issues⟩ := issue_eq_ok reports
    refine ⟨rfl, tokens, rfl, fun issue member => ?_⟩
    have member : issue ∈ state.issues := member
    rw [issues, mem_append, mem_singleton] at member
    rcases member with before | rfl
    · exact .inl before
    · exact .inr ⟨rfl, rfl, rfl⟩
  · cases run
    exact ⟨rfl, rfl, rfl, fun issue member => .inl member⟩

theorem moved_of_scanQuoted {quote : CodeUnit} {word next : Word}
    (run : scanQuoted text limits dialect quote word = .ok next) :
    Moved text word next
      (closedStop text (quotedStop text dialect quote text.length (word.index + 1))) := by
  obtain ⟨flushed, flushes, run⟩ := bind_eq_ok.mp run
  obtain ⟨⟨stop, reported⟩, closes, run⟩ := bind_eq_ok.mp run
  obtain ⟨added, adds, made⟩ := bind_eq_ok.mp run
  cases made
  have flushes := flushed_of_flushLiteral flushes
  obtain ⟨rfl, tokens, parts, issues⟩ := closeAt_eq_ok closes
  rw [← flushes.index]
  exact moved_of_part flushes tokens parts issues adds

theorem moved_of_scanEscape {word next : Word} (run : scanEscape text limits word = .ok next) :
    Moved text word next (closedStop text (word.index + 1)) := by
  obtain ⟨flushed, flushes, run⟩ := bind_eq_ok.mp run
  obtain ⟨⟨stop, reported⟩, closes, run⟩ := bind_eq_ok.mp run
  obtain ⟨added, adds, made⟩ := bind_eq_ok.mp run
  cases made
  have flushes := flushed_of_flushLiteral flushes
  obtain ⟨rfl, tokens, parts, issues⟩ := closeAt_eq_ok closes
  rw [← flushes.index]
  exact moved_of_part flushes tokens parts issues adds

theorem moved_of_scanBacktickSubstitution {word next : Word}
    (run : scanBacktickSubstitution text limits word = .ok next) :
    Moved text word next
      (closedStop text (backtickStop text text.length (word.index + 1))) := by
  obtain ⟨flushed, flushes, run⟩ := bind_eq_ok.mp run
  obtain ⟨⟨stop, reported⟩, closes, run⟩ := bind_eq_ok.mp run
  obtain ⟨added, adds, made⟩ := bind_eq_ok.mp run
  cases made
  have flushes := flushed_of_flushLiteral flushes
  obtain ⟨rfl, tokens, parts, issues⟩ := closeAt_eq_ok closes
  rw [← flushes.index]
  exact moved_of_part flushes tokens parts issues adds

theorem readBalanced_eq_ok {state next : ScanState} {start stop : Nat}
    (run : readBalanced text limits state start (js "$(") (js ")") = .ok (stop, next)) :
    stop = balancedNext text limits start ∧ next.tokens = state.tokens ∧
      ∀ issue ∈ next.issues, issue ∈ state.issues ∨
        issue.start = start ∧ issue.stop = stop ∧ issue.code = .malformedSyntax := by
  obtain ⟨found, balanced, run⟩ := bind_eq_ok.mp run
  have balanced : balancedStop text limits (js "$(") (js ")") text.length 1 none (start + 2) =
      .ok found := balanced
  unfold balancedNext
  rw [balanced]
  cases found with
  | some index =>
    cases run
    exact ⟨rfl, rfl, fun issue member => .inl member⟩
  | none =>
    obtain ⟨reported, reports, made⟩ := bind_eq_ok.mp run
    cases made
    obtain ⟨tokens, issues⟩ := issue_eq_ok reports
    refine ⟨rfl, tokens, fun issue member => ?_⟩
    rw [issues, mem_append, mem_singleton] at member
    rcases member with before | rfl
    · exact .inl before
    · exact .inr ⟨rfl, rfl, rfl⟩

theorem moved_of_scanCommandSubstitution {word next : Word}
    (run : scanCommandSubstitution text limits word = .ok next) :
    Moved text word next (balancedNext text limits word.index) := by
  obtain ⟨flushed, flushes, run⟩ := bind_eq_ok.mp run
  obtain ⟨⟨stop, state⟩, reads, run⟩ := bind_eq_ok.mp run
  obtain ⟨added, adds, made⟩ := bind_eq_ok.mp run
  cases made
  have flushes := flushed_of_flushLiteral flushes
  obtain ⟨rfl, tokens, issues⟩ := readBalanced_eq_ok reads
  rw [← flushes.index]
  exact @moved_of_part _ _ _ _ { flushed with state } _ _ _ _ flushes tokens rfl issues adds

theorem moved_of_scanExpansion {expansion : Text} {word next : Word}
    (run : scanExpansion text limits expansion word = .ok next) :
    Moved text word next (word.index + expansion.length) := by
  obtain ⟨flushed, flushes, run⟩ := bind_eq_ok.mp run
  obtain ⟨added, adds, made⟩ := bind_eq_ok.mp run
  cases made
  have flushes := flushed_of_flushLiteral flushes
  rw [← flushes.index]
  exact moved_of_part flushes rfl rfl (fun issue member => .inl member) adds

end Words

/-! ## Where one round leads -/

section Rounds

variable {text : Text} {limits : CommandLexerLimits} {dialect : ResolvedCommandDialect}

theorem inside_of_startsWith {candidate : Text} {index : Nat} (nonempty : candidate ≠ [])
    (found : startsWith text candidate index = true) : index + candidate.length ≤ text.length := by
  have fits := ( isPrefixOf_iff_prefix.mp found).length_le
  have positive := length_pos_iff.mpr nonempty
  rw [length_drop] at fits
  omega

theorem inside_of_matched {p : Pattern CodeUnit} {word : Text} {index : Nat}
    (consumes : p.nullable = false) (found : p.matched (text.drop index) = some word) :
    0 < word.length ∧ index + word.length ≤ text.length := by
  have positive := length_pos_iff.mpr (Pattern.matched_ne_nil consumes found)
  have fits := (Pattern.matched_eq_some found).2.length_le
  rw [length_drop] at fits
  omega

theorem inside_of_expansionAt {expansion : Text} {index : Nat}
    (found : expansionAt text index dialect = some expansion) :
    0 < expansion.length ∧ index + expansion.length ≤ text.length := by
  unfold expansionAt at found
  split_ifs at found
  · exact inside_of_matched rfl found
  · exact inside_of_matched rfl found

theorem inside_of_redirectionAt {raw : Text} {index : Nat}
    (found : redirectionAt text index = some raw) :
    0 < raw.length ∧ index + raw.length ≤ text.length ∧ raw = slice text index (index + raw.length) := by
  obtain ⟨positive, inside⟩ := inside_of_matched rfl found
  refine ⟨positive, inside, ?_⟩
  rw [slice, drop_take, Nat.add_sub_cancel_left]
  exact prefix_iff_eq_take.mp (Pattern.matched_eq_some found).2

theorem inside_of_operatorAt {raw : Text} {index : Nat} (found : operatorAt text index = some raw) :
    0 < raw.length ∧ index + raw.length ≤ text.length ∧ raw = slice text index (index + raw.length) := by
  have starts := find?_some found
  have listed := mem_of_find?_eq_some found
  have nonempty : raw ≠ [] := by
    rintro rfl
    exact absurd listed (by decide)
  refine ⟨length_pos_iff.mpr nonempty, inside_of_startsWith nonempty starts, ?_⟩
  rw [slice, drop_take, Nat.add_sub_cancel_left]
  exact prefix_iff_eq_take.mp ( isPrefixOf_iff_prefix.mp starts)

theorem inside_of_balancedStop {opening closing : Text} (opens : opening ≠ [])
    (closes : closing ≠ []) {fuel depth index stop : Nat} {quote : Option CodeUnit}
    (run : balancedStop text limits opening closing fuel depth quote index = .ok (some stop)) :
    index < stop ∧ stop ≤ text.length := by
  have openLength := length_pos_iff.mpr opens
  have closeLength := length_pos_iff.mpr closes
  induction fuel generalizing depth quote index with
  | zero => cases run
  | succ fuel ih =>
    unfold balancedStop at run
    cases here : text[index]? with
    | none =>
      rw [here] at run
      cases run
    | some character =>
      rw [here] at run
      cases quote with
      | some mark =>
        have later := ih run
        split_ifs at later <;> omega
      | none =>
        dsimp only at run
        split_ifs at run with quoted opened deep closed last
        · have later := ih run
          omega
        · have later := ih run
          omega
        · cases run
          have inside := inside_of_startsWith closes closed
          omega
        · have later := ih run
          omega
        · have later := ih run
          omega

theorem balancedNext_spec {index : Nat} (inside : index < text.length) :
    index < balancedNext text limits index ∧ balancedNext text limits index ≤ text.length := by
  unfold balancedNext
  split
  next stop found =>
    have bounds := inside_of_balancedStop (by decide) (by decide) found
    omega
  next => exact ⟨inside, le_refl _⟩

theorem closedStop_of_le {reached : Nat} (inside : reached ≤ text.length) :
    reached ≤ closedStop text reached ∧ closedStop text reached ≤ text.length := by
  unfold closedStop
  split_ifs <;> omega

/-- A part that is opened at a mark: inside the text unless an escape mark is last in it. -/
theorem closedStop_markStop {mark : CodeUnit} {passes : Text → Nat} {index : Nat}
    (bounded : ∀ rest, passes rest ≤ rest.length) (inside : index < text.length) :
    index < closedStop text (markStop text mark passes text.length (index + 1)) ∧
      (runsOver mark passes 0 (text.drop (index + 1)) = false →
        closedStop text (markStop text mark passes text.length (index + 1)) ≤ text.length) ∧
      (runsOver mark passes 0 (text.drop (index + 1)) = true →
        text.length < closedStop text (markStop text mark passes text.length (index + 1))) := by
  obtain ⟨after, stays, leaves⟩ := @markStop_spec text mark passes bounded text.length (index + 1)
    (Nat.le_add_left ..) inside
  refine ⟨?_, fun safe => ?_, fun past => ?_⟩
  · unfold closedStop
    split_ifs <;> omega
  · exact (closedStop_of_le (stays safe)).2
  · rw [leaves past, closedStop, if_pos (Nat.le_succ _)]
    exact Nat.lt_succ_self _

theorem escapeMarks_eq_zero {quote : CodeUnit}
    (plain : ¬ (quote = doubleQuote ∧ dialect ≠ .windowsCmd)) (rest : Text) :
    escapeMarks dialect quote rest = 0 := by
  have posix : ¬ (dialect ≠ .windowsCmd ∧ quote = doubleQuote ∧ rest[0]? = some backslash) :=
    fun holds => plain ⟨holds.2.1, holds.1⟩
  have powershell : ¬ (dialect = .windowsPowershell ∧ quote = doubleQuote ∧
      rest[0]? = some backtick) := fun holds => plain ⟨holds.2.1, by rw [holds.1]; decide⟩
  simp [escapeMarks, if_neg posix, if_neg powershell]

/-- One round moves on, and stays in the text unless it overruns. -/
theorem wordNext_spec {index : Nat} {character : CodeUnit} (here : text[index]? = some character)
    (goesOn : endsWord text index character = false) :
    index < wordNext text limits dialect index character ∧
      (¬ Overruns text dialect index character →
        wordNext text limits dialect index character ≤ text.length) ∧
      (Overruns text dialect index character →
        text.length < wordNext text limits dialect index character) := by
  have inside := (List.getElem?_eq_some_iff.mp here).1
  unfold wordNext
  split_ifs with quoted escaped substitution backticked
  · rw [quotedStop_eq]
    obtain ⟨after, stays, leaves⟩ := @closedStop_markStop text character
      (escapeMarks dialect character) index (escapeMarks_le dialect character) inside
    refine ⟨after, fun safe => stays ?_, fun overruns => leaves ?_⟩
    · cases value : runsOver character (escapeMarks dialect character) 0 (text.drop (index + 1)) with
      | false => rfl
      | true =>
        by_cases special : character = doubleQuote ∧ dialect ≠ .windowsCmd
        · obtain ⟨rfl, other⟩ := special
          exact absurd ⟨goesOn, .inl ⟨rfl, other, value⟩⟩ safe
        · rw [runsOver_eq_false (escapeMarks_eq_zero special)] at value
          cases value
    · rcases overruns.2 with ⟨rfl, -, past⟩ | ⟨rfl, -, -⟩
      · exact past
      · exact absurd quoted (by decide)
  · refine ⟨by have := (@closedStop_of_le text (index + 1) inside).1; omega,
      fun _ => (closedStop_of_le inside).2, fun overruns => ?_⟩
    rcases overruns.2 with ⟨rfl, -, -⟩ | ⟨rfl, rfl, -⟩
    · exact absurd (.inr rfl) quoted
    · exact absurd escaped (by decide)
  · have bounds := @balancedNext_spec text limits index inside
    refine ⟨bounds.1, fun _ => bounds.2, fun overruns => ?_⟩
    rcases overruns.2 with ⟨rfl, -, -⟩ | ⟨rfl, -, -⟩
    · exact absurd (.inr rfl) quoted
    · have starts := substitution.2
      rw [startsWith, drop_eq_cons here] at starts
      exact absurd starts (by simp [js, ofChar, isPrefixOf, backtick])
  · rw [backtickStop_eq]
    obtain ⟨after, stays, leaves⟩ := @closedStop_markStop text backtick backslashMarks index
      backslashMarks_le inside
    refine ⟨after, fun safe => stays ?_, fun overruns => leaves ?_⟩
    · cases value : runsOver backtick backslashMarks 0 (text.drop (index + 1)) with
      | false => rfl
      | true => exact absurd ⟨goesOn, .inr ⟨backticked.2, backticked.1, value⟩⟩ safe
    · rcases overruns.2 with ⟨rfl, -, -⟩ | ⟨-, -, past⟩
      · exact absurd (.inr rfl) quoted
      · exact past
  · have never : ¬ Overruns text dialect index character := by
      rintro ⟨-, ⟨rfl, -, -⟩ | ⟨rfl, rfl, -⟩⟩
      · exact quoted (.inr rfl)
      · exact backticked ⟨rfl, rfl⟩
    cases expanded : expansionAt text index dialect with
    | some expansion =>
      have bounds := inside_of_expansionAt expanded
      exact ⟨by dsimp only; omega, fun _ => bounds.2, fun overruns => absurd overruns never⟩
    | none => exact ⟨Nat.lt_succ_self _, fun _ => inside, fun overruns => absurd overruns never⟩

theorem wordNext_eq_nextIndex {index : Nat} {character : CodeUnit}
    (goesOn : endsWord text index character = false) :
    nextIndex text limits dialect index character = wordNext text limits dialect index character := by
  obtain ⟨⟨notSpace, noOperator⟩, noRedirection⟩ : (isSpace character = false ∧
      operatorAt text index = none) ∧ redirectionAt text index = none := by
    simpa only [endsWord, Bool.or_eq_false_iff, Option.isSome_eq_false_iff,
      Option.isNone_iff_eq_none] using goesOn
  rw [nextIndex, notSpace, noRedirection, noOperator]
  rfl

/-- What holds from an index on holds from where its round leads, and of the round. -/
theorem safe_iff {index : Nat} {character : CodeUnit} (here : text[index]? = some character) :
    Safe text limits dialect index ↔ ¬ Overruns text dialect index character ∧
      Safe text limits dialect (nextIndex text limits dialect index character) := by
  constructor
  · intro safe
    refine ⟨safe index character .refl here, fun reached other path found => ?_⟩
    exact safe reached other (.head ⟨character, here, rfl⟩ path) found
  · rintro ⟨first, later⟩ reached other path found
    rcases Relation.ReflTransGen.cases_head path with rfl | ⟨next, ⟨unit, unitHere, rfl⟩, rest⟩
    · rw [here] at found
      cases found
      exact first
    · rw [here] at unitHere
      cases unitHere
      exact later reached other rest found

/-- Nothing is opened behind the last unit. -/
theorem safe_of_end {index : Nat} (atEnd : text[index]? = none) : Safe text limits dialect index := by
  intro reached character path found
  rcases Relation.ReflTransGen.cases_head path with rfl | ⟨next, ⟨unit, unitHere, -⟩, -⟩
  · rw [atEnd] at found
    cases found
  · rw [atEnd] at unitHere
    cases unitHere

end Rounds

end AgentContextLint.CommandLexer
