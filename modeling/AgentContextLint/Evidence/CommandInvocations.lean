import AgentContextLint.Evidence.CommandTokens

/-!
# Invocations and their issues

Operators separate the tokens of a scan into groups, one for each invocation (`Grouped`). An issue
of the scan starts inside a word and ends in it, so that it starts in the range of a group exactly
if it lies within the group. The issue about the dialect is about the whole text but is counted
where it starts: it makes the invocation malformed that starts with the text
(`lexCommandEvidence_invocations_iff`).
-/

namespace AgentContextLint.CommandLexer

open Utf16 Metered List

variable {text : Text} {limits : CommandLexerLimits} {dialect : ResolvedCommandDialect}

/-! ## Groups -/

/-- Tokens as groups: operators stand between two groups, in front of them and behind them. -/
inductive Grouped : List CommandToken → List (List CommandToken) → Prop
  | nil : Grouped [] []
  | operator {token : CommandToken} {rest : List CommandToken} {groups : List (List CommandToken)}
      (separates : token.kind = .operator) (behind : Grouped rest groups) :
      Grouped (token :: rest) groups
  | last {group : List CommandToken} (some : group ≠ [])
      (plain : ∀ token ∈ group, token.kind ≠ .operator) : Grouped group [group]
  | group {group rest : List CommandToken} {token : CommandToken}
      {groups : List (List CommandToken)} (some : group ≠ [])
      (plain : ∀ token ∈ group, token.kind ≠ .operator) (separates : token.kind = .operator)
      (behind : Grouped rest groups) : Grouped (group ++ token :: rest) (group :: groups)

def groupToken (groups : List (List CommandToken) × List CommandToken) (token : CommandToken) :
    List (List CommandToken) × List CommandToken :=
  if token.kind = .operator then
    if groups.2 = [] then groups else (groups.1 ++ [groups.2], [])
  else (groups.1, groups.2 ++ [token])

theorem grouped_foldl (tokens : List CommandToken) (done : List (List CommandToken))
    (current : List CommandToken) (plain : ∀ token ∈ current, token.kind ≠ .operator) :
    ∃ groups, ((tokens.foldl groupToken (done, current)).1 ++
        [(tokens.foldl groupToken (done, current)).2]).filter (· ≠ []) =
          done.filter (· ≠ []) ++ groups ∧
      Grouped (current ++ tokens) groups := by
  induction tokens generalizing done current with
  | nil =>
    refine ⟨[current].filter (· ≠ []), filter_append .., ?_⟩
    rw [append_nil]
    by_cases none : current = []
    · subst none
      exact .nil
    · rw [filter_singleton, decide_eq_true none]
      exact .last none plain
  | cons token rest ih =>
    rw [foldl_cons]
    by_cases separates : token.kind = .operator
    · by_cases none : current = []
      · subst none
        rw [groupToken, if_pos separates, if_pos rfl]
        obtain ⟨groups, filtered, grouped⟩ := ih done [] plain
        exact ⟨groups, filtered, .operator separates grouped⟩
      · rw [groupToken, if_pos separates, if_neg none]
        obtain ⟨groups, filtered, grouped⟩ := ih (done ++ [current]) [] (fun _ member => by cases member)
        refine ⟨current :: groups, ?_, .group none plain separates grouped⟩
        rw [filtered, filter_append, filter_singleton, decide_eq_true none, append_assoc]
        rfl
    · rw [groupToken, if_neg separates]
      obtain ⟨groups, filtered, grouped⟩ := ih done (current ++ [token]) (by
        intro other member
        rcases mem_append.mp member with old | new
        · exact plain other old
        · rw [mem_singleton.mp new]
          exact separates)
      rw [append_assoc] at grouped
      exact ⟨groups, filtered, grouped⟩

theorem grouped_groupTokens (tokens : List CommandToken) :
    Grouped tokens ((groupTokens tokens).filter (· ≠ [])) := by
  obtain ⟨groups, filtered, grouped⟩ := grouped_foldl tokens [] [] (fun _ member => by cases member)
  have same : (groupTokens tokens).filter (· ≠ []) = groups := filtered
  rw [same]
  exact grouped

/-- A group among the tokens, with nothing or an operator behind it. -/
structure Stands (tokens group before after : List CommandToken) : Prop where
  tokens : tokens = before ++ (group ++ after)
  some : group ≠ []
  plain : ∀ token ∈ group, token.kind ≠ .operator
  after : after = [] ∨ ∃ token behind, after = token :: behind ∧ token.kind = .operator

theorem Grouped.stands {tokens : List CommandToken} {groups : List (List CommandToken)}
    (grouped : Grouped tokens groups) {group : List CommandToken} (member : group ∈ groups) :
    ∃ before after, Stands tokens group before after := by
  induction grouped with
  | nil => cases member
  | @operator token _ _ _ _ ih =>
    obtain ⟨before, after, stands⟩ := ih member
    exact ⟨token :: before, after, congrArg (token :: ·) stands.tokens, stands.some, stands.plain,
      stands.after⟩
  | last some plain =>
    rw [mem_singleton.mp member]
    exact ⟨[], [], (append_nil _).symm, some, plain, .inl rfl⟩
  | @group first rest token groups some plain separates _ ih =>
    rcases mem_cons.mp member with rfl | inRest
    · exact ⟨[], token :: rest, rfl, some, plain, .inr ⟨token, rest, rfl, separates⟩⟩
    · obtain ⟨before, after, stands⟩ := ih inRest
      refine ⟨first ++ token :: before, after, ?_, stands.some, stands.plain, stands.after⟩
      rw [stands.tokens, append_assoc, cons_append]

def leading (tokens : List CommandToken) : List CommandToken :=
  tokens.takeWhile fun token => token.kind ≠ .operator

theorem leading_append {group after : List CommandToken}
    (plain : ∀ token ∈ group, token.kind ≠ .operator)
    (ends : after = [] ∨ ∃ token behind, after = token :: behind ∧ token.kind = .operator) :
    leading (group ++ after) = group := by
  have none : leading after = [] := by
    rcases ends with rfl | ⟨token, behind, rfl, operator⟩
    · rfl
    · exact takeWhile_cons_of_neg (by simpa using operator)
  rw [leading, takeWhile_append_of_pos fun token member => decide_eq_true (plain token member)]
  exact (congrArg (group ++ ·) none).trans (append_nil _)

variable {token : CommandToken}

theorem Grouped.leading_mem {rest : List CommandToken} {groups : List (List CommandToken)}
    (plain : token.kind ≠ .operator) (grouped : Grouped (token :: rest) groups) :
    leading (token :: rest) ∈ groups := by
  generalize given : token :: rest = tokens at grouped
  cases grouped with
  | nil => cases given
  | operator separates _ =>
    cases given
    exact absurd separates plain
  | last _ every =>
    have same := @leading_append _ [] every (.inl rfl)
    rw [append_nil] at same
    rw [same]
    exact mem_singleton_self _
  | group _ every separates _ =>
    rw [leading_append every (.inr ⟨_, _, rfl, separates⟩)]
    exact mem_cons_self

/-! ## Issues of a scan -/

/-- An issue that starts inside a token and ends in it. -/
structure Inside (issue : CommandLexerIssue) (token : CommandToken) : Prop where
  after : token.start ≤ issue.start
  starts : issue.start < issue.stop
  ends : issue.stop ≤ token.stop

/-- Tokens in their order, and malformed syntax inside words only. -/
structure Spans (state : ScanState) (index : Nat) : Prop where
  ordered : state.tokens.Pairwise fun first second => first.stop ≤ second.start
  nonempty : ∀ token ∈ state.tokens, token.start < token.stop
  before : ∀ token ∈ state.tokens, token.stop ≤ index
  issues : ∀ issue ∈ state.issues, issue.code = .malformedSyntax ∧
    ∃ token ∈ state.tokens, token.kind ≠ .operator ∧ Inside issue token

variable {next : ScanState}

theorem spans_push {state : ScanState} (tokens : next.tokens = state.tokens ++ [token])
    (spans : Spans state token.start) (nonempty : token.start < token.stop)
    (issues : ∀ issue ∈ next.issues, issue ∈ state.issues ∨ issue.code = .malformedSyntax ∧ token.kind ≠ .operator ∧ Inside issue token) :
    Spans next token.stop where
  ordered := by
    rw [tokens, pairwise_append]
    refine ⟨spans.ordered, pairwise_singleton _ _, fun first member second last => ?_⟩
    rw [mem_singleton.mp last]
    exact spans.before first member
  nonempty := by
    rw [tokens]
    intro other member
    rcases mem_append.mp member with old | new
    · exact spans.nonempty other old
    · exact mem_singleton.mp new ▸ nonempty
  before := by
    rw [tokens]
    intro other member
    rcases mem_append.mp member with old | new
    · exact (spans.before other old).trans (Nat.le_of_lt nonempty)
    · exact mem_singleton.mp new ▸ Nat.le_refl _
  issues := by
    rw [tokens]
    intro issue member
    rcases issues issue member with old | ⟨code, plain, inside⟩
    · obtain ⟨code, other, listed, facts⟩ := spans.issues issue old
      exact ⟨code, other, mem_append_left _ listed, facts⟩
    · exact ⟨code, token, mem_append_right _ mem_cons_self, plain, inside⟩

theorem Spans.move {state : ScanState} {index next : Nat} (spans : Spans state index)
    (onward : index ≤ next) : Spans state next :=
  { spans with before := fun token member => (spans.before token member).trans onward }

/-- What a word adds to the issues lies between its ends. -/
structure Adds (word final : Word) : Prop where
  tokens : final.state.tokens = word.state.tokens
  onward : word.index ≤ final.index
  issues : ∀ issue ∈ final.state.issues, issue ∈ word.state.issues ∨
    issue.code = .malformedSyntax ∧ word.index ≤ issue.start ∧ issue.start < issue.stop ∧
      issue.stop ≤ final.index

variable {word : Word} {character : CodeUnit}

theorem adds_scanWordUnit {next : Word} (here : text[word.index]? = some character)
    (goesOn : endsWord text word.index character = false)
    (run : scanWordUnit text limits dialect character word = .ok next) :
    Adds word next ∧ word.index < next.index := by
  obtain ⟨onward, -⟩ := @wordNext_spec text limits dialect _ _ here goesOn
  rcases scanWordUnit_eq_ok run with moved | rfl
  · rw [← moved.index] at onward
    refine ⟨⟨moved.tokens, Nat.le_of_lt onward, fun issue member => ?_⟩, onward⟩
    rcases moved.issues issue member with old | ⟨starts, stops, code⟩
    · exact .inl old
    · rw [← moved.index] at stops
      exact .inr ⟨code, starts.ge, by omega, stops.le⟩
  · exact ⟨⟨rfl, Nat.le_of_lt onward, fun issue member => .inl member⟩, onward⟩

variable {final : Word}

theorem Adds.trans {next : Word} (first : Adds word next) (second : Adds next final) :
    Adds word final where
  tokens := second.tokens.trans first.tokens
  onward := first.onward.trans second.onward
  issues := by
    intro issue member
    rcases second.issues issue member with old | ⟨code, after, starts, ends⟩
    · rcases first.issues issue old with older | ⟨code, after, starts, ends⟩
      · exact .inl older
      · exact .inr ⟨code, after, starts, ends.trans second.onward⟩
    · exact .inr ⟨code, first.onward.trans after, starts, ends⟩

variable {fuel : Nat}

theorem adds_scanWordUnits (run : scanWordUnits text limits dialect fuel word = .ok final) :
    Adds word final := by
  have stays : Adds word word := ⟨rfl, Nat.le_refl _, fun issue member => .inl member⟩
  induction fuel generalizing word with
  | zero =>
    cases run
    exact stays
  | succ fuel ih =>
    unfold scanWordUnits at run
    cases here : text[word.index]? with
    | none =>
      rw [here] at run
      cases run
      exact stays
    | some character =>
      rw [here] at run
      dsimp only at run
      split_ifs at run with ends
      · cases run
        exact stays
      · obtain ⟨next, unit, rest⟩ := bind_eq_ok.mp run
        obtain ⟨adds, -⟩ := adds_scanWordUnit here (Bool.not_eq_true _ ▸ ends) unit
        exact adds.trans (ih rest ⟨rfl, Nat.le_refl _, fun issue member => .inl member⟩)

theorem spans_scanWord {state : ScanState} {start stop : Nat} (spans : Spans state start)
    (here : text[start]? = some character) (goesOn : endsWord text start character = false)
    (run : scanWord text limits dialect state start = .ok (stop, next)) : Spans next stop := by
  obtain ⟨word, units, run⟩ := bind_eq_ok.mp run
  obtain ⟨flushed, flushes, run⟩ := bind_eq_ok.mp run
  obtain ⟨pushed, pushes, made⟩ := bind_eq_ok.mp run
  cases made
  have flushes := flushed_of_flushLiteral flushes
  obtain ⟨issues, tokens⟩ := pushToken_eq_ok pushes
  have adds := adds_scanWordUnits units
  have onward : start < word.index := by
    obtain ⟨length, nonzero⟩ := Nat.exists_eq_succ_of_ne_zero
      (Nat.ne_of_gt (Nat.zero_lt_of_lt (List.getElem?_eq_some_iff.mp here).1))
    rw [nonzero, Nat.succ_eq_add_one, scanWordUnits, here] at units
    dsimp only at units
    rw [goesOn, if_neg Bool.false_ne_true] at units
    obtain ⟨first, unit, rest⟩ := bind_eq_ok.mp units
    obtain ⟨-, moved⟩ := adds_scanWordUnit here goesOn unit
    exact moved.trans_le (adds_scanWordUnits rest).onward
  rw [← flushes.index] at onward
  rw [flushes.tokens, adds.tokens] at tokens
  refine spans_push tokens spans onward ?_
  · rw [issues, flushes.issues]
    intro issue member
    rcases adds.issues issue member with old | ⟨code, after, starts, ends⟩
    · exact .inl old
    · rw [← flushes.index] at ends
      refine .inr ⟨code, ?_, after, starts, ends⟩
      unfold wordKind
      split_ifs <;> exact CommandTokenKind.noConfusion

theorem spans_scanFrom {index : Nat} {state final : ScanState} (spans : Spans state index)
    (run : scanFrom text limits dialect fuel state index = .ok final) :
    ∃ stop, Spans final stop := by
  have mark : ∀ {kind : CommandTokenKind} {raw : Text} {next : ScanState} {index : Nat}
      {state : ScanState}, Spans state index → 0 < raw.length →
      pushToken limits state ⟨kind, [], raw, index, index + raw.length, some raw⟩ = .ok next →
      Spans next (index + raw.length) := by
    intro kind raw next index state spans positive pushes
    obtain ⟨issues, tokens⟩ := pushToken_eq_ok pushes
    exact spans_push tokens spans (Nat.lt_add_of_pos_right positive)
      fun issue member => .inl (issues ▸ member)
  induction fuel generalizing index state with
  | zero =>
    cases run
    exact ⟨index, spans⟩
  | succ fuel ih =>
    unfold scanFrom at run
    cases here : text[index]? with
    | none =>
      rw [here] at run
      cases run
      exact ⟨index, spans⟩
    | some character =>
      rw [here] at run
      dsimp only at run
      split_ifs at run with space
      · exact ih (spans.move (Nat.le_succ index)) run
      · cases redirects : redirectionAt text index with
        | some raw =>
          rw [redirects] at run
          obtain ⟨next, pushes, rest⟩ := bind_eq_ok.mp run
          exact ih (mark spans (inside_of_redirectionAt redirects).1 pushes) rest
        | none =>
          cases operates : operatorAt text index with
          | some raw =>
            rw [redirects, operates] at run
            obtain ⟨next, pushes, rest⟩ := bind_eq_ok.mp run
            exact ih (mark spans (inside_of_operatorAt operates).1 pushes) rest
          | none =>
            rw [redirects, operates] at run
            obtain ⟨⟨stop, next⟩, words, rest⟩ := bind_eq_ok.mp run
            have goesOn : endsWord text index character = false := by
              rw [endsWord, redirects, operates, Bool.eq_false_iff.mpr space]
              rfl
            exact ih (spans_scanWord spans here goesOn words) rest

theorem spans_scan {state : ScanState} (run : scan text limits dialect = .ok state) :
    ∃ stop, Spans state stop :=
  spans_scanFrom ⟨.nil, fun _ member => (by cases member), fun _ member => (by cases member),
    fun _ member => (by cases member)⟩ run

/-! ## Ranges of groups -/

def startOf (group : List CommandToken) : Nat := (group.head?.map (·.start)).getD 0

def stopOf (group : List CommandToken) : Nat := (group.getLast?.map (·.stop)).getD 0

theorem within_group {group : List CommandToken}
    (ordered : group.Pairwise fun first second => first.stop ≤ second.start)
    (nonempty : ∀ token ∈ group, token.start < token.stop) (member : token ∈ group) :
    startOf group ≤ token.start ∧ token.stop ≤ stopOf group := by
  constructor
  · cases group with
    | nil => cases member
    | cons first rest =>
      rcases mem_cons.mp member with rfl | later
      · exact Nat.le_refl _
      · exact (nonempty first mem_cons_self).le.trans ((pairwise_cons.mp ordered).1 _ later)
  · obtain ⟨front, last, rfl⟩ := eq_nil_or_concat group |>.resolve_left (ne_nil_of_mem member)
    rw [concat_eq_append] at *
    have stop : stopOf (front ++ [last]) = last.stop := by
      rw [stopOf, getLast?_concat]
      rfl
    rw [stop]
    rcases mem_append.mp member with early | final
    · exact ((pairwise_append.mp ordered).2.2 _ early _ mem_cons_self).trans
        (nonempty last (mem_append_right _ mem_cons_self)).le
    · rw [mem_singleton.mp final]

section Ranges

variable {state : ScanState} {index : Nat} {group before after : List CommandToken}
  {token : CommandToken}

section

variable (spans : Spans state index)

include spans

theorem Spans.bounds (stands : Stands state.tokens group before after) (member : token ∈ group) :
    startOf group ≤ token.start ∧ token.stop ≤ stopOf group := by
  have listed : group.Sublist state.tokens := by
    rw [stands.tokens]
    exact (sublist_append_left _ _).trans (sublist_append_right _ _)
  exact within_group (spans.ordered.sublist listed)
    (fun other inGroup => spans.nonempty other (listed.subset inGroup)) member

theorem Spans.front (stands : Stands state.tokens group before after)
    (member : token ∈ before) : token.stop ≤ startOf group := by
  have ordered := spans.ordered
  rw [stands.tokens, pairwise_append] at ordered
  obtain ⟨first, rest, rfl⟩ := exists_cons_of_ne_nil stands.some
  exact ordered.2.2 token member first mem_cons_self

/-- Behind a group and its operator, tokens start later than the group ends. -/
theorem Spans.behind (stands : Stands state.tokens group before after)
    (plain : token.kind ≠ .operator) (member : token ∈ after) : stopOf group < token.start := by
  have ordered := spans.ordered
  rw [stands.tokens, pairwise_append, pairwise_append] at ordered
  obtain ⟨-, ⟨-, late, apart⟩, -⟩ := ordered
  rcases stands.after with rfl | ⟨separator, behind, rfl, operator⟩
  · cases member
  · rcases mem_cons.mp member with rfl | later
    · exact absurd operator plain
    · obtain ⟨front, last, rfl⟩ := eq_nil_or_concat group |>.resolve_left stands.some
      rw [concat_eq_append] at *
      have stop : stopOf (front ++ [last]) = last.stop := by
        rw [stopOf, getLast?_concat]
        rfl
      rw [stop]
      have positive := spans.nonempty separator (by
        rw [stands.tokens]
        exact mem_append_right _ (mem_append_right _ mem_cons_self))
      have first := apart last (mem_append_right _ mem_cons_self) separator
        mem_cons_self
      have second := (pairwise_cons.mp late).1 token later
      omega

/-- An issue that starts in the range of a group is inside one of its tokens. -/
theorem Spans.inside (stands : Stands state.tokens group before after)
    {item : CommandLexerIssue} (member : item ∈ state.issues) (from_ : startOf group ≤ item.start)
    (until_ : item.start ≤ stopOf group) : ∃ token ∈ group, Inside item token := by
  obtain ⟨-, token, listed, plain, inside⟩ := spans.issues item member
  have starts := inside.starts
  rw [stands.tokens, mem_append, mem_append] at listed
  rcases listed with early | inGroup | late
  · have earlier := spans.front stands early
    have ends := inside.ends
    omega
  · exact ⟨token, inGroup, inside⟩
  · have later := spans.behind stands plain late
    have after := inside.after
    omega

/-- Only the tokens in front of the first operator start with the text. -/
theorem Spans.leads (stands : Stands state.tokens group before after)
    (zero : startOf group = 0) : group = leading state.tokens ∧
      ∃ token, state.tokens.head? = some token ∧ token.kind ≠ .operator ∧ token.start = 0 := by
  have none : before = [] := by
    cases given : before with
    | nil => rfl
    | cons token rest =>
      have listed : token ∈ before := given ▸ mem_cons_self
      have positive := spans.nonempty token (stands.tokens ▸ mem_append_left _ listed)
      have early := spans.front stands listed
      omega
  rw [stands.tokens, none, nil_append]
  refine ⟨(leading_append stands.plain stands.after).symm, ?_⟩
  obtain ⟨first, rest, rfl⟩ := exists_cons_of_ne_nil stands.some
  exact ⟨first, rfl, stands.plain first mem_cons_self, zero⟩

end

end Ranges

/-! ## Readings -/

/-- What a token of a group is: an assignment, a redirection with the word it takes, or a word. -/
inductive TokenReading
  | assignment (token : CommandToken)
  | redirection (token : CommandToken) (target : Option CommandToken)
  | word (token : CommandToken)

namespace TokenReading

def tokens : TokenReading → List CommandToken
  | .assignment token => [token]
  | .redirection token target => token :: target.toList
  | .word token => [token]

def asWord : TokenReading → Option CommandToken
  | .word token => some token
  | _ => none

/-- A name and its value. -/
def asAssignment : TokenReading → Option (Text × Text)
  | .assignment token => token.value.map fun assignment =>
    (assignment.takeWhile (· != 0x3d), (assignment.dropWhile (· != 0x3d)).drop 1)
  | _ => none

def asRedirection (text : Text) : TokenReading → Option CommandRedirectionEvidence
  | .redirection token target =>
    let stop := (target.getD token).stop
    some ⟨token.raw, slice text token.start stop, token.start, stop, target.bind (·.value)⟩
  | _ => none

/-- Assignments stand in front of the words and have a value; a redirection takes the word behind
it; whatever else there is is a word. -/
def Right (inFront behind : List CommandToken) : TokenReading → Prop
  | .assignment token =>
    token.kind = .environmentAssignment ∧ inFront = [] ∧ token.value ≠ none
  | .redirection token target => token.kind = .redirection ∧
    match target with
    | some next => next.kind = .word
    | none => ∀ next ∈ behind.head?, next.kind ≠ .word
  | .word token => token.kind ≠ .redirection ∧
    (token.kind = .environmentAssignment → inFront = [] → token.value = none)

end TokenReading

/-- Each token of a group is in one reading, in their order, behind the words in front. -/
structure ReadAs (inFront group : List CommandToken) (readings : List TokenReading) : Prop where
  tokens : readings.flatMap (·.tokens) = group
  right : ∀ front reading behind, readings = front ++ reading :: behind →
    reading.Right (inFront ++ front.filterMap (·.asWord)) (behind.flatMap (·.tokens))

variable {inFront group : List CommandToken} {readings : List TokenReading}

theorem ReadAs.cons {reading : TokenReading} (right : reading.Right inFront group)
    (readAs : ReadAs (inFront ++ reading.asWord.toList) group readings) :
    ReadAs inFront (reading.tokens ++ group) (reading :: readings) where
  tokens := by rw [flatMap_cons, readAs.tokens]
  right front other behind split := by
    cases front with
    | nil =>
      obtain ⟨rfl, rfl⟩ := cons.inj split
      rw [filterMap_nil, append_nil, readAs.tokens]
      exact right
    | cons first front =>
      obtain ⟨rfl, rest⟩ := cons.inj split
      have later := readAs.right front other behind rest
      rw [append_assoc] at later
      cases word : reading.asWord <;> simpa [word] using later

/-- The readings behind what a segment has already. -/
structure Segment.Gains (text : Text) (segment final : Segment) (readings : List TokenReading) :
    Prop where
  environment : final.environment = (readings.filterMap (·.asAssignment)).foldl
    (fun environment entry => environment.set entry.1 entry.2) segment.environment
  redirections : final.redirections =
    segment.redirections ++ readings.filterMap (·.asRedirection text)
  words : final.words = segment.words ++ readings.filterMap (·.asWord)

variable {segment next final : Segment} {reading : TokenReading}

theorem Segment.Gains.cons (first : segment.Gains text next [reading])
    (rest : next.Gains text final readings) : segment.Gains text final (reading :: readings) where
  environment := by
    rw [rest.environment, first.environment, ← foldl_append, ← filterMap_append, singleton_append]
  redirections := by
    rw [rest.redirections, first.redirections, append_assoc, ← filterMap_append, singleton_append]
  words := by rw [rest.words, first.words, append_assoc, ← filterMap_append, singleton_append]

/-- One step of the loop: a reading of the first tokens, in front of readings of the others. -/
theorem Segment.Gains.step (first : segment.Gains text next [reading])
    (right : reading.Right segment.words group)
    (rest : ∃ readings, ReadAs next.words group readings ∧ next.Gains text final readings) :
    ∃ readings, ReadAs segment.words (reading.tokens ++ group) readings ∧
      segment.Gains text final readings := by
  obtain ⟨readings, readAs, gains⟩ := rest
  have words : next.words = segment.words ++ reading.asWord.toList := by
    rw [first.words]
    cases word : reading.asWord <;> simp [word]
  exact ⟨reading :: readings, .cons right (words ▸ readAs), first.cons gains⟩

theorem readGroup_spec (text : Text) (group : List CommandToken) (segment : Segment) :
    ∃ readings, ReadAs segment.words group readings ∧
      segment.Gains text (readGroup text group segment) readings := by
  have done : ∀ segment : Segment, ∃ readings, ReadAs segment.words [] readings ∧
      segment.Gains text segment readings := fun segment =>
    ⟨[], ⟨rfl, fun front reading behind split => by cases front <;> cases split⟩,
      ⟨rfl, (append_nil _).symm, (append_nil _).symm⟩⟩
  have word : ∀ (segment : Segment) (token : CommandToken), segment.Gains text
      { segment with words := segment.words ++ [token] } [.word token] :=
    fun _ _ => ⟨rfl, (append_nil _).symm, rfl⟩
  have redirection : ∀ (segment : Segment) (token : CommandToken) (target : Option CommandToken),
      segment.Gains text { segment with redirections := segment.redirections ++
        [⟨token.raw, slice text token.start (target.getD token).stop, token.start,
          (target.getD token).stop, target.bind (·.value)⟩] } [.redirection token target] :=
    fun _ _ _ => ⟨rfl, rfl, (append_nil _).symm⟩
  fun_induction readGroup text group segment with
  | case1 segment => exact done segment
  | case2 token rest segment asWord leading dynamic ih =>
    exact (word segment token).step ⟨by simp [leading.1], fun _ _ => dynamic⟩ ih
  | case3 token rest segment leading assignment value ih =>
    have assigned : segment.Gains text { segment with
        environment := segment.environment.set (assignment.takeWhile (· != 0x3d))
          ((assignment.dropWhile (· != 0x3d)).drop 1) } [.assignment token] :=
      ⟨by simp [TokenReading.asAssignment, value], (append_nil _).symm, (append_nil _).symm⟩
    exact assigned.step ⟨leading.1, leading.2, by simp [value]⟩ ih
  | case4 token segment other redirects redirect =>
    exact (redirection segment token none).step ⟨redirects, by simp⟩ (done _)
  | case5 token segment other redirects redirect next behind target ih =>
    exact (redirection segment token (some next)).step ⟨redirects, target⟩ ih
  | case6 token segment other redirects redirect next behind target ih =>
    exact (redirection segment token none).step ⟨redirects, by simpa using target⟩ ih
  | case7 token rest segment asWord other plain ih =>
    exact (word segment token).step ⟨plain, fun assigns none => absurd ⟨assigns, none⟩ other⟩ ih

/-! ## What the lexer reports -/

section Covers

variable (toLowerCase : Text → Text) (text : Text) (dialect : ResolvedCommandDialect)

/-- The words of the readings are the executable and its arguments, and the other readings are the
environment and the redirections. -/
structure Holds (readings : List TokenReading) (invocation : CommandInvocationEvidence) : Prop where
  executable : invocation.executable = ((readings.filterMap (·.asWord)).head?.bind (·.value)).map
    fun value => canonicalExecutable toLowerCase value dialect
  arguments : invocation.arguments = ((readings.filterMap (·.asWord)).drop 1).map (·.value)
  environment : invocation.environment = (readings.filterMap (·.asAssignment)).foldl
    (fun environment entry => environment.set entry.1 entry.2) .empty
  redirections : invocation.redirections = readings.filterMap (·.asRedirection text)

/-- The invocation spans the tokens of its group, and holds each of them as what it is read as. -/
structure Covers (group : List CommandToken) (invocation : CommandInvocationEvidence) : Prop where
  first : (group.head?.map (·.start)) = some invocation.start
  last : (group.getLast?.map (·.stop)) = some invocation.stop
  holds : ∃ readings, ReadAs [] group readings ∧ Holds toLowerCase text dialect readings invocation

def AssignsTokens (result : CommandLexerResult) : Prop :=
  ∃ groups, Grouped result.tokens groups ∧
    Forall₂ (Covers toLowerCase text dialect) groups result.invocations

end Covers

/-- An invocation is malformed exactly if an issue about malformed syntax lies within it. -/
def AttributesIssues (result : CommandLexerResult) : Prop :=
  ∀ invocation ∈ result.invocations, invocation.state = .malformed ↔
    ∃ item ∈ result.issues, item.code = .malformedSyntax ∧
      invocation.start ≤ item.start ∧ item.stop ≤ invocation.stop

/-- The scan does not start with a token of an invocation, or finds malformed syntax in front of the
first operator. -/
def LeadingExcused (state : ScanState) : Prop :=
  (∀ token, state.tokens.head? = some token → token.kind = .operator ∨ token.start ≠ 0) ∨
    ∃ item ∈ state.issues, ∃ token ∈ leading state.tokens, Inside item token

variable {issues : List CommandLexerIssue}

theorem state_buildInvocation {toLowerCase : Text → Text} {group : List CommandToken} :
    (buildInvocation toLowerCase text dialect issues group).state = .malformed ↔
      ∃ item ∈ issues, startOf group ≤ item.start ∧ item.start ≤ stopOf group := by
  have any : (issues.any fun item => decide (startOf group ≤ item.start) &&
      decide (item.start ≤ stopOf group)) = true ↔
      ∃ item ∈ issues, startOf group ≤ item.start ∧ item.start ≤ stopOf group := by
    simp [any_eq_true, Bool.and_eq_true]
  rw [← any]
  unfold buildInvocation
  dsimp only
  change (if (issues.any fun item => decide (startOf group ≤ item.start) &&
    decide (item.start ≤ stopOf group)) = true then CommandInvocationState.malformed else _) = _ ↔ _
  split_ifs <;> simp_all

theorem covers_buildInvocation {toLowerCase : Text → Text} {group : List CommandToken}
    (some : group ≠ []) : Covers toLowerCase text dialect group
      (buildInvocation toLowerCase text dialect issues group) := by
  constructor
  · cases group with
    | nil => exact absurd rfl some
    | cons first rest => rfl
  · change group.getLast?.map (·.stop) = Option.some ((group.getLast?.map (·.stop)).getD 0)
    rw [getLast?_eq_some_getLast some]
    rfl
  · obtain ⟨readings, readAs, gains⟩ := readGroup_spec text group ⟨.empty, [], []⟩
    have words : (readGroup text group ⟨.empty, [], []⟩).words = readings.filterMap (·.asWord) :=
      gains.words
    refine ⟨readings, readAs, ?_, ?_, gains.environment, gains.redirections⟩ <;> rw [← words] <;> rfl

section Report

variable {state : ScanState} {index : Nat} {group before after : List CommandToken}
  {groups : List (List CommandToken)}

/-- An issue of the scan lies within a group exactly if it starts in its range. -/
theorem Spans.starts_iff (spans : Spans state index)
    (stands : Stands state.tokens group before after) {item : CommandLexerIssue}
    (member : item ∈ state.issues) :
    (startOf group ≤ item.start ∧ item.start ≤ stopOf group) ↔
      startOf group ≤ item.start ∧ item.stop ≤ stopOf group := by
  constructor
  · rintro ⟨starts, until_⟩
    obtain ⟨token, inGroup, inside⟩ := spans.inside stands member starts until_
    exact ⟨starts, inside.ends.trans (spans.bounds stands inGroup).2⟩
  · rintro ⟨starts, ends⟩
    obtain ⟨-, token, -, -, inside⟩ := spans.issues item member
    exact ⟨starts, inside.starts.le.trans ends⟩

/-- The issues of the scan alone attribute malformed syntax to the right groups. -/
theorem Spans.malformed_iff (spans : Spans state index)
    (stands : Stands state.tokens group before after) :
    (∃ item ∈ state.issues, startOf group ≤ item.start ∧ item.start ≤ stopOf group) ↔
      ∃ item ∈ state.issues, item.code = .malformedSyntax ∧ startOf group ≤ item.start ∧
        item.stop ≤ stopOf group := by
  constructor
  · rintro ⟨item, member, range⟩
    exact ⟨item, member, (spans.issues item member).1, (spans.starts_iff stands member).mp range⟩
  · rintro ⟨item, member, -, range⟩
    exact ⟨item, member, (spans.starts_iff stands member).mpr range⟩

/-- An issue about the whole text, counted where it starts, is attributed as it should be to all
groups but one that starts with the text and has no malformed syntax in it. -/
theorem Spans.excused_iff (spans : Spans state index) (grouped : Grouped state.tokens groups)
    {issue : CommandLexerIssue} (whole : issue.start = 0) (other : issue.code ≠ .malformedSyntax) :
    (∀ group ∈ groups,
      (∃ item ∈ state.issues ++ [issue], startOf group ≤ item.start ∧ item.start ≤ stopOf group) ↔
        ∃ item ∈ state.issues ++ [issue], item.code = .malformedSyntax ∧
          startOf group ≤ item.start ∧ item.stop ≤ stopOf group) ↔
      LeadingExcused state := by
  constructor
  · intro attributes
    by_cases starts : ∃ token, state.tokens.head? = some token ∧ token.kind ≠ .operator ∧
        token.start = 0
    · obtain ⟨token, head, plain, zero⟩ := starts
      obtain ⟨rest, tokens⟩ := head?_eq_some_iff.mp head
      have listed : leading state.tokens ∈ groups := by
        rw [tokens] at grouped ⊢
        exact grouped.leading_mem plain
      obtain ⟨before, after, stands⟩ := grouped.stands listed
      have first : startOf (leading state.tokens) = 0 := by
        have kept : leading (token :: rest) = token :: leading rest :=
          takeWhile_cons_of_pos (decide_eq_true plain)
        rw [tokens, kept]
        exact zero
      have ranged : ∃ item ∈ state.issues ++ [issue], startOf (leading state.tokens) ≤ item.start ∧
          item.start ≤ stopOf (leading state.tokens) :=
        ⟨issue, mem_append_right _ mem_cons_self, first.le.trans (Nat.zero_le _),
          whole.le.trans (Nat.zero_le _)⟩
      obtain ⟨item, member, code, starts, ends⟩ := (attributes _ listed).mp ranged
      rcases mem_append.mp member with old | new
      · have range := (spans.starts_iff stands old).mpr ⟨starts, ends⟩
        obtain ⟨inner, inGroup, inside⟩ := spans.inside stands old range.1 range.2
        exact .inr ⟨item, old, inner, inGroup, inside⟩
      · exact absurd (mem_singleton.mp new ▸ code) other
    · refine .inl fun token head => ?_
      by_contra neither
      rw [not_or, not_not] at neither
      exact starts ⟨token, head, neither⟩
  · intro excused group member
    obtain ⟨before, after, stands⟩ := grouped.stands member
    have scanned := spans.malformed_iff stands
    constructor
    · rintro ⟨item, listed, range⟩
      rcases mem_append.mp listed with old | new
      · obtain ⟨found, inScan, facts⟩ := scanned.mp ⟨item, old, range⟩
        exact ⟨found, mem_append_left _ inScan, facts⟩
      · rw [mem_singleton.mp new, whole] at range
        obtain ⟨rfl, token, head, plain, zero⟩ := spans.leads stands (Nat.le_zero.mp range.1)
        rcases excused with none | ⟨found, inScan, inner, inGroup, inside⟩
        · exact absurd (none token head) (not_or.mpr ⟨plain, not_not.mpr zero⟩)
        · have bounds := spans.bounds stands inGroup
          exact ⟨found, mem_append_left _ inScan, (spans.issues found inScan).1,
            bounds.1.trans inside.after, inside.ends.trans bounds.2⟩
    · rintro ⟨item, listed, code, range⟩
      rcases mem_append.mp listed with old | new
      · exact ⟨item, listed, (spans.starts_iff stands old).mpr range⟩
      · exact absurd (mem_singleton.mp new ▸ code) other

end Report

theorem buildInvocations_eq_ok {toLowerCase : Text → Text} {state : ScanState}
    {invocations : List CommandInvocationEvidence}
    (run : buildInvocations toLowerCase text limits state dialect = .ok invocations) :
    invocations = ((groupTokens state.tokens).filter (· ≠ [])).map
      (buildInvocation toLowerCase text dialect state.issues) := by
  obtain ⟨-, made⟩ := check_bind_eq_ok.mp run
  cases made
  rfl

section Built

variable {toLowerCase : Text → Text} {result : CommandLexerResult}
  {groups : List (List CommandToken)}

section

variable (built : result.invocations = groups.map (buildInvocation toLowerCase text dialect result.issues))

include built

theorem assignsTokens_of_built (grouped : Grouped result.tokens groups) :
    AssignsTokens toLowerCase text dialect result := by
  refine ⟨groups, grouped, ?_⟩
  rw [built, forall₂_map_right_iff, forall₂_same]
  intro group member
  obtain ⟨before, after, stands⟩ := grouped.stands member
  exact covers_buildInvocation stands.some

theorem attributesIssues_iff : AttributesIssues result ↔ ∀ group ∈ groups,
      (∃ item ∈ result.issues, startOf group ≤ item.start ∧ item.start ≤ stopOf group) ↔
        ∃ item ∈ result.issues, item.code = .malformedSyntax ∧ startOf group ≤ item.start ∧
          item.stop ≤ stopOf group := by
  unfold AttributesIssues
  rw [built, forall_mem_map]
  refine forall₂_congr fun group member => ?_
  rw [state_buildInvocation]
  exact Iff.rfl

end

end Built

/-- The lexer assigns every token of a command to one invocation, and attributes malformed syntax to
the right invocations unless it reports an ambiguous dialect: then an invocation that starts with the
text is malformed for that, whether there is malformed syntax in it or not. -/
theorem lexCommandEvidence_invocations_iff {toLowerCase : Text → Text}
    {input : CommandLexerInput} {options : CommandLexerOptions} {limits : CommandLexerLimits}
    {result : CommandLexerResult} (given : validateOptions options = .ok limits)
    (run : lexCommandEvidence toLowerCase input options = .ok result) :
    (AssignsTokens toLowerCase input.text (scanDialect input.text input.dialect) result ∧
      AttributesIssues result) ↔
      ((inferDialect input.text input.dialect).issue = none ∨
        ∀ state, scan input.text limits (scanDialect input.text input.dialect) = .ok state →
          LeadingExcused state) := by
  obtain ⟨checked, validated, run⟩ := bind_eq_ok.mp run
  rw [given, ok_bind] at run
  obtain ⟨-, run⟩ := check_bind_eq_ok.mp run
  obtain ⟨scanned, scans, run⟩ := bind_eq_ok.mp run
  obtain ⟨reported, reports, run⟩ := bind_eq_ok.mp run
  obtain ⟨invocations, builds, made⟩ := bind_eq_ok.mp run
  cases made
  obtain ⟨text, dialect⟩ : checked.text = input.text ∧ checked.dialect = input.dialect := by
    obtain ⟨-, validated⟩ := check_bind_eq_ok.mp validated
    obtain ⟨-, validated⟩ := check_bind_eq_ok.mp validated
    obtain ⟨source, -, made⟩ := bind_eq_ok.mp validated
    cases made
    exact ⟨rfl, rfl⟩
  rw [text, dialect] at scans reports
  obtain ⟨index, spans⟩ := spans_scan scans
  have tokens := (reportInference_eq_ok reports).1
  have grouped := grouped_groupTokens scanned.tokens
  have built := buildInvocations_eq_ok builds
  rw [tokens, text, dialect] at built
  refine (and_iff_right (assignsTokens_of_built built (tokens.symm ▸ grouped))).trans
    ((attributesIssues_iff built).trans ?_)
  dsimp only
  unfold reportInference at reports
  cases inferred : (inferDialect input.text input.dialect).issue with
  | none =>
    rw [inferred] at reports
    cases reports
    refine iff_of_true (fun group member => ?_) (.inl rfl)
    obtain ⟨before, after, stands⟩ := grouped.stands member
    exact spans.malformed_iff stands
  | some message =>
    rw [inferred] at reports
    obtain ⟨-, issues⟩ := issue_eq_ok reports
    rw [issues]
    refine (spans.excused_iff grouped rfl CommandIssueCode.noConfusion).trans ⟨?_, ?_⟩
    · intro excused
      refine .inr fun state ok => ?_
      rw [scans] at ok
      exact Except.ok.inj ok ▸ excused
    · rintro (none | excused)
      · cases none
      · exact excused scanned scans

/-- A command without markers, in front of which nothing stands. -/
theorem lexCommandEvidence_ambiguous :
    ∃ input result, input.dialect = .auto ∧ input.text = js "echo hi" ∧
      lexCommandEvidence id input {} = .ok result ∧
      ¬ (AssignsTokens id input.text (scanDialect input.text input.dialect) result ∧
        AttributesIssues result) := by
  let source : ConfigurationSourceLocation := ⟨js "a.md", ⟨0, 0, 0, 0⟩, ⟨0, 0, 0, 0⟩⟩
  let input : CommandLexerInput := ⟨.auto, ⟨js "caller", none, source, .caller⟩, js "echo hi"⟩
  have run : (lexCommandEvidence id input {}).map (fun result =>
      (result.invocations.map (·.state), result.issues.map (·.code))) =
        .ok ([.malformed], [.ambiguousDialect]) := by
    decide +kernel
  obtain ⟨result, accepted, facts⟩ := eq_ok_of_map run
  obtain ⟨states, codes⟩ := Prod.mk.inj facts
  refine ⟨input, result, rfl, rfl, accepted, fun both => ?_⟩
  obtain ⟨invocation, member, malformed⟩ := mem_map.mp (states ▸ mem_cons_self :
    CommandInvocationState.malformed ∈ result.invocations.map (·.state))
  obtain ⟨item, listed, code, -⟩ := (both.2 invocation member).mp malformed
  have coded := mem_map_of_mem (f := (·.code)) listed
  rw [codes, mem_singleton, code] at coded
  cases coded

/-- Two commands in a dialect that the caller names, the first with an assignment and a redirection. -/
theorem lexCommandEvidence_invocations_named :
    ∃ input options limits result, input.text = js "A=1 tool x > out; other" ∧
      validateOptions options = .ok limits ∧ lexCommandEvidence id input options = .ok result ∧
      AssignsTokens id input.text (scanDialect input.text input.dialect) result ∧
      AttributesIssues result := by
  let source : ConfigurationSourceLocation := ⟨js "a.md", ⟨0, 0, 0, 0⟩, ⟨0, 0, 0, 0⟩⟩
  let input : CommandLexerInput :=
    ⟨.posixShell, ⟨js "caller", none, source, .caller⟩, js "A=1 tool x > out; other"⟩
  have run : (lexCommandEvidence id input {}).map (fun result => result.tokens.length) = .ok 7 := by
    decide +kernel
  obtain ⟨result, accepted, -⟩ := eq_ok_of_map run
  have given : validateOptions {} = .ok commandLexerDefaultLimits := by decide
  exact ⟨input, {}, _, result, rfl, given, accepted,
    (lexCommandEvidence_invocations_iff given accepted).mpr (.inl rfl)⟩

end AgentContextLint.CommandLexer
