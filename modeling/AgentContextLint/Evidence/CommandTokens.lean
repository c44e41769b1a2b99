import AgentContextLint.Evidence.CommandWords

/-!
# Command tokens and the text

The rounds of the two loops put together: `scanWordUnits_spec` follows a word and
`scanFrom_spec` the scan. A scan that never overruns keeps what is before its index tiled; one
that does ends there, with a token that reaches out of the text.
-/

namespace AgentContextLint.CommandLexer

open Utf16 Metered List

section Rounds

variable {text : Text} {limits : CommandLexerLimits} {dialect : ResolvedCommandDialect}
  {state next : ScanState}

/-! ## Words -/

/-- The loop of `scanWord` at its head, in a word that started at `start`. -/
structure WordTo (text : Text) (state : ScanState) (start : Nat) (word : Word) : Prop where
  tokens : word.state.tokens = state.tokens
  issues : ∀ issue ∈ word.state.issues, IssueFits text issue
  parts : TilesParts text start word.parts word.literalStart
  before : word.literalStart ≤ word.index
  inside : word.index ≤ text.length

variable {start stop : Nat} {word : Word}

theorem Moved.wordTo {state : ScanState} {next : Word} (moved : Moved text word next stop)
    (word_ : WordTo text state start word) (after : word.index < stop) (within : stop ≤ text.length) :
    WordTo text state start next where
  tokens := moved.tokens.trans word_.tokens
  issues := by
    intro issue member
    rcases moved.issues issue member with old | ⟨starts, stops, -⟩
    · exact word_.issues issue old
    · exact ⟨starts ▸ word_.inside, stops ▸ within⟩
  parts := by
    rw [moved.literalStart]
    exact moved.parts start word_.parts word_.before after
  before := by rw [moved.literalStart, moved.index]
  inside := moved.index ▸ within

variable {character : CodeUnit}

/-- One round of the loop adds a part up to where it leads, or a unit to the literal text. -/
theorem scanWordUnit_eq_ok {next : Word}
    (run : scanWordUnit text limits dialect character word = .ok next) :
    Moved text word next (wordNext text limits dialect word.index character) ∨
      next = { word with index := wordNext text limits dialect word.index character } := by
  unfold scanWordUnit at run
  unfold wordNext
  split_ifs at run ⊢ with quoted escaped substitution backticked
  · exact .inl (moved_of_scanQuoted run)
  · exact .inl (moved_of_scanEscape run)
  · exact .inl (moved_of_scanCommandSubstitution run)
  · exact .inl (moved_of_scanBacktickSubstitution run)
  · cases expanded : expansionAt text word.index dialect with
    | some expansion =>
      rw [expanded] at run
      exact .inl (moved_of_scanExpansion run)
    | none =>
      rw [expanded] at run
      cases run
      exact .inr rfl

variable {fuel : Nat}

/-- What the loop of `scanWord` ends in: the end of the word, or an overrun. -/
theorem scanWordUnits_spec {state : ScanState} {final : Word}
    (enough : text.length ≤ word.index + fuel) (word_ : WordTo text state start word)
    (run : scanWordUnits text limits dialect fuel word = .ok final) :
    final.state.tokens = state.tokens ∧ word.index ≤ final.index ∧ ((WordTo text state start final ∧
          (Safe text limits dialect word.index ↔ Safe text limits dialect final.index) ∧
          ∀ character, text[final.index]? = some character →
            endsWord text final.index character = true) ∨
        (¬ Safe text limits dialect word.index ∧ text.length < final.index)) := by
  induction fuel generalizing word with
  | zero =>
    cases run
    refine ⟨word_.tokens, le_refl _, .inl ⟨word_, Iff.rfl, fun character found => ?_⟩⟩
    have inside := (List.getElem?_eq_some_iff.mp found).1
    omega
  | succ fuel ih =>
    unfold scanWordUnits at run
    cases here : text[word.index]? with
    | none =>
      rw [here] at run
      cases run
      refine ⟨word_.tokens, le_refl _, .inl ⟨word_, Iff.rfl, fun character found => ?_⟩⟩
      rw [here] at found
      cases found
    | some character =>
      rw [here] at run
      dsimp only at run
      cases ends : endsWord text word.index character with
      | true =>
        rw [if_pos ends] at run
        cases run
        refine ⟨word_.tokens, le_refl _, .inl ⟨word_, Iff.rfl, fun other found => ?_⟩⟩
        rw [here] at found
        cases found
        exact ends
      | false =>
        rw [if_neg (by rw [ends]; exact Bool.false_ne_true)] at run
        obtain ⟨next, unit, rest⟩ := bind_eq_ok.mp run
        obtain ⟨after, stays, leaves⟩ := @wordNext_spec text limits dialect _ _ here ends
        have path := @safe_iff text limits dialect _ _ here
        rw [wordNext_eq_nextIndex ends] at path
        have made := scanWordUnit_eq_ok unit
        have index : next.index = wordNext text limits dialect word.index character := by
          rcases made with moved | rfl
          · exact moved.index
          · rfl
        by_cases overruns : Overruns text dialect word.index character
        · -- the round leaves the text, and the loop ends behind it
          have past := leaves overruns
          have stuck : final = next := by
            cases fuel with
            | zero => exact (Except.ok.inj rest).symm
            | succ fuel =>
              unfold scanWordUnits at rest
              rw [getElem?_eq_none_iff.mpr (by omega)] at rest
              exact (Except.ok.inj rest).symm
          subst stuck
          refine ⟨?_, by omega, .inr ⟨fun safe => (path.mp safe).1 overruns, by omega⟩⟩
          rcases made with moved | rfl
          · exact moved.tokens.trans word_.tokens
          · exact word_.tokens
        · have within := stays overruns
          have next_ : WordTo text state start next := by
            rcases made with moved | rfl
            · exact moved.wordTo word_ after within
            · exact ⟨word_.tokens, word_.issues, word_.parts, word_.before.trans after.le, within⟩
          obtain ⟨tokens, later, outcome⟩ := ih (by omega) next_ rest
          have same : Safe text limits dialect word.index ↔ Safe text limits dialect next.index := by
            rw [path, index]
            exact ⟨fun both => both.2, fun safe => ⟨overruns, safe⟩⟩
          refine ⟨tokens, by omega, ?_⟩
          rcases outcome with ⟨final_, safe, stops⟩ | ⟨overruns, past⟩
          · exact .inl ⟨final_, same.trans safe, stops⟩
          · exact .inr ⟨fun safe => overruns (same.mp safe), past⟩

/-! ## The scan -/

/-- The scan at its head: what is before the index is tiled. -/
structure ScannedTo (text : Text) (state : ScanState) (index : Nat) : Prop where
  ordered : state.tokens.Pairwise fun first second => first.stop ≤ second.start
  fits : ∀ token ∈ state.tokens, TokenFits text token
  before : ∀ token ∈ state.tokens, token.stop ≤ index
  gaps : ∀ position character, position < index → text[position]? = some character →
    Uncovered state.tokens position → isSpace character = true
  issues : ∀ issue ∈ state.issues, IssueFits text issue

/-- A token at the index moves the scan to its end. -/
theorem ScannedTo.push {token : CommandToken} (scanned : ScannedTo text state token.start)
    (fits : TokenFits text token) (issues : ∀ issue ∈ next.issues, IssueFits text issue)
    (tokens : next.tokens = state.tokens ++ [token]) : ScannedTo text next token.stop where
  ordered := by
    rw [tokens, pairwise_append]
    refine ⟨scanned.ordered, pairwise_singleton _ _, fun first member second last => ?_⟩
    rw [mem_singleton.mp last]
    exact scanned.before first member
  fits := by
    intro other member
    rw [tokens, mem_append, mem_singleton] at member
    rcases member with old | rfl
    · exact scanned.fits other old
    · exact fits
  before := by
    intro other member
    rw [tokens, mem_append, mem_singleton] at member
    rcases member with old | rfl
    · exact (scanned.before other old).trans fits.nonempty.le
    · exact le_refl _
  gaps := by
    intro position character earlier found uncovered
    rw [tokens] at uncovered
    rcases Nat.lt_or_ge position token.start with first | later
    · refine scanned.gaps position character first found fun other member => ?_
      exact uncovered other (mem_append_left _ member)
    · exact absurd ⟨later, earlier⟩
        (uncovered token (mem_append_right _ mem_cons_self))
  issues := issues

variable {index : Nat}

theorem ScannedTo.space {state : ScanState} (scanned : ScannedTo text state index)
    (here : text[index]? = some character) (space : isSpace character = true) :
    ScannedTo text state (index + 1) where
  ordered := scanned.ordered
  fits := scanned.fits
  before := fun token member => (scanned.before token member).trans (Nat.le_succ _)
  gaps := by
    intro position other earlier found uncovered
    rcases Nat.lt_or_eq_of_le (Nat.le_of_lt_succ earlier) with first | rfl
    · exact scanned.gaps position other first found uncovered
    · rw [here] at found
      cases found
      exact space
  issues := scanned.issues

theorem length_slice (inside : stop ≤ text.length) :
    (slice text start stop).length = stop - start := by
  rw [slice, length_drop, length_take, Nat.min_eq_left inside]

/-- A redirection or an operator moves the scan behind it. -/
theorem ScannedTo.mark {kind : CommandTokenKind} {raw : Text} (scanned : ScannedTo text state index)
    (other : ¬ (kind = .word ∨ kind = .environmentAssignment))
    (bounds : 0 < raw.length ∧ index + raw.length ≤ text.length ∧ raw = slice text index (index + raw.length))
    (run : pushToken limits state ⟨kind, [], raw, index, index + raw.length, some raw⟩ = .ok next) :
    ScannedTo text next (index + raw.length) := by
  obtain ⟨issues, tokens⟩ := pushToken_eq_ok run
  obtain ⟨positive, inside, spells⟩ := bounds
  refine scanned.push ⟨?_, inside, spells, ?_, fun word => absurd word other⟩ ?_ tokens
  · exact Nat.lt_add_of_pos_right positive
  · exact (Nat.add_sub_cancel_left ..).symm
  · rw [issues]
    exact scanned.issues

/-- A word moves the scan behind it, unless it overruns the text. -/
theorem scanWord_spec (scanned : ScannedTo text state start) (here : text[start]? = some character)
    (goesOn : endsWord text start character = false)
    (run : scanWord text limits dialect state start = .ok (stop, next)) :
    (ScannedTo text next stop ∧ start < stop ∧ stop ≤ text.length ∧
        (Safe text limits dialect start ↔ Safe text limits dialect stop)) ∨
      (¬ Safe text limits dialect start ∧ text.length < stop ∧
        ∃ token ∈ next.tokens, text.length < token.stop) := by
  have inside := (List.getElem?_eq_some_iff.mp here).1
  obtain ⟨word, units, run⟩ := bind_eq_ok.mp run
  obtain ⟨final, flush, run⟩ := bind_eq_ok.mp run
  obtain ⟨pushed, pushes, made⟩ := bind_eq_ok.mp run
  cases made
  have begins : WordTo text state start ⟨state, [], start, start⟩ :=
    ⟨rfl, scanned.issues, rfl, le_refl _, inside.le⟩
  obtain ⟨wordTokens, later, outcome⟩ := scanWordUnits_spec (Nat.le_add_left ..) begins units
  have flushed := flushed_of_flushLiteral flush
  obtain ⟨issues, tokens⟩ := pushToken_eq_ok pushes
  rw [flushed.index] at tokens ⊢
  rcases outcome with ⟨word_, safe, stops⟩ | ⟨overruns, past⟩
  · have moved : start < word.index := by
      refine Nat.lt_of_le_of_ne later fun same => ?_
      have same : start = word.index := same
      rw [same] at here goesOn
      rw [stops character here] at goesOn
      cases goesOn
    refine .inl ⟨?_, moved, word_.inside, safe⟩
    rw [flushed.tokens, word_.tokens] at tokens
    refine scanned.push ⟨moved, word_.inside, rfl, length_slice word_.inside, fun _ => ?_⟩ ?_ tokens
    · exact flushed.parts start word_.parts word_.before
    · rw [issues, flushed.issues]
      exact word_.issues
  · rw [tokens]
    exact .inr ⟨overruns, past, _, mem_append_right _ mem_cons_self, past⟩

/-- The scan tiles the text exactly when it never overruns. -/
theorem scanFrom_spec {state final : ScanState} (enough : text.length ≤ index + fuel)
    (inside : index ≤ text.length) (scanned : ScannedTo text state index)
    (run : scanFrom text limits dialect fuel state index = .ok final) :
    (Safe text limits dialect index ∧ ScannedTo text final text.length) ∨
      (¬ Safe text limits dialect index ∧ ∃ token ∈ final.tokens, text.length < token.stop) := by
  induction fuel generalizing index state with
  | zero =>
    cases run
    have atEnd : index = text.length := by omega
    subst atEnd
    exact .inl ⟨safe_of_end (getElem?_eq_none_iff.mpr (le_refl _)), scanned⟩
  | succ fuel ih =>
    unfold scanFrom at run
    cases here : text[index]? with
    | none =>
      rw [here] at run
      cases run
      have atEnd : index = text.length := by
        have past := getElem?_eq_none_iff.mp here
        omega
      subst atEnd
      exact .inl ⟨safe_of_end here, scanned⟩
    | some character =>
      rw [here] at run
      dsimp only at run
      have within := (List.getElem?_eq_some_iff.mp here).1
      have path := @safe_iff text limits dialect _ _ here
      -- a round of the scan itself ends a word, so it opens nothing
      have step : ∀ {next : Nat} {state' : ScanState}, endsWord text index character = true →
          nextIndex text limits dialect index character = next →
          index < next → next ≤ text.length → ScannedTo text state' next →
          scanFrom text limits dialect fuel state' next = .ok final →
          (Safe text limits dialect index ∧ ScannedTo text final text.length) ∨
            (¬ Safe text limits dialect index ∧ ∃ token ∈ final.tokens, text.length < token.stop) := by
        intro next state' ends leads after stays scanned' rest
        have opens : ¬ Overruns text dialect index character := by
          rintro ⟨goesOn, -⟩
          rw [ends] at goesOn
          cases goesOn
        have same : Safe text limits dialect index ↔ Safe text limits dialect next := by
          rw [path, leads]
          exact ⟨fun both => both.2, fun safe => ⟨opens, safe⟩⟩
        rw [same]
        exact ih (by omega) stays scanned' rest
      cases space : isSpace character with
      | true =>
        rw [if_pos space] at run
        refine step ?_ ?_ (Nat.lt_succ_self _) within (scanned.space here space) run
        · rw [endsWord, space]
          rfl
        · rw [nextIndex, if_pos space]
      | false =>
        rw [if_neg (by rw [space]; exact Bool.false_ne_true)] at run
        cases redirected : redirectionAt text index with
        | some raw =>
          rw [redirected] at run
          obtain ⟨pushed, pushes, rest⟩ := bind_eq_ok.mp run
          have bounds := inside_of_redirectionAt redirected
          refine step ?_ ?_ (by omega) bounds.2.1 (scanned.mark (by decide) bounds pushes) rest
          · rw [endsWord, redirected, Option.isSome_some, Bool.or_true]
          · rw [nextIndex, space, redirected]
            rfl
        | none =>
          cases operated : operatorAt text index with
          | some raw =>
            rw [redirected, operated] at run
            obtain ⟨pushed, pushes, rest⟩ := bind_eq_ok.mp run
            have bounds := inside_of_operatorAt operated
            refine step ?_ ?_ (by omega) bounds.2.1 (scanned.mark (by decide) bounds pushes) rest
            · rw [endsWord, operated, Option.isSome_some, Bool.or_true, Bool.true_or]
            · rw [nextIndex, space, redirected, operated]
              rfl
          | none =>
            rw [redirected, operated] at run
            obtain ⟨⟨stop, next⟩, word, rest⟩ := bind_eq_ok.mp run
            have goesOn : endsWord text index character = false := by
              rw [endsWord, space, operated, redirected]
              rfl
            rcases scanWord_spec scanned here goesOn word with
              ⟨scanned', after, stays, same⟩ | ⟨overruns, past, token, member, outside⟩
            · rw [same]
              exact ih (by omega) stays scanned' rest
            · have stuck : final = next := by
                cases fuel with
                | zero => exact (Except.ok.inj rest).symm
                | succ fuel =>
                  dsimp only at rest
                  unfold scanFrom at rest
                  rw [getElem?_eq_none_iff.mpr (by omega)] at rest
                  exact (Except.ok.inj rest).symm
              subst stuck
              exact .inr ⟨overruns, token, member, outside⟩

theorem reportInference_eq_ok {inference : DialectInference}
    (run : reportInference limits text state inference = .ok next) :
    next.tokens = state.tokens ∧
      ∀ issue ∈ next.issues, issue ∈ state.issues ∨ IssueFits text issue := by
  unfold reportInference at run
  cases inferred : inference.issue with
  | none =>
    rw [inferred] at run
    cases run
    exact ⟨rfl, fun issue member => .inl member⟩
  | some message =>
    rw [inferred] at run
    obtain ⟨tokens, issues⟩ := issue_eq_ok run
    refine ⟨tokens, fun issue member => ?_⟩
    rw [issues, mem_append, mem_singleton] at member
    rcases member with old | rfl
    · exact .inl old
    · exact .inr ⟨Nat.zero_le _, le_refl _⟩

end Rounds

/-! ## The lexer -/

/-- The tokens of an accepted text tile it exactly when no part that a word of it opens ends in an
escape mark at the end of the text. -/
theorem lexCommandEvidence_tilesText_iff {toLowerCase : Text → Text}
    {input : CommandLexerInput} {options : CommandLexerOptions} {limits : CommandLexerLimits}
    {result : CommandLexerResult} (given : validateOptions options = .ok limits)
    (run : lexCommandEvidence toLowerCase input options = .ok result) :
    TilesText input.text result.tokens result.issues ↔
      Safe input.text limits (scanDialect input.text input.dialect) 0 := by
  obtain ⟨checked, validated, run⟩ := bind_eq_ok.mp run
  rw [given, ok_bind] at run
  obtain ⟨-, run⟩ := check_bind_eq_ok.mp run
  obtain ⟨scanned, scans, run⟩ := bind_eq_ok.mp run
  obtain ⟨reported, reports, run⟩ := bind_eq_ok.mp run
  obtain ⟨invocations, -, made⟩ := bind_eq_ok.mp run
  cases made
  obtain ⟨text, dialect⟩ : checked.text = input.text ∧ checked.dialect = input.dialect := by
    obtain ⟨-, validated⟩ := check_bind_eq_ok.mp validated
    obtain ⟨-, validated⟩ := check_bind_eq_ok.mp validated
    obtain ⟨source, -, made⟩ := bind_eq_ok.mp validated
    cases made
    exact ⟨rfl, rfl⟩
  rw [text, dialect] at scans
  rw [text] at reports
  have begins : ScannedTo input.text ⟨[], [], 0⟩ 0 :=
    ⟨Pairwise.nil, fun _ member => (by cases member), fun _ member => (by cases member),
      fun _ _ earlier => absurd earlier (Nat.not_lt_zero _), fun _ member => (by cases member)⟩
  obtain ⟨tokens, issues⟩ := reportInference_eq_ok reports
  show TilesText input.text reported.tokens reported.issues ↔ _
  rw [tokens]
  rcases scanFrom_spec (Nat.le_add_left ..) (Nat.zero_le _) begins scans with
    ⟨safe, final⟩ | ⟨overruns, token, member, outside⟩
  · refine iff_of_true ⟨final.ordered, final.fits, ?_, ?_⟩ safe
    · intro index character found
      exact final.gaps index character (List.getElem?_eq_some_iff.mp found).1 found
    · intro issue member
      rcases issues issue member with old | fits
      · exact final.issues issue old
      · exact fits
  · refine iff_of_false (fun tiles => ?_) overruns
    exact absurd (tiles.fits token member).within (Nat.not_le_of_lt outside)

/-- A quoted word and a plain one. -/
theorem lexCommandEvidence_tilesText_quoted :
    ∃ input options limits result, input.text = js "'a' b" ∧
      validateOptions options = .ok limits ∧ lexCommandEvidence id input options = .ok result ∧
      (TilesText input.text result.tokens result.issues ↔
        Safe input.text limits (scanDialect input.text input.dialect) 0) := by
  let source : ConfigurationSourceLocation := ⟨js "a.md", ⟨0, 0, 0, 0⟩, ⟨0, 0, 0, 0⟩⟩
  let input : CommandLexerInput := ⟨.posixShell, ⟨js "caller", none, source, .caller⟩, js "'a' b"⟩
  have run : (lexCommandEvidence id input {}).map (fun result => result.tokens.length) = .ok 2 := by
    decide +kernel
  obtain ⟨result, accepted, -⟩ := eq_ok_of_map run
  have given : validateOptions {} = .ok commandLexerDefaultLimits := by decide
  exact ⟨input, {}, _, result, rfl, given, accepted,
    lexCommandEvidence_tilesText_iff given accepted⟩

/-- A quoted part that ends in an escape mark reaches one unit out of the text. -/
theorem lexCommandEvidence_past_text :
    ∃ input result, input.dialect = .posixShell ∧ input.text = [doubleQuote, backslash] ∧
      lexCommandEvidence id input {} = .ok result ∧
      ¬ TilesText input.text result.tokens result.issues := by
  let source : ConfigurationSourceLocation := ⟨js "a.md", ⟨0, 0, 0, 0⟩, ⟨0, 0, 0, 0⟩⟩
  let input : CommandLexerInput :=
    ⟨.posixShell, ⟨js "caller", none, source, .caller⟩, [doubleQuote, backslash]⟩
  have run : (lexCommandEvidence id input {}).map (fun result => result.tokens.map (·.stop)) =
      .ok [3] := by decide +kernel
  obtain ⟨result, accepted, stops⟩ := eq_ok_of_map run
  refine ⟨input, result, rfl, rfl, accepted, fun tiles => ?_⟩
  obtain ⟨token, member, reaches⟩ := mem_map.mp (stops ▸ mem_cons_self :
    3 ∈ result.tokens.map (·.stop))
  have within : token.stop ≤ 2 := (tiles.fits token member).within
  omega

end AgentContextLint.CommandLexer
