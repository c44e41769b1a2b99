import AgentContextLint.Evidence.PathResolution

/-!
# What one round of the resolution does

A call of the platform returns what the tree says or stops (`yields_call`), and the lexical
reading of a target over text is the one over bytes (`map_resolveSegments`). So a round either
walks past a segment that is not a link, or puts the normalized target in front of the segments
still pending (`resolveSegment_cases`). The measure of the loop falls with every round
(`Walk.measure_lt`).
-/

namespace AgentContextLint.ReadOnlyFacade

open Utf16 Utf8 PosixTree StatefulRuns List RepositoryPath

variable {ν : Type} {host : Host ν} {facade : Facade}

variable {text : Text} {failed : Option String → Stop} {resolved : List Text}
  {target : AbsolutePath} {pathValue : Option RelativePath}

/-! ## Calls -/

theorem yields_settle {α : Type} {outcome : Except (Option String) α} {a : α}
    (ran : Yields (settle host failed outcome) a) : outcome = .ok a := by
  rcases ran with ⟨start, finish, ran⟩
  unfold settle at ran
  split at ran
  · cases ran
  · cases ran
  · cases ran
    rfl

theorem yields_awaitBounded {α : Type} {outcome : Except (Option String) α} {a : α}
    (ran : Yields (awaitBounded host failed outcome) a) : outcome = .ok a := by
  rcases yields_of_bind ran with ⟨_, ran⟩
  rcases yields_of_bind ran with ⟨_, ran⟩
  rcases yields_bind ran with ⟨value, settled, ran⟩
  rcases yields_of_bind ran with ⟨_, ran⟩
  rw [← yields_pure ran]
  exact yields_settle settled

/-- A call returns what the platform says. -/
theorem yields_call {α : Type} {outcome : Except (Option String) α} {a : α}
    (ran : Yields (call host facade pathValue failed outcome) a) : outcome = .ok a := by
  rcases yields_of_bind ran with ⟨_, ran⟩
  exact yields_awaitBounded ran

theorem outcome_eq_ok {α : Type} {found : Option α} {a : α}
    (ok : host.outcome target found = .ok a) : found = some a := by
  cases found with
  | none => cases ok
  | some b => exact congrArg some (Except.ok.inj ok)

theorem yields_lstat {stats : BigIntStats} (ran : Yields (lstat host facade target pathValue) stats)
    : ∃ y, host.entry target = some y ∧ host.statsOf y = stats :=
  Option.map_eq_some_iff.mp (outcome_eq_ok (yields_call ran))

theorem linkTarget_eq_some {kind : Kind} {target : List UInt8} :
    linkTarget kind = some target ↔ kind = .link target := by
  cases kind <;> simp [linkTarget]

theorem yields_readlink {candidate : AbsolutePath} {path : RelativePath}
    {linkValue : Text} (ran : Yields (readlink host facade candidate path) linkValue) :
    ∃ y target, host.entry candidate = some y ∧ host.tree.kind y = .link target ∧
      decodeLossy target = linkValue := by
  rcases Option.bind_eq_some_iff.mp (outcome_eq_ok (yields_call ran)) with ⟨y, found, read⟩
  rcases Option.map_eq_some_iff.mp read with ⟨target, link, value⟩
  exact ⟨y, target, found, linkTarget_eq_some.mp link, value⟩

theorem statsOf_symbolicLink {y : ν} :
    (host.statsOf y).type = .symbolicLink ↔ ∃ target, host.tree.kind y = .link target := by
  unfold Host.statsOf
  cases host.tree.kind y <;> simp [statsType]

theorem statsOf_directory {y : ν} :
    (host.statsOf y).type = .directory ↔ host.tree.kind y = .directory := by
  unfold Host.statsOf
  cases host.tree.kind y <;> simp [statsType]

theorem statsOf_file {y : ν} : (host.statsOf y).type = .file ↔ host.tree.kind y = .file := by
  unfold Host.statsOf
  cases host.tree.kind y <;> simp [statsType]

/-- The last segment of a candidate is looked up in a directory. -/
theorem entry_append {front : AbsolutePath} {segment : Text} {y : ν}
    (found : host.entry (front ++ [segment]) = some y) :
    ∃ d, Reaches host.tree host.tree.top (front.map encode) d ∧
      host.tree.lookup d (encode segment) = some y := by
  unfold Host.entry at found
  rw [map_append, map_singleton] at found
  exact FileTree.entry_append found

/-- A node that is not a link is where its path leads. -/
theorem reaches_of_entry {y : ν} (found : host.entry target = some y)
    (plain : ∀ link, host.tree.kind y ≠ .link link) :
    Reaches host.tree host.tree.top (target.map encode) y := by
  rcases eq_nil_or_concat' target with rfl | ⟨front, segment, rfl⟩
  · cases found
    exact .here _
  · rcases entry_append found with ⟨d, toDirectory, lookup⟩
    rw [map_append, map_singleton]
    exact toDirectory.snoc lookup plain

/-! ## Texts and bytes -/

theorem encode_eq_iff {segment : Text} (ok : wellFormed segment = true) (text : Text)
    (plain : wellFormed text = true) : encode segment = encode text ↔ segment = text :=
  ⟨encode_injective ok plain, congrArg encode⟩

/-- The lexical reading of segments is the one of their bytes. -/
theorem map_resolveSegments {found segments : List Text}
    (ok : ∀ segment ∈ segments, wellFormed segment = true) :
    (resolveSegments found segments).map encode =
      lexical (found.map encode) (segments.map encode) := by
  induction segments generalizing found with
  | nil => rfl
  | cons segment rest ih =>
    have here := ok segment mem_cons_self
    have later : ∀ found, (resolveSegments found rest).map encode =
        lexical (found.map encode) (rest.map encode) := fun _ =>
      ih fun segment member => ok segment (mem_cons_of_mem _ member)
    have stays : Stays (encode segment) ↔ segment = [] ∨ segment = js "." :=
      or_congr (encode_eq_iff here [] rfl)
        (encode_eq_iff here (js ".") (by decide))
    have up : encode segment = dotDot ↔ segment = js ".." :=
      encode_eq_iff here (js "..") (by decide)
    rw [map_cons, lexical, resolveSegments]
    simp only [stays, up]
    split_ifs
    · exact later found
    · rw [later, map_dropLast]
    · rw [later, map_append, map_singleton]

theorem wellFormed_pathSegments (ok : wellFormed text = true) :
    ∀ segment ∈ pathSegments text, wellFormed segment = true := by
  have plain : ∀ u : CodeUnit, (u == 0x2f) = true → isSurrogate u = false := by
    intro u slash
    rw [beq_iff_eq.mp slash]
    decide
  rw [wellFormed_eq_all_splitOnP plain, all_eq_true] at ok
  unfold pathSegments
  rw [splitOn_eq_splitOnP]
  exact ok

theorem map_pathSegments (ok : wellFormed text = true) :
    (pathSegments text).map encode = segments (encode text) :=
  (splitOn_encode ok (u := 0x2f) (by decide)).symm

theorem singleton_prefix_iff {α : Type} {a : α} {as : List α} : [a] <+: as ↔ as.head? = some a := by
  cases as with
  | nil => simp
  | cons b bs => simp [cons_prefix_cons, eq_comm]

theorem isAbsolute_iff (ok : wellFormed text = true) :
    isAbsolute text ↔ (encode text).head? = some slash := by
  have singles : encode [0x2f] = [slash] := rfl
  have prefixes := encode_prefix_iff (s := [0x2f]) rfl ok
  rw [singles, singleton_prefix_iff, singleton_prefix_iff] at prefixes
  exact prefixes.symm

def lexicalBase (directory : AbsolutePath) (target : List UInt8) : List Name :=
  if target.head? = some slash then [] else directory.map encode

theorem map_targetOf {directory target : AbsolutePath}
    (ok : wellFormed text = true) (read : targetOf directory text = some target) :
    target.map encode = lexical (lexicalBase directory (encode text)) (segments (encode text)) := by
  have reading : ∀ found, (resolveSegments found (pathSegments text)).map encode =
      lexical (found.map encode) (segments (encode text)) := by
    intro found
    rw [map_resolveSegments (wellFormed_pathSegments ok), map_pathSegments ok]
  unfold targetOf at read
  unfold lexicalBase
  by_cases absolute : isAbsolute text
  · rw [if_pos absolute] at read
    rw [if_pos ((isAbsolute_iff ok).mp absolute)]
    unfold normalizeRepositorySelectionPath at read
    split_ifs at read
    cases read
    exact reading []
  · rw [if_neg absolute] at read
    rw [if_neg (mt (isAbsolute_iff ok).mpr absolute)]
    cases read
    exact reading directory

/-! ## Names -/

theorem slashless_of_mem_pathSegments {text segment : Text}
    (member : segment ∈ pathSegments text) : (0x2f : CodeUnit) ∉ segment := by
  intro slash
  unfold pathSegments at member
  rw [splitOn_eq_splitOnP] at member
  have apart := (mem_piece_of_splitOnP member slash).2
  rw [beq_self_eq_true] at apart
  cases apart

theorem named_resolveSegments {found segments : List Text}
    (named : ∀ segment ∈ found, Named segment)
    (slashless : ∀ segment ∈ segments, (0x2f : CodeUnit) ∉ segment) :
    ∀ segment ∈ resolveSegments found segments, Named segment := by
  induction segments generalizing found with
  | nil => exact named
  | cons first rest ih =>
    have later : ∀ segment ∈ rest, (0x2f : CodeUnit) ∉ segment :=
      fun segment member => slashless segment (mem_cons_of_mem _ member)
    rw [resolveSegments]
    split_ifs with stays
    · exact ih named later
    · exact ih (fun segment member => named segment (dropLast_subset _ member)) later
    · refine ih (fun segment member => ?_) later
      rcases List.mem_append.mp member with inFound | last
      · exact named segment inFound
      · cases List.mem_singleton.mp last
        exact ⟨fun nil => stays (.inl nil), fun dot => stays (.inr dot),
          slashless first mem_cons_self⟩

theorem named_targetOf {directory target : AbsolutePath}
    (named : ∀ segment ∈ directory, Named segment) (read : targetOf directory text = some target) :
    ∀ segment ∈ target, Named segment := by
  unfold targetOf at read
  split_ifs at read
  · unfold normalizeRepositorySelectionPath at read
    split_ifs at read
    cases read
    exact named_resolveSegments (forall_mem_nil _) fun _ => slashless_of_mem_pathSegments
  · cases read
    exact named_resolveSegments named fun _ => slashless_of_mem_pathSegments

section

variable (named : ∀ segment ∈ resolved, Named segment)

include named

theorem pathSegments_joinSegments (nonempty : resolved ≠ []) :
    pathSegments (joinSegments resolved) = resolved :=
  splitOn_intercalate 0x2f (fun segment member => (named segment member).slashless) nonempty

theorem keptSegments_joinSegments (nonempty : resolved ≠ []) :
    keptSegments .posix (joinSegments resolved) = resolved := by
  have split : (joinSegments resolved).splitOnP
      (isSegmentSeparator .posix) = resolved := by
    rw [← pathSegments_joinSegments named nonempty, joinSegments_pathSegments,
      pathSegments, splitOn_eq_splitOnP]
    rfl
  rw [keptSegments_eq, split, filter_eq_self]
  intro segment member
  exact decide_eq_true ⟨(named segment member).ne_nil, (named segment member).ne_dot⟩

theorem absolutePathOf_eq_some {absolutePath : AbsolutePath}
    (made : absolutePathOf facade resolved = some absolutePath) :
    absolutePath = facade.root ++ resolved := by
  unfold absolutePathOf at made
  cases canonical : canonicalizeRepositoryRelativePath
      (joinSegments resolved) .posix with
  | error e => rw [canonical] at made; cases made
  | ok relativePath =>
    rw [canonical] at made
    dsimp only at made
    have result := (canonicalize_eq_ok.mp canonical).2
    by_cases empty : resolved = []
    · have root : relativePath = repositoryRoot := by
        rw [result, empty]
        rfl
      rw [if_pos root] at made
      split_ifs at made
      cases made
      rw [empty, append_nil]
    · rw [keptSegments_joinSegments named empty, if_neg empty] at result
      have segments := pathSegments_joinSegments named empty
      rw [← result] at segments
      have notRoot : relativePath ≠ repositoryRoot := by
        intro root
        have dot : js "." ∈ resolved := by
          rw [← segments, root]
          exact mem_singleton_self _
        exact (named _ dot).ne_dot rfl
      rw [if_neg notRoot, segments] at made
      split_ifs at made
      cases made
      rfl

end

/-! ## Rounds -/

variable (host facade)

/-- What a round makes of the state: it walks past a segment, or goes on with the lexical target
of a link, which is behind the root. -/
inductive Round (walk : Walk) (segment : Text) (rest : List Text) : Walk → Prop
  | pass {y : ν} : host.entry (facade.root ++ walk.resolved ++ [segment]) = some y →
      (∀ link, host.tree.kind y ≠ .link link) →
      Round walk segment rest {
        pending := rest
        resolved := walk.resolved ++ [segment]
        linkDepth := walk.linkDepth
        observations := walk.observations ++
          [⟨facade.root ++ walk.resolved ++ [segment], host.statsOf y⟩]
        visited := walk.visited }
  | follow {y : ν} {link : List UInt8} {behind : List Text}
      {visited : List (AbsolutePath × Nat × Nat)} :
      host.entry (facade.root ++ walk.resolved ++ [segment]) = some y →
      host.tree.kind y = .link link → walk.linkDepth + 1 ≤ facade.limits.maximumSymlinkDepth →
      targetOf (facade.root ++ walk.resolved) (decodeLossy link) =
        some (facade.root ++ behind) →
      Round walk segment rest {
        pending := behind ++ rest
        resolved := []
        linkDepth := walk.linkDepth + 1
        observations := walk.observations ++
          [⟨facade.root ++ walk.resolved ++ [segment], host.statsOf y⟩]
        visited := visited }

variable {host facade}

variable {path : RelativePath} {pathValue : Option RelativePath} {walk walk' : Walk}

theorem targetOf_of_followLink {candidate : AbsolutePath} {stats : BigIntStats}
    (ran : Yields (followLink host facade path candidate stats walk) walk') :
    ∃ y link behind, host.entry candidate = some y ∧ host.tree.kind y = .link link ∧
      walk.linkDepth + 1 ≤ facade.limits.maximumSymlinkDepth ∧
      targetOf candidate.dropLast (decodeLossy link) = some (facade.root ++ behind) ∧
      walk' = {
        pending := behind ++ walk.pending
        resolved := []
        linkDepth := walk.linkDepth + 1
        observations := walk.observations
        visited := linkKey candidate stats :: walk.visited } := by
  rcases yields_stopIf_bind ran with ⟨shallow, ran⟩
  rcases yields_stopIf_bind ran with ⟨_, ran⟩
  rcases yields_bind ran with ⟨linkValue, read, ran⟩
  rcases yields_stopIf_bind ran with ⟨_, ran⟩
  rcases yields_of_bind ran with ⟨linkFinal, ran⟩
  rcases yields_stopIf_bind ran with ⟨_, ran⟩
  rcases yields_readlink read with ⟨y, link, found, kind, rfl⟩
  cases made : targetOf candidate.dropLast (decodeLossy link) with
  | none =>
    rw [made] at ran
    exact (not_yields_stop ran).elim
  | some target =>
    rw [made] at ran
    rcases yields_stopIf_bind ran with ⟨inside, ran⟩
    rcases not_not.mp inside with ⟨behind, rfl⟩
    have result := yields_pure ran
    rw [drop_left] at result
    exact ⟨y, link, behind, found, kind, Nat.not_lt.mp shallow, made, result.symm⟩

theorem resolveSegment_round {segment : Text} {rest : List Text}
    (ran : Yields (resolveSegment host facade path walk segment rest) walk') :
    walk.resolved.length + (rest.length + 1) ≤ facade.limits.maximumTraversalDepth ∧
      Round host facade walk segment rest walk' := by
  rcases yields_of_bind ran with ⟨_, ran⟩
  rcases yields_stopIf_bind ran with ⟨shallow, ran⟩
  rcases yields_bind ran with ⟨stats, observed, ran⟩
  rcases yields_lstat observed with ⟨y, found, rfl⟩
  refine ⟨Nat.not_lt.mp shallow, ?_⟩
  split_ifs at ran with isLink
  · rcases targetOf_of_followLink ran with ⟨y', link, behind, found', kind, shallow, made, rfl⟩
    cases found.symm.trans found'
    rw [dropLast_concat] at made
    exact .follow found kind shallow made
  · rcases yields_stopIf_bind ran with ⟨_, ran⟩
    cases yields_pure ran
    exact .pass found fun link kind => isLink (statsOf_symbolicLink.mpr ⟨link, kind⟩)

/-! ## Termination -/

/-- The rounds that a state still has. -/
def Walk.measure (limits : Limits) (walk : Walk) : Nat :=
  (limits.maximumSymlinkDepth - walk.linkDepth) * (limits.maximumTraversalDepth + 1) +
    min walk.pending.length (limits.maximumTraversalDepth + 1)

theorem Walk.measure_lt {segment : Text} {rest : List Text}
    (pending : walk.pending = segment :: rest)
    (shallow : walk.resolved.length + (rest.length + 1) ≤ facade.limits.maximumTraversalDepth)
    (round : Round host facade walk segment rest walk') :
    walk'.measure facade.limits < walk.measure facade.limits := by
  unfold Walk.measure
  rw [pending, length_cons]
  cases round with
  | pass found plain =>
    dsimp only
    omega
  | @follow y link behind visited found kind within made =>
    dsimp only
    have left : facade.limits.maximumSymlinkDepth - walk.linkDepth =
        facade.limits.maximumSymlinkDepth - (walk.linkDepth + 1) + 1 := by omega
    rw [left, Nat.succ_mul]
    omega

theorem avoids_checkpoint : Avoids (checkpoint host) .outOfFuel := by
  intro usage error
  unfold checkpoint at error
  split at error <;> cases error

theorem avoids_failure {condition : Prop} [Decidable condition]
    {code : ReadOnlyRepositoryErrorCode} {message operation : String} {causeCode : Option String} :
    Avoids (stopIf condition (failure code message operation pathValue causeCode) : Operation Unit)
      .outOfFuel :=
  avoids_stopIf Stop.noConfusion

theorem avoids_call {α : Type} {failed : Option String → Stop}
    (honest : ∀ cause, failed cause ≠ .outOfFuel) (outcome : Except (Option String) α) :
    Avoids (call host facade pathValue failed outcome) .outOfFuel := by
  have settles : Avoids (settle host failed outcome) .outOfFuel := by
    intro usage error
    unfold settle at error
    split at error
    · exact honest _ (Except.error.inj error)
    · exact honest _ (Except.error.inj error)
    · cases error
  have counts : Avoids (countOperation host facade pathValue) .outOfFuel := by
    apply avoids_bind avoids_checkpoint
    intro _ _
    apply avoids_bind fun _ error => by cases error
    intro _ _
    apply avoids_bind fun _ error => by cases error
    exact fun _ _ => avoids_failure
  apply avoids_bind counts
  intro _ _
  apply avoids_bind avoids_checkpoint
  intro _ _
  apply avoids_bind avoids_checkpoint
  intro _ _
  apply avoids_bind settles
  intro value _
  apply avoids_bind avoids_checkpoint
  exact fun _ _ => avoids_pure value _

theorem avoids_lstat (target : AbsolutePath) (pathValue : Option RelativePath) :
    Avoids (lstat host facade target pathValue) .outOfFuel :=
  avoids_call (fun _ => Stop.noConfusion) _

theorem avoids_followLink (path : RelativePath) (candidate : AbsolutePath) (stats : BigIntStats)
    (walk : Walk) : Avoids (followLink host facade path candidate stats walk) .outOfFuel := by
  apply avoids_bind avoids_failure
  intro _ _
  apply avoids_bind avoids_failure
  intro _ _
  apply avoids_bind (avoids_call (fun _ => Stop.noConfusion) _)
  intro linkValue _
  apply avoids_bind avoids_failure
  intro _ _
  apply avoids_bind (avoids_lstat _ _)
  intro linkFinal _
  apply avoids_bind avoids_failure
  intro _ _
  split
  · exact avoids_stop Stop.noConfusion
  · apply avoids_bind avoids_failure
    exact fun _ _ => avoids_pure _ _

theorem avoids_resolveSegment (path : RelativePath) (walk : Walk) (segment : Text)
    (rest : List Text) : Avoids (resolveSegment host facade path walk segment rest) .outOfFuel := by
  apply avoids_bind avoids_checkpoint
  intro _ _
  apply avoids_bind avoids_failure
  intro _ _
  apply avoids_bind (avoids_lstat _ _)
  intro stats _
  split_ifs
  · exact avoids_followLink path _ stats _
  · apply avoids_bind avoids_failure
    exact fun _ _ => avoids_pure _ _

/-- The loop ends when it has the rounds of its state. -/
theorem resolveLoop_ends {fuel : Nat} {walk : Walk} (enough : walk.measure facade.limits ≤ fuel) :
    Avoids (resolveLoop host facade path fuel walk) .outOfFuel := by
  induction fuel generalizing walk with
  | zero =>
    have done : walk.pending = [] := by
      unfold Walk.measure at enough
      apply eq_nil_of_length_eq_zero
      omega
    rw [resolveLoop, if_pos done]
    exact avoids_pure _ _
  | succ fuel ih =>
    rw [resolveLoop]
    split
    · exact avoids_pure _ _
    · next segment rest pending =>
        apply avoids_bind (avoids_resolveSegment path walk segment rest)
        intro walk' ran
        rcases resolveSegment_round ran with ⟨shallow, round⟩
        apply ih
        have falls := Walk.measure_lt pending shallow round
        omega

theorem measure_initialWalk (limits : Limits) (path : RelativePath) :
    (initialWalk path).measure limits ≤ limits.rounds := by
  unfold Walk.measure initialWalk Limits.rounds
  rw [Nat.sub_zero, Nat.succ_mul]
  exact Nat.add_le_add_left (Nat.min_le_right _ _) _

theorem resolve_ends (path : RelativePath) : Avoids (resolve host facade path) .outOfFuel := by
  unfold resolve
  split_ifs
  · apply avoids_bind (avoids_lstat _ _)
    exact fun _ _ => avoids_pure _ _
  · apply avoids_bind (resolveLoop_ends (measure_initialWalk _ _))
    intro walk _
    split
    · exact avoids_stop Stop.noConfusion
    · split
      · exact avoids_stop Stop.noConfusion
      · exact avoids_pure _ _

end AgentContextLint.ReadOnlyFacade
