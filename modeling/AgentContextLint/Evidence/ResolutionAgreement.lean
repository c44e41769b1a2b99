import AgentContextLint.Evidence.ImportTargets
import AgentContextLint.Evidence.ResolutionSteps

/-!
# What the facade reads is what the platform reaches

The facade normalizes the target of a link before it walks it, so a parent segment removes the
segment before it, whatever that names. The platform follows links first. Where the two agree at
every link that was followed (`StraightLink`), the state of the loop leads where the whole path
leads (`Sound`), and the entry of an operation is the node that the platform reaches.
-/

namespace AgentContextLint.ReadOnlyFacade

open Utf16 Utf8 PosixTree StatefulRuns List RepositoryPath

variable {ν : Type} (host : Host ν) (facade : Facade)

/-- The target of a link at `candidate` is UTF-8, and its lexical reading is right. -/
def StraightLink (candidate : AbsolutePath) : Prop :=
  ∀ y link, host.entry candidate = some y → host.tree.kind y = .link link →
    (∃ text, decode link = some text) ∧
      Straight host.tree (lexicalBase candidate.dropLast link) (segments link)

def StraightLinks (observations : List Observation) : Prop :=
  ∀ observation ∈ observations, StraightLink host observation.path

def segmentsOf (path : RelativePath) : List Text :=
  if path = RepositoryPath.repositoryRoot then [] else RepositoryPath.pathSegments path

/-- The path `root/path` leads the platform to the node. -/
def PlatformReaches (path : RelativePath) (y : ν) : Prop :=
  Reaches host.tree host.tree.top ((facade.root ++ segmentsOf path).map encode) y

/-- What holds of the state of the loop. -/
structure Sound (path : RelativePath) (walk : Walk) : Prop where
  within : walk.linkDepth ≤ facade.limits.maximumSymlinkDepth
  shallow : walk.resolved.length ≤ facade.limits.maximumTraversalDepth
  named : ∀ segment ∈ walk.resolved ++ walk.pending, Named segment
  last : ∀ observation, walk.observations.getLast? = some observation →
    ∃ y, observation.stats = host.statsOf y ∧
      ((∀ link, host.tree.kind y ≠ .link link) →
        host.entry (facade.root ++ walk.resolved) = some y)
  leads : StraightLinks host walk.observations → ∀ r,
    Reaches host.tree host.tree.top
      ((facade.root ++ (walk.resolved ++ walk.pending)).map encode) r →
    PlatformReaches host facade path r

/-- What a resolved entry says of a node. -/
structure Reading (resolved : ResolvedEntry) (path : RelativePath) (y : ν) : Prop where
  stats : resolved.stats = host.statsOf y
  samePath : resolved.path = path
  within : resolved.linkDepth ≤ facade.limits.maximumSymlinkDepth
  shallow : resolved.absolutePath.length ≤
    facade.root.length + facade.limits.maximumTraversalDepth
  entry : host.entry resolved.absolutePath = some y
  reaches : StraightLinks host resolved.observations → PlatformReaches host facade path y

variable {host facade} {path : RelativePath}

/-! ## The loop -/

variable {segment : Text} {y : ν}

/-- A link whose lexical reading is right leads where its reading leads. -/
theorem StraightLink.reaches {front rest target : AbsolutePath} {r : ν} {link : List UInt8}
    (straight : StraightLink host (front ++ [segment]))
    (found : host.entry (front ++ [segment]) = some y) (kind : host.tree.kind y = .link link)
    (made : targetOf front (decodeLossy link) = some target)
    (reads : Reaches host.tree host.tree.top ((target ++ rest).map encode) r) :
    Reaches host.tree host.tree.top ((front ++ segment :: rest).map encode) r := by
  rcases straight y link found kind with ⟨⟨text, decoded⟩, straight⟩
  rcases encode_decode decoded with ⟨ok, bytes⟩
  rw [decodeLossy_of_decode decoded] at made
  rw [dropLast_concat] at straight
  rw [map_append, map_targetOf ok made, bytes] at reads
  have later := straight.reaches reads
  rcases entry_append found with ⟨d, toDirectory, lookup⟩
  rw [map_append, map_cons]
  apply toDirectory.through lookup kind
  unfold lexicalBase at later
  unfold FileTree.start
  split_ifs at later ⊢
  · exact later
  · rcases reaches_append.mp later with ⟨e, before, after⟩
    cases before.unique toDirectory
    exact after

variable {walk walk' : Walk}

theorem Sound.round {rest : List Text} (sound : Sound host facade path walk)
    (pending : walk.pending = segment :: rest)
    (shallow : walk.resolved.length + (rest.length + 1) ≤ facade.limits.maximumTraversalDepth)
    (round : Round host facade walk segment rest walk') : Sound host facade path walk' := by
  have named := sound.named
  have leads := sound.leads
  rw [pending] at named leads
  cases round with
  | @pass y found plain =>
    have regroup : walk.resolved ++ [segment] ++ rest = walk.resolved ++ segment :: rest :=
      append_assoc _ _ _
    constructor
    · exact sound.within
    · rw [length_append, length_singleton]
      omega
    · dsimp only
      rw [regroup]
      exact named
    · intro observation last
      rw [getLast?_concat, Option.some.injEq] at last
      rw [← last]
      refine ⟨y, rfl, fun _ => ?_⟩
      rw [← append_assoc]
      exact found
    · intro straight r reads
      dsimp only at reads
      rw [regroup] at reads
      exact leads (fun observation member => straight observation (mem_append_left _ member))
        r reads
  | @follow y link behind visited found kind within made =>
    constructor
    · exact within
    · exact Nat.zero_le _
    · have target := named_targetOf (fun segment member => by
        rcases List.mem_append.mp member with inRoot | inResolved
        · exact facade.root_named segment inRoot
        · exact named segment (mem_append_left _ inResolved)) made
      intro other member
      dsimp only at member
      rw [nil_append] at member
      rcases List.mem_append.mp member with inBehind | inRest
      · exact target other (mem_append_right _ inBehind)
      · exact named other (mem_append_right _ (mem_cons_of_mem _ inRest))
    · intro observation last
      rw [getLast?_concat, Option.some.injEq] at last
      rw [← last]
      exact ⟨y, rfl, fun plain => absurd kind (plain link)⟩
    · intro straight r reads
      have here := straight ⟨_, host.statsOf y⟩ (mem_append_right _ mem_cons_self)
      apply leads (fun observation member =>
        straight observation (mem_append_left _ member)) r
      have whole : facade.root ++ ([] ++ (behind ++ rest)) = facade.root ++ behind ++ rest := by
        rw [nil_append, append_assoc]
      dsimp only at reads
      rw [whole] at reads
      rw [← append_assoc]
      exact here.reaches found kind made reads

theorem Sound.loop {fuel : Nat} (sound : Sound host facade path walk)
    (ran : Yields (resolveLoop host facade path fuel walk) walk') :
    Sound host facade path walk' ∧ walk'.pending = [] := by
  induction fuel generalizing walk with
  | zero =>
    rw [resolveLoop] at ran
    split_ifs at ran with done
    · cases yields_pure ran
      exact ⟨sound, done⟩
    · exact (not_yields_stop ran).elim
  | succ fuel ih =>
    rw [resolveLoop] at ran
    split at ran
    · next done =>
        cases yields_pure ran
        exact ⟨sound, done⟩
    · next segment rest pending =>
        rcases yields_bind ran with ⟨between, here, later⟩
        rcases resolveSegment_round here with ⟨shallow, round⟩
        exact ih (sound.round pending shallow round) later

theorem named_pathSegments (canonical : isRepositoryRelativePath path = true)
    (notRoot : path ≠ repositoryRoot) : ∀ segment ∈ pathSegments path, Named segment := by
  intro segment member
  have found := canonical_of_mem_pathSegments canonical notRoot segment member
  exact ⟨found.ne_nil, found.ne_dot, slashless_of_mem_pathSegments member⟩

theorem sound_initialWalk (canonical : isRepositoryRelativePath path = true)
    (notRoot : path ≠ repositoryRoot) : Sound host facade path (initialWalk path) := by
  constructor
  · exact Nat.zero_le _
  · exact Nat.zero_le _
  · exact named_pathSegments canonical notRoot
  · intro observation last
    cases last
  · intro _ r reads
    unfold PlatformReaches segmentsOf
    rw [if_neg notRoot]
    exact reads

variable {resolved : ResolvedEntry}

/-- A resolved entry that is not a link reads a node. -/
theorem resolve_reading (canonical : isRepositoryRelativePath path = true)
    (ran : Yields (resolve host facade path) resolved) (plain : resolved.stats.type ≠ .symbolicLink) :
    ∃ y, Reading host facade resolved path y := by
  unfold resolve at ran
  split_ifs at ran with root
  · rcases yields_bind ran with ⟨stats, observed, ran⟩
    cases yields_pure ran
    rcases yields_lstat observed with ⟨y, found, rfl⟩
    refine ⟨y, rfl, rfl, Nat.zero_le _, Nat.le_add_right _ _, found, fun _ => ?_⟩
    unfold PlatformReaches segmentsOf
    rw [if_pos root, append_nil]
    exact reaches_of_entry found fun link kind => plain (statsOf_symbolicLink.mpr ⟨link, kind⟩)
  · rcases yields_bind ran with ⟨walk, looped, ran⟩
    rcases (sound_initialWalk canonical root).loop looped with ⟨sound, done⟩
    split at ran
    · exact (not_yields_stop ran).elim
    · next absolutePath made =>
        split at ran
        · exact (not_yields_stop ran).elim
        · next last isLast =>
            cases yields_pure ran
            have named : ∀ segment ∈ walk.resolved, Named segment :=
              fun segment member => sound.named segment (mem_append_left _ member)
            have absolute := absolutePathOf_eq_some named made
            rcases sound.last last isLast with ⟨y, stats, located⟩
            have notLink : ∀ link, host.tree.kind y ≠ .link link := by
              intro link kind
              apply plain
              rw [stats]
              exact statsOf_symbolicLink.mpr ⟨link, kind⟩
            have found := located notLink
            refine ⟨y, stats, rfl, sound.within, ?_, ?_, fun straight => ?_⟩
            · rw [absolute, length_append]
              exact Nat.add_le_add_left sound.shallow _
            · rw [absolute]
              exact found
            · apply sound.leads straight
              rw [done, append_nil]
              exact reaches_of_entry found notLink

/-! ## Operations -/

theorem yields_normalizedRelativePath {limits : Limits} {value : Text}
    (ran : Yields (normalizedRelativePath limits value) path) :
    path = value ∧ isRepositoryRelativePath path = true := by
  rcases yields_stopIf_bind ran with ⟨_, ran⟩
  split at ran
  · exact (not_yields_stop ran).elim
  · next normalized canonical =>
      rcases yields_stopIf_bind ran with ⟨same, ran⟩
      rcases yields_stopIf_bind ran with ⟨_, ran⟩
      cases yields_pure ran
      have value := not_not.mp same
      rw [← value] at canonical
      exact ⟨value, isRepositoryRelativePath_eq_true.mpr canonical⟩

/-- What an entry says of a node. -/
structure Describes (host : Host ν) (path : RelativePath) (y : ν)
    (entry : ReadOnlyRepositoryEntry) : Prop where
  identity : entry.identity = identityOf (host.statsOf y)
  path : entry.path = path
  directory : entry.type = .directory → host.tree.kind y = .directory ∧ entry.size = 0
  file : entry.type = .file →
    host.tree.kind y = .file ∧ entry.size = (host.attributes y).size

theorem yields_assertSupportedType {stats : BigIntStats}
    (ran : Yields (assertSupportedType stats path) ()) :
    stats.type = .directory ∨ stats.type = .file := by
  rcases yields_stopIf_bind ran with ⟨supported, _⟩
  exact or_iff_not_and_not.mpr supported

theorem Reading.describes {entry : ReadOnlyRepositoryEntry}
    (reading : Reading host facade resolved path y) (ran : Yields (entryOf facade resolved) entry) :
    Describes host path y entry ∧ entry.linkDepth = resolved.linkDepth := by
  rcases yields_bind ran with ⟨_, supported, ran⟩
  have types := yields_assertSupportedType supported
  rw [reading.stats] at types
  split_ifs at ran with directory
  · cases yields_pure ran
    rw [reading.stats] at directory
    constructor
    · constructor
      · rw [reading.stats]
      · exact reading.samePath
      · exact fun _ => ⟨statsOf_directory.mp directory, rfl⟩
      · exact fun file => by cases file
    · rfl
  · rcases yields_bind ran with ⟨size, bounded, ran⟩
    rcases yields_stopIf_bind bounded with ⟨_, bounded⟩
    cases yields_pure bounded
    cases yields_pure ran
    rw [reading.stats] at directory
    constructor
    · constructor
      · rw [reading.stats]
      · exact reading.samePath
      · exact fun directory => by cases directory
      · intro _
        rw [reading.stats]
        exact ⟨statsOf_file.mp (types.resolve_left directory), rfl⟩
    · rfl

end AgentContextLint.ReadOnlyFacade
