import Mathlib.Tactic.SplitIfs

/-!
# Directory trees with symbolic links

An unchanging directory tree with links, and how a path of names is resolved in it: every name
is looked up in a directory that may be searched, and a link found on the way is replaced by the
names of its target, in front of the names still to come.

* `Reaches` is the relation, one step for each name. `reaches_append` cuts a path in two, and
  `Reaches.unique` says that a path leads to one node.
* `walk` computes it with a bound on the links followed, `FileTree.entry` without following the last
  one.
* `lexical` is the lexical reading of a path, where a parent segment removes the segment before
  it. `Straight` says where that reading is right, and `Straight.reaches` draws the consequence.
-/

namespace PosixTree

abbrev Name := List UInt8

def slash : UInt8 := 0x2f

def dot : Name := [0x2e]

def dotDot : Name := [0x2e, 0x2e]

inductive Kind
  | directory
  | file
  | link (target : List UInt8)
  | other
  deriving DecidableEq

/-- A tree of nodes. `search` says whether the process may search a directory. -/
structure FileTree (ν : Type) where
  top : ν
  kind : ν → Kind
  search : ν → Bool
  child : ν → Name → Option ν
  parent : ν → ν
  top_directory : kind top = .directory

variable {ν : Type} (t : FileTree ν)

def segments (path : List UInt8) : List Name := path.splitOn slash

/-- A segment that stays where it is: empty or a dot. -/
def Stays (s : Name) : Prop := s = [] ∨ s = dot

instance (s : Name) : Decidable (Stays s) := inferInstanceAs (Decidable (s = [] ∨ s = dot))

def FileTree.Searchable (x : ν) : Prop := t.kind x = .directory ∧ t.search x = true

instance (x : ν) : Decidable (t.Searchable x) :=
  inferInstanceAs (Decidable (t.kind x = .directory ∧ t.search x = true))

/-- What a segment names in a directory. -/
def FileTree.lookup (x : ν) (s : Name) : Option ν :=
  if t.Searchable x then
    if Stays s then some x
    else if s = dotDot then some (t.parent x)
    else t.child x s
  else none

def FileTree.start (x : ν) (target : List UInt8) : ν :=
  if target.head? = some slash then t.top else x

/-- Where the search goes on behind the node `y` found in `x`, and the segments put first. -/
def FileTree.expand (x y : ν) : ν × List Name :=
  match t.kind y with
  | .link target => (t.start x target, segments target)
  | _ => (y, [])

variable {x y : ν}

theorem FileTree.expand_of_not_link (plain : ∀ target, t.kind y ≠ .link target) :
    t.expand x y = (y, []) := by
  unfold FileTree.expand
  split
  · next target link => exact absurd link (plain target)
  · rfl

variable {target : List UInt8}

theorem FileTree.expand_of_link (link : t.kind y = .link target) :
    t.expand x y = (t.start x target, segments target) := by
  unfold FileTree.expand
  rw [link]

theorem FileTree.Searchable.not_link (searchable : t.Searchable x) (target : List UInt8) :
    t.kind x ≠ .link target := by
  rw [searchable.1]
  exact Kind.noConfusion

/-! ## Resolution -/

/-- `Reaches t x path r`: from the directory `x` the path leads to `r`. -/
inductive Reaches : ν → List Name → ν → Prop
  | here (x : ν) : Reaches x [] x
  | step {x y r : ν} {s : Name} {rest : List Name} : t.lookup x s = some y →
      Reaches (t.expand x y).1 ((t.expand x y).2 ++ rest) r → Reaches x (s :: rest) r

variable {t} {path : List Name} {r : ν}

theorem Reaches.unique {r' : ν} (one : Reaches t x path r) (other : Reaches t x path r') :
    r = r' := by
  induction one with
  | here x => cases other; rfl
  | step found _ ih =>
    cases other with
    | step found' rest =>
      cases found.symm.trans found'
      exact ih rest

/-- A path is resolved by its front and then by its back. -/
theorem reaches_append {front back : List Name} :
    Reaches t x (front ++ back) r ↔ ∃ e, Reaches t x front e ∧ Reaches t e back r := by
  constructor
  · intro reaches
    generalize whole : front ++ back = path at reaches
    induction reaches generalizing front with
    | here x =>
      rcases List.append_eq_nil_iff.mp whole with ⟨rfl, rfl⟩
      exact ⟨x, .here x, .here x⟩
    | @step x y r s rest found later ih =>
      cases front with
      | nil =>
        cases whole
        exact ⟨x, .here x, .step found later⟩
      | cons first front =>
        rw [List.cons_append] at whole
        cases whole
        rcases ih (List.append_assoc _ _ _) with ⟨e, before, after⟩
        exact ⟨e, .step found before, after⟩
  · intro ⟨e, before, after⟩
    induction before with
    | here x => exact after
    | step found _ ih =>
      apply Reaches.step found
      have later := ih after
      rw [List.append_assoc] at later
      exact later

variable {d : ν} {s : Name}

/-- One more segment that is not a link. -/
theorem Reaches.snoc (reaches : Reaches t x path d) (found : t.lookup d s = some y)
    (plain : ∀ target, t.kind y ≠ .link target) : Reaches t x (path ++ [s]) y := by
  apply reaches_append.mpr ⟨d, reaches, .step found _⟩
  rw [t.expand_of_not_link plain]
  exact .here y

variable {rest : List Name}

theorem Reaches.through {path : List Name} (reaches : Reaches t x path d)
    (found : t.lookup d s = some y) (link : t.kind y = .link target)
    (later : Reaches t (t.start d target) (segments target ++ rest) r) :
    Reaches t x (path ++ s :: rest) r := by
  apply reaches_append.mpr ⟨d, reaches, .step found _⟩
  rw [t.expand_of_link link]
  exact later

/-- Nothing below the top resolves to a link. -/
theorem Reaches.not_link (reaches : Reaches t x path r) (plain : ∀ target, t.kind x ≠ .link target) :
    ∀ target, t.kind r ≠ .link target := by
  induction reaches with
  | here x => exact plain
  | @step x y r s rest found _ ih =>
    apply ih
    cases kind : t.kind y with
    | link target =>
      rw [t.expand_of_link kind]
      unfold FileTree.start
      split_ifs
      · rw [t.top_directory]
        exact fun _ => Kind.noConfusion
      · exact plain
    | _ =>
      have here : ∀ target, t.kind y ≠ .link target := by
        rw [kind]
        exact fun _ => Kind.noConfusion
      rw [t.expand_of_not_link here]
      exact here

theorem Reaches.top_not_link (reaches : Reaches t t.top path r) (target : List UInt8) :
    t.kind r ≠ .link target := by
  apply reaches.not_link
  rw [t.top_directory]
  exact fun _ => Kind.noConfusion

/-! ## Resolution with a bound on the links -/

variable (t)

/-- Resolution up to the first link, and from there on by `follow`. -/
def along (follow : ν → List Name → Option ν) : ν → List Name → Option ν
  | x, [] => some x
  | x, s :: rest =>
    match t.lookup x s with
    | none => none
    | some y =>
      match t.kind y with
      | .link target => follow (t.start x target) (segments target ++ rest)
      | _ => along follow y rest

/-- Resolution with at most so many links. -/
def walk : (links : Nat) → ν → List Name → Option ν
  | 0 => along t fun _ _ => none
  | links + 1 => along t (walk links)

/-- The node an absolute path names, its last segment not followed. -/
def FileTree.entry (links : Nat) (path : List Name) : Option ν :=
  match path.getLast? with
  | none => some t.top
  | some s => (walk t links t.top path.dropLast).bind (t.lookup · s)

variable {t} {path : List Name} {links : Nat}

theorem reaches_of_along {follow : ν → List Name → Option ν}
    (sound : ∀ x path r, follow x path = some r → Reaches t x path r)
    (ran : along t follow x path = some r) : Reaches t x path r := by
  induction path generalizing x with
  | nil => cases ran; exact .here _
  | cons s rest ih =>
    rw [along] at ran
    cases found : t.lookup x s with
    | none => rw [found] at ran; cases ran
    | some y =>
      rw [found] at ran
      dsimp only at ran
      apply Reaches.step found
      cases kind : t.kind y with
      | link target =>
        rw [kind] at ran
        rw [t.expand_of_link kind]
        exact sound _ _ _ ran
      | _ =>
        rw [kind] at ran
        rw [t.expand_of_not_link (by rw [kind]; exact fun _ => Kind.noConfusion)]
        exact ih ran

theorem reaches_of_walk (ran : walk t links x path = some r) : Reaches t x path r := by
  induction links generalizing x path r with
  | zero => exact reaches_of_along (fun _ _ _ ended => by cases ended) ran
  | succ links ih => exact reaches_of_along (fun _ _ _ => ih) ran

/-- The last segment of a path is looked up in a directory. -/
theorem FileTree.entry_append (found : t.entry links (path ++ [s]) = some y) :
    ∃ d, Reaches t t.top path d ∧ t.lookup d s = some y := by
  unfold FileTree.entry at found
  rw [List.getLast?_append, List.dropLast_concat] at found
  rcases Option.bind_eq_some_iff.mp found with ⟨d, ran, found⟩
  exact ⟨d, reaches_of_walk ran, found⟩

/-! ## The lexical reading -/

/-- The lexical reading of a path behind the names found so far. -/
def lexical : List Name → List Name → List Name
  | found, [] => found
  | found, s :: rest =>
    if Stays s then lexical found rest
    else if s = dotDot then lexical found.dropLast rest
    else lexical (found ++ [s]) rest

variable (t)

/-- A segment that stays is read at a directory, and a parent segment at one whose parent the
path without its last name leads to. -/
def Straight : List Name → List Name → Prop
  | _, [] => True
  | found, s :: rest =>
    if Stays s then (∃ d, Reaches t t.top found d ∧ t.Searchable d) ∧ Straight found rest
    else if s = dotDot then
      (∃ d, Reaches t t.top found d ∧ t.Searchable d ∧
        Reaches t t.top found.dropLast (t.parent d)) ∧ Straight found.dropLast rest
    else Straight (found ++ [s]) rest

variable {t}

/-- Where the lexical reading is right, the path leads where its reading leads. -/
theorem Straight.reaches {found path : List Name} (straight : Straight t found path)
    (reads : Reaches t t.top (lexical found path ++ rest) r) :
    Reaches t t.top (found ++ (path ++ rest)) r := by
  induction path generalizing found with
  | nil => exact reads
  | cons s path ih =>
    rw [Straight] at straight
    rw [lexical] at reads
    split_ifs at straight reads with stays up
    · rcases straight with ⟨⟨d, toDirectory, searchable⟩, straight⟩
      rcases reaches_append.mp (ih straight reads) with ⟨e, before, after⟩
      cases before.unique toDirectory
      have found : t.lookup d s = some d := by
        rw [FileTree.lookup, if_pos searchable, if_pos stays]
      apply reaches_append.mpr ⟨d, toDirectory, .step found _⟩
      rw [t.expand_of_not_link searchable.not_link]
      exact after
    · rcases straight with ⟨⟨d, toDirectory, searchable, toParent⟩, straight⟩
      rcases reaches_append.mp (ih straight reads) with ⟨e, before, after⟩
      cases before.unique toParent
      have found : t.lookup d s = some (t.parent d) := by
        rw [FileTree.lookup, if_pos searchable, if_neg stays, if_pos up]
      apply reaches_append.mpr ⟨d, toDirectory, .step found _⟩
      rw [t.expand_of_not_link toParent.top_not_link]
      exact after
    · have later := ih straight reads
      rw [List.append_assoc] at later
      exact later

end PosixTree
