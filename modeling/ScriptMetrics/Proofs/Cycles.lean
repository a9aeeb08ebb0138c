import Mathlib.Logic.Relation
import ScriptMetrics.Proofs.Listing

/-!
Searches among links. A link may lead to a directory that it stands in, to another link or to itself,
and a search keeps no account of where it has been. It still ends: a directory that is entered through
a link leaves one link less to follow from there on, and one that is entered by its own name stands
deeper in the store. A way over too many links leads nowhere, so that what has such a way is taken
for a file.
-/

namespace ScriptMetrics

namespace Files

/-- A way that follows at least so many links, if nothing limits them. -/
inductive Crosses (files : Files) : Nat → Place → List String → Prop where
  | start (here : Place) (names : List String) : Crosses files 0 here names
  | go {links : Nat} {here next : Place} {name : String} {names : List String}
      (turned : files.turn here name = .ok (.go next)) (onward : Crosses files links next names) :
      Crosses files links here (name :: names)
  | jump {links : Nat} {here next : Place} {name : String} {target names : List String}
      (turned : files.turn here name = .ok (.jump next target))
      (onward : Crosses files links next (target ++ names)) : Crosses files (links + 1) here (name :: names)

theorem turn_ne_tooManyLinks (files : Files) (here : Place) (name : String) :
    files.turn here name ≠ .error .tooManyLinks := by
  unfold Files.turn
  intro fails
  repeat' split at fails
  all_goals cases fails

/-- A way is given up exactly if it follows one link more than it may. -/
theorem follow_tooManyLinks (files : Files) (links : Nat) (here : Place) (names : List String) :
    files.follow links here names = .error .tooManyLinks ↔ files.Crosses (links + 1) here names := by
  constructor
  · intro ends
    fun_induction Files.follow files links here names with
    | case3 links here name rest fault turned =>
        cases ends
        exact absurd turned (files.turn_ne_tooManyLinks here name)
    | case4 links here name rest next turned ih => exact .go turned (ih ends)
    | case5 here name rest next target turned => exact .jump turned (.start _ _)
    | case6 links here name rest next target turned left ih =>
        have onward := ih ends
        rw [Nat.sub_add_cancel (Nat.pos_of_ne_zero left)] at onward
        exact .jump turned onward
    | case1 | case2 | case7 | case8 => cases ends
  · intro crossing
    generalize more : links + 1 = count at crossing
    induction crossing generalizing links with
    | start here names => cases more
    | go turned onward ih =>
        rw [follow]
        simp only [turned]
        exact ih links more
    | @jump count here next name target names turned onward ih =>
        cases more
        rw [follow]
        simp only [turned]
        cases count with
        | zero => rfl
        | succ links => exact ih links rfl

-- What names nothing is passed without a link.
theorem Crosses.thinned {files : Files} {links : Nat} {here : Place} {names kept : List String}
    (crossing : files.Crosses links here names) (thinned : Path.Thinned names kept) :
    files.Crosses links here kept := by
  induction crossing generalizing kept with
  | start here names => exact .start here kept
  | go turned onward ih =>
      cases thinned with
      | keep name rest => exact .go turned (ih rest)
      | drop blank rest =>
          cases turn_blank blank turned
          exact ih rest
  | jump turned onward ih =>
      cases thinned with
      | keep name rest => exact .jump turned (ih (rest.prepend _))
      | drop blank _ => cases turn_blank blank turned

/-- A path whose way follows more links than the store allows. -/
def Overlinked (files : Files) (path : String) : Prop :=
  files.Crosses (files.linkLimit + 1) (files.start path) (Path.components path)

theorem resolve_tooManyLinks (files : Files) (path : String) :
    files.resolve path = .error .tooManyLinks ↔ files.pathFault? path = none ∧ files.Overlinked path := by
  unfold resolve
  by_cases empty : path = ""
  · subst empty
    constructor
    · intro ends
      cases ends
    · rintro ⟨_, crossing⟩
      have kept : files.Crosses _ _ [] := crossing.thinned (.drop rfl .nil)
      cases kept
  · rw [if_neg (by simpa using empty)]
    cases wrong : files.pathFault? path with
    | none =>
        simp only [true_and]
        exact files.follow_tooManyLinks _ _ _
    | some fault =>
        have other : fault ≠ .tooManyLinks := by
          rintro rfl
          unfold Rules.pathFault? at wrong
          repeat' split at wrong
          all_goals cases wrong
        simpa using other

theorem Overlinked.not_directory {files : Files} {path : String} (overlinked : files.Overlinked path) :
    files.isDirectory path = false := by
  apply Bool.eq_false_iff.mpr
  intro directory
  rcases isDirectory_iff.mp directory with ⟨place, leads⟩
  have ends := (files.resolve_tooManyLinks path).mpr ⟨(resolve_ok leads).2.1, overlinked⟩
  cases ends.symm.trans leads

theorem Overlinked.look {files : Files} {path : String} (overlinked : files.Overlinked path) (stored : Stored) :
    files.look path ≠ .ok (some stored) := by
  have ends : files.leads path = .error .tooManyLinks :=
    (files.follow_tooManyLinks _ _ _).mpr (overlinked.thinned (Path.thinned_tidy path))
  intro seen
  rcases look_some seen with ⟨place, leads⟩
  cases ends.symm.trans (resolveTidy_ok leads)

/-- The search of a directory goes on in another one, under a name that it lists. -/
def Enters (files : Files) (search : Search) (outer inner : String) : Prop :=
  ∃ names name, files.list outer = .ok names ∧ name ∈ names ∧ name ∉ search.skipped ∧
    inner = Path.join outer name ∧ files.isDirectory inner

section Ending

variable {files : Files} {search : Search} {directory : String} {left : Nat} {place : Place}

theorem Reached.enters (wellFormed : files.WellFormed) (reached : files.Reached directory left place)
    {inner : String} (enters : files.Enters search directory inner) :
    ∃ still within, files.Reached inner still within ∧ files.room still within < files.room left place := by
  rcases enters with ⟨names, name, listed, member, _, rfl, inside⟩
  rcases list_eq_ok.mp listed with ⟨_, leads, _, rfl⟩
  cases reached.resolve.symm.trans leads
  exact reached.enter wellFormed ((files.order_perm directory _).mem_iff.mp member) inside

theorem Reached.accessible (wellFormed : files.WellFormed) (reached : files.Reached directory left place) :
    Acc (fun inner outer => files.Enters search outer inner) directory := by
  generalize bound : files.room left place = room
  induction room using Nat.strongRecOn generalizing directory left place with
  | ind room ih =>
      constructor
      intro inner enters
      rcases reached.enters wellFormed enters with ⟨still, within, further, less⟩
      exact ih _ (bound ▸ less) further rfl

theorem enters_wellFounded (wellFormed : files.WellFormed) (search : Search) :
    WellFounded (fun inner outer => files.Enters search outer inner) := by
  constructor
  intro directory
  by_cases given : files.isDirectory directory
  · rcases isDirectory_iff.mp given with ⟨place, leads⟩
    rcases reached_of_resolve leads with ⟨left, reached⟩
    exact reached.accessible wellFormed
  · constructor
    rintro inner ⟨names, _, listed, _⟩
    rcases list_eq_ok.mp listed with ⟨place, leads, _⟩
    exact absurd (isDirectory_iff.mpr ⟨place, leads⟩) given

theorem listEntry_congr {levels more : Nat} {name : String}
    (inside : name ∉ search.skipped → files.isDirectory (Path.join directory name) →
      files.listFiles search levels (Path.join directory name) =
        files.listFiles search more (Path.join directory name)) :
    files.listEntry search levels directory name = files.listEntry search more directory name := by
  simp only [Files.listEntry]
  split
  · rfl
  · next kept =>
      split
      · next enters => exact inside (by simpa using kept) enters
      · rfl

theorem listFiles_congr {levels more : Nat}
    (inside : ∀ inner, files.Enters search directory inner →
      files.listFiles search levels inner = files.listFiles search more inner) :
    files.listFiles search (levels + 1) directory = files.listFiles search (more + 1) directory := by
  rw [listFiles_succ, listFiles_succ]
  cases listed : files.list directory with
  | error fault => rfl
  | ok names =>
      have entries := mapM_congr (files.listEntry search levels directory)
        (files.listEntry search more directory) (names.mergeSort (· ≤ ·)) <| by
          intro name member
          apply listEntry_congr
          intro kept enters
          have held : name ∈ names := (List.mergeSort_perm names _).mem_iff.mp member
          exact inside _ ⟨names, name, listed, held, kept, rfl, enters⟩
      simp only [entries]

-- By induction on the levels, of which there are always more than room is left.
theorem Reached.listFiles_eq (wellFormed : files.WellFormed) (reached : files.Reached directory left place)
    {levels more : Nat} (enough : files.room left place < levels) (enoughToo : files.room left place < more) :
    files.listFiles search levels directory = files.listFiles search more directory := by
  induction levels generalizing more directory left place with
  | zero => exact absurd enough (Nat.not_lt_zero _)
  | succ levels ih =>
      cases more with
      | zero => exact absurd enoughToo (Nat.not_lt_zero _)
      | succ more =>
          apply listFiles_congr
          intro inner enters
          rcases reached.enters wellFormed enters with ⟨still, within, further, less⟩
          exact ih further (by omega) (by omega)

/-- A listing never runs out of levels: it is what the recursion gives that has no levels to count. -/
theorem listFiles_deepest (wellFormed : files.WellFormed) (search : Search) (directory : String) :
    files.listFiles search files.deepest directory =
      match files.list directory with
      | .error fault => throw (.analysis (.unlistable directory fault))
      | .ok names => do
          let found ← (names.mergeSort (· ≤ ·)).mapM (files.listEntry search files.deepest directory)
          return found.flatten := by
  refine Eq.trans ?_ (listFiles_succ files search files.deepest directory)
  by_cases given : files.isDirectory directory
  · rcases isDirectory_iff.mp given with ⟨place, leads⟩
    rcases reached_of_resolve leads with ⟨left, reached⟩
    have enough := reached.room_lt_deepest
    exact reached.listFiles_eq wellFormed enough (Nat.lt_succ_of_lt enough)
  · apply listFiles_congr
    rintro inner ⟨names, _, listed, _⟩
    rcases list_eq_ok.mp listed with ⟨place, leads, _⟩
    exact absurd (isDirectory_iff.mpr ⟨place, leads⟩) given

theorem not_overlinked_of_enters {path : String} {stored : Stored} (given : files.look path = .ok (some stored))
    (entered : Relation.ReflTransGen (files.Enters search) path directory) : ¬ files.Overlinked directory := by
  intro overlinked
  cases entered with
  | refl => exact overlinked.look stored given
  | tail _ last =>
      rcases last with ⟨_, _, _, _, _, _, inside⟩
      rw [overlinked.not_directory] at inside
      cases inside

end Ending

/-- Searches end, whatever links there are. The recursion into directories is well founded, and with
no count of levels it is the listing; no directory is listed by a path that follows more links than
the store allows, and an entry with such a path is taken for a file. -/
theorem search_ends (files : Files) (wellFormed : files.WellFormed) (search : Search) :
    WellFounded (fun inner outer => files.Enters search outer inner) ∧
    (∀ directory, files.listFiles search files.deepest directory =
      match files.list directory with
      | .error fault => throw (.analysis (.unlistable directory fault))
      | .ok names => do
          let found ← (names.mergeSort (· ≤ ·)).mapM (files.listEntry search files.deepest directory)
          return found.flatten) ∧
    (∀ path, files.resolve path = .error .tooManyLinks ↔ files.pathFault? path = none ∧ files.Overlinked path) ∧
    (∀ path directory stored, files.look path = .ok (some stored) →
      Relation.ReflTransGen (files.Enters search) path directory → ¬ files.Overlinked directory) ∧
    ∀ directory name, name ∉ search.skipped → files.Overlinked (Path.join directory name) →
      files.listEntry search files.deepest directory name = pure [Path.join directory name] := by
  refine ⟨enters_wellFounded wellFormed search, listFiles_deepest wellFormed search, ?_, ?_, ?_⟩
  · exact files.resolve_tooManyLinks
  · intro path directory stored given entered
    exact not_overlinked_of_enters given entered
  · intro directory name kept overlinked
    simp [Files.listEntry, kept, overlinked.not_directory]

/-- A link to itself, one to the directory that it stands in, and a source. -/
def looped : Files where
  stored := ((∅ : Std.TreeMap Place Stored).insert ["self"] (.link "self")).insert ["up"] (.link ".")
    |>.insert ["a.js"] (.file .empty)

theorem looped_wellFormed : looped.WellFormed := by
  have keys : looped.stored.keys = [["a.js"], ["self"], ["up"]] := by decide +kernel
  apply wellFormed_of_keys rfl rfl
  · rw [keys]
    intro place member
    simp only [List.mem_cons, List.not_mem_nil, or_false] at member
    rcases member with rfl | rfl | rfl <;> rfl
  · rw [keys]
    decide

theorem looped_passable {name : String} (named : Path.IsName name) (short : name.utf8ByteSize ≤ 255) :
    looped.Passable [] name :=
  ⟨⟨named.1, named.2.1, named.2.2.1⟩, List.not_mem_nil, short⟩

theorem looped_dot : looped.turn [] "." = .ok (.go []) :=
  turn_dot rfl List.not_mem_nil

theorem looped_self : looped.turn [] "self" = .ok (.jump [] ["self"]) := by
  rw [turn_passable rfl (looped_passable (by decide) (by decide))]
  rfl

theorem looped_up : looped.turn [] "up" = .ok (.jump [] ["."]) := by
  rw [turn_passable rfl (looped_passable (by decide) (by decide))]
  rfl

theorem self_crosses (links : Nat) : looped.Crosses links [] ["self"] := by
  induction links with
  | zero => exact .start _ _
  | succ links ih => exact .jump looped_self ih

theorem looped_ends :
    WellFounded (fun inner outer => looped.Enters {} outer inner) ∧
      looped.Enters {} "." (Path.join "." "up") ∧ looped.Overlinked (Path.join "." "self") ∧
      looped.listEntry {} looped.deepest "." "self" = pure [Path.join "." "self"] := by
  rcases search_ends looped looped_wellFormed {} with ⟨ends, _, _, _, file⟩
  have root : looped.get? [] = some .directory := rfl
  have limit : looped.linkLimit = 40 := rfl
  have there : Path.components (Path.join "." "up") = [".", "up"] := by decide
  have start : looped.resolve "." = .ok (.at [] .directory) := resolve_dot rfl root (by decide) (by decide)
  have again : looped.resolve (Path.join "." "up") = .ok (.at [] .directory) := by
    rw [resolve_home rfl (by decide) (by decide), there]
    simp [follow, looped_dot, looped_up, root, limit]
  have overlinked : looped.Overlinked (Path.join "." "self") := by
    have way : Path.components (Path.join "." "self") = [".", "self"] := by decide
    unfold Overlinked
    rw [way]
    exact .go looped_dot (self_crosses _)
  refine ⟨ends, ?_, overlinked, file "." "self" (by decide) overlinked⟩
  have listed : looped.list "." = .ok (looped.namesIn []) := list_eq_ok.mpr ⟨[], start, by decide, rfl⟩
  exact ⟨_, "up", listed, by decide, by decide, rfl, isDirectory_iff.mpr ⟨[], again⟩⟩

end Files

end ScriptMetrics
