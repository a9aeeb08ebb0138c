import ScriptMetrics.Proofs.Cycles

/-!
What a search finds. From the directory that is searched, names in turn lead to a file: each of them an
entry of the directory before it, and none of them passed over. A search finds the files at the end of
these routes and no others, and it finds them in the order of the routes, names compared one by one.
That is not the order of the paths as texts, in which a slash counts like any other character.
-/

namespace ScriptMetrics

namespace Noted

variable {α β : Type}

/-- A search comes to this result, whatever has been noted before. -/
def Gives (action : Noted α) (result : Except Interruption α) : Prop :=
  ∀ events, ∃ notes, action events = leaving result notes

theorem Gives.pure (value : α) : Gives (Pure.pure value) (.ok value) :=
  fun events => ⟨events, rfl⟩

theorem Gives.throw (cause : Interruption) : Gives (MonadExcept.throw cause : Noted α) (.error cause) :=
  fun events => ⟨events, rfl⟩

theorem Gives.note (event : Event) {next : Unit → Noted α} {result : Except Interruption α}
    (later : Gives (next ()) result) : Gives (Noted.note event >>= next) result :=
  fun events => later (events.push event)

theorem Gives.bind {action : Noted α} {result : Except Interruption α} {next : α → Noted β}
    {after : α → Except Interruption β} (first : Gives action result)
    (later : ∀ value, Gives (next value) (after value)) : Gives (action >>= next) (result >>= after) := by
  intro events
  rcases first events with ⟨notes, ran⟩
  cases result with
  | error cause => exact ⟨notes, by simp [EStateM.bind, ran, leaving, Bind.bind, Except.bind]⟩
  | ok value =>
      rcases later value notes with ⟨more, continued⟩
      exact ⟨more, by simp [EStateM.bind, ran, leaving, continued, Bind.bind, Except.bind]⟩

theorem Gives.map {action : Noted α} {result : Except Interruption α} {next : α → Noted β} {f : α → β}
    (first : Gives action result) (later : ∀ value, Gives (next value) (.ok (f value))) :
    Gives (action >>= next) (result.map f) := by
  have whole := first.bind later
  cases result <;> exact whole

theorem Gives.mapM {action : α → Noted β} {result : α → Except Interruption β}
    (each : ∀ value, Gives (action value) (result value)) (values : List α) :
    Gives (values.mapM action) (values.mapM result) := by
  induction values with
  | nil => exact .pure []
  | cons value values ih =>
      rw [List.mapM_cons, List.mapM_cons]
      apply (each value).bind
      intro first
      apply ih.bind
      intro others
      exact .pure (first :: others)

/-- What a search comes to if nothing has been noted before. -/
def outcome (action : Noted α) : Except Interruption α :=
  match action #[] with
  | .ok value _ => .ok value
  | .error cause _ => .error cause

theorem Gives.outcome_eq {action : Noted α} {result : Except Interruption α} (gives : Gives action result) :
    action.outcome = result := by
  rcases gives #[] with ⟨notes, ran⟩
  unfold outcome
  rw [ran]
  cases result <;> rfl

theorem Gives.steady {action : Noted α} {result : Except Interruption α} (gives : Gives action result) :
    Gives action action.outcome := by
  rwa [gives.outcome_eq]

end Noted

namespace Path

/-- The path that names lead to, one after another. -/
def extend (path : String) (names : List String) : String :=
  names.foldl join path

@[simp]
theorem extend_nil (path : String) : extend path [] = path := rfl

@[simp]
theorem extend_cons (path name : String) (names : List String) :
    extend path (name :: names) = extend (join path name) names := rfl

/-- Names compared one by one, and by code points each; what goes on comes after what ends. -/
def Earlier (names others : List String) : Prop :=
  List.Lex (· < ·) names others

theorem Earlier.ne {names others : List String} (earlier : Earlier names others) : names ≠ others := by
  rintro rfl
  exact List.lex_irrefl String.lt_irrefl names earlier

theorem Thinned.filter_eq {names kept : List String} (thinned : Thinned names kept) :
    (kept.filter fun name => name != "" && name != ".") =
      names.filter fun name => name != "" && name != "." := by
  induction thinned with
  | nil => rfl
  | keep name rest ih => rw [List.filter_cons, List.filter_cons, ih]
  | @drop name blank names kept rest ih =>
      rw [List.filter_cons_of_neg, ih]
      simpa [← Decidable.or_iff_not_imp_left] using blank

theorem tidy_join {directory name : String} (given : directory ≠ "") (named : IsName name) :
    tidy (join directory name) = tidy directory ++ [name] := by
  rcases components_join given named with ⟨front, components, thinned⟩
  unfold tidy
  rw [components, List.filter_append, thinned.filter_eq, List.filter_cons_of_pos]
  · rfl
  · simp [named.1, named.2.1]

theorem tidy_extend {path : String} (given : path ≠ "") {names : List String}
    (named : ∀ name ∈ names, IsName name) : tidy (extend path names) = tidy path ++ names := by
  induction names generalizing path with
  | nil => simp
  | cons name names ih =>
      have further := ih (join_ne_empty given name) fun other member =>
        named other (List.mem_cons_of_mem name member)
      rw [extend_cons, further, tidy_join given (named name List.mem_cons_self), List.append_assoc,
        List.singleton_append]

/-- Different names lead to different paths. -/
theorem extend_inj {path : String} (given : path ≠ "") {names others : List String}
    (named : ∀ name ∈ names, IsName name) (othersNamed : ∀ name ∈ others, IsName name)
    (same : extend path names = extend path others) : names = others := by
  have tidied := tidy_extend given named
  rw [same, tidy_extend given othersNamed] at tidied
  exact (List.append_cancel_left tidied).symm

end Path

theorem Search.accepts_iff (search : Search) (path : String) :
    search.accepts path = true ↔ ∃ extension ∈ search.extensions, extension.toList <:+ path.toList := by
  simp [Search.accepts]

namespace Files

/-- The directory that a path leads to has an entry of this name. -/
def Holds (files : Files) (directory name : String) : Prop :=
  ∃ place, files.resolve directory = .ok (.at place .directory) ∧ name ∈ files.namesIn place

/-- Names in turn, each of an entry of the directory that the names before it lead to, and none of them
passed over. -/
def Trail (files : Files) (search : Search) (root : String) (names : List String) : Prop :=
  ∀ front name back, names = front ++ name :: back →
    files.Holds (Path.extend root front) name ∧ name ∉ search.skipped

/-- A trail that ends at something that is no directory. -/
structure Route (files : Files) (search : Search) (root : String) (names : List String) : Prop where
  given : names ≠ []
  trail : files.Trail search root names
  ends : files.isDirectory (Path.extend root names) = false

section Trails

variable {files : Files} {search : Search} {directory name : String} {names : List String}

theorem Holds.isDirectory (holds : files.Holds directory name) : files.isDirectory directory := by
  rcases holds with ⟨place, leads, _⟩
  exact isDirectory_iff.mpr ⟨place, leads⟩

theorem Holds.isName (wellFormed : files.WellFormed) (holds : files.Holds directory name) :
    Path.IsName name := by
  rcases holds with ⟨place, _, member⟩
  exact wellFormed.named (place ++ [name]) (Option.isSome_iff_ne_none.mp (mem_namesIn.mp member)) name (by simp)

theorem trail_nil : files.Trail search directory [] := by
  intro front name back same
  simp at same

theorem trail_cons : files.Trail search directory (name :: names) ↔
    files.Holds directory name ∧ name ∉ search.skipped ∧
      files.Trail search (Path.join directory name) names := by
  constructor
  · intro trail
    have first := trail [] name names rfl
    refine ⟨first.1, first.2, ?_⟩
    rintro front other back rfl
    exact trail (name :: front) other back rfl
  · rintro ⟨holds, kept, onward⟩ front other back same
    cases front with
    | nil =>
        cases same
        exact ⟨holds, kept⟩
    | cons first front =>
        cases same
        exact onward front other back rfl

theorem Trail.isDirectory (trail : files.Trail search directory names)
    (ends : files.isDirectory (Path.extend directory names)) : files.isDirectory directory := by
  cases names with
  | nil => exact ends
  | cons name names => exact (trail_cons.mp trail).1.isDirectory

theorem Trail.isName (wellFormed : files.WellFormed) (trail : files.Trail search directory names) :
    ∀ name ∈ names, Path.IsName name := by
  intro name member
  rcases List.append_of_mem member with ⟨front, back, same⟩
  exact (trail front name back same).1.isName wellFormed

-- Where a route goes on, it goes on in a directory.
theorem route_cons : files.Route search directory (name :: names) ↔
    files.Holds directory name ∧ name ∉ search.skipped ∧
      if files.isDirectory (Path.join directory name) then files.Route search (Path.join directory name) names
      else names = [] := by
  constructor
  · rintro ⟨_, trail, ends⟩
    rcases trail_cons.mp trail with ⟨holds, kept, onward⟩
    refine ⟨holds, kept, ?_⟩
    cases names with
    | nil =>
        rw [Path.extend_cons, Path.extend_nil] at ends
        simp [ends]
    | cons next names =>
        have inside := (trail_cons.mp onward).1.isDirectory
        rw [if_pos inside]
        exact ⟨by simp, onward, ends⟩
  · rintro ⟨holds, kept, further⟩
    by_cases inside : files.isDirectory (Path.join directory name)
    · rw [if_pos inside] at further
      exact ⟨by simp, trail_cons.mpr ⟨holds, kept, further.trail⟩, further.ends⟩
    · rw [if_neg inside] at further
      subst further
      exact ⟨by simp, trail_cons.mpr ⟨holds, kept, trail_nil⟩, by simpa using inside⟩

end Trails

section Listing

variable {files : Files} {search : Search}

/-- The files under a directory, or what keeps them from being listed. -/
def listing (files : Files) (search : Search) (directory : String) : Except Interruption (List String) :=
  (files.listFiles search files.deepest directory).outcome

/-- What a name adds to the files under a directory. -/
def branch (files : Files) (search : Search) (directory name : String) : Except Interruption (List String) :=
  if name ∈ search.skipped then .ok []
  else if files.isDirectory (Path.join directory name) then files.listing search (Path.join directory name)
  else .ok [Path.join directory name]

theorem listEntry_gives {levels : Nat} {directory name : String} {result : Except Interruption (List String)}
    (inside : (files.listFiles search levels (Path.join directory name)).Gives result) :
    (files.listEntry search levels directory name).Gives
      (if name ∈ search.skipped then .ok []
       else if files.isDirectory (Path.join directory name) then result
       else .ok [Path.join directory name]) := by
  simp only [Files.listEntry, List.contains_eq_mem, decide_eq_true_eq]
  split
  · exact .note _ (.pure [])
  · split
    · exact inside
    · exact .pure _

theorem entries_give {levels : Nat} {inner : String → Except Interruption (List String)}
    (inside : ∀ entry, (files.listFiles search levels entry).Gives (inner entry)) (directory : String)
    (names : List String) :
    Noted.Gives
      (do
        let found ← names.mapM (files.listEntry search levels directory)
        return found.flatten)
      ((names.mapM fun name =>
        if name ∈ search.skipped then .ok []
        else if files.isDirectory (Path.join directory name) then inner (Path.join directory name)
        else .ok [Path.join directory name]).map List.flatten) := by
  apply (Noted.Gives.mapM (fun name => listEntry_gives (inside (Path.join directory name))) names).map
  intro found
  exact .pure found.flatten

theorem listFiles_steady (files : Files) (search : Search) (levels : Nat) (directory : String) :
    (files.listFiles search levels directory).Gives (files.listFiles search levels directory).outcome := by
  induction levels generalizing directory with
  | zero => exact .pure []
  | succ levels ih =>
      rw [listFiles_succ]
      cases files.list directory with
      | error fault => exact (Noted.Gives.throw _).steady
      | ok names => exact (entries_give ih directory _).steady

theorem listing_eq (wellFormed : files.WellFormed) (search : Search) (directory : String) :
    files.listing search directory =
      match files.list directory with
      | .error fault => .error (.analysis (.unlistable directory fault))
      | .ok names => ((names.mergeSort (· ≤ ·)).mapM (files.branch search directory)).map List.flatten := by
  have levels := listFiles_deepest wellFormed search directory
  unfold listing
  rw [levels]
  cases files.list directory with
  | error fault => rfl
  | ok names => exact (entries_give (files.listFiles_steady search files.deepest) directory _).outcome_eq

end Listing

section Order

/-- Paths that stand for all sequences of names of a kind, in the order of these. -/
def Enumerates (found : List String) (path : List String → String) (kind : List String → Prop) : Prop :=
  ∃ routes : List (List String), routes.Pairwise Path.Earlier ∧ (∀ names, names ∈ routes ↔ kind names) ∧
    found = routes.map path

variable {path : List String → String} {kind : List String → Prop} {found : List String}

theorem Enumerates.congr {other : List String → Prop} (enumerates : Enumerates found path kind)
    (same : ∀ names, kind names ↔ other names) : Enumerates found path other := by
  rcases enumerates with ⟨routes, ordered, members, rfl⟩
  exact ⟨routes, ordered, fun names => (members names).trans (same names), rfl⟩

theorem Enumerates.filter (enumerates : Enumerates found path kind) (keep : String → Bool) :
    Enumerates (found.filter keep) path fun names => kind names ∧ keep (path names) := by
  rcases enumerates with ⟨routes, ordered, members, rfl⟩
  refine ⟨routes.filter (keep ∘ path), ordered.filter _, ?_, List.filter_map⟩
  intro names
  rw [List.mem_filter, members]
  rfl

theorem Enumerates.mem (enumerates : Enumerates found path kind) {source : String} :
    source ∈ found ↔ ∃ names, kind names ∧ path names = source := by
  rcases enumerates with ⟨routes, _, members, rfl⟩
  simp [members]

theorem Enumerates.nodup (enumerates : Enumerates found path kind)
    (inj : ∀ names others, kind names → kind others → path names = path others → names = others) :
    found.Nodup := by
  rcases enumerates with ⟨routes, ordered, members, rfl⟩
  apply List.pairwise_map.mpr
  refine ordered.imp_of_mem ?_
  intro names others member otherMember earlier same
  exact earlier.ne (inj names others ((members names).mp member) ((members others).mp otherMember) same)

-- By induction on the names, of which each is less than those after it.
theorem enumerates_flatten (path : List String → String) (kind : List String → Prop)
    {files : String → Except Interruption (List String)} {names : List String} {founds : List (List String)}
    (found : List.Forall₂ (fun name found => files name = .ok found) names founds) (sorted : names.Pairwise (· < ·))
    (each : ∀ name ∈ names, ∀ found, files name = .ok found →
      Enumerates found (fun rest => path (name :: rest)) fun rest => kind (name :: rest)) :
    Enumerates founds.flatten path fun route => ∃ name ∈ names, ∃ rest, route = name :: rest ∧ kind route := by
  induction found with
  | nil => exact ⟨[], .nil, by simp, rfl⟩
  | @cons name found names founds first others ih =>
      rcases List.pairwise_cons.mp sorted with ⟨least, sorted⟩
      rcases each name List.mem_cons_self found first with ⟨tails, ordered, members, rfl⟩
      rcases ih sorted fun other member => each other (List.mem_cons_of_mem name member) with
        ⟨routes, othersOrdered, othersMembers, same⟩
      refine ⟨tails.map (name :: ·) ++ routes, ?_, ?_, ?_⟩
      · apply List.pairwise_append.mpr
        refine ⟨List.pairwise_map.mpr (ordered.imp .cons), othersOrdered, ?_⟩
        intro early inFirst late inOthers
        rcases List.mem_map.mp inFirst with ⟨rest, _, rfl⟩
        rcases (othersMembers late).mp inOthers with ⟨later, member, _, rfl, _⟩
        exact .rel (least later member)
      · intro route
        rw [List.mem_append, List.mem_map, othersMembers]
        constructor
        · rintro (⟨rest, member, rfl⟩ | ⟨later, member, further⟩)
          · exact ⟨name, List.mem_cons_self, rest, rfl, (members rest).mp member⟩
          · exact ⟨later, List.mem_cons_of_mem name member, further⟩
        · rintro ⟨other, member, rest, rfl, holds⟩
          rcases List.mem_cons.mp member with rfl | later
          · exact .inl ⟨rest, (members rest).mpr holds, rfl⟩
          · exact .inr ⟨other, later, rest, rfl, holds⟩
      · rw [List.flatten_cons, same, List.map_append, List.map_map]
        rfl

end Order

section Exactness

variable {files : Files} {search : Search} {directory name : String}

theorem sorted_names (files : Files) (place : Place) :
    ((files.namesIn place).mergeSort (· ≤ ·)).Pairwise (· < ·) := by
  have distinct := (List.mergeSort_perm (files.namesIn place) (· ≤ ·)).nodup_iff.mpr (files.nodup_namesIn place)
  refine ((pairwise_sorted _).and distinct).imp ?_
  rintro name other ⟨less, apart⟩
  exact Decidable.byContradiction fun notLess => apart (String.le_antisymm less notLess)

theorem mem_list {names : List String} (listed : files.list directory = .ok names) :
    name ∈ names ↔ files.Holds directory name := by
  rcases list_eq_ok.mp listed with ⟨place, leads, _, rfl⟩
  rw [(files.order_perm directory _).mem_iff]
  constructor
  · intro member
    exact ⟨place, leads, member⟩
  · rintro ⟨other, alsoLeads, member⟩
    cases leads.symm.trans alsoLeads
    exact member

/-- What holds of all listings: it holds where a directory cannot be listed, and where one can if it holds of
all directories that are entered from there. -/
theorem listing_induct (wellFormed : files.WellFormed) (search : Search)
    {motive : String → Except Interruption (List String) → Prop}
    (failed : ∀ directory fault, files.list directory = .error fault →
      motive directory (.error (.analysis (.unlistable directory fault))))
    (listed : ∀ directory given (names : List String), files.list directory = .ok given → names.Pairwise (· < ·) →
      (∀ name, name ∈ names ↔ files.Holds directory name) →
      (∀ name ∈ names, name ∉ search.skipped → files.isDirectory (Path.join directory name) →
        motive (Path.join directory name) (files.listing search (Path.join directory name))) →
      motive directory ((names.mapM (files.branch search directory)).map List.flatten))
    (directory : String) : motive directory (files.listing search directory) := by
  induction directory using (enters_wellFounded wellFormed search).induction with
  | _ directory ih =>
      rw [listing_eq wellFormed]
      cases lists : files.list directory with
      | error fault => exact failed directory fault lists
      | ok given =>
          have same := List.mergeSort_perm given (· ≤ ·)
          have sorted : (given.mergeSort (· ≤ ·)).Pairwise (· < ·) := by
            rcases list_eq_ok.mp lists with ⟨place, _, _, rfl⟩
            rw [sort_order]
            exact files.sorted_names place
          apply listed directory given _ lists sorted
          · intro name
            rw [same.mem_iff, mem_list lists]
          · intro name member kept enters
            exact ih _ ⟨given, name, lists, same.mem_iff.mp member, kept, rfl, enters⟩

theorem branch_enumerates (holds : files.Holds directory name)
    (inside : name ∉ search.skipped → files.isDirectory (Path.join directory name) →
      ∀ found, files.listing search (Path.join directory name) = .ok found →
        Enumerates found (Path.extend (Path.join directory name))
          (files.Route search (Path.join directory name)))
    {found : List String} (branched : files.branch search directory name = .ok found) :
    Enumerates found (fun rest => Path.extend directory (name :: rest))
      fun rest => files.Route search directory (name :: rest) := by
  unfold branch at branched
  split at branched
  · next skipped =>
      cases branched
      exact ⟨[], .nil, by simp [route_cons, skipped], rfl⟩
  · next kept =>
      split at branched
      · next enters =>
          apply (inside kept enters found branched).congr
          intro rest
          simp [route_cons, holds, kept, enters]
      · next file =>
          cases branched
          exact ⟨[[]], List.pairwise_singleton _ _, by simp [route_cons, holds, kept, file], rfl⟩

theorem listing_enumerates (wellFormed : files.WellFormed) (search : Search) (directory : String) :
    ∀ found, files.listing search directory = .ok found →
      Enumerates found (Path.extend directory) (files.Route search directory) := by
  apply listing_induct wellFormed search
    (motive := fun directory result => ∀ found, result = .ok found →
      Enumerates found (Path.extend directory) (files.Route search directory))
  · intro directory fault _ found succeeds
    cases succeeds
  · intro directory given names _ sorted held inside found succeeds
    cases mapped : names.mapM (files.branch search directory) with
    | error cause =>
        rw [mapped] at succeeds
        cases succeeds
    | ok founds =>
        rw [mapped] at succeeds
        cases succeeds
        have all := enumerates_flatten (Path.extend directory) (files.Route search directory)
          (forall₂_of_mapM mapped) sorted fun name member found branched =>
            branch_enumerates ((held name).mp member) (inside name member) branched
        apply all.congr
        intro route
        constructor
        · rintro ⟨_, _, _, _, leads⟩
          exact leads
        · intro leads
          cases route with
          | nil => exact absurd rfl leads.given
          | cons name rest => exact ⟨name, (held name).mpr (route_cons.mp leads).1, rest, rfl, leads⟩

/-- The files at or under a path, whatever their extensions, or what keeps them from being found. -/
def sought (files : Files) (search : Search) (path : String) : Except Interruption (List String) :=
  match files.look path with
  | .error fault => .error (.breakdown (.unseen path fault))
  | .ok none => .error (.analysis (.missingPath path))
  | .ok (some (.file _)) => .ok [path]
  | .ok (some _) => files.listing search path

theorem seek_gives (files : Files) (search : Search) (path : String) :
    (files.seek search path).Gives (files.sought search path) := by
  unfold seek sought
  cases files.look path with
  | error fault => exact .throw _
  | ok stored =>
      cases stored with
      | none => exact .throw _
      | some stored =>
          cases stored with
          | file content => exact .pure _
          | directory | link | device => exact files.listFiles_steady search files.deepest path

theorem discover_gives (files : Files) (search : Search) (path : String) :
    (files.discover search path).Gives ((files.sought search path).map (List.filter search.accepts)) := by
  rw [discover_eq]
  apply Noted.Gives.note
  apply (files.seek_gives search path).map
  intro all
  exact .note _ (.pure _)

-- A path that leads to a directory as it is written leads there when it is tidied, if that is known to lead
-- anywhere.
theorem stored_of_isDirectory {path : String} {stored : Stored} (directory : files.isDirectory path)
    (seen : files.look path = .ok (some stored)) : stored = .directory := by
  rcases isDirectory_iff.mp directory with ⟨place, leads⟩
  rcases reached_of_resolve leads with ⟨left, reached⟩
  rcases look_some seen with ⟨other, tidied⟩
  cases reached.leads.symm.trans (resolveTidy_ok tidied)
  rfl

theorem given_of_isDirectory {path : String} (directory : files.isDirectory path) : path ≠ "" := by
  rintro rfl
  cases directory

end Exactness

/-- Searches are exact and ordered. The sources found under a directory are the ends of the routes that have
one of the extensions, each of them once, in the order of their names. -/
theorem discover_exact (files : Files) (wellFormed : files.WellFormed) (search : Search) {path : String}
    (directory : files.isDirectory path) {events notes : Array Event} {found : List String}
    (returns : files.discover search path events = .ok found notes) :
    (∀ source, source ∈ found ↔ ∃ names, files.Route search path names ∧ source = Path.extend path names ∧
      ∃ extension ∈ search.extensions, extension.toList <:+ source.toList) ∧
    found.Nodup ∧
    ∃ routes : List (List String), routes.Pairwise Path.Earlier ∧
      (∀ names ∈ routes, files.Route search path names) ∧ found = routes.map (Path.extend path) := by
  rcases files.discover_gives search path events with ⟨more, ran⟩
  have sought : files.sought search path = files.listing search path := by
    unfold Files.sought at ran ⊢
    cases looked : files.look path with
    | error fault => simp [looked, returns, leaving, Except.map] at ran
    | ok stored =>
        cases stored with
        | none => simp [looked, returns, leaving, Except.map] at ran
        | some stored =>
            cases stored_of_isDirectory directory looked
            rfl
  rw [returns, sought] at ran
  cases listed : files.listing search path with
  | error cause =>
      rw [listed] at ran
      cases ran
  | ok all =>
      rw [listed] at ran
      cases ran
      have kept := (listing_enumerates wellFormed search path all listed).filter search.accepts
      refine ⟨?_, ?_, ?_⟩
      · intro source
        rw [kept.mem]
        constructor
        · rintro ⟨names, ⟨route, accepted⟩, rfl⟩
          exact ⟨names, route, rfl, (search.accepts_iff _).mp accepted⟩
        · rintro ⟨names, route, rfl, suffix⟩
          exact ⟨names, ⟨route, (search.accepts_iff _).mpr suffix⟩, rfl⟩
      · apply kept.nodup
        rintro names others ⟨route, _⟩ ⟨other, _⟩ same
        exact Path.extend_inj (given_of_isDirectory directory) (route.trail.isName wellFormed)
          (other.trail.isName wellFormed) same
      · rcases kept with ⟨routes, ordered, members, found⟩
        exact ⟨routes, ordered, fun names member => ((members names).mp member).1, found⟩

/-- Sources in a directory, beside it and behind a link to it, and one that is passed over. -/
def shelf : Files where
  stored := ((∅ : Std.TreeMap Place Stored).insert ["a"] .directory).insert ["a", "c.js"] (.file .empty)
    |>.insert ["a.js"] (.file .empty) |>.insert ["b"] (.link "a") |>.insert ["node_modules"] .directory
    |>.insert ["node_modules", "d.js"] (.file .empty)
  order := fun _ names => names.reverse
  order_perm := fun _ names => names.reverse_perm

theorem shelf_wellFormed : shelf.WellFormed := by
  have keys : shelf.stored.keys =
      [["a"], ["a", "c.js"], ["a.js"], ["b"], ["node_modules"], ["node_modules", "d.js"]] := by decide +kernel
  apply wellFormed_of_keys rfl rfl
  · rw [keys]
    intro place member
    simp only [List.mem_cons, List.not_mem_nil, or_false] at member
    rcases member with rfl | rfl | rfl | rfl | rfl | rfl <;> rfl
  · rw [keys]
    decide

theorem shelf_resolve {path : String} (given : path ≠ "") (sound : shelf.pathFault? path = none)
    {names : List String} (components : Path.components path = names) :
    shelf.resolve path = shelf.follow 40 [] names := by
  rw [resolve_home rfl given sound, components]
  rfl

theorem shelf_turn {here : Place} {name : String} (directory : shelf.get? here = some .directory)
    (named : Path.IsName name) (short : name.utf8ByteSize ≤ 255) :
    shelf.turn here name =
      match shelf.get? (here ++ [name]) with
      | some (.link target) =>
          .ok (.jump (if Path.isAbsolute target then [] else here) (Path.components target))
      | some _ => .ok (.go (here ++ [name]))
      | none => .ok (.free (here ++ [name])) :=
  turn_passable directory ⟨⟨named.1, named.2.1, named.2.2.1⟩, List.not_mem_nil, short⟩

theorem shelf_turns : shelf.turn [] "." = .ok (.go []) ∧ shelf.turn [] "a" = .ok (.go ["a"]) ∧
    shelf.turn ["a"] "c.js" = .ok (.go ["a", "c.js"]) ∧ shelf.turn [] "a.js" = .ok (.go ["a.js"]) ∧
    shelf.turn [] "b" = .ok (.jump [] ["a"]) := by
  refine ⟨turn_dot rfl List.not_mem_nil, ?_, ?_, ?_, ?_⟩
  · exact shelf_turn rfl (by decide) (by decide)
  · exact shelf_turn rfl (by decide) (by decide)
  · exact shelf_turn rfl (by decide) (by decide)
  · exact shelf_turn rfl (by decide) (by decide)

theorem shelf_held : shelf.get? [] = some .directory ∧ shelf.get? ["a"] = some .directory ∧
    shelf.get? ["a", "c.js"] = some (.file .empty) ∧ shelf.get? ["a.js"] = some (.file .empty) :=
  ⟨rfl, rfl, rfl, rfl⟩

theorem shelf_root : shelf.resolve "." = .ok (.at [] .directory) :=
  resolve_dot rfl rfl (by decide) (by decide)

theorem shelf_entry : shelf.resolve (Path.join "." "a") = .ok (.at ["a"] .directory) := by
  rw [shelf_resolve (by decide) (by decide) (by decide : _ = [".", "a"])]
  simp [follow, shelf_turns, shelf_held]

theorem shelf_linked : shelf.resolve (Path.join "." "b") = .ok (.at ["a"] .directory) := by
  rw [shelf_resolve (by decide) (by decide) (by decide : _ = [".", "b"])]
  simp [follow, shelf_turns, shelf_held]

theorem shelf_file : shelf.isDirectory (Path.join "." "a.js") = false ∧
    shelf.isDirectory (Path.join (Path.join "." "a") "c.js") = false ∧
    shelf.isDirectory (Path.join (Path.join "." "b") "c.js") = false := by
  refine ⟨?_, ?_, ?_⟩
  · rw [isDirectory, shelf_resolve (by decide) (by decide) (by decide : _ = [".", "a.js"])]
    simp [follow, shelf_turns, shelf_held]
  · rw [isDirectory, shelf_resolve (by decide) (by decide) (by decide : _ = [".", "a", "c.js"])]
    simp [follow, shelf_turns, shelf_held]
  · rw [isDirectory, shelf_resolve (by decide) (by decide) (by decide : _ = [".", "b", "c.js"])]
    simp [follow, shelf_turns, shelf_held]

theorem shelf_look : shelf.look "." = .ok (some .directory) :=
  look_dot rfl rfl (by decide)

theorem shelf_names : shelf.namesIn [] = ["a", "a.js", "b", "node_modules"] ∧ shelf.namesIn ["a"] = ["c.js"] := by
  decide +kernel

-- The directory in the store, as it is met by its own name and by the link.
theorem shelf_inner {path : String} (leads : shelf.resolve path = .ok (.at ["a"] .directory))
    (file : shelf.isDirectory (Path.join path "c.js") = false) :
    shelf.listing {} path = .ok [Path.join path "c.js"] := by
  have listed : shelf.list path = .ok (shelf.order path ["c.js"]) :=
    list_eq_ok.mpr ⟨["a"], leads, by decide, by rw [shelf_names.2]⟩
  have sorted : ["c.js"].mergeSort (· ≤ ·) = ["c.js"] := List.mergeSort_of_pairwise (by decide)
  rw [listing_eq shelf_wellFormed, listed]
  simp only [sort_order, sorted]
  simp [branch, file, Except.map, bind, Except.bind, pure, Except.pure]

theorem shelf_listing : shelf.listing {} "." =
    .ok [Path.join (Path.join "." "a") "c.js", Path.join "." "a.js", Path.join (Path.join "." "b") "c.js"] := by
  rcases shelf_file with ⟨file, fileInner, fileLinked⟩
  have listed : shelf.list "." = .ok (shelf.order "." ["a", "a.js", "b", "node_modules"]) :=
    list_eq_ok.mpr ⟨[], shelf_root, by decide, by rw [shelf_names.1]⟩
  have sorted : ["a", "a.js", "b", "node_modules"].mergeSort (· ≤ ·) = ["a", "a.js", "b", "node_modules"] :=
    List.mergeSort_of_pairwise (by decide)
  rw [listing_eq shelf_wellFormed, listed]
  simp only [sort_order, sorted]
  simp [branch, file, isDirectory_iff.mpr ⟨_, shelf_entry⟩, isDirectory_iff.mpr ⟨_, shelf_linked⟩,
    shelf_inner shelf_entry fileInner, shelf_inner shelf_linked fileLinked, Except.map, bind, Except.bind, pure,
    Except.pure]

-- As texts, the second path would come first.
theorem shelf_exact : ∃ notes, shelf.discover {} "." #[] = .ok ["./a/c.js", "./a.js", "./b/c.js"] notes ∧
    (∀ source, source ∈ ["./a/c.js", "./a.js", "./b/c.js"] ↔ ∃ names, shelf.Route {} "." names ∧
      source = Path.extend "." names ∧ ∃ extension ∈ [".js"], extension.toList <:+ source.toList) ∧
    ["./a/c.js", "./a.js", "./b/c.js"].Nodup ∧
    ∃ routes : List (List String), routes.Pairwise Path.Earlier ∧ (∀ names ∈ routes, shelf.Route {} "." names) ∧
      ["./a/c.js", "./a.js", "./b/c.js"] = routes.map (Path.extend ".") := by
  have directory : shelf.isDirectory "." := isDirectory_iff.mpr ⟨_, shelf_root⟩
  have kept : (shelf.sought {} ".").map (List.filter (Search.accepts {})) =
      .ok ["./a/c.js", "./a.js", "./b/c.js"] := by
    simp only [sought, shelf_look, shelf_listing]
    rfl
  rcases shelf.discover_gives {} "." #[] with ⟨notes, ran⟩
  rw [kept] at ran
  exact ⟨notes, ran, discover_exact shelf shelf_wellFormed {} directory ran⟩

end Files

end ScriptMetrics
