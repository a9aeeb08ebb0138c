import ScriptMetrics.Proofs.Passage
import ScriptMetrics.Proofs.Survey

/-!
Listing a store to which files have been added. The same directories are entered in the same order,
and each of them lists what it listed before with the new files in between. A listing may go as
deep as the deepest place allows and stop there; what it finds does not depend on that bound, as
each directory that is entered uses up a link or goes one name deeper.
-/

namespace ScriptMetrics

section Alike

variable {α β γ δ : Type}

/-- Both computations fail, or both have results, which are related. -/
inductive EndAlike (R : α → β → Prop) :
    EStateM.Result Interruption (Array Event) α → EStateM.Result Interruption (Array Event) β → Prop where
  | failed (cause other : Interruption) (events notes : Array Event) :
      EndAlike R (.error cause events) (.error other notes)
  | found {a : α} {b : β} (related : R a b) (events notes : Array Event) : EndAlike R (.ok a events) (.ok b notes)

/-- Two searches that end alike, whatever has been noted before. -/
def Noted.Alike (R : α → β → Prop) (left : Noted α) (right : Noted β) : Prop :=
  ∀ events notes, EndAlike R (left events) (right notes)

namespace Noted

variable {R : α → β → Prop} {S : γ → δ → Prop}

theorem Alike.pure {a : α} {b : β} (related : R a b) : Alike R (Pure.pure a) (Pure.pure b) :=
  fun events notes => .found related events notes

theorem Alike.throw (cause other : Interruption) : Alike R (MonadExcept.throw cause) (MonadExcept.throw other) :=
  fun events notes => .failed cause other events notes

theorem Alike.note (event other : Event) : Alike (fun _ _ => True) (Noted.note event) (Noted.note other) :=
  fun events notes => .found trivial (events.push event) (notes.push other)

theorem Alike.bind {left : Noted α} {right : Noted β} {f : α → Noted γ} {g : β → Noted δ}
    (alike : Alike R left right) (next : ∀ a b, R a b → Alike S (f a) (g b)) :
    Alike S (left >>= f) (right >>= g) := by
  intro events notes
  have ends := alike events notes
  show EndAlike S (EStateM.bind left f events) (EStateM.bind right g notes)
  unfold EStateM.bind
  generalize left events = first at ends
  generalize right notes = second at ends
  cases ends with
  | failed cause other events notes => exact .failed cause other events notes
  | found related events notes => exact next _ _ related events notes

end Noted

end Alike

namespace Files

/-- A path, however long, leads to no file that has appeared or changed. -/
def Untouched (before after : Files) (path : String) : Prop :=
  ∀ place content, after.leads path = .ok (.at place (.file content)) → before.get? place = some (.file content)

/-- Two lists of paths of which the second may hold more, but nothing that is looked for and untouched. -/
def Thicker (search : Search) (before after : Files) (paths more : List String) : Prop :=
  (∀ path ∈ more, search.accepts path → before.Untouched after path) →
    more.filter search.accepts = paths.filter search.accepts

section Thicker

variable {search : Search} {before after : Files}

theorem Thicker.refl (paths : List String) : Thicker search before after paths paths :=
  fun _ => rfl

theorem Thicker.append {paths more others rest : List String} (front : Thicker search before after paths more)
    (back : Thicker search before after others rest) :
    Thicker search before after (paths ++ others) (more ++ rest) := by
  intro untouched
  have early := front fun path member => untouched path (List.mem_append_left rest member)
  have late := back fun path member => untouched path (List.mem_append_right more member)
  rw [List.filter_append, List.filter_append, early, late]

theorem Thicker.extra {path : String} (touched : ¬ before.Untouched after path) :
    Thicker search before after [] [path] := by
  intro untouched
  by_cases accepted : search.accepts path
  · exact absurd (untouched path List.mem_cons_self accepted) touched
  · simp [accepted]

-- A name that is not held takes no part in the first listing.
theorem Thicker.mapM (held : String → Bool) {f g : String → Noted (List String)} (names : List String)
    (both : ∀ name ∈ names, held name → Noted.Alike (Thicker search before after) (f name) (g name))
    (extra : ∀ name ∈ names, ¬ held name →
      Noted.Alike (fun _ more => Thicker search before after [] more) (pure ()) (g name)) :
    Noted.Alike (fun found more => Thicker search before after found.flatten more.flatten)
      ((names.filter held).mapM f) (names.mapM g) := by
  induction names with
  | nil => exact .pure (.refl [])
  | cons name names ih =>
      have others := ih (fun other member => both other (List.mem_cons_of_mem name member))
        (fun other member => extra other (List.mem_cons_of_mem name member))
      rw [List.mapM_cons]
      by_cases here : held name
      · rw [List.filter_cons_of_pos here, List.mapM_cons]
        apply (both name List.mem_cons_self here).bind
        intro found more first
        apply others.bind
        intro founds mores rest
        exact .pure (first.append rest)
      · rw [List.filter_cons_of_neg here, ← bind_pure ((names.filter held).mapM f),
          ← pure_bind () fun _ => ((names.filter held).mapM f >>= pure : Noted _)]
        apply (extra name List.mem_cons_self here).bind
        intro _ more first
        apply others.bind
        intro founds mores rest
        exact .pure (first.append rest)

end Thicker

/-- The most names that lead to a place. -/
def span (files : Files) : Nat :=
  (files.stored.keys.map List.length).foldl max files.working.length

theorem length_le_span {files : Files} {place : Place} (held : files.get? place ≠ none) :
    place.length ≤ files.span := by
  have working : files.working.length ≤ files.span := by
    unfold span
    rw [List.foldl_max]
    exact Nat.le_max_left _ _
  unfold get? at held
  cases stored : files.stored[place]? with
  | some _ =>
      have key : place ∈ files.stored.keys := by
        rw [Std.TreeMap.mem_keys, Std.TreeMap.mem_iff_isSome_getElem?, stored]
        rfl
      unfold span
      rw [List.foldl_max]
      exact Nat.le_trans (List.le_max?_getD_of_mem (List.mem_map_of_mem key)) (Nat.le_max_right _ _)
  | none =>
      simp only [stored] at held
      by_cases given : place = [] ∨ place = files.working
      · rcases given with rfl | rfl
        · exact Nat.zero_le _
        · exact working
      · simp [given] at held

/-- How many directories may still be entered one below the other. -/
def room (files : Files) (left : Nat) (place : Place) : Nat :=
  left * (files.span + 1) + (files.span - place.length)

theorem Reached.room_lt_deepest {files : Files} {path : String} {left : Nat} {place : Place}
    (reached : files.Reached path left place) : files.room left place < files.deepest := by
  have few := Nat.mul_le_mul_right (files.span + 1) reached.links
  unfold room deepest
  rw [Nat.add_mul]
  show _ < files.linkLimit * (files.span + 1) + 1 * (files.span + 1) + 1
  omega

theorem room_lt {files : Files} {left still : Nat} {place inner : Place} {name : String}
    (held : files.get? inner ≠ none) (entered : still = left ∧ inner = place ++ [name] ∨ still < left) :
    files.room still inner < files.room left place := by
  have inside := length_le_span held
  unfold room
  rcases entered with ⟨rfl, rfl⟩ | less
  · rw [List.length_append, List.length_singleton] at inside ⊢
    omega
  · have fewer := Nat.mul_le_mul_right (files.span + 1) less
    rw [Nat.succ_mul] at fewer
    omega

section Names

variable {files : Files} {place : Place} {name : String}

theorem mem_namesIn : name ∈ files.namesIn place ↔ files.stored[place ++ [name]]?.isSome := by
  unfold namesIn
  rw [List.mem_filterMap, ← Std.TreeMap.mem_iff_isSome_getElem?, ← Std.TreeMap.mem_keys]
  constructor
  · rintro ⟨key, member, last⟩
    split at last
    · next front =>
        obtain ⟨directory, rfl⟩ := List.getLast?_eq_some_iff.mp last
        rw [List.dropLast_concat] at front
        rwa [← front]
    · cases last
  · intro member
    exact ⟨place ++ [name], member, by simp⟩

theorem nodup_namesIn (files : Files) (place : Place) : (files.namesIn place).Nodup := by
  refine files.nodup_keys.filterMap ?_
  intro key other name last alsoLast
  simp only [Option.mem_ite_none_right] at last alsoLast
  obtain ⟨front, rfl⟩ := List.getLast?_eq_some_iff.mp last.2
  obtain ⟨otherFront, rfl⟩ := List.getLast?_eq_some_iff.mp alsoLast.2
  rw [List.dropLast_concat] at last alsoLast
  rw [last.1, alsoLast.1]

end Names

section Sorted

theorem pairwise_sorted (names : List String) : (names.mergeSort (· ≤ ·)).Pairwise (· ≤ ·) := by
  refine (List.pairwise_mergeSort ?_ ?_ names).imp of_decide_eq_true
  · simpa using fun a b c => String.le_trans
  · simpa using String.le_total

theorem eq_of_sorted {names others : List String} (same : names.Perm others) (sorted : names.Pairwise (· ≤ ·))
    (otherSorted : others.Pairwise (· ≤ ·)) : names = others :=
  same.eq_of_pairwise (fun _ _ _ _ => String.le_antisymm) sorted otherSorted

/-- In whatever order a directory gives its names, they are sorted alike. -/
theorem sort_order (files : Files) (path : String) (names : List String) :
    (files.order path names).mergeSort (· ≤ ·) = names.mergeSort (· ≤ ·) := by
  refine eq_of_sorted ?_ (pairwise_sorted _) (pairwise_sorted _)
  have given := (List.mergeSort_perm (files.order path names) (· ≤ ·)).trans (files.order_perm path names)
  exact given.trans (List.mergeSort_perm names (· ≤ ·)).symm

end Sorted

section Directories

variable {files : Files}

theorem isDirectory_iff {path : String} :
    files.isDirectory path = true ↔ ∃ place, files.resolve path = .ok (.at place .directory) := by
  unfold Files.isDirectory
  split
  · next place leads => simp [leads]
  · next other => simpa using other

theorem list_eq_ok {path : String} {names : List String} :
    files.list path = .ok names ↔ ∃ place, files.resolve path = .ok (.at place .directory) ∧
      place ∉ files.unlistable ∧ names = files.order path (files.namesIn place) := by
  unfold Files.list
  constructor
  · intro listed
    split at listed
    · cases listed
    · cases listed
    · next place leads =>
        split at listed
        · cases listed
        · next listable =>
            cases listed
            exact ⟨place, leads, listable, rfl⟩
    · cases listed
  · rintro ⟨place, leads, listable, rfl⟩
    simp [leads, listable]

/-- Room gets less in each directory that is entered. -/
theorem Reached.enter (wellFormed : files.WellFormed) {directory name : String} {left : Nat} {place : Place}
    (reached : files.Reached directory left place) (held : name ∈ files.namesIn place)
    (inside : files.isDirectory (Path.join directory name)) :
    ∃ still inner, files.Reached (Path.join directory name) still inner ∧
      files.room still inner < files.room left place := by
  have present := Option.isSome_iff_ne_none.mp (mem_namesIn.mp held)
  have plain : Path.IsName name := wellFormed.named (place ++ [name]) present name (by simp)
  rcases isDirectory_iff.mp inside with ⟨inner, leads⟩
  rcases reached.below plain leads with ⟨still, further, entered⟩
  have inhabited : files.get? inner ≠ none := by simp [further.directory]
  exact ⟨still, inner, further, room_lt inhabited entered⟩

end Directories

section Extended

variable {grows : Place → Prop} {before after : Files}

theorem Extended.isDirectory (extended : before.Extended grows after) (wellFormed : before.WellFormed)
    (path : String) : after.isDirectory path = before.isDirectory path := by
  unfold Files.isDirectory
  have way := extended.resolve wellFormed path
  generalize before.resolve path = old at way
  generalize after.resolve path = new at way
  cases way <;> rfl

theorem Extended.isSome (extended : before.Extended grows after) {place : Place}
    (held : before.stored[place]?.isSome) : after.stored[place]?.isSome := by
  have entry := extended.stored place
  generalize before.stored[place]? = old at entry held
  generalize after.stored[place]? = new at entry
  cases entry with
  | same => exact held
  | grown => rfl
  | made => rfl

-- What has appeared stands where nothing stood, and may be there.
theorem Extended.appeared (extended : before.Extended grows after) {place : Place}
    (free : before.stored[place]?.isSome = false) (held : after.stored[place]?.isSome) :
    grows place ∧ before.get? place = none := by
  have apart := extended.apart place
  have entry := extended.stored place
  rw [Option.isSome_eq_false_iff, Option.isNone_iff_eq_none] at free
  rw [free] at entry
  unfold Files.get? at apart ⊢
  simp only [free] at apart ⊢
  generalize after.stored[place]? = new at entry held
  cases entry with
  | same => cases held
  | made content may =>
      refine ⟨may, ?_⟩
      by_cases given : place = [] ∨ place = before.working
      · simp [given, may] at apart
      · simp [given]

-- Names come in strict order, so that the names from before come in the order they came in.
theorem Extended.sorted_names (extended : before.Extended grows after) (place : Place) :
    (before.namesIn place).mergeSort (· ≤ ·) =
      ((after.namesIn place).mergeSort (· ≤ ·)).filter fun name => before.stored[place ++ [name]]?.isSome := by
  have members (name : String) : name ∈ before.namesIn place ↔
      name ∈ (after.namesIn place).filter fun name => before.stored[place ++ [name]]?.isSome := by
    rw [List.mem_filter, mem_namesIn, mem_namesIn]
    exact ⟨fun held => ⟨extended.isSome held, held⟩, And.right⟩
  have same := (List.perm_ext_iff_of_nodup (before.nodup_namesIn place)
    ((after.nodup_namesIn place).filter _)).mpr members
  have sorted := ((List.mergeSort_perm (before.namesIn place) (· ≤ ·)).trans same).trans
    ((List.mergeSort_perm (after.namesIn place) (· ≤ ·)).symm.filter _)
  exact eq_of_sorted sorted (pairwise_sorted _) ((pairwise_sorted _).filter _)

theorem Extended.leads (extended : before.Extended grows after) (wellFormed : before.WellFormed)
    (path : String) : NearWay grows (before.leads path) (after.leads path) := by
  unfold Files.leads
  rw [extended.start, extended.rules]
  exact extended.follow wellFormed _ _ _ (before.get?_start path)

theorem Extended.touched (extended : before.Extended grows after) (wellFormed : before.WellFormed) {path : String}
    {place : Place} (leads : before.leads path = .ok (.free place))
    (present : after.stored[place]?.isSome) : ¬ before.Untouched after path := by
  have free : before.get? place = none := follow_fits leads
  have way := extended.leads wellFormed path
  rw [leads] at way
  intro untouched
  cases ends : after.leads path with
  | error fault =>
      rw [ends] at way
      cases way
  | ok found =>
      rw [ends] at way
      cases way with
      | same =>
          have still : after.get? place = none := follow_fits ends
          rw [stored_of_free still] at present
          cases present
      | made _ content may =>
          rw [untouched place content ends] at free
          cases free

theorem Extended.list (extended : before.Extended grows after) (wellFormed : before.WellFormed) {path : String}
    {place : Place} (leads : before.resolve path = .ok (.at place .directory)) :
    (∃ fault, before.list path = .error fault ∧ after.list path = .error fault) ∨
      before.list path = .ok (before.order path (before.namesIn place)) ∧
        after.list path = .ok (after.order path (after.namesIn place)) := by
  have still : after.resolve path = .ok (.at place .directory) := by
    have way := extended.resolve wellFormed path
    rw [leads] at way
    generalize after.resolve path = new at way
    cases way
    rfl
  unfold Files.list
  simp only [leads, still, extended.rules]
  by_cases denied : place ∈ before.unlistable
  · exact .inl ⟨.denied, by simp [denied]⟩
  · exact .inr (by simp [denied])

/-- What one name adds to the files of a directory. -/
def listEntry (files : Files) (search : Search) (levels : Nat) (directory name : String) :
    Noted (List String) := do
  let entry := Path.join directory name
  if search.skipped.contains name then
    Noted.note (finderEvent .debug "directory_skipped" [("directory", .text entry)])
    return []
  else if files.isDirectory entry then
    files.listFiles search levels entry
  else
    return [entry]

theorem listFiles_succ (files : Files) (search : Search) (levels : Nat) (directory : String) :
    files.listFiles search (levels + 1) directory =
      match files.list directory with
      | .error fault => throw (.analysis (.unlistable directory fault))
      | .ok names => do
          let found ← (names.mergeSort (· ≤ ·)).mapM (files.listEntry search levels directory)
          return found.flatten :=
  rfl

theorem Extended.listEntry (extended : before.Extended grows after) (wellFormed : before.WellFormed)
    {search : Search} {levels more : Nat} {directory name : String}
    (inside : before.isDirectory (Path.join directory name) →
      Noted.Alike (Thicker search before after) (before.listFiles search levels (Path.join directory name))
        (after.listFiles search more (Path.join directory name))) :
    Noted.Alike (Thicker search before after) (before.listEntry search levels directory name)
      (after.listEntry search more directory name) := by
  simp only [Files.listEntry, extended.isDirectory wellFormed]
  split
  · exact (Noted.Alike.note _ _).bind fun _ _ _ => .pure (.refl [])
  · split
    · next enters => exact inside enters
    · exact .pure (.refl _)

theorem Reached.not_isDirectory {files : Files} {directory name : String} {left : Nat} {place : Place}
    (reached : files.Reached directory left place) (named : Path.IsName name)
    (free : files.follow left place [name] = .ok (.free (place ++ [name]))) :
    files.isDirectory (Path.join directory name) = false := by
  apply Bool.eq_false_iff.mpr
  intro enters
  rcases isDirectory_iff.mp enters with ⟨inner, leads⟩
  rw [reached.resolve_entry named (resolve_ok leads).2.1, free] at leads
  cases leads

theorem Extended.listEntry_new (extended : before.Extended grows after) (wellFormed : before.WellFormed)
    (search : Search) (levels : Nat) {directory name : String} {left : Nat} {place : Place}
    (reached : before.Reached directory left place) (named : Path.IsName name) (passable : before.Passable place name)
    (free : before.get? (place ++ [name]) = none) (present : after.stored[place ++ [name]]?.isSome) :
    Noted.Alike (fun _ more => Thicker search before after [] more) (pure ())
      (after.listEntry search levels directory name) := by
  have ends : before.follow left place [name] = .ok (.free (place ++ [name])) := by
    rw [follow_name reached.directory passable (by simp [free]), free]
    rfl
  have touched : ¬ before.Untouched after (Path.join directory name) := by
    apply extended.touched wellFormed ?_ present
    rw [reached.leads_entry named, ends]
  simp only [Files.listEntry, extended.isDirectory wellFormed, reached.not_isDirectory named ends]
  split
  · exact fun events notes => .found (.refl []) events _
  · exact .pure (.extra touched)

/-- What appears, appears under a name, where a way can go. -/
def Admits (files : Files) (grows : Place → Prop) : Prop :=
  ∀ directory name, grows (directory ++ [name]) → files.get? (directory ++ [name]) = none →
    Path.IsName name ∧ files.Passable directory name

-- By induction on the levels of the first listing, of which there are always more than room is left.
theorem Extended.listFiles (extended : before.Extended grows after) (wellFormed : before.WellFormed)
    (admits : before.Admits grows) (search : Search)
    {levels more : Nat} {directory : String} {left : Nat} {place : Place}
    (reached : before.Reached directory left place) (enough : before.room left place < levels)
    (enoughToo : before.room left place < more) :
    Noted.Alike (Thicker search before after) (before.listFiles search levels directory)
      (after.listFiles search more directory) := by
  induction levels generalizing more directory left place with
  | zero => exact absurd enough (Nat.not_lt_zero _)
  | succ levels ih =>
      cases more with
      | zero => exact absurd enoughToo (Nat.not_lt_zero _)
      | succ more =>
          rw [listFiles_succ, listFiles_succ]
          rcases extended.list wellFormed reached.resolve with ⟨fault, first, second⟩ | ⟨first, second⟩
          · rw [first, second]
            exact .throw _ _
          · rw [first, second]
            simp only [sort_order, extended.sorted_names]
            refine Noted.Alike.bind (Thicker.mapM _ _ ?_ ?_) fun _ _ thicker => .pure thicker
            · intro name member held
              apply extended.listEntry wellFormed
              intro inside
              rcases reached.enter wellFormed (mem_namesIn.mpr held) inside with ⟨still, inner, further, less⟩
              exact ih further (by omega) (by omega)
            · intro name member absent
              have present : after.stored[place ++ [name]]?.isSome :=
                mem_namesIn.mp ((List.mergeSort_perm _ _).mem_iff.mp member)
              have ⟨may, free⟩ := extended.appeared (Bool.eq_false_iff.mpr absent) present
              have ⟨named, passable⟩ := admits place name may free
              exact extended.listEntry_new wellFormed search more reached named passable free present

theorem list_error {files : Files} {path : String} (other : ¬ files.isDirectory path) :
    ∃ fault, files.list path = .error fault := by
  unfold Files.list
  cases leads : files.resolve path with
  | error fault => exact ⟨fault, rfl⟩
  | ok found =>
      cases found with
      | free place => exact ⟨_, rfl⟩
      | «at» place stored =>
          cases stored with
          | directory => exact absurd (isDirectory_iff.mpr ⟨place, leads⟩) other
          | file content => exact ⟨_, rfl⟩
          | link target => exact ⟨_, rfl⟩
          | device device => exact ⟨_, rfl⟩

theorem Extended.span_le (extended : before.Extended grows after) : before.span ≤ after.span := by
  have working : before.working.length ≤ after.span := by
    rw [← extended.working]
    apply length_le_span
    unfold Files.get?
    cases after.stored[after.working]? <;> simp
  have span : before.span = _ := List.foldl_max
  rw [span]
  apply Nat.max_le.mpr
  refine ⟨working, ?_⟩
  cases longest : (before.stored.keys.map List.length).max? with
  | none => exact working
  | some length =>
      obtain ⟨place, key, rfl⟩ := List.mem_map.mp (List.max?_mem longest)
      apply length_le_span
      have held := extended.isSome (Std.TreeMap.mem_iff_isSome_getElem?.mp (Std.TreeMap.mem_keys.mp key))
      unfold Files.get?
      obtain ⟨stored, found⟩ := Option.isSome_iff_exists.mp held
      simp [found]

theorem Extended.listAll (extended : before.Extended grows after) (wellFormed : before.WellFormed)
    (admits : before.Admits grows) (search : Search) (path : String) :
    Noted.Alike (Thicker search before after) (before.listFiles search before.deepest path)
      (after.listFiles search after.deepest path) := by
  by_cases directory : before.isDirectory path
  · obtain ⟨place, leads⟩ := isDirectory_iff.mp directory
    obtain ⟨left, reached⟩ := reached_of_resolve leads
    have enough := reached.room_lt_deepest
    have deeper : before.deepest ≤ after.deepest := by
      have wider := Nat.mul_le_mul_left (before.linkLimit + 1) (Nat.succ_le_succ extended.span_le)
      unfold deepest
      rw [extended.rules]
      exact Nat.succ_le_succ wider
    exact extended.listFiles wellFormed admits search reached enough (Nat.lt_of_lt_of_le enough deeper)
  · obtain ⟨fault, first⟩ := list_error directory
    rw [← extended.isDirectory wellFormed] at directory
    obtain ⟨other, second⟩ := list_error directory
    unfold deepest
    rw [listFiles_succ, listFiles_succ, first, second]
    exact .throw _ _

theorem Extended.seek (extended : before.Extended grows after) (wellFormed : before.WellFormed)
    (admits : before.Admits grows) (search : Search) (path : String)
    (kept : before.look path = .ok none → after.look path = .ok none) :
    Noted.Alike (Thicker search before after) (before.seek search path) (after.seek search path) := by
  unfold Files.seek
  unfold Files.look at kept ⊢
  have way := extended.resolveTidy wellFormed path
  generalize before.resolveTidy path = old at way kept
  generalize after.resolveTidy path = new at way kept
  cases way with
  | same =>
      cases old with
      | error fault => cases fault <;> exact .throw _ _
      | ok found =>
          cases found with
          | free place => exact .throw _ _
          | «at» place stored =>
              cases stored with
              | file content => exact .pure (.refl _)
              | directory | link | device => exact extended.listAll wellFormed admits search path
  | grown place content more may => exact .pure (.refl _)
  | made place content may => cases kept rfl
  | blocked => exact .throw _ _

theorem Extended.discover (extended : before.Extended grows after) (wellFormed : before.WellFormed)
    (admits : before.Admits grows) (search : Search) (path : String)
    (kept : before.look path = .ok none → after.look path = .ok none) :
    Noted.Alike (fun found more => (∀ source ∈ more, before.Untouched after source) → more = found)
      (before.discover search path) (after.discover search path) := by
  rw [discover_eq, discover_eq]
  apply (Noted.Alike.note _ _).bind
  intro _ _ _
  refine Noted.Alike.bind (extended.seek wellFormed admits search path kept) ?_
  intro paths more thicker
  apply (Noted.Alike.note _ _).bind
  intro _ _ _
  apply Noted.Alike.pure
  intro untouched
  apply thicker
  intro source member accepted
  exact untouched source (List.mem_filter.mpr ⟨member, accepted⟩)

/-- Where no source has appeared or changed, the same sources are found, or none can be. -/
theorem Extended.sources (extended : before.Extended grows after) (wellFormed : before.WellFormed)
    (admits : before.Admits grows) (search : Search) (path : String)
    (kept : before.look path = .ok none → after.look path = .ok none)
    (untouched : ∀ found, after.sources search path = .ok found → ∀ source ∈ found, before.Untouched after source) :
    (after.sources search path).toOption = (before.sources search path).toOption := by
  have ends := extended.discover wellFormed admits search path kept #[] #[]
  unfold Files.sources at untouched ⊢
  generalize before.discover search path #[] = first at ends
  generalize after.discover search path #[] = second at ends untouched
  cases ends with
  | failed => rfl
  | @found paths more same =>
      rw [same (untouched more rfl)]

end Extended

end Files

end ScriptMetrics
