import ScriptMetrics.Proofs.Trails

/-!
When a search fails. It fails if its path leads nowhere, or if it comes to a directory that cannot be
listed; of several such directories the error names the first, in the order in which the search goes.
What stands under a name that is passed over is not looked at, and may be listed or not. A path of which
it cannot be told whether it leads anywhere, such as one with a name that is too long, breaks a search off
with no error of its own.
-/

namespace ScriptMetrics

namespace Files

/-- The names lead a search to a directory that cannot be listed. If another one stands in the way, the way
is blocked there first. -/
structure Blocked (files : Files) (search : Search) (root : String) (names : List String) (fault : PathFault) :
    Prop where
  trail : files.Trail search root names
  entered : names ≠ [] → files.isDirectory (Path.extend root names)
  fails : files.list (Path.extend root names) = .error fault

section Blocked

variable {files : Files} {search : Search} {directory name : String} {names : List String} {fault : PathFault}

theorem blocked_cons : files.Blocked search directory (name :: names) fault ↔
    files.Holds directory name ∧ name ∉ search.skipped ∧ files.isDirectory (Path.join directory name) ∧
      files.Blocked search (Path.join directory name) names fault := by
  constructor
  · rintro ⟨trail, entered, fails⟩
    rcases trail_cons.mp trail with ⟨holds, kept, onward⟩
    have last := entered (List.cons_ne_nil name names)
    exact ⟨holds, kept, onward.isDirectory last, onward, fun _ => last, fails⟩
  · rintro ⟨holds, kept, inside, trail, entered, fails⟩
    refine ⟨trail_cons.mpr ⟨holds, kept, trail⟩, ?_, fails⟩
    intro _
    cases names with
    | nil => exact inside
    | cons next names => exact entered (List.cons_ne_nil next names)

end Blocked

section First

variable {α β : Type} {path : List String → String} {blocked : List String → PathFault → Prop}

/-- Names at which a search is blocked, and before any others at which it is. -/
def First (blocked : List String → PathFault → Prop) (names : List String) (fault : PathFault) : Prop :=
  blocked names fault ∧ ∀ others reason, blocked others reason → others = names ∨ Path.Earlier names others

/-- A result is an error exactly if a search is blocked, and then names the first place where it is. -/
def NamesFirst (path : List String → String) (blocked : List String → PathFault → Prop) :
    Except Interruption α → Prop
  | .ok _ => ∀ names fault, ¬ blocked names fault
  | .error cause => ∃ names fault, First blocked names fault ∧ cause = .analysis (.unlistable (path names) fault)

theorem NamesFirst.map {result : Except Interruption α} (first : NamesFirst path blocked result) (f : α → β) :
    NamesFirst path blocked (result.map f) := by
  cases result <;> exact first

theorem NamesFirst.congr {other : List String → PathFault → Prop} {result : Except Interruption α}
    (first : NamesFirst path blocked result) (same : ∀ names fault, blocked names fault ↔ other names fault) :
    NamesFirst path other result := by
  have equal : blocked = other := funext fun names => funext fun fault => propext (same names fault)
  rwa [← equal]

theorem NamesFirst.error_iff {result : Except Interruption α} (first : NamesFirst path blocked result) :
    (∃ cause, result = .error cause) ↔ ∃ names fault, blocked names fault := by
  cases result with
  | error cause =>
      rcases first with ⟨names, fault, ⟨blocks, _⟩, _⟩
      exact ⟨fun _ => ⟨names, fault, blocks⟩, fun _ => ⟨cause, rfl⟩⟩
  | ok value =>
      constructor
      · rintro ⟨_, fails⟩
        cases fails
      · rintro ⟨names, fault, blocks⟩
        exact absurd blocks (first names fault)

theorem NamesFirst.analysis_iff {result : Except Interruption α} (first : NamesFirst path blocked result) :
    (∃ cause, result = .error (.analysis cause)) ↔ ∃ cause, result = .error cause := by
  cases result with
  | ok value => simp
  | error cause =>
      rcases first with ⟨names, fault, _, rfl⟩
      simp

theorem NamesFirst.ne_breakdown {result : Except Interruption α} (first : NamesFirst path blocked result)
    (cause : Breakdown) : result ≠ .error (.breakdown cause) := by
  rintro rfl
  rcases first with ⟨names, fault, _, same⟩
  cases same

-- By induction on the names, of which each is less than those after it.
theorem namesFirst_mapM (path : List String → String) (blocked : List String → PathFault → Prop)
    {files : String → Except Interruption α} {names : List String} (sorted : names.Pairwise (· < ·))
    (each : ∀ name ∈ names,
      NamesFirst (fun rest => path (name :: rest)) (fun rest => blocked (name :: rest)) (files name)) :
    NamesFirst path (fun route fault => ∃ name ∈ names, ∃ rest, route = name :: rest ∧ blocked route fault)
      (names.mapM files) := by
  induction names with
  | nil =>
      rintro _ _ ⟨_, member, _⟩
      cases member
  | cons name names ih =>
      rcases List.pairwise_cons.mp sorted with ⟨least, sorted⟩
      have here := each name List.mem_cons_self
      have others := ih sorted fun other member => each other (List.mem_cons_of_mem name member)
      rw [List.mapM_cons]
      cases first : files name with
      | error cause =>
          rw [first] at here
          rcases here with ⟨rest, fault, ⟨blocks, before⟩, rfl⟩
          refine ⟨name :: rest, fault, ⟨⟨name, List.mem_cons_self, rest, rfl, blocks⟩, ?_⟩, rfl⟩
          rintro _ reason ⟨other, member, rest', rfl, blocksToo⟩
          rcases List.mem_cons.mp member with rfl | later
          · rcases before rest' reason blocksToo with rfl | earlier
            · exact .inl rfl
            · exact .inr (.cons earlier)
          · exact .inr (.rel (least other later))
      | ok found =>
          rw [first] at here
          have whole : NamesFirst path (fun route fault =>
              ∃ other ∈ name :: names, ∃ rest, route = other :: rest ∧ blocked route fault)
              ((names.mapM files).map (found :: ·)) := by
            apply (others.map _).congr
            intro route fault
            constructor
            · rintro ⟨other, member, further⟩
              exact ⟨other, List.mem_cons_of_mem name member, further⟩
            · rintro ⟨other, member, rest, rfl, blocks⟩
              rcases List.mem_cons.mp member with rfl | later
              · exact absurd blocks (here rest fault)
              · exact ⟨other, later, rest, rfl, blocks⟩
          generalize names.mapM files = later at whole ⊢
          cases later <;> exact whole

end First

section Failing

variable {files : Files} {search : Search} {directory name : String}

theorem branch_namesFirst (holds : files.Holds directory name)
    (inside : name ∉ search.skipped → files.isDirectory (Path.join directory name) →
      NamesFirst (Path.extend (Path.join directory name)) (files.Blocked search (Path.join directory name))
        (files.listing search (Path.join directory name))) :
    NamesFirst (fun rest => Path.extend directory (name :: rest))
      (fun rest => files.Blocked search directory (name :: rest)) (files.branch search directory name) := by
  unfold branch
  split
  · next skipped =>
      intro rest fault blocked
      exact (blocked_cons.mp blocked).2.1 skipped
  · next kept =>
      split
      · next enters =>
          apply (inside kept enters).congr
          intro rest fault
          simp [blocked_cons, holds, kept, enters]
      · next file =>
          intro rest fault blocked
          exact file (blocked_cons.mp blocked).2.2.1

-- A directory that cannot be listed blocks a search before all that is below it does.
theorem listing_namesFirst (wellFormed : files.WellFormed) (search : Search) (directory : String) :
    NamesFirst (Path.extend directory) (files.Blocked search directory) (files.listing search directory) := by
  apply listing_induct wellFormed search
    (motive := fun directory => NamesFirst (Path.extend directory) (files.Blocked search directory))
  · intro directory fault fails
    refine ⟨[], fault, ⟨⟨trail_nil, fun given => absurd rfl given, fails⟩, ?_⟩, rfl⟩
    intro others reason _
    cases others with
    | nil => exact .inl rfl
    | cons other others => exact .inr .nil
  · intro directory given names listed sorted held inside
    have all := namesFirst_mapM (Path.extend directory) (files.Blocked search directory) sorted
      fun name member => branch_namesFirst ((held name).mp member) (inside name member)
    apply (all.map List.flatten).congr
    intro route fault
    constructor
    · rintro ⟨_, _, _, _, blocked⟩
      exact blocked
    · intro blocked
      cases route with
      | nil => cases listed.symm.trans blocked.fails
      | cons name rest => exact ⟨name, (held name).mpr (blocked_cons.mp blocked).1, rest, rfl, blocked⟩

/-- What a search comes to goes by what its path leads to. -/
inductive Begins (files : Files) (search : Search) (path : String) : Except Interruption (List String) → Prop where
  | unseen {fault : PathFault} (blind : files.look path = .error fault) :
      Begins files search path (.error (.breakdown (.unseen path fault)))
  | missing (missing : files.look path = .ok none) : Begins files search path (.error (.analysis (.missingPath path)))
  | file {content : ByteArray} (found : files.look path = .ok (some (.file content))) :
      Begins files search path (.ok [path])
  | listing {stored : Stored} (found : files.look path = .ok (some stored))
      (other : ∀ content, stored ≠ .file content) : Begins files search path (files.listing search path)

theorem sought_begins (files : Files) (search : Search) (path : String) :
    files.Begins search path (files.sought search path) := by
  unfold sought
  cases looked : files.look path with
  | error fault => exact .unseen looked
  | ok stored =>
      cases stored with
      | none => exact .missing looked
      | some stored =>
          cases stored with
          | file content => exact .file looked
          | directory | link | device => exact .listing looked nofun

/-- A search that comes to a result fails if there is none. -/
theorem discover_error (files : Files) (search : Search) (path : String) (events : Array Event)
    (cause : Interruption) :
    (∃ notes, files.discover search path events = .error cause notes) ↔
      files.sought search path = .error cause := by
  rcases files.discover_gives search path events with ⟨notes, ran⟩
  rw [ran]
  cases files.sought search path <;> simp [leaving, Except.map]

end Failing

section Denied

theorem follow_congr {files other : Files} (held : ∀ place, other.get? place = files.get? place)
    (turns : ∀ here name, other.turn here name = files.turn here name) (links : Nat) (here : Place)
    (names : List String) : other.follow links here names = files.follow links here names := by
  fun_induction Files.follow files links here names with
  | case4 links here name rest next turned ih =>
      simp only [Files.follow, turns, turned]
      exact ih
  | case6 links here name rest next target turned left ih =>
      simp only [Files.follow, turns, turned, left, ↓reduceIte]
      exact ih
  | case1 links here stored stands => simp only [Files.follow, held, stands]
  | case2 links here free => simp only [Files.follow, held, free]
  | case3 links here name rest fault turned => simp only [Files.follow, turns, turned]
  | case5 here name rest next target turned => simp only [Files.follow, turns, turned, ↓reduceIte]
  | case7 links here name rest place turned last => simp only [Files.follow, turns, turned, last, ↓reduceIte]
  | case8 links here name rest place turned more => simp [Files.follow, turns, turned, more]

/-- A store with other directories that cannot be listed. -/
def denying (files : Files) (denied : List Place) : Files :=
  { files with unlistable := denied }

variable {files : Files} {search : Search} {directory : String} {denied : List Place}

theorem denying_follow (files : Files) (denied : List Place) (links : Nat) (here : Place)
    (names : List String) : (files.denying denied).follow links here names = files.follow links here names := by
  apply follow_congr
  · exact fun _ => rfl
  · exact fun _ _ => rfl

theorem denying_resolve (files : Files) (denied : List Place) (path : String) :
    (files.denying denied).resolve path = files.resolve path := by
  simp only [resolve, denying_follow]
  rfl

theorem denying_isDirectory (files : Files) (denied : List Place) (path : String) :
    (files.denying denied).isDirectory path = files.isDirectory path := by
  simp only [isDirectory, denying_resolve]

theorem denying_look (files : Files) (denied : List Place) (path : String) :
    (files.denying denied).look path = files.look path := by
  have tidied : (files.denying denied).resolveTidy path = files.resolveTidy path := by
    unfold resolveTidy
    rw [denying_follow]
    rfl
  unfold look
  rw [tidied]

/-- Wherever a search comes from a directory, it can be listed in both stores or in neither. -/
def DeniedAlike (files : Files) (search : Search) (directory : String) (denied : List Place) : Prop :=
  ∀ names place, files.Trail search directory names →
    files.resolve (Path.extend directory names) = .ok (.at place .directory) →
    (place ∈ denied ↔ place ∈ files.unlistable)

theorem DeniedAlike.list (alike : files.DeniedAlike search directory denied) :
    (files.denying denied).list directory = files.list directory := by
  unfold Files.list
  rw [denying_resolve]
  split
  · rfl
  · rfl
  · next place leads =>
      have same := alike [] place trail_nil leads
      simp only [denying, same]
      rfl
  · rfl

theorem DeniedAlike.inside (alike : files.DeniedAlike search directory denied) {name : String}
    (holds : files.Holds directory name) (kept : name ∉ search.skipped) :
    files.DeniedAlike search (Path.join directory name) denied := by
  intro names place trail leads
  exact alike (name :: names) place (trail_cons.mpr ⟨holds, kept, trail⟩) leads

theorem DeniedAlike.listFiles (alike : files.DeniedAlike search directory denied) (levels : Nat) :
    (files.denying denied).listFiles search levels directory = files.listFiles search levels directory := by
  induction levels generalizing directory with
  | zero => rfl
  | succ levels ih =>
      rw [listFiles_succ, listFiles_succ, alike.list]
      cases listed : files.list directory with
      | error fault => rfl
      | ok names =>
          have entries := mapM_congr ((files.denying denied).listEntry search levels directory)
            (files.listEntry search levels directory) (names.mergeSort (· ≤ ·)) <| by
              intro name member
              have holds := (mem_list listed).mp ((List.mergeSort_perm names _).mem_iff.mp member)
              simp only [listEntry, denying_isDirectory]
              split
              · rfl
              · next kept => simp only [ih (alike.inside holds (by simpa using kept))]
          simp only [entries]

/-- Directories that a search never comes to can be listed or not: it ends with the same result and notes. -/
theorem DeniedAlike.discover {path : String} (alike : files.DeniedAlike search path denied) :
    (files.denying denied).discover search path = files.discover search path := by
  have deepest : (files.denying denied).deepest = files.deepest := rfl
  have seeks : (files.denying denied).seek search path = files.seek search path := by
    unfold seek
    rw [denying_look, deepest, alike.listFiles]
  rw [discover_eq, discover_eq, seeks]

end Denied

/-- Of a name that is longer than names may be it cannot be told whether anything stands under it. -/
theorem look_long {files : Files} {name : String} (named : Path.IsName name) (sound : files.pathFault? name = none)
    (directory : files.get? files.working = some .directory) (searchable : files.working ∉ files.unsearchable)
    (long : files.nameLimit < name.utf8ByteSize) : files.look name = .error .nameTooLong := by
  rcases List.exists_cons_of_ne_nil (show name.toList ≠ [] by simpa using named.1) with ⟨first, rest, chars⟩
  have slashless : first ≠ '/' := by
    rintro rfl
    exact named.2.2.2 (chars ▸ List.mem_cons_self)
  have tidy : Path.tidy name = [name] := by
    simp [Path.tidy, Path.components_name named, named.1, named.2.1]
  have slashes : Path.slashes name = 0 := by
    unfold Path.slashes
    rw [chars]
    split <;> simp_all
  have same : Path.tidyText name = name := by
    simp [Path.tidyText, tidy, slashes, named.1, String.pushn, Nat.repeat]
  have start : files.start name = files.working := by
    simp [Files.start, Path.isAbsolute, chars, slashless]
  have turned : files.turn files.working name = .error .nameTooLong := by
    simp [turn, directory, searchable, named.1, named.2.1, named.2.2.1, long]
  simp [look, resolveTidy, same, sound, tidy, start, follow, turned, PathFault.saysAbsent]

/-- Searches fail only if they must, and name the first culprit. The path leads nowhere, or it leads to no file
and a directory that the search comes to cannot be listed; then the error names the first such directory.
Whether directories can be listed that the search does not come to has no effect. If it cannot be told whether
the path leads anywhere, that is what breaks the search off, and it is no error of the analyzer. -/
theorem discover_fails (files : Files) (wellFormed : files.WellFormed) (search : Search) (path : String)
    (events : Array Event) :
    ((∃ cause notes, files.discover search path events = .error (.analysis cause) notes) ↔
      files.look path = .ok none ∨
        ∃ stored, files.look path = .ok (some stored) ∧ (∀ content, stored ≠ .file content) ∧
          ∃ names fault, files.Blocked search path names fault) ∧
    (∀ cause notes, files.discover search path events = .error (.analysis cause) notes →
      cause.title = "AnalysisPathError" ∧
      (files.look path = .ok none → cause = .missingPath path) ∧
      (files.look path ≠ .ok none → ∃ names fault, First (files.Blocked search path) names fault ∧
        cause = .unlistable (Path.extend path names) fault)) ∧
    (∀ cause, (∃ notes, files.discover search path events = .error (.breakdown cause) notes) ↔
      ∃ fault, files.look path = .error fault ∧ cause = .unseen path fault) ∧
    ∀ denied, files.DeniedAlike search path denied →
      (files.denying denied).discover search path events = files.discover search path events := by
  have first := listing_namesFirst wellFormed search path
  have begins := files.sought_begins search path
  have fails := files.discover_error search path events
  generalize files.sought search path = result at begins fails
  refine ⟨?_, ?_, ?_, ?_⟩
  · simp only [fails]
    cases begins with
    | unseen blind => simp [blind]
    | missing missing => simp [missing]
    | file found => simp [found]
    | @listing stored found other =>
        simp only [found, Except.ok.injEq, reduceCtorEq, Option.some.injEq, exists_eq_left', false_or]
        rw [and_iff_right other, ← first.error_iff]
        exact first.analysis_iff
  · intro cause notes ran
    have failed := (fails _).mp ⟨notes, ran⟩
    cases begins with
    | unseen blind => cases failed
    | file found => cases failed
    | missing missing =>
        cases failed
        exact ⟨rfl, fun _ => rfl, fun present => absurd missing present⟩
    | listing found other =>
        rw [failed] at first
        rcases first with ⟨names, fault, isFirst, same⟩
        cases same
        refine ⟨rfl, fun missing => ?_, fun _ => ⟨names, fault, isFirst, rfl⟩⟩
        cases found.symm.trans missing
  · intro cause
    rw [fails]
    cases begins with
    | unseen blind => simp [blind, eq_comm]
    | missing missing => simp [missing]
    | file found => simp [found]
    | listing found other =>
        simp only [found, reduceCtorEq, false_and, exists_false, iff_false]
        exact first.ne_breakdown cause
  · intro denied alike
    rw [alike.discover]

/-- The shelf with both of its directories closed, one of which is passed over. -/
def closed : Files :=
  shelf.denying [["a"], ["node_modules"]]

theorem closed_wellFormed : closed.WellFormed :=
  ⟨shelf_wellFormed.enclosed, shelf_wellFormed.named⟩

theorem closed_blocked : closed.Blocked {} "." ["a"] .denied := by
  have root : closed.resolve "." = .ok (.at [] .directory) := (shelf.denying_resolve _ _).trans shelf_root
  have entry : closed.resolve (Path.join "." "a") = .ok (.at ["a"] .directory) :=
    (shelf.denying_resolve _ _).trans shelf_entry
  constructor
  · exact trail_cons.mpr ⟨⟨[], root, by decide +kernel⟩, by decide, trail_nil⟩
  · intro _
    exact isDirectory_iff.mpr ⟨["a"], entry⟩
  · rw [Path.extend_cons, Path.extend_nil, Files.list, entry]
    rfl

theorem shelf_below {path : String} {names : List String} {place : Place}
    (within : shelf.resolve path = .ok (.at ["a"] .directory))
    (file : shelf.isDirectory (Path.join path "c.js") = false) (trail : shelf.Trail {} path names)
    (leads : shelf.resolve (Path.extend path names) = .ok (.at place .directory)) : place = ["a"] := by
  cases names with
  | nil =>
      cases within.symm.trans leads
      rfl
  | cons name names =>
      rcases trail_cons.mp trail with ⟨⟨other, alsoWithin, member⟩, _, onward⟩
      cases within.symm.trans alsoWithin
      rw [shelf_names.2, List.mem_singleton] at member
      subst member
      have enters := onward.isDirectory (isDirectory_iff.mpr ⟨place, leads⟩)
      rw [file] at enters
      cases enters

-- All that a search comes to is the store itself and the directory, which it comes to twice.
theorem shelf_alike : shelf.DeniedAlike {} "." [["node_modules"]] := by
  intro names place trail leads
  have apart : place ≠ ["node_modules"] := by
    cases names with
    | nil =>
        cases shelf_root.symm.trans leads
        decide
    | cons name names =>
        rcases trail_cons.mp trail with ⟨⟨other, root, member⟩, kept, onward⟩
        cases shelf_root.symm.trans root
        rw [shelf_names.1] at member
        simp only [List.mem_cons, List.not_mem_nil, or_false] at member
        rcases member with rfl | rfl | rfl | rfl
        · rw [shelf_below shelf_entry shelf_file.2.1 onward leads]
          decide
        · have enters := onward.isDirectory (isDirectory_iff.mpr ⟨place, leads⟩)
          rw [shelf_file.1] at enters
          cases enters
        · rw [shelf_below shelf_linked shelf_file.2.2 onward leads]
          decide
        · exact absurd (List.mem_singleton_self _) kept
  simp [apart, shelf]

/-- The same letter so many times. -/
def longName (count : Nat) : String :=
  String.ofList (List.replicate count 'x')

theorem longName_chars (count : Nat) : (longName count).toList = List.replicate count 'x' :=
  String.toList_ofList

theorem longName_size (count : Nat) : (longName count).utf8ByteSize = count := by
  unfold longName
  induction count with
  | zero => rfl
  | succ count ih =>
      have single : "x".utf8ByteSize = 1 := by decide
      simp [List.replicate_succ, String.ofList_cons, ih, single, Nat.add_comm]

theorem longName_isName {count : Nat} (long : 2 < count) : Path.IsName (longName count) := by
  have other (short : String) (brief : short.utf8ByteSize ≤ 2) : longName count ≠ short := by
    rintro rfl
    rw [longName_size] at brief
    omega
  exact ⟨other _ (by decide), other _ (by decide), other _ (by decide), by simp [longName_chars]⟩

theorem longName_look {count : Nat} (long : 255 < count) (room : count < 4096) :
    closed.look (longName count) = .error .nameTooLong := by
  have limits : closed.pathLimit = 4096 ∧ closed.nameLimit = 255 := ⟨rfl, rfl⟩
  apply look_long (longName_isName (by omega)) _ rfl List.not_mem_nil
  · rw [longName_size, limits.2]
    exact long
  · simp [Rules.pathFault?, longName_chars, longName_size, limits.1, Nat.not_le_of_lt room]

theorem closed_fails :
    (∃ names fault notes, First (closed.Blocked {} ".") names fault ∧
      closed.discover {} "." #[] = .error (.analysis (.unlistable (Path.extend "." names) fault)) notes) ∧
    (∃ notes, closed.discover {} (longName 300) #[] =
      .error (.breakdown (.unseen (longName 300) .nameTooLong)) notes) ∧
    (shelf.denying [["node_modules"]]).discover {} "." #[] = shelf.discover {} "." #[] := by
  have present : closed.look "." = .ok (some .directory) := (shelf.denying_look _ _).trans shelf_look
  rcases discover_fails closed closed_wellFormed {} "." #[] with ⟨fails, first, _, _⟩
  rcases fails.mpr (.inr ⟨_, present, nofun, ["a"], .denied, closed_blocked⟩) with ⟨cause, notes, ran⟩
  rcases (first cause notes ran).2.2 (by simp [present]) with ⟨names, fault, isFirst, rfl⟩
  refine ⟨⟨names, fault, notes, isFirst, ran⟩, ?_, ?_⟩
  · exact ((discover_fails closed closed_wellFormed {} (longName 300) #[]).2.2.1 _).mpr
      ⟨_, longName_look (by decide) (by decide), rfl⟩
  · exact (discover_fails shelf shelf_wellFormed {} "." #[]).2.2.2 _ shelf_alike

end Files

end ScriptMetrics
