import ScriptMetrics.Proofs.Extension

/-!
Ways through directories. Once a way has come to a directory, all that matters of it is where it is
and how many links it may still follow; components that name nothing could as well be left out. So
a path to a name in a directory goes on where the path to the directory ended.
-/

namespace ScriptMetrics

namespace Path

/-- Components of which some that name nothing have been left out. -/
inductive Thinned : List String → List String → Prop where
  | nil : Thinned [] []
  | keep (name : String) {names kept : List String} (rest : Thinned names kept) :
      Thinned (name :: names) (name :: kept)
  | drop {name : String} (blank : (name == "" || name == ".") = true) {names kept : List String}
      (rest : Thinned names kept) : Thinned (name :: names) kept

theorem Thinned.refl (names : List String) : Thinned names names := by
  induction names with
  | nil => exact .nil
  | cons name names ih => exact .keep name ih

theorem Thinned.prepend (front : List String) {names kept : List String} (thinned : Thinned names kept) :
    Thinned (front ++ names) (front ++ kept) := by
  induction front with
  | nil => exact thinned
  | cons name front ih => exact .keep name ih

theorem Thinned.trans {first second third : List String} (front : Thinned first second)
    (back : Thinned second third) : Thinned first third := by
  induction front generalizing third with
  | nil => exact back
  | keep name rest ih =>
      cases back with
      | keep _ further => exact .keep name (ih further)
      | drop blank further => exact .drop blank (ih further)
  | drop blank rest ih => exact .drop blank (ih back)

-- What names something is never left out.
theorem Thinned.concat {front kept : List String} {name : String} (named : IsName name)
    (thinned : Thinned (front ++ [name]) kept) : ∃ less, kept = less ++ [name] ∧ Thinned front less := by
  induction front generalizing kept with
  | nil =>
      cases thinned with
      | keep _ rest =>
          cases rest
          exact ⟨[], rfl, .nil⟩
      | drop blank rest => simp [named.1, named.2.1] at blank
  | cons first front ih =>
      cases thinned with
      | keep _ rest =>
          obtain ⟨less, rfl, thinned⟩ := ih rest
          exact ⟨first :: less, rfl, .keep first thinned⟩
      | drop blank rest =>
          obtain ⟨less, rfl, thinned⟩ := ih rest
          exact ⟨less, rfl, .drop blank thinned⟩

theorem thinned_tidy (path : String) : Thinned (components path) (tidy path) := by
  unfold tidy
  induction components path with
  | nil => exact .nil
  | cons name names ih =>
      by_cases blank : name = "" ∨ name = "."
      · rw [List.filter_cons_of_neg (by simpa [← Decidable.or_iff_not_imp_left] using blank)]
        exact .drop (by simpa using blank) ih
      · rw [List.filter_cons_of_pos (by simpa using blank)]
        exact .keep name ih

theorem not_mem_of_splitOn {chars piece : List Char} (member : piece ∈ chars.splitOn '/') : '/' ∉ piece := by
  induction chars generalizing piece with
  | nil =>
      rw [List.splitOn_nil, List.mem_singleton] at member
      simp [member]
  | cons char chars ih =>
      rw [List.splitOn_cons_eq_if_modifyHead] at member
      split at member
      · rcases List.mem_cons.mp member with rfl | later
        · exact List.not_mem_nil
        · exact ih later
      · next other =>
          cases pieces : chars.splitOn '/' with
          | nil => exact absurd pieces (List.splitOn_ne_nil '/' chars)
          | cons first rest =>
              rw [pieces] at member ih
              rcases List.mem_cons.mp member with rfl | later
              · rintro (_ | ⟨_, inside⟩)
                · simp at other
                · exact ih List.mem_cons_self inside
              · exact ih (List.mem_cons_of_mem first later)

theorem components_slashless {path name : String} (member : name ∈ components path) : '/' ∉ name.toList := by
  obtain ⟨piece, split, rfl⟩ := List.mem_map.mp member
  rw [String.toList_ofList]
  exact not_mem_of_splitOn split

theorem components_name {name : String} (named : IsName name) : components name = [name] := by
  unfold components
  rw [List.splitOn_eq_singleton named.2.2.2, List.map_singleton, String.ofList_toList]

-- The slash that a path ends with makes an empty component, which the name then takes the place of.
theorem components_join {directory name : String} (given : directory ≠ "") (named : IsName name) :
    ∃ front, components (join directory name) = front ++ [name] ∧ Thinned (components directory) front := by
  have own := components_name named
  unfold components at own ⊢
  unfold join
  by_cases slash : directory.toList.getLast? = some '/'
  · obtain ⟨front, ends⟩ := List.getLast?_eq_some_iff.mp slash
    simp only [slash, beq_self_eq_true, Bool.or_true, ↓reduceIte]
    rw [String.toList_append, ends, List.append_assoc, List.singleton_append, List.splitOn_append_cons_self,
      List.splitOn_append_cons_self, List.map_append, List.map_append, own]
    refine ⟨_, rfl, ?_⟩
    have blank := Thinned.prepend ((front.splitOn '/').map String.ofList) (.drop rfl .nil : Thinned [""] [])
    simpa using blank
  · have plain : (directory == "" || directory.toList.getLast? == some '/') = false := by simp [given, slash]
    simp only [plain, Bool.false_eq_true, ↓reduceIte]
    rw [String.toList_append, String.toList_append, List.append_assoc]
    have separator : "/".toList = ['/'] := rfl
    rw [separator, List.singleton_append, List.splitOn_append_cons_self, List.map_append, own]
    exact ⟨_, rfl, .refl _⟩

theorem isAbsolute_join {directory : String} (given : directory ≠ "") (name : String) :
    isAbsolute (join directory name) = isAbsolute directory := by
  have filled : directory.toList ≠ [] := by simpa using given
  obtain ⟨first, rest, chars⟩ := List.exists_cons_of_ne_nil filled
  unfold isAbsolute join
  split <;> simp [chars]

theorem join_ne_empty {directory : String} (given : directory ≠ "") (name : String) :
    join directory name ≠ "" := by
  unfold join
  split <;> simp [given]

end Path

namespace Files

-- By induction on the way. What is left out is passed over where it stands, in a directory.
theorem follow_through {files : Files} {links : Nat} {here place : Place} {names : List String}
    (ends : files.follow links here names = .ok (.at place .directory)) :
    ∃ left ≤ links, ∀ kept, Path.Thinned names kept → ∀ rest,
      files.follow links here (kept ++ rest) = files.follow left place rest := by
  fun_induction Files.follow files links here names with
  | case1 links here stored held =>
      cases ends
      refine ⟨links, Nat.le_refl links, ?_⟩
      intro kept thinned rest
      cases thinned
      rfl
  | case4 links here name names next turned ih =>
      obtain ⟨left, fewer, through⟩ := ih ends
      refine ⟨left, fewer, ?_⟩
      intro kept thinned rest
      cases thinned with
      | keep _ thinned =>
          rw [List.cons_append, Files.follow]
          simp only [turned]
          exact through _ thinned rest
      | drop blank thinned =>
          cases turn_blank blank turned
          exact through _ thinned rest
  | case6 links here name names next target turned some ih =>
      obtain ⟨left, fewer, through⟩ := ih ends
      refine ⟨left, Nat.le_trans fewer (Nat.sub_le links 1), ?_⟩
      intro kept thinned rest
      cases thinned with
      | keep _ thinned =>
          rw [List.cons_append, Files.follow]
          simp only [turned, some, ↓reduceIte]
          rw [← List.append_assoc]
          exact through _ (thinned.prepend _) rest
      | drop blank _ => cases turn_blank blank turned
  | case2 | case3 | case5 | case7 | case8 => cases ends

/-- Where the components of a tidied path lead, however long it is. -/
def leads (files : Files) (path : String) : Except PathFault Found :=
  files.follow files.linkLimit (files.start path) (Path.tidy path)

theorem resolve_ok {files : Files} {path : String} {found : Found} (ends : files.resolve path = .ok found) :
    path ≠ "" ∧ files.pathFault? path = none ∧
      files.follow files.linkLimit (files.start path) (Path.components path) = .ok found := by
  unfold resolve at ends
  split at ends
  · cases ends
  · next given =>
      split at ends
      · cases ends
      · next sound => exact ⟨by simpa using given, sound, ends⟩

theorem resolveTidy_ok {files : Files} {path : String} {found : Found}
    (ends : files.resolveTidy path = .ok found) : files.leads path = .ok found := by
  unfold resolveTidy at ends
  split at ends
  · cases ends
  · exact ends

theorem look_some {files : Files} {path : String} {stored : Stored} (seen : files.look path = .ok (some stored)) :
    ∃ place, files.resolveTidy path = .ok (.at place stored) := by
  unfold look at seen
  split at seen
  · next place held ends =>
      cases seen
      exact ⟨place, ends⟩
  · cases seen
  · split at seen <;> cases seen

/-- A path leads to the directory at a place, and from there on so many links may be followed. -/
structure Reached (files : Files) (path : String) (left : Nat) (place : Place) : Prop where
  given : path ≠ ""
  sound : files.pathFault? path = none
  links : left ≤ files.linkLimit
  directory : files.get? place = some .directory
  through : ∀ names, Path.Thinned (Path.components path) names → ∀ rest,
    files.follow files.linkLimit (files.start path) (names ++ rest) = files.follow left place rest

section Reached

variable {files : Files} {path name : String} {left : Nat} {place : Place}

theorem reached_of_resolve (ends : files.resolve path = .ok (.at place .directory)) :
    ∃ left, files.Reached path left place := by
  rcases resolve_ok ends with ⟨given, sound, way⟩
  rcases follow_through way with ⟨left, links, through⟩
  exact ⟨left, given, sound, links, follow_fits way, through⟩

theorem Reached.resolve (reached : files.Reached path left place) :
    files.resolve path = .ok (.at place .directory) := by
  have whole := reached.through _ (.refl _) []
  rw [List.append_nil] at whole
  simp [Files.resolve, reached.given, reached.sound, whole, Files.follow, reached.directory]

theorem Reached.leads (reached : files.Reached path left place) :
    files.leads path = .ok (.at place .directory) := by
  have whole := reached.through _ (Path.thinned_tidy path) []
  rw [List.append_nil] at whole
  simp [Files.leads, whole, Files.follow, reached.directory]

theorem Reached.entry (reached : files.Reached path left place) (named : Path.IsName name) {names : List String}
    (thinned : Path.Thinned (Path.components (Path.join path name)) names) (rest : List String) :
    files.follow files.linkLimit (files.start (Path.join path name)) (names ++ rest) =
      files.follow left place (name :: rest) := by
  have started : files.start (Path.join path name) = files.start path := by
    unfold Files.start
    rw [Path.isAbsolute_join reached.given]
  obtain ⟨front, components, less⟩ := Path.components_join reached.given named
  rw [components] at thinned
  obtain ⟨kept, rfl, further⟩ := thinned.concat named
  rw [started, List.append_assoc]
  exact reached.through kept (less.trans further) (name :: rest)

theorem Reached.resolve_entry (reached : files.Reached path left place) (named : Path.IsName name)
    (sound : files.pathFault? (Path.join path name) = none) :
    files.resolve (Path.join path name) = files.follow left place [name] := by
  have whole := reached.entry named (.refl _) []
  rw [List.append_nil] at whole
  simp [Files.resolve, Path.join_ne_empty reached.given, sound, whole]

theorem Reached.leads_entry (reached : files.Reached path left place) (named : Path.IsName name) :
    files.leads (Path.join path name) = files.follow left place [name] := by
  have whole := reached.entry named (Path.thinned_tidy _) []
  rwa [List.append_nil] at whole

-- A directory is entered by its name, or by a link, which is one link less from then on.
theorem Reached.below (reached : files.Reached path left place) (named : Path.IsName name) {inner : Place}
    (leads : files.resolve (Path.join path name) = .ok (.at inner .directory)) :
    ∃ still, files.Reached (Path.join path name) still inner ∧
      (still = left ∧ inner = place ++ [name] ∨ still < left) := by
  rcases resolve_ok leads with ⟨given, sound, _⟩
  rw [reached.resolve_entry named sound] at leads
  have directory : files.get? inner = some .directory := follow_fits leads
  cases turned : files.turn place name with
  | error fault => simp [Files.follow, turned] at leads
  | ok turn =>
      rcases turn_ok turned with ⟨_, turns⟩
      cases turns with
      | empty => exact absurd rfl named.1
      | dot => exact absurd rfl named.2.1
      | up => exact absurd rfl named.2.2.1
      | free => simp [Files.follow, turned] at leads
      | @down _ stored _ held =>
          simp only [Files.follow, turned, held, Except.ok.injEq, Found.at.injEq] at leads
          rcases leads with ⟨rfl, rfl⟩
          refine ⟨left, ⟨given, sound, reached.links, directory, ?_⟩, .inl ⟨rfl, rfl⟩⟩
          intro names thinned rest
          rw [reached.entry named thinned, Files.follow]
          simp only [turned]
      | @jump _ target _ linked =>
          by_cases none : left = 0
          · simp [Files.follow, turned, none] at leads
          · rw [Files.follow] at leads
            simp only [turned, none, ↓reduceIte, List.append_nil] at leads
            rcases follow_through leads with ⟨still, fewer, through⟩
            have less : still < left := by omega
            have few := Nat.le_trans (Nat.le_of_lt less) reached.links
            refine ⟨still, ⟨given, sound, few, directory, ?_⟩, .inr less⟩
            intro names thinned rest
            rw [reached.entry named thinned, Files.follow]
            simp only [turned, none, ↓reduceIte]
            exact through _ (.refl _) rest

end Reached

-- A free place is where the last component was not found; what a link leads to is named by components too.
theorem follow_free_passable {files : Files} {links : Nat} {here place : Place} {names : List String}
    (slashless : ∀ name ∈ names, '/' ∉ name.toList)
    (ends : files.follow links here names = .ok (.free place)) :
    ∃ directory name, place = directory ++ [name] ∧ '/' ∉ name.toList ∧ files.Passable directory name := by
  fun_induction Files.follow files links here names with
  | case4 links here name names next turned ih =>
      exact ih (fun other member => slashless other (List.mem_cons_of_mem name member)) ends
  | case6 links here name names next target turned some ih =>
      refine ih ?_ ends
      intro other member
      rcases List.mem_append.mp member with inTarget | inRest
      · rcases turn_ok turned with ⟨_, turns⟩
        cases turns
        exact Path.components_slashless inTarget
      · exact slashless other (List.mem_cons_of_mem name inRest)
  | case7 links here name names place turned last =>
      cases ends
      rcases turn_free turned with ⟨_, rfl, passable⟩
      exact ⟨here, name, rfl, slashless name List.mem_cons_self, passable⟩
  | case1 | case2 | case3 | case5 | case8 => cases ends

/-- What is made to write to is made where a way can go. -/
theorem openAppend_passable {files opened : Files} {path : String} {place : Place}
    (opens : files.openAppend path = .ok (place, opened)) (free : files.get? place = none) :
    ∀ directory name, place = directory ++ [name] → Path.IsName name ∧ files.Passable directory name := by
  rintro directory name rfl
  rcases openAppend_cases opens with ⟨_, _, ⟨ends, _⟩ | ⟨⟨stored, ends, _⟩, _⟩⟩
  · rcases resolve_ok ends with ⟨_, _, way⟩
    rcases follow_free_passable (fun _ member => Path.components_slashless member) way with
      ⟨_, _, same, slashless, passable⟩
    rcases List.append_inj' same rfl with ⟨rfl, alsoSame⟩
    cases alsoSame
    exact ⟨⟨passable.named.1, passable.named.2.1, passable.named.2.2, slashless⟩, passable⟩
  · have held : files.get? (directory ++ [name]) = some stored := resolve_fits ends
    rw [free] at held
    cases held

end Files

end ScriptMetrics
