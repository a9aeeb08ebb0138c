import ScriptMetrics.Proofs.Regrowth

/-!
File stores in which files appear. Opening a log makes its file where there is none, so that a store
may come to hold files that it did not hold before. Whatever resolved to a place still resolves to
it; the only ways that change are those that ended free where a file now stands, and those that
went on behind such a place, which fail as before though for another reason.
-/

namespace ScriptMetrics

namespace Path

/-- What may stand between the slashes of a path and name something. -/
def IsName (name : String) : Prop :=
  name ≠ "" ∧ name ≠ "." ∧ name ≠ ".." ∧ '/' ∉ name.toList

instance (name : String) : Decidable (IsName name) :=
  inferInstanceAs (Decidable (_ ∧ _ ∧ _ ∧ _))

end Path

namespace Files

/-- Everything stands in a directory, under a name. -/
structure WellFormed (files : Files) : Prop where
  enclosed : ∀ place, files.get? place ≠ none → files.get? place.dropLast = some .directory
  named : ∀ place : Place, files.stored[place]? ≠ none → ∀ name ∈ place, Path.IsName name

theorem get?_root (files : Files) : files.get? [] ≠ none := by
  unfold get?
  cases files.stored[([] : Place)]? <;> simp

theorem get?_start (files : Files) (path : String) : files.get? (files.start path) ≠ none := by
  unfold start
  split
  · exact files.get?_root
  · unfold get?
    cases files.stored[files.working]? <;> simp

/-- At the root, a store is well formed if all that it lists is. -/
theorem wellFormed_of_keys {files : Files} (home : files.working = []) (root : files.get? [] = some .directory)
    (enclosed : ∀ place ∈ files.stored.keys, files.get? place.dropLast = some .directory)
    (named : ∀ place ∈ files.stored.keys, ∀ name ∈ place, Path.IsName name) : files.WellFormed := by
  have listed (place : Place) (held : files.stored[place]? ≠ none) : place ∈ files.stored.keys := by
    rw [Std.TreeMap.mem_keys, Std.TreeMap.mem_iff_isSome_getElem?]
    exact Option.isSome_iff_ne_none.mpr held
  constructor
  · intro place held
    by_cases stored : files.stored[place]? = none
    · have given : place = [] := by simpa [Files.get?, stored, home] using held
      subst given
      exact root
    · exact enclosed place (listed place stored)
  · intro place held
    exact named place (listed place held)

end Files

/-- What a way ends at is what a store holds there. -/
def Found.Fits (files : Files) : Found → Prop
  | .at place stored => files.get? place = some stored
  | .free place => files.get? place = none

namespace Files

/-- Nothing keeps a way from going on from a directory under a name. -/
structure Passable (files : Files) (here : Place) (name : String) : Prop where
  named : name ≠ "" ∧ name ≠ "." ∧ name ≠ ".."
  searchable : here ∉ files.unsearchable
  short : name.utf8ByteSize ≤ files.nameLimit

/-- What a component does that finds its way. -/
inductive Turns (files : Files) (here : Place) : String → Turn → Prop where
  | empty : Turns files here "" (.go here)
  | dot : Turns files here "." (.go here)
  | up : Turns files here ".." (.go here.dropLast)
  | down {name : String} {stored : Stored} (passable : files.Passable here name)
      (held : files.get? (here ++ [name]) = some stored) : Turns files here name (.go (here ++ [name]))
  | jump {name target : String} (passable : files.Passable here name)
      (linked : files.get? (here ++ [name]) = some (.link target)) :
      Turns files here name (.jump (if Path.isAbsolute target then [] else here) (Path.components target))
  | free {name : String} (passable : files.Passable here name)
      (free : files.get? (here ++ [name]) = none) : Turns files here name (.free (here ++ [name]))

section Turning

variable {files : Files} {here place : Place} {name : String} {turn : Turn}

theorem turn_passable (directory : files.get? here = some .directory) (passable : files.Passable here name) :
    files.turn here name =
      match files.get? (here ++ [name]) with
      | some (.link target) =>
          .ok (.jump (if Path.isAbsolute target then [] else here) (Path.components target))
      | some _ => .ok (.go (here ++ [name]))
      | none => .ok (.free (here ++ [name])) := by
  have named := passable.named
  have short := Nat.not_lt_of_le passable.short
  cases held : files.get? (here ++ [name]) with
  | none => simp [Files.turn, directory, passable.searchable, named, short, held]
  | some stored => cases stored <;> simp [Files.turn, directory, passable.searchable, named, short, held]

theorem turn_dot (directory : files.get? here = some .directory) (searchable : here ∉ files.unsearchable) :
    files.turn here "." = .ok (.go here) := by
  simp [Files.turn, directory, searchable]

theorem turn_ok (turned : files.turn here name = .ok turn) :
    files.get? here = some .directory ∧ files.Turns here name turn := by
  have directory : files.get? here = some .directory := by
    unfold Files.turn at turned
    split at turned
    · assumption
    · cases turned
    · cases turned
  refine ⟨directory, ?_⟩
  by_cases empty : name = ""
  · simp only [Files.turn, directory, empty, beq_self_eq_true, ↓reduceIte] at turned
    cases turned
    exact empty ▸ .empty
  · by_cases unsearchable : here ∈ files.unsearchable
    · simp [Files.turn, directory, empty, unsearchable] at turned
    · by_cases dot : name = "."
      · subst dot
        simp [Files.turn, directory, unsearchable] at turned
        exact turned ▸ .dot
      · by_cases up : name = ".."
        · subst up
          simp [Files.turn, directory, unsearchable] at turned
          exact turned ▸ .up
        · by_cases long : files.nameLimit < name.utf8ByteSize
          · simp [Files.turn, directory, empty, unsearchable, dot, up, long] at turned
          · have passable : files.Passable here name := ⟨⟨empty, dot, up⟩, unsearchable, Nat.le_of_not_lt long⟩
            rw [turn_passable directory passable] at turned
            split at turned
            · next linked =>
                cases turned
                exact .jump passable linked
            · next held =>
                cases turned
                exact .down passable held
            · next free =>
                cases turned
                exact .free passable free

theorem turn_blank (blank : (name == "" || name == ".") = true) (turned : files.turn here name = .ok turn) :
    turn = .go here := by
  rcases turn_ok turned with ⟨_, turns⟩
  cases turns with
  | empty => rfl
  | dot => rfl
  | up => simp at blank
  | down passable | jump passable | free passable => simp [passable.named] at blank

theorem turn_free (turned : files.turn here name = .ok (.free place)) :
    files.get? place = none ∧ place = here ++ [name] ∧ files.Passable here name := by
  rcases turn_ok turned with ⟨_, turns⟩
  cases turns with
  | free passable free => exact ⟨free, rfl, passable⟩

-- A way that starts at something that is held stays with what is held.
theorem turn_held (wellFormed : files.WellFormed) (turned : files.turn here name = .ok turn) :
    (∀ next, turn = .go next → files.get? next ≠ none) ∧
      ∀ next target, turn = .jump next target → files.get? next ≠ none := by
  rcases turn_ok turned with ⟨directory, turns⟩
  have there : files.get? here ≠ none := by simp [directory]
  constructor
  · rintro next rfl
    cases turns with
    | empty => exact there
    | dot => exact there
    | up => simp [wellFormed.enclosed here there]
    | down _ held => simp [held]
  · rintro next target rfl
    cases turns with
    | jump =>
        split
        · exact files.get?_root
        · exact there

theorem follow_fits {links : Nat} {names : List String} {found : Found}
    (ends : files.follow links here names = .ok found) : found.Fits files := by
  fun_induction Files.follow files links here names with
  | case1 links here stored held =>
      cases ends
      exact held
  | case4 links here name rest next turned ih => exact ih ends
  | case6 links here name rest next target turned left ih => exact ih ends
  | case7 links here name rest place turned last =>
      cases ends
      exact (turn_free turned).1
  | case2 | case3 | case5 | case8 => cases ends

/-- A single name leads to what stands under it, or to a free place. -/
theorem follow_name {links : Nat} (directory : files.get? here = some .directory)
    (passable : files.Passable here name) (plain : ∀ target, files.get? (here ++ [name]) ≠ some (.link target)) :
    files.follow links here [name] =
      .ok ((files.get? (here ++ [name])).elim (.free (here ++ [name])) (.at (here ++ [name]))) := by
  simp only [Files.follow, turn_passable directory passable]
  cases held : files.get? (here ++ [name]) with
  | none => rfl
  | some stored =>
      cases stored with
      | link target => exact absurd held (plain target)
      | file content => simp only [held, Option.elim_some]
      | directory => simp only [held, Option.elim_some]
      | device device => simp only [held, Option.elim_some]

end Turning

section Home

-- Ways in a store that is worked in at its root.
variable {files : Files} {path name : String} (home : files.working = [])

include home

theorem start_home (path : String) : files.start path = [] := by
  unfold start
  split
  · rfl
  · exact home

theorem resolve_home (given : path ≠ "") (sound : files.pathFault? path = none) :
    files.resolve path = files.follow files.linkLimit [] (Path.components path) := by
  unfold resolve
  rw [if_neg (by simpa using given), sound, start_home home]

theorem resolveTidy_home (sound : files.pathFault? (Path.tidyText path) = none) :
    files.resolveTidy path = files.follow files.linkLimit [] (Path.tidy path) := by
  unfold resolveTidy
  rw [sound, start_home home]

variable (root : files.get? [] = some .directory)

include root

theorem resolve_dot (searchable : [] ∉ files.unsearchable) (sound : files.pathFault? "." = none) :
    files.resolve "." = .ok (.at [] .directory) := by
  have components : Path.components "." = ["."] := by decide
  rw [resolve_home home (by decide) sound, components]
  simp only [follow, turn_dot root searchable, root]

theorem look_dot (sound : files.pathFault? "." = none) : files.look "." = .ok (some .directory) := by
  have text : Path.tidyText "." = "." := by decide
  have tidy : Path.tidy "." = [] := by decide
  unfold look
  rw [resolveTidy_home home (text.symm ▸ sound), tidy]
  simp only [follow, root]

theorem resolve_name (components : Path.components name = [name]) (sound : files.pathFault? name = none)
    (passable : files.Passable [] name) (plain : ∀ target, files.get? [name] ≠ some (.link target)) :
    files.resolve name = .ok ((files.get? [name]).elim (.free [name]) (.at [name])) := by
  rw [resolve_home home passable.named.1 sound, components]
  exact follow_name root passable plain

theorem resolveTidy_name (tidy : Path.tidy name = [name]) (sound : files.pathFault? (Path.tidyText name) = none)
    (passable : files.Passable [] name) (plain : ∀ target, files.get? [name] ≠ some (.link target)) :
    files.resolveTidy name = .ok ((files.get? [name]).elim (.free [name]) (.at [name])) := by
  rw [resolveTidy_home home sound, tidy]
  exact follow_name root passable plain

-- Nothing is made on the way to a log.
theorem openAppend_unrooted {inner : String} (components : Path.components path = [name, inner]) (given : path ≠ "")
    (sound : files.pathFault? path = none) (slashless : (path.toList.getLast? == some '/') = false)
    (passable : files.Passable [] name) (free : files.get? [name] = none) :
    files.openAppend path = .error .missing := by
  have turned : files.turn [] name = .ok (.free [name]) := by
    rw [turn_passable root passable, List.nil_append, free]
  have missing : files.resolve path = .error .missing := by
    rw [resolve_home home given sound, components]
    simp [follow, turned]
  unfold openAppend
  simp only [missing, slashless]

end Home

end Files

/-- What a place holds before and after a file there may have appeared or grown. -/
inductive Sprouted (grows : Prop) : Option Stored → Option Stored → Prop where
  | same (entry : Option Stored) : Sprouted grows entry entry
  | grown (content more : ByteArray) (may : grows) :
      Sprouted grows (some (.file content)) (some (.file (content ++ more)))
  | made (content : ByteArray) (may : grows) : Sprouted grows none (some (.file content))

theorem Sprouted.imp {may might : Prop} {old new : Option Stored} (sprouted : Sprouted may old new)
    (weaker : may → might) : Sprouted might old new := by
  cases sprouted with
  | same => exact .same _
  | grown content more allowed => exact .grown content more (weaker allowed)
  | made content allowed => exact .made content (weaker allowed)

theorem Sprouted.trans {may : Prop} {first second third : Option Stored} (front : Sprouted may first second)
    (back : Sprouted may second third) : Sprouted may first third := by
  cases front with
  | same => exact back
  | grown content more allowed =>
      cases back with
      | same => exact .grown content more allowed
      | grown _ most _ =>
          rw [ByteArray.append_assoc]
          exact .grown content (more ++ most) allowed
  | made content allowed =>
      cases back with
      | same => exact .made content allowed
      | grown _ most _ => exact .made (content ++ most) allowed

/-- Two ways of which the second may meet files that have appeared or grown. -/
inductive NearWay (grows : Place → Prop) : Except PathFault Found → Except PathFault Found → Prop where
  | same (way : Except PathFault Found) : NearWay grows way way
  | grown (place : Place) (content more : ByteArray) (may : grows place) :
      NearWay grows (.ok (.at place (.file content))) (.ok (.at place (.file (content ++ more))))
  | made (place : Place) (content : ByteArray) (may : grows place) :
      NearWay grows (.ok (.free place)) (.ok (.at place (.file content)))
  | blocked : NearWay grows (.error .missing) (.error .notDirectory)

namespace Files

/-- Stores that differ at most in files at some places, which are no directories before. -/
structure Extended (grows : Place → Prop) (before after : Files) : Prop where
  rules : after.toRules = before.toRules
  working : after.working = before.working
  stored : ∀ place : Place, Sprouted (grows place) before.stored[place]? after.stored[place]?
  apart : ∀ place, grows place → before.get? place ≠ some .directory

section Extended

variable {grows : Place → Prop} {before after : Files}

theorem Extended.elsewhere (extended : before.Extended grows after) {place : Place} (fixed : ¬ grows place) :
    after.stored[place]? = before.stored[place]? := by
  have entry := extended.stored place
  generalize before.stored[place]? = old at entry
  generalize after.stored[place]? = new at entry
  cases entry with
  | same => rfl
  | grown content more may => exact absurd may fixed
  | made content may => exact absurd may fixed

theorem Extended.get? (extended : before.Extended grows after) (place : Place) :
    Sprouted (grows place) (before.get? place) (after.get? place) := by
  have apart := extended.apart place
  have entry := extended.stored place
  unfold Files.get? at apart ⊢
  rw [extended.working]
  generalize before.stored[place]? = old at entry apart
  generalize after.stored[place]? = new at entry
  cases entry with
  | same entry => exact .same _
  | grown content more may => exact .grown content more may
  | made content may =>
      by_cases given : place = [] ∨ place = before.working
      · simp [given] at apart
        exact absurd may apart
      · simp only [given, ↓reduceIte]
        exact .made content may

theorem Extended.directory (extended : before.Extended grows after) {place : Place}
    (found : before.get? place = some .directory) : after.get? place = some .directory := by
  have entry := extended.get? place
  rw [found] at entry
  generalize after.get? place = new at entry
  cases entry
  rfl

/-- One component takes the same turn, unless a file has appeared where it found a free place. -/
theorem Extended.turn (extended : before.Extended grows after) (here : Place) (name : String)
    (there : before.get? here ≠ none) :
    after.turn here name = before.turn here name ∨
      ∃ place content, before.turn here name = .ok (.free place) ∧ after.turn here name = .ok (.go place) ∧
        after.get? place = some (.file content) ∧ grows place := by
  have current := extended.get? here
  have next := extended.get? (here ++ [name])
  generalize entry : after.get? (here ++ [name]) = newNext at next
  unfold Files.turn
  rw [extended.rules, entry]
  generalize before.get? here = old at current there
  generalize after.get? here = new at current
  generalize before.get? (here ++ [name]) = oldNext at next
  cases current with
  | made => exact absurd rfl there
  | grown => exact .inl rfl
  | same =>
      cases next with
      | same => exact .inl rfl
      | grown => exact .inl rfl
      | made content may =>
          split
          · split
            · exact .inl rfl
            · split
              · exact .inl rfl
              · split
                · exact .inl rfl
                · split
                  · exact .inl rfl
                  · split
                    · exact .inl rfl
                    · exact .inr ⟨_, content, rfl, rfl, entry, may⟩
          · exact .inl rfl
          · exact .inl rfl

-- By induction on the way in the first store. It never leaves what exists, so a file that appears can
-- only stand where the way was about to step.
theorem Extended.follow (extended : before.Extended grows after) (wellFormed : before.WellFormed)
    (links : Nat) (here : Place) (names : List String) (there : before.get? here ≠ none) :
    NearWay grows (before.follow links here names) (after.follow links here names) := by
  fun_induction Files.follow before links here names with
  | case1 links here stored found =>
      have entry := extended.get? here
      rw [found] at entry
      simp only [Files.follow]
      generalize after.get? here = new at entry
      cases entry with
      | same => exact .same _
      | grown content more may => exact .grown here content more may
  | case2 links here free => exact absurd free there
  | case3 links here name rest fault turned =>
      rcases extended.turn here name there with same | ⟨place, content, free, _⟩
      · simp only [Files.follow, same, turned]
        exact .same _
      · cases turned.symm.trans free
  | case4 links here name rest next turned ih =>
      rcases extended.turn here name there with same | ⟨place, content, free, _⟩
      · simp only [Files.follow, same, turned]
        exact ih ((turn_held wellFormed turned).1 next rfl)
      · cases turned.symm.trans free
  | case5 here name rest next target turned =>
      rcases extended.turn here name there with same | ⟨place, content, free, _⟩
      · simp only [Files.follow, same, turned, ↓reduceIte]
        exact .same _
      · cases turned.symm.trans free
  | case6 links here name rest next target turned left ih =>
      rcases extended.turn here name there with same | ⟨place, content, free, _⟩
      · simp only [Files.follow, same, turned, left, ↓reduceIte]
        exact ih ((turn_held wellFormed turned).2 next target rfl)
      · cases turned.symm.trans free
  | case7 links here name rest place turned last =>
      rcases extended.turn here name there with same | ⟨other, content, free, stands, held, may⟩
      · simp only [Files.follow, same, turned, last, ↓reduceIte]
        exact .same _
      · cases turned.symm.trans free
        simp only [List.isEmpty_iff.mp last, Files.follow, stands, held]
        exact .made _ content may
  | case8 links here name rest place turned more =>
      rcases extended.turn here name there with same | ⟨other, content, free, stands, held, may⟩
      · simp only [Files.follow, same, turned, more]
        exact .same _
      · cases turned.symm.trans free
        cases rest with
        | nil => exact absurd rfl more
        | cons following others =>
            have stuck : after.turn place following = .error .notDirectory := by simp [Files.turn, held]
            simp only [Files.follow, stands, stuck]
            exact .blocked

theorem Extended.start (extended : before.Extended grows after) (path : String) :
    after.start path = before.start path := by
  unfold Files.start
  rw [extended.working]

theorem Extended.resolve (extended : before.Extended grows after) (wellFormed : before.WellFormed)
    (path : String) : NearWay grows (before.resolve path) (after.resolve path) := by
  unfold Files.resolve
  rw [extended.start, extended.rules]
  split
  · exact .same _
  · split
    · exact .same _
    · exact extended.follow wellFormed _ _ _ (before.get?_start path)

theorem Extended.resolveTidy (extended : before.Extended grows after) (wellFormed : before.WellFormed)
    (path : String) : NearWay grows (before.resolveTidy path) (after.resolveTidy path) := by
  unfold Files.resolveTidy
  rw [extended.start, extended.rules]
  split
  · exact .same _
  · exact extended.follow wellFormed _ _ _ (before.get?_start path)

theorem Extended.refl (files : Files) (apart : ∀ place, grows place → files.get? place ≠ some .directory) :
    files.Extended grows files :=
  ⟨rfl, rfl, fun _ => .same _, apart⟩

theorem Extended.trans {more : Place → Prop} {later : Files} (first : before.Extended grows after)
    (second : after.Extended more later) : before.Extended (fun place => grows place ∨ more place) later := by
  refine ⟨second.rules.trans first.rules, second.working.trans first.working, ?_, ?_⟩
  · intro place
    exact ((first.stored place).imp Or.inl).trans ((second.stored place).imp Or.inr)
  · rintro place (early | late) directory
    · exact first.apart place early directory
    · exact second.apart place late (first.directory directory)

theorem Extended.congr {more : Place → Prop} (extended : before.Extended grows after)
    (same : ∀ place, more place ↔ grows place) : before.Extended more after := by
  rwa [show more = grows from funext fun place => propext (same place)]

theorem Extended.regrown {later : Files} (first : before.Extended grows after)
    (second : after.Regrown grows later) : before.Extended grows later := by
  refine ⟨second.rules.trans first.rules, second.working.trans first.working, ?_, first.apart⟩
  intro place
  have front := first.stored place
  have back := second.stored place
  generalize after.stored[place]? = middle at front back
  generalize later.stored[place]? = new at back
  cases back with
  | none => exact front
  | some back =>
      cases back with
      | same => exact front
      | grown content more may => exact front.trans (.grown content more may)

end Extended

/-- The place that a path leads to, whether or not anything stands there. -/
def target? (files : Files) (path : String) : Option Place :=
  match files.resolve path with
  | .ok (.at place _) => some place
  | .ok (.free place) => some place
  | .error _ => none

theorem Extended.target? {grows : Place → Prop} {before after : Files} (extended : before.Extended grows after)
    (wellFormed : before.WellFormed) (path : String) : after.target? path = before.target? path := by
  unfold Files.target?
  have way := extended.resolve wellFormed path
  generalize before.resolve path = old at way
  generalize after.resolve path = new at way
  cases way <;> rfl

/-- What the file at a place holds, nothing if there is none. -/
def contentAt (files : Files) (place : Place) : ByteArray :=
  match files.stored[place]? with
  | some (.file content) => content
  | _ => .empty

def deviceAt? (files : Files) (place : Place) : Option Device :=
  match files.stored[place]? with
  | some (.device device) => some device
  | _ => none

section Opening

variable {files opened : Files} {path : String} {place : Place}

theorem deviceAt?_eq_some {device : Device} :
    files.deviceAt? place = some device ↔ files.stored[place]? = some (.device device) := by
  unfold deviceAt?
  split
  · next found => simp [found]
  · next other => simpa using other device

theorem openAppend_cases (opens : files.openAppend path = .ok (place, opened)) :
    (path.toList.getLast? == some '/') = false ∧ place ∉ files.unwritable ∧
      (files.resolve path = .ok (.free place) ∧ place.dropLast ∉ files.unwritable ∧
          opened = { files with stored := files.stored.insert place (.file .empty) } ∨
        (∃ stored, files.resolve path = .ok (.at place stored) ∧
          ((∃ content, stored = .file content) ∨ ∃ device, stored = .device device)) ∧ opened = files) := by
  unfold openAppend at opens
  simp only at opens
  split at opens
  · next free slashless =>
      split at opens
      · cases opens
      · next writable =>
          cases opens
          rw [not_or] at writable
          exact ⟨slashless, writable.2, .inl ⟨free, writable.1, rfl⟩⟩
  · next content found slashless =>
      split at opens
      · cases opens
      · next writable =>
          cases opens
          exact ⟨slashless, writable, .inr ⟨⟨_, found, .inl ⟨content, rfl⟩⟩, rfl⟩⟩
  · next device found slashless =>
      split at opens
      · cases opens
      · next writable =>
          cases opens
          exact ⟨slashless, writable, .inr ⟨⟨_, found, .inr ⟨device, rfl⟩⟩, rfl⟩⟩
  · cases opens
  · cases opens
  · split at opens <;> cases opens

theorem openAppend_target (opens : files.openAppend path = .ok (place, opened)) :
    files.target? path = some place := by
  unfold target?
  rcases openAppend_cases opens with ⟨_, _, ⟨free, _⟩ | ⟨⟨stored, found, _⟩, _⟩⟩
  · rw [free]
  · rw [found]

theorem resolve_fits {found : Found} (ends : files.resolve path = .ok found) : found.Fits files := by
  unfold resolve at ends
  split at ends
  · cases ends
  · split at ends
    · cases ends
    · exact follow_fits ends

theorem stored_of_get? {stored : Stored} (held : files.get? place = some stored) (solid : stored ≠ .directory) :
    files.stored[place]? = some stored := by
  unfold get? at held
  split at held
  · next found => exact found.trans held
  · split at held
    · cases held
      exact absurd rfl solid
    · cases held

theorem stored_of_free (free : files.get? place = none) : files.stored[place]? = none := by
  unfold get? at free
  split at free
  · cases free
  · assumption

/-- What is opened is a device, or a file from then on. -/
theorem openAppend_stored (opens : files.openAppend path = .ok (place, opened)) :
    (∃ device, files.deviceAt? place = some device) ∧ opened = files ∨
      files.deviceAt? place = none ∧ opened.stored[place]? = some (.file (files.contentAt place)) := by
  rcases openAppend_cases opens with
    ⟨_, _, ⟨ends, _, rfl⟩ | ⟨⟨_, ends, ⟨content, rfl⟩ | ⟨device, rfl⟩⟩, rfl⟩⟩
  · have free := stored_of_free (resolve_fits ends)
    right
    simp [deviceAt?, contentAt, free]
  · have held : opened.stored[place]? = some (.file content) := stored_of_get? (resolve_fits ends) (by simp)
    right
    simp [deviceAt?, contentAt, held]
  · have held : opened.stored[place]? = some (.device device) := stored_of_get? (resolve_fits ends) (by simp)
    exact .inl ⟨⟨device, deviceAt?_eq_some.mpr held⟩, rfl⟩

theorem openAppend_extended (opens : files.openAppend path = .ok (place, opened)) :
    files.Extended (· = place) opened := by
  rcases openAppend_cases opens with ⟨_, _, ⟨ends, _, rfl⟩ | ⟨⟨stored, ends, solid⟩, rfl⟩⟩
  · have free : files.get? place = none := resolve_fits ends
    refine ⟨rfl, rfl, ?_, ?_⟩
    · intro other
      rw [Std.TreeMap.getElem?_insert]
      by_cases same : place = other
      · subst same
        rw [stored_of_free free, if_pos Std.ReflCmp.compare_self]
        exact .made _ rfl
      · rw [if_neg (by simpa using same)]
        exact .same _
    · rintro _ rfl directory
      rw [free] at directory
      cases directory
  · have held : opened.get? place = some stored := resolve_fits ends
    apply Extended.refl
    rintro _ rfl directory
    rw [held] at directory
    rcases solid with ⟨content, rfl⟩ | ⟨device, rfl⟩ <;> cases directory

theorem Extended.opens {grows : Place → Prop} {after : Files} (extended : files.Extended grows after)
    (wellFormed : files.WellFormed) (opens : files.openAppend path = .ok (place, opened)) :
    ∃ again, after.openAppend path = .ok (place, again) := by
  have way := extended.resolve wellFormed path
  have sameRules := extended.rules
  rcases openAppend_cases opens with ⟨slashless, writable, ⟨free, enclosed, _⟩ | ⟨⟨stored, held, solid⟩, _⟩⟩
  · rw [free] at way
    unfold openAppend
    generalize after.resolve path = new at way
    cases way <;> exact ⟨_, by simp [slashless, sameRules, writable, enclosed]; rfl⟩
  · rw [held] at way
    unfold openAppend
    generalize after.resolve path = new at way
    rcases solid with ⟨content, rfl⟩ | ⟨device, rfl⟩ <;> cases way <;>
      exact ⟨_, by simp [slashless, sameRules, writable]; rfl⟩

theorem append_stored {content : ByteArray} {text : String} {after : Files}
    (held : files.stored[place]? = some (.file content)) (taken : files.append place text = some after)
    (other : Place) :
    after.stored[other]? =
      if place = other then some (.file (content ++ text.toUTF8)) else files.stored[other]? := by
  unfold append at taken
  split at taken
  · cases taken
  · simp only [held] at taken
    cases taken
    rw [Std.TreeMap.getElem?_insert]
    simp

end Opening

end Files

end ScriptMetrics
