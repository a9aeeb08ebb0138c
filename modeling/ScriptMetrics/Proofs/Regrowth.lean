import ScriptMetrics.Files.Discovery

/-!
File stores in which files grow. Two stores that differ at most in the content of some files resolve
every path to the same place, list the same names and can read the same files. So a log that grows
during a run changes neither which files are found nor what is read from any other file.
-/

namespace ScriptMetrics

/-- The same thing stored, or a file that may grow with more at its end. -/
inductive Stored.Regrown (grows : Prop) : Stored → Stored → Prop where
  | same (stored : Stored) : Stored.Regrown grows stored stored
  | grown (content more : ByteArray) (may : grows) :
      Stored.Regrown grows (.file content) (.file (content ++ more))

/-- Two ways that end in the same fault or at the same place, where a file may have grown. -/
inductive SameWay (grows : Place → Prop) : Except PathFault Found → Except PathFault Found → Prop where
  | same (way : Except PathFault Found) : SameWay grows way way
  | grown (place : Place) (content more : ByteArray) (may : grows place) :
      SameWay grows (.ok (.at place (.file content))) (.ok (.at place (.file (content ++ more))))

namespace Files

theorem nodup_keys (files : Files) : files.stored.keys.Nodup := by
  refine files.stored.distinct_keys.imp ?_
  rintro place _ different rfl
  exact different Std.ReflCmp.compare_self

/-- Stores that differ at most in what has been written at the end of the files at some places. -/
structure Regrown (grows : Place → Prop) (before after : Files) : Prop where
  rules : after.toRules = before.toRules
  working : after.working = before.working
  order : after.order = before.order
  stored : ∀ place : Place, Option.Rel (Stored.Regrown (grows place)) before.stored[place]? after.stored[place]?

section Regrown

variable {grows : Place → Prop} {before after : Files}

theorem Regrown.refl (files : Files) : files.Regrown grows files := by
  refine ⟨rfl, rfl, rfl, ?_⟩
  intro place
  cases files.stored[place]? with
  | none => exact .none
  | some stored => exact .some (.same stored)

theorem Regrown.imp {may : Place → Prop} (regrown : before.Regrown grows after)
    (weaker : ∀ place, grows place → may place) : before.Regrown may after := by
  refine ⟨regrown.rules, regrown.working, regrown.order, ?_⟩
  intro place
  have entry := regrown.stored place
  generalize before.stored[place]? = old at entry
  generalize after.stored[place]? = new at entry
  cases entry with
  | none => exact .none
  | some entry =>
      cases entry with
      | same => exact .some (.same _)
      | grown content more allowed => exact .some (.grown content more (weaker place allowed))

theorem Regrown.trans {later : Files} (first : before.Regrown grows after)
    (second : after.Regrown grows later) : before.Regrown grows later := by
  refine ⟨second.rules.trans first.rules, second.working.trans first.working,
    second.order.trans first.order, ?_⟩
  intro place
  have front := first.stored place
  have back := second.stored place
  generalize before.stored[place]? = old at front
  generalize after.stored[place]? = middle at front back
  generalize later.stored[place]? = new at back
  cases front with
  | none =>
      cases back
      exact .none
  | some front =>
      cases back with
      | some back =>
          cases front with
          | same => exact .some back
          | grown content more may =>
              cases back with
              | same => exact .some (.grown content more may)
              | grown _ most _ =>
                  rw [ByteArray.append_assoc]
                  exact .some (.grown content (more ++ most) may)

theorem append_regrown {files : Files} {place : Place} {text : String} (may : grows place)
    (taken : files.append place text = some after) : files.Regrown grows after := by
  unfold Files.append at taken
  split at taken
  · cases taken
  · split at taken
    · next content found =>
        cases taken
        refine ⟨rfl, rfl, rfl, ?_⟩
        intro other
        by_cases same : place = other
        · subst same
          simp only [found, Std.TreeMap.getElem?_insert_self]
          exact .some (.grown _ _ may)
        · rw [Std.TreeMap.getElem?_insert, if_neg (by simpa using same)]
          exact (Regrown.refl files).stored other
    · cases taken
      exact .refl _

theorem Regrown.elsewhere (regrown : before.Regrown grows after) {place : Place} (fixed : ¬ grows place) :
    after.stored[place]? = before.stored[place]? := by
  have entry := regrown.stored place
  generalize before.stored[place]? = old at entry
  generalize after.stored[place]? = new at entry
  cases entry with
  | none => rfl
  | some entry =>
      cases entry with
      | same => rfl
      | grown content more may => exact absurd may fixed

theorem Regrown.get? (regrown : before.Regrown grows after) (place : Place) :
    Option.Rel (Stored.Regrown (grows place)) (before.get? place) (after.get? place) := by
  unfold Files.get?
  rw [regrown.working]
  have entry := regrown.stored place
  generalize before.stored[place]? = old at entry
  generalize after.stored[place]? = new at entry
  cases entry with
  | none =>
      by_cases given : place = [] ∨ place = before.working
      · simp only [given, ↓reduceIte]
        exact .some (.same _)
      · simp only [given, ↓reduceIte]
        exact .none
  | some entry => exact .some entry

theorem Regrown.get?_some (regrown : before.Regrown grows after) {place : Place} {old : Stored}
    (found : before.get? place = some old) :
    ∃ new, after.get? place = some new ∧ old.Regrown (grows place) new := by
  have entry := regrown.get? place
  rw [found] at entry
  generalize after.get? place = stored at entry
  cases entry with
  | some entry => exact ⟨_, rfl, entry⟩

theorem Regrown.get?_none (regrown : before.Regrown grows after) {place : Place}
    (free : before.get? place = none) : after.get? place = none := by
  have entry := regrown.get? place
  rw [free] at entry
  generalize after.get? place = stored at entry
  cases entry
  rfl

-- One component looks at directories and links only, which never grow.
theorem Regrown.turn (regrown : before.Regrown grows after) (here : Place) (name : String) :
    after.turn here name = before.turn here name := by
  have current := regrown.get? here
  have next := regrown.get? (here ++ [name])
  unfold Files.turn
  rw [regrown.rules]
  generalize before.get? here = old at current
  generalize after.get? here = new at current
  generalize before.get? (here ++ [name]) = oldNext at next
  generalize after.get? (here ++ [name]) = newNext at next
  cases current with
  | none => rfl
  | some current =>
      cases current with
      | grown => rfl
      | same =>
          cases next with
          | none => rfl
          | some next => cases next <;> rfl

theorem Regrown.follow (regrown : before.Regrown grows after) (links : Nat) (here : Place)
    (names : List String) :
    SameWay grows (before.follow links here names) (after.follow links here names) := by
  fun_induction Files.follow before links here names with
  | case1 links here stored found =>
      obtain ⟨new, now, same⟩ := regrown.get?_some found
      simp only [Files.follow, now]
      cases same with
      | same => exact .same _
      | grown content more may => exact .grown here content more may
  | case2 links here free =>
      simp only [Files.follow, regrown.get?_none free]
      exact .same _
  | case3 links here name rest fault turned =>
      simp only [Files.follow, regrown.turn, turned]
      exact .same _
  | case4 links here name rest next turned ih =>
      simp only [Files.follow, regrown.turn, turned]
      exact ih
  | case5 here name rest next target turned =>
      simp only [Files.follow, regrown.turn, turned, ↓reduceIte]
      exact .same _
  | case6 links here name rest next target turned left ih =>
      simp only [Files.follow, regrown.turn, turned, left, ↓reduceIte]
      exact ih
  | case7 links here name rest place turned last =>
      simp only [Files.follow, regrown.turn, turned, last, ↓reduceIte]
      exact .same _
  | case8 links here name rest place turned last =>
      simp only [Files.follow, regrown.turn, turned, last]
      exact .same _

theorem Regrown.start (regrown : before.Regrown grows after) (path : String) :
    after.start path = before.start path := by
  unfold Files.start
  rw [regrown.working]

theorem Regrown.resolve (regrown : before.Regrown grows after) (path : String) :
    SameWay grows (before.resolve path) (after.resolve path) := by
  unfold Files.resolve
  rw [regrown.start, regrown.rules]
  split
  · exact .same _
  · split
    · exact .same _
    · exact regrown.follow _ _ _

theorem Regrown.resolveTidy (regrown : before.Regrown grows after) (path : String) :
    SameWay grows (before.resolveTidy path) (after.resolveTidy path) := by
  unfold Files.resolveTidy
  rw [regrown.start, regrown.rules]
  split
  · exact .same _
  · exact regrown.follow _ _ _

theorem Regrown.isDirectory (regrown : before.Regrown grows after) (path : String) :
    after.isDirectory path = before.isDirectory path := by
  unfold Files.isDirectory
  have way := regrown.resolve path
  generalize before.resolve path = old at way
  generalize after.resolve path = new at way
  cases way <;> rfl

theorem Regrown.keys (regrown : before.Regrown grows after) : after.stored.keys = before.stored.keys := by
  have members : ∀ place, place ∈ after.stored.keys ↔ place ∈ before.stored.keys := by
    intro place
    rw [Std.TreeMap.mem_keys, Std.TreeMap.mem_keys, Std.TreeMap.mem_iff_isSome_getElem?,
      Std.TreeMap.mem_iff_isSome_getElem?]
    have entry := regrown.stored place
    generalize before.stored[place]? = old at entry
    generalize after.stored[place]? = new at entry
    cases entry <;> simp
  -- Keys come in strict order, so the same keys come in the same order.
  refine ((List.perm_ext_iff_of_nodup after.nodup_keys before.nodup_keys).mpr members).eq_of_pairwise ?_
    after.stored.ordered_keys before.stored.ordered_keys
  intro place other _ _ less greater
  have swapped : compare other place = (compare place other).swap := Std.OrientedCmp.eq_swap
  rw [less, greater] at swapped
  cases swapped

theorem Regrown.list (regrown : before.Regrown grows after) (path : String) :
    after.list path = before.list path := by
  have names : ∀ directory, after.namesIn directory = before.namesIn directory := by
    intro directory
    unfold Files.namesIn
    rw [regrown.keys]
  unfold Files.list
  simp only [regrown.rules, regrown.order, names]
  have way := regrown.resolve path
  generalize before.resolve path = old at way
  generalize after.resolve path = new at way
  cases way <;> rfl

theorem Regrown.read_error (regrown : before.Regrown grows after) (path : String) (fault : PathFault) :
    after.read path = .error fault ↔ before.read path = .error fault := by
  unfold Files.read
  rw [regrown.rules]
  have way := regrown.resolveTidy path
  generalize before.resolveTidy path = old at way
  generalize after.resolveTidy path = new at way
  cases way with
  | same => exact Iff.rfl
  | grown place content more may => by_cases denied : place ∈ before.unreadable <;> simp [denied]

theorem Regrown.read_apart (regrown : before.Regrown grows after) (path : String)
    (apart : ∀ place stored, grows place → before.resolveTidy path ≠ .ok (.at place stored)) :
    after.read path = before.read path := by
  unfold Files.read
  rw [regrown.rules]
  have way := regrown.resolveTidy path
  generalize before.resolveTidy path = old at way apart
  generalize after.resolveTidy path = new at way
  cases way with
  | same => rfl
  | grown place content more may => exact absurd rfl (apart place (.file content) may)

theorem Regrown.deepest (regrown : before.Regrown grows after) : after.deepest = before.deepest := by
  unfold Files.deepest
  rw [regrown.keys, regrown.working, regrown.rules]

theorem Regrown.listFiles (regrown : before.Regrown grows after) (search : Search) (levels : Nat)
    (directory : String) : after.listFiles search levels directory = before.listFiles search levels directory := by
  induction levels generalizing directory with
  | zero => rfl
  | succ levels ih => simp only [Files.listFiles, regrown.list, regrown.isDirectory, ih]

theorem Regrown.look_error (regrown : before.Regrown grows after) (path : String) (fault : PathFault) :
    after.look path = .error fault ↔ before.look path = .error fault := by
  unfold Files.look
  have way := regrown.resolveTidy path
  generalize before.resolveTidy path = old at way
  generalize after.resolveTidy path = new at way
  cases way with
  | same => exact Iff.rfl
  | grown place content more may => simp

theorem Regrown.look_seen (regrown : before.Regrown grows after) {path : String} {stored : Option Stored}
    (seen : before.look path = .ok stored) : ∃ stored, after.look path = .ok stored := by
  cases looked : after.look path with
  | ok stored => exact ⟨stored, rfl⟩
  | error fault =>
      rw [(regrown.look_error path fault).mp looked] at seen
      cases seen

/-- Growing files are found as before. -/
theorem Regrown.discover (regrown : before.Regrown grows after) (search : Search) (path : String) :
    after.discover search path = before.discover search path := by
  unfold Files.discover Files.look
  simp only [regrown.deepest, regrown.listFiles]
  have way := regrown.resolveTidy path
  generalize before.resolveTidy path = old at way
  generalize after.resolveTidy path = new at way
  cases way <;> rfl

end Regrown

end Files

end ScriptMetrics
