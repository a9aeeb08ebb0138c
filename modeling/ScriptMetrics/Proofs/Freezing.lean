import ScriptMetrics.Proofs.Association
import ScriptMetrics.Proofs.Sequencing
import ScriptMetrics.Report.Ledger

/-!
Freezing is for good. A change enters one record under one name, and one that is there already is entered again
only with an attribute set or closed. A closed record refuses the former, and the latter leaves it as it
is; so whatever follows, it stays the record it was, until its name is given to a new one. The lists that
records hold are no part of them: what is added to a list in place is added for every attribute that holds
it. Nothing else changes a list, and new ones come after those there are.
-/

namespace ScriptMetrics

namespace Cell

/-- If it holds a list, there is one of that number. -/
def Within (lists : Lists) : Cell → Prop
  | .atom _ => True
  | .list number => number < lists.length

variable {cell : Cell} {lists later : Lists}

theorem Within.mono (within : cell.Within lists) (longer : lists.length ≤ later.length) : cell.Within later := by
  cases cell with
  | atom value => trivial
  | list number => exact Nat.lt_of_lt_of_le within longer

end Cell

/-- A list with items added at its end; other values stay as they are. -/
def Content.followed : Content → List Atom → Content
  | .atom value, _ => .atom value
  | .list items, more => .list (items ++ more)

namespace Lists

variable {lists : Lists} {cell : Cell} {number : Nat} {items : List Atom}

/-- What to put in an attribute, with the lists there were and perhaps a new one. -/
structure Fits (lists : Lists) (placed : Cell × Lists) : Prop where
  kept : lists <+: placed.2
  within : placed.1.Within placed.2

theorem fits_enter (lists : Lists) (content : Content) : lists.Fits (lists.enter content) := by
  cases content with
  | atom value => exact ⟨List.prefix_rfl, trivial⟩
  | list items => exact ⟨List.prefix_append _ _, by simp [enter, Cell.Within]⟩

theorem length_extend : (lists.extend number items).length = lists.length :=
  List.length_modify ..

end Lists

namespace Sheet

variable {sheet after : Sheet} {key : String} {value cell : Cell} {lists later : Lists}

/-- Every list that an attribute holds is there. -/
def Within (lists : Lists) (sheet : Sheet) : Prop :=
  ∀ key cell, sheet.get? key = some cell → cell.Within lists

theorem Within.mono (within : sheet.Within lists) (longer : lists.length ≤ later.length) : sheet.Within later :=
  fun key cell got => (within key cell got).mono longer

theorem get_eq_ok : sheet.get key = .ok cell ↔ sheet.get? key = some cell := by
  unfold get
  cases sheet.get? key <;> simp

theorem get?_set (changed : sheet.set key value = .ok after) (other : String) :
    after.get? other = if other = key then some value else sheet.get? other := by
  unfold set at changed
  split at changed
  · cases changed
  split at changed
  · cases changed
  split at changed
  · cases changed
  next plain =>
  rw [beq_iff_eq] at plain
  split at changed
  · next declared =>
      cases changed
      rw [any_eq_isSome_lookup] at declared
      obtain ⟨old, held⟩ := Option.isSome_iff_exists.mp declared
      unfold get? replace
      rw [lookup_map fun name old => if name == key then value else old]
      by_cases same : other = key
      · simp [same, plain, held]
      · simp [same]
  · next undeclared =>
      cases changed
      rw [any_eq_isSome_lookup, Option.not_isSome_iff_eq_none] at undeclared
      unfold get?
      by_cases same : other = key
      · simp [same, plain, undeclared]
      · simp [List.lookup_cons, same, beq_false_of_ne same]

theorem Within.set (within : sheet.Within lists) (there : value.Within lists)
    (changed : sheet.set key value = .ok after) : after.Within lists := by
  intro other cell got
  rw [get?_set changed] at got
  split at got
  · cases got
    exact there
  · exact within other cell got

theorem get?_close (plain : key ≠ "frozen") : sheet.close.get? key = sheet.get? key := by
  simp [get?, close, plain]

theorem get_close (plain : key ≠ "frozen") : sheet.close.get key = sheet.get key := by
  unfold get
  rw [get?_close plain]
  rfl

theorem Within.close (within : sheet.Within lists) : sheet.close.Within lists := by
  intro key cell got
  by_cases plain : key = "frozen"
  · subst plain
    unfold get? at got
    split at got
    · cases got
      trivial
    · next silent => exact within "frozen" cell ((if_neg silent).trans got)
  · rw [get?_close plain] at got
    exact within key cell got

theorem freeze_eq_ok (froze : sheet.freeze = .ok after) : after = sheet.close := by
  unfold freeze at froze
  split at froze <;> cases froze
  rfl

theorem within_new {kind : SheetKind} {given : List (String × Cell)} (made : new kind given = .ok sheet)
    (there : ∀ row ∈ given, row.2.Within lists) : sheet.Within lists := by
  unfold new at made
  dsimp only at made
  split at made
  · cases made
  split at made
  · cases made
    intro key cell got
    simp only [get?, List.lookup_nil, Option.or_none] at got
    split at got
    · cases got
      trivial
    · obtain ⟨row, _, valued⟩ := List.mem_filterMap.mp (mem_of_lookup got)
      obtain ⟨held, found, same⟩ := Option.map_eq_some_iff.mp valued
      cases same
      rcases Option.or_eq_some_iff.mp found with listed | ⟨_, default⟩
      · exact there _ (mem_of_lookup listed)
      · obtain ⟨value, _, rfl⟩ := Option.map_eq_some_iff.mp default
        trivial
  · cases made

end Sheet

namespace Ledger

/-- The ledger after a step, refused or not. -/
def next (ledger : Ledger) (action : Step) : Ledger :=
  match step action ledger with
  | .ok _ after => after
  | .error _ after => after

/-- The ledger after some steps, refused ones among them. -/
def after (ledger : Ledger) (steps : List Step) : Ledger :=
  steps.foldl next ledger

/-- The list that a step adds to in place, with the items. -/
def growing (ledger : Ledger) : Step → Option (Nat × List Atom)
  | .change name change => (ledger.growth name change).toOption.join
  | .ask _ => none

/-- The items that a step adds in place to what an attribute holds. -/
def added (ledger : Ledger) (action : Step) (cell : Cell) : List Atom :=
  match ledger.growing action with
  | some (number, items) => if cell = .list number then items else []
  | none => []

/-- Every list that is held is there. -/
def Sound (ledger : Ledger) : Prop :=
  ∀ name sheet, ledger.find name = .ok sheet → sheet.Within ledger.lists

section Values

variable {ledger : Ledger} {name key : String} {source : Source} {cell : Cell} {placed : Cell × Lists}

theorem Sound.within (sound : ledger.Sound) (held : ledger.holding name key = .ok cell) :
    cell.Within ledger.lists := by
  obtain ⟨sheet, found, got⟩ := bind_eq_ok.mp held
  exact sound name sheet found key cell (Sheet.get_eq_ok.mp got)

theorem fits_take (sound : ledger.Sound) (taken : ledger.take source = .ok placed) : ledger.lists.Fits placed := by
  cases source with
  | written value =>
      cases taken
      exact Lists.fits_enter ..
  | held name key =>
      obtain ⟨cell, held, ends⟩ := bind_eq_ok.mp taken
      cases ends
      exact ⟨List.prefix_rfl, sound.within held⟩

theorem fits_sum {sign : String} (summed : ledger.sum sign name key source = .ok placed) :
    ledger.lists.Fits placed := by
  obtain ⟨old, _, reads⟩ := bind_eq_ok.mp summed
  obtain ⟨more, _, adds⟩ := bind_eq_ok.mp reads
  split at adds
  · cases adds
    exact Lists.fits_enter ..
  · cases adds

theorem fits_value (sound : ledger.Sound) {how : Assignment} (valued : ledger.value name how key source = .ok placed) :
    ledger.lists.Fits placed := by
  cases how with
  | set => exact fits_take sound valued
  | add => exact fits_sum valued
  | extend =>
      obtain ⟨cell, held, sets⟩ := bind_eq_ok.mp valued
      cases cell with
      | list number =>
          cases sets
          exact ⟨List.prefix_rfl, sound.within held⟩
      | atom value => exact fits_sum sets

theorem Sound.longer (sound : ledger.Sound) {lists : Lists} (longer : ledger.lists.length ≤ lists.length) :
    Sound { ledger with lists } :=
  fun name sheet found => (sound name sheet found).mono longer

theorem fits_takeAll {given : List (String × Source)} {cells : List (String × Cell)} {lists : Lists}
    (sound : ledger.Sound) (taken : ledger.takeAll given = .ok (cells, lists)) :
    ledger.lists <+: lists ∧ ∀ row ∈ cells, row.2.Within lists := by
  induction given generalizing ledger cells with
  | nil =>
      cases taken
      exact ⟨List.prefix_rfl, by simp⟩
  | cons row rest ih =>
      obtain ⟨key, source⟩ := row
      obtain ⟨placed, first, others⟩ := bind_eq_ok.mp taken
      obtain ⟨⟨later, final⟩, followed, ends⟩ := bind_eq_ok.mp others
      cases ends
      have fits := fits_take sound first
      obtain ⟨kept, there⟩ := ih (sound.longer fits.kept.length_le) followed
      refine ⟨fits.kept.trans kept, List.forall_mem_cons.mpr ⟨?_, there⟩⟩
      exact fits.within.mono kept.length_le

end Values

section Steps

variable {ledger : Ledger} {name other : String} {sheet : Sheet} {lists : Lists} {change : Change} {action : Step}

theorem revise_within (sound : ledger.Sound) (revised : ledger.revise name change = .ok (sheet, lists)) :
    ledger.lists <+: lists ∧ sheet.Within lists := by
  cases change with
  | new kind given =>
      obtain ⟨⟨cells, later⟩, taken, makes⟩ := bind_eq_ok.mp revised
      obtain ⟨_, made, ends⟩ := bind_eq_ok.mp makes
      cases ends
      obtain ⟨kept, there⟩ := fits_takeAll sound taken
      exact ⟨kept, Sheet.within_new made there⟩
  | assign how key source =>
      obtain ⟨placed, valued, finds⟩ := bind_eq_ok.mp revised
      obtain ⟨old, found, sets⟩ := bind_eq_ok.mp finds
      obtain ⟨_, changed, ends⟩ := bind_eq_ok.mp sets
      cases ends
      have fits := fits_value sound valued
      have within := (sound name old found).mono fits.kept.length_le
      exact ⟨fits.kept, within.set fits.within changed⟩
  | freeze =>
      obtain ⟨old, found, freezes⟩ := bind_eq_ok.mp revised
      obtain ⟨_, froze, ends⟩ := bind_eq_ok.mp freezes
      cases ends
      rw [Sheet.freeze_eq_ok froze]
      exact ⟨List.prefix_rfl, (sound name old found).close⟩

theorem find_put (other : String) :
    (ledger.put name sheet lists).find other = if other = name then .ok sheet else ledger.find other := by
  unfold find put
  by_cases same : other = name
  · simp [same]
  · rw [List.lookup_cons, beq_eq_false_iff_ne.mpr same, lookup_filter_ne same]
    simp [same]

theorem find_grow (growth : Option (Nat × List Atom)) : (ledger.grow growth).find other = ledger.find other := by
  cases growth <;> rfl

theorem length_grow (growth : Option (Nat × List Atom)) : (ledger.grow growth).lists.length = ledger.lists.length := by
  cases growth with
  | none => rfl
  | some growth => exact Lists.length_extend

theorem Sound.grow (sound : ledger.Sound) (growth : Option (Nat × List Atom)) : (ledger.grow growth).Sound := by
  intro other sheet found
  rw [find_grow] at found
  exact (sound other sheet found).mono (Nat.le_of_eq (length_grow growth).symm)

theorem Sound.put (sound : ledger.Sound) (longer : ledger.lists.length ≤ lists.length) (within : sheet.Within lists) :
    (ledger.put name sheet lists).Sound := by
  intro other found held
  rw [find_put] at held
  split at held
  · cases held
    exact within
  · exact (sound other found held).mono longer

/-- A step adds to a list in place, if it does, and then enters a record under the name it is about, if it
enters one. -/
theorem next_cases (ledger : Ledger) (action : Step) :
    ledger.next action = ledger.grow (ledger.growing action) ∨
      ∃ name change sheet lists, action = .change name change ∧
        (ledger.grow (ledger.growing action)).revise name change = .ok (sheet, lists) ∧
        ledger.next action = (ledger.grow (ledger.growing action)).put name sheet lists := by
  cases action with
  | ask query =>
      left
      simp only [next, step, growing, grow]
      cases ledger.answer query <;> rfl
  | change name change =>
      simp only [next, step, growing]
      cases ledger.growth name change with
      | error cause => exact .inl rfl
      | ok growth =>
          simp only [Except.toOption, Option.join_some]
          cases revised : (ledger.grow growth).revise name change with
          | error cause => exact .inl rfl
          | ok result =>
              obtain ⟨sheet, lists⟩ := result
              exact .inr ⟨name, change, sheet, lists, rfl, revised, rfl⟩

theorem next_spec (sound : ledger.Sound) (action : Step) :
    (ledger.grow (ledger.growing action)).lists <+: (ledger.next action).lists ∧ (ledger.next action).Sound := by
  have grown := sound.grow (ledger.growing action)
  rcases ledger.next_cases action with same | ⟨name, change, sheet, lists, _, revised, entered⟩
  · rw [same]
    exact ⟨List.prefix_rfl, grown⟩
  · rw [entered]
    obtain ⟨kept, within⟩ := revise_within grown revised
    exact ⟨kept, grown.put kept.length_le within⟩

theorem Sound.after (sound : ledger.Sound) (steps : List Step) : (ledger.after steps).Sound := by
  induction steps generalizing ledger with
  | nil => exact sound
  | cons action later ih => exact ih (next_spec sound action).2

end Steps

section Closed

variable {ledger : Ledger} {name : String} {sheet : Sheet}

end Closed

/-- The same records, some of them closed since, and the same lists. -/
structure ClosedSince (before later : Ledger) : Prop where
  lists : later.lists = before.lists
  sheets : ∀ name, later.find name = before.find name ∨ later.find name = Sheet.close <$> before.find name

section Since

variable {before later : Ledger}

/-- What is told alike of a record and of the same record closed is told alike by both ledgers. -/
theorem ClosedSince.bind_find (since : before.ClosedSince later) (name : String) {α : Type}
    {tell : Sheet → Except LedgerError α} (alike : ∀ sheet : Sheet, tell sheet.close = tell sheet) :
    later.find name >>= tell = before.find name >>= tell := by
  rcases since.sheets name with same | closed
  · rw [same]
  · rw [closed]
    cases before.find name with
    | error cause => rfl
    | ok sheet => exact alike sheet

theorem ClosedSince.read (since : before.ClosedSince later) (name : String) {key : String} (plain : key ≠ "frozen") :
    later.read name key = before.read name key := by
  unfold Ledger.read holding
  rw [since.lists, since.bind_find name fun sheet => Sheet.get_close plain]

theorem ClosedSince.equal (since : before.ClosedSince later) (left right : String) :
    later.equal left right = before.equal left right := by
  unfold Ledger.equal
  rw [since.lists, since.bind_find left fun sheet => rfl]
  refine congrArg (before.find left >>= ·) (funext fun sheet => ?_)
  exact since.bind_find right fun other => rfl

end Since

/-- The record of a function of three lines. -/
def short : List (String × Source) := [
  ("file_name", .written (.atom (.text "a.js"))), ("function_name", .written (.atom (.text "f"))),
  ("length", .written (.atom (.number 3)))]

/-- A list with one note. -/
def note (text : String) : Source :=
  .written (.list [.text text])

end Ledger

end ScriptMetrics
