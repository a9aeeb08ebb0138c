import Mathlib.Data.List.Forall2
import Mathlib.Data.List.ReduceOption

/-!
Computations one after another: what the result of a sequence says about the results of its parts, for
computations that may fail and for those that keep a state as well.
-/

namespace ScriptMetrics

section Rows

variable {α β γ : Type} {R : α → β → Prop}

/-- Rows that are related to one row between them are related through its entries. -/
theorem forall₂_join {T : β → γ → Prop} {U : α → γ → Prop} {left : List α} {right : List β}
    {middle : List γ} (front : List.Forall₂ U left middle) (back : List.Forall₂ T right middle) :
    List.Forall₂ (fun a b => ∃ c, U a c ∧ T b c) left right := by
  induction front generalizing right with
  | nil =>
      cases back
      exact .nil
  | cons first _ ih =>
      cases back with
      | cons second rest => exact .cons ⟨_, first, second⟩ (ih rest)

theorem forall₂_mem {left : List α} {right : List β}
    (related : List.Forall₂ R left right) :
    List.Forall₂ (fun a b => a ∈ left ∧ b ∈ right ∧ R a b) left right := by
  induction related with
  | nil => exact .nil
  | cons first _ ih =>
      refine .cons ⟨List.mem_cons_self, List.mem_cons_self, first⟩ (ih.imp ?_)
      rintro a b ⟨front, back, related⟩
      exact ⟨List.mem_cons_of_mem _ front, List.mem_cons_of_mem _ back, related⟩

theorem forall₂_getElem? {left : List α} {right : List β} (related : List.Forall₂ R left right) (i : Nat)
    (a : α) (found : left[i]? = some a) : ∃ b, right[i]? = some b ∧ R a b := by
  induction related generalizing i with
  | nil => cases found
  | @cons x y xs ys first _ ih =>
      cases i with
      | zero =>
          cases found
          exact ⟨y, rfl, first⟩
      | succ i =>
          rw [List.getElem?_cons_succ] at found ⊢
          exact ih i found

theorem reduceOption_ite (beyond : α → Bool) (f : α → β) (values : List α) :
    (values.map fun value => if beyond value then some (f value) else none).reduceOption =
      (values.filter beyond).map f := by
  induction values with
  | nil => rfl
  | cons value rest ih => by_cases kept : beyond value <;> simpa [kept] using ih

end Rows

section Results

variable {ε α β : Type}

theorem bind_eq_ok {result : Except ε α} {next : α → Except ε β} {value : β} :
    result >>= next = .ok value ↔ ∃ middle, result = .ok middle ∧ next middle = .ok value := by
  cases result <;> simp [bind, Except.bind]

theorem mapM_congr {m : Type → Type} [Monad m] [LawfulMonad m] (f g : α → m β) (values : List α)
    (same : ∀ value ∈ values, f value = g value) : values.mapM f = values.mapM g := by
  induction values with
  | nil => rfl
  | cons value rest ih =>
      rw [List.mapM_cons, List.mapM_cons, same value List.mem_cons_self,
        ih fun other member => same other (List.mem_cons_of_mem value member)]

theorem mapM_ok (f : α → Except ε β) (property : β → Prop) (values : List α)
    (each : ∀ value ∈ values, ∃ result, f value = .ok result ∧ property result) :
    ∃ results, values.mapM f = .ok results ∧ ∀ result ∈ results, property result := by
  induction values with
  | nil => exact ⟨[], rfl, by simp⟩
  | cons value rest ih =>
      obtain ⟨result, first, holds⟩ := each value List.mem_cons_self
      obtain ⟨results, others, hold⟩ := ih fun other member =>
        each other (List.mem_cons_of_mem value member)
      refine ⟨result :: results, ?_, ?_⟩
      · simp [List.mapM_cons, first, others, bind, Except.bind, pure, Except.pure]
      · intro other member
        rcases List.mem_cons.mp member with here | later
        · rwa [here]
        · exact hold other later

theorem mapM_total (f : α → Except ε β) (values : List α)
    (each : ∀ value ∈ values, ∃ result, f value = .ok result) : ∃ results, values.mapM f = .ok results := by
  obtain ⟨results, total, _⟩ := mapM_ok f (fun _ => True) values fun value member => by
    obtain ⟨result, first⟩ := each value member
    exact ⟨result, first, trivial⟩
  exact ⟨results, total⟩

theorem mapM_eq_map {f : α → Except ε β} {g : α → β} {values : List α}
    (each : ∀ value ∈ values, f value = .ok (g value)) : values.mapM f = .ok (values.map g) := by
  induction values with
  | nil => rfl
  | cons value rest ih =>
      have first := each value List.mem_cons_self
      have others := ih fun other member => each other (List.mem_cons_of_mem value member)
      simp [List.mapM_cons, first, others, bind, Except.bind, pure, Except.pure]

theorem forall₂_of_mapM {f : α → Except ε β} {values : List α} {results : List β}
    (mapped : values.mapM f = .ok results) :
    List.Forall₂ (fun value result => f value = .ok result) values results := by
  induction values generalizing results with
  | nil =>
      cases mapped
      exact .nil
  | cons value rest ih =>
      rw [List.mapM_cons] at mapped
      obtain ⟨result, head, others⟩ := bind_eq_ok.mp mapped
      obtain ⟨later, tail, ends⟩ := bind_eq_ok.mp others
      cases ends
      exact .cons head (ih tail)

theorem mem_of_mapM {f : α → Except ε β} {values : List α} {results : List β} {value : α} {result : β}
    (mapped : values.mapM f = .ok results) (member : value ∈ values) (gives : f value = .ok result) :
    result ∈ results := by
  obtain ⟨i, found⟩ := List.mem_iff_getElem?.mp member
  obtain ⟨other, there, same⟩ := forall₂_getElem? (forall₂_of_mapM mapped) i value found
  rw [gives] at same
  cases same
  exact List.mem_of_getElem? there

theorem filterMap_of_mapM {f : α → Except ε β} {values : List α} {results : List β}
    (mapped : values.mapM f = .ok results) : values.filterMap (fun value => (f value).toOption) = results := by
  replace mapped := forall₂_of_mapM mapped
  induction mapped with
  | nil => rfl
  | cons first _ ih => rw [List.filterMap_cons, first, ih, Except.toOption]

end Results

section Stateful

variable {ε σ α β : Type}

/-- How a computation ends that comes to a result and leaves a state behind. -/
def leaving (result : Except ε α) (state : σ) : EStateM.Result ε σ α :=
  match result with
  | .ok value => .ok value state
  | .error fault => .error fault state

theorem bind_ok {x : EStateM ε σ α} {f : α → EStateM ε σ β} {before after : σ} {a : α}
    (ran : x before = .ok a after) : (x >>= f) before = f a after := by
  simp only [bind, EStateM.bind, ran]

theorem bind_error {x : EStateM ε σ α} {f : α → EStateM ε σ β} {before after : σ} {cause : ε}
    (failed : x before = .error cause after) : (x >>= f) before = .error cause after := by
  simp only [bind, EStateM.bind, failed]

/-- A computation ends well, or in an error that is allowed for. -/
inductive Ends (x : EStateM ε σ α) (before : σ) (good : α → σ → Prop) (bad : ε → σ → Prop) : Prop where
  | ok {value : α} {after : σ} (ran : x before = .ok value after) (holds : good value after) : Ends x before good bad
  | error {cause : ε} {after : σ} (failed : x before = .error cause after) (allowed : bad cause after) :
      Ends x before good bad

section Ends

variable {x : EStateM ε σ α} {f : α → EStateM ε σ β} {before after : σ} {value : α} {cause : ε}
  {good : α → σ → Prop} {bad : ε → σ → Prop}

theorem ends_get : Ends (get : EStateM ε σ σ) before (fun value after => value = before ∧ after = before) bad :=
  .ok rfl ⟨rfl, rfl⟩

theorem Ends.congr {y : EStateM ε σ α} (ends : Ends y before good bad) (same : x before = y before) :
    Ends x before good bad := by
  cases ends with
  | ok ran holds => exact .ok (same.trans ran) holds
  | error failed allowed => exact .error (same.trans failed) allowed

theorem Ends.imp {better : α → σ → Prop} {worse : ε → σ → Prop} (ends : Ends x before good bad)
    (stronger : ∀ value after, good value after → better value after)
    (weaker : ∀ cause after, bad cause after → worse cause after) : Ends x before better worse := by
  cases ends with
  | ok ran holds => exact .ok ran (stronger _ _ holds)
  | error failed allowed => exact .error failed (weaker _ _ allowed)

theorem Ends.allow {worse : ε → σ → Prop} (ends : Ends x before good bad)
    (weaker : ∀ cause after, bad cause after → worse cause after) : Ends x before good worse :=
  ends.imp (fun _ _ holds => holds) weaker

theorem ends_bind {middle : σ} {next : β → σ → Prop} (ran : x before = .ok value middle)
    (onward : Ends (f value) middle next bad) : Ends (x >>= f) before next bad := by
  cases onward with
  | ok later holds => exact .ok ((bind_ok ran).trans later) holds
  | error failed allowed => exact .error ((bind_ok ran).trans failed) allowed

theorem Ends.bind {next : β → σ → Prop} (first : Ends x before good bad)
    (onward : ∀ value after, good value after → Ends (f value) after next bad) :
    Ends (x >>= f) before next bad := by
  cases first with
  | ok ran holds => exact ends_bind ran (onward _ _ holds)
  | error failed allowed => exact .error (bind_error failed) allowed

-- What never ends well is never gone on from.
theorem Ends.bind_never {next : β → σ → Prop} (never : Ends x before (fun _ _ => False) bad) :
    Ends (x >>= f) before next bad :=
  never.bind fun _ _ impossible => impossible.elim

end Ends

end Stateful

end ScriptMetrics
