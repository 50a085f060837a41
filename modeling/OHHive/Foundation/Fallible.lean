import Mathlib.Data.List.Forall2

/-! Fallible steps: guards and their inversion rules for `Except` programs. -/

namespace OHHive.Foundation

universe u v

/-- Continues when the condition holds, otherwise fails with the given error. -/
def require (condition : Prop) [Decidable condition] (error : ε) : Except ε Unit :=
  if condition then .ok () else .error error

/-- The value of an option, or the given error. -/
def orFail (value? : Option α) (error : ε) : Except ε α :=
  match value? with
  | some value => .ok value
  | none => .error error

/-- The error of a program that failed. -/
def failure? : Except ε α → Option ε
  | .ok _ => none
  | .error failure => some failure

@[simp] theorem orFail_some (value : α) (error : ε) : orFail (some value) error = .ok value := rfl

@[simp] theorem ok_bind (value : α) (next : α → Except ε β) :
    (Except.ok value >>= next) = next value := rfl

theorem bind_eq_ok_iff {first : Except ε α} {next : α → Except ε β} {result : β} :
    (first >>= next) = .ok result ↔ ∃ value, first = .ok value ∧ next value = .ok result := by
  cases first with
  | error failure => simp [Bind.bind, Except.bind]
  | ok value => simp [Bind.bind, Except.bind]

theorem require_eq_ok_iff {condition : Prop} [Decidable condition] {error : ε} {passed : Unit} :
    require condition error = .ok passed ↔ condition := by
  unfold require
  split <;> simp_all

theorem orFail_eq_ok_iff {value? : Option α} {error : ε} {value : α} :
    orFail value? error = .ok value ↔ value? = some value := by
  cases value? <;> simp [orFail]

theorem bind_eq_error_iff {first : Except ε α} {next : α → Except ε β} {failure : ε} :
    (first >>= next) = .error failure ↔
      first = .error failure ∨ ∃ value, first = .ok value ∧ next value = .error failure := by
  cases first with
  | error reason => simp [Bind.bind, Except.bind]
  | ok value => simp [Bind.bind, Except.bind]

theorem require_eq_error_iff {condition : Prop} [Decidable condition] {error failure : ε} :
    require condition error = .error failure ↔ ¬ condition ∧ error = failure := by
  unfold require
  split <;> simp_all

theorem pure_eq_ok_iff {value result : α} :
    (pure value : Except ε α) = .ok result ↔ value = result := by
  simp [pure, Except.pure]

theorem map_eq_ok_iff {result : Except ε α} {build : α → β} {value : β} :
    build <$> result = .ok value ↔ ∃ inner, result = .ok inner ∧ build inner = value := by
  cases result <;> simp [Functor.map, Except.map]

theorem map_fst_eq_ok_iff {result : Except ε (α × β)} {value : α} :
    result.map Prod.fst = .ok value ↔ ∃ other, result = .ok (value, other) := by
  cases result with
  | error failure => simp [Except.map]
  | ok pair =>
    obtain ⟨first, second⟩ := pair
    simp [Except.map]

/-- A list that is built row by row corresponds to its source. -/
theorem forall₂_of_mapM {build : α → Except ε β} {sources : List α} {rows : List β}
    (built : sources.mapM build = .ok rows) :
    List.Forall₂ (fun source row => build source = .ok row) sources rows := by
  induction sources generalizing rows with
  | nil =>
    rw [List.mapM_nil, pure_eq_ok_iff] at built
    exact built ▸ .nil
  | cons source sources ih =>
    simp only [List.mapM_cons, bind_eq_ok_iff, pure_eq_ok_iff] at built
    obtain ⟨row, head, later, tail, rfl⟩ := built
    exact .cons head (ih tail)

section Faults

/-- A call can be refused before it runs, or its answer lost after it committed. -/
inductive Fault where
  | none
  | before
  | after
deriving DecidableEq, Repr

/-- The store after a call, and the answer its caller gets. A failed call writes nothing. -/
def deliver (fault : Fault) (lost : ε) (store : σ) (call : Except ε (σ × α)) : σ × Except ε α :=
  match fault, call with
  | .none, .ok (next, value) => (next, .ok value)
  | .after, .ok (next, _) => (next, .error lost)
  | .none, .error failure => (store, .error failure)
  | .before, _ => (store, .error lost)
  | .after, .error _ => (store, .error lost)

variable {fault : Fault} {lost : ε} {store : σ} {call : Except ε (σ × α)}

/-- Whatever goes wrong, the store is untouched or the call succeeded on it. -/
theorem deliver_fst (fault : Fault) (lost : ε) (store : σ) (call : Except ε (σ × α)) :
    (deliver fault lost store call).1 = store ∨
      ∃ value, call = .ok ((deliver fault lost store call).1, value) := by
  unfold deliver
  split
  · exact Or.inr ⟨_, rfl⟩
  · exact Or.inr ⟨_, rfl⟩
  · exact Or.inl rfl
  · exact Or.inl rfl
  · exact Or.inl rfl

/-- An answer that arrives is the answer of a call that took effect. -/
theorem ok_of_deliver {value : α} (answered : (deliver fault lost store call).2 = .ok value) :
    call = .ok ((deliver fault lost store call).1, value) := by
  unfold deliver at answered ⊢
  split
  · rename_i next stored
    cases answered
    rfl
  all_goals cases answered

end Faults

end OHHive.Foundation
