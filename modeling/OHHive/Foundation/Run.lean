/-! Runs of a deterministic machine under a list of operations, and the rules
that lift one step to a whole run. -/

namespace OHHive.Foundation

universe u v

section Sequences

/-- A property false at the start and true later was entered at some last moment. -/
theorem exists_last_entry (holds : Nat → Prop) (start : ¬ holds 0) :
    ∀ count, holds count →
      ∃ entry, entry < count ∧ ¬ holds entry ∧
        ∀ moment, entry < moment → moment ≤ count → holds moment := by
  intro count
  induction count with
  | zero => exact fun reached => absurd reached start
  | succ previous ih =>
    intro reached
    by_cases before : holds previous
    · obtain ⟨entry, earlier, outside, inside⟩ := ih before
      refine ⟨entry, by omega, outside, ?_⟩
      intro moment after upTo
      rcases Nat.lt_or_eq_of_le upTo with earlierMoment | same
      · exact inside moment after (by omega)
      · exact same ▸ reached
    · refine ⟨previous, by omega, before, ?_⟩
      intro moment after upTo
      have same : moment = previous + 1 := by omega
      exact same ▸ reached

/-- A reflexive and transitive relation between neighbours relates any two moments. -/
theorem relates_of_neighbours {State : Type u} (relates : State → State → Prop)
    (refl : ∀ state, relates state state)
    (trans : ∀ first second third, relates first second → relates second third →
      relates first third)
    (states : Nat → State) (next : ∀ moment, relates (states moment) (states (moment + 1)))
    {first second : Nat} (ordered : first ≤ second) :
    relates (states first) (states second) := by
  induction ordered with
  | refl => exact refl _
  | step _ ih => exact trans _ _ _ ih (next _)

/-- A property kept by every step from its first moment on never ends. -/
theorem holds_from (holds : Nat → Prop) (next : ∀ moment, holds moment → holds (moment + 1))
    {first second : Nat} (ordered : first ≤ second) (reached : holds first) : holds second := by
  induction ordered with
  | refl => exact reached
  | step _ ih => exact next _ ih

end Sequences

section Machine

variable {State : Type u} {Op : Type v} (step : State → Op → State) (start : State)

/-- The state after the first `count` operations; the run rests once they are exhausted. -/
def stateAt (ops : List Op) (count : Nat) : State := (ops.take count).foldl step start

@[simp] theorem stateAt_zero (ops : List Op) : stateAt step start ops 0 = start := rfl

theorem stateAt_succ {ops : List Op} {count : Nat} {op : Op} (present : ops[count]? = some op) :
    stateAt step start ops (count + 1) = step (stateAt step start ops count) op := by
  simp only [stateAt, List.take_add_one, present, Option.toList_some, List.foldl_append,
    List.foldl_cons, List.foldl_nil]

theorem stateAt_rest {ops : List Op} {count : Nat} (absent : ops[count]? = none) :
    stateAt step start ops (count + 1) = stateAt step start ops count := by
  simp [stateAt, List.take_add_one, absent]

theorem stateAt_of_length_le {ops : List Op} {count : Nat} (past : ops.length ≤ count) :
    stateAt step start ops count = stateAt step start ops ops.length := by
  simp [stateAt, List.take_of_length_le past]

/-- One step of a run is an operation or, past the end, rest. -/
theorem stateAt_next (ops : List Op) (count : Nat) :
    (∃ op, ops[count]? = some op ∧
      stateAt step start ops (count + 1) = step (stateAt step start ops count) op) ∨
    ops[count]? = none ∧
      stateAt step start ops (count + 1) = stateAt step start ops count := by
  cases present : ops[count]? with
  | none => exact Or.inr ⟨rfl, stateAt_rest step start present⟩
  | some op => exact Or.inl ⟨op, rfl, stateAt_succ step start present⟩

variable {step start}

variable (step start) in
/-- Every operation of the run meets a condition on the state it finds. -/
def EachStep (guard : State → Op → Prop) (ops : List Op) : Prop :=
  ∀ count op, ops[count]? = some op → guard (stateAt step start ops count) op

theorem eachStep_of_lt {guard : State → Op → Prop} {ops : List Op}
    (guarded : ∀ count, (inside : count < ops.length) →
      guard (stateAt step start ops count) (ops.get ⟨count, inside⟩)) :
    EachStep step start guard ops := by
  intro count op present
  obtain ⟨inside, rfl⟩ := List.getElem?_eq_some_iff.mp present
  exact guarded count inside

/-- What every guarded step keeps holds throughout a run whose steps are all guarded. -/
theorem EachStep.invariant {guard : State → Op → Prop} {ops : List Op}
    (guarded : EachStep step start guard ops) (invariant : State → Prop)
    (initially : invariant start)
    (preserved : ∀ state op, guard state op → invariant state → invariant (step state op)) :
    ∀ count, invariant (stateAt step start ops count) := by
  intro count
  induction count with
  | zero => exact initially
  | succ previous ih =>
    rcases stateAt_next step start ops previous with ⟨op, present, next⟩ | ⟨_, next⟩
    · exact next ▸ preserved _ op (guarded previous op present) ih
    · exact next ▸ ih

variable (step start)

/-- An invariant of every step of the run holds of every state it reaches. -/
theorem stateAt_invariant (ops : List Op) (invariant : State → Prop)
    (initially : invariant start)
    (preserved : ∀ state, ∀ op ∈ ops, invariant state → invariant (step state op)) :
    ∀ count, invariant (stateAt step start ops count) := by
  have guarded : EachStep step start (fun _ op => op ∈ ops) ops :=
    fun _ _ present => List.mem_of_getElem? present
  exact guarded.invariant invariant initially preserved

/-- A preorder respected by every step orders the states of a run. -/
theorem stateAt_relates (relates : State → State → Prop) (refl : ∀ state, relates state state)
    (trans : ∀ first second third, relates first second → relates second third →
      relates first third)
    (respected : ∀ state op, relates state (step state op)) (ops : List Op)
    {first second : Nat} (ordered : first ≤ second) :
    relates (stateAt step start ops first) (stateAt step start ops second) := by
  apply relates_of_neighbours relates refl trans (stateAt step start ops) _ ordered
  intro moment
  rcases stateAt_next step start ops moment with ⟨op, _, next⟩ | ⟨_, next⟩
  · exact next ▸ respected _ op
  · exact next ▸ refl _

end Machine

end OHHive.Foundation
