import OHHive.Foundation.Run

/-! A fenced lease. A cell waits, is parked, is worked on or is closed; every claim
and every loss of a claim raises its generation, and a resolution must carry the
generation of the claim it resolves. The laws of whole histories follow from one step. -/

namespace OHHive.Foundation.Fence

universe u

inductive Phase (Outcome : Type u) where
  | waiting
  | parked
  | working
  | closed (outcome : Outcome)
deriving DecidableEq

structure Cell (Outcome : Type u) where
  phase : Phase Outcome
  generation : Nat
deriving DecidableEq

inductive Move where
  | rest
  | appear
  | claim
  | resolve (generation : Nat)
  | expire
  | revoke
  | release
deriving DecidableEq

/-- One move of a cell. A cell appears waiting or parked, at generation zero. -/
inductive Step {Outcome : Type u} : Option (Cell Outcome) → Move → Option (Cell Outcome) → Prop
  | rest (cell) : Step cell .rest cell
  | wait : Step none .appear (some ⟨.waiting, 0⟩)
  | park : Step none .appear (some ⟨.parked, 0⟩)
  | claim (generation) :
      Step (some ⟨.waiting, generation⟩) .claim (some ⟨.working, generation + 1⟩)
  | settle (generation outcome) :
      Step (some ⟨.working, generation⟩) (.resolve generation) (some ⟨.closed outcome, generation⟩)
  | requeue (generation) :
      Step (some ⟨.working, generation⟩) (.resolve generation) (some ⟨.waiting, generation⟩)
  | expire (generation) :
      Step (some ⟨.working, generation⟩) .expire (some ⟨.waiting, generation + 1⟩)
  | revoke (phase generation outcome) (isOpen : ∀ final, phase ≠ .closed final) :
      Step (some ⟨phase, generation⟩) .revoke (some ⟨.closed outcome, generation + 1⟩)
  | release (generation) :
      Step (some ⟨.parked, generation⟩) .release (some ⟨.waiting, generation⟩)

/-- A cell over time, with the move made at every moment. -/
structure History (Outcome : Type u) where
  cell : Nat → Option (Cell Outcome)
  move : Nat → Move
  absent : cell 0 = none
  step : ∀ moment, Step (cell moment) (move moment) (cell (moment + 1))

namespace Step

variable {Outcome : Type u} {before after : Option (Cell Outcome)}

theorem of_claim (step : Step before .claim after) :
    ∃ generation, before = some ⟨.waiting, generation⟩ ∧
      after = some ⟨.working, generation + 1⟩ := by
  cases step with
  | claim generation => exact ⟨generation, rfl, rfl⟩

theorem of_resolve {generation : Nat} (step : Step before (.resolve generation) after) :
    before = some ⟨.working, generation⟩ ∧ after ≠ some ⟨.working, generation⟩ := by
  cases step <;> simp

/-- A generation is never lowered and a cell never disappears. -/
theorem generation_le {move : Move} (step : Step before move after) {cell : Cell Outcome}
    (present : before = some cell) :
    ∃ later, after = some later ∧ cell.generation ≤ later.generation := by
  cases step <;> simp_all <;> subst present <;> simp

/-- Work at a generation goes back to the claim that produced that generation. -/
theorem working {move : Move} {generation : Nat} (step : Step before move after)
    (present : after = some ⟨.working, generation⟩) :
    before = some ⟨.working, generation⟩ ∨ move = .claim := by
  cases step <;> simp_all

end Step

namespace History

variable {Outcome : Type u} (history : History Outcome)

theorem generation_le {first second : Nat} (ordered : first ≤ second) {cell : Cell Outcome}
    (present : history.cell first = some cell) :
    ∃ later, history.cell second = some later ∧ cell.generation ≤ later.generation := by
  have kept := relates_of_neighbours
    (fun before after : Option (Cell Outcome) => ∀ cell, before = some cell →
      ∃ later, after = some later ∧ cell.generation ≤ later.generation)
    (fun _ cell present => ⟨cell, present, Nat.le_refl _⟩)
    (by
      intro before between after firstHalf secondHalf cell present
      obtain ⟨middle, presentMiddle, lower⟩ := firstHalf cell present
      obtain ⟨last, presentLast, upper⟩ := secondHalf middle presentMiddle
      exact ⟨last, presentLast, Nat.le_trans lower upper⟩)
    history.cell (fun moment cell present => (history.step moment).generation_le present) ordered
  exact kept cell present

/-- Whoever works at a generation holds the claim that returned it, without interruption. -/
theorem working_claimed {moment generation : Nat}
    (present : history.cell moment = some ⟨.working, generation⟩) :
    ∃ claimed, claimed < moment ∧ history.move claimed = .claim ∧
      ∀ between, claimed < between → between ≤ moment →
        history.cell between = some ⟨.working, generation⟩ := by
  obtain ⟨entry, earlier, outside, inside⟩ := exists_last_entry
    (fun moment => history.cell moment = some ⟨.working, generation⟩)
    (by simp [history.absent]) moment present
  refine ⟨entry, earlier, ?_, inside⟩
  have entered := inside (entry + 1) (by omega) earlier
  exact ((history.step entry).working entered).resolve_left outside

/-- A resolution acts for the claim that returned its generation, still in force. -/
theorem resolve_claimed {moment generation : Nat}
    (resolved : history.move moment = .resolve generation) :
    ∃ claimed, claimed < moment ∧ history.move claimed = .claim ∧
      ∀ between, claimed < between → between ≤ moment →
        history.cell between = some ⟨.working, generation⟩ :=
  history.working_claimed (resolved ▸ history.step moment).of_resolve.1

/-- Two claims never return the same generation. -/
theorem claim_unique {first second generation : Nat} (firstClaim : history.move first = .claim)
    (secondClaim : history.move second = .claim)
    (firstCell : history.cell (first + 1) = some ⟨.working, generation⟩)
    (secondCell : history.cell (second + 1) = some ⟨.working, generation⟩) :
    first = second := by
  have ordered : ∀ earlier later, history.move later = .claim →
      history.cell (earlier + 1) = some ⟨.working, generation⟩ →
      history.cell (later + 1) = some ⟨.working, generation⟩ → ¬ earlier < later := by
    intro earlier later laterClaim earlierCell laterCell before
    obtain ⟨old, waiting, working⟩ := (laterClaim ▸ history.step later).of_claim
    obtain ⟨between, presentBetween, raised⟩ := history.generation_le before earlierCell
    have same : between = ⟨.waiting, old⟩ := Option.some.inj (presentBetween.symm.trans waiting)
    have next : (⟨.working, old + 1⟩ : Cell Outcome) = ⟨.working, generation⟩ :=
      Option.some.inj (working.symm.trans laterCell)
    simp only [Cell.mk.injEq, true_and] at next
    subst same
    simp only at raised
    omega
  have notBefore := ordered first second secondClaim firstCell secondCell
  have notAfter := ordered second first firstClaim secondCell firstCell
  omega

/-- A claim is resolved at most once. -/
theorem resolve_unique {first second generation : Nat}
    (firstResolved : history.move first = .resolve generation)
    (secondResolved : history.move second = .resolve generation) : first = second := by
  have ordered : ∀ earlier later, history.move earlier = .resolve generation →
      history.move later = .resolve generation → ¬ earlier < later := by
    intro earlier later earlierResolved laterResolved before
    obtain ⟨firstClaim, firstBefore, firstMove, firstHeld⟩ := history.resolve_claimed earlierResolved
    obtain ⟨lastClaim, lastBefore, lastMove, lastHeld⟩ := history.resolve_claimed laterResolved
    have same : firstClaim = lastClaim := history.claim_unique firstMove lastMove
      (firstHeld _ (by omega) (by omega)) (lastHeld _ (by omega) (by omega))
    have left := (earlierResolved ▸ history.step earlier).of_resolve.2
    exact left (lastHeld (earlier + 1) (by omega) (by omega))
  have notBefore := ordered first second firstResolved secondResolved
  have notAfter := ordered second first secondResolved firstResolved
  omega

end History

end OHHive.Foundation.Fence
