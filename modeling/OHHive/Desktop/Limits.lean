import OHHive.Desktop.Policy
import OHHive.Foundation.SlidingWindow

/-! The ledger of a desktop session: what it may still do, what a provider call has reserved, and
what it has been charged. Sums and differences are checked; there is nothing behind one that
overflows. -/

namespace OHHive.Desktop

open Foundation

section Arithmetic

abbrev U64 : Type := Fin (u64Max + 1)

/-- `+` and `u64::checked_add`. -/
def checkedAdd (first second : Nat) : Option Nat :=
  if first + second ≤ u64Max then some (first + second) else none

/-- `-` on `u64`. -/
def checkedSub (first second : Nat) : Option Nat :=
  if second ≤ first then some (first - second) else none

def saturatingAdd (first second : Nat) : Nat := min u64Max (first + second)

end Arithmetic

section Ledger

structure Limits where
  turns : U64
  durationMs : U64
  bytes : U64
  actions : U64
  actionsPerSecond : U64
  costMicroUsd : U64
deriving DecidableEq, Repr

def Limits.default : Limits :=
  ⟨100, 900000, 128 * 1024 * 1024, 1000, 4, 1000000⟩

inductive LimitError where
  | invalid
  | time
  | turns
  | bytes
  | cost
  | actions
  | rate
  | pending
deriving DecidableEq, Repr

structure Counters where
  turns : Nat
  bytes : Nat
  actions : Nat
  costMicroUsd : Nat
deriving DecidableEq, Repr

structure Budget where
  limits : Limits
  deadline : Nat
  lastNow : Nat
  counters : Counters
  actionTimes : List Nat
  pending : Option Nat
  failed : Bool
deriving DecidableEq, Repr

/-- The ledger after a call and the answer; none when the call overflows. -/
abbrev Charge := Option (Budget × Except LimitError Unit)

/-- `?`: the rest of a call, unless it has failed. -/
def Charge.andThen (charge : Charge) (next : Budget → Charge) : Charge :=
  match charge with
  | some (budget, .ok ()) => next budget
  | stopped => stopped

namespace Budget

def new (limits : Limits) (nowMs : Nat) : Except LimitError Budget :=
  if limits.turns = 0 ∨ limits.durationMs = 0 ∨ limits.bytes = 0 ∨ limits.actions = 0 ∨
      limits.actionsPerSecond = 0 ∨ limits.actionsPerSecond.val > 1000 ∨
      limits.costMicroUsd = 0 then .error .invalid
  else
    match checkedAdd nowMs limits.durationMs with
    | none => .error .invalid
    | some deadline => .ok ⟨limits, deadline, nowMs, ⟨0, 0, 0, 0⟩, [], none, false⟩

variable (b : Budget)

def checkTime (nowMs : Nat) : Charge :=
  if nowMs < b.lastNow then some (b, .error .invalid)
  else
    let b := { b with lastNow := nowMs }
    if nowMs ≥ b.deadline then some (b, .error .time)
    else if b.failed then some (b, .error .cost)
    else some (b, .ok ())

/-- Nothing is done while a provider call is unresolved. -/
def unresolved : Charge :=
  if b.pending.isSome then some (b, .error .pending) else some (b, .ok ())

def ready (nowMs : Nat) : Charge := (b.checkTime nowMs).andThen unresolved

/-- The bytes with some more of them, within the limit. -/
def moreBytes (bytes : Nat) : Option Nat :=
  (checkedAdd b.counters.bytes bytes).filter (· ≤ b.limits.bytes.val)

def moreCost (ceiling : Nat) : Option Nat :=
  (checkedAdd b.counters.costMicroUsd ceiling).filter (· ≤ b.limits.costMicroUsd.val)

/-- Rejected attempts are accounted too. -/
def requestBytes (bytes : Nat) : Charge :=
  match b.moreBytes bytes with
  | none => some (b, .error .bytes)
  | some bytes => some ({ b with counters := { b.counters with bytes } }, .ok ())

/-- A turn, its bytes and its greatest cost, all reserved at once. -/
def reserve (bytes costCeiling : Nat) : Charge :=
  if b.counters.turns ≥ b.limits.turns.val then some (b, .error .turns)
  else
    match b.moreBytes bytes, b.moreCost costCeiling with
    | none, _ => some (b, .error .bytes)
    | some _, none => some (b, .error .cost)
    | some bytes, some costMicroUsd =>
      if costCeiling = 0 then some (b, .error .cost)
      else do
        let turns ← checkedAdd b.counters.turns 1
        some ({ b with
          counters := { b.counters with turns, bytes, costMicroUsd }
          pending := some costCeiling }, .ok ())

/-- The greatest cost of a provider call is reserved before the call. -/
def beginProvider (nowMs bytes costCeiling : Nat) : Charge :=
  ((b.checkTime nowMs).andThen unresolved).andThen fun b => b.reserve bytes costCeiling

/-- The reservation gives way to the actual cost, if that is known. -/
def settle (reserved actual : Nat) : Charge :=
  if actual > reserved then
    some ({ b with
      failed := true
      counters := { b.counters with
        costMicroUsd := saturatingAdd b.counters.costMicroUsd (actual - reserved) } },
      .error .cost)
  else do
    let costMicroUsd ← checkedSub b.counters.costMicroUsd (reserved - actual)
    some ({ b with counters := { b.counters with costMicroUsd } }, .ok ())

def finishProvider (actualCost : Option Nat) : Charge :=
  match b.pending with
  | none => some (b, .error .invalid)
  | some reserved =>
    let b := { b with pending := none }
    match actualCost with
    | none => some (b, .ok ())
    | some actual => b.settle reserved actual

/-- Times of a second ago or more leave the front of the queue. -/
def popExpired (nowMs : Nat) : List Nat → Option (List Nat)
  | [] => some []
  | time :: rest => do
    let age ← checkedSub nowMs time
    if age ≥ 1000 then popExpired nowMs rest else some (time :: rest)

/-- An action takes its place in the queue. -/
def admitAction (nowMs : Nat) : Charge :=
  if b.counters.actions ≥ b.limits.actions.val then some (b, .error .actions)
  else do
    let actionTimes ← popExpired nowMs b.actionTimes
    let b := { b with actionTimes }
    if actionTimes.length ≥ b.limits.actionsPerSecond.val then some (b, .error .rate)
    else do
      let actions ← checkedAdd b.counters.actions 1
      some ({ b with
        actionTimes := actionTimes ++ [nowMs]
        counters := { b.counters with actions } }, .ok ())

/-- An attempt counts even when it is rejected later. -/
def inputAction (nowMs : Nat) : Charge :=
  ((b.checkTime nowMs).andThen unresolved).andThen fun b => b.admitAction nowMs

end Budget

end Ledger

section Calls

/-- A call on the ledger. -/
inductive BudgetOp where
  | checkTime (nowMs : Nat)
  | ready (nowMs : Nat)
  | requestBytes (bytes : Nat)
  | beginProvider (nowMs bytes costCeiling : Nat)
  | finishProvider (actualCost : Option Nat)
  | inputAction (nowMs : Nat)
deriving DecidableEq, Repr

def Budget.perform (b : Budget) : BudgetOp → Charge
  | .checkTime nowMs => b.checkTime nowMs
  | .ready nowMs => b.ready nowMs
  | .requestBytes bytes => b.requestBytes bytes
  | .beginProvider nowMs bytes costCeiling => b.beginProvider nowMs bytes costCeiling
  | .finishProvider actualCost => b.finishProvider actualCost
  | .inputAction nowMs => b.inputAction nowMs

/-- The times of the actions that a call admits. -/
def BudgetOp.admits : BudgetOp → Except LimitError Unit → List Nat
  | .inputAction nowMs, .ok () => [nowMs]
  | _, _ => []

/-- What a call adds to the settled charges; an unknown cost is all that was reserved. -/
def BudgetOp.settles (b : Budget) : BudgetOp → Nat
  | .finishProvider actualCost => (b.pending.map actualCost.getD).getD 0
  | _ => 0

end Calls

section Invariants

/-- What holds of a ledger between calls, when these actions were admitted and this was spent. -/
structure Budget.Sound (b : Budget) (admitted : List Nat) (spent : Nat) : Prop where
  turns : b.counters.turns ≤ b.limits.turns.val
  bytes : b.counters.bytes ≤ b.limits.bytes.val
  actions : b.counters.actions ≤ b.limits.actions.val
  counted : b.counters.actions = admitted.length
  cost : b.counters.costMicroUsd ≤ u64Max
  charged : b.failed = false → b.counters.costMicroUsd = spent + b.pending.getD 0
  covered : b.failed = false → b.counters.costMicroUsd ≤ b.limits.costMicroUsd.val
  settled : b.failed = true → b.pending = none
  watches : Watches 1000 b.lastNow admitted b.actionTimes
  spread : Spread 1000 b.limits.actionsPerSecond.val admitted

/-- A call that leaves the limits and the state of the ledger alone. -/
structure Budget.Alike (b next : Budget) : Prop where
  limits : next.limits = b.limits
  failed : next.failed = b.failed

theorem Budget.Alike.refl (b : Budget) : b.Alike b := ⟨rfl, rfl⟩

theorem Budget.Alike.trans {b next last : Budget} (first : b.Alike next)
    (second : next.Alike last) : b.Alike last :=
  ⟨second.limits.trans first.limits, second.failed.trans first.failed⟩

/-- A call does not overflow, and ends like this. -/
def Charge.Ends (charge : Charge) (post : Budget → Except LimitError Unit → Prop) : Prop :=
  ∃ next reply, charge = some (next, reply) ∧ post next reply

variable {charge : Charge} {next : Budget → Charge}
  {mid post : Budget → Except LimitError Unit → Prop}

theorem Charge.ends_some {b : Budget} {reply : Except LimitError Unit} (holds : post b reply) :
    Charge.Ends (some (b, reply)) post :=
  ⟨b, reply, rfl, holds⟩

theorem Charge.Ends.andThen (ends : charge.Ends mid)
    (go : ∀ b, mid b (.ok ()) → (next b).Ends post)
    (stop : ∀ b reason, mid b (.error reason) → post b (.error reason)) :
    (charge.andThen next).Ends post := by
  obtain ⟨b, reply, rfl, holds⟩ := ends
  cases reply with
  | ok => exact go b holds
  | error reason => exact Charge.ends_some (stop b reason holds)

end Invariants

section Rules

variable {b : Budget} {admitted : List Nat} {spent nowMs : Nat}

/-- A call that spends and admits nothing. -/
structure Budget.Rests (b : Budget) (admitted : List Nat) (spent : Nat) (next : Budget) :
    Prop where
  sound : next.Sound admitted spent
  alike : b.Alike next

/-- A call that is let through at a time, with no provider call unresolved. -/
structure Budget.Enters (b : Budget) (admitted : List Nat) (spent nowMs : Nat)
    (next : Budget) : Prop extends b.Rests admitted spent next where
  lastNow : next.lastNow = nowMs
  unfailed : next.failed = false
  pending : next.pending = none

theorem Budget.Sound.rests (sound : b.Sound admitted spent) : b.Rests admitted spent b :=
  ⟨sound, .refl b⟩

theorem Budget.Sound.at (sound : b.Sound admitted spent) (ordered : b.lastNow ≤ nowMs) :
    b.Rests admitted spent { b with lastNow := nowMs } where
  sound := { sound with watches := sound.watches.later ordered }
  alike := ⟨rfl, rfl⟩

theorem checkTime_ends (sound : b.Sound admitted spent) (nowMs : Nat) :
    (b.checkTime nowMs).Ends fun next reply => b.Rests admitted spent next ∧
      (reply = .ok () → next.lastNow = nowMs ∧ next.failed = false) := by
  unfold Budget.checkTime
  split
  · exact Charge.ends_some ⟨sound.rests, nofun⟩
  · rename_i forward
    have rests := sound.at (Nat.le_of_not_lt forward)
    by_cases late : nowMs ≥ b.deadline
    · simp only [late, ↓reduceIte]
      exact Charge.ends_some ⟨rests, nofun⟩
    · cases failed : b.failed with
      | true =>
        simp only [late, ↓reduceIte]
        exact Charge.ends_some ⟨failed ▸ rests, nofun⟩
      | false =>
        simp only [late, ↓reduceIte, Bool.false_eq_true]
        exact Charge.ends_some ⟨failed ▸ rests, fun _ => ⟨rfl, rfl⟩⟩

theorem ready_ends (sound : b.Sound admitted spent) (nowMs : Nat) :
    (b.ready nowMs).Ends fun next reply => b.Rests admitted spent next ∧
      (reply = .ok () → b.Enters admitted spent nowMs next) := by
  refine (checkTime_ends sound nowMs).andThen ?_ fun _ _ kept => ⟨kept.1, nofun⟩
  rintro next ⟨rests, entered⟩
  obtain ⟨lastNow, unfailed⟩ := entered rfl
  unfold Budget.unresolved
  cases pending : next.pending with
  | some reserved => exact Charge.ends_some ⟨rests, nofun⟩
  | none => exact Charge.ends_some ⟨rests, fun _ => ⟨rests, lastNow, unfailed, pending⟩⟩

theorem checkedAdd_eq_some {first second sum : Nat} (added : checkedAdd first second = some sum) :
    sum = first + second := by
  unfold checkedAdd at added
  split at added
  · exact (Option.some.inj added).symm
  · cases added

theorem moreBytes_le {bytes total : Nat} (more : b.moreBytes bytes = some total) :
    total ≤ b.limits.bytes.val :=
  of_decide_eq_true (Option.filter_eq_some_iff.mp more).2

theorem moreCost_eq_some {ceiling total : Nat} (more : b.moreCost ceiling = some total) :
    total = b.counters.costMicroUsd + ceiling ∧ total ≤ b.limits.costMicroUsd.val := by
  obtain ⟨added, within⟩ := Option.filter_eq_some_iff.mp more
  exact ⟨checkedAdd_eq_some added, of_decide_eq_true within⟩

theorem requestBytes_ends (sound : b.Sound admitted spent) (bytes : Nat) :
    (b.requestBytes bytes).Ends fun next _ => b.Rests admitted spent next := by
  unfold Budget.requestBytes
  split
  · exact Charge.ends_some sound.rests
  · rename_i total more
    have within := moreBytes_le more
    exact Charge.ends_some ⟨{ sound with bytes := within }, rfl, rfl⟩

/-- A turn is reserved out of what is left, on a ledger that has not failed. -/
theorem reserve_ends (sound : b.Sound admitted spent) (unfailed : b.failed = false)
    (resolved : b.pending = none) (bytes costCeiling : Nat) :
    (b.reserve bytes costCeiling).Ends fun next _ => b.Rests admitted spent next := by
  unfold Budget.reserve
  split
  · exact Charge.ends_some sound.rests
  · rename_i few
    split
    · exact Charge.ends_some sound.rests
    · exact Charge.ends_some sound.rests
    · rename_i total costMicroUsd moreBytes moreCost
      obtain ⟨added, within⟩ := moreCost_eq_some moreCost
      have withinBytes := moreBytes_le moreBytes
      have spentSoFar := sound.charged unfailed
      have most := b.limits.turns.isLt
      have mostCost := b.limits.costMicroUsd.isLt
      split
      · exact Charge.ends_some sound.rests
      · have counted : checkedAdd b.counters.turns 1 = some (b.counters.turns + 1) :=
          if_pos (by omega)
        rw [counted]
        refine Charge.ends_some ⟨{ sound with
          turns := ?_
          bytes := withinBytes
          cost := ?_
          charged := ?_
          covered := fun _ => within
          settled := ?_ }, rfl, rfl⟩
        · change b.counters.turns + 1 ≤ b.limits.turns.val
          omega
        · change costMicroUsd ≤ u64Max
          omega
        · intro _
          change costMicroUsd = spent + costCeiling
          rw [resolved] at spentSoFar
          rw [added, spentSoFar, Option.getD_none, Nat.add_zero]
        · intro failed
          rw [unfailed] at failed
          cases failed

theorem beginProvider_ends (sound : b.Sound admitted spent) (nowMs bytes costCeiling : Nat) :
    (b.beginProvider nowMs bytes costCeiling).Ends fun next reply =>
      b.Rests admitted spent next ∧ (reply = .ok () → b.failed = false) := by
  refine (ready_ends sound nowMs).andThen ?_ fun _ _ kept => ⟨kept.1, nofun⟩
  rintro entered ⟨_, enters⟩
  have enters := enters rfl
  obtain ⟨next, reply, reserved, rests⟩ :=
    reserve_ends enters.sound enters.unfailed enters.pending bytes costCeiling
  refine ⟨next, reply, reserved, ⟨rests.sound, enters.alike.trans rests.alike⟩, ?_⟩
  exact fun _ => enters.alike.failed.symm.trans enters.unfailed

/-- The reservation gives way to what was spent; more than was reserved fails the ledger. -/
theorem finishProvider_ends (sound : b.Sound admitted spent) (actualCost : Option Nat) :
    (b.finishProvider actualCost).Ends fun next reply =>
      next.Sound admitted (spent + (BudgetOp.finishProvider actualCost).settles b) ∧
        next.limits = b.limits ∧
        (next.failed = true ↔ b.failed = true ∨ reply = .error .cost) ∧
        ∀ reserved actual, b.pending = some reserved → actualCost = some actual →
          reserved < actual → reply = .error .cost := by
  unfold Budget.finishProvider BudgetOp.settles
  cases pending : b.pending with
  | none => exact Charge.ends_some ⟨sound, rfl, by simp, nofun⟩
  | some reserved =>
    have unfailed : b.failed = false := by
      cases failed : b.failed with
      | false => rfl
      | true => rw [sound.settled failed] at pending; cases pending
    have charged := sound.charged unfailed
    have covered := sound.covered unfailed
    rw [pending, Option.getD_some] at charged
    cases actualCost with
    | none =>
      refine Charge.ends_some ⟨{ sound with
        charged := fun _ => charged
        settled := fun _ => rfl }, rfl, by simp, ?_⟩
      rintro _ _ _ ⟨⟩
    | some actual =>
      dsimp only
      unfold Budget.settle
      split
      · rename_i overrun
        exact Charge.ends_some ⟨{ sound with
          cost := Nat.min_le_left _ _
          charged := nofun
          covered := nofun
          settled := fun _ => rfl }, rfl, by simp, fun _ _ _ _ _ => rfl⟩
      · rename_i within
        have difference : checkedSub b.counters.costMicroUsd (reserved - actual) =
            some (b.counters.costMicroUsd - (reserved - actual)) := if_pos (by omega)
        rw [difference]
        refine Charge.ends_some ⟨{ sound with
          cost := (Nat.sub_le _ _).trans sound.cost
          charged := ?_
          covered := fun _ => (Nat.sub_le _ _).trans covered
          settled := fun _ => rfl }, rfl, by simp, ?_⟩
        · intro _
          change b.counters.costMicroUsd - (reserved - actual) = spent + actual + 0
          omega
        · rintro _ _ ⟨⟩ ⟨⟩ overrun
          exact absurd overrun within

theorem popExpired_eq {times : List Nat} (past : ∀ time ∈ times, time ≤ nowMs) :
    Budget.popExpired nowMs times = some (unexpired 1000 nowMs times) := by
  induction times with
  | nil => rfl
  | cons time rest ih =>
    have age : checkedSub nowMs time = some (nowMs - time) := if_pos (past time (by simp))
    have later := ih fun other member => past other (List.mem_cons_of_mem _ member)
    simp only [Budget.popExpired, age, Option.bind_eq_bind, Option.bind_some, later, unexpired,
      List.dropWhile_cons, decide_eq_true_eq, ge_iff_le]
    split <;> rfl

theorem admitAction_ends (sound : b.Sound admitted spent) :
    (b.admitAction b.lastNow).Ends fun next reply =>
      next.Sound (admitted ++ (BudgetOp.inputAction b.lastNow).admits reply) spent ∧
        b.Alike next := by
  unfold Budget.admitAction
  split
  · exact Charge.ends_some ⟨by simpa [BudgetOp.admits] using sound, .refl b⟩
  · rename_i few
    have popped := popExpired_eq fun time queued => sound.watches.past time (sound.watches.mem queued)
    have watches := sound.watches.unexpired
    rw [popped]
    simp only [Option.bind_eq_bind, Option.bind_some]
    split
    · refine Charge.ends_some ⟨?_, rfl, rfl⟩
      simpa [BudgetOp.admits] using { sound with watches }
    · rename_i room
      have most := b.limits.actions.isLt
      have counted : checkedAdd b.counters.actions 1 = some (b.counters.actions + 1) :=
        if_pos (by omega)
      rw [counted]
      refine Charge.ends_some ⟨{ sound with
        actions := ?_
        counted := ?_
        watches := watches.enter
        spread := watches.spread_admit sound.spread (Nat.lt_of_not_le room) }, rfl, rfl⟩
      · change b.counters.actions + 1 ≤ b.limits.actions.val
        omega
      · change b.counters.actions + 1 = (admitted ++ [b.lastNow]).length
        rw [List.length_append, List.length_singleton, sound.counted]

theorem inputAction_ends (sound : b.Sound admitted spent) (nowMs : Nat) :
    (b.inputAction nowMs).Ends fun next reply =>
      next.Sound (admitted ++ (BudgetOp.inputAction nowMs).admits reply) spent ∧
        b.Alike next := by
  refine (ready_ends sound nowMs).andThen ?_ ?_
  · rintro entered ⟨_, enters⟩
    have enters := enters rfl
    obtain ⟨next, reply, admittedAt, kept, alike⟩ := admitAction_ends enters.sound
    rw [enters.lastNow] at admittedAt kept
    exact ⟨next, reply, admittedAt, kept, enters.alike.trans alike⟩
  · intro next reason kept
    exact ⟨by simpa [BudgetOp.admits] using kept.1.sound, kept.1.alike⟩

end Rules

section Runs

/-- A ledger with what it has admitted and what has been spent on it. -/
structure Ledger where
  budget : Budget
  admitted : List Nat
  spent : Nat

def Ledger.Sound (ledger : Ledger) : Prop := ledger.budget.Sound ledger.admitted ledger.spent

/-- One call; none when it overflows. -/
def Ledger.perform (ledger : Ledger) (op : BudgetOp) :
    Option (Ledger × Except LimitError Unit) := do
  let (budget, reply) ← ledger.budget.perform op
  return (⟨budget, ledger.admitted ++ op.admits reply, ledger.spent + op.settles ledger.budget⟩,
    reply)

/-- The overrun of a reservation is reported. -/
def BudgetOp.Overruns (op : BudgetOp) (reply : Except LimitError Unit) : Prop :=
  (∃ actualCost, op = .finishProvider actualCost) ∧ reply = .error .cost

/-- What a call on a sound ledger does. -/
structure Ledger.Moves (ledger : Ledger) (op : BudgetOp) (next : Ledger)
    (reply : Except LimitError Unit) : Prop where
  sound : next.Sound
  limits : next.budget.limits = ledger.budget.limits
  failed : next.budget.failed = true ↔ ledger.budget.failed = true ∨ op.Overruns reply
  begun : ∀ nowMs bytes costCeiling, op = .beginProvider nowMs bytes costCeiling → reply = .ok () →
    ledger.budget.failed = false
  reported : ∀ reserved actual, ledger.budget.pending = some reserved →
    op = .finishProvider (some actual) → reserved < actual → op.Overruns reply

theorem Ledger.perform_moves {ledger : Ledger} (sound : ledger.Sound) (op : BudgetOp) :
    ∃ next reply, ledger.perform op = some (next, reply) ∧
      next.admitted = ledger.admitted ++ op.admits reply ∧ ledger.Moves op next reply := by
  have resting {budget : Budget} {reply : Except LimitError Unit}
      (performed : ledger.budget.perform op = some (budget, reply))
      (rests : ledger.budget.Rests ledger.admitted ledger.spent budget)
      (admits : op.admits reply = []) (settles : op.settles ledger.budget = 0)
      (unsettled : ∀ actualCost, op ≠ .finishProvider actualCost)
      (begun : ∀ nowMs bytes costCeiling, op = .beginProvider nowMs bytes costCeiling →
        reply = .ok () → ledger.budget.failed = false) :
      ∃ next reply, ledger.perform op = some (next, reply) ∧
        next.admitted = ledger.admitted ++ op.admits reply ∧ ledger.Moves op next reply := by
    refine ⟨_, reply, by simp only [perform, performed]; rfl, rfl, ?_, rests.alike.limits, ?_,
      begun, fun _ _ _ same => absurd same (unsettled _)⟩
    · simpa [Sound, admits, settles] using rests.sound
    · simp [BudgetOp.Overruns, unsettled, rests.alike.failed]
  cases op with
  | checkTime nowMs =>
    obtain ⟨budget, reply, performed, rests, _⟩ := checkTime_ends sound nowMs
    exact resting performed rests rfl rfl nofun nofun
  | ready nowMs =>
    obtain ⟨budget, reply, performed, rests, _⟩ := ready_ends sound nowMs
    exact resting performed rests rfl rfl nofun nofun
  | requestBytes bytes =>
    obtain ⟨budget, reply, performed, rests⟩ := requestBytes_ends sound bytes
    exact resting performed rests rfl rfl nofun nofun
  | beginProvider nowMs bytes costCeiling =>
    obtain ⟨budget, reply, performed, rests, begun⟩ :=
      beginProvider_ends sound nowMs bytes costCeiling
    exact resting performed rests rfl rfl nofun fun _ _ _ _ => begun
  | finishProvider actualCost =>
    obtain ⟨budget, reply, performed, settled, limits, failed, reported⟩ :=
      finishProvider_ends sound actualCost
    refine ⟨_, reply, by simp only [perform, Budget.perform, performed]; rfl, rfl, ?_, limits, ?_,
      nofun, ?_⟩
    · simpa [Sound, BudgetOp.admits] using settled
    · simp [BudgetOp.Overruns, failed]
    · rintro reserved actual pending ⟨⟩ more
      exact ⟨⟨_, rfl⟩, reported reserved actual pending rfl more⟩
  | inputAction nowMs =>
    obtain ⟨budget, reply, performed, admitted, alike⟩ := inputAction_ends sound nowMs
    refine ⟨_, reply, by simp only [perform, Budget.perform, performed]; rfl, rfl, ?_,
      alike.limits, ?_, nofun, nofun⟩
    · exact admitted
    · simp [BudgetOp.Overruns, alike.failed]

variable {limits : Limits} {startMs : Nat}

/-- The ledger after some calls; none when one of them overflowed. -/
def Ledger.step (state : Option Ledger) (op : BudgetOp) : Option Ledger := do
  let ledger ← state
  let (next, _) ← ledger.perform op
  return next

theorem sound_new {budget : Budget} (new : Budget.new limits startMs = .ok budget) :
    Ledger.Sound ⟨budget, [], 0⟩ ∧ budget.limits = limits ∧ budget.failed = false := by
  unfold Budget.new at new
  split at new
  · cases new
  · split at new
    · cases new
    · obtain rfl := Except.ok.inj new
      refine ⟨⟨Nat.zero_le _, Nat.zero_le _, Nat.zero_le _, rfl, Nat.zero_le _, fun _ => rfl,
        fun _ => Nat.zero_le _, nofun, watches_nil, ?_⟩, rfl, rfl⟩
      intro start
      exact Nat.zero_le _

end Runs

end OHHive.Desktop
