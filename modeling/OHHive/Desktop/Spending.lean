import OHHive.Desktop.AtMostOnce
import OHHive.Desktop.Session

/-! What a desktop session can spend. Over any calls on its ledger the counters stay within the
limits, the actions stay within their rate, and an overrun ends the turns; a batch does nothing
after its first request that is not carried out. -/

namespace OHHive.Desktop

open Foundation

section Ledgers

variable {budget : Budget} {calls : List BudgetOp} {ledger next : Ledger}

def ledgerAt (budget : Budget) (calls : List BudgetOp) : Nat → Option Ledger :=
  stateAt Ledger.step (some ⟨budget, [], 0⟩) calls

/-- The ledger is that of some calls since it was opened. -/
def Ledger.FollowsFrom (budget : Budget) (ledger : Ledger) : Prop :=
  ∃ calls, ledgerAt budget calls calls.length = some ledger

theorem Ledger.step_eq {op : BudgetOp} {reply : Except LimitError Unit}
    (performed : ledger.perform op = some (next, reply)) :
    Ledger.step (some ledger) op = some next := by
  simp [Ledger.step, performed]

theorem Ledger.FollowsFrom.step {op : BudgetOp} {reply : Except LimitError Unit}
    (follows : ledger.FollowsFrom budget) (performed : ledger.perform op = some (next, reply)) :
    next.FollowsFrom budget := by
  obtain ⟨calls, reached⟩ := follows
  refine ⟨calls ++ [op], ?_⟩
  unfold ledgerAt stateAt at reached ⊢
  rw [List.take_length] at reached ⊢
  rw [List.foldl_append, reached]
  exact Ledger.step_eq performed

/-- No call overflows, and every one leaves the ledger in order. -/
theorem sound_ledgerAt (sound : Ledger.Sound ⟨budget, [], 0⟩) (calls : List BudgetOp)
    (count : Nat) : ∃ ledger, ledgerAt budget calls count = some ledger ∧ ledger.Sound ∧
      ledger.budget.limits = budget.limits := by
  apply stateAt_invariant Ledger.step _ calls
    (fun state => ∃ ledger, state = some ledger ∧ ledger.Sound ∧
      ledger.budget.limits = budget.limits) ⟨_, rfl, sound, rfl⟩
  rintro _ op _ ⟨ledger, rfl, sound, limits⟩
  obtain ⟨next, reply, performed, _, moves⟩ := Ledger.perform_moves sound op
  exact ⟨next, Ledger.step_eq performed, moves.sound, moves.limits.trans limits⟩

/-- An overrun is reported by a call of the run. -/
def OverrunAt (budget : Budget) (calls : List BudgetOp) (moment : Nat) : Prop :=
  ∃ ledger op next reply, ledgerAt budget calls moment = some ledger ∧
    calls[moment]? = some op ∧ ledger.perform op = some (next, reply) ∧ op.Overruns reply

/-- A ledger has failed exactly when an overrun was reported. -/
theorem failed_iff (sound : Ledger.Sound ⟨budget, [], 0⟩) (unfailed : budget.failed = false)
    (calls : List BudgetOp) (count : Nat) :
    ∃ ledger, ledgerAt budget calls count = some ledger ∧ ledger.Sound ∧
      (ledger.budget.failed = true ↔ ∃ earlier, earlier < count ∧ OverrunAt budget calls earlier) := by
  induction count with
  | zero =>
    refine ⟨_, rfl, sound, ?_⟩
    simp [unfailed]
  | succ count ih =>
    obtain ⟨ledger, reached, sound, failed⟩ := ih
    have before (earlier : Nat) : earlier < count + 1 ↔ earlier < count ∨ earlier = count := by
      omega
    rcases stateAt_next Ledger.step (some ⟨budget, [], 0⟩) calls count with
      ⟨op, present, step⟩ | ⟨absent, rest⟩
    · obtain ⟨next, reply, performed, _, moves⟩ := Ledger.perform_moves sound op
      have now : OverrunAt budget calls count ↔ op.Overruns reply := by
        constructor
        · rintro ⟨other, called, last, answer, same, here, did, overruns⟩
          obtain rfl := Option.some.inj (reached.symm.trans same)
          obtain rfl := Option.some.inj (present.symm.trans here)
          obtain ⟨rfl, rfl⟩ := Prod.mk.inj (Option.some.inj (performed.symm.trans did))
          exact overruns
        · exact fun overruns => ⟨ledger, op, next, reply, reached, present, performed, overruns⟩
      refine ⟨next, ?_, moves.sound, ?_⟩
      · change stateAt Ledger.step _ calls count = _ at reached
        rw [ledgerAt, step, reached]
        exact Ledger.step_eq performed
      · rw [moves.failed, failed, ← now]
        simp only [before, or_and_right, exists_or, exists_eq_left]
    · refine ⟨ledger, rest.trans reached, sound, ?_⟩
      have nothing : ¬ OverrunAt budget calls count := by
        rintro ⟨_, op, _, _, _, present, _⟩
        rw [absent] at present
        cases present
      simp only [failed, before, or_and_right, exists_or, exists_eq_left, nothing, or_false]

/-- What the ledger of a session guarantees over any calls. -/
structure LedgerKept (budget : Budget) (calls : List BudgetOp) : Prop where
  total : ∀ count, ∃ ledger, ledgerAt budget calls count = some ledger
  charged : ∀ count ledger, ledgerAt budget calls count = some ledger →
    ledger.budget.counters.turns ≤ budget.limits.turns.val ∧
      ledger.budget.counters.bytes ≤ budget.limits.bytes.val ∧
      ledger.budget.counters.actions ≤ budget.limits.actions.val ∧
      ledger.budget.counters.costMicroUsd ≤ u64Max
  rate : ∀ count ledger, ledgerAt budget calls count = some ledger → ∀ start,
    countWithin 1000 start ledger.admitted ≤ budget.limits.actionsPerSecond.val
  covered : ∀ count ledger, ledgerAt budget calls count = some ledger →
    (∀ earlier, earlier < count → ¬ OverrunAt budget calls earlier) →
    ledger.budget.counters.costMicroUsd = ledger.spent + ledger.budget.pending.getD 0 ∧
      ledger.spent + ledger.budget.pending.getD 0 ≤ budget.limits.costMicroUsd.val
  reported : ∀ moment ledger reserved actual, ledgerAt budget calls moment = some ledger →
    calls[moment]? = some (.finishProvider (some actual)) →
    ledger.budget.pending = some reserved → reserved < actual → OverrunAt budget calls moment
  ended : ∀ earlier later, earlier < later → OverrunAt budget calls earlier →
    ∀ ledger nowMs bytes costCeiling next reply, ledgerAt budget calls later = some ledger →
      ledger.perform (.beginProvider nowMs bytes costCeiling) = some (next, reply) →
      reply ≠ .ok ()

theorem ledgerKept (sound : Ledger.Sound ⟨budget, [], 0⟩) (unfailed : budget.failed = false)
    (calls : List BudgetOp) : LedgerKept budget calls := by
  have found {count : Nat} {ledger : Ledger} (reached : ledgerAt budget calls count = some ledger) :
      ledger.Sound ∧ ledger.budget.limits = budget.limits := by
    obtain ⟨other, same, sound, limits⟩ := sound_ledgerAt sound calls count
    obtain rfl := Option.some.inj (same.symm.trans reached)
    exact ⟨sound, limits⟩
  have failure {count : Nat} {ledger : Ledger}
      (reached : ledgerAt budget calls count = some ledger) :
      ledger.budget.failed = true ↔
        ∃ earlier, earlier < count ∧ OverrunAt budget calls earlier := by
    obtain ⟨other, same, _, failed⟩ := failed_iff sound unfailed calls count
    obtain rfl := Option.some.inj (same.symm.trans reached)
    exact failed
  constructor
  · intro count
    obtain ⟨ledger, reached, _⟩ := sound_ledgerAt sound calls count
    exact ⟨ledger, reached⟩
  · intro count ledger reached
    obtain ⟨sound, limits⟩ := found reached
    exact limits ▸ ⟨sound.turns, sound.bytes, sound.actions, sound.cost⟩
  · intro count ledger reached
    obtain ⟨sound, limits⟩ := found reached
    exact limits ▸ sound.spread
  · intro count ledger reached never
    obtain ⟨sound, limits⟩ := found reached
    have unfailed : ledger.budget.failed = false := by
      cases failed : ledger.budget.failed with
      | false => rfl
      | true =>
        obtain ⟨earlier, before, overrun⟩ := (failure reached).mp failed
        exact absurd overrun (never earlier before)
    have charged := sound.charged unfailed
    exact ⟨charged, charged ▸ limits ▸ sound.covered unfailed⟩
  · intro moment ledger reserved actual reached present pending more
    obtain ⟨next, reply, performed, _, moves⟩ :=
      Ledger.perform_moves (found reached).1 (.finishProvider (some actual))
    exact ⟨ledger, _, next, reply, reached, present, performed,
      moves.reported reserved actual pending rfl more⟩
  · rintro earlier later before overrun ledger nowMs bytes costCeiling next reply reached did rfl
    obtain ⟨_, _, performed, _, moves⟩ :=
      Ledger.perform_moves (found reached).1 (.beginProvider nowMs bytes costCeiling)
    obtain ⟨rfl, rfl⟩ := Prod.mk.inj (Option.some.inj (performed.symm.trans did))
    have unfailed := moves.begun nowMs bytes costCeiling rfl rfl
    rw [(failure reached).mpr ⟨earlier, before, overrun⟩] at unfailed
    cases unfailed

end Ledgers

section Steps

variable {s : DesktopSession} {batch : Batch} {step : Step} {opened : Budget} {ledger : Ledger}
  {acted : List Nat}

/-- The books of a ledger: its calls, and among the admitted actions those carried out. -/
structure Books (opened : Budget) (acted : List Nat) (ledger : Ledger) : Prop where
  follows : ledger.FollowsFrom opened
  sound : ledger.Sound
  among : acted.Sublist ledger.admitted

namespace Books

theorem perform (books : Books opened acted ledger) (op : BudgetOp) :
    ∃ (next : Ledger) (reply : Except LimitError Unit),
      ledger.budget.perform op = some (next.budget, reply) ∧
        Books opened (acted ++ op.admits reply) next := by
  obtain ⟨next, reply, performed, admitted, moves⟩ := Ledger.perform_moves books.sound op
  refine ⟨next, reply, ?_, books.follows.step performed, moves.sound, ?_⟩
  · unfold Ledger.perform at performed
    obtain ⟨⟨charged, answer⟩, called, same⟩ := Option.bind_eq_some_iff.mp performed
    obtain ⟨rfl, rfl⟩ := Prod.mk.inj (Option.some.inj same)
    exact called
  · rw [admitted]
    exact books.among.append (List.Sublist.refl _)

/-- Fewer actions than those admitted are carried out. -/
theorem fewer {fewer : List Nat} (books : Books opened acted ledger)
    (among : fewer.Sublist acted) : Books opened fewer ledger :=
  { books with among := among.trans books.among }

theorem perform_kept (books : Books opened acted ledger) (op : BudgetOp) :
    ∃ (next : Ledger) (reply : Except LimitError Unit),
      ledger.budget.perform op = some (next.budget, reply) ∧ Books opened acted next := by
  obtain ⟨next, reply, performed, kept⟩ := books.perform op
  exact ⟨next, reply, performed, kept.fewer (List.sublist_append_left _ _)⟩

/-- The last call before the gate. -/
theorem enter (books : Books opened acted ledger) (step : Step) :
    ∃ (next : Ledger) (reply : Except LimitError Unit),
      (if step.request.action = .observe then ledger.budget.checkTime step.nowMs
        else ledger.budget.inputAction step.nowMs) = some (next.budget, reply) ∧
      Books opened acted next ∧
      (reply = .ok () → step.request.action ≠ .observe →
        Books opened (acted ++ [step.nowMs]) next) := by
  by_cases observes : step.request.action = .observe
  · obtain ⟨next, reply, checked, kept⟩ := books.perform_kept (.checkTime step.nowMs)
    exact ⟨next, reply, (if_pos observes).trans checked, kept, fun _ input => absurd observes input⟩
  · obtain ⟨next, reply, admitted, kept⟩ := books.perform (.inputAction step.nowMs)
    refine ⟨next, reply, (if_neg observes).trans admitted,
      kept.fewer (List.sublist_append_left _ _), ?_⟩
    rintro rfl _
    exact kept

/-- A request is charged to the books, and an input action that passes is among the admitted. -/
theorem charge (books : Books opened acted ledger) (same : ledger.budget = s.budget)
    (step : Step) :
    ∃ (next : Ledger) (reply : Except LimitError Unit),
      s.charge step = some (next.budget, reply) ∧ Books opened acted next ∧
      (reply = .ok () → step.request.action ≠ .observe →
        Books opened (acted ++ [step.nowMs]) next) := by
  obtain ⟨first, answer, ready, entered⟩ := books.perform_kept (.ready step.nowMs)
  change ledger.budget.ready step.nowMs = _ at ready
  unfold DesktopSession.charge
  rw [← same, ready]
  cases answer with
  | error reason => exact ⟨first, .error reason, rfl, entered, nofun⟩
  | ok =>
    obtain ⟨second, answer, counted, kept⟩ :=
      entered.perform_kept (.requestBytes step.request.bytes)
    change first.budget.requestBytes step.request.bytes = _ at counted
    simp only [Charge.andThen, counted]
    cases answer with
    | error reason => exact ⟨second, .error reason, rfl, kept, nofun⟩
    | ok => exact kept.enter step

end Books

/-- The gate leaves the ledger alone, and reports no observation as applied. -/
theorem dispatch_acts (s : DesktopSession) (batch : Batch) (step : Step) :
    (s.dispatch batch step).1.1.budget = s.budget ∧
      (step.request.action = .observe → actedAt step (s.dispatch batch step).2 = []) := by
  have acts := FakeDesktop.execute_cases s.desktop step.authority step.policy step.observation
    step.request step.risk step.approval step.now
  unfold DesktopSession.dispatch
  generalize s.desktop.execute _ _ _ _ _ _ _ = executed at acts ⊢
  obtain ⟨desktop, outcome⟩ := executed
  have unapplied (observes : step.request.action = .observe) : outcome ≠ .applied := by
    rcases acts with ⟨_, refused⟩ | ⟨_, _, input⟩
    · exact refused
    · exact fun applied => input applied observes
  dsimp only
  split
  · refine ⟨rfl, fun observes => ?_⟩
    have unapplied := unapplied observes
    cases outcome <;> first | rfl | contradiction
  · refine ⟨rfl, fun observes => ?_⟩
    have unapplied := unapplied observes
    cases outcome <;> first | rfl | contradiction

theorem actedAt_sublist (step : Step) (reply : StepReply) :
    (actedAt step reply).Sublist [step.nowMs] := by
  unfold actedAt
  split
  · exact List.Sublist.refl _
  · exact List.nil_sublist _

/-- A step does not overflow, and the books have the action it carries out. -/
theorem executeStep_books (books : Books opened acted ledger) (same : ledger.budget = s.budget)
    (batch : Batch) (step : Step) :
    ∃ (result : DesktopSession × Batch) (reply : StepReply) (next : Ledger),
      s.executeStep batch step = some (result, reply) ∧
        Books opened (acted ++ actedAt step reply) next ∧ next.budget = result.1.budget := by
  have refused {ledger : Ledger} (books : Books opened acted ledger) (reason : SessionError) :
      Books opened (acted ++ actedAt step (.error reason)) ledger :=
    (List.append_nil acted).symm ▸ books
  unfold DesktopSession.executeStep
  split
  · exact ⟨_, _, ledger, rfl, refused books _, same⟩
  · split
    · exact ⟨_, _, ledger, rfl, refused books _, same⟩
    · obtain ⟨next, reply, charged, rests, passes⟩ := books.charge same step
      rw [charged]
      cases reply with
      | error reason => exact ⟨_, _, next, rfl, refused rests _, rfl⟩
      | ok =>
        obtain ⟨budget, quiet⟩ := dispatch_acts { s with budget := next.budget } batch step
        refine ⟨({ s with budget := next.budget }.dispatch batch step).1,
          ({ s with budget := next.budget }.dispatch batch step).2, next, rfl, ?_, budget.symm⟩
        by_cases observes : step.request.action = .observe
        · rw [quiet observes, List.append_nil]
          exact rests
        · exact (passes rfl observes).fewer
            ((List.Sublist.refl acted).append (actedAt_sublist step _))

/-- A batch goes on after a request that was carried out. -/
def Continues : StepReply → Prop
  | .ok outcome => outcome = .applied ∨ outcome = .observed
  | .error _ => False

theorem dispatch_stops (stops : ¬ Continues (s.dispatch batch step).2) :
    (s.dispatch batch step).1.2.stopped = true := by
  unfold DesktopSession.dispatch at stops ⊢
  generalize s.desktop.execute _ _ _ _ _ _ _ = executed at stops ⊢
  obtain ⟨desktop, outcome⟩ := executed
  dsimp only at stops ⊢
  split
  · rename_i carried
    rw [if_pos carried] at stops
    exact absurd carried stops
  · rfl

theorem executeStep_stops {result : DesktopSession × Batch} {reply : StepReply}
    (executed : s.executeStep batch step = some (result, reply)) (stops : ¬ Continues reply) :
    result.2.stopped = true := by
  unfold DesktopSession.executeStep at executed
  split at executed
  · cases executed
    rfl
  · split at executed
    · cases executed
      rfl
    · obtain ⟨⟨charged, answer⟩, _, executed⟩ := Option.bind_eq_some_iff.mp executed
      cases answer with
      | error reason =>
        cases executed
        rfl
      | ok =>
        have same : _ = (result, reply) := Option.some.inj executed
        have second : _ = reply := congrArg Prod.snd same
        have first : _ = result := congrArg Prod.fst same
        rw [← second] at stops
        rw [← first]
        exact dispatch_stops stops

/-- Nothing of a stopped batch is carried out. -/
theorem executeStep_stopped (stopped : batch.stopped = true) :
    s.executeStep batch step = some ((s, batch), .error .batchStopped) := by
  have same : batch.stop = batch := by
    obtain ⟨calls, next, _⟩ := batch
    exact congrArg (Batch.mk calls next) stopped.symm
  rw [DesktopSession.executeStep, if_pos (Or.inl stopped), same]

end Steps

section Desks

variable {opened : Budget} {desk next : Desk}

/-- A desk whose ledger is in order. -/
def Desk.Kept (opened : Budget) (desk : Desk) : Prop :=
  ∃ ledger, Books opened desk.acted ledger ∧ ledger.budget = desk.session.budget

/-- The batch at an index has stopped. -/
def Desk.Stopped (index : Nat) (desk : Desk) : Prop :=
  ∃ batch, desk.batches[index]? = some batch ∧ batch.stopped = true

theorem Desk.executeStep_kept (kept : desk.Kept opened) (index : Nat) (batch : Batch)
    (step : Step) :
    ∃ next reply, desk.executeStep index batch step = some (next, reply) ∧ next.Kept opened := by
  obtain ⟨ledger, books, same⟩ := kept
  obtain ⟨⟨session, batch'⟩, reply, last, executed, after, budget⟩ :=
    executeStep_books books same batch step
  refine ⟨⟨session, desk.batches.set index batch', desk.acted ++ actedAt step reply⟩, reply, ?_,
    last, after, budget⟩
  rw [Desk.executeStep, executed]
  rfl

/-- Nothing that happens to a desk overflows its ledger. -/
theorem Desk.step_kept (kept : desk.Kept opened) (op : DeskOp) :
    ∃ next, desk.step op = some next ∧ next.Kept opened := by
  cases op with
  | newBatch calls =>
    unfold Desk.step
    dsimp only
    split
    · exact ⟨desk, rfl, kept⟩
    · exact ⟨_, rfl, kept⟩
  | executeStep index step =>
    unfold Desk.step
    dsimp only
    split
    · exact ⟨desk, rfl, kept⟩
    · rename_i batch _
      obtain ⟨next, reply, executed, after⟩ := Desk.executeStep_kept kept index batch step
      exact ⟨next, by rw [executed]; rfl, after⟩
  | provider id op =>
    unfold Desk.step Desk.callProvider
    dsimp only
    split
    · exact ⟨desk, rfl, kept⟩
    · rename_i budget lent
      obtain ⟨_, _, lent⟩ := bind_eq_ok_iff.mp lent
      obtain ⟨_, _, lent⟩ := bind_eq_ok_iff.mp lent
      obtain rfl := pure_eq_ok_iff.mp lent
      obtain ⟨ledger, books, same⟩ := kept
      obtain ⟨last, reply, performed, after⟩ := books.perform_kept op
      rw [same] at performed
      refine ⟨{ desk with session := { desk.session with budget := last.budget } }, ?_, last, after,
        rfl⟩
      rw [performed]
      rfl
  | reportFocusChange target through => exact ⟨_, rfl, kept⟩
  | revokeGrant target => exact ⟨_, rfl, kept⟩
  | interrupt => exact ⟨_, rfl, kept⟩
  | markUncertain => exact ⟨_, rfl, kept⟩

theorem Desk.executeStep_batches {index : Nat} {batch : Batch} {step : Step} {reply : StepReply}
    (executed : desk.executeStep index batch step = some (next, reply)) :
    ∃ result, desk.session.executeStep batch step = some (result, reply) ∧
      next.batches = desk.batches.set index result.2 ∧ next.session = result.1 := by
  unfold Desk.executeStep at executed
  obtain ⟨⟨⟨session, after⟩, answer⟩, stepped, same⟩ := Option.bind_eq_some_iff.mp executed
  obtain ⟨rfl, rfl⟩ := Prod.mk.inj (Option.some.inj same)
  exact ⟨_, stepped, rfl, rfl⟩

/-- A stopped batch stays stopped. -/
theorem Desk.step_stopped {index : Nat} {op : DeskOp} (stopped : desk.Stopped index)
    (stepped : desk.step op = some next) : next.Stopped index := by
  obtain ⟨batch, present, halted⟩ := stopped
  cases op with
  | newBatch calls =>
    unfold Desk.step at stepped
    dsimp only at stepped
    split at stepped
    · obtain rfl := Option.some.inj stepped
      exact ⟨batch, present, halted⟩
    · obtain rfl := Option.some.inj stepped
      refine ⟨batch, ?_, halted⟩
      exact (List.getElem?_append_left (List.getElem?_eq_some_iff.mp present).1).trans present
  | executeStep other step =>
    unfold Desk.step at stepped
    dsimp only at stepped
    split at stepped
    · obtain rfl := Option.some.inj stepped
      exact ⟨batch, present, halted⟩
    · rename_i chosen found
      obtain ⟨⟨after, reply⟩, executed, rfl⟩ := Option.map_eq_some_iff.mp stepped
      obtain ⟨result, ran, batches, _⟩ := Desk.executeStep_batches executed
      by_cases same : other = index
      · subst same
        obtain rfl := Option.some.inj (found.symm.trans present)
        rw [executeStep_stopped halted] at ran
        obtain ⟨rfl, _⟩ := Prod.mk.inj (Option.some.inj ran)
        refine ⟨chosen, ?_, halted⟩
        rw [batches, List.getElem?_set_self (List.getElem?_eq_some_iff.mp found).1]
      · refine ⟨batch, ?_, halted⟩
        rw [batches, List.getElem?_set_ne same, present]
  | provider id op =>
    unfold Desk.step Desk.callProvider at stepped
    dsimp only at stepped
    split at stepped
    · obtain rfl := Option.some.inj stepped
      exact ⟨batch, present, halted⟩
    · obtain ⟨_, _, same⟩ := Option.bind_eq_some_iff.mp stepped
      obtain rfl := Option.some.inj same
      exact ⟨batch, present, halted⟩
  | reportFocusChange target through =>
    obtain rfl := Option.some.inj stepped
    exact ⟨batch, present, halted⟩
  | revokeGrant target =>
    obtain rfl := Option.some.inj stepped
    exact ⟨batch, present, halted⟩
  | interrupt =>
    obtain rfl := Option.some.inj stepped
    exact ⟨batch, present, halted⟩
  | markUncertain =>
    obtain rfl := Option.some.inj stepped
    exact ⟨batch, present, halted⟩

end Desks

section Runs

variable {id : Uuid} {profile : DesktopProfile} {limits : Limits} {startMs : Nat}
  {session : DesktopSession}

def deskAt (session : DesktopSession) (ops : List DeskOp) : Nat → Option Desk :=
  stateAt (fun state op => state.bind (Desk.step · op)) (some ⟨session, [], []⟩) ops

theorem new_ok (new : DesktopSession.new id profile limits startMs = .ok session) :
    Budget.new limits startMs = .ok session.budget := by
  unfold DesktopSession.new at new
  obtain ⟨_, _, new⟩ := bind_eq_ok_iff.mp new
  obtain ⟨_, _, new⟩ := bind_eq_ok_iff.mp new
  obtain ⟨budget, made, new⟩ := bind_eq_ok_iff.mp new
  obtain rfl := pure_eq_ok_iff.mp new
  cases opened : Budget.new limits startMs with
  | error reason =>
    rw [opened] at made
    cases made
  | ok first =>
    rw [opened] at made
    obtain rfl := Except.ok.inj made
    rfl

/-- Every desk of a run is there, and its ledger is in order. -/
theorem kept_deskAt (sound : Ledger.Sound ⟨session.budget, [], 0⟩) (ops : List DeskOp)
    (count : Nat) : ∃ desk, deskAt session ops count = some desk ∧ desk.Kept session.budget := by
  apply stateAt_invariant (fun state op => state.bind (Desk.step · op)) _ ops
    (fun state => ∃ desk, state = some desk ∧ desk.Kept session.budget)
  · exact ⟨_, rfl, ⟨session.budget, [], 0⟩, ⟨⟨[], rfl⟩, sound, List.Sublist.refl _⟩, rfl⟩
  · rintro _ op _ ⟨desk, rfl, kept⟩
    obtain ⟨next, stepped, after⟩ := Desk.step_kept kept op
    exact ⟨next, stepped, after⟩

theorem stopped_deskAt {ops : List DeskOp} {index earlier later : Nat}
    (ordered : earlier ≤ later) {desk : Desk} (reached : deskAt session ops earlier = some desk)
    (stopped : desk.Stopped index) {last : Desk} (present : deskAt session ops later = some last) :
    last.Stopped index := by
  have stays (moment : Nat) :
      (∀ desk, deskAt session ops moment = some desk → desk.Stopped index) →
        ∀ desk, deskAt session ops (moment + 1) = some desk → desk.Stopped index := by
    intro before desk now
    rcases stateAt_next (fun state op => state.bind (Desk.step · op))
      (some ⟨session, [], []⟩) ops moment with ⟨op, _, next⟩ | ⟨_, rest⟩
    · unfold deskAt at now
      rw [next] at now
      obtain ⟨previous, was, stepped⟩ := Option.bind_eq_some_iff.mp now
      exact Desk.step_stopped (before previous was) stepped
    · exact before desk (rest.symm.trans now)
  refine holds_from (fun moment => ∀ desk, deskAt session ops moment = some desk →
    desk.Stopped index) stays ordered ?_ last present
  intro other same
  obtain rfl := Option.some.inj (reached.symm.trans same)
  exact stopped

/-- What holds of a desktop session over a whole run: of any calls on its ledger, of the actions it
carries out, and of its batches. -/
structure DesktopBudget (session : DesktopSession) (ops : List DeskOp) : Prop where
  ledger : ∀ calls, LedgerKept session.budget calls
  total : ∀ count, ∃ desk, deskAt session ops count = some desk
  books : ∀ count desk, deskAt session ops count = some desk →
    ∃ calls ledger, ledgerAt session.budget calls calls.length = some ledger ∧
      ledger.budget = desk.session.budget ∧ desk.acted.Sublist ledger.admitted
  rate : ∀ count desk, deskAt session ops count = some desk → ∀ start,
    countWithin 1000 start desk.acted ≤ session.budget.limits.actionsPerSecond.val
  batches : ∀ earlier later, earlier < later → ∀ index first second,
    ops[earlier]? = some (.executeStep index first) →
    ops[later]? = some (.executeStep index second) →
    ∀ desk last batch next reply, deskAt session ops earlier = some desk →
      deskAt session ops later = some last → desk.batches[index]? = some batch →
      desk.executeStep index batch first = some (next, reply) → ¬ Continues reply →
      ∃ stopped, last.batches[index]? = some stopped ∧
        last.session.executeStep stopped second =
          some ((last.session, stopped), .error .batchStopped)

/-- A session stays within its limits, over all its calls, requests and provider turns. -/
theorem desktop_budget (new : DesktopSession.new id profile limits startMs = .ok session)
    (ops : List DeskOp) : session.budget.limits = limits ∧ DesktopBudget session ops := by
  obtain ⟨sound, same, unfailed⟩ := sound_new (new_ok new)
  refine ⟨same, ?_⟩
  constructor
  · exact ledgerKept sound unfailed
  · intro count
    obtain ⟨desk, reached, _⟩ := kept_deskAt sound ops count
    exact ⟨desk, reached⟩
  · intro count desk reached
    obtain ⟨other, same, ledger, books, budget⟩ := kept_deskAt sound ops count
    obtain rfl := Option.some.inj (same.symm.trans reached)
    obtain ⟨calls, made⟩ := books.follows
    exact ⟨calls, ledger, made, budget, books.among⟩
  · intro count desk reached start
    obtain ⟨other, same, ledger, books, budget⟩ := kept_deskAt sound ops count
    obtain rfl := Option.some.inj (same.symm.trans reached)
    obtain ⟨calls, made⟩ := books.follows
    have spread := (ledgerKept sound unfailed calls).rate _ ledger made start
    exact (books.among.countP_le).trans spread
  · intro earlier later before index first second asked again desk last batch next reply reached
      present chosen executed stops
    obtain ⟨result, ran, batches, _⟩ := Desk.executeStep_batches executed
    have halted := executeStep_stops ran stops
    have after : deskAt session ops (earlier + 1) = some next := by
      have step := stateAt_succ (fun state op => state.bind (Desk.step · op))
        (some ⟨session, [], []⟩) asked
      refine step.trans ?_
      change (deskAt session ops earlier).bind (Desk.step · _) = _
      rw [reached, Option.bind_some]
      simp only [Desk.step, chosen, executed, Option.map_some]
    have stopped : next.Stopped index :=
      ⟨result.2, by rw [batches, List.getElem?_set_self (List.getElem?_eq_some_iff.mp chosen).1],
        halted⟩
    obtain ⟨stopped, there, halted⟩ := stopped_deskAt before after stopped present
    exact ⟨stopped, there, executeStep_stopped halted⟩

theorem desktop_budget_default :
    ∃ session, Limits.default = session.budget.limits ∧ DesktopBudget session
      [.newBatch [1], .provider 1 (.beginProvider 0 100 50), .provider 1 (.finishProvider (some 60))] :=
  have opened := desktop_budget
    (rfl : DesktopSession.new 1 .current .default 0 = .ok _)
    [.newBatch [1], .provider 1 (.beginProvider 0 100 50), .provider 1 (.finishProvider (some 60))]
  ⟨_, opened.1.symm, opened.2⟩

end Runs

end OHHive.Desktop
