import Mathlib.Data.List.ModifyLast
import Mathlib.Data.List.Nodup
import OHHive.Desktop.Gate
import OHHive.Foundation.Run

/-! Desktop effects. Over executions, crashes, restarts, reviews and revocations of one session, a
call id and a sequence number have one effect at most, none happens while the session is uncertain
or interrupted, and none on a revoked target. The gate remembers one used observation, so an older
one can be acted on again. -/

namespace OHHive.Desktop

open Foundation

section Entries

/-- What a receipt says of its action, whatever became of it. -/
structure Entry where
  callId : Uuid
  sequence : Nat
  observation : Nat
  target : Target
  action : ReceiptAction
deriving DecidableEq, Repr

def Receipt.entry (receipt : Receipt) : Entry :=
  ⟨receipt.callId, receipt.sequence, receipt.observation, receipt.target, receipt.action⟩

def Request.entry (r : Request) : Entry :=
  ⟨r.callId, r.sequence, r.observation, r.target, r.action.receiptAction⟩

/-- Receipts are numbered from zero on, and each has its own call id. -/
structure InSequence (entries : List Entry) : Prop where
  numbered : entries.map Entry.sequence = List.range entries.length
  distinct : (entries.map Entry.callId).Nodup

theorem InSequence.append {entries : List Entry} {entry : Entry} (inSequence : InSequence entries)
    (numbered : entry.sequence = entries.length)
    (unused : entry.callId ∉ entries.map Entry.callId) : InSequence (entries ++ [entry]) where
  numbered := by
    rw [List.map_append, inSequence.numbered, List.length_append, List.length_singleton,
      List.range_succ, List.map_singleton, numbered]
  distinct := by
    rw [List.map_append, List.map_singleton, List.nodup_append]
    refine ⟨inSequence.distinct, List.nodup_singleton _, ?_⟩
    intro callId earlier other last same
    rw [List.mem_singleton] at last
    exact unused (last ▸ same ▸ earlier)

/-- Some of the receipts have distinct call ids and distinct numbers. -/
theorem InSequence.of_sublist {entries part : List Entry} (inSequence : InSequence entries)
    (among : part.Sublist entries) :
    (part.map Entry.callId).Nodup ∧ (part.map Entry.sequence).Nodup := by
  have numbers : (entries.map Entry.sequence).Nodup := inSequence.numbered ▸ List.nodup_range
  exact ⟨(among.map _).nodup inSequence.distinct, (among.map _).nodup numbers⟩

namespace FakeDesktop

def entries (d : FakeDesktop) : List Entry := d.journal.map Receipt.entry

/-- The journalled input actions. -/
def inputs (d : FakeDesktop) : List Entry := d.entries.filter (·.action ≠ .observe)

theorem entries_setLastState (d : FakeDesktop) (state : ReceiptState) :
    (d.setLastState state).entries = d.entries := by
  unfold entries setLastState
  rcases List.eq_nil_or_concat d.journal with empty | ⟨earlier, last, shape⟩
  · rw [empty]
    rfl
  · rw [List.concat_eq_append] at shape
    rw [shape, List.modifyLast_concat, List.map_append, List.map_append]
    rfl

/-- The journal is in sequence, and the session knows what it has consumed. -/
structure Journalled (d : FakeDesktop) : Prop where
  inSequence : InSequence d.entries
  next : d.nextSequence = d.entries.length
  consumed : d.consumed = d.entries.map Entry.callId

theorem journalled_of_same {d next : FakeDesktop} (journalled : d.Journalled)
    (entries : next.entries = d.entries) (sequence : next.nextSequence = d.nextSequence)
    (consumed : next.consumed = d.consumed) : next.Journalled where
  inSequence := entries ▸ journalled.inSequence
  next := by rw [entries, sequence, journalled.next]
  consumed := by rw [entries, consumed, journalled.consumed]

/-- A receipt under the next number and a new call id. -/
theorem journalled_of_append {d next : FakeDesktop} {entry : Entry} (journalled : d.Journalled)
    (entries : next.entries = d.entries ++ [entry]) (inSequence : entry.sequence = d.nextSequence)
    (unused : entry.callId ∉ d.consumed) (sequence : next.nextSequence = d.nextSequence + 1)
    (consumed : next.consumed = d.consumed ++ [entry.callId]) : next.Journalled where
  inSequence := by
    rw [entries]
    exact journalled.inSequence.append (inSequence.trans journalled.next)
      (journalled.consumed ▸ unused)
  next := by rw [entries, sequence, journalled.next, List.length_append, List.length_singleton]
  consumed := by
    rw [entries, consumed, journalled.consumed, List.map_append, List.map_singleton]

end FakeDesktop

end Entries

section Gate

namespace FakeDesktop

variable {d next : FakeDesktop} {a : Authority} {p : Policy} {o : Observation} {r : Request}
  {risk : Risk} {approval : Option Approval} {now : Nat}

/-- What an admitted request has passed. -/
structure Admitted (d : FakeDesktop) (r : Request) : Prop where
  uninterrupted : d.interrupted = false
  certain : d.uncertain = false
  inSequence : r.sequence = d.nextSequence
  unused : r.callId ∉ d.consumed
  fresh : r.action ≠ .observe → d.invalidatedObservation ≠ some r.observation
  granted : r.target ∉ d.revokedTargets

theorem not_mem_revoked_of_checkBrokerState {target : Target} {observation : Nat}
    (passed : d.checkBrokerState target observation = .ok ()) : target ∉ d.revokedTargets := by
  unfold checkBrokerState at passed
  obtain ⟨_, granted, _⟩ := bind_eq_ok_iff.mp passed
  exact require_eq_ok_iff.mp granted

theorem admitted_of_admission (passed : d.admission a p o r risk approval now = .ok ()) :
    d.Admitted r := by
  unfold admission at passed
  obtain ⟨_, _, passed⟩ := bind_eq_ok_iff.mp passed
  obtain ⟨_, _, passed⟩ := bind_eq_ok_iff.mp passed
  obtain ⟨_, uninterrupted, passed⟩ := bind_eq_ok_iff.mp passed
  obtain ⟨_, certain, passed⟩ := bind_eq_ok_iff.mp passed
  obtain ⟨_, numbered, passed⟩ := bind_eq_ok_iff.mp passed
  obtain ⟨_, fresh, passed⟩ := bind_eq_ok_iff.mp passed
  obtain ⟨_, granted, _⟩ := bind_eq_ok_iff.mp passed
  rw [require_eq_ok_iff] at uninterrupted certain numbered fresh
  have checked : d.checkBrokerState r.target r.observation = .ok () := by
    cases result : d.checkBrokerState r.target r.observation with
    | ok => rfl
    | error reason =>
      rw [result] at granted
      cases granted
  exact ⟨uninterrupted, certain, numbered.1, numbered.2, fun input same => fresh ⟨input, same⟩,
    not_mem_revoked_of_checkBrokerState checked⟩

/-- A request that is refused is not reported as applied. -/
theorem refusal_of_admission {outcome : Outcome}
    (refused : d.admission a p o r risk approval now = .error outcome) : outcome ≠ .applied := by
  have guard {condition : Prop} [Decidable condition] {reason : Denial}
      (failed : require condition (Outcome.rejected reason) = .error outcome) :
      outcome ≠ .applied := by
    rw [← (require_eq_error_iff.mp failed).2]
    exact Outcome.noConfusion
  unfold admission at refused
  rcases bind_eq_error_iff.mp refused with failed | ⟨_, _, refused⟩
  · exact guard failed
  rcases bind_eq_error_iff.mp refused with failed | ⟨_, _, refused⟩
  · exact guard failed
  rcases bind_eq_error_iff.mp refused with failed | ⟨_, _, refused⟩
  · exact guard failed
  rcases bind_eq_error_iff.mp refused with failed | ⟨_, _, refused⟩
  · exact guard failed
  rcases bind_eq_error_iff.mp refused with failed | ⟨_, _, refused⟩
  · exact guard failed
  rcases bind_eq_error_iff.mp refused with failed | ⟨_, _, refused⟩
  · exact guard failed
  rcases bind_eq_error_iff.mp refused with failed | ⟨_, _, refused⟩
  · cases result : d.checkBrokerState r.target r.observation with
    | ok => rw [result] at failed; cases failed
    | error reason =>
      rw [result] at failed
      cases failed
      exact Outcome.noConfusion
  · split at refused <;> cases refused <;> exact Outcome.noConfusion

theorem entries_dispatch : (d.dispatch a p r now).entries = d.entries ++ [r.entry] := by
  unfold entries dispatch
  rw [List.map_append, List.map_singleton]
  rfl

theorem entries_applyInput : (d.applyInput r).entries = d.entries :=
  entries_setLastState _ _

/-- How a session goes on: with more receipts, in order, and every revocation it had. -/
structure Follows (d next : FakeDesktop) (added : List Entry) : Prop where
  entries : next.entries = d.entries ++ added
  journalled : d.Journalled → next.Journalled
  revoked : ∀ target ∈ d.revokedTargets, target ∈ next.revokedTargets

theorem follows_of_same (entries : next.entries = d.entries)
    (sequence : next.nextSequence = d.nextSequence) (consumed : next.consumed = d.consumed)
    (revoked : ∀ target ∈ d.revokedTargets, target ∈ next.revokedTargets) : d.Follows next [] where
  entries := by rw [entries, List.append_nil]
  journalled journalled := journalled_of_same journalled entries sequence consumed
  revoked := revoked

theorem follows_dispatch (admitted : d.Admitted r) :
    d.Follows (d.dispatch a p r now) [r.entry] where
  entries := entries_dispatch
  journalled journalled :=
    journalled_of_append journalled entries_dispatch admitted.inSequence admitted.unused rfl rfl
  revoked _ := id

/-- A request is refused and changes nothing, or is admitted and journalled. -/
theorem execute_cases (d : FakeDesktop) (a : Authority) (p : Policy) (o : Observation) (r : Request)
    (risk : Risk) (approval : Option Approval) (now : Nat) :
    (d.execute a p o r risk approval now).1 = d ∧
        (d.execute a p o r risk approval now).2 ≠ .applied ∨
      d.Admitted r ∧ d.Follows (d.execute a p o r risk approval now).1 [r.entry] ∧
        ((d.execute a p o r risk approval now).2 = .applied → r.action ≠ .observe) := by
  unfold execute
  split
  · rename_i outcome refused
    exact Or.inl ⟨rfl, refusal_of_admission refused⟩
  · rename_i passed
    have admitted := admitted_of_admission passed
    refine Or.inr ⟨admitted, ?_⟩
    split
    · exact ⟨follows_dispatch admitted, fun applied => nomatch applied⟩
    · rename_i input
      have dispatched : d.Follows (d.dispatch a p r now) [r.entry] := follows_dispatch admitted
      refine ⟨⟨?_, ?_, dispatched.revoked⟩, fun _ => input⟩
      · exact entries_applyInput.trans dispatched.entries
      · intro journalled
        exact journalled_of_same (dispatched.journalled journalled) entries_applyInput rfl rfl

theorem follows_markUncertain : d.Follows d.markUncertain [] :=
  follows_of_same (entries_setLastState _ _) rfl rfl fun _ => id

theorem follows_revokeGrant {target : Target} : d.Follows (d.revokeGrant target) [] := by
  unfold revokeGrant
  split
  · exact follows_of_same rfl rfl rfl fun _ => id
  · exact follows_of_same rfl rfl rfl fun _ member => List.mem_append_left _ member

theorem follows_resume {finding : Option ReviewFinding} {callId : Uuid}
    (done : d.resumeAfterLocalReview a p o finding callId now = .ok next) : d.Follows next [] := by
  unfold resumeAfterLocalReview at done
  obtain ⟨_, _, done⟩ := bind_eq_ok_iff.mp done
  obtain ⟨_, _, done⟩ := bind_eq_ok_iff.mp done
  obtain ⟨_, _, done⟩ := bind_eq_ok_iff.mp done
  obtain ⟨_, _, done⟩ := bind_eq_ok_iff.mp done
  obtain ⟨resolved, found, done⟩ := bind_eq_ok_iff.mp done
  rw [pure_eq_ok_iff] at done
  subst done
  unfold resolve at found
  split at found
  · obtain ⟨last, _, found⟩ := bind_eq_ok_iff.mp found
    obtain ⟨_, _, found⟩ := bind_eq_ok_iff.mp found
    obtain ⟨_, _, found⟩ := bind_eq_ok_iff.mp found
    rw [pure_eq_ok_iff] at found
    subst found
    exact follows_of_same (entries_setLastState _ _) rfl rfl fun _ => id
  · cases found
    exact follows_of_same rfl rfl rfl fun _ => id

/-- One receipt read back takes the next number, under a new call id. -/
theorem of_recoverReceipt {receipt : Receipt} (done : d.recoverReceipt receipt = .ok next) :
    next.journal = d.journal ++ [receipt] ∧ next.revokedTargets = d.revokedTargets ∧
      (d.Journalled → next.Journalled) := by
  unfold recoverReceipt at done
  obtain ⟨_, consistent, done⟩ := bind_eq_ok_iff.mp done
  obtain ⟨_, _, done⟩ := bind_eq_ok_iff.mp done
  rw [require_eq_ok_iff, not_or, not_or, not_not] at consistent
  rw [pure_eq_ok_iff] at done
  subst done
  refine ⟨rfl, rfl, ?_⟩
  intro journalled
  have entries : (d.journal ++ [receipt]).map Receipt.entry = d.entries ++ [receipt.entry] := by
    rw [List.map_append, List.map_singleton]
    rfl
  exact journalled_of_append journalled entries consistent.1 consistent.2.1 rfl rfl

theorem of_recoverAll {receipts : List Receipt}
    (done : receipts.foldlM recoverReceipt d = .ok next) :
    next.journal = d.journal ++ receipts ∧ next.revokedTargets = d.revokedTargets ∧
      (d.Journalled → next.Journalled) := by
  induction receipts generalizing d with
  | nil =>
    rw [List.foldlM_nil, pure_eq_ok_iff] at done
    subst done
    exact ⟨(List.append_nil _).symm, rfl, id⟩
  | cons receipt receipts ih =>
    rw [List.foldlM_cons] at done
    obtain ⟨middle, head, done⟩ := bind_eq_ok_iff.mp done
    obtain ⟨journal, revoked, journalled⟩ := of_recoverReceipt head
    obtain ⟨laterJournal, laterRevoked, laterJournalled⟩ := ih done
    refine ⟨?_, laterRevoked.trans revoked, laterJournalled ∘ journalled⟩
    rw [laterJournal, journal, List.append_assoc, List.singleton_append]

/-- A restart reads the whole journal back, with its revocations. -/
theorem follows_recover (done : recover d.journalSnapshot = .ok next) : d.Follows next [] := by
  unfold recover at done
  obtain ⟨_, _, done⟩ := bind_eq_ok_iff.mp done
  obtain ⟨journal, revoked, journalled⟩ := of_recoverAll done
  have start : FakeDesktop.Journalled
      { FakeDesktop.default with interrupted := true, revokedTargets := d.revokedTargets } :=
    ⟨⟨rfl, List.nodup_nil⟩, rfl, rfl⟩
  refine ⟨?_, fun _ => journalled start, fun target => revoked ▸ id⟩
  rw [List.append_nil, entries, journal]
  rfl

end FakeDesktop

end Gate

section Runs

/-- The arguments of one `execute`. -/
structure Call where
  authority : Authority
  policy : Policy
  observation : Observation
  request : Request
  risk : Risk
  approval : Option Approval
  now : Nat

/-- A session, if its last restart was accepted, and the effects on the screen so far. -/
structure DesktopRun where
  desktop : Option FakeDesktop
  trace : List Entry
deriving DecidableEq

inductive DesktopOp where
  | execute (call : Call)
  /-- The process dies behind the journal entry of an action, before or after its effect. -/
  | crash (call : Call) (landed : Bool)
  | restart
  | reportFocusChange (target : Option Target) (observedThrough : Nat)
  | revokeGrant (target : Target)
  | interrupt
  | markUncertain
  | review (authority : Authority) (policy : Policy) (observation : Observation)
      (finding : Option ReviewFinding) (callId : Uuid) (now : Nat)

/-- The request that an operation brings before the gate. -/
def DesktopOp.request? : DesktopOp → Option Request
  | .execute call => some call.request
  | .crash call _ => some call.request
  | _ => none

/-- What an action does to the screen. -/
def effectsOf (r : Request) (happens : Bool) : List Entry :=
  if happens && r.action ≠ .observe then [r.entry] else []

def afterRestart (d : FakeDesktop) : Option FakeDesktop :=
  (FakeDesktop.recover d.journalSnapshot).toOption

def stepSession (d : FakeDesktop) (trace : List Entry) : DesktopOp → DesktopRun
  | .execute call =>
    let (next, outcome) := d.execute call.authority call.policy call.observation call.request
      call.risk call.approval call.now
    ⟨some next, trace ++ effectsOf call.request (outcome = .applied)⟩
  | .crash call landed =>
    match d.admission call.authority call.policy call.observation call.request call.risk call.approval
        call.now with
    | .ok () =>
      ⟨afterRestart (d.dispatch call.authority call.policy call.request call.now),
        trace ++ effectsOf call.request landed⟩
    | .error _ => ⟨afterRestart d, trace⟩
  | .restart => ⟨afterRestart d, trace⟩
  | .reportFocusChange target observedThrough =>
    ⟨some (d.reportFocusChange target observedThrough), trace⟩
  | .revokeGrant target => ⟨some (d.revokeGrant target), trace⟩
  | .interrupt => ⟨some d.interrupt, trace⟩
  | .markUncertain => ⟨some d.markUncertain, trace⟩
  | .review authority policy observation finding callId now =>
    match d.resumeAfterLocalReview authority policy observation finding callId now with
    | .ok next => ⟨some next, trace⟩
    | .error _ => ⟨some d, trace⟩

/-- A session whose restart was refused does nothing any more. -/
def desktopStep (run : DesktopRun) (op : DesktopOp) : DesktopRun :=
  match run.desktop with
  | some d => stepSession d run.trace op
  | none => run

abbrev desktopAt : List DesktopOp → Nat → DesktopRun :=
  stateAt desktopStep ⟨some .default, []⟩

variable {run : DesktopRun} {d : FakeDesktop}

/-- What one step of a session is: nothing new in the journal, or one admitted request that has one
effect at most; the session may be gone behind it. -/
inductive Advance (request? : Option Request) (d : FakeDesktop) (trace : List Entry) :
    DesktopRun → Prop where
  | quiet (next? : Option FakeDesktop) (follows : ∀ next, next? = some next → d.Follows next []) :
      Advance request? d trace ⟨next?, trace⟩
  | admitted (r : Request) (brought : request? = some r) (admitted : d.Admitted r)
      (next? : Option FakeDesktop) (follows : ∀ next, next? = some next → d.Follows next [r.entry])
      (happens : Bool) : Advance request? d trace ⟨next?, trace ++ effectsOf r happens⟩

theorem follows_afterRestart {next : FakeDesktop} (found : afterRestart d = some next) :
    d.Follows next [] := by
  unfold afterRestart at found
  cases result : FakeDesktop.recover d.journalSnapshot with
  | ok recovered =>
    rw [result] at found
    cases found
    exact FakeDesktop.follows_recover result
  | error reason =>
    rw [result] at found
    cases found

theorem FakeDesktop.Follows.trans {middle next : FakeDesktop} {first second : List Entry}
    (earlier : d.Follows middle first) (later : middle.Follows next second) :
    d.Follows next (first ++ second) where
  entries := by rw [later.entries, earlier.entries, List.append_assoc]
  journalled := later.journalled ∘ earlier.journalled
  revoked target := later.revoked target ∘ earlier.revoked target

/-- What an operation does to a session that is there. -/
theorem advance_stepSession (d : FakeDesktop) (trace : List Entry) (op : DesktopOp) :
    Advance op.request? d trace (stepSession d trace op) := by
  have stays {next : FakeDesktop} (follows : d.Follows next []) :
      Advance op.request? d trace ⟨some next, trace⟩ :=
    .quiet (some next) fun _ found => Option.some.inj found ▸ follows
  cases op with
  | execute call =>
    rcases FakeDesktop.execute_cases d call.authority call.policy call.observation call.request
      call.risk call.approval call.now with ⟨same, refused⟩ | ⟨admitted, follows, _⟩
    · have rests := stays (FakeDesktop.follows_of_same rfl rfl rfl fun _ => id)
      simp only [stepSession, same, effectsOf, refused, decide_false, Bool.false_and,
        Bool.false_eq_true, if_false, List.append_nil]
      exact rests
    · exact .admitted call.request rfl admitted (some _)
        (fun _ found => Option.some.inj found ▸ follows) _
  | crash call landed =>
    simp only [stepSession]
    split
    · rename_i passed
      have admitted := FakeDesktop.admitted_of_admission passed
      refine .admitted call.request rfl admitted _ ?_ landed
      intro next found
      exact (FakeDesktop.follows_dispatch admitted).trans (follows_afterRestart found)
    · exact .quiet _ fun _ => follows_afterRestart
  | restart => exact .quiet _ fun _ => follows_afterRestart
  | reportFocusChange target observedThrough =>
    exact stays (FakeDesktop.follows_of_same rfl rfl rfl fun _ => id)
  | revokeGrant target => exact stays FakeDesktop.follows_revokeGrant
  | interrupt => exact stays (FakeDesktop.follows_of_same rfl rfl rfl fun _ => id)
  | markUncertain => exact stays FakeDesktop.follows_markUncertain
  | review authority policy observation finding callId now =>
    simp only [stepSession]
    split
    · rename_i reviewed
      exact stays (FakeDesktop.follows_resume reviewed)
    · exact stays (FakeDesktop.follows_of_same rfl rfl rfl fun _ => id)

theorem advance_desktopStep {op : DesktopOp} (present : run.desktop = some d) :
    Advance op.request? d run.trace (desktopStep run op) := by
  rw [desktopStep, present]
  exact advance_stepSession d run.trace op

/-- The effects are journalled input actions, under distinct call ids and numbers. -/
structure RunInvariant (run : DesktopRun) : Prop where
  journalled : ∀ d, run.desktop = some d → d.Journalled ∧ run.trace.Sublist d.inputs
  callIds : (run.trace.map Entry.callId).Nodup
  sequences : (run.trace.map Entry.sequence).Nodup

theorem sublist_effectsOf (r : Request) (happens : Bool) :
    (effectsOf r happens).Sublist ([r.entry].filter (·.action ≠ .observe)) := by
  unfold effectsOf
  split
  · rename_i performed
    have input : r.entry.action ≠ .observe := by
      intro same
      cases action : r.action with
      | observe => simp [action] at performed
      | click => simp [Request.entry, Action.receiptAction, action] at same
      | type => simp [Request.entry, Action.receiptAction, action] at same
    rw [List.filter_cons_of_pos (by simpa using input), List.filter_nil]
  · exact List.nil_sublist _

theorem runInvariant_desktopStep (invariant : RunInvariant run) (op : DesktopOp) :
    RunInvariant (desktopStep run op) := by
  cases present : run.desktop with
  | none =>
    rw [desktopStep, present]
    exact invariant
  | some d =>
    obtain ⟨journalled, traced⟩ := invariant.journalled d present
    have advance : Advance op.request? d run.trace (desktopStep run op) := advance_desktopStep present
    generalize desktopStep run op = later at advance
    cases advance with
    | quiet next? follows =>
      refine ⟨?_, invariant.callIds, invariant.sequences⟩
      intro next found
      have follow := follows next found
      refine ⟨follow.journalled journalled, ?_⟩
      rw [FakeDesktop.inputs, follow.entries, List.append_nil]
      exact traced
    | admitted r brought admitted next? follows happens =>
      have extended : InSequence (d.entries ++ [r.entry]) :=
        journalled.inSequence.append (admitted.inSequence.trans journalled.next)
          (journalled.consumed ▸ admitted.unused)
      have among : (run.trace ++ effectsOf r happens).Sublist
          ((d.entries ++ [r.entry]).filter (·.action ≠ .observe)) := by
        rw [List.filter_append]
        exact traced.append (sublist_effectsOf r happens)
      obtain ⟨callIds, sequences⟩ := extended.of_sublist (among.trans List.filter_sublist)
      refine ⟨?_, callIds, sequences⟩
      intro next found
      have follow := follows next found
      refine ⟨follow.journalled journalled, ?_⟩
      rw [FakeDesktop.inputs, follow.entries]
      exact among

theorem runInvariant_at (ops : List DesktopOp) (count : Nat) : RunInvariant (desktopAt ops count) := by
  apply stateAt_invariant
  · refine ⟨?_, List.nodup_nil, List.nodup_nil⟩
    rintro _ ⟨⟩
    exact ⟨⟨⟨rfl, List.nodup_nil⟩, rfl, rfl⟩, List.nil_sublist _⟩
  · intro run op _ invariant
    exact runInvariant_desktopStep invariant op

/-- A new effect is that of a request admitted by a session that is neither uncertain nor
interrupted. -/
theorem guarded_of_effect {op : DesktopOp} (changed : (desktopStep run op).trace ≠ run.trace) :
    ∃ d, run.desktop = some d ∧ d.uncertain = false ∧ d.interrupted = false := by
  cases present : run.desktop with
  | none =>
    rw [desktopStep, present] at changed
    exact absurd rfl changed
  | some d =>
    have advance : Advance op.request? d run.trace (desktopStep run op) := advance_desktopStep present
    generalize desktopStep run op = later at advance changed
    cases advance with
    | quiet next? follows => exact absurd rfl changed
    | admitted r brought admitted next? follows happens =>
      exact ⟨d, rfl, admitted.certain, admitted.uninterrupted⟩

/-- The grant of a target is revoked, or the session is gone. -/
def DesktopRun.Revoked (run : DesktopRun) (target : Target) : Prop :=
  ∀ d, run.desktop = some d → target ∈ d.revokedTargets

/-- The effects on one target. -/
def DesktopRun.effectsOn (run : DesktopRun) (target : Target) : List Entry :=
  run.trace.filter (·.target = target)

theorem revoked_desktopStep {target : Target} (revoked : run.Revoked target) (op : DesktopOp) :
    (desktopStep run op).Revoked target ∧
      (desktopStep run op).effectsOn target = run.effectsOn target := by
  cases present : run.desktop with
  | none =>
    rw [desktopStep, present]
    exact ⟨revoked, rfl⟩
  | some d =>
    have held := revoked d present
    have advance : Advance op.request? d run.trace (desktopStep run op) := advance_desktopStep present
    generalize desktopStep run op = later at advance
    cases advance with
    | quiet next? follows =>
      exact ⟨fun next found => (follows next found).revoked target held, rfl⟩
    | admitted r brought admitted next? follows happens =>
      refine ⟨fun next found => (follows next found).revoked target held, ?_⟩
      have other : r.target ≠ target := fun same => admitted.granted (same ▸ held)
      have elsewhere : (effectsOf r happens).filter (·.target = target) = [] := by
        rw [List.filter_eq_nil_iff]
        intro entry member
        have same : entry = r.entry := by
          unfold effectsOf at member
          split at member
          · exact List.mem_singleton.mp member
          · cases member
        simpa [same, Request.entry] using other
      rw [DesktopRun.effectsOn, List.filter_append, elsewhere, List.append_nil]
      rfl

end Runs

section Observations

variable {run : DesktopRun} {d : FakeDesktop}

/-- An input action comes with a newer observation than the last one did, or with that very one
while the gate still knows that it is used up. -/
def InOrder (run : DesktopRun) (op : DesktopOp) : Prop :=
  ∀ r d last, op.request? = some r → r.action ≠ .observe → run.desktop = some d →
    d.inputs.getLast? = some last →
    last.observation < r.observation ∨
      last.observation = r.observation ∧ d.invalidatedObservation = some r.observation

/-- Every action is based on a newer observation than those before it. -/
def Rising (entries : List Entry) : Prop :=
  (entries.map Entry.observation).Pairwise (· < ·)

theorem Rising.lt_of_last {entries : List Entry} {bound : Nat} (rising : Rising entries)
    (above : ∀ last, entries.getLast? = some last → last.observation < bound) :
    ∀ entry ∈ entries, entry.observation < bound := by
  rcases List.eq_nil_or_concat entries with rfl | ⟨earlier, last, shape⟩
  · exact fun _ member => absurd member List.not_mem_nil
  · rw [List.concat_eq_append] at shape
    subst shape
    have below : last.observation < bound := above last List.getLast?_concat
    unfold Rising at rising
    rw [List.map_append, List.map_singleton, List.pairwise_append] at rising
    intro entry member
    rcases List.mem_append.mp member with before | same
    · have lower := rising.2.2 _ (List.mem_map_of_mem before) _ (List.mem_singleton_self _)
      exact Nat.lt_trans lower below
    · rw [List.mem_singleton.mp same]
      exact below

theorem Rising.append {entries : List Entry} {r : Request} (rising : Rising entries)
    (above : ∀ entry ∈ entries, entry.observation < r.observation) :
    Rising (entries ++ [r.entry]) := by
  unfold Rising
  rw [List.map_append, List.map_singleton, List.pairwise_append]
  refine ⟨rising, List.pairwise_singleton _ _, ?_⟩
  intro first member second last
  obtain ⟨entry, inEntries, rfl⟩ := List.mem_map.mp member
  rw [List.mem_singleton.mp last]
  exact above entry inEntries

theorem Rising.of_sublist {entries part : List Entry} (rising : Rising entries)
    (among : part.Sublist entries) : Rising part :=
  List.Pairwise.sublist (among.map _) rising

/-- The observations of the journalled input actions rise, and so do those of the effects. -/
structure RisingRun (run : DesktopRun) : Prop where
  inputs : ∀ d, run.desktop = some d → Rising d.inputs
  trace : Rising run.trace

theorem risingRun_desktopStep {op : DesktopOp} (invariant : RunInvariant run)
    (rising : RisingRun run) (inOrder : InOrder run op) : RisingRun (desktopStep run op) := by
  cases present : run.desktop with
  | none =>
    rw [desktopStep, present]
    exact rising
  | some d =>
    have before := rising.inputs d present
    have traced := (invariant.journalled d present).2
    have advance : Advance op.request? d run.trace (desktopStep run op) := advance_desktopStep present
    generalize desktopStep run op = later at advance
    cases advance with
    | quiet next? follows =>
      refine ⟨?_, rising.trace⟩
      intro next found
      rw [FakeDesktop.inputs, (follows next found).entries, List.append_nil]
      exact before
    | admitted r brought admitted next? follows happens =>
      have grown : Rising ((d.entries ++ [r.entry]).filter (·.action ≠ .observe)) := by
        rw [List.filter_append]
        by_cases input : r.action = .observe
        · have none : [r.entry].filter (·.action ≠ .observe) = [] := by
            simp [Request.entry, Action.receiptAction, input]
          rw [none, List.append_nil]
          exact before
        · have above : ∀ entry ∈ d.inputs, entry.observation < r.observation := by
            apply before.lt_of_last
            intro last isLast
            rcases inOrder r d last brought input present isLast with newer | ⟨_, used⟩
            · exact newer
            · exact absurd used (admitted.fresh input)
          exact (before.append above).of_sublist
            (List.Sublist.append (List.Sublist.refl _) List.filter_sublist)
      refine ⟨?_, ?_⟩
      · intro next found
        rw [FakeDesktop.inputs, (follows next found).entries]
        exact grown
      · apply grown.of_sublist
        rw [List.filter_append]
        exact traced.append (sublist_effectsOf r happens)

/-- What holds of the effects of a session over a whole run. -/
structure EffectsAtMostOnce (ops : List DesktopOp) : Prop where
  callIds : ∀ count, ((desktopAt ops count).trace.map Entry.callId).Nodup
  sequences : ∀ count, ((desktopAt ops count).trace.map Entry.sequence).Nodup
  guarded : ∀ count, (desktopAt ops (count + 1)).trace ≠ (desktopAt ops count).trace →
    ∃ d, (desktopAt ops count).desktop = some d ∧ d.uncertain = false ∧ d.interrupted = false
  revoked : ∀ first second target, first ≤ second → (desktopAt ops first).Revoked target →
    (desktopAt ops second).effectsOn target = (desktopAt ops first).effectsOn target
  /-- Observations authorize one effect each, newer and newer ones, where they come in order. -/
  observations : EachStep desktopStep ⟨some .default, []⟩ InOrder ops →
    ∀ count, Rising (desktopAt ops count).trace

theorem effects_at_most_once (ops : List DesktopOp) : EffectsAtMostOnce ops where
  callIds count := (runInvariant_at ops count).callIds
  sequences count := (runInvariant_at ops count).sequences
  guarded count changed := by
    rcases stateAt_next desktopStep ⟨some .default, []⟩ ops count with ⟨op, _, next⟩ | ⟨_, next⟩
    · rw [desktopAt, next] at changed
      exact guarded_of_effect changed
    · rw [desktopAt, next] at changed
      exact absurd rfl changed
  revoked first second target ordered revoked := by
    have related := stateAt_relates desktopStep ⟨some .default, []⟩
      (fun (before after : DesktopRun) => before.Revoked target →
        after.Revoked target ∧ after.effectsOn target = before.effectsOn target)
      (fun _ revoked => ⟨revoked, rfl⟩)
      (fun _ _ _ earlier later revoked => by
        obtain ⟨held, same⟩ := earlier revoked
        obtain ⟨kept, again⟩ := later held
        exact ⟨kept, again.trans same⟩)
      (fun _ op revoked => revoked_desktopStep revoked op) ops ordered
    exact (related revoked).2
  observations inOrder count := by
    have start : RunInvariant ⟨some .default, []⟩ ∧ RisingRun ⟨some .default, []⟩ := by
      refine ⟨runInvariant_at [] 0, ?_, List.Pairwise.nil⟩
      rintro _ ⟨⟩
      exact List.Pairwise.nil
    exact (inOrder.invariant (fun run => RunInvariant run ∧ RisingRun run) start
      (fun _ op guard held => ⟨runInvariant_desktopStep held.1 op,
        risingRun_desktopStep held.1 held.2 guard⟩) count).2.trace

/-- Two clicks on two observations, and a third on the first of them. -/
def staleClicks : List DesktopOp :=
  let target : Target := ⟨"fixture.editor", 42, 1, 3⟩
  let authority : Authority := ⟨7, 8, 8, 9, 9, true, 100, 90, false, 80, .control, target⟩
  let click (sequence observation : Nat) : DesktopOp :=
    .execute ⟨authority, .default, ⟨observation, target, 100, 100, ⟨10, 10, 90, 90⟩, 70⟩,
      ⟨7, ⟨100 + sequence⟩, sequence, observation, 1, target, .click 20 20⟩, .routine, none, 0⟩
  [.reportFocusChange (some target) 0, click 0 1, click 1 2, click 2 1]

theorem used_observation_acted_on :
    (desktopAt staleClicks 4).trace.map Entry.observation = [1, 2, 1] := by
  decide

end Observations

end OHHive.Desktop
