import Mathlib.Data.List.Count
import OHHive.Coder.SessionLoop

/-! What every step of a coding session keeps: its budgets, the lease, and the freshness of the
checks that it succeeds by. -/

namespace OHHive.Coder

open Foundation LocalHub

section Checks

variable {commandLine : AcceptanceCheck → Text} {lease : Int} {probes : Nat → Probe}
  {checks : List AcceptanceCheck} {results found : List AcceptanceResult}

/-- A result of a check; a passed one ended in time with the expected code. -/
structure ResultOf (check : AcceptanceCheck) (result : AcceptanceResult) : Prop where
  name : result.name = check.name.toList
  required : result.required = check.required
  passed : result.passed = true → result.timedOut = false ∧ result.error = none ∧
    result.exitStatus = some check.expectExit

/-- One result for each check, and every required one passed. -/
def AllPassed (checks : List AcceptanceCheck) (results : List AcceptanceResult) : Prop :=
  List.Forall₂ ResultOf checks results ∧
    ∀ result ∈ results, result.required = true → result.passed = true

theorem resultOf_checkResult (check : AcceptanceCheck) (ran : Except Text Captured) :
    ResultOf check (checkResult commandLine check ran) := by
  cases ran with
  | error reason => exact ⟨rfl, rfl, nofun⟩
  | ok captured =>
    refine ⟨rfl, rfl, ?_⟩
    intro passed
    change (!captured.timedOut && decide (captured.exitCode = some check.expectExit)) = true
      at passed
    rw [Bool.and_eq_true, Bool.not_eq_true', decide_eq_true_eq] at passed
    exact ⟨passed.1, rfl, passed.2⟩

theorem passed_runChecksFrom {index : Nat} {error : Option Text}
    (passed : runChecksFrom commandLine lease probes index checks results error = .passed found) :
    (∃ later, found = results ++ later ∧ List.Forall₂ ResultOf checks later) ∧
      ∀ result ∈ found, result.required = true → result.passed = true := by
  induction checks generalizing index results error with
  | nil =>
    cases error with
    | some reason => cases passed
    | none =>
      unfold runChecksFrom at passed
      split at passed
      · cases passed
      · rename_i none'
        obtain rfl := AcceptanceOutcome.passed.inj passed
        refine ⟨⟨[], (List.append_nil _).symm, .nil⟩, ?_⟩
        intro result member required
        by_contra missed
        exact none' (List.any_eq_true.mpr ⟨result, member, by simp [required, missed]⟩)
  | cons check rest ih =>
    unfold runChecksFrom at passed
    dsimp only at passed
    split at passed
    · cases passed
    · split at passed
      · cases passed
      · obtain ⟨⟨later, rfl, each⟩, all⟩ := ih passed
        refine ⟨⟨_ :: later, List.append_assoc _ _ _, ?_⟩, all⟩
        exact .cons (resultOf_checkResult check _) each

theorem passed_runChecks (passed : runChecks commandLine lease checks probes = .passed found) :
    AllPassed checks found := by
  unfold runChecks at passed
  split at passed
  · cases passed
  · obtain ⟨⟨later, same, each⟩, all⟩ := passed_runChecksFrom passed
    rw [List.nil_append] at same
    exact ⟨same ▸ each, all⟩

theorem unverified_runChecksFrom {index : Nat} {error : Option Text} :
    runChecksFrom commandLine lease probes index checks results error ≠ .unverified := by
  induction checks generalizing index results error with
  | nil =>
    cases error with
    | some reason => nofun
    | none =>
      unfold runChecksFrom
      split <;> nofun
  | cons check rest ih =>
    unfold runChecksFrom
    dsimp only
    split
    · nofun
    · split
      · nofun
      · exact ih

theorem unverified_runChecks
    (unverified : runChecks commandLine lease checks probes = .unverified) : checks = [] := by
  unfold runChecks at unverified
  split at unverified
  · rename_i none'
    exact List.isEmpty_iff.mp none'
  · exact absurd unverified unverified_runChecksFrom

end Checks

section Happenings

def Happening.isTurn : Happening → Bool
  | .turn => true
  | _ => false

def Happening.isVerified : Happening → Bool
  | .verified _ => true
  | _ => false

def Happening.isAccepted : Happening → Bool
  | .accepted _ => true
  | _ => false

/-- A run of the checks. -/
def Happening.isCheck (happening : Happening) : Bool := happening.isVerified || happening.isAccepted

/-- A run of the checks, asked for by the model, that did not end in plain results. -/
def Happening.isFatal : Happening → Bool
  | .verified checks => checks.isFatal
  | _ => false

/-- No run of the checks comes after a fatal one. -/
def FatalLast (log : List Happening) : Prop :=
  log.Pairwise fun earlier later => earlier.isFatal = true → later.isCheck = false

variable {log : List Happening} {happening : Happening}

theorem FatalLast.check (last : FatalLast log)
    (plain : ∀ earlier ∈ log, earlier.isFatal = false) : FatalLast (log ++ [happening]) := by
  refine List.pairwise_append.mpr ⟨last, List.pairwise_singleton _ _, ?_⟩
  intro earlier member later _ fatal
  rw [plain earlier member] at fatal
  cases fatal

end Happenings

section Invariant

/-- A run of the checks that may judge a final reply: skipped only once the lease's end was read,
and passed only as the last thing that the session did. -/
structure Judged (spec : CodeSessionSpec) (log : List Happening) (late : Bool)
    (checks : AcceptanceOutcome) : Prop where
  skipped : checks = .skipped → late = true
  unverified : checks = .unverified → spec.acceptance = []
  passed : ∀ results, checks = .passed results →
    AllPassed spec.acceptance results ∧ ∃ before, log = before ++ [.accepted (.passed results)]

def Ending.succeeds : Ending → Bool
  | .finished outcome =>
    !outcome.hitTurnLimit && !outcome.leaseExpired && !outcome.acceptance.blocksCompletion
  | _ => false

/-- The session passed its checks, and did nothing since. -/
def PassedLast (spec : CodeSessionSpec) (log : List Happening) : Prop :=
  ∃ results before, AllPassed spec.acceptance results ∧
    log = before ++ [.accepted (.passed results)]

/-- What holds of a session at each stage. -/
def SessionLoop.Fits (spec : CodeSessionSpec) (loop : SessionLoop) : Prop :=
  match loop.stage with
  | .preparing => loop.log = [] ∧ loop.turns = 0
  | .turning | .calling _ => True
  | .verifying _ =>
    loop.verification.terminal = none ∧ loop.verification.runs < spec.maxVerificationRuns
  | .accepting _ => loop.verification.terminal = none
  | .judging _ checks => Judged spec loop.log loop.late checks
  | .closing closing =>
    (closing.acceptance = .skipped ∧ (closing.hitTurnLimit = true ∨ closing.leaseExpired = true)) ∨
      Judged spec loop.log loop.late closing.acceptance
  | .ended ending => ending.succeeds = true → spec.acceptance ≠ [] → PassedLast spec loop.log

/-- Whether the checks may run no more. -/
def SessionLoop.Stopped (loop : SessionLoop) : Prop :=
  match loop.stage with
  | .turning | .calling _ => loop.verification.terminal.isSome = true
  | .judging _ checks => checks.isRepairable = false
  | .closing _ | .ended _ => True
  | .preparing | .verifying _ | .accepting _ => False

/-- How many runs on a final reply were not followed by a repair. -/
def SessionStage.settled : SessionStage → Nat
  | .judging _ _ | .closing _ | .ended _ => 1
  | _ => 0

/-- What a session keeps. A fatal run of the checks judges any final reply. -/
structure SessionLoop.Sound (spec : CodeSessionSpec) (lease : Int) (loop : SessionLoop) : Prop where
  turns : loop.log.countP Happening.isTurn = loop.turns
  turned : loop.turns ≤ spec.maxTurns
  verified : loop.log.countP Happening.isVerified = loop.verification.runs
  verifications : loop.verification.runs ≤ spec.maxVerificationRuns
  accepted : loop.log.countP Happening.isAccepted ≤ loop.repairs + loop.stage.settled
  repaired : loop.repairs ≤ spec.maxAcceptanceRepairs
  tools : ∀ call now, Happening.tool call now ∈ loop.log → now < lease
  terminal : ∀ checks, loop.verification.terminal = some checks →
    (∀ log, Judged spec log loop.late checks) ∧ checks.isRepairable = false
  fatal : FatalLast loop.log
  stopped : (∃ happening ∈ loop.log, happening.isFatal = true) → loop.Stopped
  fits : loop.Fits spec

variable {spec : CodeSessionSpec} {lease : Int} {loop later : SessionLoop} {done : List Happening}
  {checks : AcceptanceOutcome} {log : List Happening}

theorem Judged.mono {late : Bool} (judged : Judged spec log loop.late checks)
    (onward : loop.late = true → late = true) : Judged spec log late checks :=
  ⟨fun skips => onward (judged.skipped skips), judged.unverified, judged.passed⟩

theorem plain_of_isCheck {happening : Happening} (plain : happening.isCheck = false) :
    happening.isVerified = false ∧ happening.isAccepted = false ∧ happening.isFatal = false := by
  cases happening with
  | turn => exact ⟨rfl, rfl, rfl⟩
  | tool call now => exact ⟨rfl, rfl, rfl⟩
  | verified checks => cases plain
  | accepted checks => cases plain

theorem countP_plain {counts : Happening → Bool}
    (none : ∀ happening ∈ done, counts happening = false) : done.countP counts = 0 :=
  List.countP_eq_zero.mpr fun happening member => by simp [none happening member]

theorem FatalLast.appends (last : FatalLast log)
    (plain : ∀ happening ∈ done, happening.isCheck = false) : FatalLast (log ++ done) := by
  refine List.pairwise_append.mpr ⟨last, ?_, ?_⟩
  · exact List.pairwise_of_forall_mem_list fun _ _ later member _ => plain later member
  · exact fun _ _ later member _ => plain later member

/-- A step that runs no checks. -/
theorem SessionLoop.Sound.next (sound : loop.Sound spec lease)
    (grown : later.log = loop.log ++ done)
    (plain : ∀ happening ∈ done, happening.isCheck = false)
    (turns : later.turns = loop.turns + done.countP Happening.isTurn)
    (turned : later.turns ≤ spec.maxTurns)
    (tools : ∀ call now, Happening.tool call now ∈ done → now < lease)
    (runs : later.verification.runs = loop.verification.runs)
    (terminal : later.verification.terminal = loop.verification.terminal ∨
      later.verification.terminal = none)
    (repaired : later.repairs ≤ spec.maxAcceptanceRepairs)
    (settled : loop.repairs + loop.stage.settled ≤ later.repairs + later.stage.settled)
    (onward : loop.late = true → later.late = true)
    (stopped : loop.Stopped → later.Stopped) (fits : later.Fits spec) :
    later.Sound spec lease := by
  have apart := fun happening member => plain_of_isCheck (plain happening member)
  refine ⟨?_, turned, ?_, ?_, ?_, repaired, ?_, ?_, ?_, ?_, fits⟩
  · rw [grown, List.countP_append, sound.turns, turns]
  · rw [grown, List.countP_append, countP_plain fun happening member => (apart happening member).1,
      runs, sound.verified, Nat.add_zero]
  · rw [runs]
    exact sound.verifications
  · rw [grown, List.countP_append,
      countP_plain fun happening member => (apart happening member).2.1, Nat.add_zero]
    exact sound.accepted.trans settled
  · intro call now member
    rw [grown] at member
    rcases List.mem_append.mp member with before | new
    · exact sound.tools call now before
    · exact tools call now new
  · intro checks stands
    rcases terminal with same | gone
    · rw [same] at stands
      obtain ⟨judged, broken⟩ := sound.terminal checks stands
      exact ⟨fun log => (judged log).mono onward, broken⟩
    · rw [gone] at stands
      cases stands
  · rw [grown]
    exact sound.fatal.appends plain
  · rintro ⟨happening, member, fatal⟩
    rw [grown] at member
    rcases List.mem_append.mp member with before | new
    · exact stopped (sound.stopped ⟨happening, before, fatal⟩)
    · rw [(apart happening new).2.2] at fatal
      cases fatal

/-- A step that does nothing but move on. -/
theorem SessionLoop.Sound.moves (sound : loop.Sound spec lease) (same : later.log = loop.log)
    (turns : later.turns = loop.turns)
    (runs : later.verification.runs = loop.verification.runs)
    (terminal : later.verification.terminal = loop.verification.terminal ∨
      later.verification.terminal = none)
    (repaired : later.repairs ≤ spec.maxAcceptanceRepairs)
    (settled : loop.repairs + loop.stage.settled ≤ later.repairs + later.stage.settled)
    (onward : loop.late = true → later.late = true)
    (stopped : loop.Stopped → later.Stopped) (fits : later.Fits spec) :
    later.Sound spec lease := by
  have turned : later.turns ≤ spec.maxTurns := turns ▸ sound.turned
  have grown : later.log = loop.log ++ [] := same.trans (List.append_nil _).symm
  exact sound.next grown nofun turns turned nofun runs terminal repaired settled onward stopped fits

theorem settled_le_one (stage : SessionStage) : stage.settled ≤ 1 := by
  cases stage <;> simp [SessionStage.settled]

theorem SessionLoop.Sound.fails (sound : loop.Sound spec lease) (reason : Text) :
    (loop.fails reason).Sound spec lease :=
  sound.moves rfl rfl rfl (.inl rfl) sound.repaired
    (Nat.add_le_add_left (settled_le_one _) _) id (fun _ => trivial) nofun

theorem SessionLoop.Sound.reads (sound : loop.Sound spec lease) (now : Int) :
    (loop.reads lease now).Sound spec lease := by
  have onward : loop.late = true → (loop.reads lease now).late = true := by
    intro late
    change (loop.late || decide (lease ≤ now)) = true
    rw [late, Bool.true_or]
  refine sound.moves rfl rfl rfl (.inl rfl) sound.repaired le_rfl onward (fun stopped => stopped) ?_
  have fits := sound.fits
  obtain ⟨stage, base, turns, repairs, models, verification, lastAcceptance, spawned, log, late⟩ :=
    loop
  cases stage with
  | judging text checks =>
    have judged : Judged spec log late checks := fits
    exact judged.mono onward
  | closing closing =>
    rcases fits with skipped | judged
    · exact .inl skipped
    · exact .inr (judged.mono onward)
  | _ => exact fits

end Invariant

section Steps

variable {serde : Serde} {commandLine : AcceptanceCheck → Text} {spec : CodeSessionSpec}
  {context : Option CoordinatorContext} {lease : Int} {loop : SessionLoop}

theorem SessionLoop.Sound.prepare (sound : loop.Sound spec lease) (stage : loop.stage = .preparing)
    (workspace : Except Text (Option Text)) :
    (loop.prepare serde spec workspace).Sound spec lease := by
  have stopped : ¬ loop.Stopped := by
    rw [SessionLoop.Stopped, stage]
    exact id
  have enters (base : Option Text) : ({ loop with base, stage := .turning }).Sound spec lease := by
    refine sound.moves rfl rfl rfl (.inl rfl) sound.repaired ?_ id (fun halted => ?_) trivial
    · rw [stage]
      exact le_rfl
    · exact absurd halted stopped
  unfold SessionLoop.prepare
  cases workspace with
  | error reason => exact sound.fails reason
  | ok base =>
    dsimp only
    cases spec.checkerCorrection with
    | none => exact enters base
    | some correction =>
      dsimp only
      cases correction.validate serde with
      | error reason => exact sound.fails reason
      | ok passed =>
        dsimp only
        split
        · exact enters base
        · exact sound.fails _

/-- A checker's session ends with its one turn, or before it. -/
theorem review_cases (now later : Int) (reply : Option (Except Text BrainTurn))
    (verdict : Except Text Text) :
    (∃ ending, (loop.review lease now later reply verdict).stage = .ended ending) ∧
      (loop.review lease now later reply verdict).verification = loop.verification ∧
      (loop.review lease now later reply verdict).repairs = loop.repairs ∧
      ((loop.review lease now later reply verdict).log = loop.log ∧
          (loop.review lease now later reply verdict).turns = loop.turns ∨
        (loop.review lease now later reply verdict).log = loop.log ++ [.turn] ∧
          (loop.review lease now later reply verdict).turns = loop.turns + 1) ∧
      (loop.late = true → (loop.review lease now later reply verdict).late = true) := by
  have early : loop.late = true → (loop.reads lease now).late = true := by
    intro late
    change (loop.late || decide (lease ≤ now)) = true
    rw [late, Bool.true_or]
  have further : (loop.reads lease now).late = true →
      ((loop.reads lease now).late || decide (lease ≤ later)) = true := by
    intro late
    rw [late, Bool.true_or]
  unfold SessionLoop.review
  dsimp only
  split
  · exact ⟨⟨_, rfl⟩, rfl, rfl, .inl ⟨rfl, rfl⟩, early⟩
  · rcases reply with _ | reason | turn
    · exact ⟨⟨_, rfl⟩, rfl, rfl, .inr ⟨rfl, rfl⟩, early⟩
    · exact ⟨⟨_, rfl⟩, rfl, rfl, .inr ⟨rfl, rfl⟩, early⟩
    · dsimp only
      split
      · exact ⟨⟨_, rfl⟩, rfl, rfl, .inr ⟨rfl, rfl⟩, fun late => further (early late)⟩
      · cases turn with
        | toolCalls calls model =>
          exact ⟨⟨_, rfl⟩, rfl, rfl, .inr ⟨rfl, rfl⟩, fun late => further (early late)⟩
        | text text model =>
          dsimp only
          split
          · exact ⟨⟨_, rfl⟩, rfl, rfl, .inr ⟨rfl, rfl⟩, fun late => further (early late)⟩
          · cases verdict with
            | error reason =>
              exact ⟨⟨_, rfl⟩, rfl, rfl, .inr ⟨rfl, rfl⟩, fun late => further (early late)⟩
            | ok receipt =>
              exact ⟨⟨_, rfl⟩, rfl, rfl, .inr ⟨rfl, rfl⟩, fun late => further (early late)⟩

theorem SessionLoop.Sound.review (sound : loop.Sound spec lease) (stage : loop.stage = .preparing)
    (bare : spec.acceptance = []) (now later : Int) (reply : Option (Except Text BrainTurn))
    (verdict : Except Text Text) :
    (loop.review lease now later reply verdict).Sound spec lease := by
  obtain ⟨⟨ending, ended⟩, verification, repairs, did, onward⟩ :=
    @review_cases lease loop now later reply verdict
  generalize loop.review lease now later reply verdict = reviewed at *
  have runs : reviewed.verification.runs = loop.verification.runs := by rw [verification]
  have terminal : reviewed.verification.terminal = loop.verification.terminal := by
    rw [verification]
  have repaired : reviewed.repairs ≤ spec.maxAcceptanceRepairs := repairs ▸ sound.repaired
  have settled : loop.repairs + loop.stage.settled ≤ reviewed.repairs + reviewed.stage.settled := by
    rw [repairs, ended]
    exact Nat.add_le_add_left (settled_le_one _) _
  have stopped : loop.Stopped → reviewed.Stopped := by
    intro _
    rw [SessionLoop.Stopped, ended]
    trivial
  have fits : reviewed.Fits spec := by
    rw [SessionLoop.Fits, ended]
    exact fun _ checked => absurd bare checked
  rcases did with ⟨same, turns⟩ | ⟨grown, turns⟩
  · exact sound.moves same turns runs (.inl terminal) repaired settled onward stopped fits
  · have fresh : loop.turns = 0 := by
      have fits := sound.fits
      rw [SessionLoop.Fits, stage] at fits
      exact fits.2
    have turned : reviewed.turns ≤ spec.maxTurns := by
      rw [turns, fresh]
      exact Nat.one_le_iff_ne_zero.mpr spec.turns
    refine sound.next grown ?_ turns turned ?_ runs (.inl terminal) repaired settled onward stopped
      fits
    · intro happening member
      rw [List.mem_singleton.mp member]
      rfl
    · intro call now member
      cases List.mem_singleton.mp member

/-- A reply in plain text goes to its checks, or ends the session. -/
theorem SessionLoop.Sound.replied (sound : loop.Sound spec lease) (stage : loop.stage = .turning)
    (text : Text) (model : Option Text) :
    (loop.replied context text model).Sound spec lease := by
  have settled : loop.repairs + loop.stage.settled ≤ loop.repairs + 1 :=
    Nat.add_le_add_left (settled_le_one _) _
  have fails (models : List (Option Text)) (reason : Text) :
      (({ loop with models }).fails reason).Sound spec lease :=
    sound.moves rfl rfl rfl (.inl rfl) sound.repaired settled id (fun _ => trivial) nofun
  unfold SessionLoop.replied
  dsimp only
  split
  · exact fails _ _
  · split
    · exact fails _ _
    · cases context.bind CoordinatorContext.completionError with
      | some reason => exact fails _ _
      | none =>
        dsimp only
        cases terminal : loop.verification.terminal with
        | some checks =>
          obtain ⟨judged, broken⟩ := sound.terminal checks terminal
          exact sound.moves rfl rfl rfl (.inr rfl) sound.repaired settled id (fun _ => broken)
            (judged _)
        | none =>
          refine sound.moves rfl rfl rfl (.inl rfl) sound.repaired ?_ id ?_ terminal
          · rw [stage]
            exact le_rfl
          · intro stopped
            rw [SessionLoop.Stopped, stage, terminal] at stopped
            cases stopped

theorem settled_after (rest : List ToolCall) : (SessionStage.after rest).settled = 0 := by
  cases rest <;> rfl

theorem fits_after {rest : List ToolCall} (stage : loop.stage = .after rest) : loop.Fits spec := by
  cases rest with
  | nil =>
    rw [SessionLoop.Fits, stage]
    trivial
  | cons call rest =>
    rw [SessionLoop.Fits, stage]
    trivial

theorem stopped_after_iff {rest : List ToolCall} (stage : loop.stage = .after rest) :
    loop.Stopped ↔ loop.verification.terminal.isSome = true := by
  cases rest with
  | nil => rw [SessionLoop.Stopped, stage, SessionStage.after]
  | cons call rest =>
    have calling : loop.stage = .calling (call :: rest) := stage
    rw [SessionLoop.Stopped, calling]

theorem SessionLoop.Sound.turn (sound : loop.Sound spec lease) (stage : loop.stage = .turning)
    (now : Int) (reply : Except Text BrainTurn) :
    (loop.turn spec context lease now reply).Sound spec lease := by
  have settled : loop.repairs + loop.stage.settled ≤ loop.repairs + 1 :=
    Nat.add_le_add_left (settled_le_one _) _
  have noticed := sound.reads now
  unfold SessionLoop.turn
  dsimp only
  split
  · exact sound.moves rfl rfl rfl (.inl rfl) sound.repaired settled id (fun _ => trivial)
      (.inl ⟨rfl, .inl rfl⟩)
  · rename_i room
    split
    · exact noticed.moves rfl rfl rfl (.inl rfl) sound.repaired settled id (fun _ => trivial)
        (.inl ⟨rfl, .inr rfl⟩)
    · have turned : loop.turns + 1 ≤ spec.maxTurns := Nat.succ_le_of_lt (Nat.lt_of_not_le room)
      have asked : (({ loop.reads lease now with
          turns := (loop.reads lease now).turns + 1 }).does .turn).Sound spec lease := by
        refine noticed.next rfl ?_ rfl turned ?_ rfl (.inl rfl) sound.repaired le_rfl id
          (fun stopped => stopped) ?_
        · intro happening member
          rw [List.mem_singleton.mp member]
          rfl
        · intro call now member
          cases List.mem_singleton.mp member
        · exact @fits_after spec _ [] stage
      cases reply with
      | error reason => exact asked.fails reason
      | ok turn =>
        cases turn with
        | text text model => exact asked.replied stage text model
        | toolCalls calls model =>
          refine asked.moves rfl rfl rfl (.inl rfl) sound.repaired ?_ id ?_ (fits_after rfl)
          · change loop.repairs + loop.stage.settled ≤
              loop.repairs + (SessionStage.after calls).settled
            rw [stage, settled_after]
            exact le_rfl
          · intro stopped
            have halted := (@stopped_after_iff _ [] stage).mp stopped
            exact (stopped_after_iff rfl).mpr halted

theorem refusal_eq_none {state : VerificationState} {call : ToolCall}
    (allowed : state.refusal spec call = none) :
    state.terminal = none ∧ state.runs < spec.maxVerificationRuns := by
  unfold VerificationState.refusal at allowed
  split at allowed
  · cases allowed
  · split at allowed
    · cases allowed
    · split at allowed
      · cases allowed
      · rename_i terminal
        split at allowed
        · cases allowed
        · rename_i left
          exact ⟨Option.not_isSome_iff_eq_none.mp terminal, Nat.lt_of_not_le left⟩

theorem SessionLoop.Sound.call (sound : loop.Sound spec lease) {call : ToolCall}
    {rest : List ToolCall} (stage : loop.stage = .calling (call :: rest)) (now : Int)
    (waits : Option Uuid) (spawns : Bool) :
    (loop.call spec context lease call rest now waits spawns).Sound spec lease := by
  have settled : loop.repairs + loop.stage.settled ≤ loop.repairs + 1 :=
    Nat.add_le_add_left (settled_le_one _) _
  have noticed := sound.reads now
  unfold SessionLoop.call
  dsimp only
  split
  · exact noticed.moves rfl rfl rfl (.inl rfl) sound.repaired settled id (fun _ => trivial)
      (.inl ⟨rfl, .inr rfl⟩)
  · rename_i early
    have started : ((loop.reads lease now).does (.tool call now)).Sound spec lease := by
      refine noticed.next rfl ?_ rfl sound.turned ?_ rfl (.inl rfl) sound.repaired le_rfl id
        (fun stopped => stopped) (@fits_after spec _ (call :: rest) stage)
      · intro happening member
        rw [List.mem_singleton.mp member]
        rfl
      · intro other moment member
        obtain ⟨-, rfl⟩ := Happening.tool.inj (List.mem_singleton.mp member)
        exact lt_of_not_ge early
    have onward {later : SessionLoop} (log : later.log = loop.log ++ [.tool call now])
        (turns : later.turns = loop.turns) (verification : later.verification = loop.verification)
        (repairs : later.repairs = loop.repairs)
        (late : later.late = (loop.reads lease now).late) (next : later.stage = .after rest) :
        later.Sound spec lease := by
      refine started.moves log turns ?_ (.inl ?_) ?_ ?_ ?_ ?_ (fits_after next)
      · rw [verification]
        rfl
      · rw [verification]
        rfl
      · exact repairs ▸ sound.repaired
      · change loop.repairs + loop.stage.settled ≤ later.repairs + later.stage.settled
        rw [repairs, next, settled_after, stage]
        exact le_rfl
      · rw [late]
        exact id
      · intro stopped
        have halted := (@stopped_after_iff _ (call :: rest) stage).mp stopped
        rw [stopped_after_iff next, verification]
        exact halted
    split
    · cases waits with
      | some child =>
        exact started.moves rfl rfl rfl (.inl rfl) sound.repaired settled id (fun _ => trivial)
          nofun
      | none => exact onward rfl rfl rfl rfl rfl rfl
    · split
      · exact onward rfl rfl rfl rfl rfl rfl
      · split
        · split
          · exact onward rfl rfl rfl rfl rfl rfl
          · rename_i allowed
            obtain ⟨terminal, left⟩ := refusal_eq_none allowed
            have free : loop.verification.terminal = none := terminal
            refine started.moves rfl rfl rfl (.inl rfl) sound.repaired ?_ id ?_ ⟨terminal, left⟩
            · change loop.repairs + loop.stage.settled ≤ _
              rw [stage]
              exact le_rfl
            · intro stopped
              have halted := (@stopped_after_iff _ (call :: rest) stage).mp stopped
              rw [free] at halted
              cases halted
        · exact onward rfl rfl rfl rfl rfl rfl

/-- While the checks may run, none of them was fatal. -/
theorem SessionLoop.Sound.unbroken (sound : loop.Sound spec lease) (running : ¬ loop.Stopped) :
    ∀ happening ∈ loop.log, happening.isFatal = false := by
  intro happening member
  cases fatal : happening.isFatal with
  | false => rfl
  | true => exact absurd (sound.stopped ⟨happening, member, fatal⟩) running

theorem stopped_cases (checks : AcceptanceOutcome) : checks.stopped.isRepairable = false ∧
    (∀ results, checks.stopped ≠ .passed results) ∧
    (checks.stopped = .skipped → checks = .skipped) ∧
    (checks.stopped = .unverified → checks = .unverified) := by
  cases checks with
  | unverified => exact ⟨rfl, nofun, nofun, fun _ => rfl⟩
  | skipped => exact ⟨rfl, nofun, fun _ => rfl, nofun⟩
  | _ => exact ⟨rfl, nofun, nofun, nofun⟩

/-- What a run of the checks that the model asked for leaves, when none was fatal before. -/
theorem terminal_ran {state : VerificationState} {checks found : AcceptanceOutcome}
    (free : state.terminal = none) (stands : (state.ran checks).terminal = some found) :
    checks.isFatal = true ∧ found = checks.stopped := by
  unfold VerificationState.ran at stands
  dsimp only at stands
  cases fatal : checks.isFatal with
  | true =>
    rw [fatal, if_pos rfl, if_pos rfl] at stands
    exact ⟨rfl, (Option.some.inj stands).symm⟩
  | false =>
    rw [fatal] at stands
    exact absurd (free.symm.trans stands) nofun

theorem SessionLoop.Sound.verify (sound : loop.Sound spec lease) {rest : List ToolCall}
    (stage : loop.stage = .verifying rest) (probes : Nat → Probe) :
    (loop.verify commandLine spec lease rest probes).Sound spec lease := by
  obtain ⟨free, left⟩ : loop.verification.terminal = none ∧
      loop.verification.runs < spec.maxVerificationRuns := by
    have fits := sound.fits
    rw [SessionLoop.Fits, stage] at fits
    exact fits
  have unbroken := sound.unbroken (by rw [SessionLoop.Stopped, stage]; exact id)
  have after : (loop.verify commandLine spec lease rest probes).stage = .after rest := rfl
  have grown : (loop.verify commandLine spec lease rest probes).log =
      loop.log ++ [.verified (runChecks commandLine lease spec.acceptance probes)] := rfl
  have ran : (loop.verify commandLine spec lease rest probes).verification =
      loop.verification.ran (runChecks commandLine lease spec.acceptance probes) := rfl
  have late : (loop.verify commandLine spec lease rest probes).late = (loop.late ||
      decide (runChecks commandLine lease spec.acceptance probes = .skipped)) := rfl
  have unverified : runChecks commandLine lease spec.acceptance probes = .unverified →
      spec.acceptance = [] := unverified_runChecks
  have kept : (loop.verify commandLine spec lease rest probes).turns = loop.turns ∧
      (loop.verify commandLine spec lease rest probes).repairs = loop.repairs := ⟨rfl, rfl⟩
  generalize loop.verify commandLine spec lease rest probes = later at *
  generalize runChecks commandLine lease spec.acceptance probes = checks at *
  refine ⟨?_, kept.1 ▸ sound.turned, ?_, ?_, ?_, kept.2 ▸ sound.repaired, ?_, ?_, ?_, ?_,
    fits_after after⟩
  · rw [grown, List.countP_append, sound.turns, kept.1]
    rfl
  · rw [grown, List.countP_append, sound.verified, ran]
    rfl
  · rw [ran]
    exact left
  · rw [grown, List.countP_append, kept.2, after, settled_after]
    have before := sound.accepted
    rw [stage] at before
    exact before
  · intro call now member
    rw [grown] at member
    rcases List.mem_append.mp member with earlier | new
    · exact sound.tools call now earlier
    · cases List.mem_singleton.mp new
  · intro found stands
    rw [ran] at stands
    obtain ⟨_, rfl⟩ := terminal_ran free stands
    obtain ⟨broken, failed, skipped, unchecked⟩ := stopped_cases checks
    refine ⟨?_, broken⟩
    intro log
    refine ⟨?_, fun same => unverified (unchecked same), fun results same =>
      absurd same (failed results)⟩
    intro same
    rw [late, skipped same]
    exact Bool.or_true _
  · rw [grown]
    exact sound.fatal.check unbroken
  · rintro ⟨happening, member, fatal⟩
    rw [grown] at member
    rcases List.mem_append.mp member with earlier | new
    · rw [unbroken happening earlier] at fatal
      cases fatal
    · rw [List.mem_singleton.mp new] at fatal
      have broken : checks.isFatal = true := fatal
      rw [stopped_after_iff after, ran]
      unfold VerificationState.ran
      dsimp only
      rw [broken]
      rfl

theorem SessionLoop.Sound.accept (sound : loop.Sound spec lease) {text : Text}
    (stage : loop.stage = .accepting text) (probes : Nat → Probe) :
    (loop.accept commandLine spec lease text probes).Sound spec lease := by
  have free : loop.verification.terminal = none := by
    have fits := sound.fits
    rw [SessionLoop.Fits, stage] at fits
    exact fits
  have unbroken := sound.unbroken (by rw [SessionLoop.Stopped, stage]; exact id)
  unfold SessionLoop.accept
  dsimp only
  refine ⟨?_, sound.turned, ?_, sound.verifications, ?_, sound.repaired, ?_, ?_, ?_, ?_, ?_⟩
  · refine (List.countP_append ..).trans ?_
    rw [sound.turns]
    rfl
  · refine (List.countP_append ..).trans ?_
    rw [sound.verified]
    rfl
  · refine (List.countP_append ..).trans_le ?_
    have before := sound.accepted
    rw [stage] at before
    exact Nat.add_le_add_right before 1
  · intro call now member
    rcases List.mem_append.mp member with earlier | new
    · exact sound.tools call now earlier
    · cases List.mem_singleton.mp new
  · intro found stands
    exact absurd (free.symm.trans stands) nofun
  · exact sound.fatal.check unbroken
  · rintro ⟨happening, member, fatal⟩
    rcases List.mem_append.mp member with earlier | new
    · rw [unbroken happening earlier] at fatal
      cases fatal
    · rw [List.mem_singleton.mp new] at fatal
      cases fatal
  · refine ⟨?_, unverified_runChecks, ?_⟩
    · intro skipped
      rw [skipped]
      exact Bool.or_true _
    · intro results passed
      refine ⟨passed_runChecks passed, loop.log, ?_⟩
      change loop.log ++ _ = _
      rw [passed]

theorem SessionLoop.Sound.judge (sound : loop.Sound spec lease) {text : Text}
    {checks : AcceptanceOutcome} (stage : loop.stage = .judging text checks) (now : Int) :
    (loop.judge spec lease text checks now).Sound spec lease := by
  have noticed := sound.reads now
  have judged : Judged spec (loop.reads lease now).log (loop.reads lease now).late checks := by
    have fits := noticed.fits
    have same : (loop.reads lease now).stage = .judging text checks := stage
    rw [SessionLoop.Fits, same] at fits
    exact fits
  have settled : loop.stage.settled = 1 := by rw [stage]; rfl
  unfold SessionLoop.judge
  dsimp only
  split
  · rename_i repairs
    rw [Bool.and_eq_true, Bool.and_eq_true, Bool.and_eq_true, decide_eq_true_eq] at repairs
    obtain ⟨⟨⟨repairable, _⟩, left⟩, _⟩ := repairs
    have room : loop.repairs + 1 ≤ spec.maxAcceptanceRepairs := left
    refine noticed.moves rfl rfl rfl (.inl rfl) room ?_ id ?_ trivial
    · change loop.repairs + loop.stage.settled ≤ loop.repairs + 1
      rw [settled]
    · intro stopped
      have same : (loop.reads lease now).stage = .judging text checks := stage
      rw [SessionLoop.Stopped, same] at stopped
      dsimp only at stopped
      rw [stopped] at repairable
      cases repairable
  · refine noticed.moves rfl rfl rfl (.inl rfl) sound.repaired ?_ id (fun _ => trivial)
      (.inr judged)
    change loop.repairs + loop.stage.settled ≤ loop.repairs + 1
    rw [settled]

end Steps

end OHHive.Coder
