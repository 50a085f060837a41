import OHHive.Coder.SessionRuns

/-! The bounds of a coding session, in every run whose last reading of the clock is not set back
behind the lease's end. -/

namespace OHHive.Coder

open Foundation LocalHub

section Bounds

variable {serde : Serde} {commandLine : AcceptanceCheck → Text} {spec : CodeSessionSpec}
  {context : Option CoordinatorContext} {lease : Int} {loop : SessionLoop} {move : SessionMove}

/-- The last reading of the clock is not before the lease's end once an earlier one was not. -/
def SessionLoop.keepsTime (lease : Int) (loop : SessionLoop) : SessionMove → Prop
  | .close now _ _ => loop.late = true → lease ≤ now
  | _ => True

/-- What the host records of a session that succeeds is what judged its final reply. -/
theorem acceptance_of_succeeds {closing : Closing} {now : Int}
    {reading : Except Line (List ReviewFile)} {timedOut : Bool}
    (succeeds : Ending.succeeds (.finished (finishSession serde
      (loop.host spec lease closing now reading timedOut) closing.text)) = true) :
    closing.hitTurnLimit = false ∧ closing.leaseExpired = false ∧ now < lease ∧
      (closing.acceptance ≠ .skipped → closing.acceptance.blocksCompletion = false) := by
  simp only [Ending.succeeds, finishSession, Host.outcome, SessionLoop.host, Bool.and_eq_true,
    Bool.not_eq_true', Bool.or_eq_false_iff, decide_eq_false_iff_not, not_le] at succeeds
  obtain ⟨⟨unlimited, unexpired, early⟩, passes⟩ := succeeds
  refine ⟨unlimited, unexpired, early, ?_⟩
  intro judged
  have same : (loop.host spec lease closing now reading timedOut).recorded =
      closing.acceptance := by
    unfold Host.recorded
    split
    · rename_i skipped _
      exact absurd skipped judged
    · rfl
  rw [← same]
  exact passes

theorem SessionLoop.Sound.close (sound : loop.Sound spec lease) {closing : Closing}
    (stage : loop.stage = .closing closing) {now : Int}
    (timely : loop.late = true → lease ≤ now) (reading : Except Line (List ReviewFile))
    (timedOut : Bool) :
    ({ loop.reads lease now with
      stage := .ended (.finished (finishSession serde
        (loop.host spec lease closing now reading timedOut) closing.text)) }).Sound spec lease := by
  have noticed := sound.reads now
  have settled : loop.repairs + loop.stage.settled ≤ loop.repairs + 1 :=
    Nat.add_le_add_left (settled_le_one _) _
  refine noticed.moves rfl rfl rfl (.inl rfl) sound.repaired settled id (fun _ => trivial) ?_
  intro succeeds checked
  obtain ⟨unlimited, unexpired, early, passes⟩ := acceptance_of_succeeds succeeds
  have fits := sound.fits
  rw [SessionLoop.Fits, stage] at fits
  rcases fits with ⟨_, limited | expired⟩ | judged
  · rw [unlimited] at limited
    cases limited
  · rw [unexpired] at expired
    cases expired
  · have standing : closing.acceptance ≠ .skipped := by
      intro skipped
      exact absurd (timely (judged.skipped skipped)) (not_le_of_gt early)
    have through := passes standing
    cases acceptance : closing.acceptance with
    | skipped => exact absurd acceptance standing
    | unverified => exact absurd (judged.unverified acceptance) checked
    | passed results =>
      obtain ⟨all, before, last⟩ := judged.passed results acceptance
      exact ⟨results, before, all, last⟩
    | failed results =>
      rw [acceptance] at through
      cases through
    | errored results message =>
      rw [acceptance] at through
      cases through

theorem sound_sessionStep (move : SessionMove) (timely : loop.keepsTime lease move)
    (sound : loop.Sound spec lease) :
    (loop.step serde commandLine spec context lease move).Sound spec lease := by
  unfold SessionLoop.step
  split
  · rename_i stage
    split
    · exact sound.fails _
    · split
      · exact sound
      · exact sound.prepare stage _
  · rename_i stage
    cases review : spec.independentReview with
    | none => exact sound
    | some request =>
      dsimp only
      cases request.validate serde with
      | error reason => exact sound.fails reason
      | ok passed =>
        have bare : spec.acceptance = [] := spec.checker (by rw [review]; rfl)
        exact sound.review stage bare _ _ _ _
  · rename_i stage
    exact sound.turn stage _ _
  · rename_i stage
    exact sound.call stage _ _ _
  · rename_i stage
    exact sound.verify stage _
  · rename_i stage
    exact sound.accept stage _
  · rename_i stage
    exact sound.judge stage _
  · rename_i stage
    exact sound.close stage timely _ _
  · exact sound

theorem sound_sessionStart (spec : CodeSessionSpec) (lease : Int) :
    SessionLoop.start.Sound spec lease where
  turns := rfl
  turned := Nat.zero_le _
  verified := rfl
  verifications := Nat.zero_le _
  accepted := Nat.zero_le _
  repaired := Nat.zero_le _
  tools := nofun
  terminal := nofun
  fatal := List.Pairwise.nil
  stopped := nofun
  fits := ⟨rfl, rfl⟩

theorem countP_isCheck_le (log : List Happening) : log.countP Happening.isCheck ≤
    log.countP Happening.isVerified + log.countP Happening.isAccepted := by
  induction log with
  | nil => exact le_rfl
  | cons happening rest ih =>
    simp only [List.countP_cons, Happening.isCheck]
    cases happening with
    | turn => exact ih
    | tool call now => exact ih
    | verified checks =>
      simp only [Happening.isVerified, Happening.isAccepted, Bool.or_false, Bool.false_eq_true,
        if_true, if_false]
      omega
    | accepted checks =>
      simp only [Happening.isVerified, Happening.isAccepted, Bool.or_true, Bool.false_eq_true,
        if_true, if_false]
      omega

/-- The bounds of a session: on its turns, on the runs of its checks, on its tools by the lease, on
its success by fresh checks, and on the checks after a fatal run. -/
structure SessionBounds (spec : CodeSessionSpec) (lease : Int) (loop : SessionLoop) : Prop where
  turns : loop.log.countP Happening.isTurn ≤ spec.maxTurns
  checks : loop.log.countP Happening.isCheck ≤
    spec.maxVerificationRuns + spec.maxAcceptanceRepairs + 1
  tools : ∀ call now, Happening.tool call now ∈ loop.log → now < lease
  succeeds : ∀ ending, loop.stage = .ended ending → ending.succeeds = true →
    (∃ check ∈ spec.acceptance, check.required = true) → PassedLast spec loop.log
  fatal : FatalLast loop.log

theorem SessionLoop.Sound.bounds (sound : loop.Sound spec lease) :
    SessionBounds spec lease loop where
  turns := sound.turns ▸ sound.turned
  checks := by
    have counted := countP_isCheck_le loop.log
    have verified := sound.verified
    have verifications := sound.verifications
    have accepted := sound.accepted
    have repaired := sound.repaired
    have settled := settled_le_one loop.stage
    omega
  tools := sound.tools
  succeeds := by
    intro ending stage succeeds ⟨check, member, _⟩
    have fits := sound.fits
    rw [SessionLoop.Fits, stage] at fits
    exact fits succeeds (List.ne_nil_of_mem member)
  fatal := sound.fatal

/-- A session keeps its bounds in every run whose last reading of the clock is not set back behind
the lease's end. -/
theorem session_bounds (serde : Serde) (commandLine : AcceptanceCheck → Text)
    (spec : CodeSessionSpec) (context : Option CoordinatorContext) (lease : Int)
    (moves : List SessionMove)
    (timely : EachStep (SessionLoop.step serde commandLine spec context lease) .start
      (SessionLoop.keepsTime lease) moves) (count : Nat) :
    SessionBounds spec lease (sessionAt serde commandLine spec context lease moves count) :=
  (timely.invariant (SessionLoop.Sound spec lease) (sound_sessionStart spec lease)
    (fun _ move => sound_sessionStep move) count).bounds

end Bounds

section Examples

def testCheck : AcceptanceCheck := ⟨"tests", "cargo", ["test"], none, 0, true⟩

def oneTurn : CodeSessionSpec where
  maxTurns := 1
  maxAcceptanceRepairs := 0
  maxVerificationRuns := 0
  acceptance := [testCheck]
  reviewCapture := none
  independentReview := none
  checkerCorrection := none
  turns := by decide
  checker := nofun

/-- A reply at 0, its checks met by these probes, and two later readings of the clock. -/
def repliedRun (probe : Probe) (judged closed : Int) : List SessionMove :=
  [.prepare (.ok none), .turn 0 (.ok (.text "Done".toList none)), .check fun _ => probe,
    .judge judged, .close closed (.ok []) false]

def plainLine (check : AcceptanceCheck) : Text := check.command.toList

/-- The checks pass in time. -/
theorem session_bounds_passed :
    SessionBounds oneTurn 10 (sessionAt wire plainLine oneTurn none 10
      (repliedRun ⟨1, 1, .ok ⟨some 0, false, [], []⟩⟩ 2 3) 5) := by
  refine session_bounds wire plainLine oneTurn none 10 _ (eachStep_of_lt ?_) 5
  intro count inside
  match count, inside with
  | 0, _ | 1, _ | 2, _ | 3, _ => trivial
  | 4, _ => exact fun late => nomatch (show false = true from late)

/-- A session does not keep its bounds under every clock: its checks are skipped at the lease's end,
the clock is set back, and the session succeeds. -/
theorem success_unchecked :
    ¬ ∀ (serde : Serde) (commandLine : AcceptanceCheck → Text) (spec : CodeSessionSpec)
      (context : Option CoordinatorContext) (lease : Int) (moves : List SessionMove) (count : Nat),
      SessionBounds spec lease (sessionAt serde commandLine spec context lease moves count) := by
  intro bounded
  have bounds := bounded wire plainLine oneTurn none 10 (repliedRun ⟨10, 10, .error []⟩ 5 5) 5
  obtain ⟨results, before, _, same⟩ :=
    bounds.succeeds _ rfl rfl ⟨testCheck, List.mem_singleton.mpr rfl, rfl⟩
  have last : some (Happening.accepted .skipped) =
      (before ++ [Happening.accepted (.passed results)]).getLast? := congrArg List.getLast? same
  rw [List.getLast?_append] at last
  cases last

end Examples

end OHHive.Coder
