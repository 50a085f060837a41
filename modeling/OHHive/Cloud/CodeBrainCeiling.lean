import OHHive.Cloud.CodeBrain
import OHHive.Foundation.Run

/-! The monthly ceiling under many coding sessions: a month is passed by no more than one turn, in
the runs in which no other turn is recorded between a turn's guard and its record. -/

namespace OHHive.Cloud

open Foundation

section Properties

/-- The member's turns of the month of `now`, up to `now`. -/
def CodeBrainDb.monthTurns (db : CodeBrainDb) (member : MemberId) (now : Time) :
    List CodeBrainUsage :=
  (db.usageOf member).filter fun row => monthStart now ≤ row.createdAt && row.createdAt ≤ now

def usdOf (rows : List CodeBrainUsage) : ℚ := (rows.map CodeBrainUsage.usdEstimate).sum

/-- What is spent in a month is at most one of its turns above the cap. -/
def CodeBrainDb.WithinOneTurn (db : CodeBrainDb) (member : MemberId) (now : Time) : Prop :=
  0 < usdOf (db.monthTurns member now) →
    ∃ row ∈ db.monthTurns member now,
      usdOf (db.monthTurns member now) ≤ db.capUsd member + row.usdEstimate

/-- A turn is recorded while the member's usage is what its guard counted. -/
def Sessions.Undisturbed (owner : SessionId → MemberId) (state : Sessions) : SessionMove → Prop
  | .record session =>
    match state.phase session with
    | .recording seen _ _ => state.db.usageOf (owner session) = seen
    | _ => True
  | _ => True

/-- Sessions at rest, over any caps and no usage. -/
def Sessions.initial (caps : MemberId → Option ℚ) (capSetting : Option ℚ)
    (active : MemberId → Bool) (clock : Time) : Sessions where
  db := ⟨[], caps, capSetting, active⟩
  clock := clock
  phase := fun _ => .resting

/-- The state of the sessions after the first `moment` moves. -/
def sessionsAt (prices : BrainPrices) (owner : SessionId → MemberId) (start : Sessions)
    (moves : List SessionMove) (moment : Nat) : Sessions :=
  stateAt (Sessions.step prices owner) start moves moment

end Properties

section Months

variable {rows fewer : List CodeBrainUsage} {db : CodeBrainDb} {member : MemberId}
  {now later : Time}

/-- Usage since the month of `now` began. -/
def usageSince (rows : List CodeBrainUsage) (now : Time) : List CodeBrainUsage :=
  rows.filter fun row => monthStart now ≤ row.createdAt

/-- A month counts the member's usage since it began. -/
theorem CodeBrainDb.monthUsd_eq :
    db.monthUsd member now = usdOf (usageSince (db.usageOf member) now) := by
  unfold monthUsd monthUsage usdOf usageSince usageOf
  rw [List.filter_filter]
  simp only [Bool.and_comm]

/-- Estimates are never negative. -/
def Priced (rows : List CodeBrainUsage) : Prop := ∀ row ∈ rows, 0 ≤ row.usdEstimate

theorem usdOf_le (priced : Priced rows) (part : fewer.Sublist rows) : usdOf fewer ≤ usdOf rows := by
  refine (part.map _).sum_le_sum ?_
  intro usd counted
  obtain ⟨row, member, rfl⟩ := List.mem_map.mp counted
  exact priced row member

theorem Priced.of_subset (priced : Priced rows) (part : fewer ⊆ rows) : Priced fewer :=
  fun row member => priced row (part member)

/-- Later months count no more of the usage. -/
theorem usdOf_usageSince_anti (priced : Priced rows) (ordered : now ≤ later) :
    usdOf (usageSince rows later) ≤ usdOf (usageSince rows now) := by
  have months := monthStart_mono ordered
  refine usdOf_le (priced.of_subset List.filter_sublist.subset) ?_
  apply List.monotone_filter_right
  intro row counted
  exact decide_eq_true (le_trans months (of_decide_eq_true counted))

theorem usdOf_monthTurns_le (priced : Priced (db.usageOf member)) (now : Time) :
    usdOf (db.monthTurns member now) ≤ usdOf (usageSince (db.usageOf member) now) := by
  refine usdOf_le (priced.of_subset List.filter_sublist.subset) ?_
  apply List.monotone_filter_right
  intro row counted
  exact (Bool.and_eq_true_iff.mp counted).1

/-- Where all usage is past, the month is what `code_brain_month_usd` counts. -/
theorem CodeBrainDb.monthUsd_of_past (past : ∀ row ∈ db.usage, row.createdAt ≤ now) :
    db.monthUsd member now = usdOf (db.monthTurns member now) := by
  rw [monthUsd_eq]
  refine congrArg usdOf (List.filter_congr fun row counted => ?_)
  have before := past row (List.mem_filter.mp counted).1
  rw [decide_eq_true before, Bool.and_true]

end Months

section Records

variable {db after : CodeBrainDb} {row : CodeBrainUsage} {member : MemberId} {now : Time}

/-- One more turn. -/
structure CodeBrainDb.Adds (db after : CodeBrainDb) (row : CodeBrainUsage) : Prop where
  usage : after.usage = db.usage ++ [row]
  cap : after.capUsd = db.capUsd

theorem CodeBrainDb.adds_record {turn : BrainTurn} {answer : RecordAnswer}
    (recorded : db.codeBrainRecord member turn now = .ok (answer, after)) :
    db.Adds after (turn.row member now) := by
  obtain ⟨_, _, answered⟩ := bind_eq_ok_iff.mp recorded
  obtain ⟨_, rfl⟩ := Prod.mk.inj (Except.ok.inj answered)
  exact ⟨rfl, rfl⟩

theorem CodeBrainDb.Adds.usageOf (adds : db.Adds after row) :
    after.usageOf member = db.usageOf member ++ if row.member = member then [row] else [] := by
  by_cases own : row.member = member
  · simp [CodeBrainDb.usageOf, adds.usage, own]
  · simp [CodeBrainDb.usageOf, adds.usage, own]

/-- A month counts one more turn, if it is of the member and the month. -/
theorem CodeBrainDb.Adds.monthTurns (adds : db.Adds after row) :
    after.monthTurns member now = db.monthTurns member now ++
      if row.member = member ∧ monthStart now ≤ row.createdAt ∧ row.createdAt ≤ now then [row]
      else [] := by
  unfold CodeBrainDb.monthTurns
  rw [adds.usageOf, List.filter_append]
  congr 1
  by_cases own : row.member = member
  · by_cases counted : monthStart now ≤ row.createdAt ∧ row.createdAt ≤ now
    · simp [own, counted]
    · simp [own, counted]
  · simp [own]

/-- A turn that is recorded below the cap leaves every month within one turn. -/
theorem CodeBrainDb.Adds.within (adds : db.Adds after row)
    (priced : Priced (db.usageOf row.member))
    (below : usdOf (usageSince (db.usageOf row.member) row.createdAt) < db.capUsd row.member)
    (within : db.WithinOneTurn member now) : after.WithinOneTurn member now := by
  unfold WithinOneTurn
  rw [adds.monthTurns, adds.cap]
  by_cases counted : row.member = member ∧ monthStart now ≤ row.createdAt ∧ row.createdAt ≤ now
  · rw [if_pos counted]
    obtain ⟨rfl, _, upTo⟩ := counted
    refine fun _ => ⟨row, List.mem_append_right _ (List.mem_singleton_self row), ?_⟩
    have counts := usdOf_monthTurns_le priced now
    have months := usdOf_usageSince_anti priced upTo
    have total : usdOf (db.monthTurns row.member now ++ [row]) =
        usdOf (db.monthTurns row.member now) + row.usdEstimate := by
      simp [usdOf]
    rw [total]
    exact add_le_add_left (le_of_lt (lt_of_le_of_lt (le_trans counts months) below)) _
  · rw [if_neg counted, List.append_nil]
    exact within

end Records

section Runs

variable {prices : BrainPrices} {owner : SessionId → MemberId} {state : Sessions}

/-- What holds in every run in which no turn is disturbed. -/
structure Sessions.Bounded (owner : SessionId → MemberId) (state : Sessions) : Prop where
  priced : Priced state.db.usage
  past : ∀ row ∈ state.db.usage, row.createdAt ≤ state.clock
  guarded : ∀ session seen, state.phase session = .guarded seen → ∀ now, state.clock ≤ now →
    usdOf (usageSince seen now) < state.db.capUsd (owner session)
  recording : ∀ session seen turn began, state.phase session = .recording seen turn began →
    began ≤ state.clock ∧ usdOf (usageSince seen began) < state.db.capUsd (owner session)
  within : ∀ member now, state.db.WithinOneTurn member now

/-- A phase that has just been set is the new one, or another session's as before. -/
theorem Sessions.phase_setPhase {session other : SessionId} {phase found : TurnPhase}
    (set : (state.setPhase session phase).phase other = found) :
    (other = session ∧ phase = found) ∨ state.phase other = found := by
  by_cases own : other = session
  · subst own
    left
    exact ⟨rfl, by simpa [Sessions.setPhase] using set⟩
  · right
    simpa [Sessions.setPhase, own] using set

/-- A session comes to rest. -/
theorem Sessions.Bounded.rest (bounded : state.Bounded owner) (session : SessionId) :
    (state.setPhase session .resting).Bounded owner where
  priced := bounded.priced
  past := bounded.past
  within := bounded.within
  guarded other seen set := by
    rcases phase_setPhase set with ⟨_, resting⟩ | before
    · cases resting
    · exact bounded.guarded other seen before
  recording other seen turn began set := by
    rcases phase_setPhase set with ⟨_, resting⟩ | before
    · cases resting
    · exact bounded.recording other seen turn began before

theorem Sessions.Bounded.wait (bounded : state.Bounded owner) (micros : Nat) :
    { state with clock := state.clock + micros : Sessions }.Bounded owner := by
  have later : state.clock ≤ state.clock + (micros : Int) :=
    Int.le_add_of_nonneg_right (Int.natCast_nonneg micros)
  exact {
    priced := bounded.priced
    past := fun row member => le_trans (bounded.past row member) later
    within := bounded.within
    guarded := fun session seen phase now after =>
      bounded.guarded session seen phase now (le_trans later after)
    recording := fun session seen turn began phase =>
      ⟨le_trans (bounded.recording session seen turn began phase).1 later,
        (bounded.recording session seen turn began phase).2⟩ }

/-- A guard that admits a turn found the month below the cap. -/
theorem CodeBrainDb.below_of_guard {db : CodeBrainDb} {member : MemberId} {now : Time}
    {answer : GuardAnswer} (admitted : db.codeBrainGuard member now = .ok answer) :
    usdOf (usageSince (db.usageOf member) now) < db.capUsd member := by
  unfold codeBrainGuard at admitted
  by_cases reached : db.capUsd member ≤ db.monthUsd member now
  · rw [if_pos reached] at admitted
    cases admitted
  · rw [← monthUsd_eq]
    exact not_le.mp reached

theorem Sessions.Bounded.guard (bounded : state.Bounded owner) {session : SessionId}
    {answer : GuardAnswer}
    (admitted : state.db.codeBrainGuard (owner session) state.clock = .ok answer) :
    (state.setPhase session (.guarded (state.db.usageOf (owner session)))).Bounded owner where
  priced := bounded.priced
  past := bounded.past
  within := bounded.within
  guarded other seen set now later := by
    rcases phase_setPhase set with ⟨rfl, same⟩ | before
    · cases same
      have priced := bounded.priced.of_subset (List.filter_sublist.subset :
        state.db.usageOf (owner other) ⊆ state.db.usage)
      exact lt_of_le_of_lt (usdOf_usageSince_anti priced later)
        (CodeBrainDb.below_of_guard admitted)
    · exact bounded.guarded other seen before now later
  recording other seen turn began set := by
    rcases phase_setPhase set with ⟨_, guarded⟩ | before
    · cases guarded
    · exact bounded.recording other seen turn began before

/-- The record of a turn that was admitted begins. -/
theorem Sessions.Bounded.answer (bounded : state.Bounded owner) {session : SessionId}
    {seen : List CodeBrainUsage} (phase : state.phase session = .guarded seen) (turn : BrainTurn) :
    (state.setPhase session (.recording seen turn state.clock)).Bounded owner where
  priced := bounded.priced
  past := bounded.past
  within := bounded.within
  guarded other seen set := by
    rcases phase_setPhase set with ⟨_, recording⟩ | before
    · cases recording
    · exact bounded.guarded other seen before
  recording other seen turn began set := by
    rcases phase_setPhase set with ⟨rfl, same⟩ | before
    · cases same
      exact ⟨le_refl _, bounded.guarded other _ phase _ (le_refl _)⟩
    · exact bounded.recording other seen turn began before

/-- A turn is recorded that no other disturbed. -/
theorem Sessions.Bounded.record (bounded : state.Bounded owner) {session : SessionId}
    {seen : List CodeBrainUsage} {turn : BrainTurn} {began : Time} {after : CodeBrainDb}
    (phase : state.phase session = .recording seen turn began)
    (undisturbed : state.db.usageOf (owner session) = seen)
    (adds : state.db.Adds after (turn.row (owner session) began)) :
    { state with db := after : Sessions }.Bounded owner := by
  obtain ⟨began_le, below⟩ := bounded.recording session seen turn began phase
  have priced : Priced (state.db.usageOf (owner session)) :=
    bounded.priced.of_subset List.filter_sublist.subset
  refine ⟨?_, ?_, ?_, ?_, ?_⟩
  · intro row member
    rw [adds.usage, List.mem_append, List.mem_singleton] at member
    rcases member with stored | rfl
    · exact bounded.priced row stored
    · exact le_max_right _ _
  · intro row member
    rw [adds.usage, List.mem_append, List.mem_singleton] at member
    rcases member with stored | rfl
    · exact bounded.past row stored
    · exact began_le
  · intro other seen guarded now later
    rw [adds.cap]
    exact bounded.guarded other seen guarded now later
  · intro other seen turn began recording
    rw [adds.cap]
    exact bounded.recording other seen turn began recording
  · intro member now
    exact adds.within priced (undisturbed ▸ below) (bounded.within member now)

theorem Sessions.Bounded.step (bounded : state.Bounded owner) {move : SessionMove}
    (undisturbed : state.Undisturbed owner move) :
    (state.step prices owner move).Bounded owner := by
  cases move with
  | wait micros => exact bounded.wait micros
  | guard session =>
    simp only [Sessions.step]
    split
    · next admitted =>
      exact bounded.guard admitted
    · exact bounded
  | fail session =>
    simp only [Sessions.step]
    split
    · exact bounded.rest session
    · exact bounded
  | answer session answer configured? =>
    simp only [Sessions.step]
    split
    · next phase => exact bounded.answer phase _
    · exact bounded
  | record session =>
    simp only [Sessions.step]
    split
    · next phase =>
      simp only [Sessions.Undisturbed, phase] at undisturbed
      split
      · next recorded =>
        exact (bounded.record phase undisturbed (CodeBrainDb.adds_record recorded)).rest session
      · exact bounded.rest session
    · exact bounded

end Runs

section Ceiling

variable (prices : BrainPrices) (owner : SessionId → MemberId) (caps : MemberId → Option ℚ)
  (capSetting : Option ℚ) (active : MemberId → Bool) (clock : Time) (moves : List SessionMove)

/-- Where no turn is disturbed, no month is passed by more than one turn; and the month that
`code_brain_month_usd` counts is this month. -/
theorem month_within_one_turn
    (undisturbed : EachStep (Sessions.step prices owner)
      (.initial caps capSetting active clock) (Sessions.Undisturbed owner) moves)
    (moment : Nat) (member : MemberId) (now : Time) :
    let state := sessionsAt prices owner (.initial caps capSetting active clock) moves moment
    state.db.WithinOneTurn member now ∧
    (state.clock ≤ now →
      state.db.monthUsd member now = usdOf (state.db.monthTurns member now)) := by
  have bounded := undisturbed.invariant (Sessions.Bounded owner) (by
    refine ⟨nofun, nofun, nofun, nofun, ?_⟩
    intro member now spent
    exact absurd spent (lt_irrefl 0)) (fun state move undisturbed bounded =>
      bounded.step undisturbed) moment
  refine ⟨bounded.within member now, fun later => ?_⟩
  exact CodeBrainDb.monthUsd_of_past fun row stored => le_trans (bounded.past row stored) later

/-- The prices that the handler is made with. -/
def handlerPrices : BrainPrices
  | .anthropic => some ⟨⟨some 3, some 15⟩, []⟩
  | _ => none

/-- A turn of fifteen dollars. -/
def longAnswer : ProviderAnswer := ⟨.anthropic, "claude-sonnet-4-5".toList, 0, 1000000⟩

/-- A session whose turn is recorded before it asks again. -/
def oneSession : List SessionMove :=
  [.guard 0, .answer 0 longAnswer none, .record 0, .guard 0]

theorem oneSession_within :
    let state := sessionsAt handlerPrices (fun _ => 1)
      (.initial (fun _ => none) (some 1) (fun _ => true) 0) oneSession 4
    state.db.WithinOneTurn 1 0 ∧
    (state.clock ≤ 0 → state.db.monthUsd 1 0 = usdOf (state.db.monthTurns 1 0)) := by
  refine month_within_one_turn _ _ _ _ _ _ _ (eachStep_of_lt fun count inside => ?_) 4 1 0
  match count, inside with
  | 0, _ => trivial
  | 1, _ => trivial
  | 2, _ => rfl
  | 3, _ => trivial

/-- Two sessions ask their guards before either records its turn. -/
def twoSessions : List SessionMove :=
  [.guard 0, .guard 1, .answer 0 longAnswer none, .answer 1 longAnswer none, .record 0, .record 1]

theorem twoSessions_overshoot :
    ¬ ∀ prices owner caps capSetting active clock moves moment member now,
      (sessionsAt prices owner (.initial caps capSetting active clock) moves
        moment).db.WithinOneTurn member now := by
  intro within
  have months := within handlerPrices (fun _ => 1) (fun _ => none) (some 1) (fun _ => true) 0
    twoSessions 6 1 0
  obtain ⟨row, counted, least⟩ := months (by decide +kernel)
  revert row
  decide +kernel

end Ceiling

end OHHive.Cloud
