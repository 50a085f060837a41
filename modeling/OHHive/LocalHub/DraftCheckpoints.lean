import OHHive.Coder.Wire
import OHHive.LocalHub.DraftRuns

/-! Runs of hubs and text workers in which every stored checkpoint that is handed out can be
resumed from, and a run in which an older worker's checkpoint cannot. -/

namespace OHHive.LocalHub

open Foundation

variable {worker : DraftWorker} {bench : Bench}

section Claims

/-- An answered claim of a text card hands out no checkpoint that must be thrown away. -/
def Bench.resumable (worker : DraftWorker) (bench : Bench) : Move → Bool
  | .claim hub around clock _ =>
    match claimCard around bench.board hub clock with
    | .ok (_, .leased claimed) =>
      claimed.card.modality ≠ .text ||
        claimed.checkpoint.all fun row => (readState worker row.state).isSome
    | _ => true
  | _ => true

theorem due_enter (state : LoopState) : (Stage.enter state).due = state.step := by
  unfold Stage.enter
  split <;> rfl

theorem sound_enter {hub : Session} {claimed : Claimed} {state : LoopState}
    {strides : List Stride} (led : Led state strides)
    (unblocked : state.phase ≠ .waitingOnChild) :
    (CardRun.mk hub claimed (Stage.enter state) strides).Sound := by
  unfold Stage.enter CardRun.Sound
  by_cases done : state.phase = .done
  · rw [if_pos done]
    exact ⟨led, done⟩
  · rw [if_neg done]
    exact ⟨led, unblocked, done⟩

/-- A card starts from its stored checkpoint, or from nothing when there is none. -/
theorem sound_startCard (sound : bench.Sound worker) (hub : Session) {claimed : Claimed}
    (handed : claimed.checkpoint = bench.board.checkpoints.lookup claimed.card.id)
    (readable : claimed.checkpoint.all fun row => (readState worker row.state).isSome) :
    (startCard worker hub claimed (bench.saved claimed.card.id)).Sound ∧
      ∀ row ∈ claimed.checkpoint,
        row.step ≤ (startCard worker hub claimed (bench.saved claimed.card.id)).stage.due := by
  cases found : claimed.checkpoint with
  | none =>
    have fresh : resumeState worker.toTextWorker claimed = none := by
      rw [resumeState, found]
      rfl
    rw [startCard, fresh]
    exact ⟨⟨rfl, found⟩, nofun⟩
  | some row =>
    rw [found, Option.all_some] at readable
    obtain ⟨state, read⟩ := Option.isSome_iff_exists.mp readable
    have resumed : resumeState worker.toTextWorker claimed = some state := by
      rw [resumeState, found]
      exact read
    obtain ⟨led, stepped⟩ := sound.stored (handed.symm.trans found) read
    obtain ⟨started, unblocked⟩ :=
      led.resumed (readChild worker claimed) (worker.model claimed.card)
    have due := step_resumeChild (readChild worker claimed)
      { state with model := worker.model claimed.card }
    rw [startCard, resumed]
    refine ⟨sound_enter started unblocked, ?_⟩
    intro other same
    obtain rfl := Option.some.inj same
    rw [due_enter, due]
    exact stepped.le

theorem Bench.Sound.started (sound : bench.Sound worker) {hub : Session} {claimed : Claimed}
    (handed : claimed.checkpoint = bench.board.checkpoints.lookup claimed.card.id)
    (readable : claimed.card.modality ≠ .text ||
      claimed.checkpoint.all fun row => (readState worker row.state).isSome) :
    Bench.Sound worker (bench.started worker hub bench.board (.leased claimed)) := by
  unfold Bench.started
  dsimp only
  by_cases text : claimed.card.modality = .text
  · rw [Bool.or_eq_true, decide_eq_true_eq] at readable
    obtain ⟨started, behind⟩ :=
      sound_startCard sound hub handed (readable.resolve_left (not_not_intro text))
    rw [if_pos text]
    refine ⟨?_, sound.stored, ?_⟩
    · intro seat run present
      change Function.update bench.runs hub.seat _ seat = some run at present
      by_cases mine : seat = hub.seat
      · subst mine
        rw [Function.update_self] at present
        obtain rfl := Option.some.inj present
        refine ⟨started, ?_⟩
        unfold startCard
        split <;> rfl
      · rw [Function.update_of_ne mine] at present
        exact sound.runs present
    · intro seat run row present leased found
      change Function.update bench.runs hub.seat _ seat = some run at present
      by_cases mine : seat = hub.seat
      · subst mine
        rw [Function.update_self] at present
        obtain rfl := Option.some.inj present
        have same : (startCard worker hub claimed (bench.saved claimed.card.id)).claimed =
            claimed := by
          unfold startCard
          split <;> rfl
        rw [same] at found
        exact behind row (handed.trans found)
      · rw [Function.update_of_ne mine] at present
        exact sound.due present leased found
  · rw [if_neg text]
    exact sound

theorem Bench.Sound.claim (sound : bench.Sound worker) {hub : Session} {around : Surroundings}
    {clock : Nat → Int} {answered : Bool}
    (resumable : bench.resumable worker (.claim hub around clock answered)) :
    Bench.Sound worker (bench.step worker (.claim hub around clock answered)) := by
  unfold Bench.step
  dsimp only
  by_cases busy : (bench.runs hub.seat).isSome
  · rw [if_pos busy]
    exact sound
  · rw [if_neg busy]
    have idle : bench.runs hub.seat = none := Option.not_isSome_iff_eq_none.mp busy
    unfold Bench.resumable at resumable
    dsimp only at resumable
    cases done : claimCard around bench.board hub clock with
    | error failure => exact sound
    | ok result =>
      obtain ⟨board, reply⟩ := result
      rw [done] at resumable
      obtain ⟨kept, handed⟩ := checkpoints_claimCard done
      have moved : bench.board.step ⟨.claimCard hub, around, clock⟩ = board := by
        have replied : Event.reply ⟨.claimCard hub, around, clock⟩ bench.board = .ok board :=
          map_fst_eq_ok_iff.mpr ⟨reply, done⟩
        rw [Board.step, replied]
      have silent : Quiet worker bench ⟨.claimCard hub, around, clock⟩ :=
        quiet_of_claim rfl idle sound
      have quieted := sound.quiet silent
      rw [moved] at quieted
      dsimp only
      cases answered with
      | false => exact quieted
      | true =>
        cases reply with
        | leased claimed =>
          rw [if_pos rfl]
          refine quieted.started ?_ resumable
          rw [handed claimed rfl]
          exact congrArg (fun table => table.lookup claimed.card.id) kept.symm
        | _ => exact quieted

end Claims

section Runs

variable {seat : Seat} {input : Input} {around : Surroundings} {clock : Nat → Int}
  {sent answered : Bool}

/-- What a worker asks of the hub keeps the bench, before it goes on. -/
theorem Bench.Sound.asks {run : CardRun} {op : Op} (sound : bench.Sound worker)
    (working : bench.runs seat = some run) (called : run.call worker input = some op) :
    Bench.Sound worker
      { bench with
        board := if sent then bench.board.step ⟨op, around, clock⟩ else bench.board
        saved :=
          if sent && Event.accepted ⟨op, around, clock⟩ bench.board then
            bench.noted (if sent then bench.board.step ⟨op, around, clock⟩ else bench.board)
              run.strides op
          else bench.saved } := by
  cases sent with
  | false => exact sound
  | true =>
    rw [Bool.true_and, if_pos rfl]
    by_cases accepted : Event.accepted ⟨op, around, clock⟩ bench.board = true
    · rw [if_pos accepted]
      have asked := worker_of_call called
      cases op with
      | checkpoint hub id step text usage =>
        exact (sound.saves working called rfl accepted).2
      | _ => exact sound.quiet (quiet_of_worker asked nofun)
    · rw [if_neg accepted]
      have still : bench.board.step ⟨op, around, clock⟩ = bench.board := by
        cases replied : Event.reply ⟨op, around, clock⟩ bench.board with
        | ok next =>
          rw [Event.accepted, replied] at accepted
          exact absurd rfl accepted
        | error failure => rw [Board.step, replied]
      rw [still]
      exact sound

theorem Bench.Sound.work (sound : bench.Sound worker) :
    Bench.Sound worker (bench.step worker (.work seat input around clock sent answered)) := by
  unfold Bench.step
  dsimp only
  cases working : bench.runs seat with
  | none => exact sound
  | some run =>
    have current := (sound.runs working).1
    dsimp only
    cases called : run.call worker input with
    | none => exact sound.proceed working fun _ moved => current.next moved
    | some op =>
      have asked := @Bench.Sound.asks worker bench seat input around clock sent run op sound working
        called
      exact asked.proceed working fun _ moved => current.next moved

theorem sound_step (move : Move) (resumable : bench.resumable worker move = true)
    (sound : bench.Sound worker) : Bench.Sound worker (bench.step worker move) := by
  cases move with
  | other event =>
    unfold Bench.step
    dsimp only
    by_cases permitted : bench.permits worker event = true
    · rw [if_pos permitted]
      exact sound.quiet (quiet_of_permits sound permitted)
    · rw [if_neg permitted]
      exact sound
  | claim hub around clock answered => exact sound.claim resumable
  | work seat input around clock sent answered => exact sound.work

theorem sound_emptyBench (worker : DraftWorker) : Bench.Sound worker Bench.empty where
  runs := nofun
  stored := nofun
  due := nofun

/-- What a bench shows of the loop: few revisions and steps, the last whole draft delivered, no
tools once a checkpoint is handed out, and every accepted checkpoint stored. -/
structure Bench.Drafts (worker : DraftWorker) (bench : Bench) : Prop where
  revised : ∀ {seat run}, bench.runs seat = some run → revised run.strides ≤ 2
  bounded : ∀ {seat run}, bench.runs seat = some run → run.Bounded
  delivers : ∀ {seat run input hub id content model usage}, bench.runs seat = some run →
    run.call worker input = some (.completeCard hub id content model usage) →
    ∃ text, LastWritten run.strides (some text) ∧ content = String.ofList text
  tools : ∀ {seat run}, bench.runs seat = some run → run.stage = .tools →
    run.claimed.checkpoint = none
  stores : ∀ {seat run input hub id step text usage around clock}, bench.runs seat = some run →
    run.call worker input = some (.checkpoint hub id step text usage) →
    Event.accepted ⟨.checkpoint hub id step text usage, around, clock⟩ bench.board = true →
    (bench.board.step ⟨.checkpoint hub id step text usage, around, clock⟩).checkpoints.lookup id =
      some ⟨id, step, text, usage⟩

theorem Bench.Sound.drafts (sound : bench.Sound worker) : bench.Drafts worker where
  revised working := (sound.runs working).1.revised_le
  bounded working := (sound.runs working).1.bounded
  delivers working called := content_of_call (sound.runs working).1 called
  tools := by
    intro seat run working atTools
    have current := (sound.runs working).1
    rw [CardRun.Sound, atTools] at current
    exact current.2
  stores working called accepted := (sound.saves working called rfl accepted).1

/-- The loop does as told in every run whose claims hand out checkpoints of this version alone. -/
theorem drafts_kept (worker : DraftWorker) (moves : List Move)
    (resumable : EachStep (Bench.step worker) Bench.empty
      (fun bench move => bench.resumable worker move = true) moves) (count : Nat) :
    (benchAt worker moves count).Drafts worker :=
  (resumable.invariant (Bench.Sound worker) (sound_emptyBench worker)
    (fun _ move => sound_step move) count).drafts

end Runs

section Examples

def Phase.label : Phase → String
  | .waitingOnChild => "waiting_on_child"
  | .draft => "draft"
  | .critique => "critique"
  | .revise => "revise"
  | .done => "done"

def Usage.toJson (usage : Usage) : Json :=
  Coder.record
    [("compute_seconds", .number usage.computeSeconds.bits.toNat),
      ("tokens_in", .number usage.tokensIn), ("tokens_out", .number usage.tokensOut)]

def LoopState.toJson (state : LoopState) : Json :=
  Coder.record
    [("critique", Coder.optionalText state.critique), ("draft", Coder.optionalText state.draft),
      ("model", Coder.optionalText (state.model.map String.toList)),
      ("pending_child_key", Coder.optionalText (state.pendingChildKey.map String.toList)),
      ("phase", .text state.phase.label.toList), ("revisions", .number state.revisions),
      ("step", .number state.step), ("tool_output", Coder.optionalText state.toolOutput),
      ("usage", state.usage.toJson), ("version", .number state.version)]

theorem Phase.label_injective : Function.Injective (fun phase : Phase => phase.label.toList) := by
  intro first second same
  cases first <;> cases second <;> first | rfl | exact absurd same (by decide)

theorem Usage.toJson_injective : Function.Injective Usage.toJson := by
  intro first second same
  obtain ⟨tokensIn, tokensOut, ⟨bits⟩⟩ := first
  obtain ⟨otherIn, otherOut, ⟨others⟩⟩ := second
  simp only [toJson, Coder.record, Coder.membersOf, Json.object.injEq, Members.cons.injEq,
    Json.number.injEq, Int.natCast_inj, true_and, and_true] at same
  obtain ⟨together, rfl, rfl⟩ := same
  rw [BitVec.eq_of_toNat_eq together]

theorem LoopState.toJson_injective : Function.Injective LoopState.toJson := by
  intro first second same
  cases first
  cases second
  simp only [toJson, Coder.record, Coder.membersOf, Json.object.injEq, Members.cons.injEq,
    Json.number.injEq, Json.text.injEq, Int.natCast_inj, Coder.optionalText_inj,
    Usage.toJson_injective.eq_iff, true_and, and_true] at same
  obtain ⟨rfl, rfl, models, keys, phases, rfl, rfl, rfl, rfl, rfl⟩ := same
  have names : Function.Injective (Option.map String.toList) :=
    Option.map_injective fun _ _ => String.toList_inj.mp
  rw [names models, names keys, Phase.label_injective phases]

/-- Reads the given states by their texts, and all others by the codec. -/
noncomputable def draftWorker (known : List LoopState) : DraftWorker where
  toTextWorker :=
    { plainWorker with
      decodeState := fun text =>
        match known.find? fun state => String.ofList state.toJson.print = text with
        | some state => some state
        | none => (Codec.ofJson LoopState.toJson LoopState.toJson_injective).decode text.toList }
  briefing := noBriefing
  encodeState state := String.ofList state.toJson.print
  decode_encode := by
    intro state
    dsimp only
    split
    · rename_i other found
      have same : String.ofList other.toJson.print = String.ofList state.toJson.print := by
        simpa using List.find?_some found
      rw [LoopState.toJson_injective (Json.print_injective (String.ofList_injective same))]
    · rw [String.toList_ofList]
      exact (Codec.ofJson LoopState.toJson LoopState.toJson_injective).decode_encode state
  maxTokens := fun _ => none
  addSeconds first _ := first
  toUppercase text := text.map Char.toUpper

/-- A state of the previous version, five steps on. -/
def outdated : LoopState :=
  { LoopState.new none with
    version := 2
    phase := .critique
    step := 5
    draft := some "old".toList }

def olderSession : Session := { workerSession with session := 1 }

def reply (text : String) : Except String Inferred := .ok ⟨text.toList, noUsage, false⟩

def Op.elsewhere (op : Op) (now : Int) : Move := .other (op.at now)

def claims (now : Int) : Move := .claim workerSession openSurroundings (fun _ => now) true

def works (input : Input) (now : Int) : Move :=
  .work workerSession.seat input openSurroundings (fun _ => now) true true

/-- An older worker saves its fifth step and goes away; after its lease a newer worker takes the
card, finds nothing that it can resume from, and drafts anew. -/
def redraftedEssay : List Move :=
  [(Op.createProject ⟨1, "P", ""⟩).elsewhere 0, (Op.enroll "laptop").elsewhere 0,
    (Op.checkIn olderSession laptop).elsewhere 0, (Op.addCard essay).elsewhere 0,
    (Op.claimCard olderSession).elsewhere 0,
    (Op.checkpoint olderSession 7 5 (String.ofList outdated.toJson.print) noUsage).elsewhere 1,
    (Op.checkIn workerSession laptop).elsewhere 5000, claims 5000, works (.tools ⟨none, none⟩) 5000,
    works (.infer 5001 (reply "new")) 5001]

def drafted : LoopState :=
  { LoopState.new none with phase := .critique, step := 1, draft := some "new".toList }

/-- A worker saves its first draft and crashes; after its lease it resumes, and its critique passes
the draft. -/
def resumedEssay : List Move :=
  [(Op.createProject ⟨1, "P", ""⟩).elsewhere 0, (Op.enroll "laptop").elsewhere 0,
    (Op.checkIn workerSession laptop).elsewhere 0, (Op.addCard essay).elsewhere 0, claims 0,
    works (.tools ⟨none, none⟩) 0, works (.infer 1 (reply "new")) 1, works .proceed 1,
    works .crash 2, claims 5000, works (.infer 5001 (reply "PASS")) 5001]

theorem drafts_kept_resumed :
    (benchAt (draftWorker [drafted]) resumedEssay 11).Drafts (draftWorker [drafted]) := by
  have resumable : ∀ place : Fin resumedEssay.length,
      (benchAt (draftWorker [drafted]) resumedEssay place).resumable (draftWorker [drafted])
        (resumedEssay.get place) = true := by
    decide +kernel
  exact drafts_kept (draftWorker [drafted]) resumedEssay
    (eachStep_of_lt fun count inside => resumable ⟨count, inside⟩) 11

/-- The newer worker, about to save its first step. -/
def redrafting : CardRun :=
  { hub := workerSession
    claimed :=
      { card := essay
        project := ⟨1, "P", ""⟩
        depOutputs := []
        coordinated := none
        checkpoint := some ⟨7, 5, String.ofList outdated.toJson.print, noUsage⟩
        leaseExpiresAt := 5900 }
    stage := .saving drafted
    strides := [⟨.draft, ⟨"new".toList, noUsage, false⟩⟩] }

/-- The loop does not do as told in every run: an accepted checkpoint is not stored when the card
has one of a later step that nobody can resume from. -/
theorem checkpoint_ignored :
    ¬ ∀ (worker : DraftWorker) (moves : List Move) (count : Nat),
      (benchAt worker moves count).Drafts worker := by
  intro drafts
  have kept := drafts (draftWorker [outdated]) redraftedEssay 10
  have called : redrafting.call (draftWorker [outdated]) .proceed = some (.checkpoint workerSession
      7 1 ((draftWorker [outdated]).encodeState drafted) noUsage) := rfl
  obtain ⟨working, accepted, ignored⟩ :
      (benchAt (draftWorker [outdated]) redraftedEssay 10).runs workerSession.seat =
          some redrafting ∧
        Event.accepted ⟨.checkpoint workerSession 7 1 ((draftWorker [outdated]).encodeState drafted)
            noUsage, openSurroundings, fun _ => 5002⟩
          (benchAt (draftWorker [outdated]) redraftedEssay 10).board = true ∧
        ((benchAt (draftWorker [outdated]) redraftedEssay 10).board.step ⟨.checkpoint workerSession
            7 1 ((draftWorker [outdated]).encodeState drafted) noUsage, openSurroundings,
            fun _ => 5002⟩).checkpoints.lookup 7 ≠
          some ⟨7, 1, (draftWorker [outdated]).encodeState drafted, noUsage⟩ := by
    decide +kernel
  exact ignored (kept.stores working called accepted)

end Examples

end OHHive.LocalHub
