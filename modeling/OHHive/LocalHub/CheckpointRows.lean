import OHHive.LocalHub.WorkLease

/-! The stored checkpoints: one transaction alone writes them, and it keeps the later of two
steps. -/

namespace OHHive.LocalHub

open Foundation

variable {around : Surroundings} {board next : Board} {hub : Session} {id : CardId}
  {clock : Nat → Int}

section Frames

theorem checkpoints_blockParents (rounds : Nat) (board : Board) :
    (blockParents rounds board).checkpoints = board.checkpoints := by
  induction rounds generalizing board with
  | zero => rfl
  | succ rounds ih =>
    unfold blockParents
    split
    · exact ih _
    · rfl

theorem checkpoints_settle (board : Board) (expiring deleting : Int) :
    (settle board expiring deleting).checkpoints = board.checkpoints :=
  checkpoints_blockParents _ _

theorem checkpoints_endCard {reason : String} {status : CardStatus}
    (done : endCard board hub id reason status clock = .ok next) :
    next.checkpoints = board.checkpoints := by
  simp only [endCard, bind_eq_ok_iff, pure_eq_ok_iff] at done
  obtain ⟨_, _, rfl⟩ := done
  exact checkpoints_settle _ _ _

theorem checkpoints_insertOutput {output : CardOutput}
    (inserted : board.insertOutput output = .ok next) : next.checkpoints = board.checkpoints := by
  simp only [Board.insertOutput, bind_eq_ok_iff, pure_eq_ok_iff] at inserted
  obtain ⟨_, _, rfl⟩ := inserted
  rfl

theorem checkpoints_insertCard {card : Card} (inserted : board.insertCard card = .ok next) :
    next.checkpoints = board.checkpoints := by
  simp only [Board.insertCard, bind_eq_ok_iff, pure_eq_ok_iff] at inserted
  obtain ⟨_, _, _, _, rfl⟩ := inserted
  rfl

theorem checkpoints_completeCard {content : String} {model : Option String} {usage : Usage}
    (done : completeCard board hub id content model usage clock = .ok next) :
    next.checkpoints = board.checkpoints := by
  rcases completeCard_ok done with ⟨_, rfl⟩ | ⟨_, _, _, _, _, inserted, rfl⟩
  · rfl
  · have kept := checkpoints_insertOutput inserted
    exact (checkpoints_settle _ _ _).trans kept

theorem checkpoints_waitOnChild {child : CardId}
    (done : waitOnChild board hub id child clock = .ok next) :
    next.checkpoints = board.checkpoints := by
  simp only [waitOnChild, bind_eq_ok_iff, pure_eq_ok_iff] at done
  obtain ⟨_, _, _, _, _, _, _, _, rfl⟩ := done
  exact checkpoints_settle _ _ _

theorem checkpoints_spawnChildCard {child : ClaimedCard} {given : CardId}
    (done : spawnChildCard board hub id child clock = .ok (next, given)) :
    next.checkpoints = board.checkpoints := by
  obtain ⟨_, rfl | ⟨_, _, _, _, inserted, _, rfl⟩⟩ := spawnChildCard_ok done
  · rfl
  · have kept := checkpoints_insertCard inserted
    exact kept

end Frames

section Claims

theorem checkpoints_leaseCard {card : ClaimedCard} {outputs : List (String × String)} {now : Int}
    {claim : Claim} (done : leaseCard board hub card outputs now = .ok (next, claim)) :
    next.checkpoints = board.checkpoints ∧ ∃ claimed, claim = .leased claimed ∧
      claimed.card = card ∧ claimed.checkpoint = board.checkpoints.lookup card.id := by
  simp only [leaseCard, bind_eq_ok_iff, pure_eq_ok_iff, Prod.mk.injEq] at done
  obtain ⟨_, _, leased, inserted, rfl, rfl⟩ := done
  simp only [Board.insertLease, bind_eq_ok_iff, pure_eq_ok_iff] at inserted
  obtain ⟨_, _, rfl⟩ := inserted
  refine ⟨?_, _, rfl, rfl, rfl⟩
  unfold startRun
  split <;> rfl

theorem checkpoints_claimFirst {caps : Capabilities} {now : Int} {cards : List Card}
    {claim : Claim}
    (done : claimFirst around board hub caps now cards = .ok (next, claim)) :
    next.checkpoints = board.checkpoints ∧ ∀ claimed, claim = .leased claimed →
      claimed.checkpoint = board.checkpoints.lookup claimed.card.id := by
  induction cards with
  | nil =>
    obtain ⟨rfl, rfl⟩ := Prod.mk.inj (Except.ok.inj done)
    exact ⟨rfl, fun _ given => by cases given⟩
  | cons card rest ih =>
    simp only [claimFirst, bind_eq_ok_iff] at done
    obtain ⟨outputs, _, body⟩ := done
    cases outputs with
    | none => exact ih body
    | some outputs =>
      obtain ⟨same, claimed, rfl, ofCard, found⟩ := checkpoints_leaseCard body
      refine ⟨same, ?_⟩
      intro other given
      obtain rfl := Claim.leased.inj given
      rw [ofCard]
      exact found

/-- A claim hands out the checkpoint that is stored, and leaves it there. -/
theorem checkpoints_claimCard {claim : Claim}
    (done : claimCard around board hub clock = .ok (next, claim)) :
    next.checkpoints = board.checkpoints ∧ ∀ claimed, claim = .leased claimed →
      claimed.checkpoint = board.checkpoints.lookup claimed.card.id := by
  have settled := checkpoints_settle board (clock 0) (clock 1)
  simp only [claimCard, bind_eq_ok_iff] at done
  obtain ⟨node, _, body⟩ := done
  split at body
  · unfold claimSettled at body
    split at body
    · obtain ⟨rfl, rfl⟩ := Prod.mk.inj (Except.ok.inj body)
      exact ⟨settled, fun _ given => by cases given⟩
    · have first := checkpoints_claimFirst body
      rwa [settled] at first
  · obtain ⟨rfl, rfl⟩ := Prod.mk.inj (Except.ok.inj body)
    exact ⟨settled, fun _ given => by cases given⟩

end Claims

section Transactions

theorem checkpoints_setStatus (board : Board) (selects : Card → Bool) (status : CardStatus)
    (reason : Option String) :
    (board.setStatus selects status reason).checkpoints = board.checkpoints := rfl

/-- Every other transaction leaves the checkpoints alone. -/
theorem checkpoints_perform {op : Op} (done : op.perform around clock board = .ok next) :
    next.checkpoints = board.checkpoints ∨
      ∃ hub id step state usage, op = .checkpoint hub id step state usage := by
  cases op with
  | createProject project =>
    simp only [Op.perform, createProject, bind_eq_ok_iff, pure_eq_ok_iff] at done
    obtain ⟨_, _, rfl⟩ := done
    exact Or.inl rfl
  | enroll node =>
    simp only [Op.perform, enroll, bind_eq_ok_iff, pure_eq_ok_iff] at done
    obtain ⟨_, _, rfl⟩ := done
    exact Or.inl rfl
  | checkIn hub caps =>
    obtain rfl := Except.ok.inj done
    exact Or.inl rfl
  | checkOut hub =>
    obtain rfl := Except.ok.inj done
    exact Or.inl rfl
  | addCard card =>
    simp only [Op.perform, addCard, bind_eq_ok_iff] at done
    obtain ⟨_, _, inserted⟩ := done
    exact Or.inl (checkpoints_insertCard inserted)
  | settle =>
    obtain rfl := Except.ok.inj done
    exact Or.inl (checkpoints_settle _ _ _)
  | claimCard hub =>
    obtain ⟨_, claimed⟩ := ok_of_map done
    exact Or.inl (checkpoints_claimCard claimed).1
  | heartbeat hub =>
    obtain rfl := Except.ok.inj done
    exact Or.inl (checkpoints_settle _ _ _)
  | checkpoint hub id step state usage => exact Or.inr ⟨hub, id, step, state, usage, rfl⟩
  | completeCard hub id content model usage => exact Or.inl (checkpoints_completeCard done)
  | failCard hub id reason => exact Or.inl (checkpoints_endCard done)
  | releaseCard hub id reason =>
    simp only [Op.perform, releaseCard, bind_eq_ok_iff] at done
    obtain ⟨_, _, ended⟩ := done
    exact Or.inl (checkpoints_endCard ended)
  | spawnChildCard hub parent child =>
    obtain ⟨_, spawned⟩ := ok_of_map done
    exact Or.inl (checkpoints_spawnChildCard spawned)
  | waitOnChild hub id child => exact Or.inl (checkpoints_waitOnChild done)
  | privateRunRequest hub operation task =>
    simp only [Op.perform, privateRunRequest, bind_eq_ok_iff] at done
    obtain ⟨_, _, _, _, _, _, _, _, body⟩ := done
    left
    split at body
    · simp only [bind_eq_ok_iff, pure_eq_ok_iff] at body
      obtain ⟨_, _, _, _, rfl⟩ := body
      rfl
    · simp only [bind_eq_ok_iff, pure_eq_ok_iff] at body
      obtain ⟨_, _, _, _, rfl⟩ := body
      rfl
  | privateRunStop hub operation =>
    simp only [Op.perform, privateRunStop, bind_eq_ok_iff] at done
    obtain ⟨_, _, receipt, _, _, _, body⟩ := done
    left
    split at body
    · obtain rfl := Except.ok.inj body
      rfl
    · obtain rfl := Except.ok.inj body
      rw [checkpoints_setStatus]
      split <;> rfl
  | privateRunRetry hub previous later =>
    simp only [Op.perform, privateRunRetry, bind_eq_ok_iff] at done
    obtain ⟨_, _, _, _, prior, _, _, _, body⟩ := done
    left
    split at body
    · simp only [bind_eq_ok_iff, pure_eq_ok_iff] at body
      obtain ⟨_, _, rfl⟩ := body
      rfl
    · simp only [bind_eq_ok_iff, pure_eq_ok_iff] at body
      obtain ⟨_, _, _, _, _, _, _, _, rfl⟩ := body
      rfl
  | privateRunReady hub operation =>
    simp only [Op.perform, privateRunReady, bind_eq_ok_iff, pure_eq_ok_iff] at done
    obtain ⟨_, _, _, _, _, _, _, _, rfl⟩ := done
    exact Or.inl rfl
  | stagePrivateCodeTask card =>
    simp only [Op.perform, stagePrivateCodeTask] at done
    left
    split at done
    · simp only [bind_eq_ok_iff, pure_eq_ok_iff] at done
      obtain ⟨_, _, rfl⟩ := done
      rfl
    · simp only [bind_eq_ok_iff] at done
      obtain ⟨_, _, inserted⟩ := done
      exact checkpoints_insertCard inserted
  | publishPrivateCodeTask id node read workspace =>
    simp only [Op.perform, publishPrivateCodeTask, bind_eq_ok_iff, pure_eq_ok_iff] at done
    obtain ⟨_, _, _, _, rfl⟩ := done
    exact Or.inl rfl
  | retryPrivateCodeTask id node read =>
    simp only [Op.perform, retryPrivateCodeTask, bind_eq_ok_iff, pure_eq_ok_iff] at done
    obtain ⟨_, _, _, _, rfl⟩ := done
    exact Or.inl rfl
  | completePreparation id workspace =>
    simp only [Op.perform, completePreparation, bind_eq_ok_iff, pure_eq_ok_iff] at done
    obtain ⟨_, _, _, _, rfl⟩ := done
    exact Or.inl rfl

/-- A saved checkpoint replaces the one of an earlier or the same step, and no later one. -/
theorem lookup_saveCheckpoint (board : Board) (saved : Checkpoint) (id : CardId) :
    (saveCheckpoint board saved).checkpoints.lookup id =
      if id = saved.cardId then
        match board.checkpoints.lookup id with
        | none => some saved
        | some stored => if stored.step ≤ saved.step then some saved else some stored
      else board.checkpoints.lookup id := by
  unfold saveCheckpoint
  cases inserted : board.checkpoints.insert? saved with
  | some checkpoints =>
    have looked := Table.lookup_insert? inserted id
    have absent := (Table.insert?_eq_some_iff.mp inserted).1
    dsimp only
    rw [looked]
    by_cases same : id = saved.cardId
    · subst same
      rw [if_pos rfl, if_pos rfl, (board.checkpoints.lookup_eq_none_iff _).mpr absent]
    · rw [if_neg (Ne.symm same), if_neg same]
  | none =>
    dsimp only
    rw [Table.lookup_updateWhere]
    cases found : board.checkpoints.lookup id with
    | none =>
      by_cases same : id = saved.cardId
      · subst same
        have free := (board.checkpoints.lookup_eq_none_iff _).mp found
        obtain ⟨_, fits, _⟩ := Table.exists_insert? free
        rw [fits] at inserted
        cases inserted
      · rw [if_neg same]
        rfl
    | some stored =>
      have keyed : stored.cardId = id := Table.key_of_lookup found
      rw [Option.map_some]
      by_cases same : id = saved.cardId
      · rw [if_pos same]
        by_cases earlier : stored.step ≤ saved.step
        · simp [keyed, same, earlier]
        · simp [earlier]
      · rw [if_neg same]
        simp [keyed, same]

/-- What a transaction does to the stored checkpoints. -/
theorem checkpoints_step (event : Event) (board : Board) :
    (board.step event).checkpoints = board.checkpoints ∨
      ∃ hub id step state usage lease, event.op = .checkpoint hub id step state usage ∧
        HoldsLease board hub id (event.clock 0) lease ∧
        event.reply board = .ok (board.step event) ∧
        (board.step event).checkpoints =
          (saveCheckpoint board ⟨id, step, state, usage⟩).checkpoints := by
  unfold Board.step
  split
  · rename_i next done
    rcases checkpoints_perform done with same | ⟨hub, id, step, state, usage, asked⟩
    · exact Or.inl same
    · right
      have saves := done
      rw [Event.reply, asked] at saves
      obtain ⟨⟨lease, holds⟩, rfl⟩ := checkpoint_ok saves
      exact ⟨hub, id, step, state, usage, lease, asked, holds, done, rfl⟩
  · exact Or.inl rfl

end Transactions

end OHHive.LocalHub
