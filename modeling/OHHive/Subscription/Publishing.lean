import OHHive.Bots.Publications
import OHHive.Subscription.AtMostOnce
import OHHive.Subscription.Results

/-! A host with its three stores: the journal, the results beside it, and the hub. The calls of the
runner save and recall replies, publications carry completed replies to the hub, and each can crash
between any two of its transactions. -/

namespace OHHive.Subscription

open Foundation

section Machine

def Provider.inHub : Provider → Bots.Provider
  | .copilot => .copilot
  | .chatgpt => .chatgpt
  | .grok => .grok

def Binding.inHub (binding : Binding) : Bots.Binding :=
  { session := binding.session
    owner := binding.owner
    host := binding.host
    agent := binding.agent
    conversation := binding.conversation
    account := binding.account
    provider := binding.provider.inHub
    workspace := binding.workspace
    policyRevision := binding.policyRevision }

/-- Where a call of `publish_to_bots` stands. -/
inductive Publication where
  | idle
  | reading (binding : Binding) (operation : Uuid) (generation : Nat)
  | posting (binding : Binding) (operation : Uuid) (generation : Nat) (reply : Bots.CompletedReply)
  | finished (answer : Except RunError Bots.MessageId)
  | crashed

structure Host where
  runner : System
  results : Results
  hub : Bots.Store
  publication : Nat → Publication

/-- One transaction of a call of the runner, of a publication, or of anybody else. `persist` is
that of a caller who is no longer listening, or of anybody else. -/
inductive HostMove where
  | act (action : Action)
  | persist (binding : Binding) (operation : Uuid) (reply : ProviderReply) (receipt : Uuid)
      (fault : Fault)
  | save (call : Nat) (receipt : Uuid) (fault : Fault)
  | lookUp (call : Nat) (fault : Fault)
  | publish (task : Nat) (binding : Binding) (operation : Uuid) (generation : Nat)
  | read (task : Nat) (fault : Fault)
  | post (task : Nat) (id : Bots.MessageId) (ts : Int) (fault : Fault)
  | crash (task : Nat)
  | transact (op : Bots.Op)

/-- The result store has answered a call with a receipt. -/
def Action.isReceipt : Action → Bool
  | .input _ (.persisted (.ok _)) => true
  | _ => false

/-- The answer of a transaction that only reads. -/
def deliverRead (fault : Fault) (answer : Except RunError α) : Except RunError α :=
  (deliver fault .persistence () (answer >>= fun value => pure ((), value))).2

def Publication.read (answer : Except RunError Bots.CompletedReply) (binding : Binding)
    (operation : Uuid) (generation : Nat) : Publication :=
  match answer with
  | .ok reply => .posting binding operation generation reply
  | .error error => .finished (.error error)

namespace Host

/-- New databases, and no call yet. -/
def fresh : Host := ⟨.fresh, .empty, .empty, fun _ => .idle⟩

def enter (host : Host) (task : Nat) (publication : Publication) : Host :=
  { host with publication := Function.update host.publication task publication }

def persisted (host : Host) (binding : Binding) (operation : Uuid) (reply : ProviderReply)
    (receipt : Uuid) (fault : Fault) : Results × Except RunError String :=
  deliver fault .persistence host.results
    (Subscription.persist host.runner.journal host.results binding operation reply receipt)

def posted (host : Host) (binding : Binding) (operation : Uuid) (generation : Nat)
    (reply : Bots.CompletedReply) (id : Bots.MessageId) (ts : Int) (fault : Fault) :
    Bots.Store × Except RunError Bots.MessageId :=
  deliver fault .persistence host.hub
    ((Bots.botsPublishSubscription host.hub binding.inHub operation generation reply id ts).mapError
      (fun _ => .persistence))

/-- One move. A call of the runner gets its receipt from `save` alone, and only `post` publishes. -/
def step (digest : Envelope → String) (host : Host) (move : HostMove) : Host :=
  match move with
  | .act action =>
    if action.isReceipt then host else { host with runner := host.runner.step digest action }
  | .persist binding operation reply receipt fault =>
    { host with results := (host.persisted binding operation reply receipt fault).1 }
  | .save call receipt fault =>
    match host.runner.call call with
    | .persisting job _ reply =>
      let saved := host.persisted job.binding job.operation reply receipt fault
      { host with
        runner := host.runner.step digest (.input call (.persisted saved.2))
        results := saved.1 }
    | _ => host
  | .lookUp call fault =>
    match host.runner.call call with
    | .recovering job _ _ =>
      match deliverRead fault
        (load host.runner.journal host.results job.binding job.operation) with
      -- The provider is asked next.
      | .ok none => host
      | answer => { host with runner := host.runner.step digest (.input call (.reconciled answer)) }
    | _ => host
  | .publish task binding operation generation =>
    match host.publication task with
    | .idle => host.enter task (.reading binding operation generation)
    | _ => host
  | .read task fault =>
    match host.publication task with
    | .reading binding operation generation =>
      host.enter task (.read (deliverRead fault
        (completed host.runner.journal host.results binding operation))
        binding operation generation)
    | _ => host
  | .post task id ts fault =>
    match host.publication task with
    | .posting binding operation generation reply =>
      let posted := host.posted binding operation generation reply id ts fault
      { host with hub := posted.1 }.enter task (.finished posted.2)
    | _ => host
  | .crash task => host.enter task .crashed
  | .transact op => if op.isPublication then host else { host with hub := host.hub.step op }

end Host

/-- The host after the first moves of a run that begins with new databases. -/
abbrev hostAt (digest : Envelope → String) (moves : List HostMove) (moment : Nat) : Host :=
  stateAt (Host.step digest) Host.fresh moves moment

end Machine

section Steps

variable {digest : Envelope → String} {host : Host} {move : HostMove}

theorem ok_of_deliverRead {fault : Fault} {answer : Except RunError α} {value : α}
    (read : deliverRead fault answer = .ok value) : answer = .ok value := by
  have given := ok_of_deliver read
  obtain ⟨_, same, pair⟩ := bind_eq_ok_iff.mp given
  obtain ⟨_, rfl⟩ := Prod.mk.inj (pure_eq_ok_iff.mp pair)
  exact same

theorem mapError_eq_ok_iff {answer : Except ε α} {change : ε → δ} {value : α} :
    answer.mapError change = .ok value ↔ answer = .ok value := by
  cases answer <;> simp [Except.mapError]

theorem journal_step (digest : Envelope → String) (host : Host) (move : HostMove) :
    JournalMove host.runner.journal (host.step digest move).runner.journal := by
  have acts : ∀ action, JournalMove host.runner.journal (host.runner.step digest action).journal :=
    fun action => (systemMove_step digest host.runner action).journal_move
  cases move with
  | act action =>
    simp only [Host.step]
    split
    · exact .refl _
    · exact acts action
  | save call receipt fault =>
    simp only [Host.step]
    split
    · exact acts _
    · exact .refl _
  | lookUp call fault =>
    simp only [Host.step]
    split
    · split
      · exact .refl _
      · exact acts _
    · exact .refl _
  | publish | read | post | transact =>
    simp only [Host.step]
    split <;> exact .refl _
  | persist | crash => exact .refl _

/-- The results stay, or one call of the store has answered with a receipt. -/
theorem results_step (digest : Envelope → String) (host : Host) (move : HostMove) :
    (host.step digest move).results = host.results ∨
      ∃ binding operation reply receipt answer,
        persist host.runner.journal host.results binding operation reply receipt =
          .ok ((host.step digest move).results, answer) := by
  have stores : ∀ binding operation reply receipt fault,
      (host.persisted binding operation reply receipt fault).1 = host.results ∨
        ∃ answer, persist host.runner.journal host.results binding operation reply receipt =
          .ok ((host.persisted binding operation reply receipt fault).1, answer) :=
    fun binding operation reply receipt fault => deliver_fst fault _ _ _
  cases move with
  | persist binding operation reply receipt fault =>
    rcases stores binding operation reply receipt fault with same | ⟨answer, done⟩
    · exact Or.inl same
    · exact Or.inr ⟨binding, operation, reply, receipt, answer, done⟩
  | save call receipt fault =>
    simp only [Host.step]
    split
    · rename_i job _ reply _
      rcases stores job.binding job.operation reply receipt fault with same | ⟨answer, done⟩
      · exact Or.inl same
      · exact Or.inr ⟨job.binding, job.operation, reply, receipt, answer, done⟩
    · exact Or.inl rfl
  | lookUp call fault =>
    simp only [Host.step]
    split
    · split <;> exact Or.inl rfl
    · exact Or.inl rfl
  | act | publish | read | post | transact =>
    simp only [Host.step]
    split <;> exact Or.inl rfl
  | crash => exact Or.inl rfl

/-- The hub stays, or one transaction has run on it. -/
theorem hub_step (digest : Envelope → String) (host : Host) (move : HostMove) :
    (host.step digest move).hub = host.hub ∨
      ∃ op, (host.step digest move).hub = host.hub.step op := by
  cases move with
  | post task id ts fault =>
    simp only [Host.step]
    split
    · rename_i binding operation generation reply _
      rcases deliver_fst fault RunError.persistence host.hub
        ((Bots.botsPublishSubscription host.hub binding.inHub operation generation reply id
          ts).mapError (fun _ => RunError.persistence)) with same | ⟨answer, done⟩
      · exact Or.inl same
      · refine Or.inr ⟨.publishSubscription binding.inHub operation generation reply id ts, ?_⟩
        refine (Bots.Store.step_of_perform ?_).symm
        exact map_eq_ok_iff.mpr ⟨_, mapError_eq_ok_iff.mp done, rfl⟩
    · exact Or.inl rfl
  | transact op =>
    simp only [Host.step]
    split
    · exact Or.inl rfl
    · exact Or.inr ⟨op, rfl⟩
  | lookUp call fault =>
    simp only [Host.step]
    split
    · split <;> exact Or.inl rfl
    · exact Or.inl rfl
  | act | save | publish | read =>
    simp only [Host.step]
    split <;> exact Or.inl rfl
  | persist | crash => exact Or.inl rfl

/-- What a publication wrote, and what it was answered, come from one transaction on the hub. -/
theorem posted_step {task : Nat} {id : Bots.MessageId} {ts : Int} {fault : Fault}
    {binding : Binding} {operation : Uuid} {generation : Nat} {reply : Bots.CompletedReply}
    (posting : host.publication task = .posting binding operation generation reply) :
    (host.step digest (.post task id ts fault)).hub = host.hub ∨
      ∃ sent, Bots.botsPublishSubscription host.hub binding.inHub operation generation reply id
        ts = .ok ((host.step digest (.post task id ts fault)).hub, sent) := by
  simp only [Host.step, posting]
  rcases deliver_fst fault RunError.persistence host.hub
    ((Bots.botsPublishSubscription host.hub binding.inHub operation generation reply id
      ts).mapError (fun _ => RunError.persistence)) with same | ⟨sent, done⟩
  · exact Or.inl same
  · exact Or.inr ⟨sent, mapError_eq_ok_iff.mp done⟩

private theorem publication_enter (host : Host) (task other : Nat) (publication : Publication) :
    (host.enter other publication).publication task =
      if task = other then publication else host.publication task :=
  Function.update_apply ..

/-- An answer is an earlier one, or that of a publication that has just run. -/
theorem answered_step {task : Nat} {sent : Bots.MessageId}
    (answered : (host.step digest move).publication task = .finished (.ok sent)) :
    host.publication task = .finished (.ok sent) ∨
      ∃ id ts fault binding operation generation reply, move = .post task id ts fault ∧
        host.publication task = .posting binding operation generation reply ∧
        Bots.botsPublishSubscription host.hub binding.inHub operation generation reply id ts =
          .ok ((host.step digest move).hub, sent) := by
  cases move with
  | post other id ts fault =>
    simp only [Host.step] at answered ⊢
    split at answered
    · rename_i binding operation generation reply mine
      rw [publication_enter] at answered
      split at answered
      · rename_i same
        subst same
        have done := mapError_eq_ok_iff.mp (ok_of_deliver (Publication.finished.inj answered))
        rw [mine]
        exact Or.inr ⟨id, ts, fault, binding, operation, generation, reply, rfl, rfl, done⟩
      · exact Or.inl answered
    · exact Or.inl answered
  | read other fault =>
    simp only [Host.step] at answered
    split at answered
    · rw [publication_enter] at answered
      split at answered
      · unfold Publication.read at answered
        split at answered <;> cases answered
      · exact Or.inl answered
    · exact Or.inl answered
  | publish other binding operation generation =>
    simp only [Host.step] at answered
    split at answered
    · rw [publication_enter] at answered
      split at answered
      · cases answered
      · exact Or.inl answered
    · exact Or.inl answered
  | crash other =>
    simp only [Host.step, publication_enter] at answered
    split at answered
    · cases answered
    · exact Or.inl answered
  | lookUp call fault =>
    simp only [Host.step] at answered
    split at answered
    · split at answered <;> exact Or.inl answered
    · exact Or.inl answered
  | act | save | transact =>
    simp only [Host.step] at answered
    split at answered <;> exact Or.inl answered
  | persist => exact Or.inl answered

/-- A publication that is about to post was so before, or has just read its reply. -/
theorem posting_step {task : Nat} {binding : Binding} {operation : Uuid} {generation : Nat}
    {reply : Bots.CompletedReply}
    (posting : (host.step digest move).publication task =
      .posting binding operation generation reply) :
    host.publication task = .posting binding operation generation reply ∨
      completed host.runner.journal host.results binding operation = .ok reply := by
  have entered : ∀ (host : Host) (other : Nat) (publication : Publication),
      (host.enter other publication).publication task =
        .posting binding operation generation reply →
      host.publication task = .posting binding operation generation reply ∨
        publication = .posting binding operation generation reply := by
    intro host other publication held
    rw [publication_enter] at held
    split at held
    · exact Or.inr held
    · exact Or.inl held
  cases move with
  | read other fault =>
    simp only [Host.step] at posting
    split at posting
    · rename_i own asked mine _
      rcases entered host other _ posting with kept | now
      · exact Or.inl kept
      · unfold Publication.read at now
        split at now
        · rename_i given answered
          obtain ⟨rfl, rfl, rfl, rfl⟩ := Publication.posting.inj now
          exact Or.inr (ok_of_deliverRead answered)
        · cases now
    · exact Or.inl posting
  | post other id ts fault =>
    simp only [Host.step] at posting
    split at posting
    · exact (entered _ other _ posting).imp_right nofun
    · exact Or.inl posting
  | publish other own asked mine =>
    simp only [Host.step] at posting
    split at posting
    · exact (entered host other _ posting).imp_right nofun
    · exact Or.inl posting
  | crash other => exact (entered host other _ posting).imp_right nofun
  | lookUp call fault =>
    simp only [Host.step] at posting
    split at posting
    · split at posting <;> exact Or.inl posting
    · exact Or.inl posting
  | act | save | transact =>
    simp only [Host.step] at posting
    split at posting <;> exact Or.inl posting
  | persist => exact Or.inl posting

end Steps

end OHHive.Subscription
