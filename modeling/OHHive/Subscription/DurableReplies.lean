import OHHive.Bots.LoopSafety
import OHHive.Subscription.Publishing

/-! Durable replies. The text of an agent's reply is that of the one result its completed turn
names, and storing or publishing it again finds what is there. -/

namespace OHHive.Subscription

open Foundation

section Growth

variable {digest : Envelope → String} {host : Host} {move : HostMove} {journal later : Journal}
  {results more : Results} {binding : Binding} {operation : Uuid}

/-- What no move takes from the host. -/
structure Host.Grows (before after : Host) : Prop where
  journal : before.runner.journal.Keeps after.runner.journal
  results : ∀ row ∈ before.results.rows, row ∈ after.results.rows

theorem grows_step (digest : Envelope → String) (host : Host) (move : HostMove) :
    host.Grows (host.step digest move) := by
  refine ⟨(journal_step digest host move).keeps, ?_⟩
  intro row member
  rcases results_step digest host move with same | ⟨_, _, _, _, _, done⟩
  · rw [same]
    exact member
  · obtain ⟨_, _, _, _, ⟨_, _, _, same, _⟩ | ⟨_, _, inserted, _⟩⟩ := persist_eq_ok_iff.mp done
    · rw [same]
      exact member
    · rw [Table.rows_of_insert? inserted]
      exact List.mem_append_left _ member

theorem grows_at (moves : List HostMove) {first second : Nat} (ordered : first ≤ second) :
    (hostAt digest moves first).Grows (hostAt digest moves second) := by
  apply stateAt_relates (Host.step digest) Host.fresh Host.Grows
  · exact fun host => ⟨.refl _, fun _ member => member⟩
  · exact fun _ _ _ before after => ⟨before.journal.trans after.journal,
      fun row member => after.results row (before.results row member)⟩
  · exact fun host move => grows_step digest host move
  · exact ordered

theorem boundTurn_keeps {turn : Turn} (keeps : journal.Keeps later)
    (bound : boundTurn journal binding operation = .ok turn) :
    ∃ after, boundTurn later binding operation = .ok after ∧ turn.Keeps after := by
  obtain ⟨found, session, stored, same⟩ := boundTurn_eq_ok_iff.mp bound
  obtain ⟨after, foundAfter, kept⟩ := keeps.turns _ turn found
  obtain ⟨row, storedAfter, keptRow⟩ := keeps.sessions _ session stored
  exact ⟨after, boundTurn_eq_ok_iff.mpr ⟨foundAfter, row, storedAfter, keptRow.binding.trans same⟩,
    kept⟩

/-- What a completed turn hands out stays the same for ever. -/
theorem completed_keeps {reply : Bots.CompletedReply} (keeps : journal.Keeps later)
    (grows : ∀ row ∈ results.rows, row ∈ more.rows)
    (read : completed journal results binding operation = .ok reply) :
    completed later more binding operation = .ok reply := by
  obtain ⟨row, turn, found, same, bound, record⟩ := completed_eq_ok_iff.mp read
  obtain ⟨member, key⟩ := result?_eq_some_iff.mp found
  obtain ⟨after, boundAfter, kept⟩ := boundTurn_keeps keeps bound
  have terminal : turn.state.isPending = false := by
    rw [Turn.state, record]
    rfl
  refine completed_eq_ok_iff.mpr ⟨row, after, ?_, same, boundAfter, ?_⟩
  · exact result?_eq_some_iff.mpr ⟨grows row member, key⟩
  · rw [kept.terminal terminal, record]

/-- The results are of acknowledged turns, and a publication carries what is completed. -/
structure Host.Sound (host : Host) : Prop where
  stored : ∀ row ∈ host.results.rows, row.reply.Storable ∧
    ∃ turn, host.runner.journal.turn? row.key = some turn ∧
      turn.record.providerTurn = some row.providerTurn
  posting : ∀ task binding operation generation reply,
    host.publication task = .posting binding operation generation reply →
    completed host.runner.journal host.results binding operation = .ok reply

theorem sound_step (sound : host.Sound) (move : HostMove) : (host.step digest move).Sound := by
  have grows := grows_step digest host move
  constructor
  · intro row member
    have known : row.reply.Storable ∧ ∃ turn, host.runner.journal.turn? row.key = some turn ∧
        turn.record.providerTurn = some row.providerTurn := by
      rcases results_step digest host move with same | ⟨_, _, reply, _, _, done⟩
      · exact sound.stored row (same ▸ member)
      · obtain ⟨storable, turn, bound, acknowledged, ⟨_, _, _, same, _⟩ | ⟨_, _, inserted, _⟩⟩ :=
          persist_eq_ok_iff.mp done
        · exact sound.stored row (same ▸ member)
        · rw [Table.rows_of_insert? inserted] at member
          rcases List.mem_append.mp member with old | new
          · exact sound.stored row old
          · obtain rfl := List.mem_singleton.mp new
            exact ⟨storable, turn, (boundTurn_eq_ok_iff.mp bound).1, acknowledged⟩
    obtain ⟨storable, turn, found, acknowledged⟩ := known
    obtain ⟨after, foundAfter, kept⟩ := grows.journal.turns _ turn found
    exact ⟨storable, after, foundAfter, kept.provider _ acknowledged⟩
  · intro task binding operation generation reply posting
    apply completed_keeps grows.journal grows.results
    rcases posting_step posting with before | read
    · exact sound.posting task binding operation generation reply before
    · exact read

theorem hostSound_at (moves : List HostMove) (moment : Nat) : (hostAt digest moves moment).Sound :=
  stateAt_invariant (Host.step digest) Host.fresh moves Host.Sound
    ⟨fun _ member => (nomatch member), fun _ _ _ _ _ posting => (nomatch posting)⟩
    (fun _ move _ sound => sound_step sound move) moment

end Growth

section Replays

variable {digest : Envelope → String} {host : Host} {row : StoredResult} {binding : Binding}
  {operation : Uuid}

/-- Beside a stored result only the same reply is taken, and it is answered with its receipt. -/
theorem Host.Sound.persist_eq_ok_iff {reply : ProviderReply} {receipt : Uuid} {next : Results}
    {answer : String} (sound : host.Sound) (member : row ∈ host.results.rows)
    (key : row.key = ⟨binding.session, operation⟩) :
    persist host.runner.journal host.results binding operation reply receipt = .ok (next, answer) ↔
      next = host.results ∧ answer = row.receipt ∧ reply = row.reply ∧
        ∃ turn, boundTurn host.runner.journal binding operation = .ok turn := by
  have found : host.results.result? ⟨binding.session, operation⟩ = some row :=
    result?_eq_some_iff.mpr ⟨member, key⟩
  constructor
  · intro done
    obtain ⟨_, turn, bound, _, ⟨old, existing, same, rfl, rfl⟩ | ⟨absent, _⟩⟩ :=
      Subscription.persist_eq_ok_iff.mp done
    · obtain rfl := Option.some.inj (found.symm.trans existing)
      exact ⟨rfl, rfl, same.symm, turn, bound⟩
    · rw [found] at absent
      cases absent
  · rintro ⟨rfl, rfl, rfl, turn, bound⟩
    obtain ⟨storable, stored, present, acknowledged⟩ := sound.stored row member
    have same : stored = turn := by
      rw [key, (boundTurn_eq_ok_iff.mp bound).1] at present
      exact (Option.some.inj present).symm
    subst same
    exact Subscription.persist_eq_ok_iff.mpr
      ⟨storable, stored, bound, acknowledged, Or.inl ⟨row, found, rfl, rfl, rfl⟩⟩

/-- A completed turn takes the outcome it has, from its current writer, and no other. -/
theorem finish_eq_ok_iff {journal next : Journal} {lease : Lease} {turn : Turn}
    {providerTurn receipt given answer : String} {succeeded : Bool} {now : Int}
    (found : journal.turn? ⟨lease.session, operation⟩ = some turn)
    (record : turn.record = ⟨.completed, some providerTurn, some receipt⟩) :
    journal.finish lease operation given answer succeeded now = .ok (next, ()) ↔
      next = journal ∧ given = providerTurn ∧ answer = receipt ∧ succeeded = true ∧
        journal.Current lease now ∧ Journal.checkReference providerTurn = .ok () ∧
        Journal.checkReference receipt = .ok () := by
  have read : journal.read ⟨lease.session, operation⟩ = .ok turn.record := by
    rw [Journal.read, found]
    rfl
  simp only [Journal.finish, bind_eq_ok_iff, exists_const, fence_eq_ok_iff, read,
    require_eq_ok_iff]
  constructor
  · rintro ⟨_, validTurn, _, validReceipt, current, _, given, same, body⟩
    obtain rfl := Except.ok.inj given
    split at body
    · rename_i equal
      rw [record] at equal
      obtain ⟨state, turned, receipts⟩ := (TurnRecord.mk.injEq ..).mp equal
      obtain rfl := Option.some.inj turned
      obtain rfl := Option.some.inj receipts
      obtain ⟨rfl, _⟩ := Prod.mk.inj (pure_eq_ok_iff.mp body)
      cases succeeded with
      | true => exact ⟨rfl, rfl, rfl, rfl, current, validTurn, validReceipt⟩
      | false => cases state
    · simp only [bind_eq_ok_iff, require_eq_ok_iff, exists_const] at body
      rw [record] at body
      cases body.1
  · rintro ⟨rfl, rfl, rfl, rfl, current, validTurn, validReceipt⟩
    refine ⟨(), validTurn, (), validReceipt, current, turn.record, rfl, ?_, ?_⟩
    · rw [record]
      simp [TurnRecord.otherTurn]
    · change (if turn.record = ⟨.completed, some given, some answer⟩ then _ else _) = _
      rw [if_pos record]
      rfl

end Replays

section Runs

/-- A publication ran at this moment, and stored or found its reply. Its caller may have crashed
since, or never heard of it. -/
def PublishedAt (digest : Envelope → String) (moves : List HostMove) (moment : Nat)
    (binding : Binding) (operation : Uuid) (generation : Nat) (reply : Bots.CompletedReply)
    (id : Bots.MessageId) : Prop :=
  ∃ task fresh ts fault, moves[moment]? = some (.post task fresh ts fault) ∧
    (hostAt digest moves moment).publication task = .posting binding operation generation reply ∧
    Bots.botsPublishSubscription (hostAt digest moves moment).hub binding.inHub operation generation
      reply fresh ts = .ok ((hostAt digest moves (moment + 1)).hub, id)

/-- The one result of the operation, and its completed turn. -/
structure Host.Outcome (host : Host) (binding : Binding) (operation : Uuid) (row : StoredResult) :
    Prop where
  stored : row ∈ host.results.rows
  key : row.key = ⟨binding.session, operation⟩
  single : ∀ other ∈ host.results.rows, other.key = row.key ∨ other.receipt = row.receipt →
    other = row
  turn : ∃ turn, host.runner.journal.turn? row.key = some turn ∧
    turn.record = ⟨.completed, some row.providerTurn, some row.receipt⟩

variable {digest : Envelope → String} {moves : List HostMove} {binding : Binding}
  {operation : Uuid} {generation : Nat} {reply : Bots.CompletedReply} {id : Bots.MessageId}
  {moment later : Nat}

theorem outcome_of_completed {host : Host}
    (read : completed host.runner.journal host.results binding operation = .ok reply) :
    ∃ row, host.Outcome binding operation row ∧ row.completedReply = reply := by
  obtain ⟨row, turn, found, same, bound, record⟩ := completed_eq_ok_iff.mp read
  obtain ⟨member, key⟩ := result?_eq_some_iff.mp found
  refine ⟨row, ⟨member, key, ?_, turn, ?_, record⟩, same⟩
  · intro other stored alike
    exact host.results.eq_of_clash (fun _ _ => StoredResult.Clash.symm) stored member alike
  · rw [key]
    exact (boundTurn_eq_ok_iff.mp bound).1

theorem PublishedAt.completed_at
    (published : PublishedAt digest moves moment binding operation generation reply id)
    (ordered : moment ≤ later) :
    completed (hostAt digest moves later).runner.journal (hostAt digest moves later).results
      binding operation = .ok reply := by
  obtain ⟨task, _, _, _, _, posting, _⟩ := published
  have grows : (hostAt digest moves moment).Grows (hostAt digest moves later) :=
    grows_at moves ordered
  exact completed_keeps grows.journal grows.results
    ((hostSound_at moves moment).posting task binding operation generation reply posting)

theorem PublishedAt.published_at
    (published : PublishedAt digest moves moment binding operation generation reply id)
    (ordered : moment < later) :
    (hostAt digest moves later).hub.Published binding.inHub operation generation reply id := by
  obtain ⟨_, _, _, _, _, _, done⟩ := published
  refine holds_from (fun moment => (hostAt digest moves moment).hub.Published binding.inHub
    operation generation reply id) ?_ ordered (Bots.published_of_publish done)
  intro moment held
  rcases stateAt_next (Host.step digest) Host.fresh moves moment with ⟨move, _, next⟩ | ⟨_, next⟩
  · rw [hostAt, next]
    rcases hub_step digest (hostAt digest moves moment) move with same | ⟨op, stepped⟩
    · rw [same]
      exact held
    · rw [stepped]
      exact held.step op
  · rw [hostAt, next]
    exact held

/-- Every answer that a publication was ever given is that of a publication of the run. -/
theorem publishedAt_of_answered {task : Nat}
    (answered : (hostAt digest moves moment).publication task = .finished (.ok id)) :
    ∃ earlier binding operation generation reply, earlier < moment ∧
      PublishedAt digest moves earlier binding operation generation reply id := by
  induction moment with
  | zero => cases answered
  | succ moment ih =>
    rcases stateAt_next (Host.step digest) Host.fresh moves moment with
      ⟨move, present, next⟩ | ⟨_, next⟩
    · rw [hostAt, next] at answered
      rcases answered_step answered with before |
        ⟨fresh, ts, fault, binding, operation, generation, reply, rfl, posting, done⟩
      · obtain ⟨earlier, binding, operation, generation, reply, ordered, published⟩ := ih before
        exact ⟨earlier, binding, operation, generation, reply, by omega, published⟩
      · refine ⟨moment, binding, operation, generation, reply, Nat.lt_succ_self _, task, fresh, ts,
          fault, present, posting, ?_⟩
        exact (congrArg Host.hub next) ▸ done
    · rw [hostAt, next] at answered
      obtain ⟨earlier, binding, operation, generation, reply, ordered, published⟩ := ih answered
      exact ⟨earlier, binding, operation, generation, reply, by omega, published⟩

/-- The promises of one run. -/
structure DurableReplies (digest : Envelope → String) (moves : List HostMove) : Prop where
  posted : ∀ moment task fresh ts fault binding operation generation reply,
    moves[moment]? = some (.post task fresh ts fault) →
    (hostAt digest moves moment).publication task = .posting binding operation generation reply →
    (hostAt digest moves (moment + 1)).hub = (hostAt digest moves moment).hub ∨
      ∃ id, PublishedAt digest moves moment binding operation generation reply id
  answered : ∀ moment task id,
    (hostAt digest moves moment).publication task = .finished (.ok id) →
    ∃ earlier binding operation generation reply, earlier < moment ∧
      PublishedAt digest moves earlier binding operation generation reply id
  faithful : ∀ moment binding operation generation reply id,
    PublishedAt digest moves moment binding operation generation reply id →
    ∀ later, moment < later → ∃ row, (hostAt digest moves later).Outcome binding operation row ∧
      ∃ incoming message, (hostAt digest moves later).hub.message? operation = some incoming ∧
        (hostAt digest moves later).hub.message? id = some message ∧
        message.Carries binding.inHub operation row.completedReply
          (incoming.threadRoot.getD operation)
  republished : ∀ moment binding operation generation reply id,
    PublishedAt digest moves moment binding operation generation reply id →
    ∀ later, moment < later →
      completed (hostAt digest moves later).runner.journal (hostAt digest moves later).results
        binding operation = .ok reply ∧
      ∀ other : Bots.Binding, other.conversation = binding.conversation →
        other.agent = binding.agent → ∀ again given fresh ts next answer,
        Bots.botsPublishSubscription (hostAt digest moves later).hub other operation again given
          fresh ts = .ok (next, answer) ↔
        next = (hostAt digest moves later).hub ∧ answer = id ∧ other.session = binding.session ∧
          again = generation ∧ given = reply ∧ (hostAt digest moves later).hub.MayPublish other
  persisted : ∀ moment, ∀ row ∈ (hostAt digest moves moment).results.rows,
    ∀ binding operation, row.key = ⟨binding.session, operation⟩ → ∀ reply fresh next receipt,
    persist (hostAt digest moves moment).runner.journal (hostAt digest moves moment).results binding
      operation reply fresh = .ok (next, receipt) ↔
    next = (hostAt digest moves moment).results ∧ receipt = row.receipt ∧ reply = row.reply ∧
      ∃ turn, boundTurn (hostAt digest moves moment).runner.journal binding operation = .ok turn
  loaded : ∀ moment binding operation answer,
    load (hostAt digest moves moment).runner.journal (hostAt digest moves moment).results binding
      operation = .ok answer →
    ∀ saved ∈ answer, ∃ row ∈ (hostAt digest moves moment).results.rows,
      row.key = ⟨binding.session, operation⟩ ∧ saved = row.reply
  acknowledged : ∀ moment binding operation reply fresh next receipt,
    persist (hostAt digest moves moment).runner.journal (hostAt digest moves moment).results binding
      operation reply fresh = .ok (next, receipt) →
    ∃ turn, (hostAt digest moves moment).runner.journal.turn? ⟨binding.session, operation⟩ =
      some turn ∧ turn.record.providerTurn = some reply.turnId
  saved : ∀ moment,
    (hostAt digest moves (moment + 1)).results = (hostAt digest moves moment).results ∨
      ∃ binding operation reply fresh receipt,
        persist (hostAt digest moves moment).runner.journal (hostAt digest moves moment).results
          binding operation reply fresh =
            .ok ((hostAt digest moves (moment + 1)).results, receipt)
  kept : ∀ moment later, moment ≤ later → ∀ row ∈ (hostAt digest moves moment).results.rows,
    row ∈ (hostAt digest moves later).results.rows
  finished : ∀ moment lease operation turn providerTurn receipt,
    (hostAt digest moves moment).runner.journal.turn? ⟨lease.session, operation⟩ = some turn →
    turn.record = ⟨.completed, some providerTurn, some receipt⟩ →
    ∀ given answer succeeded now next,
    (hostAt digest moves moment).runner.journal.finish lease operation given answer succeeded now =
      .ok (next, ()) ↔
    next = (hostAt digest moves moment).runner.journal ∧ given = providerTurn ∧ answer = receipt ∧
      succeeded = true ∧ (hostAt digest moves moment).runner.journal.Current lease now ∧
      Journal.checkReference providerTurn = .ok () ∧ Journal.checkReference receipt = .ok ()

/-- Whatever crashes and whoever publishes, a reply in the hub is the one result of its completed
turn; what is saved or published again is found as it is, or refused. -/
theorem durable_replies (digest : Envelope → String) (moves : List HostMove) :
    DurableReplies digest moves where
  posted moment task fresh ts fault binding operation generation reply present posting := by
    have next : hostAt digest moves (moment + 1) = (hostAt digest moves moment).step digest _ :=
      stateAt_succ (Host.step digest) Host.fresh present
    rcases posted_step posting with same | ⟨id, done⟩
    · exact Or.inl (next ▸ same)
    · exact Or.inr ⟨id, task, fresh, ts, fault, present, posting, next ▸ done⟩
  answered moment task id := publishedAt_of_answered
  faithful moment binding operation generation reply id published later ordered := by
    obtain ⟨row, outcome, rfl⟩ := outcome_of_completed (published.completed_at ordered.le)
    obtain ⟨_, _, incoming, message, asked, _, stored, carries⟩ := published.published_at ordered
    exact ⟨row, outcome, incoming, message, asked, stored, carries⟩
  republished moment binding operation generation reply id published later ordered := by
    refine ⟨published.completed_at ordered.le, ?_⟩
    intro other room agent again given fresh ts next answer
    exact (published.published_at ordered).publish_eq_ok_iff room agent
  persisted moment row member binding operation key reply fresh next receipt :=
    (hostSound_at moves moment).persist_eq_ok_iff member key
  loaded moment binding operation answer done saved given := by
    obtain ⟨_, rfl⟩ := load_eq_ok_iff.mp done
    obtain ⟨row, found, rfl⟩ := Option.map_eq_some_iff.mp given
    obtain ⟨member, key⟩ := result?_eq_some_iff.mp found
    exact ⟨row, member, key, rfl⟩
  acknowledged moment binding operation reply fresh next receipt done := by
    obtain ⟨_, turn, bound, same, _⟩ := persist_eq_ok_iff.mp done
    exact ⟨turn, (boundTurn_eq_ok_iff.mp bound).1, same⟩
  saved moment := by
    rcases stateAt_next (Host.step digest) Host.fresh moves moment with ⟨move, _, next⟩ | ⟨_, next⟩
    · rw [hostAt, next]
      exact results_step digest _ move
    · exact Or.inl (congrArg Host.results next)
  kept moment later ordered := (grows_at moves ordered).results
  finished moment lease operation turn providerTurn receipt found record given answer succeeded now
      next := finish_eq_ok_iff found record

end Runs

section Revocation

/-- A room of its owner and one subscription agent, at a revision of its policy. -/
def subscriptionRoom (revision : Nat) : Bots.Op :=
  .administer
    ⟨[{ Bots.roomProfile 1 with
        runtimeKind := .copilotSubscription, preferredHost := some 3,
        providerAccountRef := some 4 }], List.pairwise_singleton _ _⟩
    ⟨[{ id := 0, owner := 0, policyRevision := revision }], List.pairwise_singleton _ _⟩
    ⟨[Bots.roomMember (.user 0), Bots.roomMember (.agent 1)], by decide⟩

def roomBinding : Binding :=
  { session := 5, owner := 0, host := 3, agent := 1, conversation := 0, account := 4,
    provider := .copilot, workspace := 6, policyRevision := "1" }

def roomLease : Lease := ⟨5, 7, 1⟩

/-- A turn is sent, completed and published; then the policy of its room is revised. -/
def revisedRoom : List HostMove :=
  [.transact (subscriptionRoom 1),
    .transact (.send (Bots.ownerMessage [1]) 10 0),
    .transact (.claim ⟨10, 1⟩ 0),
    .act (.other (.acquire roomBinding 7 300) 0 .none),
    .act (.other (.prepare roomLease 10 (String.ofList (List.replicate 64 'a'))) 1 .none),
    .act (.other (.markDispatched roomLease 10) 2 .none),
    .act (.other (.acknowledge roomLease 10 "turn") 3 .none),
    .persist roomBinding 10 ⟨"turn", "answer"⟩ 20 .none,
    .act (.other (.finish roomLease 10 "turn" "20" true) 4 .none),
    .publish 0 roomBinding 10 1,
    .read 0 .none,
    .post 0 11 5 .none,
    .transact (subscriptionRoom 2)]

/-- Under a revised policy the binding no longer publishes, not even what it has published. -/
theorem republished_not_unconditional :
    ¬ ∀ digest moves moment binding operation generation reply id,
      PublishedAt digest moves moment binding operation generation reply id →
      ∀ later, moment < later → ∀ fresh ts,
        Bots.botsPublishSubscription (hostAt digest moves later).hub binding.inHub operation
          generation reply fresh ts = .ok ((hostAt digest moves later).hub, id) := by
  intro always
  have published : PublishedAt (fun _ => "") revisedRoom 11 roomBinding 10 1
      ⟨"answer", "turn", "20"⟩ 11 := by
    refine ⟨0, 11, 5, .none, rfl, rfl, ?_⟩
    rfl
  have again := always _ _ _ _ _ _ _ _ published 13 (by decide) 12 6
  have refused : (failure? (Bots.botsPublishSubscription
      (hostAt (fun _ => "") revisedRoom 13).hub roomBinding.inHub 10 1
      ⟨"answer", "turn", "20"⟩ 12 6)).isSome = true := by decide +kernel
  rw [again] at refused
  cases refused

end Revocation

end OHHive.Subscription
