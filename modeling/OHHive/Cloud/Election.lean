import OHHive.Cloud.Ledger
import OHHive.Foundation.ReadCommitted
import OHHive.Foundation.Sha256

/-! Coordinator election: the lease row, the two functions that write it, and what one commit of
either can do to it. -/

namespace OHHive.Cloud

open Foundation

section Tables

/-- `regional_servers.tier`. -/
inductive Tier where
  | primary
  | standby
deriving DecidableEq, Repr

/-- A row of `node_keys`. -/
structure NodeKey where
  nodeId : NodeId
  keyHash : Text
  revokedAt : Option Time
deriving DecidableEq, Repr

/-- A row of `regional_servers`. -/
structure RegionalServer where
  nodeId : NodeId
  tier : Tier
  publicUrl : Option String
deriving DecidableEq, Repr

/-- The rows that an election reads and leaves alone. -/
structure Directory where
  keys : Table NodeKey (Table.SameKey NodeKey.keyHash)
  servers : Table RegionalServer (Table.SameKey RegionalServer.nodeId)
  displayName : NodeId → Option String

/-- `encode(digest(raw_key::bytea, 'sha256'), 'hex')`. -/
def keyHash (rawKey : Text) : Text := Sha256.digest (rawKey.flatMap String.utf8EncodeChar)

/-- The node of a key that is not revoked, by the key's hash. -/
def Directory.nodeOfHash (directory : Directory) (hash : Text) : Option NodeId :=
  (directory.keys.lookup hash).bind fun key =>
    if key.revokedAt.isNone then some key.nodeId else none

/-- The node that `verify_node_key` gives for a key. -/
def Directory.nodeOf (directory : Directory) (rawKey : Text) : Option NodeId :=
  directory.nodeOfHash (keyHash rawKey)

def Directory.tierOf (directory : Directory) (node : NodeId) : Option Tier :=
  (directory.servers.lookup node).map RegionalServer.tier

/-- The single row of `coordinator_lease`. -/
structure CoordinatorLease where
  nodeId : Option NodeId
  expiresAt : Option Time
  acquiredAt : Option Time
  generation : Nat
deriving DecidableEq, Repr

/-- The row as the schema inserts it. -/
def CoordinatorLease.initial : CoordinatorLease := ⟨none, none, none, 0⟩

end Tables

section Calls

/-- A call of an election function, in a transaction that began at `now`. -/
inductive ElectionCall where
  | coordinatorTry (ticket : Nat) (rawKey : Text) (ttlSeconds : Int) (now : Time)
  | coordinatorRelease (ticket : Nat) (rawKey : Text) (now : Time)
deriving DecidableEq, Repr

/-- Which request of a server this is. -/
def ElectionCall.ticket : ElectionCall → Nat
  | .coordinatorTry ticket .. => ticket
  | .coordinatorRelease ticket .. => ticket

def ElectionCall.rawKey : ElectionCall → Text
  | .coordinatorTry _ rawKey .. => rawKey
  | .coordinatorRelease _ rawKey _ => rawKey

def ElectionCall.now : ElectionCall → Time
  | .coordinatorTry _ _ _ now => now
  | .coordinatorRelease _ _ now => now

/-- What a call answers. -/
inductive ElectionReply where
  | tried (coordinator : Bool) (holder : Option NodeId) (holderName holderUrl : Option String)
      (expiresAt : Option Time) (generation : Nat)
  | released (released : Bool)
deriving DecidableEq, Repr

/-- An answer, with the call that it is for. -/
structure ElectionAnswer where
  call : ElectionCall
  reply : ElectionReply
deriving DecidableEq, Repr

/-- The committed rows, and what the committed calls answered. -/
structure ElectionDb where
  directory : Directory
  lease : CoordinatorLease
  answers : List ElectionAnswer

/-- The rows that an election locks. -/
inductive ElectionRow where
  | nodeKey (hash : Text)
  | lease
deriving DecidableEq, Repr

/-- `make_interval(secs => seconds)`. -/
def seconds (count : Int) : Time := count * 1000000

/-- How long after its expiry a lease is left to its holder. -/
def Tier.grace : Tier → Time
  | .primary => 0
  | .standby => seconds 30

end Calls

section Functions

abbrev ElectionProgram := Program ElectionDb ElectionRow

/-- `verify_node_key`: the update finds the row of a live key, and locks it. -/
def verifyNodeKey (rawKey : Text) : ElectionProgram (Option NodeId) :=
  .selectForUpdate (.nodeKey (keyHash rawKey)) fun db => db.directory.nodeOf rawKey

/-- The holder keeps the lease. -/
def CoordinatorLease.renewed (lease : CoordinatorLease) (now : Time) (ttlSeconds : Int) :
    CoordinatorLease :=
  { lease with expiresAt := some (now + seconds ttlSeconds) }

/-- The lease goes to another node. -/
def CoordinatorLease.takenBy (lease : CoordinatorLease) (node : NodeId) (now : Time)
    (ttlSeconds : Int) : CoordinatorLease where
  nodeId := some node
  expiresAt := some (now + seconds ttlSeconds)
  acquiredAt := some now
  generation := lease.generation + 1

/-- `l.node_id is null or l.expires_at is null or l.expires_at < now() - …`. -/
def CoordinatorLease.isFree (lease : CoordinatorLease) (tier : Tier) (now : Time) : Bool :=
  lease.nodeId.isNone || lease.expiresAt.all fun expiresAt => expiresAt < now - tier.grace

def setLease (change : CoordinatorLease → CoordinatorLease) : ElectionProgram Unit :=
  .perform fun db => { db with lease := change db.lease }

/-- The answer goes out with the commit. -/
def answer (call : ElectionCall) (reply : ElectionReply) : ElectionProgram Unit :=
  .perform fun db => { db with answers := db.answers ++ [⟨call, reply⟩] }

/-- The decision under the lock of the row: whether the caller has won. -/
def contend (l : CoordinatorLease) (nid : NodeId) (tier : Tier) (ttlSeconds : Int) (now : Time) :
    ElectionProgram Bool :=
  if l.nodeId = some nid then do
    setLease fun lease => lease.renewed now ttlSeconds
    return true
  else if l.isFree tier now then do
    setLease fun lease => lease.takenBy nid now ttlSeconds
    return true
  else return false

/-- The lease row as a call leaves it, with the holder's name and address. -/
def report (ticket : Nat) (rawKey : Text) (ttlSeconds : Int) (now : Time) (won : Bool) :
    ElectionProgram Unit := do
  let l ← .ask ElectionDb.lease
  let holderName ← .ask fun db => l.nodeId.bind db.directory.displayName
  let holderUrl ← .ask fun db =>
    (l.nodeId.bind db.directory.servers.lookup).bind RegionalServer.publicUrl
  answer (.coordinatorTry ticket rawKey ttlSeconds now)
    (.tried won l.nodeId holderName holderUrl l.expiresAt l.generation)

/-- `hive.coordinator_try`. -/
def coordinatorTry (ticket : Nat) (rawKey : Text) (ttlSeconds : Int) (now : Time) :
    ElectionProgram Unit := do
  let nid ← .orRaise (← verifyNodeKey rawKey)
  let tier ← .orRaise (← .ask fun db => db.directory.tierOf nid)
  let l ← .selectLocked .lease ElectionDb.lease
  let won ← contend l nid tier ttlSeconds now
  report ticket rawKey ttlSeconds now won

/-- `hive.coordinator_release`. -/
def coordinatorRelease (ticket : Nat) (rawKey : Text) (now : Time) : ElectionProgram Unit := do
  let nid ← .orRaise (← verifyNodeKey rawKey)
  let held ← .selectForUpdate .lease fun db =>
    if db.lease.nodeId = some nid then some () else none
  if held.isSome then
    setLease fun lease => { lease with expiresAt := some now }
  answer (.coordinatorRelease ticket rawKey now) (.released held.isSome)

/-- What a call runs. -/
def ElectionCall.program : ElectionCall → ElectionProgram Unit
  | .coordinatorTry ticket rawKey ttlSeconds now =>
    Cloud.coordinatorTry ticket rawKey ttlSeconds now
  | .coordinatorRelease ticket rawKey now => Cloud.coordinatorRelease ticket rawKey now

end Functions

section Commits

/-- What a commit of a call does to the lease, and what it answers. -/
inductive Settles (directory : Directory) :
    ElectionCall → CoordinatorLease → CoordinatorLease → ElectionReply → Prop
  | renewed {ticket : Nat} {rawKey : Text} {ttlSeconds : Int} {now : Time} {nid : NodeId}
      {lease : CoordinatorLease} {holderName holderUrl : Option String}
      (verified : directory.nodeOf rawKey = some nid) (holds : lease.nodeId = some nid) :
      Settles directory (.coordinatorTry ticket rawKey ttlSeconds now) lease
        (lease.renewed now ttlSeconds)
        (.tried true (some nid) holderName holderUrl (some (now + seconds ttlSeconds))
          lease.generation)
  | taken {ticket : Nat} {rawKey : Text} {ttlSeconds : Int} {now : Time} {nid : NodeId}
      {tier : Tier} {lease : CoordinatorLease} {holderName holderUrl : Option String}
      (verified : directory.nodeOf rawKey = some nid)
      (registered : directory.tierOf nid = some tier) (other : lease.nodeId ≠ some nid)
      (free : lease.isFree tier now) :
      Settles directory (.coordinatorTry ticket rawKey ttlSeconds now) lease
        (lease.takenBy nid now ttlSeconds)
        (.tried true (some nid) holderName holderUrl (some (now + seconds ttlSeconds))
          (lease.generation + 1))
  | refused {ticket : Nat} {rawKey : Text} {ttlSeconds : Int} {now : Time}
      {lease : CoordinatorLease} {holderName holderUrl : Option String} :
      Settles directory (.coordinatorTry ticket rawKey ttlSeconds now) lease lease
        (.tried false lease.nodeId holderName holderUrl lease.expiresAt lease.generation)
  | released {ticket : Nat} {rawKey : Text} {now : Time} {nid : NodeId} {lease : CoordinatorLease}
      (verified : directory.nodeOf rawKey = some nid) (holds : lease.nodeId = some nid) :
      Settles directory (.coordinatorRelease ticket rawKey now) lease
        { lease with expiresAt := some now } (.released true)
  | unheld {ticket : Nat} {rawKey : Text} {now : Time} {lease : CoordinatorLease} :
      Settles directory (.coordinatorRelease ticket rawKey now) lease lease (.released false)

/-- Whoever has locked the lease finds it as it was. -/
def election : Discipline ElectionDb ElectionRow ElectionCall where
  invariant _ := True
  makes _ := True
  timely _ _ := True
  compatible _ _ _ _ _ := True
  ensures call before after := after.directory = before.directory ∧ ∃ reply,
    after.answers = before.answers ++ [⟨call, reply⟩] ∧
    Settles before.directory call before.lease after.lease reply
  rely _ locks before after := after.directory = before.directory ∧
    (.lease ∈ locks → after.lease = before.lease)
  counts row := row = .lease
  refl _ _ _ := ⟨rfl, fun _ => rfl⟩
  trans _ _ _ _ _ early late :=
    ⟨late.1.trans early.1, fun held => (late.2 held).trans (early.2 held)⟩
  weaken _ _ _ _ _ kept relied := ⟨relied.1, fun held => relied.2 (kept .lease held rfl)⟩

variable {call : ElectionCall} {locks : List ElectionRow} {store seen : ElectionDb}
  {change : ElectionDb → ElectionDb}

/-- After `verify_node_key` a call has changed nothing, and knows the node of its key. -/
theorem wp_verifyNodeKey {rawKey : Text}
    {post : Option NodeId → Position ElectionDb ElectionRow → Prop}
    (unknown : ∀ locks seen, post none ⟨locks, id, seen⟩)
    (known : ∀ nid locks seen, seen.directory.nodeOf rawKey = some nid →
      post (some nid) ⟨locks, id, seen⟩) :
    election.wp call post (verifyNodeKey rawKey) ⟨[], id, store⟩ := by
  refine Discipline.wp_selectForUpdate.mpr fun found _ => ⟨fun _ => unknown _ _, ?_⟩
  intro _ locked _
  cases verified : locked.directory.nodeOf rawKey with
  | none => exact verified ▸ unknown _ _
  | some nid => exact verified ▸ known nid _ _ verified

/-- A call that has locked the lease, or leaves it alone, may commit. -/
theorem commits_of_settles {reply : ElectionReply}
    (directory : ∀ store, (change store).directory = store.directory)
    (answers : ∀ store, (change store).answers = store.answers ++ [⟨call, reply⟩])
    (quiet : .lease ∈ locks ∨ ∀ store, (change store).lease = store.lease)
    (settles : ∀ store, store.directory = seen.directory →
      (.lease ∈ locks → store.lease = seen.lease) →
      Settles store.directory call store.lease (change store).lease reply) :
    election.Commits call ⟨locks, change, seen⟩ := by
  intro store later _
  refine ⟨trivial, ⟨directory store, reply, answers store, ?_⟩, ?_⟩
  · exact settles store later.2.1 later.2.2
  · intro other others apart _
    refine ⟨directory store, fun theirs => ?_⟩
    rcases quiet with mine | unchanged
    · exact absurd theirs (apart mine)
    · exact unchanged store

variable {ticket : Nat} {rawKey : Text} {ttlSeconds : Int} {now : Time}

/-- Nobody comes between the update of the lease and the reply. -/
theorem wp_report {won : Bool} {update : CoordinatorLease → CoordinatorLease}
    (held : .lease ∈ locks)
    (settles : ∀ holderName holderUrl, Settles seen.directory
      (.coordinatorTry ticket rawKey ttlSeconds now) seen.lease (update seen.lease)
      (.tried won (update seen.lease).nodeId holderName holderUrl (update seen.lease).expiresAt
        (update seen.lease).generation)) :
    election.wp (.coordinatorTry ticket rawKey ttlSeconds now)
      (fun _ => election.Commits (.coordinatorTry ticket rawKey ttlSeconds now))
      (report ticket rawKey ttlSeconds now won)
      ⟨locks, fun db => { db with lease := update db.lease }, seen⟩ := by
  simp only [report, Program.bind_eq, Discipline.wp_bind, Discipline.wp_ask]
  intro first early second middle third late
  have directory : third.directory = seen.directory :=
    late.2.1.trans (middle.2.1.trans early.2.1)
  have lease : third.lease = seen.lease :=
    (late.2.2 held).trans ((middle.2.2 held).trans (early.2.2 held))
  refine commits_of_settles (fun _ => rfl) (fun _ => rfl) (Or.inl held) ?_
  intro store sameDirectory sameLease
  have before : first.lease = seen.lease := early.2.2 held
  show Settles store.directory _ store.lease (update store.lease)
    (.tried won (update first.lease).nodeId _ _ (update first.lease).expiresAt
      (update first.lease).generation)
  rw [sameDirectory, directory, sameLease held, lease, before]
  exact settles _ _

/-- Under the lock of the row, the decision and the update are one. -/
theorem wp_contend {nid : NodeId} {tier : Tier} (held : .lease ∈ locks)
    (verified : seen.directory.nodeOf rawKey = some nid)
    (registered : seen.directory.tierOf nid = some tier) :
    election.wp (.coordinatorTry ticket rawKey ttlSeconds now)
      (fun won => election.wp (.coordinatorTry ticket rawKey ttlSeconds now)
        (fun _ => election.Commits (.coordinatorTry ticket rawKey ttlSeconds now))
        (report ticket rawKey ttlSeconds now won))
      (contend seen.lease nid tier ttlSeconds now) ⟨locks, id, seen⟩ := by
  unfold contend
  by_cases holds : seen.lease.nodeId = some nid
  · rw [if_pos holds]
    apply @wp_report locks seen ticket rawKey ttlSeconds now true
      (fun lease => lease.renewed now ttlSeconds) held
    intro holderName holderUrl
    have settled := @Settles.renewed seen.directory ticket rawKey ttlSeconds now nid seen.lease
      holderName holderUrl verified holds
    rw [← holds] at settled
    exact settled
  · rw [if_neg holds]
    by_cases free : seen.lease.isFree tier now
    · rw [if_pos free]
      exact @wp_report locks seen ticket rawKey ttlSeconds now true
        (fun lease => lease.takenBy nid now ttlSeconds) held
        fun _ _ => .taken verified registered holds free
    · rw [if_neg free]
      exact @wp_report locks seen ticket rawKey ttlSeconds now false id held
        fun _ _ => .refused

theorem safe_coordinatorTry (ticket : Nat) (rawKey : Text) (ttlSeconds : Int) (now : Time) :
    election.Safe (.coordinatorTry ticket rawKey ttlSeconds now)
      (coordinatorTry ticket rawKey ttlSeconds now) ⟨[], id, store⟩ := by
  refine Discipline.wp_bind.mpr ?_
  apply wp_verifyNodeKey
  · intro locks seen
    exact Discipline.wp_bind.mpr (Discipline.wp_orRaise.mpr fun _ absent => nomatch absent)
  intro nid locks seen verified
  simp only [Program.bind_eq, Discipline.wp_bind, Discipline.wp_orRaise, Option.some.injEq,
    forall_eq', Discipline.wp_ask, Discipline.wp_selectLocked]
  intro asked early tier registered locked late
  have directory : locked.directory = asked.directory := late.2.1
  refine wp_contend List.mem_cons_self ?_ (directory ▸ registered)
  show locked.directory.nodeOf rawKey = some nid
  rw [directory, early.2.1, verified]

theorem safe_coordinatorRelease (ticket : Nat) (rawKey : Text) (now : Time) :
    election.Safe (.coordinatorRelease ticket rawKey now) (coordinatorRelease ticket rawKey now)
      ⟨[], id, store⟩ := by
  refine Discipline.wp_bind.mpr ?_
  apply wp_verifyNodeKey
  · intro locks seen
    exact Discipline.wp_bind.mpr (Discipline.wp_orRaise.mpr fun _ absent => nomatch absent)
  intro nid locks seen verified
  simp only [Program.bind_eq, Discipline.wp_bind, Discipline.wp_orRaise, Option.some.injEq,
    forall_eq', Discipline.wp_selectForUpdate]
  have unheld (locks : List ElectionRow) (seen : ElectionDb) :
      election.Commits (.coordinatorRelease ticket rawKey now)
        ⟨locks, fun db => { db with answers := db.answers ++ [⟨_, .released false⟩] }, seen⟩ :=
    commits_of_settles (fun _ => rfl) (fun _ => rfl) (Or.inr fun _ => rfl) fun _ _ _ => .unheld
  intro found early
  refine ⟨fun _ => unheld _ _, ?_⟩
  intro _ locked late
  by_cases holds : locked.lease.nodeId = some nid
  · have same : locked.directory.nodeOf rawKey = some nid := by
      rw [late.2.1, early.2.1, verified]
    simp only [id_eq, holds, if_true, Option.isSome_some]
    refine commits_of_settles (fun _ => rfl) (fun _ => rfl) (Or.inl List.mem_cons_self) ?_
    intro store directory lease
    have matched : store.lease.nodeId = some nid := by rw [lease List.mem_cons_self, holds]
    exact .released (by rw [directory, same]) matched
  · simp only [id_eq, holds, if_false, Option.isSome_none, Bool.false_eq_true]
    exact unheld _ _

/-- Every call is safe on its own. -/
theorem safe_election (call : ElectionCall) (store : ElectionDb) :
    election.Safe call call.program ⟨[], id, store⟩ := by
  cases call with
  | coordinatorTry ticket rawKey ttlSeconds now => exact safe_coordinatorTry _ _ _ _
  | coordinatorRelease ticket rawKey now => exact safe_coordinatorRelease _ _ _

end Commits

end OHHive.Cloud
