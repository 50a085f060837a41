import Mathlib.Data.Finset.Card
import Mathlib.Logic.Function.Basic
import OHHive.Cloud.Operations
import OHHive.Foundation.Sha256

/-! The hub's registry of artifacts: which blobs it knows, which servers hold them, and which of
them a server may drop. -/

namespace OHHive.Cloud

open Foundation

abbrev Hash := Text

/-- `valid_hash`. -/
def validHash (hash : Hash) : Bool :=
  hash.length = 64 && hash.all fun char => char.isDigit || ('a' ≤ char && char ≤ 'f')

/-- The kinds that the check of `hive.artifacts` admits. -/
def artifactKinds : List String := ["output", "model", "backup", "ledger_archive", "snapshot"]

/-- What a server announces of a blob. -/
structure ArtifactAnnounce where
  hash : Hash
  bytes : Nat
  mime : String
  kind : String
  projectId : Option Uuid
  cardId : Option Uuid
  uploadedBy : Option NodeId
deriving DecidableEq

/-- A row of `hive.artifacts` without its key. -/
structure Artifact where
  bytes : Nat
  mime : String
  kind : String
  projectId : Option Uuid
  cardId : Option Uuid
  uploadedBy : Option NodeId
  pinned : Bool
  graceUntil : Option Time
  returnedAt : Option Time
  replication : Nat
deriving DecidableEq

/-- `gc_plan`'s condition on a row: returned, or unpinned past its grace. -/
def Artifact.isDroppable (now : Time) (artifact : Artifact) : Bool :=
  artifact.returnedAt.isSome || (!artifact.pinned && artifact.graceUntil.all fun ends => ends ≤ now)

/-- The registry: the registered servers, the artifacts, and the copies that count. -/
structure ArtifactHub where
  servers : Finset NodeId
  artifacts : Hash → Option Artifact
  replicas : Finset (Hash × NodeId)

namespace ArtifactHub

def empty : ArtifactHub := ⟨∅, fun _ => none, ∅⟩

def notRegistered : CloudError := .raised "server_not_registered"

/-- A row is changed in place. -/
def change (hub : ArtifactHub) (hash : Hash) (edit : Artifact → Artifact) : ArtifactHub :=
  { hub with artifacts := Function.update hub.artifacts hash ((hub.artifacts hash).map edit) }

/-- The row that an announcement leaves: a new one is pinned, an old one only fills its gaps. -/
def announced (hub : ArtifactHub) (announce : ArtifactAnnounce) : Artifact :=
  match hub.artifacts announce.hash with
  | some artifact =>
    { artifact with
      projectId := artifact.projectId <|> announce.projectId
      cardId := artifact.cardId <|> announce.cardId }
  | none =>
    { bytes := announce.bytes
      mime := announce.mime
      kind := announce.kind
      projectId := announce.projectId
      cardId := announce.cardId
      uploadedBy := announce.uploadedBy
      pinned := true
      graceUntil := none
      returnedAt := none
      replication := 2 }

/-- `artifact_announce`. -/
def artifactAnnounce (hub : ArtifactHub) (nid : NodeId) (announce : ArtifactAnnounce) :
    Except CloudError ArtifactHub := do
  require (nid ∈ hub.servers) notRegistered
  require (validHash announce.hash) (.raised "bad_hash")
  require (announce.kind ∈ artifactKinds) (.violates "artifacts_kind_check")
  return { hub with
    artifacts := Function.update hub.artifacts announce.hash (some (hub.announced announce))
    replicas := insert (announce.hash, nid) hub.replicas }

/-- `backup_record` and the pinning of `ledger_archive_apply`. -/
def artifactRecord (hub : ArtifactHub) (nid : NodeId) (announce : ArtifactAnnounce) :
    Except CloudError ArtifactHub := do
  let announced ← hub.artifactAnnounce nid announce
  return announced.change announce.hash fun artifact =>
    { artifact with replication := 3, pinned := true }

/-- A blob without a row, or with a droppable one. -/
def isDroppable (hub : ArtifactHub) (now : Time) (hash : Hash) : Bool :=
  (hub.artifacts hash).all (Artifact.isDroppable now)

/-- `gc_plan`. -/
def gcPlan (hub : ArtifactHub) (now : Time) (nid : NodeId) (hashes : List Hash) :
    Except CloudError (List Hash) := do
  require (nid ∈ hub.servers) notRegistered
  return hashes.filter (hub.isDroppable now)

/-- `replica_drop`. -/
def replicaDrop (hub : ArtifactHub) (nid : NodeId) (hash : Hash) : ArtifactHub :=
  { hub with replicas := hub.replicas.erase (hash, nid) }

/-- `reap_dead_replicas`, for one dead server. -/
def reapDeadReplicas (hub : ArtifactHub) (nid : NodeId) : ArtifactHub :=
  { hub with replicas := hub.replicas.filter fun replica => replica.2 ≠ nid }

/-- Whether `replication_plan` may ask a server for a copy. -/
def wantsReplica (hub : ArtifactHub) (nid : NodeId) (hash : Hash) (artifact : Artifact) : Bool :=
  let held := hub.replicas.filter fun replica => replica.1 = hash
  artifact.pinned && artifact.returnedAt.isNone && held.card < artifact.replication &&
    (hash, nid) ∉ hub.replicas && held.Nonempty

/-- `replication_plan`, with the rows that regions, addresses and the limit leave. -/
def replicationPlan (hub : ArtifactHub) (nid : NodeId) (chosen : List Hash) :
    Except CloudError (List ArtifactAnnounce) := do
  require (nid ∈ hub.servers) notRegistered
  return chosen.filterMap fun hash => do
    let artifact ← hub.artifacts hash
    guard (hub.wantsReplica nid hash artifact)
    return {
      hash
      bytes := artifact.bytes
      mime := artifact.mime
      kind := artifact.kind
      projectId := artifact.projectId
      cardId := artifact.cardId
      uploadedBy := none }

/-- An artifact is unpinned, as by `retire_old_backups`. -/
def unpin (hub : ArtifactHub) (hash : Hash) (graceUntil : Option Time) : ArtifactHub :=
  hub.change hash fun artifact => { artifact with pinned := false, graceUntil }

/-- An artifact is marked as returned. -/
def markReturned (hub : ArtifactHub) (hash : Hash) (now : Time) : ArtifactHub :=
  hub.change hash fun artifact => { artifact with returnedAt := some now }

/-- The hub keeps an artifact: its row is pinned and not returned. -/
def Pinned (hub : ArtifactHub) (hash : Hash) : Prop :=
  ∃ artifact, hub.artifacts hash = some artifact ∧ artifact.pinned = true ∧
    artifact.returnedAt = none

section Lemmas

variable {hub result : ArtifactHub} {nid : NodeId} {announce : ArtifactAnnounce} {hash : Hash}

theorem artifactAnnounce_ok (accepted : hub.artifactAnnounce nid announce = .ok result) :
    result.servers = hub.servers ∧
      result.artifacts =
        Function.update hub.artifacts announce.hash (some (hub.announced announce)) ∧
      result.replicas = insert (announce.hash, nid) hub.replicas := by
  obtain ⟨_, _, accepted⟩ := bind_eq_ok_iff.mp accepted
  obtain ⟨_, _, accepted⟩ := bind_eq_ok_iff.mp accepted
  obtain ⟨_, _, accepted⟩ := bind_eq_ok_iff.mp accepted
  obtain rfl := pure_eq_ok_iff.mp accepted
  exact ⟨rfl, rfl, rfl⟩

/-- An announcement leaves a pinned artifact pinned. -/
theorem Pinned.announces (pinned : hub.Pinned hash)
    (accepted : hub.artifactAnnounce nid announce = .ok result) : result.Pinned hash := by
  obtain ⟨artifact, found, held, kept⟩ := pinned
  obtain ⟨_, artifacts, _⟩ := artifactAnnounce_ok accepted
  by_cases same : hash = announce.hash
  · subst same
    refine ⟨hub.announced announce, ?_, ?_⟩
    · rw [artifacts, Function.update_self]
    · rw [announced, found]
      exact ⟨held, kept⟩
  · refine ⟨artifact, ?_, held, kept⟩
    rw [artifacts, Function.update_of_ne same]
    exact found

/-- A change of a row leaves the others, and a pinned row that it keeps pinned. -/
theorem Pinned.change {other : Hash} {edit : Artifact → Artifact} (pinned : hub.Pinned hash)
    (keeps : hash = other → ∀ artifact : Artifact, artifact.pinned = true →
      artifact.returnedAt = none → (edit artifact).pinned = true ∧
        (edit artifact).returnedAt = none) : (hub.change other edit).Pinned hash := by
  obtain ⟨artifact, found, held, kept⟩ := pinned
  by_cases same : hash = other
  · have edited := keeps same artifact held kept
    subst same
    refine ⟨edit artifact, ?_, edited⟩
    change Function.update hub.artifacts hash _ hash = _
    rw [Function.update_self, found]
    rfl
  · refine ⟨artifact, ?_, held, kept⟩
    change Function.update hub.artifacts other _ hash = _
    rw [Function.update_of_ne same]
    exact found

theorem artifactRecord_ok (accepted : hub.artifactRecord nid announce = .ok result) :
    (∀ hash, hub.Pinned hash → result.Pinned hash) ∧
      result.replicas = insert (announce.hash, nid) hub.replicas := by
  obtain ⟨announced, first, accepted⟩ := bind_eq_ok_iff.mp accepted
  obtain rfl := pure_eq_ok_iff.mp accepted
  refine ⟨?_, (artifactAnnounce_ok first).2.2⟩
  intro hash pinned
  exact (pinned.announces first).change fun _ _ _ kept => ⟨rfl, kept⟩

/-- No pinned artifact is planned for dropping. -/
theorem Pinned.notMem_gcPlan {now : Time} {hashes plan : List Hash} (pinned : hub.Pinned hash)
    (planned : hub.gcPlan now nid hashes = .ok plan) : hash ∉ plan := by
  obtain ⟨artifact, found, held, kept⟩ := pinned
  obtain ⟨_, _, planned⟩ := bind_eq_ok_iff.mp planned
  obtain rfl := pure_eq_ok_iff.mp planned
  intro member
  have droppable := (List.mem_filter.mp member).2
  rw [isDroppable, found] at droppable
  simp [Artifact.isDroppable, held, kept] at droppable

end Lemmas

end ArtifactHub

end OHHive.Cloud
