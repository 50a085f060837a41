import OHHive.Cloud.Artifacts

/-! Servers with their blobs: uploads, replication and garbage collection, in any interleaving and
with any call of the hub failing. -/

namespace OHHive.Cloud

open Foundation

section Calls

/-- How a call of the hub ends: without effect, with its answer lost, or answered. -/
inductive CallFate where
  | refused
  | unheard
  | answered
deriving DecidableEq

/-- What a call leaves of the hub. -/
def CallFate.leaves (fate : CallFate) (hub : ArtifactHub)
    (result : Except CloudError ArtifactHub) : ArtifactHub :=
  match fate, result with
  | .refused, _ | _, .error _ => hub
  | _, .ok after => after

/-- How `Store::put` ends for a blob that is not there: written, not written, or written with an
error behind its renaming. -/
inductive PutFate where
  | done
  | unwritten
  | unfinished
deriving DecidableEq

/-- `Store::put`: the blobs after it, and whether it succeeds. -/
def putBody (store : Finset Hash) (body : List UInt8) (fate : PutFate) : Finset Hash × Bool :=
  let hash := Sha256.digest body
  if hash ∈ store then (store, true)
  else
    match fate with
    | .done => (insert hash store, true)
    | .unwritten => (store, false)
    | .unfinished => (insert hash store, false)

end Calls

section Processes

inductive UploadStage where
  | stored
  | announced
  | answered
deriving DecidableEq

/-- A request of `put_blob` whose blob is stored. -/
structure Upload where
  server : NodeId
  announce : ArtifactAnnounce
  stage : UploadStage

inductive ReplicationStage where
  | fetching (plan : List ArtifactAnnounce)
  | announcing (item : ArtifactAnnounce) (plan : List ArtifactAnnounce)

/-- A run of `tick`. -/
structure Replication where
  server : NodeId
  stage : ReplicationStage

inductive GcStage where
  | listed (held : List Hash)
  | sweeping (plan : List Hash)
  | dropping (hash : Hash) (plan : List Hash)
  | ended

/-- A run of `gc_tick`. -/
structure GcPass where
  server : NodeId
  stage : GcStage
  failed : Bool

/-- What a pass is still to remove. -/
def GcPass.planned (pass : GcPass) : List Hash :=
  match pass.stage with
  | .sweeping plan | .dropping _ plan => plan
  | .listed _ | .ended => []

/-- The blob that a pass removed and is to report. -/
def GcPass.dropped (pass : GcPass) : Option Hash :=
  match pass.stage with
  | .dropping hash _ => some hash
  | _ => none

/-- What happened: an upload was answered 201, an artifact was unpinned or returned, a blob was
removed, and a pass ended with every call answered. -/
inductive BlobEvent where
  | answered (server : NodeId) (hash : Hash)
  | unpinned (hash : Hash)
  | returned (hash : Hash)
  | removed (server : NodeId) (hash : Hash)
  | collected (server : NodeId)
deriving DecidableEq

end Processes

/-- The hub, the blobs of each server, what runs on the servers, and the history. -/
structure BlobNet where
  hub : ArtifactHub
  stores : NodeId → Finset Hash
  uploads : List Upload
  replications : List Replication
  passes : List GcPass
  log : List BlobEvent

/-- The moves. A request without an uploader's key or without a body is answered at once. The last
two servers' moves are the announcements at a start, and what a backup or an archive stores and
records. -/
inductive BlobMove where
  | register (server : NodeId)
  | putBlob (server : NodeId) (uploader : Option NodeId) (body : List UInt8) (mime kind : String)
      (projectId cardId : Option Uuid) (fate : PutFate)
  | announceUpload (upload : Nat) (fate : CallFate)
  | answer (upload : Nat)
  | planReplication (server : NodeId) (chosen : List Hash) (fate : CallFate)
  | fetch (replication : Nat) (body : Option (List UInt8)) (fate : PutFate)
  | announceReplica (replication : Nat) (fate : CallFate)
  | listBlobs (server : NodeId) (seen : List Hash)
  | planGc (pass : Nat) (now : Time) (fate : CallFate)
  | remove (pass : Nat) (fault : Bool)
  | dropReplica (pass : Nat) (fate : CallFate)
  | unpin (hash : Hash) (graceUntil : Option Time)
  | markReturned (hash : Hash) (now : Time)
  | reapDeadReplicas (server : NodeId)
  | reannounce (server : NodeId) (announce : ArtifactAnnounce) (fate : CallFate)
  | storeOwn (server : NodeId) (body : List UInt8) (fate : PutFate)
  | record (server : NodeId) (announce : ArtifactAnnounce) (fate : CallFate)

namespace BlobNet

def start : BlobNet := ⟨.empty, fun _ => ∅, [], [], [], []⟩

def onHub (net : BlobNet) (fate : CallFate)
    (call : ArtifactHub → Except CloudError ArtifactHub) : BlobNet :=
  { net with hub := fate.leaves net.hub (call net.hub) }

def inStore (net : BlobNet) (server : NodeId) (store : Finset Hash) : BlobNet :=
  { net with stores := Function.update net.stores server store }

def setUpload (net : BlobNet) (index : Nat) (upload : Upload) : BlobNet :=
  { net with uploads := net.uploads.set index upload }

def setReplication (net : BlobNet) (index : Nat) (replication : Replication) : BlobNet :=
  { net with replications := net.replications.set index replication }

def setPass (net : BlobNet) (index : Nat) (pass : GcPass) : BlobNet :=
  { net with passes := net.passes.set index pass }

def logs (net : BlobNet) (event : BlobEvent) : BlobNet := { net with log := net.log ++ [event] }

/-- `put_blob` up to its announcement. -/
def putBlob (net : BlobNet) (server : NodeId) (uploader : Option NodeId) (body : List UInt8)
    (mime kind : String) (projectId cardId : Option Uuid) (fate : PutFate) : BlobNet :=
  match uploader with
  | none => net
  | some uploader =>
    if body.isEmpty then net
    else
      let (store, stored) := putBody (net.stores server) body fate
      let after := net.inStore server store
      if stored then
        { after with
          uploads := after.uploads ++ [{
            server
            announce :=
              { hash := Sha256.digest body
                bytes := body.length
                mime, kind, projectId, cardId
                uploadedBy := some uploader }
            stage := .stored }] }
      else after

/-- The announcement of an upload; its failure is only logged. -/
def announceUpload (net : BlobNet) (index : Nat) (upload : Upload) (fate : CallFate) : BlobNet :=
  (net.onHub fate fun hub => hub.artifactAnnounce upload.server upload.announce).setUpload index
    { upload with stage := .announced }

/-- The answer 201. -/
def answer (net : BlobNet) (index : Nat) (upload : Upload) : BlobNet :=
  (net.setUpload index { upload with stage := .answered }).logs
    (.answered upload.server upload.announce.hash)

def planReplication (net : BlobNet) (server : NodeId) (chosen : List Hash) (fate : CallFate) :
    BlobNet :=
  match fate, net.hub.replicationPlan server chosen with
  | .answered, .ok plan =>
    { net with replications := net.replications ++ [⟨server, .fetching plan⟩] }
  | _, _ => net

/-- The next item of a plan: announced if it is held, else fetched, verified and stored. -/
def fetch (net : BlobNet) (index : Nat) (server : NodeId) (item : ArtifactAnnounce)
    (plan : List ArtifactAnnounce) (body : Option (List UInt8)) (fate : PutFate) : BlobNet :=
  if validHash item.hash && item.hash ∈ net.stores server then
    net.setReplication index ⟨server, .announcing item plan⟩
  else
    match body with
    | none => net.setReplication index ⟨server, .fetching plan⟩
    | some body =>
      if Sha256.digest body = item.hash then
        let (store, stored) := putBody (net.stores server) body fate
        (net.inStore server store).setReplication index
          ⟨server, if stored then .announcing item plan else .fetching plan⟩
      else net.setReplication index ⟨server, .fetching plan⟩

def announceReplica (net : BlobNet) (index : Nat) (server : NodeId) (item : ArtifactAnnounce)
    (plan : List ArtifactAnnounce) (fate : CallFate) : BlobNet :=
  (net.onHub fate fun hub => hub.artifactAnnounce server item).setReplication index
    ⟨server, .fetching plan⟩

/-- `gc_tick` from its listing on, which may miss blobs; without blobs it is over at once. -/
def listBlobs (net : BlobNet) (server : NodeId) (seen : List Hash) : BlobNet :=
  let held := seen.filter fun hash => validHash hash && hash ∈ net.stores server
  if held.isEmpty then net.logs (.collected server)
  else { net with passes := net.passes ++ [⟨server, .listed held, false⟩] }

/-- The rest of a pass. -/
def sweep (net : BlobNet) (index : Nat) (pass : GcPass) (plan : List Hash) : BlobNet :=
  if plan.isEmpty then
    let ended := net.setPass index { pass with stage := .ended }
    if pass.failed then ended else ended.logs (.collected pass.server)
  else net.setPass index { pass with stage := .sweeping plan }

def planGc (net : BlobNet) (index : Nat) (pass : GcPass) (held : List Hash) (now : Time)
    (fate : CallFate) : BlobNet :=
  match fate, net.hub.gcPlan now pass.server held with
  | .answered, .ok plan => net.sweep index pass plan
  | _, _ => net.setPass index { pass with stage := .ended, failed := true }

/-- `Store::remove` of the next blob. -/
def remove (net : BlobNet) (index : Nat) (pass : GcPass) (hash : Hash) (plan : List Hash)
    (fault : Bool) : BlobNet :=
  if fault || !validHash hash || hash ∉ net.stores pass.server then net.sweep index pass plan
  else
    ((net.inStore pass.server ((net.stores pass.server).erase hash)).setPass index
      { pass with stage := .dropping hash plan }).logs (.removed pass.server hash)

/-- The report of a removal; its failure is only logged. -/
def dropReplica (net : BlobNet) (index : Nat) (pass : GcPass) (hash : Hash) (plan : List Hash)
    (fate : CallFate) : BlobNet :=
  (net.onHub fate fun hub => .ok (hub.replicaDrop pass.server hash)).sweep index
    { pass with failed := pass.failed || fate ≠ .answered } plan

/-- An artifact that is pinned is unpinned. -/
def unpin (net : BlobNet) (hash : Hash) (graceUntil : Option Time) : BlobNet :=
  if (net.hub.artifacts hash).any Artifact.pinned then
    { net with hub := net.hub.unpin hash graceUntil }.logs (.unpinned hash)
  else net

def markReturned (net : BlobNet) (hash : Hash) (now : Time) : BlobNet :=
  if (net.hub.artifacts hash).isSome then
    { net with hub := net.hub.markReturned hash now }.logs (.returned hash)
  else net

def step (net : BlobNet) : BlobMove → BlobNet
  | .register server =>
    { net with hub := { net.hub with servers := insert server net.hub.servers } }
  | .putBlob server uploader body mime kind projectId cardId fate =>
    net.putBlob server uploader body mime kind projectId cardId fate
  | .announceUpload index fate =>
    match net.uploads[index]? with
    | some upload => if upload.stage = .stored then net.announceUpload index upload fate else net
    | none => net
  | .answer index =>
    match net.uploads[index]? with
    | some upload => if upload.stage = .announced then net.answer index upload else net
    | none => net
  | .planReplication server chosen fate => net.planReplication server chosen fate
  | .fetch index body fate =>
    match net.replications[index]? with
    | some ⟨server, .fetching (item :: plan)⟩ => net.fetch index server item plan body fate
    | _ => net
  | .announceReplica index fate =>
    match net.replications[index]? with
    | some ⟨server, .announcing item plan⟩ => net.announceReplica index server item plan fate
    | _ => net
  | .listBlobs server seen => net.listBlobs server seen
  | .planGc index now fate =>
    match net.passes[index]? with
    | some ⟨server, .listed held, failed⟩ =>
      net.planGc index ⟨server, .listed held, failed⟩ held now fate
    | _ => net
  | .remove index fault =>
    match net.passes[index]? with
    | some ⟨server, .sweeping (hash :: plan), failed⟩ =>
      net.remove index ⟨server, .sweeping (hash :: plan), failed⟩ hash plan fault
    | _ => net
  | .dropReplica index fate =>
    match net.passes[index]? with
    | some ⟨server, .dropping hash plan, failed⟩ =>
      net.dropReplica index ⟨server, .dropping hash plan, failed⟩ hash plan fate
    | _ => net
  | .unpin hash graceUntil => net.unpin hash graceUntil
  | .markReturned hash now => net.markReturned hash now
  | .reapDeadReplicas server => { net with hub := net.hub.reapDeadReplicas server }
  | .reannounce server announce fate =>
    net.onHub fate fun hub => hub.artifactAnnounce server announce
  | .storeOwn server body fate => net.inStore server (putBody (net.stores server) body fate).1
  | .record server announce fate => net.onHub fate fun hub => hub.artifactRecord server announce

end BlobNet

/-- A net after the first moves of a run. -/
def blobNetAt (moves : List BlobMove) : Nat → BlobNet := stateAt BlobNet.step .start moves

end OHHive.Cloud
