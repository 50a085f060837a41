import OHHive.Cloud.BlobServers

/-! Garbage collection keeps what uploads were promised, and the registry follows what it
removes. -/

namespace OHHive.Cloud

open Foundation

section Promises

/-- The promises after an event: an answer makes one, an unpinning or a return ends those of its
artifact. -/
def keepPromises (promises : List (NodeId × Hash)) : BlobEvent → List (NodeId × Hash)
  | .answered server hash => promises ++ [(server, hash)]
  | .unpinned hash | .returned hash => promises.filter fun promise => promise.2 ≠ hash
  | .removed .. | .collected _ => promises

/-- The uploads answered 201 whose artifacts were not unpinned or returned since. -/
def promised (log : List BlobEvent) : List (NodeId × Hash) := log.foldl keepPromises []

theorem promised_append (log : List BlobEvent) (event : BlobEvent) :
    promised (log ++ [event]) = keepPromises (promised log) event := by
  rw [promised, List.foldl_append]
  rfl

/-- No blob was removed while it was promised. -/
def CleanRemovals (log : List BlobEvent) : Prop :=
  ∀ before server hash after, log = before ++ .removed server hash :: after →
    ∀ other, (other, hash) ∉ promised before

theorem CleanRemovals.append {log : List BlobEvent} {event : BlobEvent} (clean : CleanRemovals log)
    (free : ∀ server hash, event = .removed server hash → ∀ other, (other, hash) ∉ promised log) :
    CleanRemovals (log ++ [event]) := by
  intro before server hash after same
  rcases List.eq_nil_or_concat after with rfl | ⟨rest, last, rfl⟩
  · obtain ⟨rfl, last⟩ := List.append_inj' same rfl
    exact free server hash (List.singleton_injective last)
  · rw [List.concat_eq_append, ← List.cons_append, ← List.append_assoc] at same
    exact clean before server hash rest (List.append_inj' same rfl).1

end Promises

section Properties

/-- The hub keeps a blob: its row is pinned, and no pass has planned its removal. -/
structure BlobNet.Shielded (net : BlobNet) (hash : Hash) : Prop where
  pinned : net.hub.Pinned hash
  unplanned : ∀ pass ∈ net.passes, hash ∉ pass.planned

/-- The registry counts no copy that the server removed, unless a pass is still to report it. -/
def BlobNet.Settled (net : BlobNet) (server : NodeId) : Prop :=
  ∀ hash, .removed server hash ∈ net.log → hash ∉ net.stores server →
    (∀ pass ∈ net.passes, pass.server = server → pass.dropped ≠ some hash) →
    (hash, server) ∉ net.hub.replicas

/-- Garbage collection in a run: it keeps every promised blob, on its server and against a removal
anywhere, and the registry has followed its removals at the end of each successful pass. -/
structure CollectionSafe (nets : Nat → BlobNet) : Prop where
  kept : ∀ count server hash, (server, hash) ∈ promised (nets count).log →
    hash ∈ (nets count).stores server
  removals : ∀ count, CleanRemovals (nets count).log
  settled : ∀ count server, (nets (count + 1)).log = (nets count).log ++ [.collected server] →
    (nets (count + 1)).Settled server

/-- What the moves of a run need: an answer 201 is given only while the server holds the blob and
the hub shields it, a blob is announced only while it is held, and no report of a removal is lost
that the registry needs. -/
def BlobNet.Careful (net : BlobNet) : BlobMove → Prop
  | .answer index => ∀ upload, net.uploads[index]? = some upload → upload.stage = .announced →
    upload.announce.hash ∈ net.stores upload.server ∧ net.Shielded upload.announce.hash
  | .announceUpload index fate => ∀ upload, net.uploads[index]? = some upload →
    upload.stage = .stored → fate ≠ .refused → upload.announce.hash ∈ net.stores upload.server
  | .announceReplica index fate => ∀ server item plan,
    net.replications[index]? = some ⟨server, .announcing item plan⟩ → fate ≠ .refused →
    item.hash ∈ net.stores server
  | .reannounce server announce fate | .record server announce fate =>
    fate ≠ .refused → announce.hash ∈ net.stores server
  | .dropReplica index fate => ∀ server hash plan failed,
    net.passes[index]? = some ⟨server, .dropping hash plan, failed⟩ → fate = .refused →
    hash ∈ net.stores server ∨ (hash, server) ∉ net.hub.replicas
  | _ => True

end Properties

section Invariant

/-- What every careful step keeps. A copy that counts is held, or its removal is to be reported. -/
structure BlobNet.Sound (net : BlobNet) : Prop where
  kept : ∀ server hash, (server, hash) ∈ promised net.log →
    hash ∈ net.stores server ∧ net.Shielded hash
  removals : CleanRemovals net.log
  counted : ∀ hash server, (hash, server) ∈ net.hub.replicas → hash ∈ net.stores server ∨
    ∃ pass ∈ net.passes, pass.server = server ∧ pass.dropped = some hash

variable {net : BlobNet}

theorem BlobNet.Sound.onHub (sound : net.Sound) {hub : ArtifactHub}
    (pinned : ∀ server hash, (server, hash) ∈ promised net.log → net.hub.Pinned hash →
      hub.Pinned hash)
    (counted : ∀ hash server, (hash, server) ∈ hub.replicas →
      (hash, server) ∈ net.hub.replicas ∨ hash ∈ net.stores server) :
    { net with hub }.Sound where
  kept := by
    intro server hash member
    obtain ⟨held, shielded⟩ := sound.kept server hash member
    exact ⟨held, pinned server hash member shielded.pinned, shielded.unplanned⟩
  removals := sound.removals
  counted := by
    intro hash server member
    rcases counted hash server member with before | held
    · exact sound.counted hash server before
    · exact .inl held

theorem BlobNet.Sound.inStore (sound : net.Sound) {server : NodeId} {store : Finset Hash}
    (grows : net.stores server ⊆ store) : (net.inStore server store).Sound := by
  have kept : ∀ {other hash}, hash ∈ net.stores other →
      hash ∈ (net.inStore server store).stores other := by
    intro other hash held
    change hash ∈ Function.update net.stores server store other
    by_cases same : other = server
    · subst same
      rw [Function.update_self]
      exact grows held
    · rw [Function.update_of_ne same]
      exact held
  refine ⟨?_, sound.removals, ?_⟩
  · intro other hash member
    obtain ⟨held, shielded⟩ := sound.kept other hash member
    exact ⟨kept held, shielded.pinned, shielded.unplanned⟩
  · intro hash other member
    exact (sound.counted hash other member).imp_left kept

theorem BlobNet.Sound.setPass (sound : net.Sound) {index : Nat} {old pass : GcPass}
    (found : net.passes[index]? = some old)
    (planned : ∀ hash ∈ pass.planned, hash ∈ old.planned ∨
      ∀ server, (server, hash) ∉ promised net.log)
    (reported : ∀ hash, old.dropped = some hash →
      hash ∈ net.stores old.server ∨ (hash, old.server) ∉ net.hub.replicas) :
    (net.setPass index pass).Sound where
  kept := by
    intro server hash member
    obtain ⟨held, shielded⟩ := sound.kept server hash member
    refine ⟨held, shielded.pinned, ?_⟩
    intro other present listed
    rcases List.mem_or_eq_of_mem_set present with before | rfl
    · exact shielded.unplanned other before listed
    · rcases planned hash listed with before | free
      · exact shielded.unplanned old (List.mem_of_getElem? found) before
      · exact free server member
  removals := sound.removals
  counted := by
    intro hash server member
    rcases sound.counted hash server member with held | ⟨other, present, rfl, dropped⟩
    · exact .inl held
    · obtain ⟨place, placed⟩ := List.mem_iff_getElem?.mp present
      by_cases same : place = index
      · subst same
        obtain rfl := Option.some.inj (found.symm.trans placed)
        rcases reported hash dropped with held | gone
        · exact .inl held
        · exact absurd member gone
      · refine .inr ⟨other, List.mem_of_getElem? (i := place) ?_, rfl, dropped⟩
        rw [BlobNet.setPass, List.getElem?_set_ne (Ne.symm same)]
        exact placed

theorem BlobNet.Sound.collected (sound : net.Sound) (server : NodeId) :
    (net.logs (.collected server)).Sound where
  kept := by
    intro other hash member
    rw [BlobNet.logs, promised_append] at member
    exact ⟨(sound.kept other hash member).1, (sound.kept other hash member).2.pinned,
      (sound.kept other hash member).2.unplanned⟩
  removals := sound.removals.append nofun
  counted := sound.counted

/-- The rest of a pass plans what it planned before, and has nothing left to report. -/
theorem BlobNet.Sound.sweep (sound : net.Sound) {index : Nat} {old pass : GcPass} {plan : List Hash}
    (found : net.passes[index]? = some old)
    (planned : ∀ hash ∈ plan, hash ∈ old.planned ∨ ∀ server, (server, hash) ∉ promised net.log)
    (reported : ∀ hash, old.dropped = some hash →
      hash ∈ net.stores old.server ∨ (hash, old.server) ∉ net.hub.replicas) :
    (net.sweep index pass plan).Sound := by
  have ended : (net.setPass index { pass with stage := .ended }).Sound :=
    sound.setPass found nofun reported
  unfold BlobNet.sweep
  split
  · dsimp only
    split
    · exact ended
    · exact ended.collected _
  · exact sound.setPass found planned reported

theorem subset_putBody (store : Finset Hash) (body : List UInt8) (fate : PutFate) :
    store ⊆ (putBody store body fate).1 := by
  unfold putBody
  dsimp only
  split
  · exact subset_rfl
  · cases fate with
    | done => exact Finset.subset_insert _ _
    | unwritten => exact subset_rfl
    | unfinished => exact Finset.subset_insert _ _

theorem BlobNet.Sound.announces (sound : net.Sound) {server : NodeId} {announce : ArtifactAnnounce}
    {fate : CallFate} {call : ArtifactHub → Except CloudError ArtifactHub}
    (held : fate ≠ .refused → announce.hash ∈ net.stores server)
    (accepts : ∀ result, call net.hub = .ok result →
      (∀ hash, net.hub.Pinned hash → result.Pinned hash) ∧
        result.replicas = insert (announce.hash, server) net.hub.replicas) :
    (net.onHub fate call).Sound := by
  unfold BlobNet.onHub CallFate.leaves
  split
  · exact sound
  · exact sound
  · rename_i result heard accepted
    obtain ⟨pinned, replicas⟩ := accepts result accepted
    refine sound.onHub (fun _ hash _ => pinned hash) ?_
    intro hash other member
    rw [replicas] at member
    rcases Finset.mem_insert.mp member with same | before
    · obtain ⟨rfl, rfl⟩ := Prod.mk.inj same
      exact .inr (held heard)
    · exact .inl before

theorem BlobNet.Sound.artifactAnnounce (sound : net.Sound) {server : NodeId}
    {announce : ArtifactAnnounce} {fate : CallFate}
    (held : fate ≠ .refused → announce.hash ∈ net.stores server) :
    (net.onHub fate fun hub => hub.artifactAnnounce server announce).Sound := by
  refine sound.announces held ?_
  intro result accepted
  exact ⟨fun _ pinned => pinned.announces accepted, (ArtifactHub.artifactAnnounce_ok accepted).2.2⟩

/-- Nothing kept depends on the uploads and the replications. -/
theorem BlobNet.Sound.setProcesses (sound : net.Sound) (uploads : List Upload)
    (replications : List Replication) : { net with uploads, replications }.Sound where
  kept server hash member :=
    ⟨(sound.kept server hash member).1, (sound.kept server hash member).2.pinned,
      (sound.kept server hash member).2.unplanned⟩
  removals := sound.removals
  counted := sound.counted

theorem BlobNet.Sound.putBlob (sound : net.Sound) (server : NodeId) (uploader : Option NodeId)
    (body : List UInt8) (mime kind : String) (projectId cardId : Option Uuid) (fate : PutFate) :
    (net.putBlob server uploader body mime kind projectId cardId fate).Sound := by
  have stored := sound.inStore (subset_putBody (net.stores server) body fate)
  unfold BlobNet.putBlob
  split
  · exact sound
  · split
    · exact sound
    · dsimp only
      split
      · exact stored.setProcesses _ _
      · exact stored

/-- The answer 201 makes a promise that the hub keeps. -/
theorem BlobNet.Sound.answer (sound : net.Sound) {index : Nat} {upload : Upload}
    (held : upload.announce.hash ∈ net.stores upload.server)
    (shielded : net.Shielded upload.announce.hash) : (net.answer index upload).Sound where
  kept := by
    intro server hash member
    rw [BlobNet.answer, BlobNet.logs, promised_append] at member
    rcases List.mem_append.mp member with before | last
    · obtain ⟨holds, shields⟩ := sound.kept server hash before
      exact ⟨holds, shields.pinned, shields.unplanned⟩
    · obtain ⟨rfl, rfl⟩ := Prod.mk.inj (List.mem_singleton.mp last)
      exact ⟨held, shielded.pinned, shielded.unplanned⟩
  removals := sound.removals.append nofun
  counted := sound.counted

theorem BlobNet.Sound.planReplication (sound : net.Sound) (server : NodeId) (chosen : List Hash)
    (fate : CallFate) : (net.planReplication server chosen fate).Sound := by
  unfold BlobNet.planReplication
  split
  · exact sound.setProcesses net.uploads _
  · exact sound

theorem BlobNet.Sound.fetch (sound : net.Sound) (index : Nat) (server : NodeId)
    (item : ArtifactAnnounce) (plan : List ArtifactAnnounce) (body : Option (List UInt8))
    (fate : PutFate) : (net.fetch index server item plan body fate).Sound := by
  have moved : ∀ replication, (net.setReplication index replication).Sound :=
    fun _ => sound.setProcesses net.uploads _
  unfold BlobNet.fetch
  split
  · exact moved _
  · split
    · exact moved _
    · rename_i fetched
      split
      · have stored := sound.inStore (subset_putBody (net.stores server) fetched fate)
        exact stored.setProcesses _ _
      · exact moved _

theorem BlobNet.Sound.listBlobs (sound : net.Sound) (server : NodeId) (seen : List Hash) :
    (net.listBlobs server seen).Sound := by
  unfold BlobNet.listBlobs
  dsimp only
  split
  · exact sound.collected server
  · refine ⟨?_, sound.removals, ?_⟩
    · intro other hash member
      obtain ⟨held, shielded⟩ := sound.kept other hash member
      refine ⟨held, shielded.pinned, ?_⟩
      intro pass present
      rcases List.mem_append.mp present with before | last
      · exact shielded.unplanned pass before
      · rw [List.mem_singleton.mp last]
        exact List.not_mem_nil
    · intro hash other member
      refine (sound.counted hash other member).imp_right ?_
      rintro ⟨pass, present, reports⟩
      exact ⟨pass, List.mem_append_left _ present, reports⟩

theorem BlobNet.Sound.planGc (sound : net.Sound) {index : Nat} {server : NodeId} {failed : Bool}
    {held : List Hash} (found : net.passes[index]? = some ⟨server, .listed held, failed⟩)
    (now : Time) (fate : CallFate) :
    (net.planGc index ⟨server, .listed held, failed⟩ held now fate).Sound := by
  unfold BlobNet.planGc
  split
  · rename_i plan planned
    refine sound.sweep found ?_ nofun
    intro hash member
    refine .inr fun other promise => ?_
    exact (sound.kept other hash promise).2.pinned.notMem_gcPlan planned member
  · exact sound.setPass found nofun nofun

/-- What a pass removes was not promised. -/
theorem BlobNet.Sound.remove (sound : net.Sound) {index : Nat} {server : NodeId} {failed : Bool}
    {hash : Hash} {plan : List Hash}
    (found : net.passes[index]? = some ⟨server, .sweeping (hash :: plan), failed⟩) (fault : Bool) :
    (net.remove index ⟨server, .sweeping (hash :: plan), failed⟩ hash plan fault).Sound := by
  have free : ∀ other, (other, hash) ∉ promised net.log := by
    intro other promise
    exact (sound.kept other hash promise).2.unplanned _ (List.mem_of_getElem? found)
      List.mem_cons_self
  unfold BlobNet.remove
  split
  · exact sound.sweep found (fun _ later => .inl (List.mem_cons_of_mem _ later)) nofun
  · have moved : (net.setPass index ⟨server, .dropping hash plan, failed⟩).Sound :=
      sound.setPass found (fun _ later => .inl (List.mem_cons_of_mem _ later)) nofun
    have reports : ⟨server, .dropping hash plan, failed⟩ ∈
        (net.setPass index ⟨server, .dropping hash plan, failed⟩).passes := by
      obtain ⟨inside, _⟩ := List.getElem?_eq_some_iff.mp found
      exact List.mem_set inside _
    have erased : ∀ {other kept}, kept ≠ hash ∨ other ≠ server → kept ∈ net.stores other →
        kept ∈ Function.update net.stores server ((net.stores server).erase hash) other := by
      intro other kept apart holds
      by_cases same : other = server
      · subst same
        rw [Function.update_self]
        exact Finset.mem_erase.mpr ⟨apart.resolve_right (fun differs => differs rfl), holds⟩
      · rw [Function.update_of_ne same]
        exact holds
    refine ⟨?_, sound.removals.append ?_, ?_⟩
    · intro other kept member
      rw [BlobNet.logs, promised_append] at member
      obtain ⟨holds, shielded⟩ := moved.kept other kept member
      refine ⟨erased (.inl ?_) holds, shielded.pinned, shielded.unplanned⟩
      rintro rfl
      exact free other member
    · intro other removed same
      obtain ⟨_, rfl⟩ := BlobEvent.removed.inj same
      exact free
    · intro counted other member
      rcases moved.counted counted other member with holds | pending
      · by_cases same : counted = hash ∧ other = server
        · obtain ⟨rfl, rfl⟩ := same
          exact .inr ⟨_, reports, rfl, rfl⟩
        · exact .inl (erased (Decidable.not_and_iff_or_not.mp same) holds)
      · exact .inr pending

theorem BlobNet.Sound.dropReplica (sound : net.Sound) {index : Nat} {server : NodeId}
    {failed : Bool} {hash : Hash} {plan : List Hash} {fate : CallFate}
    (found : net.passes[index]? = some ⟨server, .dropping hash plan, failed⟩)
    (careful : fate = .refused → hash ∈ net.stores server ∨ (hash, server) ∉ net.hub.replicas) :
    (net.dropReplica index ⟨server, .dropping hash plan, failed⟩ hash plan fate).Sound := by
  have planned : ∀ later ∈ plan, later ∈ GcPass.planned ⟨server, .dropping hash plan, failed⟩ ∨
      ∀ other, (other, later) ∉ promised net.log := fun _ member => .inl member
  unfold BlobNet.dropReplica
  by_cases lost : fate = .refused
  · subst lost
    refine sound.sweep found planned ?_
    intro dropped same
    obtain rfl := Option.some.inj same
    exact careful rfl
  · have reported : fate.leaves net.hub (.ok (net.hub.replicaDrop server hash)) =
        net.hub.replicaDrop server hash := by
      cases fate with
      | refused => exact absurd rfl lost
      | unheard => rfl
      | answered => rfl
    have erased : { net with hub := net.hub.replicaDrop server hash }.Sound :=
      sound.onHub (fun _ _ _ => id) fun _ _ member => .inl (Finset.mem_of_mem_erase member)
    change (BlobNet.sweep { net with hub := fate.leaves net.hub _ } index _ plan).Sound
    rw [reported]
    refine erased.sweep found planned ?_
    intro dropped same
    obtain rfl := Option.some.inj same
    exact .inr (Finset.notMem_erase _ _)

/-- An event that ends the promises of one artifact, and changes only its row. -/
theorem BlobNet.Sound.changes (sound : net.Sound) {hash : Hash} {edit : Artifact → Artifact}
    {event : BlobEvent} (ends : keepPromises (promised net.log) event =
      (promised net.log).filter fun promise => promise.2 ≠ hash)
    (other : ∀ server removed, event ≠ .removed server removed) :
    ({ net with hub := net.hub.change hash edit }.logs event).Sound where
  kept := by
    intro server kept member
    rw [BlobNet.logs, promised_append, ends] at member
    obtain ⟨before, apart⟩ := List.mem_filter.mp member
    obtain ⟨held, shielded⟩ := sound.kept server kept before
    refine ⟨held, shielded.pinned.change ?_, shielded.unplanned⟩
    intro same
    exact absurd same (of_decide_eq_true apart)
  removals := sound.removals.append fun server removed same => absurd same (other server removed)
  counted := sound.counted

theorem sound_blobStep (move : BlobMove) (careful : net.Careful move) (sound : net.Sound) :
    (net.step move).Sound := by
  cases move with
  | register server => exact sound.onHub (fun _ _ _ => id) fun _ _ => .inl
  | putBlob server uploader body mime kind projectId cardId fate =>
    exact sound.putBlob server uploader body mime kind projectId cardId fate
  | announceUpload index fate =>
    rw [BlobNet.step]
    split
    · rename_i upload found
      split
      · rename_i stage
        exact (sound.artifactAnnounce (careful upload found stage)).setProcesses _ _
      · exact sound
    · exact sound
  | answer index =>
    rw [BlobNet.step]
    split
    · rename_i upload found
      split
      · rename_i stage
        obtain ⟨held, shielded⟩ := careful upload found stage
        exact sound.answer held shielded
      · exact sound
    · exact sound
  | planReplication server chosen fate => exact sound.planReplication server chosen fate
  | fetch index body fate =>
    rw [BlobNet.step]
    split
    · exact sound.fetch index _ _ _ body fate
    · exact sound
  | announceReplica index fate =>
    rw [BlobNet.step]
    split
    · rename_i server item plan found
      exact (sound.artifactAnnounce (careful server item plan found)).setProcesses net.uploads _
    · exact sound
  | listBlobs server seen => exact sound.listBlobs server seen
  | planGc index now fate =>
    rw [BlobNet.step]
    split
    · rename_i found
      exact sound.planGc found now fate
    · exact sound
  | remove index fault =>
    rw [BlobNet.step]
    split
    · rename_i found
      exact sound.remove found fault
    · exact sound
  | dropReplica index fate =>
    rw [BlobNet.step]
    split
    · rename_i server hash plan failed found
      exact sound.dropReplica found (careful server hash plan failed found)
    · exact sound
  | unpin hash graceUntil =>
    change (net.unpin hash graceUntil).Sound
    unfold BlobNet.unpin
    split
    · exact sound.changes rfl nofun
    · exact sound
  | markReturned hash now =>
    change (net.markReturned hash now).Sound
    unfold BlobNet.markReturned
    split
    · exact sound.changes rfl nofun
    · exact sound
  | reapDeadReplicas server =>
    exact sound.onHub (fun _ _ _ => id) fun _ _ member => .inl (Finset.mem_of_mem_filter _ member)
  | reannounce server announce fate => exact sound.artifactAnnounce careful
  | storeOwn server body fate => exact sound.inStore (subset_putBody _ body fate)
  | record server announce fate =>
    rw [BlobNet.step]
    refine sound.announces careful ?_
    intro result accepted
    exact ArtifactHub.artifactRecord_ok accepted

theorem sound_blobStart : BlobNet.start.Sound where
  kept := nofun
  removals := by
    intro before server hash after same
    cases before with
    | nil => cases same
    | cons event rest => cases same
  counted := by
    intro hash server member
    exact absurd member (Finset.notMem_empty _)

theorem BlobNet.Sound.settled (sound : net.Sound) (server : NodeId) : net.Settled server := by
  intro hash _ gone reported counts
  rcases sound.counted hash server counts with held | ⟨pass, present, same, dropped⟩
  · exact gone held
  · exact reported pass present same dropped

end Invariant

section Examples

/-- A server registers and stores an upload, whose announcement ends so; it is answered 201, and a
pass looks at it. -/
def collectedUpload (fate : CallFate) : List BlobMove :=
  [.register ⟨1⟩, .putBlob ⟨1⟩ (some ⟨2⟩) [104, 105] "text/plain" "output" none none .done,
    .announceUpload 0 fate, .answer 0, .listBlobs ⟨1⟩ [Sha256.digest [104, 105]],
    .planGc 0 0 .answered, .remove 0 false]

/-- The report of a removal is lost; the next pass finds nothing and succeeds, and the copy still
counts. -/
example : let net := blobNetAt [.register ⟨1⟩,
      .putBlob ⟨1⟩ (some ⟨2⟩) [104, 105] "text/plain" "output" none none .done,
      .announceUpload 0 .answered, .answer 0, .unpin (Sha256.digest [104, 105]) none,
      .listBlobs ⟨1⟩ [Sha256.digest [104, 105]], .planGc 0 0 .answered, .remove 0 false,
      .dropReplica 0 .refused, .listBlobs ⟨1⟩ []] 10
    net.log.getLast? = some (.collected ⟨1⟩) ∧
      (Sha256.digest [104, 105], ⟨1⟩) ∈ net.hub.replicas := by
  decide +kernel

end Examples

end OHHive.Cloud
