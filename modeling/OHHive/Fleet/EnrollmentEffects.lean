import OHHive.Fleet.Enrollment

/-! All that a committed pairing or enrollment operation can do, and what none of them takes back. -/

namespace OHHive.Fleet

open Foundation

section Acceptance

variable {store next : FleetStore} {clock : Nat → Int} {keyHash : Text} {c : EnrollmentClaims}
variable {bootstrap : Option EnrollmentTrust} {receipt : EnrollmentReceipt}

/-- A set-up comes first; every other enrollment is into the fleet that was set up. -/
def FleetAuthority.Takes (authority : FleetAuthority) (c : EnrollmentClaims) :
    Option EnrollmentTrust → Prop
  | some _ => authority.fleetId = none
  | none => authority.fleetId = some c.fleetId ∧ authority.ownerId = some c.subject

/-- What the store has to say of a verified assertion for it to be accepted. -/
structure FleetStore.Admits (store : FleetStore) (clock : Nat → Int) (keyHash : Text)
    (c : EnrollmentClaims) (bootstrap : Option EnrollmentTrust) : Prop where
  node : withNode store keyHash = .ok c.nodeId
  authority : store.authority.authorityId = c.authorityId
  credential : keyHash = c.credentialSha256
  fleet : store.authority.Takes c bootstrap
  challenge : ∃ challenge ∈ store.challenges.rows, challenge.nodeId = c.nodeId ∧
    challenge.keyHash = keyHash ∧ challenge.nonce = c.nonce ∧ clock 0 < challenge.expiresAt
  unexpired : clock 1 < c.expiresAt
  owner : ∃ row, store.nodes.lookup c.nodeId = some row ∧
    ∀ owner, row.ownerMemberId = some owner → owner = c.subject
  unused : ∀ stored ∈ store.enrollments.rows, stored.assertionId ≠ c.assertionId

/-- What an accepted assertion leaves. -/
structure FleetStore.Enrolls (store : FleetStore) (clock : Nat → Int) (c : EnrollmentClaims)
    (bootstrap : Option EnrollmentTrust) (next : FleetStore) : Prop where
  enrollments : next.enrollments.rows =
    store.enrollments.rows ++ [⟨c.assertionId, c.nodeId, clock 2⟩]
  nodes : next.nodes = store.nodes.updateWhere (fun row => row.id = c.nodeId)
    (fun row => { row with ownerMemberId := some c.subject }) (fun _ => rfl)
  authority : next.authority = store.authority.configured c bootstrap
  challenges : next.challenges.rows =
    store.challenges.rows.filter (fun challenge => challenge.nodeId ≠ c.nodeId)
  keys : next.keys = store.keys
  pairing : next.pairing = store.pairing
  readings : next.readings = store.readings

theorem takes_iff_checkFleet :
    checkFleet store c bootstrap = .ok () ↔ store.authority.Takes c bootstrap := by
  unfold checkFleet FleetAuthority.Takes
  cases store.authority.fleetId <;> cases bootstrap <;> simp [require_eq_ok_iff]

/-- An assertion is accepted with all its effects. -/
theorem admits_of_acceptEnrollment
    (accepted : acceptEnrollment store clock keyHash c bootstrap = .ok (next, receipt)) :
    store.Admits clock keyHash c bootstrap ∧ store.Enrolls clock c bootstrap next := by
  unfold acceptEnrollment at accepted
  obtain ⟨node, authenticated, accepted⟩ := bind_eq_ok_iff.mp accepted
  obtain ⟨_, targets, accepted⟩ := bind_eq_ok_iff.mp accepted
  obtain ⟨authority, rfl, credential⟩ := require_eq_ok_iff.mp targets
  obtain ⟨_, fleet, accepted⟩ := bind_eq_ok_iff.mp accepted
  obtain ⟨_, valid, accepted⟩ := bind_eq_ok_iff.mp accepted
  obtain ⟨challenged, unexpired⟩ := require_eq_ok_iff.mp valid
  obtain ⟨row, found, accepted⟩ := bind_eq_ok_iff.mp accepted
  obtain ⟨_, unbound, accepted⟩ := bind_eq_ok_iff.mp accepted
  obtain ⟨enrollments, inserted, accepted⟩ := bind_eq_ok_iff.mp accepted
  obtain ⟨unused, rows⟩ := Table.insert?_eq_some_iff.mp (orFail_eq_ok_iff.mp inserted)
  obtain ⟨rfl, _⟩ := Prod.mk.inj (pure_eq_ok_iff.mp accepted)
  obtain ⟨challenge, pending, fits⟩ := List.any_eq_true.mp challenged
  have owners := require_eq_ok_iff.mp unbound
  refine ⟨⟨authenticated, authority, credential, takes_iff_checkFleet.mp fleet,
    ⟨challenge, pending, ?_⟩, unexpired, ⟨row, orFail_eq_ok_iff.mp found, ?_⟩, unused⟩,
    ⟨rows, rfl, rfl, rfl, rfl, rfl, rfl⟩⟩
  · simpa only [Bool.and_eq_true, decide_eq_true_eq, and_assoc] using fits
  · intro owner bound
    simpa only [bound, Option.all_some, decide_eq_true_eq] using owners

/-- Nothing else is asked of an assertion. -/
theorem exists_acceptEnrollment (admitted : store.Admits clock keyHash c bootstrap) :
    ∃ next receipt, acceptEnrollment store clock keyHash c bootstrap = .ok (next, receipt) := by
  obtain ⟨challenge, pending, ofNode, ofKey, nonce, before⟩ := admitted.challenge
  obtain ⟨row, found, owners⟩ := admitted.owner
  have fits : store.enrollments.Fits ⟨c.assertionId, c.nodeId, clock 2⟩ := admitted.unused
  obtain ⟨enrollments, inserted, _⟩ := Table.exists_insert? fits
  have challenged : store.challenges.rows.any (fun challenge => challenge.nodeId = c.nodeId &&
      challenge.keyHash = keyHash && challenge.nonce = c.nonce &&
      clock 0 < challenge.expiresAt) = true := by
    refine List.any_eq_true.mpr ⟨challenge, pending, ?_⟩
    simp only [ofNode, ofKey, nonce, before, decide_true, Bool.and_self]
  have unbound : row.ownerMemberId.all (fun owner => owner = c.subject) = true := by
    cases bound : row.ownerMemberId with
    | none => rfl
    | some owner => simpa using owners owner bound
  unfold acceptEnrollment
  rw [admitted.node, ok_bind, require, if_pos ⟨admitted.authority, rfl, admitted.credential⟩,
    ok_bind, takes_iff_checkFleet.mpr admitted.fleet, ok_bind, require,
    if_pos ⟨challenged, admitted.unexpired⟩, ok_bind, found, orFail_some, ok_bind, require,
    if_pos unbound, ok_bind, inserted, orFail_some, ok_bind]
  exact ⟨_, _, rfl⟩

end Acceptance

section Moves

variable {crypto : Crypto} {store next : FleetStore} {clock : Nat → Int} {event : FleetEvent}
variable {answer : FleetAnswer}

abbrev FleetNodes := Table FleetNode (Table.SameKey FleetNode.id)

abbrev NodeKeys := Table NodeKey (Table.SameKey NodeKey.hash)

/-- Every computer that has an owner keeps it. -/
def OwnersKept (nodes later : FleetNodes) : Prop :=
  ∀ node row owner, nodes.lookup node = some row → row.ownerMemberId = some owner →
    ∃ after, later.lookup node = some after ∧ after.ownerMemberId = some owner

/-- Every revoked key stays revoked. -/
def RevocationsKept (keys later : NodeKeys) : Prop :=
  ∀ hash key, keys.lookup hash = some key → key.revoked = true →
    ∃ after, later.lookup hash = some after ∧ after.revoked = true

theorem ownersKept_refl (nodes : FleetNodes) : OwnersKept nodes nodes :=
  fun _ row _ found bound => ⟨row, found, bound⟩

theorem revocationsKept_refl (keys : NodeKeys) : RevocationsKept keys keys :=
  fun _ key found revoked => ⟨key, found, revoked⟩

theorem ownersKept_insert? {nodes later : FleetNodes} {row : FleetNode}
    (inserted : nodes.insert? row = some later) : OwnersKept nodes later :=
  fun _ stored _ found bound => ⟨stored, Table.lookup_insert?_of_some inserted found, bound⟩

theorem revocationsKept_insert? {keys later : NodeKeys} {row : NodeKey}
    (inserted : keys.insert? row = some later) : RevocationsKept keys later :=
  fun _ stored found revoked => ⟨stored, Table.lookup_insert?_of_some inserted found, revoked⟩

/-- Binding a computer keeps its owner where it had none or the same. -/
theorem ownersKept_bind {nodes : FleetNodes} {member : Uuid} (where? : FleetNode → Bool)
    (unbound : ∀ row ∈ nodes.rows, where? row = true → ∀ owner, row.ownerMemberId = some owner →
      owner = member) :
    OwnersKept nodes
      (nodes.updateWhere where? (fun row => { row with ownerMemberId := some member })
        (fun _ => rfl)) := by
  intro node row owner found bound
  rw [Table.lookup_updateWhere, found, Option.map_some]
  refine ⟨_, rfl, ?_⟩
  split
  · rename_i chosen
    rw [unbound row (Table.mem_of_lookup found) chosen owner bound]
  · exact bound

/-- What no operation takes back. -/
structure FleetStore.Keeps (store next : FleetStore) : Prop where
  authority : store.authority.fleetId ≠ none → next.authority = store.authority
  owners : OwnersKept store.nodes next.nodes
  revocations : RevocationsKept store.keys next.keys
  enrollments : ∀ stored ∈ store.enrollments.rows, stored ∈ next.enrollments.rows

theorem FleetStore.Keeps.refl (store : FleetStore) : store.Keeps store :=
  ⟨fun _ => rfl, ownersKept_refl _, revocationsKept_refl _, fun _ => id⟩

theorem FleetStore.Keeps.trans (first second third : FleetStore) (before : first.Keeps second)
    (after : second.Keeps third) : first.Keeps third := by
  refine ⟨?_, ?_, ?_, ?_⟩
  · intro configured
    have same := before.authority configured
    exact (after.authority (same ▸ configured)).trans same
  · intro node row owner found bound
    obtain ⟨middle, foundThere, boundThere⟩ := before.owners node row owner found bound
    exact after.owners node middle owner foundThere boundThere
  · intro hash key found revoked
    obtain ⟨middle, foundThere, revokedThere⟩ := before.revocations hash key found revoked
    exact after.revocations hash middle foundThere revokedThere
  · intro stored member
    exact after.enrollments stored (before.enrollments stored member)

/-- A minted computer touches the computers and the keys only, and has no owner. -/
theorem of_mint {name : String} {minted : NodeCredentials}
    (created : mint crypto store name minted = .ok next) :
    ∃ nodes keys, store.nodes.insert? ⟨minted.nodeId, name, none⟩ = some nodes ∧
      store.keys.insert? ⟨crypto.digest minted.rawKey, minted.nodeId, false⟩ = some keys ∧
      next = { store with nodes, keys } := by
  unfold mint at created
  obtain ⟨nodes, added, created⟩ := bind_eq_ok_iff.mp created
  obtain ⟨keys, keyed, created⟩ := bind_eq_ok_iff.mp created
  exact ⟨nodes, keys, orFail_eq_ok_iff.mp added, orFail_eq_ok_iff.mp keyed,
    (pure_eq_ok_iff.mp created).symm⟩

theorem keeps_mint {name : String} {minted : NodeCredentials}
    (created : mint crypto store name minted = .ok next) : store.Keeps next := by
  obtain ⟨nodes, keys, added, keyed, rfl⟩ := of_mint created
  exact ⟨fun _ => rfl, ownersKept_insert? added, revocationsKept_insert? keyed, fun _ => id⟩

theorem of_setNodeOwner {node member : Uuid} (bound : setNodeOwner store node member = .ok next) :
    next = { store with
      nodes := store.nodes.updateWhere
        (fun row => row.id = node && row.ownerMemberId.all (fun owner => owner = member))
        (fun row => { row with ownerMemberId := some member }) (fun _ => rfl) } := by
  unfold setNodeOwner at bound
  obtain ⟨_, _, bound⟩ := bind_eq_ok_iff.mp bound
  obtain ⟨_, _, bound⟩ := bind_eq_ok_iff.mp bound
  exact (pure_eq_ok_iff.mp bound).symm

theorem keeps_setNodeOwner {node member : Uuid}
    (bound : setNodeOwner store node member = .ok next) : store.Keeps next := by
  obtain rfl := of_setNodeOwner bound
  refine ⟨fun _ => rfl, ownersKept_bind _ ?_, revocationsKept_refl _, fun _ => id⟩
  intro row _ chosen owner present
  simp only [present, Option.all_some, Bool.and_eq_true, decide_eq_true_eq] at chosen
  exact chosen.2

theorem lookup_revoke (node : Uuid) (hash : Text) :
    (revoke store node).keys.lookup hash = (store.keys.lookup hash).map
      (fun key => if key.nodeId = node then { key with revoked := true } else key) := by
  rw [revoke, Table.lookup_updateWhere]
  simp only [decide_eq_true_eq]

theorem keeps_revoke (node : Uuid) : store.Keeps (revoke store node) := by
  refine ⟨fun _ => rfl, ownersKept_refl _, ?_, fun _ => id⟩
  intro hash key found revoked
  rw [lookup_revoke, found, Option.map_some]
  refine ⟨_, rfl, ?_⟩
  split
  · rfl
  · exact revoked

/-- A challenge replaces the one that its node had, and touches nothing else. -/
theorem of_enrollmentChallenge {keyHash nonce : Text}
    (challenged : enrollmentChallenge store clock keyHash nonce = .ok next) :
    ∃ node challenges, withNode store keyHash = .ok node ∧ next = { store with challenges } ∧
      challenges.rows = store.challenges.rows.filter (fun challenge => challenge.nodeId ≠ node) ++
        [⟨node, keyHash, nonce, clock 0 + enrollmentTtl⟩] := by
  unfold enrollmentChallenge at challenged
  obtain ⟨node, authenticated, challenged⟩ := bind_eq_ok_iff.mp challenged
  obtain ⟨_, _, challenged⟩ := bind_eq_ok_iff.mp challenged
  obtain ⟨challenges, inserted, challenged⟩ := bind_eq_ok_iff.mp challenged
  exact ⟨node, challenges, authenticated, (pure_eq_ok_iff.mp challenged).symm,
    Table.rows_of_insert? (orFail_eq_ok_iff.mp inserted)⟩

theorem keeps_enrolls {c : EnrollmentClaims} {bootstrap : Option EnrollmentTrust} {keyHash : Text}
    (admitted : store.Admits clock keyHash c bootstrap)
    (enrolls : store.Enrolls clock c bootstrap next) : store.Keeps next := by
  refine ⟨?_, ?_, enrolls.keys ▸ revocationsKept_refl _, ?_⟩
  · intro configured
    rw [enrolls.authority]
    cases bootstrap with
    | none => rfl
    | some trust => exact absurd admitted.fleet configured
  · rw [enrolls.nodes]
    refine ownersKept_bind _ ?_
    intro row member chosen owner bound
    obtain ⟨target, found, owners⟩ := admitted.owner
    have same : row = target := store.nodes.eq_of_key member (Table.mem_of_lookup found)
      ((of_decide_eq_true chosen).trans (Table.key_of_lookup found).symm)
    exact owners owner (same ▸ bound)
  · intro stored member
    rw [enrolls.enrollments]
    exact List.mem_append_left _ member

end Moves

section Effects

variable {crypto : Crypto} {store next : FleetStore} {event : FleetEvent} {answer : FleetAnswer}

/-- A verified assertion, and what it was verified under; a set-up brings its own trust. -/
structure Presentation where
  keyHash : Text
  trust : EnrollmentTrust
  setsUp : Bool
  claims : EnrollmentClaims
deriving DecidableEq, Repr

def Presentation.bootstrap (presented : Presentation) : Option EnrollmentTrust :=
  if presented.setsUp then some presented.trust else none

/-- The assertion that an operation presents, if it verifies. -/
def FleetEvent.presentation (crypto : Crypto) (event : FleetEvent) : Option Presentation :=
  match event.op with
  | .configurePrivateFleet trust assertion localKey =>
    (verifyAssertion crypto trust assertion (event.clock 3)).toOption.map
      (fun claims => ⟨crypto.digest localKey, trust, true, claims⟩)
  | .enrollmentComplete keyHash trust assertion =>
    (verifyAssertion crypto trust assertion (event.clock 3)).toOption.map
      (fun claims => ⟨keyHash, trust, false, claims⟩)
  | _ => none

/-- All that a committed operation can do. -/
inductive FleetEvent.Effect (crypto : Crypto) (event : FleetEvent) (store : FleetStore) :
    FleetStore → FleetAnswer → Prop
  | made (code : Text) (called : event.op = .pairingCode code) :
      Effect crypto event store (pairingCode crypto store event.clock code) .done
  | closed (code : Text) (name : String) (minted : NodeCredentials)
      (called : event.op = .redeemPairing code name minted)
      (shut : ∀ pairing, store.pairing = some pairing → pairing.isOpen (event.clock 0) = false) :
      Effect crypto event store store (.credentials none)
  | wrong (code : Text) (name : String) (minted : NodeCredentials) (pairing : Pairing)
      (called : event.op = .redeemPairing code name minted) (named : checkText name 100 = .ok ())
      (present : store.pairing = some pairing) (isOpen : pairing.isOpen (event.clock 0) = true)
      (isWrong : pairing.isWrong crypto code = true) :
      Effect crypto event store
        { store with pairing := some { pairing with attempts := pairing.attempts + 1 } }
        (.credentials none)
  | redeemed (code : Text) (name : String) (minted : NodeCredentials) (pairing : Pairing)
      (middle : FleetStore) (called : event.op = .redeemPairing code name minted)
      (present : store.pairing = some pairing) (isOpen : pairing.isOpen (event.clock 0) = true)
      (isRight : pairing.isWrong crypto code = false)
      (created : mint crypto store name minted = .ok middle) :
      Effect crypto event store { middle with pairing := none } (.credentials (some minted))
  | joined (name : String) (minted : NodeCredentials) (next : FleetStore)
      (called : event.op = .enrollOwner name minted)
      (created : mint crypto store name minted = .ok next) :
      Effect crypto event store next .done
  | revoked (node : Uuid) (called : event.op = .revoke node) :
      Effect crypto event store (revoke store node) .done
  | bound (node member : Uuid) (next : FleetStore) (called : event.op = .setNodeOwner node member)
      (done : setNodeOwner store node member = .ok next) : Effect crypto event store next .done
  | challenged (keyHash nonce : Text) (next : FleetStore)
      (called : event.op = .enrollmentChallenge keyHash nonce)
      (done : enrollmentChallenge store event.clock keyHash nonce = .ok next) :
      Effect crypto event store next .done
  | read (keyHash : Text) (trust : EnrollmentTrust) (node : Uuid)
      (called : event.op = .readTrust keyHash) (authenticated : withNode store keyHash = .ok node)
      (stored : store.authority.trust = some trust) :
      Effect crypto event store { store with readings := store.readings ++ [trust] } .done
  | enrolled (presented : Presentation) (next : FleetStore) (receipt : EnrollmentReceipt)
      (verified : event.presentation crypto = some presented)
      (known : presented.setsUp = false → presented.trust ∈ store.readings)
      (admitted : store.Admits event.clock presented.keyHash presented.claims presented.bootstrap)
      (enrolls : store.Enrolls event.clock presented.claims presented.bootstrap next) :
      Effect crypto event store next (.receipt receipt)

theorem effect_redeemPairing {code : Text} {name : String} {minted : NodeCredentials}
    {credentials : Option NodeCredentials} (called : event.op = .redeemPairing code name minted)
    (done : redeemPairing crypto store event.clock code name minted = .ok (next, credentials)) :
    event.Effect crypto store next (.credentials credentials) := by
  unfold redeemPairing at done
  obtain ⟨_, named, done⟩ := bind_eq_ok_iff.mp done
  cases present : store.pairing with
  | none =>
    rw [present] at done
    obtain ⟨rfl, rfl⟩ := Prod.mk.inj (pure_eq_ok_iff.mp done)
    refine .closed code name minted called ?_
    intro pairing found
    rw [present] at found
    cases found
  | some pairing =>
    rw [present] at done
    by_cases isOpen : pairing.isOpen (event.clock 0) = true
    · by_cases isWrong : pairing.isWrong crypto code = true
      · simp only [isOpen, isWrong, Bool.not_true, Bool.false_eq_true, if_false, if_true] at done
        obtain ⟨rfl, rfl⟩ := Prod.mk.inj (pure_eq_ok_iff.mp done)
        exact .wrong code name minted pairing called named present isOpen isWrong
      · simp only [isOpen, isWrong, Bool.not_true, Bool.false_eq_true, if_false] at done
        obtain ⟨middle, created, done⟩ := bind_eq_ok_iff.mp done
        obtain ⟨rfl, rfl⟩ := Prod.mk.inj (pure_eq_ok_iff.mp done)
        exact .redeemed code name minted pairing middle called present isOpen
          (Bool.not_eq_true _ ▸ isWrong) created
    · simp only [isOpen, Bool.not_false, if_true] at done
      obtain ⟨rfl, rfl⟩ := Prod.mk.inj (pure_eq_ok_iff.mp done)
      refine .closed code name minted called ?_
      intro other found
      rw [present] at found
      cases found
      exact Bool.not_eq_true _ ▸ isOpen

theorem effect_configurePrivateFleet {trust : EnrollmentTrust} {assertion : EnrollmentAssertion}
    {localKey : Text} {receipt : EnrollmentReceipt}
    (called : event.op = .configurePrivateFleet trust assertion localKey)
    (done : configurePrivateFleet crypto store event.clock trust assertion localKey =
      .ok (next, receipt)) :
    event.Effect crypto store next (.receipt receipt) := by
  unfold configurePrivateFleet at done
  obtain ⟨_, _, done⟩ := bind_eq_ok_iff.mp done
  obtain ⟨_, _, done⟩ := bind_eq_ok_iff.mp done
  obtain ⟨claims, verified, done⟩ := bind_eq_ok_iff.mp done
  obtain ⟨keyHash, connected, done⟩ := bind_eq_ok_iff.mp done
  unfold connect at connected
  obtain ⟨_, _, connected⟩ := bind_eq_ok_iff.mp connected
  obtain ⟨_, _, connected⟩ := bind_eq_ok_iff.mp connected
  obtain rfl := pure_eq_ok_iff.mp connected
  obtain ⟨admitted, enrolls⟩ := admits_of_acceptEnrollment done
  refine .enrolled ⟨crypto.digest localKey, trust, true, claims⟩ next receipt ?_ ?_ admitted enrolls
  · rw [FleetEvent.presentation, called]
    dsimp only
    rw [verified]
    rfl
  · exact fun later => Bool.noConfusion later

theorem effect_enrollmentComplete {keyHash : Text} {trust : EnrollmentTrust}
    {assertion : EnrollmentAssertion} {receipt : EnrollmentReceipt}
    (called : event.op = .enrollmentComplete keyHash trust assertion)
    (done : enrollmentComplete crypto store event.clock keyHash trust assertion =
      .ok (next, receipt)) :
    event.Effect crypto store next (.receipt receipt) := by
  unfold enrollmentComplete at done
  obtain ⟨_, known, done⟩ := bind_eq_ok_iff.mp done
  obtain ⟨claims, verified, done⟩ := bind_eq_ok_iff.mp done
  obtain ⟨admitted, enrolls⟩ := admits_of_acceptEnrollment done
  refine .enrolled ⟨keyHash, trust, false, claims⟩ next receipt ?_ ?_ admitted enrolls
  · rw [FleetEvent.presentation, called]
    dsimp only
    rw [verified]
    rfl
  · exact fun _ => require_eq_ok_iff.mp known

theorem effect_of_reply (done : event.reply crypto store = .ok (next, answer)) :
    event.Effect crypto store next answer := by
  unfold FleetEvent.reply at done
  cases called : event.op with
  | pairingCode code =>
    rw [called] at done
    obtain ⟨rfl, rfl⟩ := Prod.mk.inj (Except.ok.inj done)
    exact .made code called
  | redeemPairing code name minted =>
    rw [called] at done
    obtain ⟨⟨_, credentials⟩, redeemed, same⟩ := map_eq_ok_iff.mp done
    obtain ⟨rfl, rfl⟩ := Prod.mk.inj same
    exact effect_redeemPairing called redeemed
  | enrollOwner name minted =>
    rw [called] at done
    obtain ⟨_, joined, same⟩ := map_eq_ok_iff.mp done
    obtain ⟨rfl, rfl⟩ := Prod.mk.inj same
    obtain ⟨_, _, created⟩ := bind_eq_ok_iff.mp joined
    exact .joined name minted _ called created
  | revoke node =>
    rw [called] at done
    obtain ⟨rfl, rfl⟩ := Prod.mk.inj (Except.ok.inj done)
    exact .revoked node called
  | setNodeOwner node member =>
    rw [called] at done
    obtain ⟨_, bound, same⟩ := map_eq_ok_iff.mp done
    obtain ⟨rfl, rfl⟩ := Prod.mk.inj same
    exact .bound node member _ called bound
  | enrollmentChallenge keyHash nonce =>
    rw [called] at done
    obtain ⟨_, challenged, same⟩ := map_eq_ok_iff.mp done
    obtain ⟨rfl, rfl⟩ := Prod.mk.inj same
    exact .challenged keyHash nonce _ called challenged
  | readTrust keyHash =>
    rw [called] at done
    obtain ⟨_, read, same⟩ := map_eq_ok_iff.mp done
    obtain ⟨rfl, rfl⟩ := Prod.mk.inj same
    obtain ⟨node, authenticated, read⟩ := bind_eq_ok_iff.mp read
    obtain ⟨trust, stored, read⟩ := bind_eq_ok_iff.mp read
    obtain rfl := pure_eq_ok_iff.mp read
    exact .read keyHash trust node called authenticated (orFail_eq_ok_iff.mp stored)
  | configurePrivateFleet trust assertion localKey =>
    rw [called] at done
    obtain ⟨⟨_, receipt⟩, configured, same⟩ := map_eq_ok_iff.mp done
    obtain ⟨rfl, rfl⟩ := Prod.mk.inj same
    exact effect_configurePrivateFleet called configured
  | enrollmentComplete keyHash trust assertion =>
    rw [called] at done
    obtain ⟨⟨_, receipt⟩, completed, same⟩ := map_eq_ok_iff.mp done
    obtain ⟨rfl, rfl⟩ := Prod.mk.inj same
    exact effect_enrollmentComplete called completed

theorem keeps_of_effect (effect : event.Effect crypto store next answer) : store.Keeps next := by
  have kept := FleetStore.Keeps.refl store
  cases effect with
  | made code called => exact ⟨kept.1, kept.2, kept.3, kept.4⟩
  | closed => exact kept
  | wrong => exact ⟨kept.1, kept.2, kept.3, kept.4⟩
  | redeemed _ _ _ _ middle _ _ _ _ created =>
    have minted := keeps_mint created
    exact ⟨minted.1, minted.2, minted.3, minted.4⟩
  | joined _ _ _ _ created => exact keeps_mint created
  | revoked node => exact keeps_revoke node
  | bound _ _ _ _ done => exact keeps_setNodeOwner done
  | challenged _ _ _ _ done =>
    obtain ⟨_, _, _, rfl, _⟩ := of_enrollmentChallenge done
    exact ⟨kept.1, kept.2, kept.3, kept.4⟩
  | read => exact ⟨kept.1, kept.2, kept.3, kept.4⟩
  | enrolled _ _ _ _ _ admitted enrolls => exact keeps_enrolls admitted enrolls

/-- A step commits its effect, or leaves the store as it was. -/
theorem step_cases (crypto : Crypto) (store : FleetStore) (event : FleetEvent) :
    (∃ next answer, event.reply crypto store = .ok (next, answer) ∧
      event.Effect crypto store next answer ∧ store.step crypto event = next) ∨
    ∃ failure, event.reply crypto store = .error failure ∧ store.step crypto event = store := by
  unfold FleetStore.step
  cases replied : event.reply crypto store with
  | ok reply => exact Or.inl ⟨reply.1, reply.2, rfl, effect_of_reply replied, rfl⟩
  | error failure => exact Or.inr ⟨failure, rfl, rfl⟩

theorem keeps_step (crypto : Crypto) (store : FleetStore) (event : FleetEvent) :
    store.Keeps (store.step crypto event) := by
  rcases step_cases crypto store event with ⟨_, _, _, effect, same⟩ | ⟨_, _, same⟩
  · rw [same]
    exact keeps_of_effect effect
  · rw [same]
    exact FleetStore.Keeps.refl store

end Effects

end OHHive.Fleet
