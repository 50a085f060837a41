import OHHive.Coder.Session
import OHHive.Foundation.Run
import OHHive.Foundation.Table

/-! Pairing computers with a hub and enrolling them in its owner's private fleet. Every operation is
one transaction, rolled back when it fails. -/

namespace OHHive.Fleet

open Foundation
open Coder (byteLength)

section Rows

structure FleetNode where
  id : Uuid
  name : String
  ownerMemberId : Option Uuid
deriving DecidableEq, Repr

structure NodeKey where
  hash : Text
  nodeId : Uuid
  revoked : Bool
deriving DecidableEq, Repr

structure Pairing where
  hash : Text
  expires : Int
  attempts : Nat
deriving DecidableEq, Repr

structure EnrollmentTrust where
  issuer : Text
  keyId : Text
  publicKey : Text
deriving DecidableEq, Repr

/-- The one row of `private_fleet_authority`. -/
structure FleetAuthority where
  authorityId : Uuid
  fleetId : Option Uuid
  ownerId : Option Uuid
  trust : Option EnrollmentTrust
deriving DecidableEq, Repr

structure FleetChallenge where
  nodeId : Uuid
  keyHash : Text
  nonce : Text
  expiresAt : Int
deriving DecidableEq, Repr

structure FleetEnrollment where
  assertionId : Uuid
  nodeId : Uuid
  acceptedAt : Int
deriving DecidableEq, Repr

/-- One challenge for a node, and no nonce twice. -/
def FleetChallenge.Clash (earlier later : FleetChallenge) : Prop :=
  earlier.nodeId = later.nodeId ∨ earlier.nonce = later.nonce

instance : DecidableRel FleetChallenge.Clash := fun _ _ => inferInstanceAs (Decidable (_ ∨ _))

/-- The tables, and the trust that enrollments under way have read. -/
structure FleetStore where
  nodes : Table FleetNode (Table.SameKey FleetNode.id)
  keys : Table NodeKey (Table.SameKey NodeKey.hash)
  pairing : Option Pairing
  authority : FleetAuthority
  challenges : Table FleetChallenge FleetChallenge.Clash
  enrollments : Table FleetEnrollment (Table.SameKey FleetEnrollment.assertionId)
  readings : List EnrollmentTrust

/-- A new store, with the authority it minted for itself. -/
def FleetStore.new (authority : Uuid) : FleetStore :=
  ⟨Table.empty, Table.empty, none, ⟨authority, none, none, none⟩, Table.empty, Table.empty, []⟩

structure NodeCredentials where
  nodeId : Uuid
  rawKey : Text
deriving DecidableEq, Repr

structure EnrollmentReceipt where
  authorityId : Uuid
  fleetId : Uuid
  ownerId : Uuid
  nodeId : Uuid
deriving DecidableEq, Repr

structure EnrollmentAssertion where
  payload : Text
  signature : Text
deriving DecidableEq, Repr

structure EnrollmentClaims where
  issuer : Text
  keyId : Text
  audience : Text
  subject : Uuid
  fleetId : Uuid
  authorityId : Uuid
  nodeId : Uuid
  credentialSha256 : Text
  nonce : Text
  assertionId : Uuid
  issuedAt : Int
  expiresAt : Int
deriving DecidableEq, Repr

end Rows

section Keys

/-- The digest of texts, and the formats and the signature check of enrollment assertions. -/
structure Crypto where
  digest : Text → Text
  decodeBase64 : Text → Option (List UInt8)
  verifies : List UInt8 → Text → List UInt8 → Bool
  parseClaims : List UInt8 → Option EnrollmentClaims
  /-- The URL of an issuer: its scheme, user name and password. -/
  parseUrl : Text → Option (Text × Text × Option Text)

variable (crypto : Crypto) (store : FleetStore) (clock : Nat → Int)

/-- `with_node`: the node of a key that is not revoked. -/
def withNode (keyHash : Text) : Result Uuid :=
  match store.keys.lookup keyHash with
  | some key => if key.revoked then .error .badKey else .ok key.nodeId
  | none => .error .badKey

/-- `mint`: a computer and its key. -/
def mint (name : String) (minted : NodeCredentials) : Result FleetStore := do
  let nodes ← orFail (store.nodes.insert? ⟨minted.nodeId, name, none⟩) dbError
  let keys ← orFail (store.keys.insert? ⟨crypto.digest minted.rawKey, minted.nodeId, false⟩) dbError
  return { store with nodes, keys }

def enrollOwner (name : String) (minted : NodeCredentials) : Result FleetStore := do
  checkText name 100
  mint crypto store name minted

def pairingCode (code : Text) : FleetStore :=
  { store with pairing := some ⟨crypto.digest code, clock 0 + 300, 0⟩ }

/-- Whether a pairing code is open to guesses. -/
def Pairing.isOpen (pairing : Pairing) (now : Int) : Bool :=
  !(pairing.expires ≤ now || 5 ≤ pairing.attempts)

def Pairing.isWrong (pairing : Pairing) (code : Text) : Bool :=
  byteLength code ≠ 8 || crypto.digest code ≠ pairing.hash

/-- A wrong guess is counted, so it commits as the right one does; `none` is a refusal. -/
def redeemPairing (code : Text) (name : String) (minted : NodeCredentials) :
    Result (FleetStore × Option NodeCredentials) := do
  checkText name 100
  match store.pairing with
  | none => return (store, none)
  | some pairing =>
    if !pairing.isOpen (clock 0) then return (store, none)
    else if pairing.isWrong crypto code then
      return ({ store with
        pairing := some { pairing with attempts := pairing.attempts + 1 } }, none)
    else
      let store ← mint crypto store name minted
      return ({ store with pairing := none }, some minted)

def revoke (node : Uuid) : FleetStore :=
  { store with
    keys := store.keys.updateWhere (fun key => key.nodeId = node)
      (fun key => { key with revoked := true }) (fun _ => rfl) }

/-- Binding is immutable, so an old key never inherits a different account. -/
def setNodeOwner (node member : Uuid) : Result FleetStore := do
  require (member ≠ 0) (rejected "invalid member identity")
  require (store.nodes.rows.any (fun row => row.id = node &&
      row.ownerMemberId.all (fun owner => owner = member)))
    (rejected "node not found or already bound to another account")
  return { store with
    nodes := store.nodes.updateWhere
      (fun row => row.id = node && row.ownerMemberId.all (fun owner => owner = member))
      (fun row => { row with ownerMemberId := some member }) (fun _ => rfl) }

end Keys

section Enrollment

variable (crypto : Crypto) (store : FleetStore) (clock : Nat → Int)

def enrollmentTtl : Int := 300

def saturatingSub (first second : Int) : Int := max (-i64Max - 1) (min i64Max (first - second))

def enrollmentDomain : Text := "hive.private-fleet.enrollment.v1\n".toList

/-- `verify_assertion`: the signature of the trusted issuer, and the scope and time of what it
signed. -/
def verifyAssertion (trust : EnrollmentTrust) (envelope : EnrollmentAssertion) (time : Int) :
    Result EnrollmentClaims := do
  require (byteLength envelope.payload ≤ 8192 ∧ byteLength envelope.signature ≤ 128)
    (rejected "invalid enrollment assertion")
  let key ← orFail (crypto.decodeBase64 trust.publicKey) (rejected "invalid enrollment trust key")
  let signature ← orFail (crypto.decodeBase64 envelope.signature)
    (rejected "invalid enrollment signature")
  require (crypto.verifies key (enrollmentDomain ++ envelope.payload) signature)
    (rejected "invalid enrollment signature")
  let payload ← orFail (crypto.decodeBase64 envelope.payload)
    (rejected "invalid enrollment assertion")
  let c ← orFail (crypto.parseClaims payload) (rejected "invalid enrollment claims")
  require (c.issuer = trust.issuer ∧ c.keyId = trust.keyId ∧
      c.audience = "hive-private-fleet-enrollment".toList ∧ c.subject ≠ 0 ∧ c.fleetId ≠ 0 ∧
      c.assertionId ≠ 0 ∧ c.issuedAt ≤ time + 30 ∧ time < c.expiresAt ∧
      c.issuedAt < c.expiresAt ∧
      saturatingSub c.expiresAt c.issuedAt ≤ enrollmentTtl ∧
      byteLength c.nonce = 64 ∧ byteLength c.credentialSha256 = 64)
    (rejected "enrollment assertion has invalid scope or expiry")
  return c

/-- The fleet the authority is of, and its owner; only a set-up may come first. -/
def checkFleet (c : EnrollmentClaims) (bootstrap : Option EnrollmentTrust) : Result Unit :=
  match store.authority.fleetId with
  | some fleet =>
    require (bootstrap = none ∧ fleet = c.fleetId ∧ store.authority.ownerId = some c.subject)
      (rejected "enrollment assertion belongs to another fleet or owner")
  | none => require (bootstrap ≠ none) (rejected "private fleet is not configured")

/-- The authority after a set-up. -/
def FleetAuthority.configured (authority : FleetAuthority) (c : EnrollmentClaims) :
    Option EnrollmentTrust → FleetAuthority
  | some trust =>
    { authority with fleetId := some c.fleetId, ownerId := some c.subject, trust := some trust }
  | none => authority

/-- `accept_enrollment`: everything is checked against what is stored, then the assertion is
recorded, the node bound and its challenge used up. -/
def acceptEnrollment (keyHash : Text) (c : EnrollmentClaims) (bootstrap : Option EnrollmentTrust) :
    Result (FleetStore × EnrollmentReceipt) := do
  let node ← withNode store keyHash
  require (store.authority.authorityId = c.authorityId ∧ node = c.nodeId ∧
      keyHash = c.credentialSha256)
    (rejected "enrollment assertion targets another authority or credential")
  checkFleet store c bootstrap
  require (store.challenges.rows.any (fun challenge => challenge.nodeId = node &&
      challenge.keyHash = keyHash && challenge.nonce = c.nonce && clock 0 < challenge.expiresAt) ∧
      clock 1 < c.expiresAt)
    (rejected "enrollment challenge expired or already used")
  let row ← orFail (store.nodes.lookup node) dbError
  require (row.ownerMemberId.all (fun owner => owner = c.subject))
    (rejected "node is already bound to another account")
  let enrollments ← orFail (store.enrollments.insert? ⟨c.assertionId, node, clock 2⟩)
    (rejected "enrollment assertion already used")
  return ({ store with
    enrollments
    nodes := store.nodes.updateWhere (fun row => row.id = node)
      (fun row => { row with ownerMemberId := some c.subject }) (fun _ => rfl)
    authority := store.authority.configured c bootstrap
    challenges := store.challenges.keep (fun challenge => challenge.nodeId ≠ node) },
    ⟨c.authorityId, c.fleetId, c.subject, c.nodeId⟩)

/-- `connect`: the form of a key, and that it authenticates. -/
def connect (rawKey : Text) : Result Text := do
  require ("hive_nk_".toList.isPrefixOf rawKey ∧ byteLength rawKey = 56) .badKey
  let _ ← withNode store (crypto.digest rawKey)
  return crypto.digest rawKey

def configurePrivateFleet (trust : EnrollmentTrust) (assertion : EnrollmentAssertion)
    (localKey : Text) : Result (FleetStore × EnrollmentReceipt) := do
  let url ← orFail (crypto.parseUrl trust.issuer) (rejected "invalid enrollment issuer")
  require (url.1 = "https".toList ∧ url.2.1 = [] ∧ url.2.2 = none)
    (rejected "enrollment issuer must use HTTPS")
  let claims ← verifyAssertion crypto trust assertion (clock 3)
  let keyHash ← connect crypto store localKey
  acceptEnrollment store clock keyHash claims (some trust)

/-- A challenge replaces the one its node had. -/
def enrollmentChallenge (keyHash nonce : Text) : Result FleetStore := do
  let node ← withNode store keyHash
  require ((store.nodes.lookup node).isSome) dbError
  let others := store.challenges.keep (fun challenge => challenge.nodeId ≠ node)
  let challenges ← orFail (others.insert? ⟨node, keyHash, nonce, clock 0 + enrollmentTtl⟩) dbError
  return { store with challenges }

/-- The first transaction of `enrollment_complete`: the trust its assertion is verified under. -/
def readTrust (keyHash : Text) : Result FleetStore := do
  let _ ← withNode store keyHash
  let trust ← orFail store.authority.trust
    (rejected "private fleet authority must be configured by its owner first")
  return { store with readings := store.readings ++ [trust] }

/-- The rest of `enrollment_complete`, under a trust that was read. -/
def enrollmentComplete (keyHash : Text) (trust : EnrollmentTrust)
    (assertion : EnrollmentAssertion) : Result (FleetStore × EnrollmentReceipt) := do
  require (trust ∈ store.readings)
    (rejected "private fleet authority must be configured by its owner first")
  let claims ← verifyAssertion crypto trust assertion (clock 3)
  acceptEnrollment store clock keyHash claims none

end Enrollment

section Operations

/-- One operation, with the identities and secrets it draws. -/
inductive FleetOp where
  | pairingCode (code : Text)
  | redeemPairing (code : Text) (name : String) (minted : NodeCredentials)
  | enrollOwner (name : String) (minted : NodeCredentials)
  | revoke (node : Uuid)
  | setNodeOwner (node member : Uuid)
  | enrollmentChallenge (keyHash nonce : Text)
  | readTrust (keyHash : Text)
  | configurePrivateFleet (trust : EnrollmentTrust) (assertion : EnrollmentAssertion)
      (localKey : Text)
  | enrollmentComplete (keyHash : Text) (trust : EnrollmentTrust) (assertion : EnrollmentAssertion)

structure FleetEvent where
  op : FleetOp
  clock : Nat → Int

/-- What an operation that commits tells its caller. -/
inductive FleetAnswer where
  | done
  | credentials (minted : Option NodeCredentials)
  | receipt (receipt : EnrollmentReceipt)
deriving DecidableEq, Repr

def FleetEvent.reply (crypto : Crypto) (event : FleetEvent) (store : FleetStore) :
    Result (FleetStore × FleetAnswer) :=
  match event.op with
  | .pairingCode code => .ok (pairingCode crypto store event.clock code, .done)
  | .redeemPairing code name minted =>
    Prod.map id .credentials <$> redeemPairing crypto store event.clock code name minted
  | .enrollOwner name minted => (·, .done) <$> enrollOwner crypto store name minted
  | .revoke node => .ok (revoke store node, .done)
  | .setNodeOwner node member => (·, .done) <$> setNodeOwner store node member
  | .enrollmentChallenge keyHash nonce =>
    (·, .done) <$> enrollmentChallenge store event.clock keyHash nonce
  | .readTrust keyHash => (·, .done) <$> readTrust store keyHash
  | .configurePrivateFleet trust assertion localKey =>
    Prod.map id .receipt <$>
      configurePrivateFleet crypto store event.clock trust assertion localKey
  | .enrollmentComplete keyHash trust assertion =>
    Prod.map id .receipt <$> enrollmentComplete crypto store event.clock keyHash trust assertion

def FleetStore.step (crypto : Crypto) (store : FleetStore) (event : FleetEvent) : FleetStore :=
  match event.reply crypto store with
  | .ok (next, _) => next
  | .error _ => store

abbrev fleetAt (crypto : Crypto) (authority : Uuid) (events : List FleetEvent) (moment : Nat) :
    FleetStore :=
  stateAt (FleetStore.step crypto) (FleetStore.new authority) events moment

end Operations

end OHHive.Fleet
