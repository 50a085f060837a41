import OHHive.Vault.Catalog
import OHHive.Vault.Writes

/-! The maintenance loop of the host. A tick claims the first vault that is due, reads whether it is
available, scans it, and publishes what it found, each in a transaction of its own. -/

namespace OHHive.Vault

open Foundation

section Ticks

/-- A pass over a vault: its policy and token, and when its tick began. -/
structure MaintenanceClaim where
  vault : Uuid
  policy : MaintenancePolicy
  token : Uuid
  now : Int
deriving DecidableEq, Repr

/-- `ORDER BY m.next_due_ms,m.vault_id`. -/
def dueOrder (first second : VaultMaintenance) : Prop :=
  first.nextDueMs < second.nextDueMs ∨
    first.nextDueMs = second.nextDueMs ∧ first.vaultId.value ≤ second.vaultId.value

instance : DecidableRel dueOrder := fun _ _ => inferInstanceAs (Decidable (_ ∨ _))

/-- The schedules that are due and held by no pass, or by one that was given up. -/
def dueRows (db : VaultDb) (now : Int) : List VaultMaintenance :=
  (db.maintenance.rows.filter fun row =>
    row.nextDueMs ≤ now && (row.token.isNone || row.leaseUntilMs ≤ now)).insertionSort dueOrder

def VaultDb.setMaintenance (db : VaultDb) (vault : Uuid)
    (change : VaultMaintenance → VaultMaintenance)
    (fixed : ∀ row, (change row).vaultId = row.vaultId) : VaultDb :=
  { db with
    maintenance := db.maintenance.updateWhere (fun row => row.vaultId = vault) change fixed }

/-- The first transaction of a tick. -/
def claimMaintenance (db : VaultDb) (token : Uuid) (now : Int) :
    Result (VaultDb × Option MaintenanceClaim) :=
  match (dueRows db now).find? (·.policy.enabled) with
  | none => .ok (db, none)
  | some row => do
    row.policy.validate
    let db := db.setMaintenance row.vaultId
      (fun held => { held with token := some token, leaseUntilMs := saturatingAdd now 3600000 })
      (fun _ => rfl)
    return (db, some ⟨row.vaultId, row.policy, token, now⟩)

/-- The second transaction of a tick: `SELECT state='ready' FROM vaults WHERE id=?1`. -/
def maintenanceReady (db : VaultDb) (vault : Uuid) : Result Bool := do
  let info ← orFail (db.vaults.lookup vault) dbError
  return info.state = .ready

/-- A result to begin with. -/
def MaintenanceClaim.unavailable (claim : MaintenanceClaim) (finished : Int) :
    MaintenanceResult where
  vaultId := claim.vault
  finishedMs := finished
  outcome := "unavailable"
  notes := 0
  stale := 0
  snapshotsExpired := 0
  staleCandidates := []
  archiveBytes := 0
  overQuota := false

/-- What the scan found; behind one of an available vault aged snapshots expire. -/
def applyScan (db : VaultDb) (claim : MaintenanceClaim) (finished : Int) :
    Option (Result CurationReport) → Result (VaultDb × MaintenanceResult)
  | some (.ok report) =>
    if report.vaultState = .ready then do
      let expired ← expire db claim.vault claim.now claim.policy
      return (expired, { claim.unavailable finished with
        outcome := "scanned"
        notes := report.notes.length
        stale := report.stale.length
        snapshotsExpired := expired.events.length - db.events.length
        staleCandidates := report.stale.take 1000 })
    else .ok (db, claim.unavailable finished)
  | some (.error _) => .ok (db, { claim.unavailable finished with outcome := "scan_failed" })
  | none => .ok (db, claim.unavailable finished)

/-- Whether the pass holds the schedule of its vault still. -/
def VaultDb.holds (db : VaultDb) (claim : MaintenanceClaim) : Bool :=
  db.maintenance.rows.any fun row => row.vaultId = claim.vault && row.token = some claim.token

/-- The last transaction of a tick. -/
def publishMaintenance (db : VaultDb) (claim : MaintenanceClaim)
    (scan : Option (Result CurationReport)) (finished : Int) :
    Result (VaultDb × Option MaintenanceResult) :=
  if db.holds claim then do
    let (db, found) ← applyScan db claim finished scan
    let bytes := archiveBytes db claim.vault
    let result := { found with
      archiveBytes := bytes
      overQuota := claim.policy.archiveQuotaBytes < bytes }
    let delay : Int :=
      if result.outcome = "scanned" then claim.policy.intervalSeconds * 1000 else 60000
    let db := db.setMaintenance claim.vault
      (fun row => { row with
        token := none
        leaseUntilMs := 0
        nextDueMs := saturatingAdd claim.now delay
        lastFinishedMs := some finished
        lastResult := some result })
      (fun _ => rfl)
    return (db, some result)
  else .ok (db, none)

end Ticks

section Loops

/-- The catalog after a transaction that writes documents in several statements. -/
def Catalog.writes (catalog : Catalog) (now : Int) (between : List VaultDb) (db : VaultDb) :
    Catalog :=
  (between.foldl (Catalog.write · now) catalog).write now db

/-- How far the tick of a loop has come; a loop whose tick fails ends. -/
inductive Pass where
  | sleeping
  | claimed (claim : MaintenanceClaim)
  | available (claim : MaintenanceClaim) (ready : Bool)
  | scanned (claim : MaintenanceClaim) (scan : Option (Result CurationReport))
  | ended

/-- The claim that a pass is for. -/
def Pass.claim? : Pass → Option MaintenanceClaim
  | .claimed claim | .available claim _ | .scanned claim _ => some claim
  | .sleeping | .ended => none

/-- The catalog with its maintenance loops, and how many tokens they have minted. -/
structure Maintained where
  catalog : Catalog
  passes : Nat → Pass
  minted : Nat

def Maintained.initial : Maintained := ⟨.empty, fun _ => .sleeping, 0⟩

/-- A transaction of the host on a vault, or of a loop's tick, at a reading of the clock. -/
inductive MaintenanceMove where
  | host (event : CatalogEvent)
  | write (write : VaultWrite) (now : Int)
  | save (vault id : Uuid) (path title content : Text) (date : Option Int) (now : Int)
  | claim (loop : Nat) (now : Int)
  | ready (loop : Nat)
  | scan (loop : Nat) (now : Int)
  | publish (loop : Nat) (now : Int)

def Maintained.setPass (state : Maintained) (loop : Nat) (pass : Pass) : Maintained :=
  { state with passes := Function.update state.passes loop pass }

def Maintained.tickClaim (state : Maintained) (loop : Nat) (now : Int) : Maintained :=
  match claimMaintenance state.catalog.db ⟨state.minted⟩ now with
  | .error _ => state.setPass loop .ended
  | .ok (db, claim?) =>
    { catalog := { state.catalog with db }
      passes := Function.update state.passes loop ((claim?.map Pass.claimed).getD .sleeping)
      minted := state.minted + 1 }

def Maintained.tickReady (state : Maintained) (loop : Nat) (claim : MaintenanceClaim) :
    Maintained :=
  match maintenanceReady state.catalog.db claim.vault with
  | .error _ => state.setPass loop .ended
  | .ok ready => state.setPass loop (.available claim ready)

def Maintained.tickPublish (state : Maintained) (loop : Nat) (claim : MaintenanceClaim)
    (scan : Option (Result CurationReport)) (now : Int) : Maintained :=
  match publishMaintenance state.catalog.db claim scan now with
  | .error _ => state.setPass loop .ended
  | .ok (db, _) =>
    { catalog := { state.catalog with db }
      passes := Function.update state.passes loop .sleeping
      minted := state.minted }

variable (sha256 : Text → Text) (formats : DateFormats)

def Maintained.step (state : Maintained) : MaintenanceMove → Maintained
  | .host event => { state with catalog := state.catalog.step sha256 formats event }
  | .write write now =>
    match write.reply sha256 state.catalog.db now with
    | .ok (between, db) => { state with catalog := state.catalog.writes now between db }
    | .error _ => state
  | .save vault id path title content date now =>
    match saveDocument sha256 state.catalog.db vault id path title content date with
    | .ok db => { state with catalog := state.catalog.write now db }
    | .error _ => state
  | .claim loop now =>
    match state.passes loop with
    | .sleeping => state.tickClaim loop now
    | _ => state
  | .ready loop =>
    match state.passes loop with
    | .claimed claim => state.tickReady loop claim
    | _ => state
  | .scan loop now =>
    match state.passes loop with
    | .available claim true =>
      let report := curationScanAt state.catalog claim.vault claim.policy.staleAfterDays now
      state.setPass loop (.scanned claim (some report))
    | .available claim false => state.setPass loop (.scanned claim none)
    | _ => state
  | .publish loop now =>
    match state.passes loop with
    | .scanned claim scan => state.tickPublish loop claim scan now
    | _ => state

/-- The state after the first `moment` moves. -/
def maintainedAt (moves : List MaintenanceMove) (moment : Nat) : Maintained :=
  stateAt (Maintained.step sha256 formats) .initial moves moment

end Loops

end OHHive.Vault
