import OHHive.Cloud.Cards
import OHHive.Cloud.Election

/-! One-time codes: pairing codes, which a member claims for a node that then polls for its key, and
the link codes of external chats, statement by statement. -/

namespace OHHive.Cloud

open Foundation

section Tables

/-- A row of `pairings`; the serial number tells it from every other row that ever was. -/
structure Pairing where
  serial : Nat
  code : Text
  secretHash : Text
  expiresAt : Time
  claimedBy : Option MemberId
  nodeId : Option NodeId
  rawKey : Option Text
  hint : String
deriving DecidableEq, Repr

/-- The unique columns of `pairings`. -/
def PairingClash (first second : Pairing) : Prop :=
  first.serial = second.serial ∨ first.code = second.code ∨ first.secretHash = second.secretHash

instance : DecidableRel PairingClash := fun first second =>
  inferInstanceAs (Decidable (first.serial = second.serial ∨ first.code = second.code ∨
    first.secretHash = second.secretHash))

/-- A row of `nodes`, as far as pairing is concerned. -/
structure PairedNode where
  id : NodeId
  memberId : MemberId
  displayName : String
  allowInternet : Bool
  toolsLevel : String
deriving DecidableEq, Repr

/-- A row of `chat_link_codes`. -/
structure LinkCode where
  code : Text
  memberId : MemberId
  expiresAt : Time
  usedAt : Option Time
deriving DecidableEq, Repr

/-- A row of `notification_subscriptions` for no project in particular. -/
structure ChatSubscription where
  memberId : MemberId
  channel : String
  externalChatId : String
deriving DecidableEq, Repr

structure CodeTables where
  serials : Nat
  pairings : Table Pairing PairingClash
  nodes : Table PairedNode (Table.SameKey PairedNode.id)
  keys : Table NodeKey (Table.SameKey NodeKey.keyHash)
  links : Table LinkCode (Table.SameKey LinkCode.code)
  subscriptions : List ChatSubscription
  profileName : MemberId → Option String

/-- `select … from hive.pairings where code = …`. -/
def CodeTables.pairingBy (tables : CodeTables) (code : Text) : Option Pairing :=
  tables.pairings.rows.find? fun row => row.code = code

end Tables

section Calls

/-- A call, with what is drawn at random for it and what its session says. A member that is given
is an active one. -/
inductive CodeCall where
  | pairBegin (hint : String) (secret : Text) (codes : List Text) (now : Time)
  | pairClaim (member : Option MemberId) (code : Text) (displayName : String)
      (allowInternet : Bool) (toolsLevel : String) (nodeId : NodeId) (rawKey : Text) (now : Time)
  | pairPoll (secret : Text) (now : Time)
  | pairSweep (now : Time)
  | memberCreateLinkCode (member : Option MemberId) (code : Text) (now : Time)
  | chatRedeemLink (code : Text) (channel externalChatId : String) (now : Time)
deriving DecidableEq, Repr

/-- What a call answers, with the row that it read and decided on. -/
inductive CodeAnswer where
  | began (code secret : Text)
  | claimed (read : Pairing) (member : MemberId) (nodeId : NodeId) (rawKey : Text)
      (displayName hint : String)
  | expired
  | pending
  | handedOut (read : Pairing) (nodeKey : Text) (nodeId : Option NodeId) (node : Option PairedNode)
  | swept (count : Nat)
  | linkCode (code : Text)
  | linked (read : LinkCode) (channel externalChatId : String) (displayName : String)
deriving DecidableEq, Repr

structure CodeDb where
  tables : CodeTables
  answers : List CodeAnswer

/-- The rows, or the values of unique columns, that a call locks. -/
inductive CodeRow where
  | pairing (code : Text)
  | secret (hash : Text)
  | node (id : NodeId)
  | key (hash : Text)
  | link (code : Text)
deriving DecidableEq, Repr

end Calls

section Writes

def eightMinutes : Time := seconds 480

/-- A pairing that is claimed, with time for the node to poll. -/
def Pairing.claim (row : Pairing) (member : MemberId) (node : NodeId) (rawKey : Text) (now : Time) :
    Pairing :=
  { row with
    claimedBy := some member
    nodeId := some node
    rawKey := some rawKey
    expiresAt := now + eightMinutes }

namespace CodeTables

/-- `insert into hive.pairings`. -/
def beginPairing (tables : CodeTables) (code secretHash : Text) (hint : String) (now : Time) :
    CodeTables :=
  { tables with
    serials := tables.serials + 1
    pairings := (tables.pairings.insert?
      ⟨tables.serials, code, secretHash, now + eightMinutes, none, none, none, hint⟩).getD
        tables.pairings }

/-- `insert into hive.nodes` and `insert into hive.node_keys`. -/
def addNode (tables : CodeTables) (node : PairedNode) (rawKey : Text) : CodeTables :=
  { tables with
    nodes := (tables.nodes.insert? node).getD tables.nodes
    keys := (tables.keys.insert? ⟨node.id, keyHash rawKey, none⟩).getD tables.keys }

/-- `update hive.pairings set claimed_by = … where code = …`. -/
def claimPairing (tables : CodeTables) (code : Text) (member : MemberId) (node : NodeId)
    (rawKey : Text) (now : Time) : CodeTables :=
  { tables with
    pairings := tables.pairings.update
      (fun row => if row.code = code then row.claim member node rawKey now else row) (by
        intro earlier later
        split <;> split <;> exact id) }

/-- `delete from hive.pairings where code = …`. -/
def dropPairing (tables : CodeTables) (code : Text) : CodeTables :=
  { tables with pairings := tables.pairings.keep fun row => row.code ≠ code }

/-- `delete from hive.pairings where expires_at < now()`, of the rows that are locked. -/
def sweepPairings (tables : CodeTables) (codes : List Text) (now : Time) : CodeTables :=
  { tables with
    pairings := tables.pairings.keep fun row => !(codes.contains row.code && row.expiresAt < now) }

/-- `insert into hive.chat_link_codes`. -/
def addLinkCode (tables : CodeTables) (code : Text) (member : MemberId) (now : Time) : CodeTables :=
  { tables with
    links := (tables.links.insert? ⟨code, member, now + seconds 900, none⟩).getD tables.links }

/-- `update hive.chat_link_codes set used_at = now()`. -/
def useLinkCode (tables : CodeTables) (code : Text) (now : Time) : CodeTables :=
  { tables with
    links := tables.links.updateWhere (fun row => row.code = code)
      (fun row => { row with usedAt := some now }) fun _ => rfl }

/-- `insert into hive.notification_subscriptions`: no two rows for no project conflict. -/
def subscribe (tables : CodeTables) (subscription : ChatSubscription) : CodeTables :=
  { tables with subscriptions := tables.subscriptions ++ [subscription] }

end CodeTables

end Writes

section Functions

abbrev CodeProgram := Program CodeDb CodeRow

def writeCodes (change : CodeTables → CodeTables) : CodeProgram Unit :=
  .perform fun db => { db with tables := change db.tables }

def answerCode (answer : CodeAnswer) : CodeProgram Unit :=
  .perform fun db => { db with answers := db.answers ++ [answer] }

/-- `c := left(c, 3) || '-' || right(c, 3)`. -/
def withDash (code : Text) : Text :=
  code.take 3 ++ '-' :: code.drop (code.length - 3)

/-- The loop of `pair_begin`: a code that is taken is given up for the next one. -/
def beginLoop (hint : String) (secret : Text) (now : Time) : List Text → CodeProgram Unit
  | [] => .raise
  | drawn :: more => do
    let code := withDash drawn
    .acquire (.pairing code)
    let taken ← .ask fun db => db.tables.pairings.rows.any fun row =>
      row.code = code || row.secretHash = keyHash secret
    if taken then
      .giveUp (.pairing code)
      beginLoop hint secret now more
    else
      writeCodes fun tables => tables.beginPairing code (keyHash secret) hint now
      answerCode (.began code secret)

/-- `hive.pair_begin`. -/
def pairBegin (hint : String) (secret : Text) (codes : List Text) (now : Time) :
    CodeProgram Unit := do
  .acquire (.secret (keyHash secret))
  beginLoop hint secret now codes

/-- `hive.pair_claim`. -/
def pairClaim (upper : Text → Text) (member : Option MemberId) (code : Text)
    (displayName : String) (allowInternet : Bool) (toolsLevel : String) (nodeId : NodeId)
    (rawKey : Text) (now : Time) : CodeProgram Unit := do
  let uid ← .orRaise member
  let r ← .orRaise (← .ask fun db => db.tables.pairingBy (upper (code.filter (· ≠ ' '))))
  .check (¬ r.expiresAt < now)
  .check (r.claimedBy = none)
  .acquire (.node nodeId)
  .acquire (.key (keyHash rawKey))
  let unique ← .ask fun db => (db.tables.nodes.lookup nodeId).isNone &&
    (db.tables.keys.lookup (keyHash rawKey)).isNone
  .check (unique = true)
  writeCodes fun tables =>
    tables.addNode ⟨nodeId, uid, displayName, allowInternet, toolsLevel⟩ rawKey
  .acquire (.pairing r.code)
  writeCodes fun tables => tables.claimPairing r.code uid nodeId rawKey now
  answerCode (.claimed r uid nodeId rawKey displayName r.hint)

/-- `hive.pair_poll`. -/
def pairPoll (secret : Text) (now : Time) : CodeProgram Unit := do
  let r? ← .ask fun db => db.tables.pairings.rows.find? fun row => row.secretHash = keyHash secret
  match r? with
  | none => answerCode .expired
  | some r =>
    match r.rawKey with
    | none =>
      if r.expiresAt < now then
        .acquire (.pairing r.code)
        writeCodes fun tables => tables.dropPairing r.code
        answerCode .expired
      else answerCode .pending
    | some nodeKey =>
      let n ← .ask fun db => r.nodeId.bind db.tables.nodes.lookup
      .acquire (.pairing r.code)
      writeCodes fun tables => tables.dropPairing r.code
      answerCode (.handedOut r nodeKey r.nodeId n)

/-- `hive.pair_sweep`. -/
def pairSweep (now : Time) : CodeProgram Unit := do
  let codes ← .ask fun db =>
    (db.tables.pairings.rows.filter fun row => row.expiresAt < now).map Pairing.code
  .forEach codes fun code => .acquire (.pairing code)
  let count ← .ask fun db => db.tables.pairings.rows.countP fun row =>
    codes.contains row.code && row.expiresAt < now
  writeCodes fun tables => tables.sweepPairings codes now
  answerCode (.swept count)

/-- `hive.member_create_link_code`. -/
def memberCreateLinkCode (member : Option MemberId) (code : Text) (now : Time) :
    CodeProgram Unit := do
  let uid ← .orRaise member
  .acquire (.link code)
  let taken ← .ask fun db => (db.tables.links.lookup code).isSome
  .check (taken = false)
  writeCodes fun tables => tables.addLinkCode code uid now
  answerCode (.linkCode code)

/-- `notification_subscriptions_channel_check`. -/
def channels : List String := ["telegram", "discord", "slack"]

/-- `hive.chat_redeem_link`. -/
def chatRedeemLink (upper : Text → Text) (code : Text) (channel externalChatId : String)
    (now : Time) : CodeProgram Unit := do
  let read ← .orRaise (← .ask fun db => (db.tables.links.lookup (upper code)).filter fun row =>
    row.usedAt.isNone && now < row.expiresAt)
  .acquire (.link (upper code))
  writeCodes fun tables => tables.useLinkCode (upper code) now
  .check (channel ∈ channels)
  writeCodes fun tables => tables.subscribe ⟨read.memberId, channel, externalChatId⟩
  let name ← .ask fun db => db.tables.profileName read.memberId
  answerCode (.linked read channel externalChatId (name.getD "a Hive member"))

/-- What a call runs. -/
def CodeCall.program (upper : Text → Text) : CodeCall → CodeProgram Unit
  | .pairBegin hint secret codes now => Cloud.pairBegin hint secret codes now
  | .pairClaim member code displayName allowInternet toolsLevel nodeId rawKey now =>
    Cloud.pairClaim upper member code displayName allowInternet toolsLevel nodeId rawKey now
  | .pairPoll secret now => Cloud.pairPoll secret now
  | .pairSweep now => Cloud.pairSweep now
  | .memberCreateLinkCode member code now => Cloud.memberCreateLinkCode member code now
  | .chatRedeemLink code channel externalChatId now =>
    Cloud.chatRedeemLink upper code channel externalChatId now

end Functions

end OHHive.Cloud
