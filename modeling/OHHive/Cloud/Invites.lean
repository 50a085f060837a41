import OHHive.Cloud.Cards
import OHHive.Foundation.Lines
import OHHive.Foundation.ReadCommitted

/-! Invites: `hive.invite_redeem` as it stands since terms of service are recorded, statement by
statement, and what one redemption commits. -/

namespace OHHive.Cloud

open Foundation

section Tables

inductive MemberStatus where
  | invited
  | active
  | suspended
deriving DecidableEq, Repr

inductive Onramp where
  | purchase
  | compute
  | regionalServer
deriving DecidableEq, Repr

/-- A row of `members`. -/
structure Member where
  id : MemberId
  status : MemberStatus
  onramp : Option Onramp
  invitedBy : Option MemberId
  inviteCode : Option Text
  tosVersion : Option Text
  tosAcceptedAt : Option Time
deriving DecidableEq, Repr

/-- A row of `profiles`. -/
structure Profile where
  id : MemberId
  displayName : Text
  email : Text
deriving DecidableEq, Repr

/-- A row of `invites`. -/
structure Invite where
  code : Text
  createdBy : MemberId
  maxUses : Int
  uses : Int
  expiresAt : Time
  revokedAt : Option Time
deriving DecidableEq, Repr

/-- An account of kind `member_wallet`. -/
structure MemberWallet where
  id : AccountId
  memberId : MemberId
deriving DecidableEq, Repr

/-- The tables that a redemption reads and writes, and the ledger. -/
structure Membership where
  members : Table Member (Table.SameKey Member.id)
  profiles : Table Profile (Table.SameKey Profile.id)
  invites : Table Invite (Table.SameKey Invite.code)
  wallets : Table MemberWallet (Table.SameKey MemberWallet.memberId)
  entries : List LedgerEntry

end Tables

section Calls

/-- A call of `invite_redeem`: who is signed in, with what their token says of them, and the
identity that a new wallet would get. -/
structure RedeemCall where
  uid : Option MemberId
  fullName : Option Text
  name : Option Text
  email : Option Text
  code : Text
  tosVersion : Option Text
  walletId : AccountId
  now : Time
deriving DecidableEq, Repr

inductive RedeemReply where
  | alreadyMember
  | joined (invitedBy : Option Text)
deriving DecidableEq, Repr

structure RedeemAnswer where
  call : RedeemCall
  reply : RedeemReply
deriving DecidableEq, Repr

/-- The committed tables, and what the committed calls answered. -/
structure InviteDb where
  tables : Membership
  answers : List RedeemAnswer

/-- The rows that a redemption locks. -/
inductive InviteRow where
  | invite (code : Text)
  | profile (id : MemberId)
  | member (id : MemberId)
deriving DecidableEq, Repr

/-- `trim`: spaces only. -/
def trimSpaces (text : Text) : Text :=
  ((text.dropWhile (· = ' ')).reverse.dropWhile (· = ' ')).reverse

/-- `lower(trim(p_code))`, for the case mapping of the database's locale. -/
def RedeemCall.inviteCode (lower : Text → Text) (call : RedeemCall) : Text :=
  lower (trimSpaces call.code)

end Calls

section Writes

namespace Membership

/-- `select 1 from hive.members where id = … and status = 'active'`. -/
def isActive (tables : Membership) (id : MemberId) : Bool :=
  (tables.members.lookup id).any fun member => member.status = .active

/-- `insert into public.profiles … on conflict (id) do nothing`. -/
def ensureProfile (tables : Membership) (profile : Profile) : Membership :=
  { tables with profiles := (tables.profiles.insert? profile).getD tables.profiles }

/-- The trigger `on_member_activated`. -/
def onMemberActivated (tables : Membership) (id : MemberId) (walletId : AccountId) : Membership :=
  { tables with wallets := (tables.wallets.insert? ⟨walletId, id⟩).getD tables.wallets }

/-- `insert into hive.members … on conflict (id) do update …`, with the trigger. -/
def activateMember (tables : Membership) (member : Member) (walletId : AccountId) : Membership :=
  match tables.members.insert? member with
  | some members => { tables with members }.onMemberActivated member.id walletId
  | none =>
    let updated : Membership := { tables with
      members := tables.members.updateWhere (fun row => row.id = member.id)
        (fun row => { row with
          status := .active
          invitedBy := member.invitedBy
          inviteCode := member.inviteCode
          tosVersion := member.tosVersion
          tosAcceptedAt := member.tosAcceptedAt }) fun _ => rfl }
    if tables.isActive member.id then updated else updated.onMemberActivated member.id walletId

/-- `update hive.invites set uses = uses + 1`. -/
def useInvite (tables : Membership) (code : Text) : Membership :=
  { tables with
    invites := tables.invites.updateWhere (fun invite => invite.code = code)
      (fun invite => { invite with uses := invite.uses + 1 }) fun _ => rfl }

end Membership

end Writes

section Functions

abbrev InviteProgram := Program InviteDb InviteRow

def writeTables (change : Membership → Membership) : InviteProgram Unit :=
  .perform fun db => { db with tables := change db.tables }

def answerRedeem (call : RedeemCall) (reply : RedeemReply) : InviteProgram Unit :=
  .perform fun db => { db with answers := db.answers ++ [⟨call, reply⟩] }

/-- The person becomes a member by the invite, whose row is locked. -/
def join (call : RedeemCall) (uid : MemberId) (tosVersion : Text) (inv : Invite) :
    InviteProgram Unit := do
  .acquire (.profile uid)
  writeTables fun tables => tables.ensureProfile
    ⟨uid, (call.fullName.or call.name).getD "Member".toList, call.email.getD []⟩
  .acquire (.member uid)
  writeTables fun tables => tables.activateMember
    ⟨uid, .active, some .compute, some inv.createdBy, some inv.code, some tosVersion,
      some call.now⟩ call.walletId
  writeTables fun tables => tables.useInvite inv.code
  let invitedBy ← .ask fun db => (db.tables.profiles.lookup inv.createdBy).map Profile.displayName
  answerRedeem call (.joined invitedBy)

/-- `hive.invite_redeem`. -/
def inviteRedeem (lower : Text → Text) (call : RedeemCall) : InviteProgram Unit := do
  let uid ← .orRaise call.uid
  let active ← .ask fun db => db.tables.isActive uid
  if active then answerRedeem call .alreadyMember
  else
    let tosVersion ← .orRaise call.tosVersion
    .check ((trimSpaces tosVersion).length ≠ 0)
    let inv ← .orRaise (← .selectForUpdate (.invite (call.inviteCode lower))
      fun db => db.tables.invites.lookup (call.inviteCode lower))
    .check (inv.revokedAt = none ∧ ¬ inv.expiresAt < call.now)
    .check (inv.uses < inv.maxUses)
    join call uid tosVersion inv

end Functions

section Commits

/-- What a redemption commits. -/
inductive Redeems (lower : Text → Text) (call : RedeemCall) (before after : Membership) :
    RedeemReply → Prop
  | already {uid : MemberId} (signedIn : call.uid = some uid)
      (known : (before.members.lookup uid).isSome) (same : after = before) :
      Redeems lower call before after .alreadyMember
  | joined {uid : MemberId} {inv : Invite} {invitedBy : Option Text}
      (signedIn : call.uid = some uid)
      (found : before.invites.lookup (call.inviteCode lower) = some inv)
      (left : inv.uses < inv.maxUses)
      (used : after.invites = (before.useInvite (call.inviteCode lower)).invites)
      (members : ∀ id, (after.members.lookup id).isSome ↔
        id = uid ∨ (before.members.lookup id).isSome)
      (entries : after.entries = before.entries) :
      Redeems lower call before after (.joined invitedBy)

/-- A locked invite stays as it is, and members stay members. -/
def redemption (lower : Text → Text) : Discipline InviteDb InviteRow RedeemCall where
  invariant _ := True
  makes _ := True
  timely _ _ := True
  compatible _ _ _ _ _ := True
  ensures call before after := ∃ reply, after.answers = before.answers ++ [⟨call, reply⟩] ∧
    Redeems lower call before.tables after.tables reply
  rely _ locks before after :=
    (∀ code, .invite code ∈ locks →
      after.tables.invites.lookup code = before.tables.invites.lookup code) ∧
    ∀ id, (before.tables.members.lookup id).isSome → (after.tables.members.lookup id).isSome
  counts _ := True
  refl _ _ _ := ⟨fun _ _ => rfl, fun _ => id⟩
  trans _ _ _ _ _ early late := ⟨fun code held => (late.1 code held).trans (early.1 code held),
    fun id known => late.2 id (early.2 id known)⟩
  weaken _ _ _ _ _ kept relied :=
    ⟨fun code held => relied.1 code (kept _ held trivial), relied.2⟩

variable {lower : Text → Text} {call : RedeemCall} {store seen : InviteDb}
  {locks : List InviteRow} {change : InviteDb → InviteDb}

/-- A redemption may commit that has locked its invite, if it uses one. -/
theorem commits_of_redeems {reply : RedeemReply}
    (answers : ∀ store, (change store).answers = store.answers ++ [⟨call, reply⟩])
    (redeems : ∀ store, (redemption lower).Later call ⟨locks, change, seen⟩ store →
      Redeems lower call store.tables (change store).tables reply)
    (held : ∀ store code, (change store).tables.invites.lookup code ≠
      store.tables.invites.lookup code → .invite code ∈ locks) :
    (redemption lower).Commits call ⟨locks, change, seen⟩ := by
  intro store later _
  refine ⟨trivial, ⟨reply, answers store, redeems store later⟩, ?_⟩
  intro other others apart _
  refine ⟨fun code theirs => ?_, fun id known => ?_⟩
  · by_contra changed
    exact apart (held store code changed) theirs
  · cases redeems store later with
    | already _ _ same => exact same ▸ known
    | joined _ _ _ _ members _ => exact (members id).mpr (Or.inr known)

theorem Membership.lookup_activateMember (tables : Membership) (member : Member)
    (walletId : AccountId) (id : MemberId) :
    ((tables.activateMember member walletId).members.lookup id).isSome ↔
      id = member.id ∨ (tables.members.lookup id).isSome := by
  unfold Membership.activateMember
  split
  · rename_i members inserted
    simp only [Membership.onMemberActivated, Table.lookup_insert? inserted]
    by_cases own : member.id = id
    · simp [own]
    · simp [own, Ne.symm own]
  · rename_i refused
    have known : (tables.members.lookup member.id).isSome := Table.isSome_lookup_of_insert? refused
    have same : ((tables.members.updateWhere (fun row => row.id = member.id)
        (fun row => { row with
          status := .active
          invitedBy := member.invitedBy
          inviteCode := member.inviteCode
          tosVersion := member.tosVersion
          tosAcceptedAt := member.tosAcceptedAt }) fun _ => rfl).lookup id).isSome =
        (tables.members.lookup id).isSome := by
      rw [Table.lookup_updateWhere, Option.isSome_map]
    have either : (tables.members.lookup id).isSome ↔
        id = member.id ∨ (tables.members.lookup id).isSome := by
      constructor
      · exact Or.inr
      · rintro (rfl | stored)
        · exact known
        · exact stored
    split
    · exact same ▸ either
    · exact same ▸ either

/-- A redemption touches the row of its invite alone. -/
theorem Membership.lookup_useInvite (tables : Membership) (code other : Text) :
    (tables.useInvite code).invites.lookup other =
      (tables.invites.lookup other).map fun invite =>
        if other = code then { invite with uses := invite.uses + 1 } else invite := by
  rw [Membership.useInvite, Table.lookup_updateWhere]
  cases found : tables.invites.lookup other with
  | none => rfl
  | some invite =>
    have keyed : invite.code = other := Table.key_of_lookup found
    simp [keyed]

theorem Membership.invites_activateMember (tables : Membership) (member : Member)
    (walletId : AccountId) : (tables.activateMember member walletId).invites = tables.invites := by
  unfold Membership.activateMember
  split
  · rfl
  · split <;> rfl

theorem Membership.entries_activateMember (tables : Membership) (member : Member)
    (walletId : AccountId) : (tables.activateMember member walletId).entries = tables.entries := by
  unfold Membership.activateMember
  split
  · rfl
  · split <;> rfl

/-- With the invite locked, the use that is counted is one of those that were left. -/
theorem wp_join {uid : MemberId} {tosVersion : Text} {inv : Invite}
    (signedIn : call.uid = some uid)
    (held : .invite (call.inviteCode lower) ∈ locks)
    (found : seen.tables.invites.lookup (call.inviteCode lower) = some inv)
    (left : inv.uses < inv.maxUses) :
    (redemption lower).wp call (fun _ => (redemption lower).Commits call)
      (join call uid tosVersion inv) ⟨locks, id, seen⟩ := by
  have keyed : inv.code = call.inviteCode lower := Table.key_of_lookup found
  simp only [join, writeTables, answerRedeem, Program.bind_eq, Discipline.wp_bind,
    Discipline.wp_acquire, Discipline.wp_perform, Discipline.wp_ask]
  intro first early second middle third late
  let profile : Profile :=
    ⟨uid, (call.fullName.or call.name).getD "Member".toList, call.email.getD []⟩
  let member : Member := ⟨uid, .active, some .compute, some inv.createdBy, some inv.code,
    some tosVersion, some call.now⟩
  have used (tables : Membership) :
      (((tables.ensureProfile profile).activateMember member call.walletId).useInvite
        inv.code).invites = (tables.useInvite (call.inviteCode lower)).invites := by
    rw [keyed]
    simp only [Membership.useInvite, Membership.invites_activateMember]
    rfl
  apply commits_of_redeems
  · exact fun _ => rfl
  · intro store later
    have row : store.tables.invites.lookup (call.inviteCode lower) = some inv := by
      have inLocks : ∀ {row : InviteRow}, .invite (call.inviteCode lower) ∈ row :: locks :=
        fun {_} => List.mem_cons_of_mem _ held
      rw [later.2.1 _ (List.mem_cons_of_mem _ inLocks), late.2.1 _ (List.mem_cons_of_mem _ inLocks),
        middle.2.1 _ inLocks, early.2.1 _ held, found]
    refine .joined signedIn row left (used store.tables) ?_ ?_
    · intro other
      exact Membership.lookup_activateMember (store.tables.ensureProfile profile) member
        call.walletId other
    · exact Membership.entries_activateMember (store.tables.ensureProfile profile) member
        call.walletId
  · intro store code changed
    have same : code = call.inviteCode lower := by
      by_contra other
      apply changed
      change (((store.tables.ensureProfile profile).activateMember member
        call.walletId).useInvite inv.code).invites.lookup code = _
      rw [used, Membership.lookup_useInvite]
      simp [other]
    rw [same]
    exact List.mem_cons_of_mem _ (List.mem_cons_of_mem _ held)

theorem safe_inviteRedeem (call : RedeemCall) (store : InviteDb) :
    (redemption lower).Safe call (inviteRedeem lower call) ⟨[], id, store⟩ := by
  refine Discipline.wp_bind.mpr (Discipline.wp_orRaise.mpr fun uid signedIn => ?_)
  refine Discipline.wp_bind.mpr fun first _ => ?_
  refine Discipline.wp_ite.mpr ⟨fun active => ?_, fun inactive => ?_⟩
  · apply commits_of_redeems
    · exact fun _ => rfl
    · intro store later
      refine .already signedIn (later.2.2 uid ?_) rfl
      cases found : first.tables.members.lookup uid with
      | none => simp [Membership.isActive, found] at active
      | some member => rfl
    · exact fun _ _ changed => absurd rfl changed
  · refine Discipline.wp_bind.mpr (Discipline.wp_orRaise.mpr fun tosVersion _ => ?_)
    refine Discipline.wp_bind.mpr (Discipline.wp_check.mpr fun _ => ?_)
    refine Discipline.wp_bind.mpr (Discipline.wp_selectForUpdate.mpr fun second _ => ⟨?_, ?_⟩)
    · intro _
      exact Discipline.wp_bind.mpr (Discipline.wp_orRaise.mpr fun _ absent => nomatch absent)
    · intro _ locked _
      refine Discipline.wp_bind.mpr (Discipline.wp_orRaise.mpr fun inv found => ?_)
      refine Discipline.wp_bind.mpr (Discipline.wp_check.mpr fun _ => ?_)
      refine Discipline.wp_bind.mpr (Discipline.wp_check.mpr fun left => ?_)
      exact wp_join signedIn List.mem_cons_self found left

end Commits

end OHHive.Cloud
