import OHHive.Cloud.Invites

/-! Redemptions in any interleaving: the uses of a code are the activations made through it, and the
welcome grant is missing for everybody who comes in anew. -/

namespace OHHive.Cloud

open Foundation

section Properties

variable (lower : Text → Text)

def RedeemReply.isJoined : RedeemReply → Bool
  | .alreadyMember => false
  | .joined _ => true

/-- The activations made through a code. -/
def InviteDb.joinsBy (db : InviteDb) (code : Text) : Nat :=
  db.answers.countP fun answer =>
    answer.reply.isJoined && decide (answer.call.inviteCode lower = code)

/-- The activations of a person. -/
def InviteDb.joinsOf (db : InviteDb) (person : MemberId) : Nat :=
  db.answers.countP fun answer => answer.reply.isJoined && decide (answer.call.uid = some person)

/-- The uses of every code are the activations made through it, and are not more than it has. -/
structure InviteDb.UsesCounted (start : Membership) (db : InviteDb) : Prop where
  counted : ∀ code before, start.invites.lookup code = some before → ∃ now,
    db.tables.invites.lookup code = some now ∧ now.maxUses = before.maxUses ∧
    now.uses = before.uses + db.joinsBy lower code ∧
    (before.uses ≤ before.maxUses → now.uses ≤ now.maxUses)
  unknown : ∀ code, start.invites.lookup code = none →
    db.tables.invites.lookup code = none ∧ db.joinsBy lower code = 0

/-- The wallet's side of the welcome grant of 50 honey. -/
def LedgerEntry.isWelcomeGrant (entry : LedgerEntry) : Bool :=
  entry.entryType = .adjustment && entry.direction = .credit && entry.source = .grant &&
    entry.amount = 50000000

/-- The welcome grants posted to a person's wallet since the start. -/
def InviteDb.welcomeGrants (start : Membership) (db : InviteDb) (person : MemberId) : Nat :=
  (db.tables.entries.drop start.entries.length).countP fun entry =>
    entry.isWelcomeGrant &&
      (db.tables.wallets.lookup person).any fun wallet => wallet.id = entry.account

/-- A person's first activation has posted one welcome grant, and no later one another. -/
def InviteDb.GrantsGiven (start : Membership) (db : InviteDb) : Prop :=
  ∀ person, db.welcomeGrants start person =
    if (start.members.lookup person).isNone ∧ 0 < db.joinsOf person then 1 else 0

/-- Nobody comes in anew: whoever makes a call that commits has a row in `members`. -/
def KnownCaller (system : System InviteDb InviteRow RedeemCall) (move : Move RedeemCall) : Prop :=
  ∀ call person, system.commits move = some call → call.uid = some person →
    (system.committed.tables.members.lookup person).isSome

/-- The hub after the first statements of a run of redemptions. -/
def redeemAt (start : Membership) (moves : List (Move RedeemCall)) (moment : Nat) :
    System InviteDb InviteRow RedeemCall :=
  System.systemAt (inviteRedeem lower) ⟨start, []⟩ moves moment

end Properties

section Steps

variable {lower : Text → Text} {start : Membership} {db after : InviteDb} {call : RedeemCall}
  {reply : RedeemReply}

theorem joinsBy_of_answered (answers : after.answers = db.answers ++ [⟨call, reply⟩])
    (code : Text) : after.joinsBy lower code = db.joinsBy lower code +
      if reply.isJoined ∧ call.inviteCode lower = code then 1 else 0 := by
  unfold InviteDb.joinsBy
  rw [answers, List.countP_append]
  by_cases joined : reply.isJoined ∧ call.inviteCode lower = code
  · simp [joined]
  · simp only [if_neg joined, List.countP_singleton, Bool.and_eq_true, decide_eq_true_eq]

theorem joinsOf_of_answered (answers : after.answers = db.answers ++ [⟨call, reply⟩])
    (person : MemberId) : after.joinsOf person = db.joinsOf person +
      if reply.isJoined ∧ call.uid = some person then 1 else 0 := by
  unfold InviteDb.joinsOf
  rw [answers, List.countP_append]
  by_cases joined : reply.isJoined ∧ call.uid = some person
  · simp [joined]
  · simp only [if_neg joined, List.countP_singleton, Bool.and_eq_true, decide_eq_true_eq]

/-- A use is counted with the activation, while there is one left. -/
theorem InviteDb.UsesCounted.redeems (counted : db.UsesCounted lower start)
    (answers : after.answers = db.answers ++ [⟨call, reply⟩])
    (redeemed : Redeems lower call db.tables after.tables reply) :
    after.UsesCounted lower start := by
  cases redeemed with
  | already _ _ same =>
    have joins (code : Text) : after.joinsBy lower code = db.joinsBy lower code := by
      simp [joinsBy_of_answered answers, RedeemReply.isJoined]
    constructor
    · intro code before found
      rw [same, joins]
      exact counted.counted code before found
    · intro code absent
      rw [same, joins]
      exact counted.unknown code absent
  | @joined uid inv invitedBy _ row left used _ _ =>
    have joins (code : Text) : after.joinsBy lower code = db.joinsBy lower code +
        if call.inviteCode lower = code then 1 else 0 := by
      simp [joinsBy_of_answered answers, RedeemReply.isJoined]
    constructor
    · intro code before found
      obtain ⟨now, stored, most, uses, within⟩ := counted.counted code before found
      rw [used, Membership.lookup_useInvite, stored, joins]
      by_cases own : code = call.inviteCode lower
      · obtain rfl := Option.some.inj (stored.symm.trans (own ▸ row))
        refine ⟨{ now with uses := now.uses + 1 }, by simp [own], most, ?_, fun _ => ?_⟩
        · simp only [own, if_true] at uses ⊢
          push_cast
          omega
        · simp only
          omega
      · refine ⟨now, by simp [own], most, ?_, within⟩
        simp [Ne.symm own, uses]
    · intro code absent
      obtain ⟨none, zero⟩ := counted.unknown code absent
      have other : call.inviteCode lower ≠ code := by
        rintro rfl
        rw [row] at none
        cases none
      rw [used, Membership.lookup_useInvite, none, joins, zero, if_neg other]
      exact ⟨rfl, rfl⟩

/-- Members stay, come in by activations, and nothing is posted. -/
structure InviteDb.Kept (start : Membership) (db : InviteDb) : Prop where
  stays : ∀ person, (start.members.lookup person).isSome → (db.tables.members.lookup person).isSome
  comes : ∀ person, (db.tables.members.lookup person).isSome →
    (start.members.lookup person).isSome ∨ 0 < db.joinsOf person
  entries : db.tables.entries = start.entries

theorem InviteDb.Kept.redeems (kept : db.Kept start)
    (answers : after.answers = db.answers ++ [⟨call, reply⟩])
    (redeemed : Redeems lower call db.tables after.tables reply) : after.Kept start := by
  have more (person : MemberId) : db.joinsOf person ≤ after.joinsOf person := by
    rw [joinsOf_of_answered answers]
    exact Nat.le_add_right _ _
  cases redeemed with
  | already _ _ same =>
    constructor
    · exact same ▸ kept.stays
    · intro person stored
      rcases kept.comes person (same ▸ stored) with before | joined
      · exact Or.inl before
      · exact Or.inr (lt_of_lt_of_le joined (more person))
    · exact same ▸ kept.entries
  | @joined uid inv invitedBy signedIn _ _ _ members entries =>
    constructor
    · exact fun person before => (members person).mpr (Or.inr (kept.stays person before))
    · intro person stored
      rcases (members person).mp stored with rfl | known
      · right
        rw [joinsOf_of_answered answers]
        simp [RedeemReply.isJoined, signedIn]
      · rcases kept.comes person known with before | joined
        · exact Or.inl before
        · exact Or.inr (lt_of_lt_of_le joined (more person))
    · exact entries.trans kept.entries

end Steps

section Runs

variable (lower : Text → Text) (start : Membership) (moves : List (Move RedeemCall))

/-- From one moment to the next a redemption is committed, or nothing. -/
theorem committed_redeemAt (moment : Nat) :
    ((redeemAt lower start moves (moment + 1)).committed =
        (redeemAt lower start moves moment).committed ∧
      ∀ move, moves[moment]? = some move →
        (redeemAt lower start moves moment).commits move = none) ∨
      ∃ move call, moves[moment]? = some move ∧
        (redeemAt lower start moves moment).commits move = some call ∧
        ∃ reply, (redeemAt lower start moves (moment + 1)).committed.answers =
          (redeemAt lower start moves moment).committed.answers ++ [⟨call, reply⟩] ∧
        Redeems lower call (redeemAt lower start moves moment).committed.tables
          (redeemAt lower start moves (moment + 1)).committed.tables reply := by
  apply @System.ensures_systemAt _ _ _ (redemption lower) (inviteRedeem lower)
  · trivial
  · exact fun call store _ _ => safe_inviteRedeem call store
  · exact fun _ _ _ => ⟨fun _ _ _ => trivial, fun _ _ => trivial, fun _ _ _ _ _ => trivial⟩

theorem counted_redeemAt (moment : Nat) :
    (redeemAt lower start moves moment).committed.UsesCounted lower start := by
  induction moment with
  | zero =>
    constructor
    · intro code before found
      exact ⟨before, found, rfl, (Int.add_zero _).symm, id⟩
    · exact fun code absent => ⟨absent, rfl⟩
  | succ moment ih =>
    rcases committed_redeemAt lower start moves moment with
      ⟨same, _⟩ | ⟨_, _, _, _, reply, answers, redeemed⟩
    · exact same ▸ ih
    · exact ih.redeems answers redeemed

theorem kept_redeemAt (moment : Nat) :
    (redeemAt lower start moves moment).committed.Kept start := by
  induction moment with
  | zero => exact ⟨fun _ => id, fun _ => Or.inl, rfl⟩
  | succ moment ih =>
    rcases committed_redeemAt lower start moves moment with
      ⟨same, _⟩ | ⟨_, _, _, _, reply, answers, redeemed⟩
    · exact same ▸ ih
    · exact ih.redeems answers redeemed

/-- No redemption posts a grant. -/
theorem welcomeGrants_redeemAt (moment : Nat) (person : MemberId) :
    (redeemAt lower start moves moment).committed.welcomeGrants start person = 0 := by
  rw [InviteDb.welcomeGrants, (kept_redeemAt lower start moves moment).entries, List.drop_length]
  rfl

/-- Where nobody comes in anew, whoever is activated was a member at the start. -/
theorem known_redeemAt
    (known : EachStep (System.step (inviteRedeem lower)) ⟨⟨start, []⟩, .empty⟩ KnownCaller moves)
    (moment : Nat) (person : MemberId)
    (joined : 0 < (redeemAt lower start moves moment).committed.joinsOf person) :
    (start.members.lookup person).isSome := by
  induction moment with
  | zero => exact absurd joined (Nat.lt_irrefl 0)
  | succ moment ih =>
    rcases committed_redeemAt lower start moves moment with
      ⟨same, _⟩ | ⟨move, call, present, commits, reply, answers, _⟩
    · exact ih (same ▸ joined)
    · rw [joinsOf_of_answered answers] at joined
      by_cases before : 0 < (redeemAt lower start moves moment).committed.joinsOf person
      · exact ih before
      · have own : call.uid = some person := by
          by_contra other
          simp [other] at joined
          exact before joined
        have stored := known moment move present call person commits own
        rcases (kept_redeemAt lower start moves moment).comes person stored with there | joins
        · exact there
        · exact absurd joins before

/-- The uses of a code are its activations in every run. First activations have their welcome grant
if and only if there are none. -/
theorem grants_given_iff_known :
    (∀ moment, (redeemAt lower start moves moment).committed.UsesCounted lower start) ∧
    ((∀ moment, (redeemAt lower start moves moment).committed.GrantsGiven start) ↔
      EachStep (System.step (inviteRedeem lower)) ⟨⟨start, []⟩, .empty⟩ KnownCaller moves) := by
  refine ⟨counted_redeemAt lower start moves, ?_, ?_⟩
  · intro given moment move present call person commits own
    by_contra absent
    have kept := kept_redeemAt lower start moves moment
    rcases committed_redeemAt lower start moves moment with
      ⟨_, quiet⟩ | ⟨move', call', present', commits', reply, answers, redeemed⟩
    · cases (quiet move present).symm.trans commits
    · obtain rfl := Option.some.inj (present.symm.trans present')
      obtain rfl := Option.some.inj (commits.symm.trans commits')
      have joined : reply.isJoined := by
        cases redeemed with
        | already signedIn known _ =>
          obtain rfl := Option.some.inj (own.symm.trans signedIn)
          exact absurd known absent
        | joined => rfl
      have grants := given (moment + 1) person
      rw [welcomeGrants_redeemAt, joinsOf_of_answered answers, if_pos] at grants
      · cases grants
      · refine ⟨?_, by simp [joined, own]⟩
        rw [Option.isNone_iff_eq_none, ← Option.not_isSome_iff_eq_none]
        exact fun there => absent (kept.stays person there)
  · intro known moment person
    rw [welcomeGrants_redeemAt, if_neg]
    rintro ⟨absent, joined⟩
    have there := known_redeemAt lower start moves known moment person joined
    rw [Option.isNone_iff_eq_none] at absent
    rw [absent] at there
    cases there

/-- One invite of one member, and nobody else. -/
def firstInvite : Membership where
  members := ⟨[⟨1, .active, none, none, none, none, none⟩], List.pairwise_singleton _ _⟩
  profiles := ⟨[⟨1, "Jack".toList, []⟩], List.pairwise_singleton _ _⟩
  invites := ⟨[⟨"abcdefghjk".toList, 1, 5, 0, 1000, none⟩], List.pairwise_singleton _ _⟩
  wallets := ⟨[⟨11, 1⟩], List.pairwise_singleton _ _⟩
  entries := []

/-- Person 2 redeems the invite. -/
def firstRedemption : List (Move RedeemCall) :=
  let call : RedeemCall :=
    ⟨some 2, some "Ada".toList, none, none, "ABCDEFGHJK ".toList, some "v1".toList, 12, 10⟩
  .start 0 call :: List.replicate 12 (.advance 0)

/-- A new member is in, and has no grant. -/
theorem firstRedemption_ungranted :
    ¬ ∀ lower start moves moment,
      (redeemAt lower start moves moment).committed.GrantsGiven start := by
  intro given
  have granted := given (List.map Char.toLower) firstInvite firstRedemption 13 2
  exact absurd granted (by decide +kernel)

end Runs

end OHHive.Cloud
