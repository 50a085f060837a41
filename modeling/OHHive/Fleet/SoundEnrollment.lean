import OHHive.Fleet.EnrollmentEffects

/-! What every run of pairing and enrollment keeps: few guesses, one fleet, one owner for each
computer, no assertion and no challenge used twice, and no way back for a revoked key. -/

namespace OHHive.Fleet

open Foundation

section Trust

variable {crypto : Crypto} {store next : FleetStore} {event : FleetEvent} {answer : FleetAnswer}

/-- Fleet, owner and trust are set together, and no other trust is ever read. -/
structure FleetStore.Trusted (store : FleetStore) : Prop where
  together : store.authority.fleetId = none →
    store.authority.ownerId = none ∧ store.authority.trust = none
  readings : ∀ trust ∈ store.readings, store.authority.trust = some trust

theorem FleetStore.Trusted.of_eq (trusted : store.Trusted)
    (authority : next.authority = store.authority) (readings : next.readings = store.readings) :
    next.Trusted := by
  refine ⟨authority ▸ trusted.together, ?_⟩
  rw [authority, readings]
  exact trusted.readings

theorem trusted_enrolls {presented : Presentation} {clock : Nat → Int} (trusted : store.Trusted)
    (admitted : store.Admits clock presented.keyHash presented.claims presented.bootstrap)
    (enrolls : store.Enrolls clock presented.claims presented.bootstrap next) : next.Trusted := by
  cases setUp : presented.bootstrap with
  | none =>
    rw [setUp] at enrolls
    exact trusted.of_eq enrolls.authority enrolls.readings
  | some trust =>
    rw [setUp] at enrolls admitted
    have absent := (trusted.together admitted.fleet).2
    refine ⟨?_, ?_⟩
    · intro none
      rw [enrolls.authority] at none
      cases none
    · intro read member
      rw [enrolls.readings] at member
      have stored := trusted.readings read member
      rw [absent] at stored
      cases stored

theorem trusted_of_effect (trusted : store.Trusted)
    (effect : event.Effect crypto store next answer) : next.Trusted := by
  cases effect with
  | made | wrong | revoked => exact trusted.of_eq rfl rfl
  | closed => exact trusted
  | redeemed _ _ _ _ _ _ _ _ _ created | joined _ _ _ _ created =>
    obtain ⟨_, _, _, _, rfl⟩ := of_mint created
    exact trusted.of_eq rfl rfl
  | bound _ _ _ _ done =>
    obtain rfl := of_setNodeOwner done
    exact trusted.of_eq rfl rfl
  | challenged _ _ _ _ done =>
    obtain ⟨_, _, _, rfl, _⟩ := of_enrollmentChallenge done
    exact trusted.of_eq rfl rfl
  | read _ trust _ _ _ stored =>
    refine ⟨trusted.together, ?_⟩
    intro other member
    rcases List.mem_append.mp member with before | added
    · exact trusted.readings other before
    · rw [List.mem_singleton.mp added]
      exact stored
  | enrolled _ _ _ _ _ admitted enrolls => exact trusted_enrolls trusted admitted enrolls

theorem trusted_step (trusted : store.Trusted) : (store.step crypto event).Trusted := by
  rcases step_cases crypto store event with ⟨_, _, _, effect, same⟩ | ⟨_, _, same⟩
  · rw [same]
    exact trusted_of_effect trusted effect
  · rw [same]
    exact trusted

end Trust

section Guesses

variable {crypto : Crypto} {store : FleetStore} {event : FleetEvent} {code : Text}

def FleetEvent.makesCode (event : FleetEvent) : Bool :=
  match event.op with
  | .pairingCode _ => true
  | _ => false

/-- A guess that the pairing code was open to, and that was wrong. -/
def FleetEvent.guessesWrong (crypto : Crypto) (event : FleetEvent) (store : FleetStore) : Bool :=
  match event.op, store.pairing with
  | .redeemPairing code name _, some pairing =>
    (checkText name 100).isOk && pairing.isOpen (event.clock 0) && pairing.isWrong crypto code
  | _, _ => false

def FleetEvent.redeems (crypto : Crypto) (event : FleetEvent) (store : FleetStore) : Bool :=
  match event.reply crypto store with
  | .ok (_, .credentials (some _)) => true
  | _ => false

/-- The guesses at a pairing code so far, and what the store still holds of it. -/
def PairingCounts (crypto : Crypto) (code : Text) (wrong redeemed : Nat) :
    Option Pairing → Prop
  | some pairing => pairing.hash = crypto.digest code ∧ pairing.attempts = wrong ∧ wrong ≤ 5 ∧
      redeemed = 0
  | none => wrong ≤ 5 ∧ redeemed ≤ 1

theorem guessesWrong_cases (guessed : event.guessesWrong crypto store = true) :
    ∃ pairing, store.pairing = some pairing ∧ pairing.attempts < 5 ∧
      event.reply crypto store =
        .ok ({ store with pairing := some { pairing with attempts := pairing.attempts + 1 } },
          .credentials none) := by
  unfold FleetEvent.guessesWrong at guessed
  split at guessed
  · rename_i code name minted pairing called present
    simp only [Bool.and_eq_true] at guessed
    obtain ⟨⟨named, isOpen⟩, isWrong⟩ := guessed
    have below : pairing.attempts < 5 := by
      simp only [Pairing.isOpen, Bool.not_eq_true', Bool.or_eq_false_iff, decide_eq_false_iff_not,
        Nat.not_le] at isOpen
      exact isOpen.2
    refine ⟨pairing, present, below, ?_⟩
    unfold FleetEvent.reply
    rw [called]
    dsimp only
    unfold redeemPairing
    cases checked : checkText name 100 with
    | error failure =>
      rw [checked] at named
      cases named
    | ok passed =>
      rw [ok_bind, present]
      simp only [isOpen, isWrong, Bool.not_true, Bool.false_eq_true, if_false, if_true]
      rfl
  · cases guessed

/-- Only a new code, a wrong guess and a redemption touch the pairing code. -/
theorem pairing_of_effect {next : FleetStore} {answer : FleetAnswer}
    (effect : event.Effect crypto store next answer) (quiet : event.makesCode = false)
    (notWrong : event.guessesWrong crypto store = false)
    (kept : ∀ minted, answer ≠ .credentials (some minted)) : next.pairing = store.pairing := by
  cases effect with
  | made code called =>
    rw [FleetEvent.makesCode, called] at quiet
    cases quiet
  | closed | revoked | read => rfl
  | wrong code name minted pairing called named present isOpen isWrong =>
    rw [FleetEvent.guessesWrong, called, present] at notWrong
    dsimp only at notWrong
    rw [named, isOpen, isWrong] at notWrong
    cases notWrong
  | redeemed _ _ minted => exact absurd rfl (kept minted)
  | joined _ _ _ _ created =>
    obtain ⟨_, _, _, _, rfl⟩ := of_mint created
    rfl
  | bound _ _ _ _ done =>
    obtain rfl := of_setNodeOwner done
    rfl
  | challenged _ _ _ _ done =>
    obtain ⟨_, _, _, rfl, _⟩ := of_enrollmentChallenge done
    rfl
  | enrolled _ _ _ _ _ _ enrolls => exact enrolls.pairing

/-- A redemption is a right guess at the open code, which is then gone. -/
theorem redeems_cases (redeemed : event.redeems crypto store = true) :
    ∃ code name minted pairing, event.op = .redeemPairing code name minted ∧
      store.pairing = some pairing ∧ pairing.isOpen (event.clock 0) = true ∧
      pairing.isWrong crypto code = false ∧ (store.step crypto event).pairing = none := by
  unfold FleetEvent.redeems at redeemed
  split at redeemed
  · rename_i next minted replied
    have stepped : store.step crypto event = next := by
      rw [FleetStore.step, replied]
    rw [stepped]
    cases effect_of_reply replied with
    | redeemed code name _ pairing _ called present isOpen isRight =>
      exact ⟨code, name, minted, pairing, called, present, isOpen, isRight, rfl⟩
  · cases redeemed

theorem pairingCounts_step {wrong redeemed : Nat} (quiet : event.makesCode = false)
    (counts : PairingCounts crypto code wrong redeemed store.pairing) :
    PairingCounts crypto code (wrong + (event.guessesWrong crypto store).toNat)
      (redeemed + (event.redeems crypto store).toNat) (store.step crypto event).pairing := by
  cases guessed : event.guessesWrong crypto store with
  | true =>
    obtain ⟨pairing, present, below, replied⟩ := guessesWrong_cases guessed
    rw [present] at counts
    obtain ⟨hash, attempts, _, none⟩ := counts
    rw [FleetEvent.redeems, FleetStore.step, replied]
    refine ⟨hash, ?_, ?_, ?_⟩
    · rw [← attempts]
      rfl
    · rw [Bool.toNat_true, ← attempts]
      exact below
    · rw [none]
      rfl
  | false =>
    cases done : event.redeems crypto store with
    | true =>
      obtain ⟨_, _, _, _, _, present, _, _, gone⟩ := redeems_cases done
      rw [present] at counts
      rw [gone]
      exact ⟨counts.2.2.1, by rw [counts.2.2.2]; rfl⟩
    | false =>
      have same : (store.step crypto event).pairing = store.pairing := by
        rcases step_cases crypto store event with
          ⟨next, answer, replied, effect, same⟩ | ⟨_, _, same⟩
        · rw [same]
          refine pairing_of_effect effect quiet guessed ?_
          intro minted credentials
          rw [FleetEvent.redeems, replied, credentials] at done
          cases done
        · rw [same]
      rw [same]
      exact counts

end Guesses

section Runs

variable (crypto : Crypto) (authority : Uuid) (events : List FleetEvent)

/-- Whether the event of a moment passes a test of the store it finds. -/
def passesAt (test : FleetEvent → FleetStore → Bool) (moment : Nat) : Bool :=
  events[moment]?.any (fun event => test event (fleetAt crypto authority events moment))

def countAt (test : FleetEvent → FleetStore → Bool) (first length : Nat) : Nat :=
  (List.range length).countP (fun offset => passesAt crypto authority events test (first + offset))

/-- The claims under which the event of a moment enrolled a node. -/
def enrolledAt (moment : Nat) : Option EnrollmentClaims := do
  let event ← events[moment]?
  let presented ← event.presentation crypto
  if (event.reply crypto (fleetAt crypto authority events moment)).isOk then
    some presented.claims
  else none

/-- The key that an operation is called with. -/
def FleetEvent.caller (event : FleetEvent) : Option Text :=
  match event.op with
  | .enrollmentChallenge keyHash _ => some keyHash
  | .readTrust keyHash => some keyHash
  | .configurePrivateFleet _ _ localKey => some (crypto.digest localKey)
  | .enrollmentComplete keyHash _ _ => some keyHash
  | _ => none

/-- An authority that has been set up, in whole or in part. -/
def FleetAuthority.Configured (authority : FleetAuthority) : Prop :=
  authority.fleetId ≠ none ∨ authority.ownerId ≠ none ∨ authority.trust ≠ none

/-- A pairing code is made, and no other for some time after. -/
structure Period (made length : Nat) (code : Text) : Prop where
  starts : ∃ clock, events[made]? = some ⟨.pairingCode code, clock⟩
  lasts : ∀ offset < length, ∀ event, events[made + 1 + offset]? = some event →
    event.makesCode = false

/-- What pairing and enrollment promise of a run. -/
structure SoundEnrollment : Prop where
  guesses : ∀ made length code, Period events made length code →
    countAt crypto authority events (FleetEvent.guessesWrong crypto) (made + 1) length ≤ 5 ∧
      countAt crypto authority events (FleetEvent.redeems crypto) (made + 1) length ≤ 1
  redeems : ∀ made length code event, Period events made length code →
    events[made + 1 + length]? = some event →
    event.redeems crypto (fleetAt crypto authority events (made + 1 + length)) = true →
    ∃ guess name minted, event.op = .redeemPairing guess name minted ∧
      crypto.digest guess = crypto.digest code
  fleet : ∀ first second, first ≤ second →
    (fleetAt crypto authority events first).authority.Configured →
    (fleetAt crypto authority events second).authority =
      (fleetAt crypto authority events first).authority
  owners : ∀ first second, first ≤ second →
    OwnersKept (fleetAt crypto authority events first).nodes
      (fleetAt crypto authority events second).nodes
  assertions : ∀ first second c d, enrolledAt crypto authority events first = some c →
    enrolledAt crypto authority events second = some d → c.assertionId = d.assertionId →
    first = second
  challenges : ∀ first second c d, first < second →
    enrolledAt crypto authority events first = some c →
    enrolledAt crypto authority events second = some d → c.nonce = d.nonce →
    ∃ drawn event keyHash, first < drawn ∧ drawn < second ∧ events[drawn]? = some event ∧
      event.op = .enrollmentChallenge keyHash c.nonce
  enrolls : ∀ moment event next receipt, events[moment]? = some event →
    event.reply crypto (fleetAt crypto authority events moment) = .ok (next, .receipt receipt) →
    ∃ presented, event.presentation crypto = some presented ∧
      (fleetAt crypto authority events moment).Admits event.clock presented.keyHash
        presented.claims presented.bootstrap ∧
      (presented.setsUp = false →
        (fleetAt crypto authority events moment).authority.trust = some presented.trust) ∧
      (fleetAt crypto authority events moment).Enrolls event.clock presented.claims
        presented.bootstrap next
  accepts : ∀ moment keyHash trust assertion clock c,
    trust ∈ (fleetAt crypto authority events moment).readings →
    verifyAssertion crypto trust assertion (clock 3) = .ok c →
    (fleetAt crypto authority events moment).Admits clock keyHash c none →
    ∃ next receipt, enrollmentComplete crypto (fleetAt crypto authority events moment) clock
      keyHash trust assertion = .ok (next, receipt)
  failed : ∀ moment event failure, events[moment]? = some event →
    event.reply crypto (fleetAt crypto authority events moment) = .error failure →
    fleetAt crypto authority events (moment + 1) = fleetAt crypto authority events moment
  revokes : ∀ moment node clock hash key, events[moment]? = some ⟨.revoke node, clock⟩ →
    (fleetAt crypto authority events moment).keys.lookup hash = some key → key.nodeId = node →
    ∃ after, (fleetAt crypto authority events (moment + 1)).keys.lookup hash = some after ∧
      after.revoked = true
  revoked : ∀ first second hash key, first ≤ second →
    (fleetAt crypto authority events first).keys.lookup hash = some key → key.revoked = true →
    withNode (fleetAt crypto authority events second) hash = .error .badKey ∧
      ∀ event, events[second]? = some event → event.caller crypto = some hash →
        ∃ failure, event.reply crypto (fleetAt crypto authority events second) = .error failure

variable {crypto authority events}

theorem stepped {moment : Nat} {event : FleetEvent} (present : events[moment]? = some event) :
    fleetAt crypto authority events (moment + 1) =
      (fleetAt crypto authority events moment).step crypto event :=
  stateAt_succ _ _ present

variable (crypto authority events) in
theorem fleetAt_next (moment : Nat) :
    (∃ event, events[moment]? = some event ∧ fleetAt crypto authority events (moment + 1) =
        (fleetAt crypto authority events moment).step crypto event) ∨
      events[moment]? = none ∧
        fleetAt crypto authority events (moment + 1) = fleetAt crypto authority events moment :=
  stateAt_next _ _ _ _

theorem keeps_run {first second : Nat} (ordered : first ≤ second) :
    (fleetAt crypto authority events first).Keeps (fleetAt crypto authority events second) :=
  stateAt_relates (FleetStore.step crypto) (FleetStore.new authority) FleetStore.Keeps
    FleetStore.Keeps.refl FleetStore.Keeps.trans (keeps_step crypto) events ordered

theorem trusted_run (moment : Nat) : (fleetAt crypto authority events moment).Trusted := by
  apply stateAt_invariant (FleetStore.step crypto) (FleetStore.new authority) events
    FleetStore.Trusted
  · exact ⟨fun _ => ⟨rfl, rfl⟩, fun _ member => absurd member List.not_mem_nil⟩
  · exact fun _ _ _ trusted => trusted_step trusted

theorem countAt_succ (test : FleetEvent → FleetStore → Bool) (first length : Nat) :
    countAt crypto authority events test first (length + 1) =
      countAt crypto authority events test first length +
        (passesAt crypto authority events test (first + length)).toNat := by
  unfold countAt
  rw [List.range_succ, List.countP_append, List.countP_singleton]
  cases passesAt crypto authority events test (first + length) <;> rfl

variable (crypto authority events) in
/-- The guesses at a code are counted as long as it is the code in force. -/
theorem pairingCounts_period {made : Nat} {code : Text} :
    ∀ length, Period events made length code →
      PairingCounts crypto code
        (countAt crypto authority events (FleetEvent.guessesWrong crypto) (made + 1) length)
        (countAt crypto authority events (FleetEvent.redeems crypto) (made + 1) length)
        (fleetAt crypto authority events (made + 1 + length)).pairing := by
  intro length
  induction length with
  | zero =>
    intro period
    obtain ⟨clock, present⟩ := period.starts
    rw [Nat.add_zero, stepped present]
    exact ⟨rfl, rfl, Nat.zero_le 5, rfl⟩
  | succ length ih =>
    intro period
    have counts := ih ⟨period.starts, fun offset below => period.lasts offset (by omega)⟩
    rw [countAt_succ, countAt_succ, ← Nat.add_assoc]
    unfold passesAt
    rcases fleetAt_next crypto authority events (made + 1 + length) with
      ⟨event, present, next⟩ | ⟨absent, next⟩
    · rw [next, present]
      exact pairingCounts_step (period.lasts length (by omega) event present) counts
    · rw [next, absent]
      exact counts

/-- An enrollment was admitted, and took effect. -/
theorem enrolledAt_eq_some {moment : Nat} {c : EnrollmentClaims}
    (enrolled : enrolledAt crypto authority events moment = some c) :
    ∃ (event : FleetEvent) (keyHash : Text) (bootstrap : Option EnrollmentTrust),
      (fleetAt crypto authority events moment).Admits event.clock keyHash c bootstrap ∧
      (fleetAt crypto authority events moment).Enrolls event.clock c bootstrap
        (fleetAt crypto authority events (moment + 1)) := by
  unfold enrolledAt at enrolled
  obtain ⟨event, present, enrolled⟩ := Option.bind_eq_some_iff.mp enrolled
  obtain ⟨presented, verified, enrolled⟩ := Option.bind_eq_some_iff.mp enrolled
  rw [stepped present]
  rcases step_cases crypto (fleetAt crypto authority events moment) event with
    ⟨next, answer, replied, effect, same⟩ | ⟨failure, replied, _⟩
  · rw [same]
    rw [replied] at enrolled
    obtain rfl := Option.some.inj enrolled
    unfold FleetEvent.presentation at verified
    cases effect with
    | enrolled other _ _ same _ admitted enrolls =>
      rw [FleetEvent.presentation, verified] at same
      obtain rfl := Option.some.inj same
      exact ⟨event, _, _, admitted, enrolls⟩
    | made _ called | closed _ _ _ called | wrong _ _ _ _ called | redeemed _ _ _ _ _ called
    | joined _ _ _ called | revoked _ called | bound _ _ _ called | challenged _ _ _ called
    | read _ _ _ called =>
      rw [called] at verified
      cases verified
  · rw [replied] at enrolled
    cases enrolled

/-- A challenge with a nonce is pending. -/
def FleetStore.Pends (store : FleetStore) (nonce : Text) : Prop :=
  ∃ challenge ∈ store.challenges.rows, challenge.nonce = nonce

/-- A pending nonce was pending before, or has just been drawn. -/
theorem pends_of_effect {store next : FleetStore} {event : FleetEvent} {answer : FleetAnswer}
    {nonce : Text} (effect : event.Effect crypto store next answer) (pends : next.Pends nonce) :
    store.Pends nonce ∨ ∃ keyHash, event.op = .enrollmentChallenge keyHash nonce := by
  cases effect with
  | made | closed | wrong | revoked | read => exact Or.inl pends
  | redeemed _ _ _ _ _ _ _ _ _ created | joined _ _ _ _ created =>
    obtain ⟨_, _, _, _, rfl⟩ := of_mint created
    exact Or.inl pends
  | bound _ _ _ _ done =>
    obtain rfl := of_setNodeOwner done
    exact Or.inl pends
  | challenged keyHash drawn _ called done =>
    obtain ⟨node, challenges, _, rfl, rows⟩ := of_enrollmentChallenge done
    obtain ⟨challenge, member, same⟩ := pends
    rw [show challenges.rows = _ from rows] at member
    rcases List.mem_append.mp member with before | added
    · exact Or.inl ⟨challenge, (List.mem_filter.mp before).1, same⟩
    · rw [List.mem_singleton.mp added] at same
      exact Or.inr ⟨keyHash, same ▸ called⟩
  | enrolled presented _ _ _ _ _ enrolls =>
    obtain ⟨challenge, member, same⟩ := pends
    rw [enrolls.challenges] at member
    exact Or.inl ⟨challenge, (List.mem_filter.mp member).1, same⟩

theorem FleetStore.Admits.pends {store : FleetStore} {clock : Nat → Int} {keyHash : Text}
    {c : EnrollmentClaims} {bootstrap : Option EnrollmentTrust}
    (admitted : store.Admits clock keyHash c bootstrap) : store.Pends c.nonce := by
  obtain ⟨challenge, member, _, _, nonce, _⟩ := admitted.challenge
  exact ⟨challenge, member, nonce⟩

/-- The challenge of an enrollment is used up: no challenge with its nonce is left. -/
theorem used_of_enrolls {store next : FleetStore} {clock : Nat → Int} {keyHash : Text}
    {c : EnrollmentClaims} {bootstrap : Option EnrollmentTrust}
    (admitted : store.Admits clock keyHash c bootstrap)
    (enrolls : store.Enrolls clock c bootstrap next) : ¬ next.Pends c.nonce := by
  rintro ⟨other, member, same⟩
  rw [enrolls.challenges] at member
  obtain ⟨before, elsewhere⟩ := List.mem_filter.mp member
  obtain ⟨challenge, pending, ofNode, _, nonce, _⟩ := admitted.challenge
  have one : other = challenge := store.challenges.eq_of_clash
    (fun _ _ clash => clash.imp Eq.symm Eq.symm) before pending (.inr (same.trans nonce.symm))
  rw [one, ofNode] at elsewhere
  simp at elsewhere

/-- A nonce that is pending again has been drawn again. -/
theorem drawn_between {first second : Nat} {nonce : Text} (ordered : first ≤ second)
    (before : ¬ (fleetAt crypto authority events first).Pends nonce)
    (after : (fleetAt crypto authority events second).Pends nonce) :
    ∃ drawn event keyHash, first ≤ drawn ∧ drawn < second ∧ events[drawn]? = some event ∧
      event.op = .enrollmentChallenge keyHash nonce := by
  obtain ⟨length, rfl⟩ := Nat.exists_eq_add_of_le ordered
  obtain ⟨entry, within, outside, inside⟩ := exists_last_entry
    (fun offset => (fleetAt crypto authority events (first + offset)).Pends nonce) before length
    after
  have entered := inside (entry + 1) (Nat.lt_succ_self entry) within
  rw [← Nat.add_assoc] at entered
  rcases fleetAt_next crypto authority events (first + entry) with
    ⟨event, present, next⟩ | ⟨_, next⟩
  · rw [next] at entered
    rcases step_cases crypto (fleetAt crypto authority events (first + entry)) event with
      ⟨_, _, _, effect, same⟩ | ⟨_, _, same⟩
    · rw [same] at entered
      rcases pends_of_effect effect entered with earlier | ⟨keyHash, called⟩
      · exact absurd earlier outside
      · exact ⟨first + entry, event, keyHash, by omega, by omega, present, called⟩
    · exact absurd (same ▸ entered) outside
  · exact absurd (next ▸ entered) outside

theorem assertion_apart {first second : Nat} {c d : EnrollmentClaims} (ordered : first < second)
    (earlier : enrolledAt crypto authority events first = some c)
    (later : enrolledAt crypto authority events second = some d) :
    c.assertionId ≠ d.assertionId := by
  obtain ⟨event, _, _, _, enrolls⟩ := enrolledAt_eq_some earlier
  obtain ⟨_, _, _, admitted, _⟩ := enrolledAt_eq_some later
  have used : ⟨c.assertionId, c.nodeId, event.clock 2⟩ ∈
      (fleetAt crypto authority events (first + 1)).enrollments.rows := by
    rw [enrolls.enrollments]
    exact List.mem_append_right _ List.mem_cons_self
  exact admitted.unused _ ((keeps_run ordered).enrollments _ used)

theorem withNode_of_revoked {store : FleetStore} {hash : Text} {key : NodeKey}
    (found : store.keys.lookup hash = some key) (revoked : key.revoked = true) :
    withNode store hash = .error .badKey := by
  rw [withNode, found]
  simp [revoked]

theorem caller_of_presentation {event : FleetEvent} {presented : Presentation}
    (verified : event.presentation crypto = some presented) :
    event.caller crypto = some presented.keyHash := by
  unfold FleetEvent.presentation at verified
  unfold FleetEvent.caller
  split at verified
  · obtain ⟨_, _, rfl⟩ := Option.map_eq_some_iff.mp verified
    simp [*]
  · obtain ⟨_, _, rfl⟩ := Option.map_eq_some_iff.mp verified
    simp [*]
  · cases verified

/-- Nothing that is called with a key that does not authenticate succeeds. -/
theorem error_of_caller {store : FleetStore} {event : FleetEvent} {hash : Text}
    (caller : event.caller crypto = some hash) (refused : withNode store hash = .error .badKey) :
    ∃ failure, event.reply crypto store = .error failure := by
  rcases step_cases crypto store event with
    ⟨next, answer, replied, effect, _⟩ | ⟨failure, replied, _⟩
  · exfalso
    cases effect with
    | made _ called | closed _ _ _ called | wrong _ _ _ _ called | redeemed _ _ _ _ _ called
    | joined _ _ _ called | revoked _ called | bound _ _ _ called =>
      rw [FleetEvent.caller, called] at caller
      cases caller
    | challenged keyHash _ _ called done =>
      rw [FleetEvent.caller, called] at caller
      obtain rfl := Option.some.inj caller
      obtain ⟨_, _, authenticated, _⟩ := of_enrollmentChallenge done
      rw [refused] at authenticated
      cases authenticated
    | read keyHash _ _ called authenticated =>
      rw [FleetEvent.caller, called] at caller
      obtain rfl := Option.some.inj caller
      rw [refused] at authenticated
      cases authenticated
    | enrolled presented _ _ verified _ admitted =>
      rw [caller_of_presentation verified] at caller
      obtain rfl := Option.some.inj caller
      rw [admitted.node] at refused
      cases refused
  · exact ⟨failure, replied⟩

/-- Only a completion answers with a receipt. -/
theorem enrolled_of_receipt {store next : FleetStore} {event : FleetEvent}
    {receipt : EnrollmentReceipt}
    (replied : event.reply crypto store = .ok (next, .receipt receipt)) :
    ∃ presented, event.presentation crypto = some presented ∧
      (presented.setsUp = false → presented.trust ∈ store.readings) ∧
      store.Admits event.clock presented.keyHash presented.claims presented.bootstrap ∧
      store.Enrolls event.clock presented.claims presented.bootstrap next := by
  cases effect_of_reply replied with
  | enrolled presented _ _ verified known admitted enrolls =>
    exact ⟨presented, verified, known, admitted, enrolls⟩

variable (crypto authority events) in
theorem enrollment_sound : SoundEnrollment crypto authority events := by
  constructor
  case guesses =>
    intro made length code period
    have counts := pairingCounts_period crypto authority events length period
    cases left : (fleetAt crypto authority events (made + 1 + length)).pairing with
    | none =>
      rw [left] at counts
      exact counts
    | some pairing =>
      rw [left] at counts
      exact ⟨counts.2.2.1, counts.2.2.2 ▸ Nat.zero_le 1⟩
  case redeems =>
    intro made length code event period _ redeemed
    have counts := pairingCounts_period crypto authority events length period
    obtain ⟨guess, name, minted, pairing, called, left, _, isRight, _⟩ := redeems_cases redeemed
    rw [left] at counts
    refine ⟨guess, name, minted, called, ?_⟩
    simp only [Pairing.isWrong, Bool.or_eq_false_iff, decide_eq_false_iff_not, not_not] at isRight
    exact isRight.2.trans counts.1
  case fleet =>
    intro first second ordered configured
    apply (keeps_run ordered).authority
    intro none
    obtain ⟨noOwner, noTrust⟩ := (trusted_run first).together none
    rcases configured with fleet | owner | trust
    · exact fleet none
    · exact owner noOwner
    · exact trust noTrust
  case owners =>
    intro first second ordered
    exact (keeps_run ordered).owners
  case assertions =>
    intro first second c d earlier later same
    rcases Nat.lt_trichotomy first second with before | equal | after
    · exact absurd same (assertion_apart before earlier later)
    · exact equal
    · exact absurd same.symm (assertion_apart after later earlier)
  case challenges =>
    intro first second c d ordered earlier later same
    obtain ⟨_, _, _, consumed, enrolls⟩ := enrolledAt_eq_some earlier
    obtain ⟨_, _, _, admitted, _⟩ := enrolledAt_eq_some later
    obtain ⟨drawn, event, keyHash, after, before, present, called⟩ :=
      drawn_between ordered (used_of_enrolls consumed enrolls) (same ▸ admitted.pends)
    exact ⟨drawn, event, keyHash, after, before, present, called⟩
  case enrolls =>
    intro moment event next receipt _ replied
    obtain ⟨presented, verified, known, admitted, enrolls⟩ := enrolled_of_receipt replied
    refine ⟨presented, verified, admitted, ?_, enrolls⟩
    exact fun later => (trusted_run moment).readings _ (known later)
  case accepts =>
    intro moment keyHash trust assertion clock c known verified admitted
    obtain ⟨next, receipt, accepted⟩ := exists_acceptEnrollment admitted
    refine ⟨next, receipt, ?_⟩
    rw [enrollmentComplete, require, if_pos known, ok_bind, verified, ok_bind, accepted]
  case failed =>
    intro moment event failure present refused
    rw [stepped present, FleetStore.step, refused]
  case revokes =>
    intro moment node clock hash key present found ofNode
    rw [stepped present]
    refine ⟨_, (lookup_revoke node hash).trans (congrArg _ found), ?_⟩
    dsimp only
    rw [if_pos ofNode]
  case revoked =>
    intro first second hash key ordered found revoked
    obtain ⟨after, foundAfter, revokedAfter⟩ :=
      (keeps_run ordered).revocations hash key found revoked
    have refused := withNode_of_revoked foundAfter revokedAfter
    exact ⟨refused, fun event _ caller => error_of_caller caller refused⟩

end Runs

end OHHive.Fleet
