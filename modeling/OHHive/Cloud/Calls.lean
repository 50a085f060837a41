import OHHive.Cloud.Moves

/-! Every call on the cloud makes at most one move on each card. -/

namespace OHHive.Cloud

open Foundation

variable {around : Surroundings} {hive next : Hive} {event : Event}

section Claims

/-- Rows that a statement adds to the holds, all for one card. -/
structure Holds (card : CardId) (hive next : Hive) (held : List Reservation) : Prop where
  ofCard : ∀ row ∈ held, row.card = card
  rows : next.reservations.rows = hive.reservations.rows ++ held
  frame : next = { hive with reservations := next.reservations }

theorem Holds.none (card : CardId) (hive : Hive) : Holds card hive hive [] :=
  ⟨by simp, by simp, rfl⟩

theorem Holds.slot {card : CardId} {held : List Reservation} (holds : Holds card hive next held)
    (id : CardId) :
    next.slot id =
      { hive.slot id with holds := (hive.slot id).holds ++ if id = card then held else [] } := by
  have mine : held.filter (·.card = id) = if id = card then held else [] := by
    split
    · rename_i same
      exact List.filter_eq_self.mpr fun row member =>
        decide_eq_true ((holds.ofCard row member).trans same.symm)
    · rename_i other
      exact List.filter_eq_nil_iff.mpr fun row member same =>
        other ((of_decide_eq_true same).symm.trans (holds.ofCard row member))
  have slot : next.slot id =
      { hive.slot id with holds := next.reservations.rows.filter (·.card = id) } := by
    rw [holds.frame]
    rfl
  rw [slot, holds.rows, List.filter_append, mine]
  rfl

/-- The holds of a lease are the debits of its split. -/
theorem insertReservations_ok {card : CardId} {debits : List Debit}
    (inserted : Hive.insertReservations card debits hive = .ok next) :
    ∃ held, Holds card hive next held ∧
      held.map (fun row => (row.account, row.source, row.amount)) =
        debits.map (fun d => (d.account, d.source, d.amount)) := by
  induction debits generalizing hive with
  | nil =>
    obtain rfl := Except.ok.inj inserted
    exact ⟨[], Holds.none card hive, rfl⟩
  | cons d debits ih =>
    simp only [Hive.insertReservations, bind_eq_ok_iff, orFail_eq_ok_iff] at inserted
    obtain ⟨row, built, reservations, added, rest⟩ := inserted
    obtain ⟨held, holds, values⟩ := ih rest
    have made : row.card = card ∧
        (row.account, row.source, row.amount) = (d.account, d.source, d.amount) := by
      unfold Hive.hold at built
      split at built
      · obtain rfl := Except.ok.inj built
        exact ⟨rfl, rfl⟩
      · cases built
    refine ⟨row :: held, ⟨?_, ?_, ?_⟩, ?_⟩
    · intro other member
      rcases List.mem_cons.mp member with rfl | later
      · exact made.1
      · exact holds.ofCard other later
    · rw [holds.rows, Table.rows_of_insert? added, List.append_assoc, List.singleton_append]
    · exact holds.frame
    · rw [List.map_cons, List.map_cons, values, made.2]

theorem requireSpeechPriceOnLease_ok {c : Card} {p : Project}
    (priced : hive.requireSpeechPriceOnLease around c p = .ok next) :
    ∃ held, Holds c.id hive next held ∧
      (¬ (c.modality = .speech ∧ p.executionMode = .hiveMode) → held = []) := by
  unfold Hive.requireSpeechPriceOnLease at priced
  split at priced
  · rename_i speech
    simp only [bind_eq_ok_iff, orFail_eq_ok_iff, require_eq_ok_iff, exists_const] at priced
    obtain ⟨_, _, _, _, debits, _, inserted⟩ := priced
    obtain ⟨held, holds, _⟩ := insertReservations_ok inserted
    exact ⟨held, holds, fun otherwise => absurd speech otherwise⟩
  · obtain rfl := Except.ok.inj priced
    exact ⟨[], Holds.none c.id hive, fun _ => rfl⟩

theorem validateComputeBudget_ok {card : CardId} {q : Approval}
    (valid : hive.validateComputeBudget around card = .ok q) :
    hive.approvals.lookup card = some q := by
  simp only [Hive.validateComputeBudget, bind_eq_ok_iff, orFail_eq_ok_iff, require_eq_ok_iff,
    exists_const] at valid
  obtain ⟨c, _, p, _, q', stored, _, _, rest⟩ := valid
  split at rest
  · simp only [bind_eq_ok_iff, require_eq_ok_iff, exists_const, pure_eq_ok_iff] at rest
    obtain ⟨_, rfl⟩ := rest
    exact stored
  · simp only [bind_eq_ok_iff, require_eq_ok_iff, exists_const, pure_eq_ok_iff] at rest
    obtain ⟨_, rfl⟩ := rest
    exact stored

theorem reserveComputeOnLease_ok {c : Card} {p : Project}
    (reserved : hive.reserveComputeOnLease around c p = .ok next) :
    ∃ held, Holds c.id hive next held ∧ Reserves p c (hive.slot c.id) held := by
  unfold Hive.reserveComputeOnLease at reserved
  split at reserved
  · rename_i compute
    simp only [bind_eq_ok_iff, require_eq_ok_iff, exists_const] at reserved
    obtain ⟨q, valid, left, debits, split, inserted⟩ := reserved
    obtain ⟨held, holds, values⟩ := insertReservations_ok inserted
    have approved := validateComputeBudget_ok valid
    have ofCard : q.card = c.id := Table.key_of_lookup approved
    have limit : hive.remaining q = leftOf q (hive.slot c.id).paid := by
      rw [remaining_eq_leftOf, ofCard]
    have parts := split_of_splitDebit left split
    have accounts : ∀ row ∈ held, row.account = q.payer := by
      intro row member
      have value : (row.account, row.source, row.amount) ∈
          debits.map (fun d => (d.account, d.source, d.amount)) := by
        rw [← values]
        exact List.mem_map_of_mem member
      obtain ⟨d, inDebits, same⟩ := List.mem_map.mp value
      exact (congrArg Prod.fst same).symm.trans (parts.ofAccount d inDebits)
    have amounts : held.map Reservation.amount = debits.map Debit.amount := by
      have third := congrArg (List.map fun value => value.2.2) values
      simpa [List.map_map, Function.comp_def] using third
    refine ⟨held, holds, ?_, ?_⟩
    · intro localMode
      rw [compute.2] at localMode
      cases localMode
    · intro _ _
      refine ⟨q, approved, limit ▸ left, accounts, ?_⟩
      rw [amounts, parts.sum, limit]
  · rename_i otherwise
    obtain rfl := Except.ok.inj reserved
    exact ⟨[], Holds.none c.id hive, fun _ => rfl,
      fun isHive notSpeech => absurd ⟨notSpeech, isHive⟩ otherwise⟩

theorem insertLease_ok {c : Card} {p : Project} {lease : Lease}
    (inserted : hive.insertLease around c p lease = .ok next) (ofCard : lease.card = c.id) :
    ∃ held, Reserves p c (hive.slot c.id) held ∧
      next.cards = hive.cards ∧ next.leases.rows = hive.leases.rows ++ [lease] ∧
      ∀ id, next.slot id = if id = c.id then
        { hive.slot id with lease := some lease, holds := (hive.slot id).holds ++ held }
      else hive.slot id := by
  simp only [Hive.insertLease, bind_eq_ok_iff, orFail_eq_ok_iff, pure_eq_ok_iff] at inserted
  obtain ⟨_, _, priced, speech, reserved, compute, leases, added, rfl⟩ := inserted
  obtain ⟨first, firstHolds, noSpeech⟩ := requireSpeechPriceOnLease_ok speech
  obtain ⟨second, secondHolds, reserves⟩ := reserveComputeOnLease_ok compute
  have slots (id : CardId) : reserved.slot id =
      { hive.slot id with
        holds := (hive.slot id).holds ++ if id = c.id then first ++ second else [] } := by
    rw [secondHolds.slot, firstHolds.slot]
    split <;> simp
  have cards : reserved.cards = hive.cards := by
    rw [secondHolds.frame, firstHolds.frame]
  have stored : reserved.leases = hive.leases := by
    rw [secondHolds.frame, firstHolds.frame]
  refine ⟨first ++ second, ?_, cards, ?_, ?_⟩
  · constructor
    · intro localMode
      rw [reserves.nothing localMode, noSpeech, List.append_nil]
      rintro ⟨_, hiveMode⟩
      rw [localMode] at hiveMode
      cases hiveMode
    · intro hiveMode notSpeech
      obtain ⟨approval, approved, rest⟩ := reserves.compute hiveMode notSpeech
      rw [noSpeech fun both => notSpeech both.1, List.nil_append]
      rw [firstHolds.slot] at approved rest
      exact ⟨approval, approved, rest⟩
  · rw [Table.rows_of_insert? added, stored]
  · intro id
    have looked := Table.lookup_insert? added id
    have slot : ({ reserved with leases } : Hive).slot id =
        { reserved.slot id with lease := leases.lookup id } := rfl
    rw [slot, slots, looked, ofCard, stored]
    by_cases same : id = c.id
    · simp [same]
    · simp [same, Ne.symm same, Hive.slot]

/-- What a selected card passed. -/
theorem select_ok {n : Node} {own : Card → Project → Bool} {c : Card} {p : Project}
    (selected : hive.select around n own = some (c, p)) :
    hive.cards.lookup c.id = some c ∧ around.project c.projectId = some p ∧ own c p ∧
      hive.claimable around n c p := by
  have member := List.mem_of_head? selected
  rw [List.mem_mergeSort, List.mem_filterMap] at member
  obtain ⟨row, stored, fits⟩ := member
  obtain ⟨project, ofProject, given⟩ := Option.bind_eq_some_iff.mp fits
  split at given
  · rename_i passed
    obtain ⟨rfl, rfl⟩ := Prod.mk.inj (Option.some.inj given)
    rw [Bool.and_eq_true] at passed
    exact ⟨(hive.cards.lookup_eq_some_iff _ _).mpr ⟨stored, rfl⟩, ofProject, passed⟩
  · cases given

theorem claimable_ready {n : Node} {c : Card} {p : Project}
    (claimable : hive.claimable around n c p) :
    c.status = .ready ∧ hive.leases.lookup c.id = none := by
  simp only [Hive.claimable, Bool.and_eq_true, decide_eq_true_eq, Option.isNone_iff_eq_none]
    at claimable
  tauto

/-- One move of one card, after which its status is set. -/
theorem moves_setStatus {card : CardId} {c : Card} {status : CardStatus}
    (others : ∀ id, id ≠ card → next.slot id = hive.slot id)
    (found : next.cards.lookup card = some c)
    (move : SlotMove event card (hive.slot card)
      { next.slot card with card := some (c.moved status) }) :
    Moves event hive (next.setStatus card status) := by
  intro id
  by_cases same : id = card
  · subst same
    rw [slot_setStatus_self found]
    exact Or.inr move
  · rw [← others id same]
    rcases slot_setStatus_other status same with kept | opened
    · exact Or.inl kept
    · exact Or.inr (opened.move event id)

theorem moves_claim {node? : Option NodeId} {own : NodeId → Card → Project → Bool}
    {reply : ClaimReply}
    (claimed : hive.claim event.around node? own = .ok (next, reply)) : Moves event hive next := by
  simp only [Hive.claim, bind_eq_ok_iff, orFail_eq_ok_iff] at claimed
  obtain ⟨nid, _, n, _, rest⟩ := claimed
  split at rest
  · obtain ⟨rfl, _⟩ := Prod.mk.inj (Except.ok.inj rest)
    exact fun id => Or.inl rfl
  · split at rest
    · obtain ⟨rfl, _⟩ := Prod.mk.inj (Except.ok.inj rest)
      exact fun id => Or.inl rfl
    · split at rest
      · obtain ⟨rfl, _⟩ := Prod.mk.inj (Except.ok.inj rest)
        exact fun id => Or.inl rfl
      · rename_i c p selected
        simp only [bind_eq_ok_iff, pure_eq_ok_iff, Prod.mk.injEq] at rest
        obtain ⟨leased, inserted, rfl, _⟩ := rest
        obtain ⟨found, ofProject, _, claimable⟩ := select_ok selected
        obtain ⟨ready, free⟩ := claimable_ready claimable
        obtain ⟨held, reserves, cards, _, slots⟩ := insertLease_ok inserted rfl
        apply moves_setStatus
        · intro id other
          rw [slots, if_neg other]
        · rw [cards]
          exact found
        · rw [slots, if_pos rfl]
          exact .claimed c p _ held found ready free ofProject reserves

end Claims

section Completions

open Hive

/-- A row that stores a posting. -/
structure Stores (around : Surroundings) (posting : Posting) (row : LedgerEntry) : Prop where
  account : row.account = posting.account
  entryType : row.entryType = posting.entryType
  direction : row.direction = posting.direction
  amount : row.amount = roundMicro posting.amount
  card : row.card? = posting.card?

theorem entry_stores {posting : Posting} {row : LedgerEntry}
    (built : posting.entry around.mintedTxn around.now = .ok row) : Stores around posting row := by
  unfold Posting.entry at built
  split at built
  · obtain rfl := Except.ok.inj built
    exact ⟨rfl, rfl, rfl, rfl, rfl⟩
  · cases built

theorem postTxn_ok {postings : List Posting} (posted : hive.postTxn around postings = .ok next) :
    ∃ rows, List.Forall₂ (Stores around) postings rows ∧
      next = { hive with entries := hive.entries ++ rows } := by
  simp only [Hive.postTxn, bind_eq_ok_iff, require_eq_ok_iff, exists_const, pure_eq_ok_iff]
    at posted
  obtain ⟨rows, built, _, _, rfl⟩ := posted
  exact ⟨rows, (forall₂_of_mapM built).imp fun _ _ => entry_stores, rfl⟩

theorem slot_entries (hive : Hive) (rows : List LedgerEntry) (id : CardId) :
    ({ hive with entries := hive.entries ++ rows } : Hive).slot id =
      { hive.slot id with paid := (hive.slot id).paid ++ rows.filter (·.card? = some id) } := by
  simp only [Hive.slot, List.filter_append]

/-- The rows of a list of debits and of the credit after it. -/
theorem stores_append {drawn : List Debit} {posting : Debit → Posting} {last : Posting}
    {rows : List LedgerEntry}
    (stores : List.Forall₂ (Stores around) (drawn.map posting ++ [last]) rows) :
    ∃ debits credit, rows = debits ++ [credit] ∧ Stores around last credit ∧
      (∀ row ∈ debits, ∃ d ∈ drawn, Stores around (posting d) row) ∧
      debits.map LedgerEntry.amount = drawn.map fun d => roundMicro (posting d).amount := by
  induction drawn generalizing rows with
  | nil =>
    obtain ⟨credit, rest, stored, none, rfl⟩ := List.forall₂_cons_left_iff.mp stores
    obtain rfl := List.forall₂_nil_left_iff.mp none
    exact ⟨[], credit, rfl, stored, by simp, rfl⟩
  | cons d drawn ih =>
    obtain ⟨row, rest, stored, later, rfl⟩ := List.forall₂_cons_left_iff.mp stores
    obtain ⟨debits, credit, rfl, storedLast, storedLater, amounts⟩ := ih later
    refine ⟨row :: debits, credit, rfl, storedLast, ?_, ?_⟩
    · intro other member
      rcases List.mem_cons.mp member with rfl | inRest
      · exact ⟨d, List.mem_cons_self, stored⟩
      · obtain ⟨source, inDrawn, storedOther⟩ := storedLater other inRest
        exact ⟨source, List.mem_cons_of_mem d inDrawn, storedOther⟩
    · rw [List.map_cons, List.map_cons, amounts, stored.amount]

/-- The rows of a payment are those of its split and of its credit. -/
theorem pay_ok {payer : AccountId} {amount : Int} {card : CardId} {nid : NodeId}
    (positive : 0 < amount) (paid : hive.pay around payer amount card nid = .ok next) :
    ∃ debits credit, Pays around payer nid amount debits credit ∧
      (∀ row ∈ debits ++ [credit], row.card? = some card) ∧
      next = { hive with entries := hive.entries ++ (debits ++ [credit]) } := by
  simp only [Hive.pay, bind_eq_ok_iff, orFail_eq_ok_iff] at paid
  obtain ⟨drawn, split, wallet, found, posted⟩ := paid
  obtain ⟨rows, stores, rfl⟩ := postTxn_ok posted
  have parts := split_of_splitDebit positive split
  obtain ⟨debits, credit, rfl, stored, ofDebit, amounts⟩ := stores_append stores
  simp only [roundMicro_int] at amounts
  refine ⟨debits, credit, ⟨?_, ?_, ?_, ?_⟩, ?_, rfl⟩
  · intro row member
    obtain ⟨d, inDrawn, storedRow⟩ := ofDebit row member
    exact ⟨storedRow.account.trans (parts.ofAccount d inDrawn), storedRow.entryType,
      storedRow.direction⟩
  · rw [amounts, parts.sum]
  · rw [found, stored.account]
  · exact ⟨stored.entryType, stored.direction, stored.amount.trans (roundMicro_int amount)⟩
  · intro row member
    rcases List.mem_append.mp member with inDebits | isCredit
    · obtain ⟨d, _, storedRow⟩ := ofDebit row inDebits
      exact storedRow.card
    · rw [List.mem_singleton.mp isCredit]
      exact stored.card

theorem releaseHolds_ok {card : CardId} {charge : Charge} {missing : CloudError}
    (released : hive.releaseHolds card charge missing = .ok next) :
    next = hive ∨ next = hive.dropReservations card := by
  unfold Hive.releaseHolds at released
  split at released
  · exact Or.inl (Except.ok.inj released).symm
  · simp only [bind_eq_ok_iff, require_eq_ok_iff, exists_const, pure_eq_ok_iff] at released
    exact Or.inr released.2.symm

/-- The holds of every other card stay. -/
theorem slot_dropReservations {card id : CardId} :
    (hive.dropReservations card).slot id =
      if id = card then { hive.slot id with holds := [] } else hive.slot id := by
  have slot : (hive.dropReservations card).slot id =
      { hive.slot id with
        holds := (hive.reservations.rows.filter (·.card ≠ card)).filter (·.card = id) } := rfl
  rw [slot, List.filter_filter]
  split
  · rename_i same
    rw [List.filter_eq_nil_iff.mpr]
    intro row _ both
    rw [Bool.and_eq_true, decide_eq_true_eq, decide_eq_true_eq, same] at both
    exact both.2 both.1
  · rename_i other
    have mine : (hive.reservations.rows.filter fun row =>
        decide (row.card = id) && decide (row.card ≠ card)) =
          hive.reservations.rows.filter (·.card = id) := by
      apply List.filter_congr
      intro row _
      by_cases ofCard : row.card = id
      · simp [ofCard, other]
      · simp [ofCard]
    rw [mine]
    rfl

theorem leaseOf_ok {card : CardId} {nid : NodeId} {lease : Lease}
    (found : hive.leaseOf card nid = some lease) :
    hive.leases.lookup card = some lease ∧ lease.node = nid := by
  obtain ⟨stored, same⟩ := Option.filter_eq_some_iff.mp found
  exact ⟨stored, of_decide_eq_true same⟩

theorem charge_nothing {c : Card} {p : Project} {lease : Lease} {usage : Usage} {charge : Charge}
    (charged : hive.charge around c p lease usage = .ok charge)
    (localMode : p.executionMode = .localMode) : charge.amount = 0 := by
  unfold Hive.charge at charged
  rw [localMode] at charged
  exact Except.ok.inj charged ▸ rfl

/-- What a completion that a compute budget pays for was checked against. -/
theorem charge_frozen {c : Card} {p : Project} {lease : Lease} {usage : Usage} {charge : Charge}
    (charged : hive.charge around c p lease usage = .ok charge)
    (hiveMode : p.executionMode = .hiveMode) (notSpeech : c.modality ≠ .speech) :
    ∃ approval tokensIn tokensOut, hive.validateComputeBudget around c.id = .ok approval ∧
      around.now < lease.expiresAt ∧
      usage.tokensIn = some tokensIn ∧ usage.tokensOut = some tokensOut ∧
      0 ≤ tokensIn ∧ 0 ≤ tokensOut ∧
      frozenCharge approval tokensIn tokensOut ≤ hive.remaining approval ∧
      charge.payer = approval.payer ∧ charge.amount = frozenCharge approval tokensIn tokensOut := by
  unfold Hive.charge at charged
  rw [hiveMode] at charged
  split at charged
  · rename_i none
    cases none
  · exact absurd ‹c.modality = .speech› notSpeech
  · simp only [bind_eq_ok_iff, pure_eq_ok_iff, Hive.computeCharge, require_eq_ok_iff,
      exists_const, Prod.exists] at charged
    obtain ⟨approval, amount, ⟨budget, valid, unexpired, checked⟩, rfl⟩ := charged
    split at checked
    · rename_i tokensIn tokensOut seconds reportedIn reportedOut _
      simp only [bind_eq_ok_iff, pure_eq_ok_iff, require_eq_ok_iff, exists_const,
        Prod.mk.injEq] at checked
      obtain ⟨⟨nonnegativeIn, nonnegativeOut, _⟩, within, rfl, rfl⟩ := checked
      exact ⟨budget, tokensIn, tokensOut, valid, unexpired, reportedIn, reportedOut,
        nonnegativeIn, nonnegativeOut, within, rfl, rfl⟩
    · cases checked

/-- What was posted for a completion, where something was owed and where nothing was. -/
theorem payment_ok {payer : AccountId} {amount : Int} {card : CardId} {nid : NodeId}
    {finish : Hive → Hive × Int} {result : Hive × Int}
    (finished : (if 0 < amount then do
        let paid ← hive.pay around payer amount card nid
        pure (finish paid)
      else do
        let paid ← Except.ok hive
        pure (finish paid)) = .ok result) :
    ∃ rows, (∀ row ∈ rows, row.card? = some card) ∧
      finish { hive with entries := hive.entries ++ rows } = result ∧
      (amount ≤ 0 → rows = []) ∧
      (0 < amount → ∃ debits credit, rows = debits ++ [credit] ∧
        Pays around payer nid amount debits credit) := by
  split at finished
  · rename_i positive
    simp only [bind_eq_ok_iff, pure_eq_ok_iff] at finished
    obtain ⟨paid, pays, rfl⟩ := finished
    obtain ⟨debits, credit, given, ofCard, rfl⟩ := pay_ok positive pays
    exact ⟨debits ++ [credit], ofCard, rfl, fun none => absurd positive (not_lt.mpr none),
      fun _ => ⟨debits, credit, rfl, given⟩⟩
  · rename_i nothing
    simp only [bind_eq_ok_iff, pure_eq_ok_iff, Except.ok.injEq, exists_eq_left'] at finished
    refine ⟨[], by simp, ?_, fun _ => rfl, fun positive => absurd positive nothing⟩
    rw [← finished, List.append_nil]

/-- The slots of a store whose card is completed, before its lease goes. -/
theorem slot_released {released : Hive} {card : CardId} {nid : NodeId} {content : String}
    {charge : Charge} {missing : CloudError}
    (releases : (hive.insertOutput ⟨card, some nid, content⟩).releaseHolds card charge missing =
      .ok released) :
    released.cards = hive.cards ∧ released.leases = hive.leases ∧
    ∀ id, ∃ holds, released.slot id =
      if id = card then
        { hive.slot id with
          outputs := (hive.slot id).outputs ++ [⟨id, some nid, content⟩], holds }
      else hive.slot id := by
  rcases releaseHolds_ok releases with rfl | rfl
  · refine ⟨rfl, rfl, fun id => ⟨(hive.slot id).holds, ?_⟩⟩
    rw [slot_insertOutput]
    by_cases same : id = card
    · simp [same]
    · simp [same, Ne.symm same]
  · refine ⟨rfl, rfl, fun id => ⟨[], ?_⟩⟩
    rw [slot_dropReservations, slot_insertOutput]
    by_cases same : id = card
    · simp [same]
    · simp [same, Ne.symm same]

theorem moves_completeCard {asked : Completion} {honey : Int}
    (completion : event.completion = some asked)
    (completed : hive.completeCard event.around asked.node? asked.card asked.content asked.usage =
      .ok (next, honey)) : Moves event hive next := by
  simp only [Hive.completeCard, bind_eq_ok_iff, orFail_eq_ok_iff, require_eq_ok_iff, exists_const]
    at completed
  obtain ⟨nid, authenticated, lease, owned, c, stored, p, ofProject, charge, charged, _, released,
    releases, covered, rest⟩ := completed
  obtain ⟨leased, rfl⟩ := leaseOf_ok owned
  obtain ⟨rows, ofCard, ends, free, pays⟩ := payment_ok rest
  obtain ⟨rfl, _⟩ := Prod.mk.inj ends
  obtain ⟨cards, leases, slots⟩ := slot_released releases
  have keyed : c.id = asked.card := Table.key_of_lookup stored
  generalize balanced : max (accountBalance released.ledger charge.payer event.around.now) 0 =
    balance at covered free pays
  have nonnegative : 0 ≤ balance := balanced ▸ le_max_right _ _
  apply moves_setStatus
  · intro id other
    have none : rows.filter (·.card? = some id) = [] := by
      rw [List.filter_eq_nil_iff]
      intro row member same
      rw [ofCard row member, decide_eq_true_eq, Option.some.injEq] at same
      exact other same.symm
    obtain ⟨holds, slot⟩ := slots id
    rw [slot_deleteLease, if_neg other, slot_entries, none, List.append_nil, slot, if_neg other]
  · exact cards ▸ stored
  · have all : rows.filter (·.card? = some asked.card) = rows :=
      List.filter_eq_self.mpr fun row member => decide_eq_true (ofCard row member)
    obtain ⟨holds, slot⟩ := slots asked.card
    have had : (hive.slot asked.card).lease = some lease := leased
    rw [slot_deleteLease, if_pos rfl, slot_entries, all, slot, if_pos rfl]
    simp only [had, Option.isSome_some, if_true]
    apply SlotMove.completed asked c p lease rows completion rfl authenticated stored leased
      ofProject
    constructor
    · intro localMode
      have nothing := charge_nothing charged localMode
      exact free (by omega)
    · intro hiveMode notSpeech
      obtain ⟨approval, tokensIn, tokensOut, valid, _, reportedIn, reportedOut, nonnegativeIn,
        nonnegativeOut, within, payer, amount⟩ := charge_frozen charged hiveMode notSpeech
      have approved := validateComputeBudget_ok valid
      have same : approval.card = asked.card := (Table.key_of_lookup approved).trans keyed
      have covers : min charge.amount balance = frozenCharge approval tokensIn tokensOut := by
        have enough : ¬ balance < charge.amount := fun short => covered ⟨hiveMode, short⟩
        omega
      rw [covers, payer] at pays
      rw [covers] at free
      rw [remaining_eq_leftOf, same] at within
      exact ⟨approval, tokensIn, tokensOut, keyed ▸ approved, ⟨reportedIn, reportedOut⟩,
        ⟨nonnegativeIn, nonnegativeOut⟩, within, free, pays⟩

end Completions

end OHHive.Cloud
