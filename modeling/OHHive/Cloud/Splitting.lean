import OHHive.Cloud.Funding
import OHHive.Foundation.Draw
import Mathlib.Tactic.Linarith

/-! What `split_debit` builds of a stored amount: draws from the sources net of their holds. -/

namespace OHHive.Cloud

open Foundation

variable {chart : Chart} {ledger : Ledger} {account : AccountId} {order : List HoneySource}

/-- What a source holds beyond its reservations. -/
def available (ledger : Ledger) (account : AccountId) (source : HoneySource) : Int :=
  sourceBalance ledger.entries account source - reserved ledger.reservations.rows account source

def debitOf (account : AccountId) (given : HoneySource × Int) : Debit :=
  ⟨account, given.1, given.2⟩

theorem roundMicro_int (amount : Int) : roundMicro (amount : ℚ) = amount := by
  unfold roundMicro
  split
  · exact round_intCast amount
  · rw [← Int.cast_neg, round_intCast, neg_neg]

/-- The loop of `split_debit` draws from the buckets. -/
theorem splitBuckets_eq_draw (balance reserved : HoneySource → Id Int) (order : List HoneySource)
    (amount : Int) (acc : List Debit) :
    Id.run (splitBuckets balance reserved account order (amount : ℚ) acc) =
      (((amount - ((draw (fun b => Id.run (balance b) - Id.run (reserved b)) order amount).map
          Prod.snd).sum : Int) : ℚ),
        acc ++ (draw (fun b => Id.run (balance b) - Id.run (reserved b)) order amount).map
          (debitOf account)) := by
  induction order generalizing amount acc with
  | nil => simp [splitBuckets, draw]
  | cons b order ih =>
    unfold splitBuckets draw
    have spent : ((amount : ℚ) ≤ 0) ↔ amount ≤ 0 := Int.cast_nonpos
    by_cases done : amount ≤ 0
    · rw [if_pos (spent.mpr done), if_pos done]
      simp
    · rw [if_neg (mt spent.mp done), if_neg done]
      have take :
          min (max ((Id.run (balance b) - Id.run (reserved b) : Int) : ℚ) 0) (amount : ℚ) =
            ((min (max (Id.run (balance b) - Id.run (reserved b)) 0) amount : Int) : ℚ) := by
        push_cast
        rfl
      simp only [Id.run_bind]
      rw [take]
      by_cases filled : 0 < Id.run (balance b) - Id.run (reserved b)
      · have positive : max (Id.run (balance b) - Id.run (reserved b)) 0 =
            Id.run (balance b) - Id.run (reserved b) := max_eq_left filled.le
        rw [if_pos filled, positive, if_pos, ← Int.cast_sub, ih, roundMicro_int]
        · simp only [List.map_cons, List.sum_cons, List.append_assoc, List.singleton_append,
            Prod.mk.injEq, Int.cast_inj]
          exact ⟨by omega, rfl⟩
        · exact_mod_cast lt_min filled (not_le.mp done)
      · have nothing : max (Id.run (balance b) - Id.run (reserved b)) 0 = 0 :=
          max_eq_right (not_lt.mp filled)
        rw [if_neg filled, nothing, if_neg, ih]
        rw [min_eq_left (not_le.mp done).le, Int.cast_zero]
        exact lt_irrefl 0

theorem half_lt_cast_iff {amount : Int} : (1 / 2 : ℚ) < (amount : ℚ) ↔ 0 < amount := by
  constructor
  · intro more
    by_contra little
    have bound : (amount : ℚ) ≤ 0 := Int.cast_nonpos.mpr (not_lt.mp little)
    linarith
  · intro positive
    have bound : (1 : ℚ) ≤ (amount : ℚ) := by exact_mod_cast positive
    linarith

/-- The debits of a split, where the buckets cover the amount. -/
theorem splitDebit_eq (chart : Chart) (ledger : Ledger) (account : AccountId) {amount : Int}
    (positive : 0 < amount) (order : List HoneySource) :
    splitDebit chart ledger account amount order =
      if (chart account).isNone then .error (.raised "account_not_found")
      else if capacity (available ledger account) order < amount then
        .error (insufficientInSources
          ((amount - capacity (available ledger account) order : Int) : ℚ) order)
      else .ok ((draw (available ledger account) order amount).map (debitOf account)) := by
  have drawn : ((draw (available ledger account) order amount).map Prod.snd).sum =
      min (max amount 0) (capacity (available ledger account) order) := sum_draw order amount
  unfold splitDebit
  split
  · rfl
  · have loop : Id.run (splitBuckets (fun b => (sourceBalance ledger.entries account b : Id Int))
        (fun b => (reserved ledger.reservations.rows account b : Id Int)) account order
        (amount : ℚ) []) = _ :=
      splitBuckets_eq_draw _ _ order amount []
    have short : amount - ((draw (available ledger account) order amount).map Prod.snd).sum =
        max (amount - capacity (available ledger account) order) 0 := by
      omega
    dsimp only
    rw [loop]
    change (if (1 / 2 : ℚ) < ((amount - ((draw (available ledger account) order amount).map
        Prod.snd).sum : Int) : ℚ) then Except.error (insufficientInSources ((amount -
        ((draw (available ledger account) order amount).map Prod.snd).sum : Int) : ℚ) order) else
        Except.ok ([] ++ (draw (available ledger account) order amount).map (debitOf account))) = _
    rw [short]
    by_cases lacking : capacity (available ledger account) order < amount
    · have lack : max (amount - capacity (available ledger account) order) 0 =
          amount - capacity (available ledger account) order := max_eq_left (by omega)
      rw [if_pos lacking, lack, if_pos (half_lt_cast_iff.mpr (by omega))]
    · have covered : max (amount - capacity (available ledger account) order) 0 = 0 :=
        max_eq_right (by omega)
      rw [if_neg lacking, covered, if_neg (mt half_lt_cast_iff.mp (lt_irrefl 0)), List.nil_append]

/-- What a split of a stored amount gives: positive debits of one account from distinct sources,
each covered, which come to the amount. -/
structure Split (ledger : Ledger) (account : AccountId) (amount : Int) (order : List HoneySource)
    (debits : List Debit) : Prop where
  ofAccount : ∀ debit ∈ debits, debit.account = account
  positive : ∀ debit ∈ debits, 0 < debit.amount
  covered : ∀ debit ∈ debits, debit.amount ≤ available ledger account debit.source
  distinct : (debits.map Debit.source).Sublist order
  sum : (debits.map Debit.amount).sum = amount

theorem split_of_splitDebit {amount : Int} {debits : List Debit} (positive : 0 < amount)
    (split : splitDebit chart ledger account amount order = .ok debits) :
    Split ledger account amount order debits := by
  rw [splitDebit_eq chart ledger account positive] at split
  split at split
  · cases split
  · split at split
    · cases split
    · rename_i covered
      obtain rfl := Except.ok.inj split
      have drawn : ((draw (available ledger account) order amount).map Prod.snd).sum =
          min (max amount 0) (capacity (available ledger account) order) := sum_draw order amount
      have total : min (max amount 0) (capacity (available ledger account) order) = amount := by
        omega
      constructor
      · intro debit member
        obtain ⟨given, _, rfl⟩ := List.mem_map.mp member
        rfl
      · intro debit member
        obtain ⟨given, inDraw, rfl⟩ := List.mem_map.mp member
        exact (draw_within inDraw).2.1
      · intro debit member
        obtain ⟨given, inDraw, rfl⟩ := List.mem_map.mp member
        exact (draw_within inDraw).2.2
      · rw [List.map_map]
        exact draw_sublist order amount
      · rw [List.map_map]
        exact drawn.trans total

/-- A stored amount is split exactly where the sources, net of their holds, cover it. -/
theorem splitDebit_ok_iff {amount : Int} (positive : 0 < amount) :
    (∃ debits, splitDebit chart ledger account amount order = .ok debits) ↔
      (chart account).isSome ∧ amount ≤ capacity (available ledger account) order := by
  rw [splitDebit_eq chart ledger account positive]
  split
  · simp_all
  · split
    · rename_i known lacking
      simp [not_le.mpr lacking]
    · rename_i known covered
      simp only [Except.ok.injEq, exists_eq', true_iff]
      exact ⟨Option.isSome_iff_ne_none.mpr (by simpa using known), not_lt.mp covered⟩

end OHHive.Cloud
