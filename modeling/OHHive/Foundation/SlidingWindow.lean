import Mathlib.Data.List.Count
import Mathlib.Data.List.TakeWhile

/-! A sliding window over the times of past events. A queue of the events that have not expired is
enough to keep every span of a fixed length to a limit. -/

namespace OHHive.Foundation

section SlidingWindow

variable {span limit latest now start : Nat} {times history queue : List Nat}

/-- The number of events in the half-open span from `start` on. -/
def countWithin (span start : Nat) (times : List Nat) : Nat :=
  times.countP fun time => start ≤ time && time < start + span

/-- No span holds more events than the limit. -/
def Spread (span limit : Nat) (times : List Nat) : Prop :=
  ∀ start, countWithin span start times ≤ limit

/-- The queue without the expired events at its front. -/
def unexpired (span now : Nat) (times : List Nat) : List Nat :=
  times.dropWhile fun time => span ≤ now - time

/-- What a queue has to know of the history: everything else has expired. -/
structure Watches (span latest : Nat) (history queue : List Nat) : Prop where
  expired : ∃ gone, history = gone ++ queue ∧ ∀ time ∈ gone, time + span ≤ latest
  past : ∀ time ∈ history, time ≤ latest

theorem watches_nil : Watches span latest [] [] where
  expired := ⟨[], rfl, by simp⟩
  past := by simp

theorem Watches.mem (watches : Watches span latest history queue) {time : Nat}
    (queued : time ∈ queue) : time ∈ history := by
  obtain ⟨gone, rfl, _⟩ := watches.expired
  exact List.mem_append_right _ queued

theorem Watches.later (watches : Watches span latest history queue) (ordered : latest ≤ now) :
    Watches span now history queue where
  expired := by
    obtain ⟨gone, shape, expired⟩ := watches.expired
    exact ⟨gone, shape, fun time member => (expired time member).trans ordered⟩
  past time member := (watches.past time member).trans ordered

theorem Watches.unexpired (watches : Watches span now history queue) :
    Watches span now history (unexpired span now queue) where
  expired := by
    obtain ⟨gone, shape, expired⟩ := watches.expired
    let dropped := queue.takeWhile fun time => span ≤ now - time
    have split : dropped ++ Foundation.unexpired span now queue = queue :=
      List.takeWhile_append_dropWhile
    refine ⟨gone ++ dropped, ?_, ?_⟩
    · rw [shape, List.append_assoc, split]
    · intro time member
      rcases List.mem_append.mp member with early | late
      · exact expired time early
      · have old := List.mem_takeWhile_imp late
        have earlier : time ≤ now := by
          apply watches.past
          rw [shape, ← split]
          exact List.mem_append_right _ (List.mem_append_left _ late)
        simp only [decide_eq_true_eq] at old
        omega
  past := watches.past

/-- Another event at the latest time. -/
theorem Watches.enter (watches : Watches span now history queue) :
    Watches span now (history ++ [now]) (queue ++ [now]) where
  expired := by
    obtain ⟨gone, rfl, expired⟩ := watches.expired
    exact ⟨gone, List.append_assoc _ _ _, expired⟩
  past time member := by
    rcases List.mem_append.mp member with early | last
    · exact watches.past time early
    · exact (List.mem_singleton.mp last).le

/-- Only the queue is in a span that the latest time is in. -/
theorem Watches.countWithin_le (watches : Watches span now history queue)
    (recent : now < start + span) : countWithin span start history ≤ queue.length := by
  obtain ⟨gone, rfl, expired⟩ := watches.expired
  have none : countWithin span start gone = 0 := by
    apply List.countP_eq_zero.mpr
    intro time member
    have old := expired time member
    simp
    omega
  calc countWithin span start (gone ++ queue)
      = countWithin span start gone + countWithin span start queue := List.countP_append
    _ ≤ queue.length := by
      rw [none, Nat.zero_add]
      exact List.countP_le_length

/-- An event admitted with room in the queue leaves the history spread. -/
theorem Watches.spread_admit (watches : Watches span now history queue)
    (spread : Spread span limit history) (room : queue.length < limit) :
    Spread span limit (history ++ [now]) := by
  intro start
  have split : countWithin span start (history ++ [now]) =
      countWithin span start history + countWithin span start [now] := List.countP_append
  by_cases inside : start ≤ now ∧ now < start + span
  · have few := watches.countWithin_le inside.2
    have one : countWithin span start [now] ≤ 1 := List.countP_le_length
    omega
  · have outside : countWithin span start [now] = 0 := by
      apply List.countP_eq_zero.mpr
      intro time member
      obtain rfl := List.mem_singleton.mp member
      simpa using inside
    have before := spread start
    omega

end SlidingWindow

end OHHive.Foundation
