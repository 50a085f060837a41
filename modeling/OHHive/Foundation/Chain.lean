import Mathlib.Data.List.Basic

/-! A list as a chain: its neighbours in order. All but the last entry have a successor, all but
the first a predecessor. -/

namespace OHHive.Foundation

universe u

variable {α : Type u}

/-- The neighbours of a list, first to last. -/
def links (chain : List α) : List (α × α) := chain.zip chain.tail

theorem links_cons_cons (first second : α) (rest : List α) :
    links (first :: second :: rest) = (first, second) :: links (second :: rest) := rfl

/-- A chain is prolonged at its last entry. -/
theorem links_concat {chain : List α} {last : α} (ends : chain.getLast? = some last) (next : α) :
    links (chain ++ [next]) = links chain ++ [(last, next)] := by
  induction chain with
  | nil => cases ends
  | cons first rest ih =>
    cases rest with
    | nil =>
      obtain rfl := Option.some.inj ends
      rfl
    | cons second rest =>
      rw [List.getLast?_cons_cons] at ends
      have prolonged := ih ends
      rw [List.cons_append] at prolonged
      rw [List.cons_append, List.cons_append, links_cons_cons, prolonged, links_cons_cons]
      rfl

/-- The entry without a successor is the last one. -/
theorem getLast?_of_no_successor {chain : List α} {entry : α} (member : entry ∈ chain)
    (final : ∀ next, (entry, next) ∉ links chain) : chain.getLast? = some entry := by
  induction chain with
  | nil => cases member
  | cons first rest ih =>
    cases rest with
    | nil =>
      rw [List.mem_singleton.mp member]
      rfl
    | cons second rest =>
      rw [links_cons_cons] at final
      rw [List.getLast?_cons_cons]
      rcases List.mem_cons.mp member with rfl | inRest
      · exact absurd List.mem_cons_self (final second)
      · exact ih inRest (fun next linked => final next (List.mem_cons_of_mem _ linked))

end OHHive.Foundation
