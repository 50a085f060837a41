import Mathlib.Algebra.BigOperators.Ring.Finset
import Mathlib.Algebra.Order.BigOperators.Group.Finset
import Mathlib.Tactic.Ring

/-! Forests of bounded depth and fan-out. A finite set of nodes with parents has no more
nodes than its roots times the geometric sum of the fan-out up to the depth. -/

namespace OHHive.Foundation

/-- A finite forest: roots lie at depth zero, every child one level below a parent of the
forest, no parent has more than `width` children, and no node lies below `limit`. -/
structure BoundedForest (Node : Type) [DecidableEq Node] (width limit : Nat) where
  nodes : Finset Node
  parent : Node → Option Node
  depth : Node → Nat
  root : ∀ node ∈ nodes, parent node = none → depth node = 0
  child : ∀ node ∈ nodes, ∀ above, parent node = some above →
    above ∈ nodes ∧ depth node = depth above + 1
  width_le : ∀ above ∈ nodes, (nodes.filter (fun node => parent node = some above)).card ≤ width
  depth_le : ∀ node ∈ nodes, depth node ≤ limit

namespace BoundedForest

variable {Node : Type} [DecidableEq Node] {width limit : Nat}
  (forest : BoundedForest Node width limit)

def roots : Finset Node := forest.nodes.filter (fun node => forest.parent node = none)

def layer (height : Nat) : Finset Node :=
  forest.nodes.filter (fun node => forest.depth node = height)

theorem layer_zero_subset : forest.layer 0 ⊆ forest.roots := by
  intro node member
  obtain ⟨inside, shallow⟩ := Finset.mem_filter.mp member
  apply Finset.mem_filter.mpr
  refine ⟨inside, ?_⟩
  cases isParent : forest.parent node with
  | none => rfl
  | some above =>
    have below := (forest.child node inside above isParent).2
    omega

/-- One level down there are at most `width` times as many nodes. -/
theorem card_layer_succ_le (height : Nat) :
    (forest.layer (height + 1)).card ≤ width * (forest.layer height).card := by
  have hasParent : ∀ node ∈ forest.layer (height + 1), ∃ above, forest.parent node = some above ∧
      above ∈ forest.layer height := by
    intro node member
    obtain ⟨inside, deep⟩ := Finset.mem_filter.mp member
    cases isParent : forest.parent node with
    | none =>
      have shallow := forest.root node inside isParent
      omega
    | some above =>
      obtain ⟨aboveInside, below⟩ := forest.child node inside above isParent
      exact ⟨above, rfl, Finset.mem_filter.mpr ⟨aboveInside, by omega⟩⟩
  have maps : ∀ node ∈ forest.layer (height + 1),
      (forest.parent node).getD node ∈ forest.layer height := by
    intro node member
    obtain ⟨above, isParent, inLayer⟩ := hasParent node member
    rwa [isParent, Option.getD_some]
  apply Finset.card_le_mul_card_image_of_maps_to maps
  intro above aboveMember
  apply Nat.le_trans (Finset.card_le_card _)
    (forest.width_le above (Finset.mem_filter.mp aboveMember).1)
  intro node member
  obtain ⟨inLayer, isAbove⟩ := Finset.mem_filter.mp member
  obtain ⟨actual, isParent, _⟩ := hasParent node inLayer
  rw [isParent, Option.getD_some] at isAbove
  exact Finset.mem_filter.mpr ⟨(Finset.mem_filter.mp inLayer).1, isAbove ▸ isParent⟩

theorem card_layer_le (height : Nat) :
    (forest.layer height).card ≤ forest.roots.card * width ^ height := by
  induction height with
  | zero => simpa using Finset.card_le_card forest.layer_zero_subset
  | succ height ih =>
    calc (forest.layer (height + 1)).card
        ≤ width * (forest.layer height).card := forest.card_layer_succ_le height
      _ ≤ width * (forest.roots.card * width ^ height) := Nat.mul_le_mul_left _ ih
      _ = forest.roots.card * width ^ (height + 1) := by rw [Nat.pow_succ]; ring

/-- The whole forest is bounded by its roots, its fan-out and its depth. -/
theorem card_nodes_le :
    forest.nodes.card ≤ forest.roots.card * ∑ height ∈ Finset.range (limit + 1), width ^ height := by
  have layered : ∀ node ∈ forest.nodes, forest.depth node ∈ Finset.range (limit + 1) :=
    fun node member => Finset.mem_range.mpr (Nat.lt_succ_of_le (forest.depth_le node member))
  calc forest.nodes.card
      = ∑ height ∈ Finset.range (limit + 1), (forest.layer height).card :=
        Finset.card_eq_sum_card_fiberwise layered
    _ ≤ ∑ height ∈ Finset.range (limit + 1), forest.roots.card * width ^ height :=
        Finset.sum_le_sum (fun height _ => forest.card_layer_le height)
    _ = forest.roots.card * ∑ height ∈ Finset.range (limit + 1), width ^ height :=
        (Finset.mul_sum _ _ _).symm

end BoundedForest

end OHHive.Foundation
