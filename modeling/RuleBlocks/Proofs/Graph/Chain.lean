import RuleBlocks.Graph.View
import Mathlib.Logic.Relation

/-!
# The members of a chain

A chain is cut off after a number of blocks. What it holds are blocks to which one gets from its
first block by going to the next one again and again (`View.InChainFrom`), and every such block is
held by a chain that is long enough. So facts about the members of chains need an induction over
steps to the next block, and none over limits.
-/

namespace RuleBlocks.View

open Relation

variable {view : View} {first node : NodeId} {first? : Option NodeId} {limit : Nat}

/-- A block is next to another one, as the graph answers. -/
def IsNext (view : View) (before node : NodeId) : Prop := view.next? before = some node

/-- A block is a member of the chain that begins with another one. -/
def InChainFrom (view : View) (first node : NodeId) : Prop := ReflTransGen view.IsNext first node

@[simp] theorem chain_none (limit : Nat) : view.chain limit none = [] := by
  cases limit <;> rfl

/-- What a chain holds are members of the chain that begins with its first block. -/
theorem exists_first_of_mem_chain (h : node ∈ view.chain limit first?) :
    ∃ first, first? = some first ∧ view.InChainFrom first node := by
  induction limit generalizing first? with
  | zero => cases h
  | succ limit ih =>
    cases first? with
    | none => cases h
    | some first =>
      rw [chain] at h
      rcases List.mem_cons.mp h with rfl | h
      · exact ⟨node, rfl, .refl⟩
      · obtain ⟨next, hNext, hMember⟩ := ih h
        exact ⟨first, rfl, .head hNext hMember⟩

theorem inChainFrom_of_mem_chain (h : node ∈ view.chain limit (some first)) :
    view.InChainFrom first node := by
  obtain ⟨other, hFirst, hMember⟩ := exists_first_of_mem_chain h
  cases hFirst
  exact hMember

theorem InChainFrom.exists_mem_chain (h : view.InChainFrom first node) :
    ∃ limit, node ∈ view.chain limit (some first) := by
  induction h using ReflTransGen.head_induction_on with
  | refl => exact ⟨1, List.mem_cons_self⟩
  | head hNext _ ih =>
    obtain ⟨limit, hMem⟩ := ih
    refine ⟨limit + 1, List.mem_cons_of_mem _ ?_⟩
    rwa [hNext]

end RuleBlocks.View
