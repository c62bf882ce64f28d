import RuleBlocks.Proofs.Scope.Selections

/-!
# What a block can refer to at most

A workspace is tidy if the inputs for chains hold chains and all other inputs hold values. Then it
is known from the name of an input how a block in it is attached, and so which names the block sees:
a value sees no more than the block that takes it (`seesAtMost_value`), and a member of a chain sees
no more than that and what the holder of the chain binds for it (`seesAtMost_member`).

What is resolved at a block is one of the names that it sees (`mem_of_resolve`).
-/

namespace RuleBlocks

namespace Workspace

variable {workspace : Workspace} {node child first member : NodeId} {input : String}

/-- The inputs for chains hold chains, and all other inputs hold values. -/
def Tidy (workspace : Workspace) : Prop :=
  ∀ block ∈ workspace.blocks.toList, ∀ connection ∈ block.inputs,
    (connection.kind = .statement ↔ connection.input ∈ Input.chains)

instance (workspace : Workspace) : Decidable workspace.Tidy :=
  inferInstanceAs (Decidable (∀ block ∈ workspace.blocks.toList, ∀ connection ∈ block.inputs,
    (connection.kind = .statement ↔ connection.input ∈ Input.chains)))

/-- How a block in an input is attached. -/
theorem Forest.parent?_of_tidy (hForest : workspace.Forest) (hTidy : workspace.Tidy)
    (h : workspace.view.input? node input = some child) :
    workspace.parent? child =
      some ⟨node, if input ∈ Input.chains then .statement input else .value input⟩ := by
  obtain ⟨block, hBlock, hTarget⟩ := Option.bind_eq_some_iff.mp h
  obtain ⟨⟨name, kind, target⟩, hFound, rfl⟩ := Option.map_eq_some_iff.mp hTarget
  obtain rfl : name = input := by simpa using List.find?_some hFound
  have hMem := List.mem_of_find?_eq_some hFound
  have hListed : block ∈ workspace.blocks.toList :=
    List.mem_of_getElem? (Array.getElem?_toList.trans hBlock)
  have hKind := hTidy block hListed _ hMem
  cases kind with
  | value =>
    rw [if_neg fun hChains => by simpa using hKind.mpr hChains]
    exact hForest.parent?_iff.mpr ⟨block, hBlock, hMem⟩
  | statement =>
    rw [if_pos (hKind.mp rfl)]
    exact hForest.parent?_iff.mpr ⟨block, hBlock, hMem⟩

/-- All members of a chain have the same block around them. -/
theorem Forest.enclosing?_of_mem_chain (hForest : workspace.Forest) {limit : Nat}
    (h : member ∈ workspace.view.chain limit (some first)) :
    workspace.enclosing? member = workspace.enclosing? first := by
  have hReaches := hForest.reaches_first_of_mem_chain h
  clear h
  induction hReaches using Relation.ReflTransGen.head_induction_on with
  | refl => rfl
  | head hStep _ ih => exact (hForest.enclosing?_eq hStep).trans ih

end Workspace

namespace Scope

open Workspace

variable {scope : Scope} {workspace : Workspace} {node child holder member : NodeId}
variable {visible bound : List (Category × String)}

/-- A block can refer to no other names than those of an environment. -/
def SeesAtMost (scope : Scope) (node : NodeId) (visible : List (Category × String)) : Prop :=
  ∃ seen, scope.Sees node seen ∧ seen ⊆ visible

/-- What is resolved is one of the names that are seen. -/
theorem SeesAtMost.mem_of_resolve (hSees : scope.SeesAtMost node visible) {category : Category}
    {name : String} {binding : Binding}
    (hResolve : scope.resolve node category name = .ok (some binding)) :
    (category, name) ∈ visible := by
  obtain ⟨seen, hSeen, hSubset⟩ := hSees
  obtain ⟨bindings, hBindings, hNames⟩ := hSeen category
  rw [resolve, hBindings] at hResolve
  have hFound : bindings.find? (fun binding => binding.name = name) = some binding :=
    Except.ok.inj hResolve
  have hName : binding.name = name := by simpa using List.find?_some hFound
  refine hSubset ((hNames name).mp ?_)
  exact List.mem_map.mpr ⟨binding, List.mem_of_find?_eq_some hFound, hName⟩

/-- What a block binds for a member of one of its chains, in all categories. -/
def boundFor (scope : Scope) (holder member : NodeId) : List (Category × String) :=
  Category.all.flatMap fun category =>
    (scope.bindings category holder (some member)).map fun binding => (category, binding.name)

theorem mem_boundFor_iff {category : Category} {name : String} :
    (category, name) ∈ scope.boundFor holder member ↔
      name ∈ (scope.bindings category holder (some member)).map Binding.name := by
  simp [boundFor, category.mem_all]

variable (hForest : workspace.Forest) (hView : scope.view = workspace.view)

omit hForest in
include hView in
theorem seesAtMost_root (hRoot : workspace.enclosing? node = none)
    (hGlobals : ∀ binding ∈ scope.globals, (binding.category, binding.name) ∈ visible) :
    scope.SeesAtMost node visible := by
  refine ⟨_, sees_root hView hRoot, fun reference hMem => ?_⟩
  obtain ⟨binding, hBinding, rfl⟩ := List.mem_map.mp hMem
  exact hGlobals binding hBinding

include hForest hView

/-- A value sees no more than the block that takes it. -/
theorem seesAtMost_value {input : String}
    (hParent : workspace.parent? child = some ⟨node, .value input⟩)
    (hSees : scope.SeesAtMost node visible) : scope.SeesAtMost child visible := by
  obtain ⟨seen, hSeen, hSubset⟩ := hSees
  exact ⟨seen, sees_value hForest hView hParent hSeen, hSubset⟩

/-- A member of a chain sees no more than its holder and what the holder binds for it. -/
theorem seesAtMost_member (hMember : workspace.InChainOf holder member)
    (hBound : ∀ category, ∀ binding ∈ scope.bindings category holder (some member),
      (category, binding.name) ∈ bound)
    (hSees : scope.SeesAtMost holder visible) : scope.SeesAtMost member (bound ++ visible) := by
  obtain ⟨seen, hSeen, hSubset⟩ := hSees
  refine ⟨scope.boundFor holder member ++ seen,
    sees_member hForest hView hMember (fun _ _ => mem_boundFor_iff.symm) hSeen, ?_⟩
  refine List.append_subset.mpr ⟨?_, List.subset_append_of_subset_right _ hSubset⟩
  rintro ⟨category, name⟩ hMem
  obtain ⟨binding, hBinding, rfl⟩ := List.mem_map.mp (mem_boundFor_iff.mp hMem)
  exact List.mem_append_left _ (hBound category binding hBinding)

end Scope

end RuleBlocks
