import RuleBlocks.Proofs.Circle
import RuleBlocks.Proofs.Reading.Ways

/-!
# The blocks around a block

Whoever goes up from a block meets the blocks around it where the way leads from the start of a
chain to the block that holds the chain (`holders`). The resolver of names goes from one of these
blocks to the next (`exists_around`) and leaves out the member of the chain that it comes from. That
is the member to which the way up leads through values alone (`chainMember?_eq_some_iff`), so a
choice hides its name from just those blocks from which it is reached like that (`HidesFrom`).
-/

namespace RuleBlocks

open Relation

namespace Workspace

variable {workspace : Workspace} {node child other holder choice first member : NodeId}
variable {link : ParentLink} {input : String}

/-- The block in one of whose inputs a block stands. -/
def inputHolder? (workspace : Workspace) (node : NodeId) : Option NodeId :=
  match workspace.parent? node with
  | some ⟨parent, .value _⟩ | some ⟨parent, .statement _⟩ => some parent
  | _ => none

/-- A block stands below one of the inputs of another block. -/
def InInputOf (workspace : Workspace) (holder node : NodeId) : Prop :=
  ∃ child ∈ workspace.lineage node, workspace.inputHolder? child = some holder

instance : Decidable (workspace.InInputOf holder node) :=
  inferInstanceAs (Decidable (∃ child ∈ workspace.lineage node,
    workspace.inputHolder? child = some holder))

/-- The blocks around a block, from the innermost outwards: those in which the way up arrives from
the start of a chain. -/
def holders (workspace : Workspace) (node : NodeId) : List NodeId :=
  (workspace.lineage node).filterMap workspace.chainHolder?

/-- The innermost block around a block. -/
def EnclosedBy (workspace : Workspace) (node holder : NodeId) : Prop :=
  workspace.enclosing? node = some holder

/-- A block is a value in an input of another one. -/
def IsValueOf (workspace : Workspace) (child node : NodeId) : Prop :=
  ∃ input, workspace.parent? child = some ⟨node, .value input⟩

/-- A choice hides its name from a block if the block, or one around it, is the choice or a value of
the choice, or a value of such a value, and so on. -/
def HidesFrom (workspace : Workspace) (choice node : NodeId) : Prop :=
  ∃ inside, ReflTransGen workspace.EnclosedBy node inside ∧
    ReflTransGen workspace.IsValueOf inside choice

/-! ## The way up -/

theorem chainHolder?_eq_some_iff :
    workspace.chainHolder? node = some holder ↔
      ∃ input, workspace.parent? node = some ⟨holder, .statement input⟩ := by
  unfold chainHolder?
  split
  · rename_i hParent
    simp [hParent]
  · rename_i hOther
    exact iff_of_false nofun fun ⟨input, hParent⟩ => hOther _ _ hParent

theorem IsValueOf.isParent (h : workspace.IsValueOf child node) :
    workspace.IsParent node child := by
  obtain ⟨input, hParent⟩ := h
  exact isParent_of_parent? hParent

theorem isValueOf_rightUnique : Relator.RightUnique workspace.IsValueOf := by
  rintro child node other ⟨input, hParent⟩ ⟨otherInput, hOther⟩
  cases hParent.symm.trans hOther
  rfl

theorem enclosedBy_rightUnique : Relator.RightUnique workspace.EnclosedBy := by
  intro node holder other hHolder hOther
  exact Option.some.inj (Eq.symm hHolder |>.trans hOther)

theorem above_of_values (h : ReflTransGen workspace.IsValueOf child node) :
    ReflTransGen workspace.IsParent node child := by
  induction h with
  | refl => exact .refl
  | tail _ hStep ih => exact ih.head hStep.isParent

theorem InInputOf.above (h : workspace.InInputOf holder node) :
    ReflTransGen workspace.IsParent holder node := by
  obtain ⟨child, hMem, hHolder⟩ := h
  refine ReflTransGen.head ?_ (reaches_of_mem_climb hMem)
  unfold inputHolder? at hHolder
  split at hHolder <;> rename_i hParent
  · cases hHolder
    exact isParent_of_parent? hParent
  · cases hHolder
    exact isParent_of_parent? hParent
  · cases hHolder

/-- The way up from a block to the innermost one around it arrives from the start of a chain. -/
theorem EnclosedBy.exists_start (h : workspace.EnclosedBy node holder) :
    ∃ first input, ReflTransGen workspace.IsParent first node ∧
      workspace.parent? first = some ⟨holder, .statement input⟩ := by
  obtain ⟨first, hMem, hFirst⟩ := List.exists_of_findSome?_eq_some h
  obtain ⟨input, hParent⟩ := chainHolder?_eq_some_iff.mp hFirst
  exact ⟨first, input, reaches_of_mem_climb hMem, hParent⟩

theorem EnclosedBy.above (h : workspace.EnclosedBy node holder) :
    TransGen workspace.IsParent holder node := by
  obtain ⟨first, input, hAbove, hParent⟩ := h.exists_start
  exact .head' (isParent_of_parent? hParent) hAbove

theorem above_of_enclosed (h : ReflTransGen workspace.EnclosedBy node other) :
    ReflTransGen workspace.IsParent other node := by
  induction h with
  | refl => exact .refl
  | tail _ hStep ih => exact hStep.above.to_reflTransGen.trans ih

theorem EnclosedBy.lt_size (h : workspace.EnclosedBy node holder) : node < workspace.size := by
  obtain ⟨first, input, hAbove, hParent⟩ := h.exists_start
  rcases hAbove.cases_tail with rfl | ⟨parent, -, link, hLink, -⟩
  · exact lt_size_of_parent? hParent
  · exact lt_size_of_parent? hLink

namespace Forest

variable (hForest : workspace.Forest)

include hForest

/-- The way up from a block arrives in another block only once. -/
theorem child_above_unique (hFirst : ReflTransGen workspace.IsParent first node)
    (hOther : ReflTransGen workspace.IsParent other node)
    (hFirstParent : workspace.IsParent holder first)
    (hOtherParent : workspace.IsParent holder other) : first = other := by
  have hUnique : Relator.RightUnique (Function.swap workspace.IsParent) := fun _ _ _ =>
    isParent_unique
  have hAcyclic : ∀ node, ¬ TransGen (Function.swap workspace.IsParent) node node :=
    fun node hCycle => hForest.acyclic node hCycle.swap
  exact eq_of_common_step hUnique hAcyclic hFirst.swap hOther.swap hFirstParent hOtherParent

/-- The way outwards from a block does not come back to it. -/
theorem acyclic_enclosedBy (node : NodeId) : ¬ TransGen workspace.EnclosedBy node node := by
  intro hCycle
  have hUpwards : workspace.EnclosedBy ≤ TransGen (Function.swap workspace.IsParent) :=
    fun _ _ hStep => hStep.above.swap
  exact hForest.acyclic node (TransGen.closed hUpwards _ _ hCycle).swap

/-- The way outwards from a block arrives in another block only once. -/
theorem enclosed_unique (hNode : ReflTransGen workspace.EnclosedBy node child)
    (hOther : ReflTransGen workspace.EnclosedBy node other)
    (hChildHolder : workspace.EnclosedBy child holder)
    (hOtherHolder : workspace.EnclosedBy other holder) : child = other :=
  eq_of_common_step enclosedBy_rightUnique hForest.acyclic_enclosedBy hNode hOther hChildHolder
    hOtherHolder

theorem mem_holders_iff :
    holder ∈ workspace.holders node ↔
      ∃ first input, ReflTransGen workspace.IsParent first node ∧
        workspace.parent? first = some ⟨holder, .statement input⟩ := by
  unfold holders
  simp only [List.mem_filterMap, hForest.mem_lineage_iff, chainHolder?_eq_some_iff]
  exact ⟨fun ⟨first, hAbove, input, hParent⟩ => ⟨first, input, hAbove, hParent⟩,
    fun ⟨first, input, hAbove, hParent⟩ => ⟨first, hAbove, input, hParent⟩⟩

/-- What is around a block above is around a block. -/
theorem mem_holders_of_above (hAbove : ReflTransGen workspace.IsParent child node)
    (hHolder : workspace.EnclosedBy child holder) : holder ∈ workspace.holders node := by
  obtain ⟨first, input, hFirst, hParent⟩ := hHolder.exists_start
  exact hForest.mem_holders_iff.mpr ⟨first, input, hFirst.trans hAbove, hParent⟩

/-- Around a block are the innermost block around it and what is around that. -/
theorem holders_of_enclosedBy (h : workspace.EnclosedBy node holder) :
    workspace.holders node = holder :: workspace.holders holder := by
  induction node using hForest.upward with
  | root node hParent => cases (enclosing?_of_root hParent).symm.trans h
  | child node link hParent ih =>
    have hLineage := hForest.lineage_eq hParent
    have hEnclosing := (hForest.enclosing?_eq hParent).symm.trans h
    obtain ⟨parent, via⟩ := link
    cases via with
    | statement input =>
      cases hEnclosing
      rw [holders, hLineage,
        List.filterMap_cons_some (chainHolder?_eq_some_iff.mpr ⟨input, hParent⟩)]
      rfl
    | value input | next =>
      rw [holders, hLineage, List.filterMap_cons_none (by rw [chainHolder?, hParent])]
      exact ih hEnclosing

end Forest

theorem holders_of_outside (h : workspace.enclosing? node = none) : workspace.holders node = [] :=
  List.filterMap_eq_nil_iff.mpr (List.findSome?_eq_none_iff.mp h)

/-! ## Values -/

/-- The member of a chain is no value. -/
theorem InChainOf.eq_of_values (hMember : workspace.InChainOf holder member)
    (h : ReflTransGen workspace.IsValueOf member other) : member = other := by
  rcases h.cases_head with hEq | ⟨node, ⟨input, hParent⟩, -⟩
  · exact hEq
  · rcases hMember.2 with ⟨_, hLink⟩ | ⟨_, hLink⟩ <;> cases hParent.symm.trans hLink

namespace Forest

variable (hForest : workspace.Forest)

include hForest

/-- The same blocks are around a value and around the block that takes it. -/
theorem enclosing?_of_values (h : ReflTransGen workspace.IsValueOf child node) :
    workspace.enclosing? child = workspace.enclosing? node := by
  induction h with
  | refl => rfl
  | tail _ hStep ih =>
    obtain ⟨input, hParent⟩ := hStep
    exact ih.trans (hForest.enclosing?_eq hParent)

/-- A choice hides its name only from itself and from what stands below its inputs. -/
theorem eq_or_inInputOf_of_hidesFrom (h : workspace.HidesFrom choice node) :
    choice = node ∨ workspace.InInputOf choice node := by
  obtain ⟨inside, hOutwards, hValues⟩ := h
  have hAbove := above_of_enclosed hOutwards
  rcases hValues.cases_tail with rfl | ⟨child, hChild, input, hParent⟩
  · rcases hOutwards.cases_tail with rfl | ⟨between, hBetween, hStep⟩
    · exact Or.inl rfl
    · obtain ⟨first, input, hFirst, hParent⟩ := hStep.exists_start
      refine Or.inr ⟨first, hForest.mem_lineage_iff.mpr ?_, by rw [inputHolder?, hParent]⟩
      exact hFirst.trans (above_of_enclosed hBetween)
  · refine Or.inr ⟨child, hForest.mem_lineage_iff.mpr ?_, by rw [inputHolder?, hParent]⟩
    exact (above_of_values hChild).trans hAbove

/-- If the way up leads through a block in the chain of an input and arrives in the holder from the
start of a chain, then it is the same chain. -/
theorem inChainOf_of_above (hAbove : ReflTransGen workspace.IsParent member node)
    (hHolder : holder ∈ workspace.holders node) {limit : Nat}
    (hMember : member ∈ workspace.view.chain limit (workspace.view.input? holder input)) :
    workspace.InChainOf holder member := by
  obtain ⟨start, startInput, hStart, hStartParent⟩ := hForest.mem_holders_iff.mp hHolder
  obtain ⟨first, hFirst, hFollows⟩ := hForest.exists_follows_of_mem_chain hMember
  obtain rfl := hForest.child_above_unique ((above_of_follows hFollows).trans hAbove) hStart
    (hForest.isParent_of_input? hFirst) (isParent_of_parent? hStartParent)
  rw [hFirst] at hMember
  exact hForest.inChainOf_of_mem_chain hStartParent hMember

/-- Where the way outwards from a block arrives in a block that holds a choice, and the choice hides
its name from the block, the way comes from the choice through values alone. -/
theorem values_of_hidesFrom (hHides : workspace.HidesFrom choice node)
    (hNode : ReflTransGen workspace.EnclosedBy node child)
    (hHolder : workspace.EnclosedBy child holder) {limit : Nat}
    (hChoice : choice ∈ workspace.view.chain limit (workspace.view.input? holder input)) :
    ReflTransGen workspace.IsValueOf child choice ∧ workspace.InChainOf holder choice := by
  obtain ⟨inside, hInside, hValues⟩ := hHides
  have hAbove := (above_of_values hValues).trans (above_of_enclosed hInside)
  have hMember := hForest.inChainOf_of_above hAbove
    (hForest.mem_holders_of_above (above_of_enclosed hNode) hHolder) hChoice
  have hInsideHolder : workspace.EnclosedBy inside holder :=
    (hForest.enclosing?_of_values hValues).trans hMember.1
  obtain rfl := hForest.enclosed_unique hInside hNode hInsideHolder hHolder
  exact ⟨hValues, hMember⟩

end Forest

end Workspace

namespace Scope

open Workspace

variable {scope : Scope} {workspace : Workspace} {node inside holder member choice : NodeId}
variable (hForest : workspace.Forest) (hView : scope.view = workspace.view)

include hForest hView

/-- The resolver goes through the blocks around a block, from the innermost outwards. -/
theorem exists_around (node : NodeId) :
    ∃ around, scope.enclosures workspace.size node = some around ∧
      around.map Prod.snd = workspace.holders node ∧
      ∀ step ∈ around, ReflTransGen workspace.EnclosedBy node step.1 ∧
        workspace.EnclosedBy step.1 step.2 := by
  induction node using hForest.outward with
  | outside node hOutside =>
    refine ⟨[], enclosures_of_root hView hOutside _, (holders_of_outside hOutside).symm, ?_⟩
    exact fun _ hStep => absurd hStep List.not_mem_nil
  | inside node holder hHolder ih =>
    have hEnclosed : workspace.EnclosedBy node holder := hHolder
    obtain ⟨around, hAround, hHolders, hSteps⟩ := ih
    refine ⟨(node, holder) :: around, ?_, ?_, ?_⟩
    · rw [enclosures_of_enclosing hForest hView hEnclosed.lt_size hHolder, hAround]
      rfl
    · rw [List.map_cons, hHolders, hForest.holders_of_enclosedBy hEnclosed]
    · refine List.forall_mem_cons.mpr ⟨⟨.refl, hEnclosed⟩, fun step hStep => ?_⟩
      exact ⟨(hSteps step hStep).1.head hEnclosed, (hSteps step hStep).2⟩

theorem exists_chainMember? (h : workspace.EnclosedBy inside holder) :
    ∃ member, ReflTransGen workspace.IsValueOf inside member ∧ workspace.InChainOf holder member ∧
      scope.chainMember? holder workspace.size inside = some member := by
  induction inside using hForest.upward with
  | root inside hParent => cases (enclosing?_of_root hParent).symm.trans h
  | child inside link hParent ih =>
    have hEnclosing := (hForest.enclosing?_eq hParent).symm.trans h
    obtain ⟨parent, via⟩ := link
    cases via with
    | statement input =>
      cases hEnclosing
      have hMember := hForest.inChainOf_first hParent
      exact ⟨inside, .refl, hMember, chainMember?_of_inChainOf hView hMember⟩
    | next =>
      have hMember : workspace.InChainOf holder inside := ⟨h, Or.inr ⟨parent, hParent⟩⟩
      exact ⟨inside, .refl, hMember, chainMember?_of_inChainOf hView hMember⟩
    | value input =>
      obtain ⟨member, hValues, hMember, hFound⟩ := ih hEnclosing
      exact ⟨member, hValues.head ⟨input, hParent⟩, hMember,
        (chainMember?_of_value hForest hView hParent hEnclosing).trans hFound⟩

/-- **The member of a chain that the resolver comes from** is the one to which the way up leads
through values alone. -/
theorem chainMember?_eq_some_iff (h : workspace.EnclosedBy inside holder) :
    scope.chainMember? holder workspace.size inside = some member ↔
      ReflTransGen workspace.IsValueOf inside member ∧ workspace.InChainOf holder member := by
  obtain ⟨found, hValues, hMember, hFound⟩ := exists_chainMember? hForest hView h
  rw [hFound, Option.some.injEq]
  constructor
  · rintro rfl
    exact ⟨hValues, hMember⟩
  · rintro ⟨hOtherValues, hOther⟩
    rcases ReflTransGen.total_of_right_unique isValueOf_rightUnique hValues hOtherValues with
      hReaches | hReaches
    · exact hMember.eq_of_values hReaches
    · exact (hOther.eq_of_values hReaches).symm

end Scope

end RuleBlocks
