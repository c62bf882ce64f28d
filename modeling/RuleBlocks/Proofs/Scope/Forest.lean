import RuleBlocks.Proofs.Reading.Recovers
import RuleBlocks.Proofs.Workspace.Forest

/-!
# Names in scope in a forest

In a forest the walk from a block to the blocks around it ends before its limit, so names are always
resolved. What a block can refer to follows from what the block around it can refer to: a value sees
what the block that takes it sees (`sees_value`), and a member of a chain sees in addition what the
holder of the chain binds for that member (`sees_member`). At the outside only the globals are seen
(`sees_root`).
-/

namespace RuleBlocks

namespace Workspace

variable {workspace : Workspace} {node child holder : NodeId} {link : ParentLink}

theorem depth_pos : 0 < workspace.depth node := Nat.succ_pos _

/-- A block around another one stands above it. -/
theorem Forest.depth_enclosing_lt (hForest : workspace.Forest)
    (h : workspace.enclosing? node = some holder) :
    workspace.depth holder < workspace.depth node ∧ holder < workspace.size := by
  induction node using hForest.upward with
  | root node hParent =>
    rw [enclosing?_of_root hParent] at h
    cases h
  | child node link hParent ih =>
    have hChild := hForest.depth_child hParent
    rw [hForest.enclosing?_eq hParent] at h
    cases hVia : link.via with
    | statement input =>
      simp only [hVia, Option.some.injEq] at h
      subst h
      exact ⟨by omega, hForest.parent_lt_size hParent⟩
    | value input | next =>
      simp only [hVia] at h
      obtain ⟨hLt, hSize⟩ := ih h
      exact ⟨by omega, hSize⟩

/-- What holds of the blocks around which there is no other one, and of a block if it holds of the
innermost block around it, holds of every block. -/
theorem Forest.outward (hForest : workspace.Forest) {motive : NodeId → Prop}
    (outside : ∀ node, workspace.enclosing? node = none → motive node)
    (inside : ∀ node holder, workspace.enclosing? node = some holder → motive holder → motive node)
    (node : NodeId) : motive node := by
  generalize hDepth : workspace.depth node = depth
  induction depth using Nat.strongRecOn generalizing node with
  | ind depth ih =>
    cases hHolder : workspace.enclosing? node with
    | none => exact outside node hHolder
    | some holder =>
      have hLt := (hForest.depth_enclosing_lt hHolder).1
      exact inside node holder hHolder (ih _ (by omega) holder rfl)

/-- A block is a member of a chain that another block holds in one of its inputs. -/
def InChainOf (workspace : Workspace) (holder member : NodeId) : Prop :=
  workspace.enclosing? member = some holder ∧
    ((∃ input, workspace.parent? member = some ⟨holder, .statement input⟩) ∨
      ∃ previous, workspace.parent? member = some ⟨previous, .next⟩)

theorem InChainOf.lt_size {member : NodeId} (h : workspace.InChainOf holder member) :
    member < workspace.size := by
  rcases h.2 with ⟨input, hParent⟩ | ⟨previous, hParent⟩
  · exact lt_size_of_parent? hParent
  · exact lt_size_of_parent? hParent

theorem Forest.inChainOf_first (hForest : workspace.Forest) {input : String}
    (hParent : workspace.parent? node = some ⟨holder, .statement input⟩) :
    workspace.InChainOf holder node := ⟨hForest.enclosing?_eq hParent, Or.inl ⟨input, hParent⟩⟩

theorem Forest.inChainOf_next (hForest : workspace.Forest)
    (hPrevious : workspace.InChainOf holder node)
    (hParent : workspace.parent? child = some ⟨node, .next⟩) :
    workspace.InChainOf holder child :=
  ⟨(hForest.enclosing?_eq hParent).trans hPrevious.1, Or.inr ⟨node, hParent⟩⟩

end Workspace

namespace Scope

open Workspace

/-- Leaving out later bindings of a name leaves out no name. -/
theorem mem_names_firstOfEachName {name : String} {seen : List String} {bindings : List Binding} :
    name ∈ (firstOfEachName seen bindings).map Binding.name ↔
      name ∉ seen ∧ name ∈ bindings.map Binding.name := by
  induction bindings generalizing seen with
  | nil => simp [firstOfEachName]
  | cons binding rest ih =>
    rw [firstOfEachName]
    split
    · rename_i hSeen
      rw [ih, List.map_cons, List.mem_cons]
      refine and_congr_right fun hName => (or_iff_right ?_).symm
      rintro rfl
      exact hName hSeen
    · rename_i hNew
      rw [List.map_cons, List.mem_cons, ih, List.map_cons, List.mem_cons, List.mem_cons]
      by_cases hName : name = binding.name
      · subst hName
        simp [hNew]
      · simp [hName]

theorem sublist_firstOfEachName (seen : List String) (bindings : List Binding) :
    (firstOfEachName seen bindings).Sublist bindings := by
  induction bindings generalizing seen with
  | nil => exact .slnil
  | cons binding rest ih =>
    rw [firstOfEachName]
    split
    · exact (ih seen).cons binding
    · exact (ih _).cons_cons binding

theorem nodup_names_firstOfEachName (seen : List String) (bindings : List Binding) :
    ((firstOfEachName seen bindings).map Binding.name).Nodup := by
  induction bindings generalizing seen with
  | nil => exact List.nodup_nil
  | cons binding rest ih =>
    rw [firstOfEachName]
    split
    · exact ih seen
    · refine List.nodup_cons.mpr ⟨fun hMem => ?_, ih _⟩
      exact (mem_names_firstOfEachName.mp hMem).1 List.mem_cons_self

/-- Leaving out later bindings of a name leaves its first binding. -/
theorem find?_firstOfEachName {name : String} {seen : List String} {bindings : List Binding}
    (hName : name ∉ seen) :
    (firstOfEachName seen bindings).find? (fun binding => binding.name = name) =
      bindings.find? fun binding => binding.name = name := by
  induction bindings generalizing seen with
  | nil => rfl
  | cons binding rest ih =>
    rw [firstOfEachName]
    split
    · rename_i hSeen
      have hOther : binding.name ≠ name := fun hEq => hName (hEq ▸ hSeen)
      rw [ih hName, List.find?_cons_of_neg (by simpa using hOther)]
    · by_cases hEq : binding.name = name
      · rw [List.find?_cons_of_pos (by simpa using hEq),
          List.find?_cons_of_pos (by simpa using hEq)]
      · rw [List.find?_cons_of_neg (by simpa using hEq),
          List.find?_cons_of_neg (by simpa using hEq)]
        exact ih (List.not_mem_cons_of_ne_of_not_mem (Ne.symm hEq) hName)

variable {scope : Scope} {workspace : Workspace} {node child holder : NodeId} {link : ParentLink}

/-! ## What a block binds -/

section

variable {kind : BlockKind} (hKind : scope.view.kind? scope.vocabulary holder = some kind)

include hKind

/-- A case binds its selections, each for all but itself. -/
theorem bindings_of_case (hCase : kind.role = .offerCase) (category : Category)
    (member? : Option NodeId) :
    scope.bindings category holder member? =
      ((scope.view.chain scope.view.size (scope.view.input? holder Input.offers)).filter
        fun choice => member? ≠ some choice).filterMap (scope.selectionBinding? category) := by
  unfold bindings
  rw [hKind]
  cases kind <;> first | rfl | cases hCase

/-- Only offers and cases bind anything. -/
theorem bindings_eq_nil (hNot : kind ≠ .offer ∧ kind.role ≠ .offerCase) (category : Category)
    (member? : Option NodeId) : scope.bindings category holder member? = [] := by
  unfold bindings
  rw [hKind]
  cases kind <;> first | rfl | exact absurd rfl hNot.1 | exact absurd rfl hNot.2

end

theorem bindings_of_offer (hKind : scope.view.kind? scope.vocabulary holder = some .offer)
    (category : Category) (member? : Option NodeId) :
    scope.bindings category holder member? =
      if category = .player then scope.playerBindings holder else [] := by
  unfold bindings
  rw [hKind]

variable (hForest : workspace.Forest) (hView : scope.view = workspace.view)

include hForest hView

/-! ## Limits -/

/-- Beyond the depth of a block the limit does not count. -/
theorem enclosures_stable {limit more : Nat} (hLimit : workspace.depth node ≤ limit)
    (hMore : workspace.depth node ≤ more) :
    scope.enclosures limit node = scope.enclosures more node := by
  induction limit generalizing node more with
  | zero => exact absurd hLimit (Nat.not_le.mpr depth_pos)
  | succ limit ih =>
    have hPos : 0 < workspace.depth node := depth_pos
    obtain ⟨more, rfl⟩ : ∃ rest, more = rest + 1 := ⟨more - 1, by omega⟩
    rw [enclosures, enclosures, hView]
    cases hHolder : workspace.view.enclosing? node with
    | none => rfl
    | some holder =>
      obtain ⟨hLt, -⟩ := hForest.depth_enclosing_lt hHolder
      have hStable : scope.enclosures limit holder = scope.enclosures more holder :=
        ih (by omega) (by omega)
      simp only [hStable]

theorem chainMember?_stable {limit more : Nat} (hLimit : workspace.depth node ≤ limit)
    (hMore : workspace.depth node ≤ more) :
    scope.chainMember? holder limit node = scope.chainMember? holder more node := by
  induction limit generalizing node more with
  | zero => exact absurd hLimit (Nat.not_le.mpr depth_pos)
  | succ limit ih =>
    have hPos : 0 < workspace.depth node := depth_pos
    obtain ⟨more, rfl⟩ : ∃ rest, more = rest + 1 := ⟨more - 1, by omega⟩
    rw [chainMember?, chainMember?, hView]
    cases hParent : workspace.parent? node with
    | none => simp only [Workspace.view, hParent, Option.map_none]
    | some link =>
      have hDepth := hForest.depth_child hParent
      have hStable : scope.chainMember? holder limit link.node =
          scope.chainMember? holder more link.node := ih (by omega) (by omega)
      simp only [Workspace.view, hParent, Option.map_some]
      rw [hStable]

omit hForest in
/-- The walk from a block that stands at the outside ends at once. -/
theorem enclosures_of_root (hRoot : workspace.enclosing? node = none) (limit : Nat) :
    scope.enclosures limit node = some [] := by
  have hEnclosing : scope.view.enclosing? node = none := by
    rw [hView]
    exact hRoot
  unfold enclosures
  rw [hEnclosing]

/-- Any other walk goes on from the block around. -/
theorem enclosures_of_enclosing (hNode : node < workspace.size)
    (hHolder : workspace.enclosing? node = some holder) :
    scope.enclosures workspace.size node =
      (scope.enclosures workspace.size holder).map ((node, holder) :: ·) := by
  obtain ⟨hLt, hHolderNode⟩ := hForest.depth_enclosing_lt hHolder
  have hDepth := hForest.depth_le_size hNode
  have hEnclosing : scope.view.enclosing? node = some holder := by
    rw [hView]
    exact hHolder
  obtain ⟨limit, hLimit⟩ : ∃ limit, workspace.size = limit + 1 := ⟨workspace.size - 1, by omega⟩
  rw [enclosures_stable hForest hView (hForest.depth_le_size hHolderNode)
    (show workspace.depth holder ≤ limit by omega), hLimit, enclosures, hEnclosing]

theorem exists_enclosures (hNode : node < workspace.size) :
    ∃ around, scope.enclosures workspace.size node = some around := by
  induction node using hForest.outward with
  | outside node hOutside => exact ⟨_, enclosures_of_root hView hOutside _⟩
  | inside node holder hHolder ih =>
    obtain ⟨around, hAround⟩ := ih (hForest.depth_enclosing_lt hHolder).2
    rw [enclosures_of_enclosing hForest hView hNode hHolder, hAround]
    exact ⟨_, rfl⟩

/-! ## Environments -/

omit hForest in
/-- The names at a block are those that the blocks around it bind, the innermost first, and the
globals. -/
theorem names_of_enclosures {around : List (NodeId × NodeId)}
    (hAround : scope.enclosures workspace.size node = some around) (category : Category) :
    scope.names node category = .ok (firstOfEachName []
      ((around.flatMap fun step =>
        scope.bindings category step.2 (scope.chainMember? step.2 workspace.size step.1)) ++
        scope.globals.filter fun binding => binding.category = category)) := by
  rw [names]
  simp only [hView, size_view, hAround]

omit hForest in
/-- A block sees what the blocks around it bind, and the globals. -/
theorem sees_iff {visible : List (Category × String)} {around : List (NodeId × NodeId)}
    (hAround : scope.enclosures workspace.size node = some around) :
    scope.Sees node visible ↔ ∀ category name,
      (∃ step ∈ around, name ∈ (scope.bindings category step.2
        (scope.chainMember? step.2 workspace.size step.1)).map Binding.name) ∨
        (category, name) ∈ scope.globals.map (fun binding => (binding.category, binding.name)) ↔
      (category, name) ∈ visible := by
  have hMem : ∀ category name, name ∈ ((firstOfEachName []
      ((around.flatMap fun step =>
        scope.bindings category step.2 (scope.chainMember? step.2 workspace.size step.1)) ++
        scope.globals.filter fun binding => binding.category = category)).map Binding.name) ↔
      (∃ step ∈ around, name ∈ (scope.bindings category step.2
        (scope.chainMember? step.2 workspace.size step.1)).map Binding.name) ∨
        (category, name) ∈ scope.globals.map fun binding => (binding.category, binding.name) := by
    intro category name
    rw [mem_names_firstOfEachName, List.map_append, List.mem_append, List.map_flatMap,
      List.mem_flatMap]
    simp [and_comm, and_assoc]
  refine forall_congr' fun category => ?_
  rw [names_of_enclosures hView hAround]
  simp only [Except.ok.injEq, exists_eq_left', hMem]

omit hForest in
/-- At the outside just the globals are seen. -/
theorem sees_root (hRoot : workspace.enclosing? node = none) :
    scope.Sees node (scope.globals.map fun binding => (binding.category, binding.name)) := by
  rw [sees_iff hView (enclosures_of_root hView hRoot _)]
  simp

/-- A block sees what the block around it binds for its chain, and what that block sees. -/
theorem sees_of_enclosing {visible bound : List (Category × String)} {member? : Option NodeId}
    (hNode : node < workspace.size) (hHolder : workspace.enclosing? node = some holder)
    (hMember : scope.chainMember? holder workspace.size node = member?)
    (hBound : ∀ category name, name ∈ (scope.bindings category holder member?).map Binding.name ↔
      (category, name) ∈ bound)
    (hSees : scope.Sees holder visible) : scope.Sees node (bound ++ visible) := by
  obtain ⟨-, hHolderNode⟩ := hForest.depth_enclosing_lt hHolder
  obtain ⟨around, hAround⟩ := exists_enclosures hForest hView hHolderNode
  have hStep := enclosures_of_enclosing hForest hView hNode hHolder
  rw [hAround, Option.map_some] at hStep
  rw [sees_iff hView hAround] at hSees
  rw [sees_iff hView hStep]
  intro category name
  rw [List.mem_append, ← hSees, ← hBound, ← hMember, List.exists_mem_cons_iff, or_assoc]

omit hForest in
/-- A member of a chain is the member through which one gets from it to the holder. -/
theorem chainMember?_of_inChainOf {member : NodeId} (hMember : workspace.InChainOf holder member) :
    scope.chainMember? holder workspace.size member = some member := by
  have hSize := Nat.zero_lt_of_lt hMember.lt_size
  obtain ⟨limit, hLimit⟩ : ∃ limit, workspace.size = limit + 1 :=
    ⟨workspace.size - 1, (Nat.succ_pred_eq_of_pos hSize).symm⟩
  rw [hLimit, chainMember?, hView]
  rcases hMember.2 with ⟨input, hParent⟩ | ⟨previous, hParent⟩
  · simp [Workspace.view, hParent]
  · simp [Workspace.view, Workspace.previous?, hParent]

/-- The way up from a value leads through the block that takes it. -/
theorem chainMember?_of_value {input : String}
    (hParent : workspace.parent? child = some ⟨node, .value input⟩)
    (hHolder : workspace.enclosing? node = some holder) :
    scope.chainMember? holder workspace.size child =
      scope.chainMember? holder workspace.size node := by
  have hNode := hForest.parent_lt_size hParent
  have hDepth := hForest.depth_child hParent
  have hDepthChild := hForest.depth_le_size (lt_size_of_parent? hParent)
  dsimp only at hDepth
  have hOther : node ≠ holder := by
    rintro rfl
    exact Nat.lt_irrefl _ (hForest.depth_enclosing_lt hHolder).1
  obtain ⟨limit, hLimit⟩ : ∃ limit, workspace.size = limit + 1 := ⟨workspace.size - 1, by omega⟩
  rw [chainMember?_stable hForest hView (hForest.depth_le_size hNode)
    (show workspace.depth node ≤ limit by omega), hLimit, chainMember?, hView]
  simp [Workspace.view, Workspace.previous?, hParent, hOther]

/-- A member of a chain sees what the holder of the chain binds for it, and what the holder sees. -/
theorem sees_member {visible bound : List (Category × String)} {member : NodeId}
    (hMember : workspace.InChainOf holder member)
    (hBound : ∀ category name,
      name ∈ (scope.bindings category holder (some member)).map Binding.name ↔
        (category, name) ∈ bound)
    (hSees : scope.Sees holder visible) : scope.Sees member (bound ++ visible) :=
  sees_of_enclosing hForest hView hMember.lt_size hMember.1
    (chainMember?_of_inChainOf hView hMember) hBound hSees

/-- A value sees what the block that takes it sees. -/
theorem sees_value {visible : List (Category × String)} {input : String}
    (hParent : workspace.parent? child = some ⟨node, .value input⟩)
    (hSees : scope.Sees node visible) : scope.Sees child visible := by
  have hChild := lt_size_of_parent? hParent
  have hNode := hForest.parent_lt_size hParent
  have hEnclosing : workspace.enclosing? child = workspace.enclosing? node :=
    hForest.enclosing?_eq hParent
  cases hHolder : workspace.enclosing? node with
  | none =>
    rw [hHolder] at hEnclosing
    rw [sees_iff hView (enclosures_of_root hView hHolder _)] at hSees
    rw [sees_iff hView (enclosures_of_root hView hEnclosing _)]
    exact hSees
  | some holder =>
    rw [hHolder] at hEnclosing
    obtain ⟨hLt, hHolderNode⟩ := hForest.depth_enclosing_lt hHolder
    obtain ⟨around, hAround⟩ := exists_enclosures hForest hView hHolderNode
    have hInner := enclosures_of_enclosing hForest hView hChild hEnclosing
    have hOuter := enclosures_of_enclosing hForest hView hNode hHolder
    rw [hAround, Option.map_some] at hInner hOuter
    rw [sees_iff hView hOuter] at hSees
    rw [sees_iff hView hInner]
    have hMember := chainMember?_of_value hForest hView hParent hHolder
    simp only [List.exists_mem_cons_iff, hMember] at hSees ⊢
    exact hSees

end Scope

end RuleBlocks
