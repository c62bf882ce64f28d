import RuleBlocks.Proofs.Circle
import RuleBlocks.Proofs.Scope.Around

/-!
# Blocks around blocks in a circle

To resolve names one goes from a block to the block around it, and on from there (`View.around?`). A
host may answer the question for the block around another one in any way, so this may go on for ever
(`View.EnclosedForEver`). Names are given up after as many steps as the graph has blocks. That limit
is exact (`Workspace.run_names_error_iff`): if it stays among the blocks of the graph, a way of more
steps comes back to a block and has no end, and every other way is followed to its end, however long
it is. In our own workspaces names are always resolved.
-/

namespace RuleBlocks

open Relation

namespace View

variable {view : View} {node holder : NodeId} {steps : Nat}

/-- The innermost block around a block, as the graph answers. -/
def EnclosedBy (view : View) (node holder : NodeId) : Prop := view.enclosing? node = some holder

instance : Decidable (view.EnclosedBy node holder) :=
  inferInstanceAs (Decidable (view.enclosing? node = some holder))

/-- Where one comes in a number of steps, each to the innermost block around. -/
def around? (view : View) : Nat → NodeId → Option NodeId
  | 0, node => some node
  | steps + 1, node => (view.enclosing? node).bind (view.around? steps)

/-- There is always one more block around. -/
def EnclosedForEver (view : View) (node : NodeId) : Prop :=
  ∀ steps, (view.around? steps node).isSome = true

/-- The blocks around the blocks of a graph are themselves blocks of the graph. -/
def EnclosedWithin (view : View) : Prop :=
  ∀ node ∈ view.nodes, ∀ holder, view.EnclosedBy node holder → holder ∈ view.nodes

theorem isSome_around?_iff :
    (view.around? steps node).isSome = true ↔ CanStep view.EnclosedBy steps node := by
  induction steps generalizing node with
  | zero => exact iff_of_true rfl (canStep_zero node)
  | succ steps ih =>
    rw [around?, canStep_succ_iff]
    cases hHolder : view.enclosing? node with
    | none => simp [EnclosedBy, hHolder]
    | some holder => simp [EnclosedBy, hHolder, ih]

theorem EnclosedWithin.reached (hWithin : view.EnclosedWithin) (hNode : node ∈ view.nodes)
    (hReach : ReflTransGen view.EnclosedBy node holder) : holder ∈ view.nodes := by
  induction hReach with
  | refl => exact hNode
  | tail _ hStep ih => exact hWithin _ ih _ hStep

/-- More steps than there are blocks lead into a circle. -/
theorem EnclosedWithin.isSome_around?_iff_entersCircle (hWithin : view.EnclosedWithin)
    (hNode : node ∈ view.nodes) :
    (view.around? (view.size + 1) node).isSome = true ↔ EntersCircle view.EnclosedBy node := by
  rw [isSome_around?_iff]
  exact canStep_iff_entersCircle fun reached _ hReach _ => hWithin.reached hNode hReach

theorem EnclosedWithin.enclosedForEver_iff (hWithin : view.EnclosedWithin)
    (hNode : node ∈ view.nodes) :
    view.EnclosedForEver node ↔ EntersCircle view.EnclosedBy node := by
  constructor
  · intro hForEver
    exact (hWithin.isSome_around?_iff_entersCircle hNode).mp (hForEver _)
  · intro hCircle steps
    exact isSome_around?_iff.mpr (hCircle.canStep steps)

end View

namespace Scope

variable {scope : Scope} {node : NodeId} {category : Category} {error : ScopeError} {limit : Nat}

/-- The walk is given up just if one can go one step further than its limit. -/
theorem enclosures_eq_none_iff :
    scope.enclosures limit node = none ↔ (scope.view.around? (limit + 1) node).isSome = true := by
  induction limit generalizing node with
  | zero =>
    unfold enclosures
    cases hHolder : scope.view.enclosing? node <;> simp [View.around?, hHolder]
  | succ limit ih =>
    unfold enclosures View.around?
    cases hHolder : scope.view.enclosing? node with
    | none => simp
    | some holder => simpa using ih

/-- Names fail in one way only. -/
theorem names_eq_error_iff :
    scope.names node category = .error error ↔
      error = .enclosureCycle node scope.view.size ∧
        (scope.view.around? (scope.view.size + 1) node).isSome = true := by
  rw [← enclosures_eq_none_iff, names]
  cases hAround : scope.enclosures scope.view.size node with
  | none => simp [eq_comm]
  | some around => simp

section

variable (hWithin : scope.view.EnclosedWithin) (hNode : node ∈ scope.view.nodes)

include hWithin hNode

/-- **Names cannot be resolved just where there is always one more block around.** -/
theorem names_eq_error_iff_enclosedForEver :
    scope.names node category = .error error ↔
      error = .enclosureCycle node scope.view.size ∧ scope.view.EnclosedForEver node := by
  rw [names_eq_error_iff, hWithin.enclosedForEver_iff hNode,
    hWithin.isSome_around?_iff_entersCircle hNode]

/-- If no blocks stand around each other in a circle, names are resolved however deep a block
stands. -/
theorem exists_names_of_acyclic
    (hAcyclic : ∀ turn ∈ scope.view.nodes, ¬ TransGen scope.view.EnclosedBy turn turn) :
    ∃ bindings, scope.names node category = .ok bindings := by
  cases hNames : scope.names node category with
  | ok bindings => exact ⟨bindings, rfl⟩
  | error error =>
    have hForEver := (names_eq_error_iff_enclosedForEver hWithin hNode).mp hNames |>.2
    obtain ⟨turn, hReach, hTurn⟩ := (hWithin.enclosedForEver_iff hNode).mp hForEver
    exact absurd hTurn (hAcyclic turn (hWithin.reached hNode hReach))

end

end Scope

namespace Workspace

variable {workspace : Workspace}

theorem Forest.enclosedWithin_view (hForest : workspace.Forest) :
    workspace.view.EnclosedWithin := by
  intro node _ holder hHolder
  change holder ∈ workspace.nodes
  rw [hForest.nodes_eq, List.mem_range]
  exact (hForest.depth_enclosing_lt hHolder).2

/-- **Only a circle of blocks around each other is reported, and every one is.** Let a host keep
what we have built but answer the questions for the blocks next to, before, above and around a block
in its own way, where the blocks around its blocks are blocks of it. Then names at a block cannot be
resolved just if there is always one more block around, and the error names the block and the number
of all blocks. Without a circle names are resolved at every block, and in our own workspace they
are. -/
theorem run_names_error_iff (commands : List Command)
    (next? previous? owner? enclosing? : NodeId → Option NodeId) (vocabulary : Vocabulary)
    (registered : List (Category × String))
    (hWithin : ∀ node ∈ (run commands).nodes, ∀ holder, enclosing? node = some holder →
      holder ∈ (run commands).nodes) :
    let host : View := { (run commands).view with next?, previous?, owner?, enclosing? }
    let scope := Scope.ofView host vocabulary registered
    (∀ node ∈ (run commands).nodes, ∀ category error,
      scope.names node category = .error error ↔
        error = .enclosureCycle node (run commands).size ∧ host.EnclosedForEver node) ∧
      ((∀ turn ∈ (run commands).nodes, ¬ TransGen host.EnclosedBy turn turn) →
        ∀ node ∈ (run commands).nodes, ∀ category,
          ∃ bindings, scope.names node category = .ok bindings) ∧
      ∀ node ∈ (run commands).nodes, ∀ category, ∃ bindings,
        (Scope.ofView (run commands).view vocabulary registered).names node category =
          .ok bindings := by
  intro host scope
  have hForest := Forest.run commands
  have hSize : host.size = (run commands).size := size_view
  refine ⟨fun node hNode category error => ?_, fun hAcyclic node hNode category => ?_,
    fun node hNode category => ?_⟩
  · rw [← hSize]
    exact Scope.names_eq_error_iff_enclosedForEver hWithin hNode
  · exact Scope.exists_names_of_acyclic hWithin hNode hAcyclic
  · exact Scope.exists_names_of_acyclic hForest.enclosedWithin_view hNode
      fun turn _ => hForest.acyclic_enclosedBy turn

/-- A condition between two loops. Nothing is attached. -/
def threeBlocks : List Command :=
  [.edit (.create BlockKind.repeatWhile.tag), .edit (.create BlockKind.ifElse.tag),
    .edit (.create BlockKind.repeatWhile.tag)]

/-- The host says that the first loop and the condition stand around each other, and that the
condition stands around the other loop too. -/
theorem threeBlocks_names :
    let enclosing? : NodeId → Option NodeId := fun node => if node = 1 then some 0 else some 1
    let host : View := { (run threeBlocks).view with enclosing? }
    let scope := Scope.ofView host .canonical []
    (∀ node ∈ (run threeBlocks).nodes, ∀ holder, enclosing? node = some holder →
        holder ∈ (run threeBlocks).nodes) ∧
      scope.names 2 .number = .error (.enclosureCycle 2 3) ∧
      ∃ bindings, (Scope.ofView (run threeBlocks).view .canonical []).names 2 .number =
        .ok bindings := by
  intro enclosing? host scope
  have hWithin : host.EnclosedWithin := by
    intro node _ holder hHolder
    change enclosing? node = some holder at hHolder
    dsimp only [enclosing?] at hHolder
    split at hHolder
    · cases hHolder
      decide
    · cases hHolder
      decide
  have hNode : 2 ∈ host.nodes := by decide
  have hTurn : TransGen host.EnclosedBy 1 1 :=
    .tail (.single (show host.EnclosedBy 1 0 from rfl)) rfl
  have hCircle : EntersCircle host.EnclosedBy 2 := ⟨1, .single rfl, hTurn⟩
  have hForEver : host.EnclosedForEver 2 := (hWithin.enclosedForEver_iff hNode).mpr hCircle
  obtain ⟨hErrors, -, hOwn⟩ := run_names_error_iff threeBlocks host.next? host.previous?
    host.owner? enclosing? .canonical [] hWithin
  exact ⟨hWithin, (hErrors 2 hNode .number _).mpr ⟨rfl, hForEver⟩, hOwn 2 hNode .number⟩

end Workspace

end RuleBlocks
