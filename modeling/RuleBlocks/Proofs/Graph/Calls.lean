import RuleBlocks.Proofs.Graph.Host

/-!
# The calls of a plan

Which calls a graph gets while a plan is carried out, and how it answers them (`calls`). A graph
that records its calls records just these (`carryOut_recorded`). All calls succeed, or just the last
one is refused (`calls_of_ok`, `exists_calls_of_error`). A graph of a host gets the first ones of
the calls that its workspace would get (`calls_prefix`), and the blocks made by them come after the
old ones (`tags_carryOut`).
-/

namespace RuleBlocks

/-- A call for a change, and how it was answered. -/
structure Call where
  change : Edit
  answer : Except GraphError Unit

/-- The tags of the blocks that were made, in the order in which they were made. Calls for new
blocks are never refused. -/
def madeTags (calls : List Call) : List String := calls.filterMap fun call => call.change.madeTag?

/-- A graph that records the calls it gets. -/
structure Recorded (Graph : Type) where
  graph : Graph
  calls : List Call

namespace Recorded

variable {Graph : Type}

def start (graph : Graph) : Recorded Graph := ⟨graph, []⟩

instance [EditableGraph Graph] : EditableGraph (Recorded Graph) where
  view recorded := EditableGraph.view recorded.graph
  edit recorded change :=
    let (changed, answer) := EditableGraph.edit recorded.graph change
    (⟨changed, recorded.calls ++ [⟨change, answer⟩]⟩, answer)

instance [HostGraph Graph] : HostGraph (Recorded Graph) where
  kept recorded := HostGraph.kept recorded.graph
  nodes_view recorded := HostGraph.nodes_view recorded.graph
  tag?_view recorded _ _ h := HostGraph.tag?_view recorded.graph h
  kept_edit recorded := HostGraph.kept_edit recorded.graph

end Recorded

namespace EditableGraph

variable {Graph : Type} [EditableGraph Graph] {graph changed : Graph} {steps : List Step}

/-- The calls by which steps are carried out. -/
def calls (graph : Graph) : List Step → List Call
  | [] => []
  | step :: steps =>
    match edit graph step.edit with
    | (changed, .ok ()) => ⟨step.edit, .ok ()⟩ :: calls changed steps
    | (_, .error cause) => [⟨step.edit, .error cause⟩]

/-- A graph that records its calls is changed as the graph itself. -/
theorem carryOut_recorded (graph : Graph) (before : List Call) (steps : List Step) :
    carryOut (⟨graph, before⟩ : Recorded Graph) steps =
      (⟨(carryOut graph steps).1, before ++ calls graph steps⟩, (carryOut graph steps).2) := by
  induction steps generalizing graph before with
  | nil => rw [calls, List.append_nil]; rfl
  | cons step steps ih =>
    have hEdit : edit (⟨graph, before⟩ : Recorded Graph) step.edit =
        (⟨(edit graph step.edit).1, before ++ [⟨step.edit, (edit graph step.edit).2⟩]⟩,
          (edit graph step.edit).2) := rfl
    rw [carryOut, carryOut, calls, hEdit]
    cases edit graph step.edit with
    | mk changed answer =>
      cases answer with
      | ok _ =>
        dsimp only
        rw [ih, List.append_assoc]
        rfl
      | error cause => rfl

/-- If a plan is carried out, every call succeeds. -/
theorem calls_of_ok (h : carryOut graph steps = (changed, .ok ())) :
    calls graph steps = steps.map fun step => ⟨step.edit, .ok ()⟩ := by
  induction steps generalizing graph with
  | nil => rfl
  | cons step steps ih =>
    rw [carryOut] at h
    rw [calls]
    cases hEdit : edit graph step.edit with
    | mk next answer =>
      rw [hEdit] at h
      cases answer with
      | ok _ => exact congrArg (_ :: ·) (ih h)
      | error _ => cases h

/-- If a plan is not carried out, then just the last call is refused: the one for the step that is
reported. -/
theorem exists_calls_of_error {error : BuildError}
    (h : carryOut graph steps = (changed, .error error)) :
    ∃ done step rest, steps = done ++ step :: rest ∧
      calls graph steps =
        (done.map fun step => ⟨step.edit, .ok ()⟩) ++ [⟨step.edit, .error error.cause⟩] ∧
      error.node = step.blame.node ∧
      error.tag = (step.blame.kind?.map BlockKind.tag).getD
        ((view changed).shownTag step.blame.node) := by
  induction steps generalizing graph with
  | nil => cases h
  | cons step steps ih =>
    rw [carryOut] at h
    rw [calls]
    cases hEdit : edit graph step.edit with
    | mk next answer =>
      rw [hEdit] at h
      cases answer with
      | ok _ =>
        obtain ⟨done, refused, rest, hSteps, hCalls, hBlame⟩ := ih h
        refine ⟨step :: done, refused, rest, ?_, ?_, hBlame⟩
        · rw [hSteps, List.cons_append]
        · exact congrArg (_ :: ·) hCalls
      | error cause =>
        cases h
        refine ⟨[], step, steps, rfl, rfl, rfl, ?_⟩
        cases step.blame.kind? <;> rfl

/-- A plan is carried out just if every call succeeds. -/
theorem carryOut_ok_iff :
    (carryOut graph steps).2 = .ok () ↔ ∀ call ∈ calls graph steps, call.answer = .ok () := by
  cases hCarryOut : carryOut graph steps with
  | mk changed result =>
    cases result with
    | ok _ =>
      rw [calls_of_ok hCarryOut]
      refine iff_of_true rfl fun call hCall => ?_
      obtain ⟨_, -, rfl⟩ := List.mem_map.mp hCall
      rfl
    | error error =>
      obtain ⟨_, step, -, -, hCalls, -⟩ := exists_calls_of_error hCarryOut
      refine iff_of_false nofun fun hAll => ?_
      have hLast := hAll ⟨step.edit, .error error.cause⟩ (by
        rw [hCalls]
        exact List.mem_append_right _ List.mem_cons_self)
      cases hLast

end EditableGraph

namespace HostGraph

open EditableGraph

variable {Graph : Type} [HostGraph Graph] {graph changed : Graph} {steps : List Step}

/-- Calls for new blocks are not refused. -/
theorem madeTag?_of_refused {call : Call} {cause : GraphError} (hCall : call ∈ calls graph steps)
    (hRefused : call.answer = .error cause) : call.change.madeTag? = none := by
  induction steps generalizing graph with
  | nil => cases hCall
  | cons step steps ih =>
    rw [calls] at hCall
    cases hEdit : edit graph step.edit with
    | mk next answer =>
      rw [hEdit] at hCall
      cases answer with
      | ok _ =>
        rcases List.mem_cons.mp hCall with rfl | hMore
        · cases hRefused
        · exact ih hMore
      | error _ =>
        obtain rfl := List.mem_singleton.mp hCall
        exact (kept_of_error hEdit).2

/-- Blocks keep their tags, and the new blocks come after the old ones. -/
theorem tags_carryOut (graph : Graph) (steps : List Step) :
    (kept (carryOut graph steps).1).tags =
      (kept graph).tags ++ madeTags (calls graph steps) := by
  induction steps generalizing graph with
  | nil => exact (List.append_nil _).symm
  | cons step steps ih =>
    rw [carryOut, calls]
    cases hEdit : edit graph step.edit with
    | mk next answer =>
      cases answer with
      | ok _ =>
        dsimp only
        rw [ih, Workspace.tags_edit (edit_kept_of_ok hEdit), List.append_assoc]
        cases hMade : step.edit.madeTag? <;> simp [madeTags, hMade]
      | error cause =>
        obtain ⟨hKept, hMade⟩ := kept_of_error hEdit
        simp [madeTags, hKept, hMade]

/-- **A host gets the first calls that its workspace would get.** -/
theorem calls_prefix (graph : Graph) (steps : List Step) :
    (calls graph steps).map Call.change <+: (calls (kept graph) steps).map Call.change := by
  induction steps generalizing graph with
  | nil => exact List.prefix_rfl
  | cons step steps ih =>
    rw [calls, calls]
    cases hEdit : edit graph step.edit with
    | mk next answer =>
      cases answer with
      | ok _ =>
        have hKept : edit (kept graph) step.edit = (kept next, .ok ()) := edit_kept_of_ok hEdit
        rw [hKept]
        exact (List.prefix_cons_inj step.edit).mpr (ih next)
      | error cause =>
        -- the host goes no further, whatever its workspace would have answered
        cases edit (kept graph) step.edit with
        | mk other answer =>
          cases answer with
          | ok _ => exact (List.prefix_cons_inj step.edit).mpr List.nil_prefix
          | error _ => exact List.prefix_rfl

end HostGraph

end RuleBlocks
