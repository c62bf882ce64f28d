import RuleBlocks.Proofs.Blueprint.Blame
import RuleBlocks.Proofs.Blueprint.Insert
import RuleBlocks.Proofs.Blueprint.Program

/-!
# Drawing in the graph of a host

A host may refuse calls for changes. Whatever is drawn in its graph, the drawing stops with the
first refused call and reports it (`drawings_stopAtOnce`). This holds of everything that is drawn by
carrying out a plan whose steps blame only blocks that the plan has made
(`Drawing.CarriesOut.stopsAtOnce`).
-/

namespace RuleBlocks

open EditableGraph HostGraph Blueprint

/-! ## Plans in the graph of a host -/

theorem madeTags_map (steps : List Step) :
    madeTags (steps.map fun step => ⟨step.edit, .ok ()⟩) = madeBy steps := by
  rw [madeTags, List.filterMap_map]
  rfl

namespace HostGraph

variable {Graph : Type} [HostGraph Graph] {graph changed : Graph} {steps : List Step}
variable {error : BuildError}

/-- A plan that is carried out makes its blocks, and no other ones. -/
theorem size_of_carryOut (h : carryOut graph steps = (changed, .ok ())) :
    (kept changed).size = (kept graph).size + (madeBy steps).length := by
  have hTags := congrArg List.length (tags_carryOut graph steps)
  rwa [h, calls_of_ok h, madeTags_map, List.length_append, Workspace.length_tags,
    Workspace.length_tags] at hTags

/-- The step that is refused makes no block, so just the steps before it have made blocks. -/
theorem exists_refused (h : carryOut graph steps = (changed, .error error)) :
    ∃ done step rest, steps = done ++ step :: rest ∧ step.edit.madeTag? = none ∧
      madeTags (calls graph steps) = madeBy done ∧ error.node = step.blame.node ∧
      error.tag = (step.blame.kind?.map BlockKind.tag).getD
        ((view changed).shownTag step.blame.node) := by
  obtain ⟨done, step, rest, hSteps, hCalls, hBlame⟩ := exists_calls_of_error h
  have hLast : (⟨step.edit, .error error.cause⟩ : Call) ∈ calls graph steps := by
    rw [hCalls]
    exact List.mem_append_right _ List.mem_cons_self
  have hRefused : step.edit.madeTag? = none := madeTag?_of_refused hLast rfl
  refine ⟨done, step, rest, hSteps, hRefused, ?_, hBlame⟩
  rw [hCalls]
  simp [madeTags, madeBy, hRefused, List.filterMap_map]

/-- The blocks that were made are numbered from the former size on. -/
theorem tag?_of_made {index : Nat} {tag : String}
    (h : (madeTags (calls graph steps))[index]? = some tag) :
    (kept (carryOut graph steps).1).view.tag? ((kept graph).size + index) = some tag := by
  rw [← Workspace.getElem?_tags, tags_carryOut, ← Workspace.length_tags,
    List.getElem?_append_right (Nat.le_add_right _ _), Nat.add_sub_cancel_left, h]

/-- What is reported for a refused step is a block that was made, with its tag if it can be read. -/
theorem exists_tag_of_error (hBlame : BlamesMade (kept graph).size [] steps)
    (h : carryOut graph steps = (changed, .error error)) :
    ∃ index tag, error.node = (kept graph).size + index ∧
      (madeTags (calls graph steps))[index]? = some tag ∧
      ((view changed).tag? error.node ≠ none → error.tag = tag) := by
  obtain ⟨done, step, rest, hSteps, hRefused, hMade, hNode, hTag⟩ := exists_refused h
  rw [hSteps] at hBlame
  obtain ⟨index, tag, hIndex, hFound, hKind⟩ := (blamesMade_append.mp hBlame).2.1 hRefused
  rw [List.nil_append, ← hMade] at hFound
  rw [← hNode] at hIndex hTag
  refine ⟨index, tag, hIndex, hFound, fun hReadable => ?_⟩
  obtain ⟨shown, hShown⟩ := Option.ne_none_iff_exists'.mp hReadable
  have hSame : shown = tag := by
    have hKept := tag?_of_made hFound
    rw [h, ← hIndex, tag?_view changed hShown] at hKept
    exact Option.some.inj hKept
  rw [hTag, View.shownTag, hShown, hSame]
  cases hNamed : step.blame.kind? with
  | none => rfl
  | some kind => exact hKind kind hNamed

end HostGraph

/-! ## Drawings -/

/-- A way to draw something in whatever graph. -/
abbrev Drawing (α : Type) : Type 1 :=
  (Graph : Type) → [EditableGraph Graph] → Graph → Graph × Except BuildError α

namespace Drawing

variable {α Graph : Type}

/-- The calls that a graph gets while something is drawn in it. -/
def calls [EditableGraph Graph] (draw : Drawing α) (graph : Graph) : List Call :=
  (draw _ (Recorded.start graph)).1.calls

/-- Something is drawn up to the first call that the graph refuses. -/
structure StopsAtOnce [HostGraph Graph] (draw : Drawing α) (graph : Graph) : Prop where
  /-- Nothing changes for a graph if its calls are recorded. -/
  recorded : draw Graph graph =
    ((draw _ (Recorded.start graph)).1.graph, (draw _ (Recorded.start graph)).2)
  /-- The blocks that are made come after the old ones, in the order of the calls. -/
  made : (kept (draw Graph graph).1).tags = (kept graph).tags ++ madeTags (draw.calls graph)
  /-- The drawing succeeds just if every call does. -/
  ok_iff : (∃ answer, (draw Graph graph).2 = .ok answer) ↔
    ∀ call ∈ draw.calls graph, call.answer = .ok ()
  /-- The calls are the first ones of those that the workspace gets if the same is drawn in it. -/
  first : (draw.calls graph).map Call.change <+: (draw.calls (kept graph)).map Call.change
  /-- The error is that of the last call, and all calls before it succeeded. -/
  last : ∀ error, (draw Graph graph).2 = .error error →
    ∃ done change, draw.calls graph = done ++ [⟨change, .error error.cause⟩] ∧
      ∀ call ∈ done, call.answer = .ok ()
  /-- The reported block is one of those that were made. If its tag can be read, then the reported
  tag is the one with which it was made. -/
  blame : ∀ error, (draw Graph graph).2 = .error error →
    ∃ index tag, error.node = (kept graph).size + index ∧
      (madeTags (draw.calls graph))[index]? = some tag ∧
      ((view (draw Graph graph).1).tag? error.node ≠ none → error.tag = tag)

/-- Something is drawn by carrying out a plan that depends only on how many blocks there are. -/
def CarriesOut (draw : Drawing α) (plan : Nat → List Step) (answer : Nat → α) : Prop :=
  ∀ (Graph : Type) [HostGraph Graph] (graph : Graph),
    draw Graph graph = ((carryOut graph (plan (kept graph).size)).1,
      (carryOut graph (plan (kept graph).size)).2.map fun _ => answer (kept graph).size)

namespace CarriesOut

variable [HostGraph Graph] {draw : Drawing α} {plan : Nat → List Step} {answer : Nat → α}
variable (hDraw : draw.CarriesOut plan answer)

include hDraw

theorem draw_recorded (graph : Graph) :
    draw _ (Recorded.start graph) =
      (⟨(draw Graph graph).1, EditableGraph.calls graph (plan (kept graph).size)⟩,
        (draw Graph graph).2) := by
  have hRecorded := carryOut_recorded graph [] (plan (kept graph).size)
  rw [List.nil_append] at hRecorded
  rw [hDraw _ graph]
  exact (hDraw _ (Recorded.start graph)).trans (congrArg (fun outcome =>
    (outcome.1, outcome.2.map fun _ => answer (kept graph).size)) hRecorded)

theorem calls_eq (graph : Graph) :
    draw.calls graph = EditableGraph.calls graph (plan (kept graph).size) := by
  rw [calls, hDraw.draw_recorded graph]

end CarriesOut

/-- **A drawing stops with the first refused call.** This holds if its steps blame only blocks that
were made by then. -/
theorem CarriesOut.stopsAtOnce [HostGraph Graph] {draw : Drawing α} {plan : Nat → List Step}
    {answer : Nat → α} (hDraw : draw.CarriesOut plan answer)
    (hBlame : ∀ start, BlamesMade start [] (plan start)) (graph : Graph) :
    draw.StopsAtOnce graph := by
  have hCalls := hDraw.calls_eq graph
  have hCallsKept := hDraw.calls_eq (kept graph)
  have hOutcome := hDraw _ graph
  have hPlan := hBlame (kept graph).size
  have hFailed {error : BuildError} (hError : (draw Graph graph).2 = .error error) :
      carryOut graph (plan (kept graph).size) = ((draw Graph graph).1, .error error) := by
    rw [hOutcome] at hError ⊢
    cases hCarryOut : carryOut graph (plan (kept graph).size) with
    | mk changed result =>
      rw [hCarryOut] at hError
      cases result with
      | ok _ => cases hError
      | error _ =>
        cases hError
        rfl
  constructor
  case recorded => rw [hDraw.draw_recorded]
  case made =>
    rw [hCalls, hOutcome]
    exact tags_carryOut graph _
  case ok_iff =>
    rw [hCalls, ← carryOut_ok_iff, hOutcome]
    cases (carryOut graph (plan (kept graph).size)).2 with
    | ok _ => exact iff_of_true ⟨_, rfl⟩ rfl
    | error _ => exact iff_of_false (fun ⟨_, hOk⟩ => nomatch hOk) nofun
  case first =>
    rw [hCalls, hCallsKept]
    exact calls_prefix graph _
  case last =>
    intro error hError
    obtain ⟨done, step, -, -, hLast, -⟩ := exists_calls_of_error (hFailed hError)
    refine ⟨_, step.edit, hCalls.trans hLast, fun call hCall => ?_⟩
    obtain ⟨_, -, rfl⟩ := List.mem_map.mp hCall
    rfl
  case blame =>
    intro error hError
    rw [hCalls]
    exact exists_tag_of_error hPlan (hFailed hError)

/-! ## What is drawn -/

theorem carriesOut_insertChain (place : Place) (chain : List Blueprint) :
    CarriesOut (fun _ _ graph => insertChain graph place chain)
      (fun free => chainSteps place.link? free chain)
      fun free => (chainNodes free chain).getLast? := by
  intro Graph _ graph
  show insertChain graph place chain = _
  rw [insertChain, size_view]

theorem carriesOut_insertBlock (blueprint : Blueprint) :
    CarriesOut (fun _ _ graph => insertBlock graph blueprint) (fun free => blueprint.steps free)
      fun free => free := by
  intro Graph _ graph
  show insertBlock graph blueprint = _
  rw [insertBlock, size_view]

end Drawing

namespace Blueprint

/-- The steps that make chains which are attached to nothing, one after the other. -/
def chainsSteps (free : Nat) : List (List Blueprint) → List Step
  | [] => []
  | chain :: chains => chainSteps none free chain ++ chainsSteps (free + chainSize chain) chains

theorem blamesMade_chainsSteps {start : Nat} (free : Nat) (made : List String)
    (hFree : start + made.length = free) (chains : List (List Blueprint)) :
    BlamesMade start made (chainsSteps free chains) := by
  induction chains generalizing free made with
  | nil => trivial
  | cons chain chains ih =>
    rw [chainsSteps]
    refine blamesMade_append.mpr ⟨blamesMade_chainSteps none free made hFree chain, ih _ _ ?_⟩
    rw [List.length_append, length_madeBy_chainSteps, ← Nat.add_assoc, hFree]

end Blueprint

namespace Drawing

theorem insertChains_eq_carryOut {Graph : Type} [HostGraph Graph] (graph : Graph)
    (chains : List (List Blueprint)) :
    insertChains graph chains =
      ((carryOut graph (chainsSteps (kept graph).size chains)).1,
        (carryOut graph (chainsSteps (kept graph).size chains)).2.map fun _ =>
          chainHeads (kept graph).size chains) := by
  induction chains generalizing graph with
  | nil => rfl
  | cons chain chains ih =>
    have hFirst : insertChain graph .detached chain = _ :=
      carriesOut_insertChain .detached chain Graph graph
    rw [insertChains, hFirst, chainsSteps, Place.link?]
    dsimp only
    cases hCarryOut : carryOut graph (chainSteps none (kept graph).size chain) with
    | mk changed result =>
      cases result with
      | error error =>
        rw [carryOut_append_error hCarryOut]
        rfl
      | ok _ =>
        have hSize := size_of_carryOut hCarryOut
        rw [length_madeBy_chainSteps] at hSize
        rw [carryOut_append_ok hCarryOut]
        dsimp only [Except.map]
        rw [ih, hSize, size_view, chainHeads]
        cases (carryOut changed
          (chainsSteps ((kept graph).size + chainSize chain) chains)).2 <;> rfl

theorem carriesOut_insertChains (chains : List (List Blueprint)) :
    CarriesOut (fun _ _ graph => insertChains graph chains) (fun free => chainsSteps free chains)
      fun free => chainHeads free chains :=
  fun _ _ graph => insertChains_eq_carryOut graph chains

end Drawing

/-- **Drawings stop with the first refused call.** In the graph of any host, whatever blocks it has
already and whatever calls it refuses: a statement that is drawn at whatever place, an expression,
and phases. -/
theorem drawings_stopAtOnce {Graph : Type} [HostGraph Graph] (graph : Graph) :
    (∀ (statement : Statement) (place : Place),
        Drawing.StopsAtOnce (fun _ _ graph => insertChain graph place statement.blueprints) graph) ∧
      (∀ expression : Expression,
        Drawing.StopsAtOnce (fun _ _ graph => insertBlock graph expression.blueprint) graph) ∧
      ∀ phases : Phases,
        Drawing.StopsAtOnce (fun _ _ graph => insertChains graph phases.blueprints) graph := by
  refine ⟨fun statement place => ?_, fun expression => ?_, fun phases => ?_⟩
  · exact (Drawing.carriesOut_insertChain place _).stopsAtOnce
      (fun start => blamesMade_chainSteps _ start [] rfl _) graph
  · exact (Drawing.carriesOut_insertBlock _).stopsAtOnce
      (fun start => blamesMade_steps start [] rfl _) graph
  · exact (Drawing.carriesOut_insertChains _).stopsAtOnce
      (fun start => blamesMade_chainsSteps start [] rfl _) graph

-- the second text is refused, so the second phase is reported and never attached to the first
example :
    let host := Host.ofRules { HostRules.plain with refused := [(.setField, 2)] }
    let phases : Statement := .block [.enterPhase "draw", .enterPhase "play"]
    (insertChain host .detached phases.blueprints).2 =
      .error ⟨BlockKind.enterPhase.tag, 1, .unknownNode 1⟩ := by decide

end RuleBlocks
