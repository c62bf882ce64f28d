import RuleBlocks.Proofs.Circle
import RuleBlocks.Proofs.Reading.Closed
import RuleBlocks.Proofs.Workspace.Run

/-!
# When a reading comes to an end

A statement leads into the statements in its inputs and in the inputs of its cases (`LeadsInto`).
No chain is followed without bound, so reading can go on for ever in one way only: the statements
lead one into the other round in a circle (`RunsInCircle`). In our own workspaces they never do, but
the graph of a host may answer that the block after the last one in a loop is the loop itself.

Reading a statement down to a depth comes to its end just if one cannot go on for as many steps
(`finished_statement_iff`). One that goes on for more steps than there are blocks comes back to a
block, so the depth to which statements are followed decides the question
(`Workspace.run_finished_iff`).
-/

namespace RuleBlocks

/-- The inputs in which a statement of a kind holds statements. An offer holds none itself; its
cases do. -/
def BlockKind.bodies : BlockKind → List String
  | .ifElse => [Input.goTrue, Input.goFalse]
  | .repeatWhile => [Input.body]
  | _ => []

def BlockKind.IsOffer (kind : BlockKind) : Prop := kind = .offer ∨ kind = .unnamedOffer

/-- Every block with a tag is listed. -/
def View.Complete (view : View) : Prop :=
  ∀ {node}, (view.tag? node).isSome = true → node ∈ view.nodes

namespace Reader

open Reading Relation

variable {reader : Reader} {spot : Spot} {kind : BlockKind} {path : List PathSegment}
variable {first : Option NodeId} {outer inner node : NodeId} {α : Type}

/-! ## Parts without statements -/

theorem finished_closed (reader : Reader) :
    reader.Closed fun _ _ reading => reading.finished = true where
  pure _ _ := rfl
  fail _ _ := rfl
  mapSome f hReading := (finished_mapSome f _).trans hReading
  andThen := finished_andThen
  and hFunction hReading := by rw [finished_and, hFunction, hReading, Bool.and_self]
  checked _ _ _ := by rw [finished_bind, finished_checkReference, finished_pure, Bool.and_self]
  socket _ _ hReading := hReading

/-! ## Parts with statements -/

theorem finished_members_iff {role : BlockRole} {read : Spot → BlockKind → Reading (Option α)} :
    (reader.members path first role read).finished = true ↔
      ∀ member ∈ reader.chain first, ∀ kind,
        reader.view.kind? reader.vocabulary member = some kind → kind.role = role →
          (read ⟨member, path⟩ kind).finished = true := by
  rw [members_eq, finished_collect_iff]
  refine forall₂_congr fun node _ => ?_
  unfold member
  cases hKind : reader.view.kind? reader.vocabulary node with
  | none =>
    rw [kind_eq_fail hKind, fail_andThen]
    simp
  | some kind =>
    rw [kind_eq_pure hKind, pure_andThen]
    by_cases hRole : kind.role = role <;> simp [hRole]

theorem finished_chainStatement_iff {read : Spot → Reading (Option Statement)} :
    (reader.chainStatement read path first).finished = true ↔
      ∀ member ∈ reader.chain first, (read ⟨member, path⟩).finished = true := by
  rw [chainStatement, finished_bind, finished_pure, Bool.and_true, finished_collect_iff]

/-- A statement leads into those in its inputs and in the inputs of its cases. -/
inductive LeadsInto (reader : Reader) (outer inner : NodeId) : Prop
  | body {kind : BlockKind} {input : String} :
      reader.view.kind? reader.vocabulary outer = some kind → input ∈ kind.bodies →
      inner ∈ reader.chain (reader.view.input? outer input) → LeadsInto reader outer inner
  | offerCase {kind caseKind : BlockKind} {offerCase : NodeId} :
      reader.view.kind? reader.vocabulary outer = some kind → kind.IsOffer →
      offerCase ∈ reader.chain (reader.view.input? outer Input.cases) →
      reader.view.kind? reader.vocabulary offerCase = some caseKind → caseKind.role = .offerCase →
      inner ∈ reader.chain (reader.view.input? offerCase Input.actions) →
      LeadsInto reader outer inner

theorem LeadsInto.isSome_tag? (h : reader.LeadsInto outer inner) :
    (reader.view.tag? outer).isSome = true := by
  have hTag {kind : BlockKind} (hKind : reader.view.kind? reader.vocabulary outer = some kind) :
      (reader.view.tag? outer).isSome = true := by
    obtain ⟨tag, hTag, -⟩ := Option.bind_eq_some_iff.mp hKind
    rw [hTag, Option.isSome_some]
  cases h with
  | body hKind => exact hTag hKind
  | offerCase hKind => exact hTag hKind

/-- All statements into which a block leads, by the inputs that hold them. -/
theorem forall_leadsInto_iff {P : NodeId → Prop}
    (hKind : reader.view.kind? reader.vocabulary outer = some kind) :
    (∀ inner, reader.LeadsInto outer inner → P inner) ↔
      (∀ input ∈ kind.bodies, ∀ inner ∈ reader.chain (reader.view.input? outer input), P inner) ∧
        (kind.IsOffer → ∀ offerCase ∈ reader.chain (reader.view.input? outer Input.cases),
          ∀ caseKind, reader.view.kind? reader.vocabulary offerCase = some caseKind →
            caseKind.role = .offerCase →
              ∀ inner ∈ reader.chain (reader.view.input? offerCase Input.actions), P inner) := by
  constructor
  · intro h
    refine ⟨fun input hInput inner hInner => h inner (.body hKind hInput hInner), ?_⟩
    intro hOffer offerCase hCase caseKind hCaseKind hRole inner hInner
    exact h inner (.offerCase hKind hOffer hCase hCaseKind hRole hInner)
  · rintro ⟨hBodies, hCases⟩ inner hLeads
    cases hLeads with
    | body hOuter hInput hInner =>
      cases hKind.symm.trans hOuter
      exact hBodies _ hInput inner hInner
    | offerCase hOuter hOffer hCase hCaseKind hRole hInner =>
      cases hKind.symm.trans hOuter
      exact hCases hOffer _ hCase _ hCaseKind hRole inner hInner

/-- Of the parts of a statement only those that hold statements may have no end. -/
theorem finished_statementOf_iff_parts {read : Spot → Reading (Option Statement)} :
    (reader.statementOf read spot kind).finished = true ↔
      (∀ input ∈ kind.bodies, (reader.body read spot input).finished = true) ∧
        (kind.IsOffer → (reader.offer read spot kind).finished = true) := by
  have hEnds := reader.finished_closed
  have hCondition : (reader.boolean spot Input.condition).finished = true :=
    hEnds.boolean (by decide)
  cases kind
  case ifElse => simp [statementOf, BlockKind.bodies, BlockKind.IsOffer, hCondition]
  case repeatWhile => simp [statementOf, BlockKind.bodies, BlockKind.IsOffer, hCondition]
  case offer | unnamedOffer => simp [statementOf, BlockKind.bodies, BlockKind.IsOffer]
  all_goals
    exact iff_of_true (hEnds.statementOf rfl) (by simp [BlockKind.bodies, BlockKind.IsOffer])

section

variable {read : Spot → Reading (Option Statement)} {P : NodeId → Prop}

-- whether a statement inside comes to its end depends on its block alone, not on the way to it
variable (hRead : ∀ inner : Spot, (read inner).finished = true ↔ P inner.node)

include hRead

theorem finished_body_iff {input : String} :
    (reader.body read spot input).finished = true ↔
      ∀ inner ∈ reader.chain (reader.view.input? spot.node input), P inner := by
  rw [body, finished_chainStatement_iff]
  exact forall₂_congr fun member _ => hRead ⟨member, _⟩

theorem finished_offerCase_iff :
    (reader.offerCase read spot kind).finished = true ↔
      ∀ inner ∈ reader.chain (reader.view.input? spot.node Input.actions), P inner := by
  have hChoices : (reader.members (spot.within Input.offers)
      (reader.view.input? spot.node Input.offers) .offerChoice
      reader.offerChoice).finished = true :=
    finished_members_iff.mpr fun _ _ _ _ _ => reader.finished_closed.offerChoice
  have hCondition : (reader.caseCondition spot kind).finished = true :=
    reader.finished_closed.caseCondition
  rw [← finished_body_iff hRead, offerCase]
  simp [hCondition, hChoices]

theorem finished_offer_iff :
    (reader.offer read spot kind).finished = true ↔
      ∀ offerCase ∈ reader.chain (reader.view.input? spot.node Input.cases), ∀ kind,
        reader.view.kind? reader.vocabulary offerCase = some kind → kind.role = .offerCase →
          ∀ inner ∈ reader.chain (reader.view.input? offerCase Input.actions), P inner := by
  have hOffer : (reader.offer read spot kind).finished =
      (reader.members (spot.within Input.cases) (reader.view.input? spot.node Input.cases)
        .offerCase (reader.offerCase read)).finished := by
    have hPlayer : (reader.offerPlayer spot kind).finished = true :=
      reader.finished_closed.offerPlayer
    have hOfferTo : (reader.playerCollection spot Input.offerTo).finished = true :=
      reader.finished_closed.playerCollection (by decide)
    simp [offer, hPlayer, hOfferTo]
  rw [hOffer, finished_members_iff]
  simp only [finished_offerCase_iff hRead]

/-- A statement comes to its end just if those do into which it leads. -/
theorem finished_statementOf_iff
    (hKind : reader.view.kind? reader.vocabulary spot.node = some kind) :
    (reader.statementOf read spot kind).finished = true ↔
      ∀ inner, reader.LeadsInto spot.node inner → P inner := by
  rw [finished_statementOf_iff_parts, forall_leadsInto_iff hKind]
  simp only [finished_body_iff hRead, finished_offer_iff hRead]

end

/-! ## Going on -/

/-- From a block statements lead one into the next for a number of steps. -/
def GoesOn (reader : Reader) (steps : Nat) (node : NodeId) : Prop :=
  ∃ way : List NodeId, way.length = steps ∧ (node :: way).IsChain reader.LeadsInto

theorem goesOn_zero (node : NodeId) : reader.GoesOn 0 node := canStep_zero node

theorem goesOn_succ_iff {steps : Nat} :
    reader.GoesOn (steps + 1) node ↔
      ∃ inner, reader.LeadsInto node inner ∧ reader.GoesOn steps inner := canStep_succ_iff

/-- **A statement is read to its end just if one cannot go on from it as deep as it is
followed.** -/
theorem finished_statement_iff {depth : Nat} :
    (reader.statement depth spot).finished = true ↔ ¬ reader.GoesOn depth spot.node := by
  induction depth generalizing spot with
  | zero => exact iff_of_false Bool.false_ne_true (not_not_intro (goesOn_zero _))
  | succ depth ih =>
    rw [statement, goesOn_succ_iff]
    cases hKind : reader.view.kind? reader.vocabulary spot.node with
    | none =>
      have hStuck : ¬ ∃ inner, reader.LeadsInto spot.node inner ∧ reader.GoesOn depth inner := by
        rintro ⟨inner, hKind' | hKind', -⟩ <;> simp [hKind] at hKind'
      rw [kind_eq_fail hKind, fail_andThen]
      exact iff_of_true (finished_fail _) hStuck
    | some kind =>
      have hInner := finished_statementOf_iff (P := fun inner => ¬ reader.GoesOn depth inner)
        (fun _ => ih) hKind
      rw [kind_eq_pure hKind, pure_andThen, hInner]
      simp only [not_exists, not_and]

/-! ## Circles -/

/-- From a block statements lead one into the other into a circle. -/
def RunsInCircle (reader : Reader) (node : NodeId) : Prop :=
  ∃ turn, ReflTransGen reader.LeadsInto node turn ∧ TransGen reader.LeadsInto turn turn

theorem RunsInCircle.goesOn (h : reader.RunsInCircle node) (steps : Nat) :
    reader.GoesOn steps node := EntersCircle.canStep h steps

/-- Going on for more steps than there are blocks leads into a circle. -/
theorem goesOn_depthLimit_iff (hComplete : reader.view.Complete) :
    reader.GoesOn reader.depthLimit node ↔ reader.RunsInCircle node :=
  canStep_iff_entersCircle fun _ _ _ hStep => hComplete hStep.isSome_tag?

/-- A bound falls from every block to the members of the chains in its inputs. -/
def Falls (reader : Reader) (bound : NodeId → Nat) : Prop :=
  ∀ node input, ∀ member ∈ reader.chain (reader.view.input? node input), bound member < bound node

theorem not_runsInCircle_of_falls {bound : NodeId → Nat} (hFalls : reader.Falls bound) :
    ¬ reader.RunsInCircle node := by
  apply not_entersCircle_of_falls bound
  intro outer inner hStep
  cases hStep with
  | body _ _ hInner => exact hFalls _ _ _ hInner
  | offerCase _ _ hCase _ _ hInner =>
    exact Nat.lt_trans (hFalls _ _ _ hInner) (hFalls _ _ _ hCase)

/-! ## What can be read -/

section

variable (hComplete : reader.view.Complete)

include hComplete

/-- Reading a block comes to an end just if no circle is below it. -/
theorem finished_readStatement_iff :
    (reader.readStatement node).finished = true ↔ ¬ reader.RunsInCircle node :=
  finished_statement_iff.trans (not_congr (goesOn_depthLimit_iff hComplete))

theorem finished_readChain_iff :
    (reader.readChain first).finished = true ↔
      ∀ member ∈ reader.chain first, ¬ reader.RunsInCircle member := by
  rw [readChain, finished_chainStatement_iff]
  exact forall₂_congr fun member _ =>
    finished_statement_iff.trans (not_congr (goesOn_depthLimit_iff hComplete))

end

theorem finished_phase (hat : NodeId) :
    (reader.phase hat).finished = (reader.readChain (reader.view.next? hat)).finished := by
  simp [phase, readChain]

theorem finished_addPhases_iff {hats : List NodeId} {known : Phases} :
    (reader.addPhases known hats).finished = true ↔
      ∀ hat ∈ hats, (reader.readChain (reader.view.next? hat)).finished = true := by
  induction hats generalizing known with
  | nil => exact iff_of_true rfl nofun
  | cons hat hats ih =>
    rw [addPhases, finished_bind, finished_phase, Bool.and_eq_true, List.forall_mem_cons]
    refine and_congr_right fun _ => ?_
    obtain ⟨name?, evaluate⟩ := (reader.phase hat).value
    cases name? with
    | none => exact ih
    | some name =>
      dsimp only
      split
      · rw [finished_bind, finished_report, Bool.true_and]
        exact ih
      · exact ih

theorem finished_readPhases_iff :
    reader.readPhases.finished = true ↔
      ∀ hat ∈ reader.view.nodes, reader.isTopHat hat = true →
        (reader.readChain (reader.view.next? hat)).finished = true := by
  rw [readPhases, finished_addPhases_iff]
  simp only [List.mem_filter, and_imp]

end Reader

end RuleBlocks
