import RuleBlocks.Proofs.Reading.Defects

/-!
# Every diagnostic states a fault, once

Statements are read from values and from the chains in the inputs of their blocks. A chain in an
input is one more slot of the block, and its members are different blocks. So what is reported for a
statement is true, and about every slot of a block that is reached on one way at most one diagnostic
is reported (`Reader.reports_statement`).

In a forest there is only one way to a block. So whatever is read, every diagnostic is true, and no
two of them are about the same slot of the same block (`Workspace.run_readings_truthful`).
-/

namespace RuleBlocks

open Relation

/-- Every diagnostic states a fault that is there, no two of them state the same fault of the same
block, and no two are even about the same slot of a block. -/
structure Reading.Truthful {α : Type} (scope : Scope) (reading : Reading α) : Prop where
  holds : ∀ diagnostic ∈ reading.diagnostics, diagnostic.Holds scope
  distinct : (reading.diagnostics.map fun diagnostic =>
    (diagnostic.node, diagnostic.error)).Nodup
  once : (reading.diagnostics.map fun diagnostic =>
    (diagnostic.node, diagnostic.error.slot)).Nodup

namespace Spot

theorem currentInput_within (spot : Spot) (input : String) (node : NodeId) :
    currentInput ⟨node, spot.within input⟩ = input := by
  simp [currentInput, within]

theorem chainRole_within (spot : Spot) {input : String} (node : NodeId)
    (hCases : input ≠ Input.cases) (hOffers : input ≠ Input.offers) :
    chainRole ⟨node, spot.within input⟩ = .statement := by
  rw [chainRole, currentInput_within, if_neg hCases, if_neg hOffers]

theorem chainRole_cases (spot : Spot) (node : NodeId) :
    chainRole ⟨node, spot.within Input.cases⟩ = .offerCase := by
  rw [chainRole, currentInput_within, if_pos rfl]

theorem chainRole_offers (spot : Spot) (node : NodeId) :
    chainRole ⟨node, spot.within Input.offers⟩ = .offerChoice := by
  rw [chainRole, currentInput_within, if_neg (by decide), if_pos rfl]

end Spot

namespace Reader

open Reading Diagnostic

variable {reader : Reader} {scope : Scope} {workspace : Workspace} {spot : Spot}
variable {kind : BlockKind} {input : String} {α : Type}
variable (hStands : reader.StandsOn scope workspace)

include hStands

/-! ## Chains -/

/-- A chain in an input is about that input. -/
theorem reports_chain {read : NodeId → Reading (Option α)}
    (hRead : ∀ node, node < workspace.size →
      (read node).Reports scope (Below · ⟨node, spot.within input⟩)) :
    (collect read (reader.chain (reader.view.input? spot.node input))).always.Reports scope
      (AboutAny [.input input] spot) := by
  unfold chain
  rw [hStands.view]
  have hNodup := hStands.forest.nodup_chain workspace.view.size
    (workspace.view.input? spot.node input)
  have hMembers := reports_collect hNodup fun node hMember =>
    hRead node (hStands.forest.lt_size_of_mem_inputChain hMember)
  refine (hMembers.mono ?_).always
  rintro diagnostic ⟨node, -, hBelow⟩
  exact ⟨_, List.mem_singleton_self _, Or.inr ⟨input, rfl, hBelow.inside⟩⟩

theorem kind?_scope : scope.view.kind? scope.vocabulary = reader.view.kind? reader.vocabulary := by
  rw [hStands.view, hStands.scopeView, hStands.vocabulary]

/-- A block that is read in its own way if it has the right role. -/
theorem reports_member {role : BlockRole} {read : Spot → BlockKind → Reading (Option α)}
    (hNode : spot.node < workspace.size) (hRole : spot.chainRole = role)
    (hRead : ∀ kind, kind.role = role → (read spot kind).Reports scope (Below · spot)) :
    (reader.member spot.path role read spot.node).Reports scope (Below · spot) := by
  unfold member
  cases hKind : reader.view.kind? reader.vocabulary spot.node with
  | none =>
    rw [kind_eq_fail hKind, fail_andThen]
    exact (reports_unknown hStands hNode hKind).below
  | some kind =>
    rw [kind_eq_pure hKind, pure_andThen]
    split
    · rename_i hMember
      exact hRead kind hMember
    · rename_i hOther
      rw [← kind?_scope hStands] at hKind
      exact (reports_fail (.misplacedBlock kind role) ⟨hKind, hOther, hRole.symm⟩).below

/-! ## Choices -/

theorem reports_choiceType {bound : Category} :
    (reader.choiceType spot bound).Reports scope (AboutAny [.input Input.source] spot) := by
  unfold choiceType
  split
  · exact (reports_playerCollection hStands).mapSome _
  · exact (reports_playerCollection hStands).mapSome _
  · exact (reports_cardCollection hStands).mapSome _
  · exact (reports_cardCollection hStands).mapSome _

theorem reports_offerChoice (hRole : kind.role = .offerChoice) :
    (reader.offerChoice spot kind).Reports scope (Below · spot) := by
  cases kind
  case choiceMove =>
    exact (((reports_parts _).and (reports_zone hStands) (by decide)).and (reports_zone hStands)
      (by decide)).below
  case choiceSelection =>
    exact (((reports_parts _).and (reports_requiredField hStands _) (by decide)).and
      ((reports_parsedField hStands fun _ => .choiceType).andThen
        (fun _ _ => reports_choiceType hStands) (by decide)) (by decide)).below
  all_goals cases hRole

theorem reports_caseCondition :
    (reader.caseCondition spot kind).Reports scope (AboutAny [.input Input.filter] spot) := by
  unfold caseCondition
  split
  · exact (reports_boolean hStands).mapSome _
  · exact reports_pure _

theorem reports_offerPlayer :
    (reader.offerPlayer spot kind).Reports scope (AboutAny [.field Field.playerName] spot) := by
  unfold offerPlayer
  split
  · exact (reports_requiredField hStands _).mapSome _
  · exact reports_pure _

/-! ## Statements -/

section

variable {read : Spot → Reading (Option Statement)}
variable (hRead : ∀ inner, inner.node < workspace.size → inner.chainRole = .statement →
  (read inner).Reports scope (Below · inner))

include hRead

theorem reports_body (hCases : input ≠ Input.cases) (hOffers : input ≠ Input.offers) :
    (reader.body read spot input).always.Reports scope (AboutAny [.input input] spot) := by
  rw [body_always]
  exact (reports_chain hStands fun node hNode =>
    hRead _ hNode (spot.chainRole_within node hCases hOffers)).mapSome _

theorem reports_offerCase :
    (reader.offerCase read spot kind).Reports scope (Below · spot) := by
  have hOffers : (reader.members (spot.within Input.offers)
      (reader.view.input? spot.node Input.offers) .offerChoice reader.offerChoice).always.Reports
        scope (AboutAny [.input Input.offers] spot) :=
    reports_chain hStands fun node hNode => reports_member hStands hNode
      (spot.chainRole_offers node) fun _ => reports_offerChoice hStands
  exact ((((reports_parts _).and (reports_caseCondition hStands) (by decide)).and hOffers
    (by decide)).and (reports_body hStands hRead (by decide) (by decide)) (by decide)).below

theorem reports_offer : (reader.offer read spot kind).Reports scope (Below · spot) := by
  have hCases : (reader.members (spot.within Input.cases)
      (reader.view.input? spot.node Input.cases) .offerCase (reader.offerCase read)).always.Reports
        scope (AboutAny [.input Input.cases] spot) :=
    reports_chain hStands fun node hNode => reports_member hStands hNode
      (spot.chainRole_cases node) fun _ _ => reports_offerCase hStands hRead
  exact ((((reports_parts _).and (reports_offerPlayer hStands) (by decide)).and
    (reports_playerCollection hStands) (by decide)).and hCases (by decide)).below

theorem reports_statementOf (hRole : spot.chainRole = .statement)
    (hKind : reader.view.kind? reader.vocabulary spot.node = some kind) :
    (reader.statementOf read spot kind).Reports scope (Below · spot) := by
  rw [← kind?_scope hStands] at hKind
  cases kind
  case enterPhase => exact ((reports_requiredField hStands _).mapSome _).below
  case setNumber =>
    exact (((reports_parts _).and (reports_requiredField hStands _) (by decide)).and
      (reports_number hStands) (by decide)).below
  case ifElse =>
    exact ((((reports_parts _).and (reports_boolean hStands) (by decide)).and
      (reports_body hStands hRead (by decide) (by decide)) (by decide)).and
      (reports_body hStands hRead (by decide) (by decide)) (by decide)).below
  case repeatWhile =>
    exact (((reports_parts _).and (reports_boolean hStands) (by decide)).and
      (reports_body hStands hRead (by decide) (by decide)) (by decide)).below
  case shuffle => exact ((reports_zoneCollection hStands).mapSome _).below
  case generateCards =>
    exact (((reports_parts _).and (reports_cardSet hStands) (by decide)).and (reports_zone hStands)
      (by decide)).below
  case dealCards =>
    exact ((((reports_parts _).and (reports_number hStands) (by decide)).and (reports_zone hStands)
      (by decide)).and (reports_zoneCollection hStands) (by decide)).below
  case moveCards =>
    exact (((reports_parts _).and (reports_cardCollection hStands) (by decide)).and
      (reports_zone hStands) (by decide)).below
  case declareWinner => exact ((reports_playerCollection hStands).mapSome _).below
  case advancePlayer => exact ((reports_number hStands).mapSome _).below
  case offer | unnamedOffer => exact reports_offer hStands hRead
  case phase | offerCase | openOfferCase | choiceSelection | choiceMove =>
    exact (reports_fail (.misplacedBlock _ .statement) ⟨hKind, nofun, hRole.symm⟩).below
  all_goals exact (reports_fail (.notAStatement _) ⟨hKind, trivial⟩).below

end

/-- **What is reported for a statement is true, and nothing is reported twice.** -/
theorem reports_statement (depth : Nat) (spot : Spot) (hNode : spot.node < workspace.size)
    (hRole : spot.chainRole = .statement) :
    (reader.statement depth spot).Reports scope (Below · spot) := by
  induction depth generalizing spot with
  | zero => exact reports_endless none
  | succ depth ih =>
    rw [statement]
    cases hKind : reader.view.kind? reader.vocabulary spot.node with
    | none =>
      rw [kind_eq_fail hKind, fail_andThen]
      exact (reports_unknown hStands hNode hKind).below
    | some kind =>
      rw [kind_eq_pure hKind, pure_andThen]
      exact reports_statementOf hStands ih hRole hKind

theorem reports_readChain {first : NodeId} (hFirst : first < workspace.size) :
    (reader.readChain (some first)).Reports scope fun _ => True := by
  have hMembers : (collect (fun node => reader.statement reader.depthLimit ⟨node, []⟩)
      (reader.chain (some first))).Reports scope
        fun diagnostic => ∃ node ∈ reader.chain (some first), diagnostic.Below ⟨node, []⟩ := by
    unfold chain
    rw [hStands.view]
    refine reports_collect (hStands.forest.nodup_chain _ _) fun node hMember => ?_
    exact reports_statement hStands _ _ (hStands.forest.depth_le_of_mem_chain hFirst hMember).2 rfl
  refine (hMembers.mono fun _ _ => trivial).congr ?_
  rw [readChain, diagnostics_chainStatement, diagnostics_collect]

/-! ## One way to every block -/

/-- If reading begins with blocks of one chain, then no two diagnostics are about the same slot of
the same block. -/
theorem truthful_of_reports {first : NodeId} {starts : List NodeId} {reading : Reading α}
    {S : Diagnostic → Prop} (hStarts : workspace.StartsFrom first starts)
    (hReports : reading.Reports scope S)
    (hWays : ∀ diagnostic ∈ reading.diagnostics,
      workspace.view.Way starts diagnostic.path diagnostic.node) : reading.Truthful scope := by
  have hOnce : reading.diagnostics.Pairwise fun diagnostic other =>
      (diagnostic.node, diagnostic.error.slot) ≠ (other.node, other.error.slot) := by
    refine hReports.once.imp_of_mem fun {diagnostic other} hMem hOther hNe hSame => hNe ?_
    obtain ⟨hNode, hSlot⟩ := Prod.mk.inj hSame
    have hWay := hWays diagnostic hMem
    rw [hNode] at hWay
    exact ⟨hNode, hStands.forest.way_unique hStarts hWay (hWays other hOther), hSlot⟩
  refine ⟨hReports.holds, List.pairwise_map.mpr (hOnce.imp ?_), List.pairwise_map.mpr hOnce⟩
  intro diagnostic other hNe hSame
  obtain ⟨hNode, hError⟩ := Prod.mk.inj hSame
  exact hNe (by rw [hNode, hError])

end Reader

/-! ## What is read from a workspace -/

namespace Workspace

open Reader

theorem Forest.standsOn {workspace : Workspace} (hForest : workspace.Forest)
    (vocabulary : Vocabulary) (options : ReadOptions) :
    (Reader.ofView workspace.view vocabulary options).StandsOn
      (Scope.ofView workspace.view vocabulary options.globals) workspace where
  forest := hForest
  view := rfl
  scopeView := rfl
  vocabulary := rfl
  checked other hScope := by
    unfold ofView at hScope
    dsimp only at hScope
    split at hScope
    · exact (Option.some.inj hScope).symm
    · cases hScope

/-- **Every diagnostic states a fault, once.** After any run of commands, and whatever tags mean,
let a chain, a block or an expression be read from a block. Then every diagnostic is true of the
graph, and no two of them are about the same slot of the same block. -/
theorem run_readings_truthful (commands : List Command) (vocabulary : Vocabulary)
    (options : ReadOptions) {node : NodeId} (hNode : node < (run commands).size) :
    let view := (run commands).view
    let reader := Reader.ofView view vocabulary options
    let scope := Scope.ofView view vocabulary options.globals
    (reader.readChain (some node)).Truthful scope ∧ (reader.readStatement node).Truthful scope ∧
      ∀ category, (reader.readExpression node category).Truthful scope := by
  intro view reader scope
  have hForest := Forest.run commands
  have hStands : reader.StandsOn scope (run commands) := hForest.standsOn vocabulary options
  have hWays := reader.ways_closed [node]
  have hChain : (run commands).StartsFrom node (reader.chain (some node)) :=
    fun _ hMember => hForest.reaches_first_of_mem_chain hMember
  have hSingle : (run commands).StartsFrom node [node] := fun start hMem => by
    rw [List.mem_singleton.mp hMem]
  have hStart : view.Way [node] [] node := .start (List.mem_singleton_self node)
  refine ⟨?_, ?_, fun category => ?_⟩
  · exact truthful_of_reports hStands hChain (reports_readChain hStands hNode) fun _ =>
      reader.way_of_mem_readChain
  · exact truthful_of_reports hStands hSingle (reports_statement hStands _ _ hNode rfl)
      fun diagnostic hMem => hWays.statement _ ⟨node, []⟩ diagnostic hMem hStart
  · exact truthful_of_reports hStands hSingle (reports_expression hStands hNode category)
      fun diagnostic hMem => hWays.toClosed.expression category diagnostic hMem hStart

/-- A loop over a phase without a name, with a block of no known kind as its condition. -/
def loopWithFaults : List Command :=
  [.edit (.create BlockKind.repeatWhile.tag), .edit (.create "my_block"),
    .edit (.create BlockKind.enterPhase.tag), .edit (.attach ⟨0, .value Input.condition⟩ 1),
    .edit (.attach ⟨0, .statement Input.body⟩ 2)]

theorem loopWithFaults_truthful :
    let view := (run loopWithFaults).view
    let reading := (Reader.ofView view .canonical .unchecked).readChain (some 0)
    0 < (run loopWithFaults).size ∧
      reading.faults =
        [(.error, .unknownBlockType "my_block"), (.error, .missingField Field.phaseName)] ∧
      reading.Truthful (Scope.ofView view .canonical []) := by
  intro view reading
  have hNode : 0 < (run loopWithFaults).size := by decide
  exact ⟨hNode, by decide +kernel,
    (run_readings_truthful loopWithFaults .canonical .unchecked hNode).1⟩

end Workspace

end RuleBlocks
