import RuleBlocks.Proofs.Reading.Blame
import RuleBlocks.Proofs.Reading.Statement
import RuleBlocks.Proofs.Reading.Forest
import RuleBlocks.Proofs.Workspace.Run

/-!
# The chains that are read

Reading a chain leads to the chains in the inputs of its members, and on from there: to those of
statements, of the cases of offers and of the choices of cases (`Reader.Reads`). Every such chain is
read at one place only. So all that is reported below one of its members was reported when that
member was read (`Reads.section_item`), all that is reported blames a member of such a chain
(`Reads.exists_blamed`), and what is reported for the whole says which members of a chain were left
out (`Workspace.run_kept_iff_unblamed`).
-/

namespace RuleBlocks

namespace Reading

variable {α β γ : Type} {Q R : Diagnostic → Prop}

/-- A part of a reading in which all diagnostics of a sort were reported. -/
structure Section (Q : Diagnostic → Prop) (part : Reading α) (whole : Reading β) : Prop where
  diagnostics : part.diagnostics ⊆ whole.diagnostics
  complete : ∀ diagnostic ∈ whole.diagnostics, Q diagnostic → diagnostic ∈ part.diagnostics
  finished : whole.finished = true → part.finished = true

theorem Section.ofEq {part : Reading α} {whole : Reading β}
    (hDiagnostics : part.diagnostics = whole.diagnostics)
    (hFinished : part.finished = whole.finished) : Section Q part whole where
  diagnostics := hDiagnostics ▸ List.Subset.refl _
  complete _ hMem _ := hDiagnostics ▸ hMem
  finished h := hFinished ▸ h

theorem Section.trans {inner : Reading α} {part : Reading β} {whole : Reading γ}
    (hInner : Section Q inner part) (hPart : Section R part whole)
    (hSort : ∀ diagnostic, Q diagnostic → R diagnostic) : Section Q inner whole where
  diagnostics := List.Subset.trans hInner.diagnostics hPart.diagnostics
  complete diagnostic hMem h :=
    hInner.complete diagnostic (hPart.complete diagnostic hMem (hSort diagnostic h)) h
  finished h := hInner.finished (hPart.finished h)

theorem Section.mapSome {part : Reading γ} {whole : Reading (Option α)} (f : α → β)
    (hPart : Section Q part whole) : Section Q part (whole.mapSome f) :=
  hPart.trans (R := Q)
    (Section.ofEq (diagnostics_mapSome f whole).symm (finished_mapSome f whole).symm) fun _ => id

theorem Section.andLeft {part : Reading γ} {f : Reading (Option (α → β))}
    {reading : Reading (Option α)} (hPart : Section Q part f)
    (hOther : ∀ diagnostic ∈ reading.diagnostics, ¬ Q diagnostic) :
    Section Q part (f.and reading) where
  diagnostics := List.Subset.trans hPart.diagnostics (List.subset_append_left _ _)
  complete diagnostic hMem h := by
    rw [diagnostics_and, List.mem_append] at hMem
    exact hPart.complete diagnostic (hMem.resolve_right fun hMem => hOther _ hMem h) h
  finished h := hPart.finished (Bool.and_eq_true_iff.mp (finished_and f reading ▸ h)).1

theorem Section.andRight {part : Reading γ} {f : Reading (Option (α → β))}
    {reading : Reading (Option α)} (hPart : Section Q part reading)
    (hOther : ∀ diagnostic ∈ f.diagnostics, ¬ Q diagnostic) : Section Q part (f.and reading) where
  diagnostics := by
    rw [diagnostics_and]
    exact List.Subset.trans hPart.diagnostics (List.subset_append_right _ _)
  complete diagnostic hMem h := by
    rw [diagnostics_and, List.mem_append] at hMem
    exact hPart.complete diagnostic (hMem.resolve_left fun hMem => hOther _ hMem h) h
  finished h := hPart.finished (Bool.and_eq_true_iff.mp (finished_and f reading ▸ h)).2

/-- All that is reported below a member of a chain is reported when the member is read. -/
theorem section_collect {read : NodeId → Reading (Option α)} {path : List PathSegment}
    {nodes : List NodeId} {node : NodeId}
    (hRead : ∀ node, ∀ diagnostic ∈ (read node).diagnostics, diagnostic.Below ⟨node, path⟩)
    (hNode : node ∈ nodes) :
    Section (·.Below ⟨node, path⟩) (read node) (collect read nodes) where
  diagnostics diagnostic hMem := by
    rw [diagnostics_collect]
    exact List.mem_flatMap.mpr ⟨node, hNode, hMem⟩
  complete diagnostic hMem hBelow := by
    rw [diagnostics_collect] at hMem
    obtain ⟨other, -, hMem⟩ := List.mem_flatMap.mp hMem
    rwa [(hRead other diagnostic hMem).unique hBelow] at hMem
  finished h := finished_collect_iff.mp h node hNode

end Reading

/-- What a member of a chain is read as. -/
inductive ChainItem where
  | statement (statement : Statement)
  | offerCase (offerCase : OfferCase)
  | offerChoice (choice : OfferChoice)

/-- What the chain in an input was read as, taken from what the member that holds it was read as. -/
def ChainItem.inside : ChainItem → (input : String) → List ChainItem
  | .statement (.conditional _ goTrue goFalse), input =>
    if input = Input.goTrue then goTrue.items.map statement else goFalse.items.map statement
  | .statement (.repeatWhile _ body), _ => body.items.map statement
  | .statement (.offer _ _ cases), _ => cases.map offerCase
  | .offerCase ⟨_, _, choices, body⟩, input =>
    if input = Input.offers then choices.map offerChoice else body.items.map statement
  | _, _ => []

/-- What a chain holds. Statements, also those in cases, are followed down to a depth. -/
inductive ChainKind where
  | statements (depth : Nat)
  | cases (depth : Nat)
  | choices

/-- The inputs in which a member of a chain holds chains, and what these hold, by the kind of the
member. -/
def ChainKind.held : ChainKind → BlockKind → List (String × ChainKind)
  | .statements (depth + 1), .ifElse =>
    [(Input.goTrue, .statements depth), (Input.goFalse, .statements depth)]
  | .statements (depth + 1), .repeatWhile => [(Input.body, .statements depth)]
  | .statements (depth + 1), .offer | .statements (depth + 1), .unnamedOffer =>
    [(Input.cases, .cases depth)]
  | .cases depth, .offerCase | .cases depth, .openOfferCase =>
    [(Input.offers, .choices), (Input.actions, .statements depth)]
  | _, _ => []

theorem ChainKind.mem_held_cases {depth : Nat} {kind : BlockKind} {input : String}
    {inner : ChainKind} : (input, inner) ∈ (cases depth).held kind ↔
      kind.role = .offerCase ∧
        (input, inner) ∈ [(Input.offers, choices), (Input.actions, statements depth)] := by
  cases kind
  case offerCase | openOfferCase => exact (and_iff_right rfl).symm
  all_goals exact iff_of_false List.not_mem_nil fun h => by cases h.1

/-- A bound on how many chains stand one inside the other. -/
def ChainKind.height : ChainKind → Nat
  | choices => 0
  | statements depth => 2 * depth + 1
  | cases depth => 2 * depth + 2

theorem ChainKind.height_lt_of_held {outer inner : ChainKind} {kind : BlockKind} {input : String}
    (h : (input, inner) ∈ outer.held kind) : inner.height < outer.height := by
  match outer, h with
  | .statements 0, h => cases kind <;> cases h
  | .statements (depth + 1), h =>
    cases kind
    case ifElse | repeatWhile | offer | unnamedOffer =>
      simp only [held, List.mem_cons, Prod.mk.injEq, List.not_mem_nil, or_false] at h
      grind [height]
    all_goals cases h
  | .cases depth, h =>
    have hInner := (mem_held_cases.mp h).2
    simp only [List.mem_cons, Prod.mk.injEq, List.not_mem_nil, or_false] at hInner
    grind [height]
  | .choices, h => cases kind <;> cases h

/-- A chain that is read: what it holds, the way to it, and its first block. -/
structure ReadChain where
  kind : ChainKind
  path : List PathSegment
  first : Option NodeId

namespace Reader

open Reading

variable {reader : Reader} {spot : Spot} {input : String} {α : Type}

/-- How a member of a chain is read. -/
def item (reader : Reader) (spot : Spot) : ChainKind → Reading (Option ChainItem)
  | .statements depth => (reader.statement depth spot).mapSome .statement
  | .cases depth =>
    (reader.member spot.path .offerCase (reader.offerCase (reader.statement depth))
      spot.node).mapSome .offerCase
  | .choices =>
    (reader.member spot.path .offerChoice reader.offerChoice spot.node).mapSome .offerChoice

/-- The members of a chain. -/
def membersOf (reader : Reader) (chain : ReadChain) : List NodeId := reader.chain chain.first

/-- How the members of a chain are read, one after the other. -/
def items (reader : Reader) (chain : ReadChain) : Reading (List ChainItem) :=
  collect (fun member => reader.item ⟨member, chain.path⟩ chain.kind) (reader.membersOf chain)

/-- The chain in an input of a block. -/
def heldChain (reader : Reader) (spot : Spot) (input : String) (kind : ChainKind) : ReadChain :=
  ⟨kind, spot.within input, reader.view.input? spot.node input⟩

/-- The chains that are read when reading begins with a chain of statements. -/
inductive Reads (reader : Reader) (first : Option NodeId) : ReadChain → Prop
  | top : Reads reader first ⟨.statements reader.depthLimit, [], first⟩
  | held {chain : ReadChain} {member : NodeId} {kind : BlockKind} {input : String}
      {inner : ChainKind} : Reads reader first chain → member ∈ reader.membersOf chain →
      reader.view.kind? reader.vocabulary member = some kind →
      (input, inner) ∈ chain.kind.held kind →
      Reads reader first (reader.heldChain ⟨member, chain.path⟩ input inner)

/-! ## One chain is read at one place -/

theorem explained_item (spot : Spot) (kind : ChainKind) :
    (reader.item spot kind).Explained spot := by
  cases kind with
  | statements depth => exact Explained.mapSome _ (reader.explained_closed.statement depth spot)
  | cases depth =>
    exact Explained.mapSome _ (reader.explained_closed.toClosed.member fun _ =>
      reader.explained_closed.offerCase fun inner => reader.explained_closed.statement depth inner)
  | choices =>
    exact Explained.mapSome _ (reader.explained_closed.toClosed.member fun _ =>
      reader.explained_closed.toClosed.offerChoice)

/-- What is reported for a chain stands inside the input that holds it. -/
theorem inside_collect {read : NodeId → Reading (Option α)} {nodes : List NodeId}
    (hRead : ∀ node, (read node).Explained ⟨node, spot.within input⟩) {diagnostic : Diagnostic}
    (hMem : diagnostic ∈ (collect read nodes).diagnostics) : diagnostic.Inside spot input := by
  rw [diagnostics_collect, List.mem_flatMap] at hMem
  obtain ⟨node, -, hMem⟩ := hMem
  exact ((hRead node).below diagnostic hMem).inside

theorem inside_body {depth : Nat} {diagnostic : Diagnostic}
    (hMem : diagnostic ∈ (reader.body (reader.statement depth) spot input).always.diagnostics) :
    diagnostic.Inside spot input := by
  rw [body_always, diagnostics_mapSome, diagnostics_always] at hMem
  exact inside_collect (fun node => reader.explained_closed.statement depth _) hMem

theorem inside_members {role : BlockRole} {read : Spot → BlockKind → Reading (Option α)}
    {first : Option NodeId} (hRead : ∀ spot kind, (read spot kind).Explained spot)
    {diagnostic : Diagnostic}
    (hMem : diagnostic ∈ (reader.members (spot.within input) first role read).always.diagnostics) :
    diagnostic.Inside spot input := by
  rw [diagnostics_always, members_eq] at hMem
  exact inside_collect
    (fun node => reader.explained_closed.toClosed.member fun kind => hRead _ kind) hMem

/-- What is reported for a value does not stand inside an input with a chain. -/
theorem not_inside_of_blames {reading : Reading (Option α)}
    (hReading : ∀ diagnostic ∈ reading.diagnostics, diagnostic.Blames spot)
    (hInput : input ∈ Input.chains) :
    ∀ diagnostic ∈ reading.diagnostics, ¬ diagnostic.Inside spot input :=
  fun diagnostic hMem hInside => hInside.not_blames hInput (hReading diagnostic hMem)

/-- Items are reported like the parts that they are made from. -/
theorem section_always {f : α → ChainItem} {read : NodeId → Reading (Option α)}
    {nodes : List NodeId} {Q : Diagnostic → Prop} :
    Section Q (collect (fun node => (read node).mapSome f) nodes) (collect read nodes).always := by
  rw [collect_mapSome]
  exact Section.ofEq (by simp) (by simp)

theorem section_body {depth : Nat} {Q : Diagnostic → Prop} :
    Section Q (reader.items (reader.heldChain spot input (.statements depth)))
      (reader.body (reader.statement depth) spot input).always := by
  rw [body_always]
  exact section_always.mapSome _

theorem section_cases {depth : Nat} {Q : Diagnostic → Prop} :
    Section Q (reader.items (reader.heldChain spot input (.cases depth)))
      (reader.members (spot.within input) (reader.view.input? spot.node input) .offerCase
        (reader.offerCase (reader.statement depth))).always := section_always

theorem section_choices {Q : Diagnostic → Prop} :
    Section Q (reader.items (reader.heldChain spot input .choices))
      (reader.members (spot.within input) (reader.view.input? spot.node input) .offerChoice
        reader.offerChoice).always := section_always

theorem section_offerCase {depth : Nat} {kind : BlockKind} {inner : ChainKind}
    (hHeld : (input, inner) ∈ [(Input.offers, .choices), (Input.actions, .statements depth)]) :
    Section (·.Inside spot input) (reader.items (reader.heldChain spot input inner))
      (reader.offerCase (reader.statement depth) spot kind) := by
  have hCondition {f : Option BooleanExpression → List OfferChoice → Statement → OfferCase}
      (hInput : input ∈ Input.chains) :
      ∀ diagnostic ∈ ((parts f).and (reader.caseCondition spot kind)).diagnostics,
        ¬ diagnostic.Inside spot input :=
    not_inside_of_blames
      (reader.blames_closed.and (reader.blames_closed.parts f) reader.blames_closed.caseCondition)
      hInput
  simp only [List.mem_cons, Prod.mk.injEq, List.not_mem_nil, or_false] at hHeld
  rcases hHeld with ⟨rfl, rfl⟩ | ⟨rfl, rfl⟩
  · refine (section_choices.andRight (hCondition (by decide))).andLeft fun diagnostic hMem h => ?_
    exact absurd ((inside_body hMem).unique h) (by decide)
  · refine section_body.andRight fun diagnostic hMem h => ?_
    rw [diagnostics_and, List.mem_append] at hMem
    rcases hMem with hMem | hMem
    · exact hCondition (by decide) diagnostic hMem h
    · have hInside := inside_members (fun _ _ => reader.explained_closed.toClosed.offerChoice) hMem
      exact absurd (hInside.unique h) (by decide)

theorem section_offer {depth : Nat} {kind : BlockKind} :
    Section (·.Inside spot Input.cases)
      (reader.items (reader.heldChain spot Input.cases (.cases depth)))
      (reader.offer (reader.statement depth) spot kind) :=
  section_cases.andRight (not_inside_of_blames
    (reader.blames_closed.and
      (reader.blames_closed.and (reader.blames_closed.parts _) reader.blames_closed.offerPlayer)
      (reader.blames_closed.playerCollection (by decide))) (by decide))

theorem section_statementOf {depth : Nat} {kind : BlockKind} {inner : ChainKind}
    (hHeld : (input, inner) ∈ (ChainKind.statements (depth + 1)).held kind) :
    Section (·.Inside spot input) (reader.items (reader.heldChain spot input inner))
      (reader.statementOf (reader.statement depth) spot kind) := by
  cases kind
  case ifElse =>
    have hCondition (hInput : input ∈ Input.chains) :
        ∀ diagnostic ∈ ((parts Statement.conditional).and
          (reader.boolean spot Input.condition)).diagnostics, ¬ diagnostic.Inside spot input :=
      not_inside_of_blames
        (reader.blames_closed.and (reader.blames_closed.parts _)
          (reader.blames_closed.boolean (by decide))) hInput
    simp only [ChainKind.held, List.mem_cons, Prod.mk.injEq, List.not_mem_nil, or_false] at hHeld
    rcases hHeld with ⟨rfl, rfl⟩ | ⟨rfl, rfl⟩
    · refine (section_body.andRight (hCondition (by decide))).andLeft fun diagnostic hMem h => ?_
      exact absurd ((inside_body hMem).unique h) (by decide)
    · refine section_body.andRight fun diagnostic hMem h => ?_
      rw [diagnostics_and, List.mem_append] at hMem
      rcases hMem with hMem | hMem
      · exact hCondition (by decide) diagnostic hMem h
      · exact absurd ((inside_body hMem).unique h) (by decide)
  case repeatWhile =>
    obtain ⟨rfl, rfl⟩ := Prod.mk.inj (List.mem_singleton.mp hHeld)
    exact section_body.andRight (not_inside_of_blames
      (reader.blames_closed.and (reader.blames_closed.parts _)
        (reader.blames_closed.boolean (by decide))) (by decide))
  case offer | unnamedOffer =>
    obtain ⟨rfl, rfl⟩ := Prod.mk.inj (List.mem_singleton.mp hHeld)
    exact section_offer
  all_goals cases hHeld

/-- **All that is reported inside an input with a chain is reported when the chain is read.** -/
theorem section_held {outer inner : ChainKind} {kind : BlockKind}
    (hKind : reader.view.kind? reader.vocabulary spot.node = some kind)
    (hHeld : (input, inner) ∈ outer.held kind) :
    Section (·.Inside spot input) (reader.items (reader.heldChain spot input inner))
      (reader.item spot outer) := by
  match outer, hHeld with
  | .statements 0, hHeld => cases kind <;> cases hHeld
  | .statements (depth + 1), hHeld =>
    refine Section.mapSome _ ?_
    rw [statement, kind_eq_pure hKind, pure_andThen]
    exact section_statementOf hHeld
  | .cases depth, hHeld =>
    refine Section.mapSome _ ?_
    obtain ⟨hRole, hHeld⟩ := ChainKind.mem_held_cases.mp hHeld
    rw [member, kind_eq_pure hKind, pure_andThen, if_pos hRole]
    exact section_offerCase hHeld
  | .choices, hHeld => cases kind <;> cases hHeld

/-- All that is reported is reported for the chain with which reading begins. -/
theorem section_top {first : Option NodeId} :
    Section (fun _ => True) (reader.items ⟨.statements reader.depthLimit, [], first⟩)
      (reader.readChain first) := by
  refine section_always.trans (R := fun _ => True) (Section.ofEq ?_ ?_) fun _ _ => trivial
  · simp [readChain, chainStatement, membersOf]
  · simp [readChain, chainStatement, membersOf]

/-- **All that is reported below a member of a chain is reported when the member is read.** -/
theorem Reads.section_item {first : Option NodeId} {chain : ReadChain}
    (hReads : reader.Reads first chain) {member : NodeId}
    (hMember : member ∈ reader.membersOf chain) :
    Section (·.Below ⟨member, chain.path⟩) (reader.item ⟨member, chain.path⟩ chain.kind)
      (reader.readChain first) := by
  have hItem : ∀ chain : ReadChain, member ∈ reader.membersOf chain →
      Section (·.Below ⟨member, chain.path⟩) (reader.item ⟨member, chain.path⟩ chain.kind)
        (reader.items chain) :=
    fun chain hMember => section_collect (fun _ => (explained_item _ _).below) hMember
  induction hReads generalizing member with
  | top =>
    exact (hItem _ hMember).trans section_top fun _ _ => trivial
  | @held chain holder kind input inner _ hHolder hKind hHeld ih =>
    refine (hItem _ hMember).trans ((section_held hKind hHeld).trans (ih hHolder ?_) ?_) ?_
    · exact fun chain hMember => section_collect (fun _ => (explained_item _ _).below) hMember
    · exact fun diagnostic hInside => Or.inr ⟨input, hInside⟩
    · exact fun diagnostic hBelow => hBelow.inside

/-- A member of a chain that is read is left out just if an error in the whole reading blames it. -/
theorem Reads.item_eq_none_iff {first : Option NodeId} {chain : ReadChain}
    (hReads : reader.Reads first chain) (hFinished : (reader.readChain first).finished = true)
    {member : NodeId} (hMember : member ∈ reader.membersOf chain) :
    (reader.item ⟨member, chain.path⟩ chain.kind).value = none ↔
      ∃ diagnostic ∈ (reader.readChain first).diagnostics,
        diagnostic.isError = true ∧ diagnostic.Blames ⟨member, chain.path⟩ := by
  have hSection := hReads.section_item hMember
  rw [(explained_item _ _).eq_none_iff (hSection.finished hFinished)]
  constructor
  · rintro ⟨diagnostic, hMem, hError, hBlames⟩
    exact ⟨diagnostic, hSection.diagnostics hMem, hError, hBlames⟩
  · rintro ⟨diagnostic, hMem, hError, hBlames⟩
    exact ⟨diagnostic, hSection.complete diagnostic hMem hBlames.below, hError, hBlames⟩

/-! ## Nothing is reported elsewhere -/

/-- The diagnostics of a chain in an input are those of the items there. -/
theorem mem_diagnostics_heldChain {depth : Nat} {diagnostic : Diagnostic}
    (hMem : diagnostic ∈ (reader.body (reader.statement depth) spot input).always.diagnostics) :
    diagnostic ∈ (reader.items (reader.heldChain spot input (.statements depth))).diagnostics :=
  (section_body (Q := fun _ => True)).complete diagnostic hMem trivial

theorem mem_diagnostics_offerCase {depth : Nat} {kind : BlockKind} {diagnostic : Diagnostic}
    (hMem : diagnostic ∈ (reader.offerCase (reader.statement depth) spot kind).diagnostics) :
    diagnostic.Blames spot ∨
      ∃ input inner,
        (input, inner) ∈ [(Input.offers, .choices), (Input.actions, .statements depth)] ∧
        diagnostic ∈ (reader.items (reader.heldChain spot input inner)).diagnostics := by
  unfold offerCase at hMem
  rw [diagnostics_and, List.mem_append, diagnostics_and, List.mem_append] at hMem
  rcases hMem with (hMem | hMem) | hMem
  · exact Or.inl (reader.blames_closed.and (reader.blames_closed.parts _)
      reader.blames_closed.caseCondition diagnostic hMem)
  · refine Or.inr ⟨Input.offers, .choices, List.mem_cons_self, ?_⟩
    exact (section_choices (Q := fun _ => True)).complete diagnostic hMem trivial
  · exact Or.inr ⟨Input.actions, _, List.mem_cons_of_mem _ (List.mem_singleton_self _),
      mem_diagnostics_heldChain hMem⟩

theorem mem_diagnostics_statementOf {depth : Nat} {kind : BlockKind} {diagnostic : Diagnostic}
    (hMem : diagnostic ∈ (reader.statementOf (reader.statement depth) spot kind).diagnostics) :
    diagnostic.Blames spot ∨
      ∃ input inner, (input, inner) ∈ (ChainKind.statements (depth + 1)).held kind ∧
        diagnostic ∈ (reader.items (reader.heldChain spot input inner)).diagnostics := by
  have hValues := reader.blames_closed
  cases kind
  case ifElse =>
    unfold statementOf at hMem
    rw [diagnostics_and, List.mem_append, diagnostics_and, List.mem_append] at hMem
    rcases hMem with (hMem | hMem) | hMem
    · exact Or.inl (hValues.and (hValues.parts _) (hValues.boolean (by decide)) diagnostic hMem)
    · exact Or.inr ⟨Input.goTrue, _, List.mem_cons_self, mem_diagnostics_heldChain hMem⟩
    · exact Or.inr ⟨Input.goFalse, _, List.mem_cons_of_mem _ (List.mem_singleton_self _),
        mem_diagnostics_heldChain hMem⟩
  case repeatWhile =>
    unfold statementOf at hMem
    rw [diagnostics_and, List.mem_append] at hMem
    rcases hMem with hMem | hMem
    · exact Or.inl (hValues.and (hValues.parts _) (hValues.boolean (by decide)) diagnostic hMem)
    · exact Or.inr ⟨Input.body, _, List.mem_singleton_self _, mem_diagnostics_heldChain hMem⟩
  case offer | unnamedOffer =>
    unfold statementOf offer at hMem
    rw [diagnostics_and, List.mem_append] at hMem
    rcases hMem with hMem | hMem
    · exact Or.inl (hValues.and (hValues.and (hValues.parts _) hValues.offerPlayer)
        (hValues.playerCollection (by decide)) diagnostic hMem)
    · refine Or.inr ⟨Input.cases, _, List.mem_singleton_self _, ?_⟩
      exact (section_cases (Q := fun _ => True)).complete diagnostic hMem trivial
  all_goals exact Or.inl (hValues.statementOf rfl diagnostic hMem)

/-- What is reported for a member of a chain blames the member or is reported for a chain in it. -/
theorem mem_diagnostics_item {outer : ChainKind} {diagnostic : Diagnostic}
    (hMem : diagnostic ∈ (reader.item spot outer).diagnostics) :
    diagnostic.Blames spot ∨
      ∃ kind input inner, reader.view.kind? reader.vocabulary spot.node = some kind ∧
        (input, inner) ∈ outer.held kind ∧
        diagnostic ∈ (reader.items (reader.heldChain spot input inner)).diagnostics := by
  match outer with
  | .statements 0 => cases hMem
  | .statements (depth + 1) =>
    rw [item, diagnostics_mapSome, statement] at hMem
    cases hKind : reader.view.kind? reader.vocabulary spot.node with
    | none =>
      rw [kind_eq_fail hKind, fail_andThen] at hMem
      exact Or.inl (Or.inl (mem_diagnostics_fail hMem).1)
    | some kind =>
      rw [kind_eq_pure hKind, pure_andThen] at hMem
      refine (mem_diagnostics_statementOf hMem).imp_right ?_
      rintro ⟨input, inner, hHeld, hMem⟩
      exact ⟨kind, input, inner, rfl, hHeld, hMem⟩
  | .cases depth =>
    rw [item, diagnostics_mapSome, member] at hMem
    cases hKind : reader.view.kind? reader.vocabulary spot.node with
    | none =>
      rw [kind_eq_fail hKind, fail_andThen] at hMem
      exact Or.inl (Or.inl (mem_diagnostics_fail hMem).1)
    | some kind =>
      rw [kind_eq_pure hKind, pure_andThen] at hMem
      split at hMem
      · rename_i hRole
        refine (mem_diagnostics_offerCase hMem).imp_right ?_
        rintro ⟨input, inner, hHeld, hMem⟩
        exact ⟨kind, input, inner, rfl, ChainKind.mem_held_cases.mpr ⟨hRole, hHeld⟩, hMem⟩
      · exact Or.inl (Or.inl (mem_diagnostics_fail hMem).1)
  | .choices =>
    rw [item, diagnostics_mapSome] at hMem
    exact Or.inl (reader.blames_closed.member (fun _ => reader.blames_closed.offerChoice)
      diagnostic hMem)

/-- Whatever is reported for a chain that is read blames a member of a chain that is read. -/
theorem Reads.exists_blamed {first : Option NodeId} {chain : ReadChain}
    (hReads : reader.Reads first chain) {diagnostic : Diagnostic}
    (hMem : diagnostic ∈ (reader.items chain).diagnostics) :
    ∃ other member, reader.Reads first other ∧ member ∈ reader.membersOf other ∧
      diagnostic.Blames ⟨member, other.path⟩ := by
  generalize hHeight : chain.kind.height = height
  induction height using Nat.strongRecOn generalizing chain with
  | ind height ih =>
    rw [items, diagnostics_collect, List.mem_flatMap] at hMem
    obtain ⟨member, hMember, hMem⟩ := hMem
    rcases mem_diagnostics_item hMem with hBlames | ⟨kind, input, inner, hKind, hHeld, hMem⟩
    · exact ⟨chain, member, hReads, hMember, hBlames⟩
    · have hLt : inner.height < height := hHeight ▸ ChainKind.height_lt_of_held hHeld
      exact ih _ hLt (hReads.held hMember hKind hHeld) hMem rfl

/-! ## What is read is made of the items -/

/-- The statement that a chain stands for is made of the items of the chain. -/
theorem value_items_chainStatement (depth : Nat) (path : List PathSegment)
    (first : Option NodeId) :
    (reader.items ⟨.statements depth, path, first⟩).value =
      (reader.chainStatement (reader.statement depth) path first).value.items.map .statement := by
  have hItems : (reader.chainStatement (reader.statement depth) path first).value.items = _ :=
    Statement.items_ofChain_of_isItem fun statement hMem =>
      (forall_mem_collect (fun _ => yields_statement depth _) _ statement hMem).isItem
  rw [hItems]
  exact value_collect_mapSome _ _ _

theorem value_items_body {depth : Nat} :
    (reader.items (reader.heldChain spot input (.statements depth))).value =
      (reader.body (reader.statement depth) spot input).value.items.map .statement :=
  value_items_chainStatement depth _ _

theorem value_items_offerCase {depth : Nat} {kind : BlockKind} {inner : ChainKind}
    {offerCase : OfferCase}
    (hHeld : (input, inner) ∈ [(Input.offers, .choices), (Input.actions, .statements depth)])
    (hCase : (reader.offerCase (reader.statement depth) spot kind).value = some offerCase) :
    (reader.items (reader.heldChain spot input inner)).value =
      (ChainItem.offerCase offerCase).inside input := by
  obtain ⟨f, body, hF, hBody, rfl⟩ := value_and_eq_some_iff.mp hCase
  obtain ⟨g, choices, hG, hChoices, rfl⟩ := value_and_eq_some_iff.mp hF
  obtain ⟨h, condition, hH, -, rfl⟩ := value_and_eq_some_iff.mp hG
  cases hBody
  cases hChoices
  cases hH
  simp only [List.mem_cons, Prod.mk.injEq, List.not_mem_nil, or_false] at hHeld
  rcases hHeld with ⟨rfl, rfl⟩ | ⟨rfl, rfl⟩
  · exact value_collect_mapSome _ _ _
  · rw [value_items_body]
    rfl

theorem value_items_statementOf {depth : Nat} {kind : BlockKind} {inner : ChainKind}
    {statement : Statement} (hHeld : (input, inner) ∈ (ChainKind.statements (depth + 1)).held kind)
    (hStatement : (reader.statementOf (reader.statement depth) spot kind).value = some statement) :
    (reader.items (reader.heldChain spot input inner)).value =
      (ChainItem.statement statement).inside input := by
  cases kind
  case ifElse =>
    obtain ⟨f, goFalse, hF, hFalse, rfl⟩ := value_and_eq_some_iff.mp hStatement
    obtain ⟨g, goTrue, hG, hTrue, rfl⟩ := value_and_eq_some_iff.mp hF
    obtain ⟨h, condition, hH, -, rfl⟩ := value_and_eq_some_iff.mp hG
    cases hFalse
    cases hTrue
    cases hH
    simp only [ChainKind.held, List.mem_cons, Prod.mk.injEq, List.not_mem_nil, or_false] at hHeld
    rcases hHeld with ⟨rfl, rfl⟩ | ⟨rfl, rfl⟩
    · rw [value_items_body]
      rfl
    · rw [value_items_body]
      rfl
  case repeatWhile =>
    obtain ⟨rfl, rfl⟩ := Prod.mk.inj (List.mem_singleton.mp hHeld)
    obtain ⟨f, body, hF, hBody, rfl⟩ := value_and_eq_some_iff.mp hStatement
    obtain ⟨g, condition, hG, -, rfl⟩ := value_and_eq_some_iff.mp hF
    cases hBody
    cases hG
    rw [value_items_body]
    rfl
  case offer | unnamedOffer =>
    obtain ⟨rfl, rfl⟩ := Prod.mk.inj (List.mem_singleton.mp hHeld)
    obtain ⟨f, cases, hF, hCases, rfl⟩ := value_and_eq_some_iff.mp hStatement
    obtain ⟨g, offerTo, hG, -, rfl⟩ := value_and_eq_some_iff.mp hF
    obtain ⟨h, playerName, hH, -, rfl⟩ := value_and_eq_some_iff.mp hG
    cases hCases
    cases hH
    exact value_collect_mapSome _ _ _
  all_goals cases hHeld

/-- What is read from a chain in a member of a chain stands in what the member is read as. -/
theorem value_items_held {outer inner : ChainKind} {kind : BlockKind} {item : ChainItem}
    (hKind : reader.view.kind? reader.vocabulary spot.node = some kind)
    (hHeld : (input, inner) ∈ outer.held kind)
    (hItem : (reader.item spot outer).value = some item) :
    (reader.items (reader.heldChain spot input inner)).value = item.inside input := by
  match outer, hHeld with
  | .statements 0, hHeld => cases kind <;> cases hHeld
  | .statements (depth + 1), hHeld =>
    obtain ⟨statement, hStatement, rfl⟩ := Option.map_eq_some_iff.mp hItem
    rw [Reader.statement, kind_eq_pure hKind, pure_andThen] at hStatement
    exact value_items_statementOf hHeld hStatement
  | .cases depth, hHeld =>
    obtain ⟨hRole, hHeld⟩ := ChainKind.mem_held_cases.mp hHeld
    obtain ⟨offerCase, hCase, rfl⟩ := Option.map_eq_some_iff.mp hItem
    rw [member, kind_eq_pure hKind, pure_andThen, if_pos hRole] at hCase
    exact value_items_offerCase hHeld hCase
  | .choices, hHeld => cases kind <;> cases hHeld

/-- A member of a chain is read as an item, which holds what is read from the chains in the
member. -/
structure ReadAs (reader : Reader) (chain : ReadChain) (member : NodeId) (item : ChainItem) :
    Prop where
  value : (reader.item ⟨member, chain.path⟩ chain.kind).value = some item
  inside {kind : BlockKind} {input : String} {inner : ChainKind} :
    reader.view.kind? reader.vocabulary member = some kind →
      (input, inner) ∈ chain.kind.held kind →
      (reader.items (reader.heldChain ⟨member, chain.path⟩ input inner)).value = item.inside input

/-- The items of a chain are what those of its members are read as that are not left out. -/
theorem forall₂_items {chain : ReadChain} {kept : NodeId → Bool}
    (hKept : ∀ member ∈ reader.membersOf chain,
      kept member = false ↔ (reader.item ⟨member, chain.path⟩ chain.kind).value = none) :
    List.Forall₂ (reader.ReadAs chain) ((reader.membersOf chain).filter kept)
      (reader.items chain).value := by
  rw [items, value_collect]
  generalize reader.membersOf chain = members at hKept
  induction members with
  | nil => exact List.Forall₂.nil
  | cons member members ih =>
    obtain ⟨hMember, hMembers⟩ := List.forall_mem_cons.mp hKept
    cases hItem : (reader.item ⟨member, chain.path⟩ chain.kind).value with
    | none =>
      rw [List.filter_cons_of_neg (by simp [hMember.mpr hItem])]
      simp only [List.filterMap_cons, hItem]
      exact ih hMembers
    | some item =>
      have hMemberKept : kept member = true := by
        rw [← Bool.not_eq_false, hMember, hItem]
        exact Option.some_ne_none item
      rw [List.filter_cons_of_pos hMemberKept]
      simp only [List.filterMap_cons, hItem]
      exact .cons ⟨hItem, fun hKind hHeld => value_items_held hKind hHeld hItem⟩ (ih hMembers)

end Reader

namespace Workspace

open Classical in
/-- **Just the members are left out that an error blames.** After any run of commands, reading any
chain comes to an end. The statement that is read is made of the items of that chain, and an item of
the items of the chains in it; all that is reported blames a member of one of these chains, or of a
chain in what is left out. For every such chain the items are, in the order of the chain, what those
of its members are read as that no error blames: none at the member itself, and none below it on a
way through sockets for values only. -/
theorem run_kept_iff_unblamed (commands : List Command) (vocabulary : Vocabulary)
    (options : ReadOptions) (first : Option NodeId) {chain : ReadChain}
    (hReads : (Reader.ofView (run commands).view vocabulary options).Reads first chain) :
    let reader := Reader.ofView (run commands).view vocabulary options
    let whole := reader.readChain first
    whole.finished = true ∧
      (reader.items ⟨.statements reader.depthLimit, [], first⟩).value =
        whole.value.items.map .statement ∧
      (∀ diagnostic ∈ whole.diagnostics, ∃ other member, reader.Reads first other ∧
        member ∈ reader.membersOf other ∧ diagnostic.Blames ⟨member, other.path⟩) ∧
      List.Forall₂ (reader.ReadAs chain)
        ((reader.membersOf chain).filter fun member => ∀ diagnostic ∈ whole.diagnostics,
          diagnostic.isError = true → ¬ diagnostic.Blames ⟨member, chain.path⟩)
        (reader.items chain).value := by
  intro reader whole
  have hFinished : whole.finished = true :=
    Reader.finished_readChain (Forest.run commands) rfl first
  refine ⟨hFinished, Reader.value_items_chainStatement _ _ first, fun diagnostic hMem => ?_,
    Reader.forall₂_items fun member hMember => ?_⟩
  · exact Reader.Reads.top.exists_blamed (Reader.section_top.complete diagnostic hMem trivial)
  · rw [hReads.item_eq_none_iff hFinished hMember]
    simp [whole, reader]

/-- A loop without a condition, and in it a phase without a name before one with a name. -/
def loopWithUnnamedPhase : List Command :=
  [.edit (.create BlockKind.repeatWhile.tag), .edit (.create BlockKind.enterPhase.tag),
    .edit (.create BlockKind.enterPhase.tag), .edit (.setField 2 Field.phaseName "draw"),
    .edit (.attach ⟨0, .statement Input.body⟩ 1), .edit (.attach ⟨1, .next⟩ 2)]

open Classical in
theorem loopWithUnnamedPhase_kept :
    let reader := Reader.ofView (run loopWithUnnamedPhase).view .canonical .unchecked
    let inner := reader.heldChain ⟨0, []⟩ Input.body (.statements 3)
    reader.Reads (some 0) inner ∧
      List.Forall₂ (reader.ReadAs inner)
        ([1, 2].filter fun member => ∀ diagnostic ∈ (reader.readChain (some 0)).diagnostics,
          diagnostic.isError = true → ¬ diagnostic.Blames ⟨member, [⟨0, Input.body⟩]⟩)
        [.statement (.enterPhase "draw")] := by
  intro reader inner
  have hKind : reader.view.kind? reader.vocabulary 0 = some .repeatWhile := by decide
  have hReads : reader.Reads (some 0) inner :=
    .held .top (by decide) hKind (List.mem_singleton_self _)
  have hMembers : reader.membersOf inner = [1, 2] := by decide
  have hItems : (reader.items inner).value = [.statement (.enterPhase "draw")] := by rfl
  obtain ⟨-, -, -, hKept⟩ :=
    run_kept_iff_unblamed loopWithUnnamedPhase .canonical .unchecked (some 0) hReads
  rw [hMembers, hItems] at hKept
  exact ⟨hReads, hKept⟩

end Workspace

end RuleBlocks
