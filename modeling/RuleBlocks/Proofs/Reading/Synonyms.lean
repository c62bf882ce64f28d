import RuleBlocks.Proofs.Reading.Alike
import RuleBlocks.Proofs.Workspace.Run

/-!
# Tags that mean the same

Two graphs may differ in the tags of their blocks and in nothing else, and yet every two tags may
stand for the same kind. Then the graphs are synonymous (`Workspace.Synonymous`): whatever is read
from them is the same, what is reported is the same apart from the tags that diagnostics show, and
every block can refer to the same names (`Workspace.Synonymous.sameReadings`).

For readers and scopes look at the kinds of blocks and never at their tags. Only the report of a
block of no known kind says what its tag is, and such a block has the same tag in both graphs.
-/

namespace RuleBlocks

/-! ## Views and workspaces -/

/-- The view that hides all tags. -/
def View.untagged (view : View) : View := { view with tag? := fun _ => none }

/-- Two views answer all questions alike, except for those for tags; there they give tags for the
same kind, or the same tag for no kind. Each view comes with the vocabulary in which its tags are
read. -/
structure View.Synonymous (view : View) (vocabulary : Vocabulary) (other : View)
    (otherVocabulary : Vocabulary) : Prop where
  untagged : view.untagged = other.untagged
  kinds : ∀ node, view.kind? vocabulary node = other.kind? otherVocabulary node
  unknown : ∀ node, view.kind? vocabulary node = none → view.shownTag node = other.shownTag node

namespace View.Synonymous

variable {view other : View} {vocabulary otherVocabulary : Vocabulary}
variable (hSame : view.Synonymous vocabulary other otherVocabulary)

include hSame

theorem nodes : view.nodes = other.nodes := (congrArg View.nodes hSame.untagged :)

theorem size : view.size = other.size := congrArg List.length hSame.nodes

theorem field? : view.field? = other.field? := (congrArg View.field? hSame.untagged :)

theorem input? : view.input? = other.input? := (congrArg View.input? hSame.untagged :)

theorem next? : view.next? = other.next? := (congrArg View.next? hSame.untagged :)

theorem previous? : view.previous? = other.previous? := (congrArg View.previous? hSame.untagged :)

theorem owner? : view.owner? = other.owner? := (congrArg View.owner? hSame.untagged :)

theorem enclosing? : view.enclosing? = other.enclosing? :=
  (congrArg View.enclosing? hSame.untagged :)

theorem filledField? : view.filledField? = other.filledField? := by
  funext node field
  unfold View.filledField?
  rw [hSame.field?]

theorem chain (limit : Nat) (first : Option NodeId) :
    view.chain limit first = other.chain limit first := by
  induction limit generalizing first with
  | zero => rfl
  | succ limit ih =>
    cases first with
    | none => rfl
    | some node =>
      rw [View.chain, View.chain, hSame.next?]
      exact congrArg _ (ih _)

end View.Synonymous

namespace Workspace

/-- The workspace with no tag on any of its blocks. -/
def untagged (workspace : Workspace) : Workspace :=
  ⟨(workspace.blocks.toList.map fun block => { block with tag := "" }).toArray⟩

/-- The workspaces are equal except for the tags of blocks, and every two tags are equal or stand
for the same kind. -/
structure Synonymous (vocabulary : Vocabulary) (workspace other : Workspace) : Prop where
  untagged : workspace.untagged = other.untagged
  tags : ∀ node, workspace.view.tag? node = other.view.tag? node ∨
    ∃ kind, workspace.view.kind? vocabulary node = some kind ∧
      other.view.kind? vocabulary node = some kind

variable (workspace : Workspace) (node : NodeId)

theorem block?_untagged :
    workspace.untagged.block? node =
      (workspace.block? node).map fun block => { block with tag := "" } := by
  simp [untagged, block?]

/-- What does not depend on the tag of a block is the same without tags. -/
theorem bind_block?_untagged {α : Type} {ask : Block → Option α}
    (hAsk : ∀ block, ask { block with tag := "" } = ask block) :
    (workspace.untagged.block? node).bind ask = (workspace.block? node).bind ask := by
  rw [block?_untagged, Option.bind_map]
  exact congrArg _ (funext hAsk)

theorem parent?_untagged : workspace.untagged.parent? node = workspace.parent? node :=
  workspace.bind_block?_untagged node fun _ => rfl

theorem climb_untagged (limit : Nat) :
    workspace.untagged.climb limit node = workspace.climb limit node := by
  induction limit generalizing node with
  | zero => rfl
  | succ limit ih =>
    rw [climb, climb, parent?_untagged]
    cases workspace.parent? node with
    | none => rfl
    | some link => exact congrArg _ (ih link.node)

theorem previous?_untagged : workspace.untagged.previous? node = workspace.previous? node := by
  unfold previous?
  rw [parent?_untagged]

theorem chainHolder?_untagged :
    workspace.untagged.chainHolder? node = workspace.chainHolder? node := by
  unfold chainHolder?
  rw [parent?_untagged]

theorem enclosing?_untagged : workspace.untagged.enclosing? node = workspace.enclosing? node := by
  have hSize : workspace.untagged.size = workspace.size := by simp [untagged, size]
  have hHolder : workspace.untagged.chainHolder? = workspace.chainHolder? :=
    funext workspace.chainHolder?_untagged
  unfold enclosing? lineage
  rw [hSize, hHolder, climb_untagged]

/-- Without tags a workspace answers all other questions as before. -/
theorem view_untagged : workspace.untagged.view.untagged = workspace.view.untagged := by
  unfold View.untagged view
  dsimp only
  congr 1
  · simp [nodes, untagged, Function.comp_def]
  · funext node field
    exact workspace.bind_block?_untagged node fun _ => rfl
  · funext node input
    exact workspace.bind_block?_untagged node fun _ => rfl
  · funext node
    exact workspace.bind_block?_untagged node fun _ => rfl
  · exact funext workspace.previous?_untagged
  · funext node
    rw [parent?_untagged]
  · exact funext workspace.enclosing?_untagged

variable {workspace} {vocabulary : Vocabulary} {other : Workspace}

theorem Synonymous.view (hSame : workspace.Synonymous vocabulary other) :
    workspace.view.Synonymous vocabulary other.view vocabulary where
  untagged := by rw [← view_untagged, hSame.untagged, view_untagged]
  kinds node := by
    rcases hSame.tags node with hTag | ⟨kind, hFirst, hSecond⟩
    · unfold View.kind?
      rw [hTag]
    · rw [hFirst, hSecond]
  unknown node hNone := by
    rcases hSame.tags node with hTag | ⟨kind, hFirst, -⟩
    · unfold View.shownTag
      rw [hTag]
    · rw [hNone] at hFirst
      cases hFirst

end Workspace

/-! ## Names in scope -/

namespace Scope

variable {view other : View} {vocabulary otherVocabulary : Vocabulary}
variable {registered : List (Category × String)}

/-- Synonymous graphs make the same names known everywhere. -/
theorem ofView_globals (hSame : view.Synonymous vocabulary other otherVocabulary) :
    (ofView view vocabulary registered).globals =
      (ofView other otherVocabulary registered).globals := by
  have hBindings : numberBinding? view vocabulary = numberBinding? other otherVocabulary := by
    funext node
    unfold numberBinding?
    rw [hSame.kinds, hSame.filledField?]
  unfold ofView
  dsimp only
  rw [hSame.nodes, hBindings]

section

variable {scope scopeOther : Scope}
variable (hSame : scope.view.Synonymous scope.vocabulary scopeOther.view scopeOther.vocabulary)

include hSame

theorem enclosures_eq (limit : Nat) (node : NodeId) :
    scope.enclosures limit node = scopeOther.enclosures limit node := by
  induction limit generalizing node with
  | zero =>
    rw [enclosures, enclosures, hSame.enclosing?]
  | succ limit ih =>
    rw [enclosures, enclosures, hSame.enclosing?]
    simp only [ih]

theorem chainMember?_eq (holder : NodeId) (limit : Nat) (node : NodeId) :
    scope.chainMember? holder limit node = scopeOther.chainMember? holder limit node := by
  induction limit generalizing node with
  | zero => rfl
  | succ limit ih =>
    rw [chainMember?, chainMember?, hSame.owner?, hSame.previous?]
    simp only [ih]

theorem selectionBinding?_eq (category : Category) :
    scope.selectionBinding? category = scopeOther.selectionBinding? category := by
  funext choice
  unfold selectionBinding?
  rw [hSame.kinds, hSame.filledField?, hSame.field?]

/-- Synonymous blocks bind the same names. -/
theorem bindings_eq (category : Category) (holder : NodeId) (member? : Option NodeId) :
    scope.bindings category holder member? = scopeOther.bindings category holder member? := by
  unfold bindings playerBindings
  rw [hSame.kinds, hSame.filledField?, hSame.size, hSame.input?, hSame.chain,
    selectionBinding?_eq hSame]

theorem names_eq (hGlobals : scope.globals = scopeOther.globals) (node : NodeId)
    (category : Category) : scope.names node category = scopeOther.names node category := by
  unfold names
  simp only [hSame.size, enclosures_eq hSame, chainMember?_eq hSame, bindings_eq hSame, hGlobals]

end

/-- In synonymous graphs a block can refer to the same names. -/
theorem names_ofView_eq (hSame : view.Synonymous vocabulary other otherVocabulary) (node : NodeId)
    (category : Category) :
    (ofView view vocabulary registered).names node category =
      (ofView other otherVocabulary registered).names node category :=
  names_eq hSame (ofView_globals hSame) node category

theorem resolve_ofView_eq (hSame : view.Synonymous vocabulary other otherVocabulary) (node : NodeId)
    (category : Category) (name : String) :
    (ofView view vocabulary registered).resolve node category name =
      (ofView other otherVocabulary registered).resolve node category name := by
  rw [resolve, resolve, names_ofView_eq hSame]

end Scope

/-! ## Readings -/

/-- The diagnostic without the tag that it shows. -/
def Diagnostic.untagged (diagnostic : Diagnostic) : Diagnostic := { diagnostic with tag := "" }

/-- The reading without the tags that its diagnostics show. -/
def Reading.untagged {α : Type} (reading : Reading α) : Reading α :=
  { reading with diagnostics := reading.diagnostics.map Diagnostic.untagged }

/-- The reports are the same apart from the tags that they show. -/
def SameButTags (diagnostics others : List Diagnostic) : Prop :=
  diagnostics.map Diagnostic.untagged = others.map Diagnostic.untagged

theorem SameButTags.additive : Reading.Additive SameButTags where
  nil := rfl
  append hFirst hMore := by
    unfold SameButTags at *
    rw [List.map_append, List.map_append, hFirst, hMore]

theorem Reading.Alike.untagged_eq {α : Type} {reading other : Reading α}
    (hAlike : Alike SameButTags α reading other) : reading.untagged = other.untagged := by
  obtain ⟨hValue, hFinished, hDiagnostics⟩ := hAlike
  unfold Reading.untagged
  rw [hValue, hFinished, hDiagnostics]

namespace Reader

variable {view other : View} {vocabulary otherVocabulary : Vocabulary} {options : ReadOptions}

section

variable (hSame : view.Synonymous vocabulary other otherVocabulary)

include hSame

theorem alike_checkReference (spot : Spot) (category : Category) (name : String) :
    Reading.Alike SameButTags Unit
      ((ofView view vocabulary options).checkReference spot category name)
      ((ofView other otherVocabulary options).checkReference spot category name) := by
  unfold checkReference ofView
  cases options.checkScopes with
  | false => exact ⟨rfl, rfl, rfl⟩
  | true =>
    simp only [reduceIte, Scope.resolve_ofView_eq hSame]
    split <;> exact ⟨rfl, rfl, rfl⟩

/-- Readers of synonymous graphs go through the same blocks and report the same. -/
theorem inStep_synonymous :
    (ofView view vocabulary options).InStep (ofView other otherVocabulary options) (· = ·)
      (Reading.Alike SameButTags) where
  toCongruence := SameButTags.additive.congruence
  kind? hNode := by
    rw [hNode]
    exact hSame.kinds _
  field? field hNode := by
    rw [hNode]
    exact congrFun₂ hSame.field? _ _
  input? input hNode := by
    rw [hNode]
    exact rel_eq_iff.mpr (congrFun₂ hSame.input? _ _)
  chain hStart := by
    rw [rel_eq_iff.mp hStart, List.forall₂_eq_eq_eq]
    unfold Reader.chain ofView
    dsimp only
    rw [hSame.size, hSame.chain]
  error error hSpot := by
    rw [hSpot.eq]
    exact ⟨rfl, rfl, rfl⟩
  unknown hNode hNone := by
    rw [hNode] at hNone ⊢
    exact hSame.unknown _ hNone
  checked category name hSpot := by
    rw [hSpot.eq]
    exact alike_checkReference hSame _ category name

theorem alike_synonymous_readChain (first : Option NodeId) :
    Reading.Alike SameButTags _ ((ofView view vocabulary options).readChain first)
      ((ofView other otherVocabulary options).readChain first) :=
  (inStep_synonymous hSame).readChain ((inStep_synonymous hSame).statement_depthLimit hSame.size)
    (rel_eq_iff.mpr rfl)

/-- The same hats stand by themselves. -/
theorem hats_synonymous :
    view.nodes.filter (ofView view vocabulary options).isTopHat =
      other.nodes.filter (ofView other otherVocabulary options).isTopHat := by
  have hTop : (ofView view vocabulary options).isTopHat =
      (ofView other otherVocabulary options).isTopHat := by
    funext node
    unfold isTopHat ofView
    dsimp only
    rw [hSame.kinds, hSame.previous?, hSame.enclosing?]
  rw [hSame.nodes, hTop]

theorem alike_synonymous_readPhases :
    Reading.Alike SameButTags _ (ofView view vocabulary options).readPhases
      (ofView other otherVocabulary options).readPhases := by
  have hStep : (ofView view vocabulary options).InStep (ofView other otherVocabulary options)
      (· = ·) (Reading.Alike SameButTags) := inStep_synonymous hSame
  have hHats : List.Forall₂ (fun hat hatOther => hat = hatOther ∧
      Option.Rel (· = ·) (view.next? hat) (other.next? hatOther))
      (view.nodes.filter (ofView view vocabulary options).isTopHat)
      (other.nodes.filter (ofView other otherVocabulary options).isTopHat) := by
    rw [hats_synonymous hSame]
    exact List.forall₂_same.mpr fun hat _ => ⟨rfl, rel_eq_iff.mpr (congrFun hSame.next? hat)⟩
  exact hStep.addPhases (hStep.statement_depthLimit hSame.size) _ hHats

end

end Reader

namespace Workspace

variable {vocabulary : Vocabulary} {workspace other : Workspace}

/-- **Tags do not matter beyond the kinds that they stand for.** If two workspaces are equal except
for tags that mean the same, then, with and without a check of references, whatever is read from one
of them is read from the other one, and what is reported differs at most in the tags that it shows;
and every block can refer to the same names. -/
theorem Synonymous.sameReadings (hSame : workspace.Synonymous vocabulary other)
    (options : ReadOptions) (registered : List (Category × String)) :
    let reader := Reader.ofView workspace.view vocabulary options
    let readerOther := Reader.ofView other.view vocabulary options
    (∀ first, (reader.readChain first).untagged = (readerOther.readChain first).untagged) ∧
      (∀ node, (reader.readStatement node).untagged = (readerOther.readStatement node).untagged) ∧
      (∀ node category, (reader.readExpression node category).untagged =
        (readerOther.readExpression node category).untagged) ∧
      (∀ node, (reader.readNumber node).untagged = (readerOther.readNumber node).untagged ∧
        (reader.readBoolean node).untagged = (readerOther.readBoolean node).untagged ∧
        (reader.readPlayer node).untagged = (readerOther.readPlayer node).untagged ∧
        (reader.readPlayerCollection node).untagged =
          (readerOther.readPlayerCollection node).untagged ∧
        (reader.readZone node).untagged = (readerOther.readZone node).untagged ∧
        (reader.readZoneCollection node).untagged = (readerOther.readZoneCollection node).untagged ∧
        (reader.readCard node).untagged = (readerOther.readCard node).untagged ∧
        (reader.readCardCollection node).untagged = (readerOther.readCardCollection node).untagged ∧
        (reader.readRank node).untagged = (readerOther.readRank node).untagged ∧
        (reader.readSuit node).untagged = (readerOther.readSuit node).untagged) ∧
      reader.readPhases.untagged = readerOther.readPhases.untagged ∧
      ∀ node category, (Scope.ofView workspace.view vocabulary registered).names node category =
        (Scope.ofView other.view vocabulary registered).names node category := by
  intro reader readerOther
  have hStep : reader.InStep readerOther (· = ·) (Reading.Alike SameButTags) :=
    Reader.inStep_synonymous hSame.view
  have hStatement := hStep.statement_depthLimit hSame.view.size
  have hTyped {α : Type} (node : NodeId) (category : Category) (pick : Expression → Option α) :=
    (hStep.readTyped (rfl : node = node) category pick).untagged_eq
  refine ⟨fun first => (Reader.alike_synonymous_readChain hSame.view first).untagged_eq,
    fun node => (hStatement _ _ (.start rfl)).untagged_eq,
    fun node category => (hStep.readExpression rfl category).untagged_eq, fun node => ?_,
    (Reader.alike_synonymous_readPhases hSame.view).untagged_eq,
    fun node category => Scope.names_ofView_eq hSame.view node category⟩
  exact ⟨hTyped node _ _, hTyped node _ _, hTyped node _ _, hTyped node _ _, hTyped node _ _,
    hTyped node _ _, hTyped node _ _, hTyped node _ _, hTyped node _ _, hTyped node _ _⟩

/-- A vocabulary with an alias for loops. -/
def looseVocabulary : Vocabulary := .ofAliases [("my_loop", BlockKind.repeatWhile.tag)]

/-- A loop with a tag of one's choice, with a condition that is no truth value and with a block of
no known kind in its body. -/
def taggedLoop (tag : String) : List Command :=
  [.edit (.create tag), .edit (.create BlockKind.booleanLiteral.tag),
    .edit (.setField 1 Field.boolean "MAYBE"), .edit (.create "my_block"),
    .edit (.attach ⟨0, .value Input.condition⟩ 1), .edit (.attach ⟨0, .statement Input.body⟩ 2)]

theorem taggedLoop_sameReadings :
    let workspace := run (taggedLoop BlockKind.repeatWhile.tag)
    let other := run (taggedLoop "my_loop")
    let reader := Reader.ofView workspace.view looseVocabulary ⟨true, []⟩
    let readerOther := Reader.ofView other.view looseVocabulary ⟨true, []⟩
    workspace.Synonymous looseVocabulary other ∧
      workspace.view.tag? 0 ≠ other.view.tag? 0 ∧
      (reader.readChain (some 0)).untagged = (readerOther.readChain (some 0)).untagged ∧
      reader.readPhases.untagged = readerOther.readPhases.untagged := by
  intro workspace other reader readerOther
  have hSame : workspace.Synonymous looseVocabulary other := by
    refine ⟨by decide +kernel, fun node => ?_⟩
    by_cases hNode : node < 3
    · match node, hNode with
      | 0, _ => exact Or.inr ⟨.repeatWhile, by decide, by decide⟩
      | 1, _ | 2, _ => exact Or.inl (by decide)
    · have hBlock : workspace.block? node = none := Array.getElem?_eq_none (Nat.not_lt.mp hNode)
      have hBlockOther : other.block? node = none :=
        Array.getElem?_eq_none (Nat.not_lt.mp hNode)
      exact Or.inl (congrArg (Option.map Block.tag) (hBlock.trans hBlockOther.symm))
  obtain ⟨hChain, -, -, -, hPhases, -⟩ := hSame.sameReadings ⟨true, []⟩ []
  exact ⟨hSame, by decide, hChain (some 0), hPhases⟩

end Workspace

end RuleBlocks
