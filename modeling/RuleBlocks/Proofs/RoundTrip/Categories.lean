import RuleBlocks.Proofs.Reading.Ends
import RuleBlocks.Proofs.RoundTrip.Program

/-!
# Reading drawn expressions at every category

A collection that is given by a single element is drawn as that element, so the blocks do not tell
them apart. What a block of an expression is read as depends on the category that is asked for. It
is the element itself at the category of the element, the collection of this single element at the
category of collections, and a mismatch anywhere else (`run_readExpression_drawn`).
-/

namespace RuleBlocks

namespace Expression

/-- The expression for which an expression is drawn: the element for a collection that is given by a
single one. -/
def element : Expression → Expression
  | playerCollection (.single element) => player element
  | zoneCollection (.single element) => zone element
  | cardCollection (.single element) => card element
  | expression => expression

/-- The collection that is given by a single element, where there are collections of such. -/
def single? : Expression → Option Expression
  | player expression => some (.playerCollection (.single expression))
  | zone expression => some (.zoneCollection (.single expression))
  | card expression => some (.cardCollection (.single expression))
  | _ => none

theorem blueprint_element (expression : Expression) :
    expression.element.blueprint = expression.blueprint := by
  cases expression
  case playerCollection players => cases players <;> rfl
  case zoneCollection zones => cases zones <;> rfl
  case cardCollection cards => cases cards <;> rfl
  all_goals rfl

theorem requiredNames_element (expression : Expression) :
    expression.element.requiredNames = expression.requiredNames := by
  cases expression
  case playerCollection players => cases players <;> rfl
  case zoneCollection zones => cases zones <;> rfl
  case cardCollection cards => cases cards <;> rfl
  all_goals rfl

/-- Where the members of a collection are of the category of an expression, there is a collection of
that single member. -/
theorem exists_single_of_element? {expression : Expression} {category : Category}
    (h : category.element? = some expression.category) :
    ∃ collection, expression.single? = some collection ∧ collection.category = category := by
  cases category <;> cases expression <;> first | exact ⟨_, rfl, rfl⟩ | cases h

end Expression

namespace Reader

open Reading

variable {reader : Reader} {workspace : Workspace} {node : NodeId} {spot : Spot} {kind : BlockKind}
variable {category found : Category} {visible : List (Category × String)}

/-- The expression of a category for which a block stands whose kind and category are known. -/
def expressionAt (reader : Reader) (category : Category) (spot : Spot) (kind : BlockKind)
    (found : Category) : Reading (Option Expression) :=
  match category with
  | .number => (reader.numberAt spot kind found).mapSome .number
  | .boolean => (reader.booleanAt spot kind found).mapSome .boolean
  | .player => (reader.playerAt spot kind found).mapSome .player
  | .playerCollection => (reader.playerCollectionAt spot kind found).mapSome .playerCollection
  | .zone => (reader.zoneAt spot kind found).mapSome .zone
  | .zoneCollection => (reader.zoneCollectionAt spot kind found).mapSome .zoneCollection
  | .card => (reader.cardAt spot kind found).mapSome .card
  | .cardCollection => (reader.cardCollectionAt spot kind found).mapSome .cardCollection
  | .rank => (reader.rankAt spot kind found).mapSome .rank
  | .suit => (reader.suitAt spot kind found).mapSome .suit

theorem expression_eq (reader : Reader) (spot : Spot) (category : Category) :
    reader.expression spot category = (reader.checkValue spot category).andThen
      fun (kind, found) => reader.expressionAt category spot kind found := rfl

/-! ## Places for other categories -/

/-- A block whose value fits one place has the same kind and category for every other place, and is
refused there if the value does not fit. -/
theorem checkValue_eq_typeMismatch {expected : Category}
    (hFound : reader.checkValue spot found = pure (some (kind, found)))
    (hRefused : expected.accepts found = false) :
    reader.checkValue spot expected = reader.typeMismatch spot expected found := by
  unfold checkValue at hFound ⊢
  obtain ⟨kind', hKind, hRest⟩ := exists_of_andThen_eq_pure hFound
  obtain ⟨found', hCategory, hFits⟩ := exists_of_andThen_eq_pure hRest
  have hSame : found' = found := by
    split at hFits
    · cases hFits
      rfl
    · cases congrArg Reading.value hFits
  rw [hKind, pure_andThen]
  dsimp only
  rw [hCategory, pure_andThen, hSame, hRefused]
  rfl

theorem Outputs.expression_mismatch (hOutputs : reader.Outputs node kind found)
    (hSelf : found.accepts found = true) (hRefused : category.accepts found = false) :
    reader.readExpression node category =
      ⟨none, [⟨node, reader.view.shownTag node, [], .error, .typeMismatch "value" category found⟩],
        true⟩ := by
  rw [readExpression, expression_eq, checkValue_eq_typeMismatch (hOutputs [] found hSelf) hRefused]
  rfl

/-! ## Places for the category that was drawn -/

/-- What is read at a block of a known category is read as an expression, too. -/
theorem ReadsAt.readExpression {value : Expression} {names : List String}
    {unresolved : List (Category × String)}
    (h : reader.ReadsAt (reader.expressionAt category) node found value names unresolved)
    (hAccepts : category.accepts found = true) :
    reader.Recovers (reader.readExpression node category) (some value) names unresolved := by
  obtain ⟨kind, hOutputs, hRead⟩ := h
  rw [Reader.readExpression, expression_eq, hOutputs [] category hAccepts, pure_andThen]
  exact hRead []

variable (hOver : reader.Over workspace)

include hOver

/-- What was drawn for an expression is read at its own category. -/
theorem readsAt_expression (expression : Expression)
    (hDrawn : workspace.Drawn node expression.blueprint) (hSees : reader.Sees node visible) :
    reader.ReadsAt (reader.expressionAt expression.element.category) node
      expression.element.category expression.element expression.requiredNames
      (missing visible expression.references) := by
  cases expression with
  | number number => exact (readsAt_number hOver number hDrawn hSees).single fun _ _ => rfl
  | boolean condition => exact (readsAt_boolean hOver condition hDrawn hSees).single fun _ _ => rfl
  | player player => exact (readsAt_player hOver player hDrawn hSees).single fun _ _ => rfl
  | zone zone => exact (readsAt_zone hOver zone hDrawn hSees).single fun _ _ => rfl
  | card card => exact (readsAt_card hOver card hDrawn hSees).single fun _ _ => rfl
  | rank rank => exact (readsAt_rank hOver rank hDrawn hSees).single fun _ _ => rfl
  | suit suit => exact (readsAt_suit hOver suit hDrawn hSees).single fun _ _ => rfl
  | playerCollection players =>
    have hPlayers := readsAt_playerCollection hOver players hDrawn hSees
    cases players with
    | single player => exact (readsAt_player hOver player hDrawn hSees).single fun _ _ => rfl
    | allPlayers | var _ => exact hPlayers.single fun _ _ => rfl
  | zoneCollection zones =>
    have hZones := readsAt_zoneCollection hOver zones hDrawn hSees
    cases zones with
    | single zone => exact (readsAt_zone hOver zone hDrawn hSees).single fun _ _ => rfl
    | ofType _ | var _ => exact hZones.single fun _ _ => rfl
  | cardCollection cards =>
    have hCards := readsAt_cardCollection hOver cards hDrawn hSees
    cases cards with
    | single card => exact (readsAt_card hOver card hDrawn hSees).single fun _ _ => rfl
    | var _ | allInZone _ | topInZone _ | bottomInZone _ | matchingSuit _ _ | matchingRank _ _ =>
      exact hCards.single fun _ _ => rfl

/-- What was drawn for an element is read as the collection of it alone, too. -/
theorem readsAt_single {expression collection : Expression}
    (hSingle : expression.single? = some collection)
    (hDrawn : workspace.Drawn node expression.blueprint) (hSees : reader.Sees node visible) :
    reader.ReadsAt (reader.expressionAt collection.category) node expression.category collection
      expression.requiredNames (missing visible expression.references) := by
  cases expression with
  | player player =>
    cases hSingle
    exact (readsAt_playerCollection hOver (.single player) hDrawn hSees).single fun _ _ => rfl
  | zone zone =>
    cases hSingle
    exact (readsAt_zoneCollection hOver (.single zone) hDrawn hSees).single fun _ _ => rfl
  | card card =>
    cases hSingle
    exact (readsAt_cardCollection hOver (.single card) hDrawn hSees).single fun _ _ => rfl
  | number _ | boolean _ | playerCollection _ | zoneCollection _ | cardCollection _ | rank _
  | suit _ => cases hSingle

end Reader

namespace Category

theorem accepts_of_element? {category member : Category} (h : category.element? = some member) :
    category.accepts member = true := by
  simp [accepts, h]

theorem accepts_eq_false {category found : Category} (hOther : category ≠ found)
    (hElement : category.element? ≠ some found) : category.accepts found = false := by
  simp [accepts, hOther, hElement]

end Category

namespace Workspace

/-- **Expressions are read back at every category.** After any run of commands, drawing an
expression without empty names is never refused. At the category of what was drawn, its block is
read as just that. At the category of the collections whose members are of that category, it is read
as the collection of this single member. At any other category nothing is read, and the one thing
that is reported is that the category is not the expected one. -/
theorem run_readExpression_drawn (commands : List Command) (expression : Expression)
    (hNames : "" ∉ expression.requiredNames) :
    ∃ after root,
      EditableGraph.insertBlock (run commands) expression.blueprint = (after, .ok root) ∧
      let drawn := expression.element
      let reading := (Reader.ofView after.view .canonical .unchecked).readExpression root
      reading drawn.category = ⟨some drawn, [], true⟩ ∧
      (∀ category : Category, category.element? = some drawn.category →
        ∃ collection, drawn.single? = some collection ∧ collection.category = category ∧
          reading category = ⟨some collection, [], true⟩) ∧
      ∀ category : Category, category ≠ drawn.category → category.element? ≠ some drawn.category →
        reading category =
          ⟨none, [⟨root, after.view.shownTag root, [], .error,
            .typeMismatch "value" category drawn.category⟩], true⟩ := by
  have hDistinct := expression.distinct_blueprint
  obtain ⟨hInsert, hForest⟩ := (Forest.run commands).insertBlock_eq hDistinct
  have hDrawn :
      ((run commands).extend (expression.blueprint.layout (run commands).size none none)).Drawn
        (run commands).size expression.blueprint := drawn_extend hDistinct
  refine ⟨_, _, hInsert, ?_⟩
  generalize (run commands).extend _ = after at hForest hDrawn
  generalize (run commands).size = root at hDrawn
  intro drawn reading
  have hOver := Reader.over_ofView hForest Vocabulary.kind?_canonical_tag .unchecked
  have hSees : (Reader.ofView after.view .canonical .unchecked).Sees root [] :=
    Reader.sees_of_unchecked rfl root []
  have hFinished : ∀ category, (reading category).finished = true :=
    (Reader.finished_closed _).expression
  have hOwn := Reader.readsAt_expression hOver expression hDrawn hSees
  refine ⟨?_, fun category hElement => ?_, fun category hOther hElement => ?_⟩
  · exact (hOwn.readExpression drawn.category.accepts_self).eq_clean rfl hNames (hFinished _)
  · obtain ⟨collection, hSingle, rfl⟩ := Expression.exists_single_of_element? hElement
    rw [← expression.blueprint_element] at hDrawn
    rw [← expression.requiredNames_element] at hNames
    have hCollection := Reader.readsAt_single hOver hSingle hDrawn hSees
    exact ⟨collection, hSingle, rfl,
      (hCollection.readExpression (Category.accepts_of_element? hElement)).eq_clean rfl hNames
        (hFinished _)⟩
  · obtain ⟨kind, hOutputs, -⟩ := hOwn
    exact hOutputs.expression_mismatch drawn.category.accepts_self
      (Category.accepts_eq_false hOther hElement)

/-- The cards of a single one that a variable holds are drawn as that card, in a workspace that has
another block. -/
theorem run_readExpression_drawn_topCard :
    let commands : List Command := [.edit (.create BlockKind.shuffle.tag)]
    let expression : Expression := .cardCollection (.single (.var "top"))
    "" ∉ expression.requiredNames ∧
      ∃ after root,
        EditableGraph.insertBlock (run commands) expression.blueprint = (after, .ok root) ∧
        let reading := (Reader.ofView after.view .canonical .unchecked).readExpression root
        reading .card = ⟨some (.card (.var "top")), [], true⟩ ∧
        reading .cardCollection = ⟨some expression, [], true⟩ ∧
        reading .rank =
          ⟨none, [⟨root, after.view.shownTag root, [], .error, .typeMismatch "value" .rank .card⟩],
            true⟩ := by
  intro commands expression
  have hNames : "" ∉ expression.requiredNames := by decide
  obtain ⟨after, root, hInsert, hOwn, hCollection, hOther⟩ :=
    run_readExpression_drawn commands expression hNames
  obtain ⟨collection, hSingle, -, hReading⟩ := hCollection .cardCollection rfl
  cases hSingle
  exact ⟨hNames, after, root, hInsert, hOwn, hReading, hOther .rank (by decide) (by decide)⟩

end Workspace

end RuleBlocks
