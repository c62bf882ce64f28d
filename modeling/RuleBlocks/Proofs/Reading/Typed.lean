import RuleBlocks.Proofs.Reading.Ends
import RuleBlocks.Proofs.Reading.Whole
import RuleBlocks.Reading.Typed

/-!
# Reading expressions of a known category

Whatever graph is read, an expression is read as a whole or not at all, and it has the category at
which it is read. So a reader of one category, which drops an expression of any other one without a
word, drops nothing: it reads what is read at its category (`readExpression_typed`).
-/

namespace RuleBlocks

/-- The type of the expressions of a category. -/
abbrev Category.ExpressionType : Category → Type
  | number => NumberExpression
  | boolean => BooleanExpression
  | player => PlayerExpression
  | playerCollection => PlayerCollectionExpression
  | zone => ZoneExpression
  | zoneCollection => ZoneCollectionExpression
  | card => CardExpression
  | cardCollection => CardCollectionExpression
  | rank => RankExpression
  | suit => SuitExpression

namespace Expression

/-- An expression of a known category as one of any category. -/
def ofTyped : (category : Category) → category.ExpressionType → Expression
  | .number => number
  | .boolean => boolean
  | .player => player
  | .playerCollection => playerCollection
  | .zone => zone
  | .zoneCollection => zoneCollection
  | .card => card
  | .cardCollection => cardCollection
  | .rank => rank
  | .suit => suit

/-- The expression itself, if it has a category. -/
def typed? : (category : Category) → Expression → Option category.ExpressionType
  | .number => number?
  | .boolean => boolean?
  | .player => player?
  | .playerCollection => playerCollection?
  | .zone => zone?
  | .zoneCollection => zoneCollection?
  | .card => card?
  | .cardCollection => cardCollection?
  | .rank => rank?
  | .suit => suit?

/-- Nothing of an expression is lost at its own category. -/
theorem map_typed? {expression : Expression} {category : Category}
    (h : expression.category = category) :
    (expression.typed? category).map (ofTyped category) = some expression := by
  subst h
  cases expression <;> rfl

end Expression

namespace Reader

open Reading

/-- The reading of a block as an expression of a category, with the type of such expressions. -/
def readTyped (reader : Reader) (node : NodeId) :
    (category : Category) → Reading (Option category.ExpressionType)
  | .number => reader.readNumber node
  | .boolean => reader.readBoolean node
  | .player => reader.readPlayer node
  | .playerCollection => reader.readPlayerCollection node
  | .zone => reader.readZone node
  | .zoneCollection => reader.readZoneCollection node
  | .card => reader.readCard node
  | .cardCollection => reader.readCardCollection node
  | .rank => reader.readRank node
  | .suit => reader.readSuit node

theorem readTyped_eq (reader : Reader) (node : NodeId) (category : Category) :
    reader.readTyped node category = do
      return (← reader.readExpression node category).bind (Expression.typed? category) := by
  cases category <;> rfl

/-- An expression has the category at which it is read. -/
theorem yields_expression (reader : Reader) (spot : Spot) (category : Category) :
    (reader.expression spot category).Yields fun expression => expression.category = category := by
  refine Yields.andThen fun checked => ?_
  cases category <;> exact Yields.mapSome fun _ _ => rfl

/-- The reader of a category drops nothing of what is read at that category. -/
theorem mapSome_readTyped (reader : Reader) (node : NodeId) (category : Category) :
    (reader.readTyped node category).mapSome (Expression.ofTyped category) =
      reader.readExpression node category := by
  have hCategory := reader.yields_expression ⟨node, []⟩ category
  rw [readTyped_eq]
  unfold readExpression
  generalize reader.expression ⟨node, []⟩ category = reading at hCategory ⊢
  obtain ⟨value?, diagnostics, finished⟩ := reading
  have hValue : (value?.bind (Expression.typed? category)).map (Expression.ofTyped category) =
      value? := by
    cases value? with
    | none => rfl
    | some expression => exact Expression.map_typed? (hCategory expression rfl)
  simp [mapSome, bind, Pure.pure, hValue]

/-- **Expressions are read as a whole or not at all, and well typed.** Reading any block of any
graph at any category comes to an end, whether or not references are checked. It gives nothing just
if an error is reported, and otherwise an expression of that category. The reader of that category
alone gives the same and reports the same; so it, too, gives nothing just if an error is
reported. -/
theorem readExpression_typed (reader : Reader) (node : NodeId) (category : Category) :
    let reading := reader.readExpression node category
    let typed := reader.readTyped node category
    reading.finished = true ∧ (reading.value = none ↔ reading.hasErrors = true) ∧
      (∀ expression, reading.value = some expression → expression.category = category) ∧
      typed.value.map (Expression.ofTyped category) = reading.value ∧
      typed.diagnostics = reading.diagnostics ∧ typed.finished = true ∧
      (typed.value = none ↔ typed.hasErrors = true) := by
  intro reading typed
  have hSame : typed.mapSome (Expression.ofTyped category) = reading :=
    reader.mapSome_readTyped node category
  have hValue : typed.value.map (Expression.ofTyped category) = reading.value := by
    rw [← hSame, value_mapSome]
  have hDiagnostics : typed.diagnostics = reading.diagnostics := by
    rw [← hSame, diagnostics_mapSome]
  have hWhole : reading.value = none ↔ reading.hasErrors = true :=
    reader.allOrNothing_closed.expression category
  have hFinished : reading.finished = true := reader.finished_closed.expression category
  refine ⟨hFinished, hWhole, reader.yields_expression ⟨node, []⟩ category, hValue, hDiagnostics,
    ?_, ?_⟩
  · rwa [← hSame, finished_mapSome] at hFinished
  · rwa [← hValue, Option.map_eq_none_iff, hasErrors, ← hDiagnostics] at hWhole

end Reader

end RuleBlocks
