import RuleBlocks.Proofs.RoundTrip.Lossless

/-!
# Lexical scope and the scope of a graph

A reader that checks references sees nothing of the program: it only walks through the graph. Still,
what it reports for a drawn statement are just the references that lead nowhere in the statement
itself (`Statement.roundTrip_unresolved`).
-/

namespace RuleBlocks.Statement

open Blueprint

/-- From the outside of a drawn statement the numbers that it sets and the registered globals are
seen. -/
theorem seesOutside_drawn {statement : Statement} (hNames : "" ∉ statement.requiredNames)
    (globals : List (Category × String)) :
    (statement.drawnReader ⟨true, globals⟩).SeesOutside
      (statement.setNumbers.map (Category.number, ·) ++ globals) := by
  have hSet : (chainLayout 0 none statement.blueprints).filterMap Block.setNumber? =
      statement.setNumbers := by
    rw [filterMap_setNumber?_chainLayout, chainSetNumbers_blueprints]
  have hFilled : "" ∉ (chainLayout 0 none statement.blueprints).filterMap Block.setNumber? := by
    rw [hSet]
    exact fun hEmpty => hNames (statement.setNumbers_subset hEmpty)
  have hSees := Reader.seesOutside_drawn statement.forest_drawn hFilled globals
  rwa [hSet] at hSees

/-- **The scopes of the graph are the lexical scopes of the statement.** If references are checked
where a statement without empty names is drawn, then the statement is read, and what is reported are
the references that lead nowhere in it, each once and as a warning. -/
theorem roundTrip_unresolved (statement : Statement) (globals : List (Category × String))
    (hNames : "" ∉ statement.requiredNames) :
    ∃ trip, statement.roundTrip .canonical ⟨true, globals⟩ = .ok trip ∧
      trip.reading.finished = true ∧ trip.reading.value = statement.normalForm ∧
      trip.reading.faults =
        (statement.unresolved (statement.setNumbers.map (Category.number, ·) ++ globals)).map
          fun (category, name) => (.warning, .unresolvedVariable name category) := by
  have hRecovers := statement.recovers_drawnReading (seesOutside_drawn hNames globals)
  obtain ⟨hValue, hFaults⟩ := hRecovers.clean hNames
  exact ⟨_, statement.roundTrip_eq _, statement.finished_drawnReading _, hValue, hFaults⟩

/-- A selection of cards from a collection of the same name: the choice does not see the name that
it binds, the body of the case does. -/
def selectionFromItself : Statement :=
  .offer .allPlayers (some "player")
    [⟨none, "", [.selection "cards" (.cardSelection (.var "cards"))],
      .moveCards (.var "cards") (.ownedByPlayer (.var "player") "hand")⟩]

theorem selectionFromItself_unresolved :
    "" ∉ selectionFromItself.requiredNames ∧
      ∃ trip, selectionFromItself.roundTrip .canonical ⟨true, []⟩ = .ok trip ∧
        trip.reading.faults = [(.warning, .unresolvedVariable "cards" .cardCollection)] := by
  have hNames : "" ∉ selectionFromItself.requiredNames := by decide
  obtain ⟨trip, hTrip, -, -, hFaults⟩ := roundTrip_unresolved selectionFromItself [] hNames
  exact ⟨hNames, trip, hTrip, hFaults.trans (by decide)⟩

end RuleBlocks.Statement
