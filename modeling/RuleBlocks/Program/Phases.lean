import RuleBlocks.NameMap
import RuleBlocks.Program.NormalForm

/-!
# Phases

The rules of a game are given phase by phase: each phase has a name and a statement that is
evaluated when the phase is entered.
-/

namespace RuleBlocks

/-- The statements of the phases of a game, by the names of the phases. -/
abbrev Phases := NameMap Statement

/-- The phases with every statement in normal form. -/
def Phases.normalForm (phases : Phases) : Phases := phases.mapValues Statement.normalForm

end RuleBlocks
