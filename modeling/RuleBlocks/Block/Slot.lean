/-!
# Fields, inputs and settings

The names of the fields and inputs of blocks, and the settings that some fields may hold. A field
holds a text; an input holds a block, or the first block of a chain.
-/

namespace RuleBlocks

namespace Field

/-- The name of a phase, in its hat. -/
abbrev phase : String := "PHASE"

/-- The name of the phase that is entered. -/
abbrev phaseName : String := "PHASE_NAME"

/-- The name of the number that is set. -/
abbrev name : String := "NAME"

abbrev cards : String := "CARDS"

abbrev playerName : String := "PLAYER_NAME"

abbrev prompt : String := "PROMPT"

/-- The name that a selection binds. -/
abbrev selectedAs : String := "AS"

/-- The tag of the category that a selection binds. -/
abbrev choiceType : String := "CHOICE_TYPE"

abbrev number : String := "NUM"

/-- The name of the number that is read. -/
abbrev numberName : String := "VAR_NAME"

/-- A truth value. -/
abbrev boolean : String := "BOOL"

abbrev comparison : String := "OP"

abbrev typeName : String := "TYPE_NAME"

/-- The tag of the category of a typed value. -/
abbrev category : String := "TYPE"

abbrev variableName : String := "VARIABLE"

abbrev zoneName : String := "ZONE_NAME"

abbrev zoneType : String := "ZONE_TYPE"

/-- Which cards of a zone are taken. -/
abbrev selector : String := "SELECTOR"

abbrev rank : String := "RANK"

abbrev suit : String := "SUIT"

end Field

namespace Input

abbrev value : String := "VALUE"

abbrev condition : String := "CONDITION"

abbrev goTrue : String := "GO_TRUE"

abbrev goFalse : String := "GO_FALSE"

abbrev body : String := "DO"

abbrev zones : String := "ZONES"

abbrev dest : String := "DEST"

/-- Where cards come from, or what is selected from. -/
abbrev source : String := "SOURCE"

abbrev count : String := "NUM_CARDS"

/-- A player, or the players that win. -/
abbrev player : String := "PLAYER"

/-- How many players are passed on. -/
abbrev advance : String := "ADVANCE"

abbrev offerTo : String := "OFFER_TO"

abbrev cases : String := "CASES"

abbrev filter : String := "FILTER"

abbrev offers : String := "OFFERS"

abbrev actions : String := "ACTIONS"

abbrev cards : String := "CARD_COLLECTION"

abbrev left : String := "A"

abbrev right : String := "B"

abbrev zone : String := "ZONE"

abbrev suit : String := "SUIT"

abbrev rank : String := "RANK"

abbrev card : String := "CARD"

end Input

namespace Setting

abbrev allAllowed : String := "ALL"

abbrev true : String := "TRUE"

abbrev false : String := "FALSE"

abbrev selectAll : String := "ALL"

abbrev selectTop : String := "TOP"

abbrev selectBottom : String := "BOTTOM"

end Setting

end RuleBlocks
