import RuleBlocks.Program.Expression
import RuleBlocks.Reading.Basic
import RuleBlocks.Text.Decimal

/-!
# Reading expressions

For every category there is a reader of the block at a spot, whose kind and category are known and
fit, and a reader of the input that holds such a block. Parts of a block are read one after the
other, even if one of them turns out to be faulty, so that all faults are reported.
-/

namespace RuleBlocks.Reader

open Reading (parts)

/-- Which cards of a zone a setting takes. -/
def selection? (setting : String) : Option (ZoneExpression → CardCollectionExpression) :=
  if setting = Setting.selectAll then some .allInZone
  else if setting = Setting.selectTop then some .topInZone
  else if setting = Setting.selectBottom then some .bottomInZone
  else none

/-- The truth value of a setting. -/
def boolean? (setting : String) : Option Bool :=
  if setting = Setting.true then some true
  else if setting = Setting.false then some false
  else none

/-! ## Players -/

def playerAt (reader : Reader) (spot : Spot) (kind : BlockKind) (found : Category) :
    Reading (Option PlayerExpression) :=
  match kind with
  | .currentPlayer => pure (some .currentPlayer)
  | .getTyped => (reader.reference spot Field.variableName .player).mapSome .var
  | _ => reader.typeMismatch spot .player found

def player (reader : Reader) (spot : Spot) (input : String) : Reading (Option PlayerExpression) :=
  reader.socket spot input .player reader.playerAt

def playerCollectionAt (reader : Reader) (spot : Spot) (kind : BlockKind) (found : Category) :
    Reading (Option PlayerCollectionExpression) :=
  if found = .player then (reader.playerAt spot kind found).mapSome .single
  else
    match kind with
    | .allPlayers => pure (some .allPlayers)
    | .getTyped => (reader.reference spot Field.variableName .playerCollection).mapSome .var
    | _ => reader.typeMismatch spot .playerCollection found

def playerCollection (reader : Reader) (spot : Spot) (input : String) :
    Reading (Option PlayerCollectionExpression) :=
  reader.socket spot input .playerCollection reader.playerCollectionAt

/-! ## Zones -/

def zoneAt (reader : Reader) (spot : Spot) (kind : BlockKind) (found : Category) :
    Reading (Option ZoneExpression) :=
  match kind with
  | .zoneForPlayer =>
    ((parts fun zoneName player => ZoneExpression.ownedByPlayer player zoneName).and
      (reader.requiredField spot Field.zoneName)).and
      (reader.player spot Input.player)
  | .getTyped => (reader.reference spot Field.variableName .zone).mapSome .var
  | _ => reader.typeMismatch spot .zone found

def zone (reader : Reader) (spot : Spot) (input : String) : Reading (Option ZoneExpression) :=
  reader.socket spot input .zone reader.zoneAt

def zoneCollectionAt (reader : Reader) (spot : Spot) (kind : BlockKind) (found : Category) :
    Reading (Option ZoneCollectionExpression) :=
  if found = .zone then (reader.zoneAt spot kind found).mapSome .single
  else
    match kind with
    | .zonesOfType => (reader.requiredField spot Field.zoneType).mapSome .ofType
    | .getTyped => (reader.reference spot Field.variableName .zoneCollection).mapSome .var
    | _ => reader.typeMismatch spot .zoneCollection found

def zoneCollection (reader : Reader) (spot : Spot) (input : String) :
    Reading (Option ZoneCollectionExpression) :=
  reader.socket spot input .zoneCollection reader.zoneCollectionAt

/-! ## Cards -/

def cardAt (reader : Reader) (spot : Spot) (kind : BlockKind) (found : Category) :
    Reading (Option CardExpression) :=
  match kind with
  | .getTyped => (reader.reference spot Field.variableName .card).mapSome .var
  | _ => reader.typeMismatch spot .card found

def card (reader : Reader) (spot : Spot) (input : String) : Reading (Option CardExpression) :=
  reader.socket spot input .card reader.cardAt

def rankAt (reader : Reader) (spot : Spot) (kind : BlockKind) (found : Category) :
    Reading (Option RankExpression) :=
  match kind with
  | .rankLiteral => (reader.parsedField spot Field.rank Rank.ofName?).mapSome .literal
  | .rankFromCard => (reader.card spot Input.card).mapSome .ofCard
  | _ => reader.typeMismatch spot .rank found

def rank (reader : Reader) (spot : Spot) (input : String) : Reading (Option RankExpression) :=
  reader.socket spot input .rank reader.rankAt

def suitAt (reader : Reader) (spot : Spot) (kind : BlockKind) (found : Category) :
    Reading (Option SuitExpression) :=
  match kind with
  | .suitLiteral => (reader.parsedField spot Field.suit Suit.ofName?).mapSome .literal
  | .suitFromCard => (reader.card spot Input.card).mapSome .ofCard
  | _ => reader.typeMismatch spot .suit found

def suit (reader : Reader) (spot : Spot) (input : String) : Reading (Option SuitExpression) :=
  reader.socket spot input .suit reader.suitAt

def cardCollectionAt (reader : Reader) (spot : Spot) (kind : BlockKind) (found : Category) :
    Reading (Option CardCollectionExpression) :=
  if found = .card then (reader.cardAt spot kind found).mapSome .single
  else
    match kind with
    | .getTyped => (reader.reference spot Field.variableName .cardCollection).mapSome .var
    | .cardSelector =>
      (reader.parsedField spot Field.selector selection?).and (reader.zone spot Input.zone)
    | .cardsMatchingSuit =>
      ((parts CardCollectionExpression.matchingSuit).and (reader.zone spot Input.zone)).and
        (reader.suit spot Input.suit)
    | .cardsMatchingRank =>
      ((parts CardCollectionExpression.matchingRank).and (reader.zone spot Input.zone)).and
        (reader.rank spot Input.rank)
    | _ => reader.typeMismatch spot .cardCollection found

def cardCollection (reader : Reader) (spot : Spot) (input : String) :
    Reading (Option CardCollectionExpression) :=
  reader.socket spot input .cardCollection reader.cardCollectionAt

/-! ## Numbers and conditions -/

def numberAt (reader : Reader) (spot : Spot) (kind : BlockKind) (found : Category) :
    Reading (Option NumberExpression) :=
  match kind with
  | .numberLiteral =>
    (reader.parsedField spot Field.number Text.Decimal.readWord?).mapSome .literal
  | .getNumber => (reader.reference spot Field.numberName .number).mapSome .var
  | .getTyped => (reader.reference spot Field.variableName .number).mapSome .var
  | .cardCount => (reader.cardCollection spot Input.cards).mapSome .cardsIn
  | _ => reader.typeMismatch spot .number found

def number (reader : Reader) (spot : Spot) (input : String) : Reading (Option NumberExpression) :=
  reader.socket spot input .number reader.numberAt

def booleanAt (reader : Reader) (spot : Spot) (kind : BlockKind) (found : Category) :
    Reading (Option BooleanExpression) :=
  match kind with
  | .booleanLiteral => (reader.parsedField spot Field.boolean boolean?).mapSome .literal
  | .compare =>
    (((parts fun comparedTo left right => BooleanExpression.comparison left comparedTo right).and
      (reader.parsedField spot Field.comparison Comparison.ofCode?)).and
      (reader.number spot Input.left)).and
      (reader.number spot Input.right)
  | .playerOfType =>
    ((parts fun typeName player => BooleanExpression.playerIsType player typeName).and
      (reader.requiredField spot Field.typeName)).and
      (reader.player spot Input.player)
  | _ => reader.typeMismatch spot .boolean found

def boolean (reader : Reader) (spot : Spot) (input : String) :
    Reading (Option BooleanExpression) :=
  reader.socket spot input .boolean reader.booleanAt

/-! ## Any category -/

/-- The expression of a category that a block stands for. -/
def expression (reader : Reader) (spot : Spot) (category : Category) :
    Reading (Option Expression) :=
  (reader.checkValue spot category).andThen fun (kind, found) =>
    match category with
    | .number => (reader.numberAt spot kind found).mapSome .number
    | .boolean => (reader.booleanAt spot kind found).mapSome .boolean
    | .player => (reader.playerAt spot kind found).mapSome .player
    | .playerCollection => (reader.playerCollectionAt spot kind found).mapSome .playerCollection
    | .zone => (reader.zoneAt spot kind found).mapSome .zone
    | .zoneCollection => (reader.zoneCollectionAt spot kind found).mapSome .zoneCollection
    | .card => (reader.cardAt spot kind found).mapSome .card
    | .cardCollection => (reader.cardCollectionAt spot kind found).mapSome .cardCollection
    | .rank => (reader.rankAt spot kind found).mapSome .rank
    | .suit => (reader.suitAt spot kind found).mapSome .suit

end RuleBlocks.Reader
