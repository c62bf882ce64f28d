import RuleBlocks.Reading.Statement

/-!
# Reading expressions of a known category

For every category, the reading of a block as an expression of that category, with the type of
such expressions.
-/

namespace RuleBlocks.Reader

def readNumber (reader : Reader) (node : NodeId) : Reading (Option NumberExpression) :=
  (·.bind Expression.number?) <$> reader.readExpression node .number

def readBoolean (reader : Reader) (node : NodeId) : Reading (Option BooleanExpression) :=
  (·.bind Expression.boolean?) <$> reader.readExpression node .boolean

def readPlayer (reader : Reader) (node : NodeId) : Reading (Option PlayerExpression) :=
  (·.bind Expression.player?) <$> reader.readExpression node .player

def readPlayerCollection (reader : Reader) (node : NodeId) :
    Reading (Option PlayerCollectionExpression) :=
  (·.bind Expression.playerCollection?) <$> reader.readExpression node .playerCollection

def readZone (reader : Reader) (node : NodeId) : Reading (Option ZoneExpression) :=
  (·.bind Expression.zone?) <$> reader.readExpression node .zone

def readZoneCollection (reader : Reader) (node : NodeId) :
    Reading (Option ZoneCollectionExpression) :=
  (·.bind Expression.zoneCollection?) <$> reader.readExpression node .zoneCollection

def readCard (reader : Reader) (node : NodeId) : Reading (Option CardExpression) :=
  (·.bind Expression.card?) <$> reader.readExpression node .card

def readCardCollection (reader : Reader) (node : NodeId) :
    Reading (Option CardCollectionExpression) :=
  (·.bind Expression.cardCollection?) <$> reader.readExpression node .cardCollection

def readRank (reader : Reader) (node : NodeId) : Reading (Option RankExpression) :=
  (·.bind Expression.rank?) <$> reader.readExpression node .rank

def readSuit (reader : Reader) (node : NodeId) : Reading (Option SuitExpression) :=
  (·.bind Expression.suit?) <$> reader.readExpression node .suit

end RuleBlocks.Reader
