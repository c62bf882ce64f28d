/-!
# Categories of values

Every value of a card game program belongs to one of ten categories. A category has a tag, by which
getters name it, and a display text for messages. Players, zones and cards also have collections; a
place for a collection takes a single element as well.

The main statement is that tags are read back: `ofTag?_tag`.
-/

namespace RuleBlocks

/-- The category of a value. -/
inductive Category where
  | number
  | boolean
  | player
  | playerCollection
  | zone
  | zoneCollection
  | card
  | cardCollection
  | rank
  | suit
deriving DecidableEq, Repr, Inhabited

namespace Category

/-- All categories, in the order in which they are listed. -/
def all : List Category :=
  [number, boolean, player, playerCollection, zone, zoneCollection, card, cardCollection, rank,
    suit]

/-- The tag that names a category in a getter. -/
def tag : Category → String
  | number => "Number"
  | boolean => "Boolean"
  | player => "socs_t_player"
  | playerCollection => "socs_t_player_sel"
  | zone => "socs_t_zone"
  | zoneCollection => "socs_t_zone_sel"
  | card => "socs_t_card"
  | cardCollection => "socs_t_card_sel"
  | rank => "socs_t_rank"
  | suit => "socs_t_suit"

/-- The category with the given tag. -/
def ofTag? (tag : String) : Option Category := all.find? fun category => category.tag = tag

/-- The name of a category in messages. -/
def description : Category → String
  | number => "number"
  | boolean => "boolean"
  | player => "player"
  | playerCollection => "player collection"
  | zone => "zone"
  | zoneCollection => "zone collection"
  | card => "card"
  | cardCollection => "card collection"
  | rank => "rank"
  | suit => "suit"

/-- The category of the members of a collection. -/
def element? : Category → Option Category
  | playerCollection => some player
  | zoneCollection => some zone
  | cardCollection => some card
  | _ => none

/-- A place for one category takes a value of that category, and a place for a collection takes a
single element too. -/
def accepts (expected found : Category) : Bool :=
  expected = found || expected.element? = some found

/-- Whether variables of the category exist. -/
def hasVariables : Category → Bool
  | boolean | rank | suit => false
  | _ => true

@[simp] theorem accepts_self (category : Category) : category.accepts category = true := by
  simp [accepts]

theorem mem_all (category : Category) : category ∈ all := by
  cases category <;> decide

theorem tag_injective {first second : Category} (h : first.tag = second.tag) :
    first = second := by
  cases first <;> cases second <;> simp [tag] at h ⊢

@[simp] theorem ofTag?_tag (category : Category) : ofTag? category.tag = some category := by
  cases category <;> simp [ofTag?, all, tag]

theorem ofTag?_eq_some_iff {text : String} {category : Category} :
    ofTag? text = some category ↔ category.tag = text := by
  constructor
  · intro h
    simpa using List.find?_some h
  · rintro rfl
    exact ofTag?_tag category

end Category

end RuleBlocks
