import RuleBlocks.Block.Selection
import RuleBlocks.Graph.View

/-!
# Names in scope

Which names a block can refer to. An offer binds the name of its player in its cases. A case binds
the names of its selections in its statements and in its other choices: a choice never sees the name
that it binds itself. Numbers that are set anywhere, and globals that are registered, are known
everywhere. Of several bindings of a name the innermost counts.

Scopes are read off the graph alone: from a block one goes to the block that holds its chain, and on
from there. If that leads on for more steps than the graph has blocks, the graph runs in a circle.
-/

namespace RuleBlocks

/-- What a name refers to: its category and the block that binds it; no block for a registered
global. -/
structure Binding where
  name : String
  category : Category
  binder? : Option NodeId
deriving DecidableEq, Repr, Inhabited

/-- Why names cannot be resolved. -/
inductive ScopeError where
  | enclosureCycle (node : NodeId) (limit : Nat)
deriving DecidableEq, Repr, Inhabited

def ScopeError.message : ScopeError → String
  | enclosureCycle node limit =>
    "Walking the enclosing nodes of " ++ node.text ++ " exceeded " ++ limit.repr ++
      " steps; the graph's parent relation is cyclic"

/-- A graph in which names are resolved, with the names that are known everywhere. -/
structure Scope where
  view : View
  vocabulary : Vocabulary
  globals : List Binding

namespace Scope

/-- The binding of the number that a block sets. -/
def numberBinding? (view : View) (vocabulary : Vocabulary) (node : NodeId) : Option Binding :=
  if view.kind? vocabulary node = some .setNumber then
    (view.filledField? node Field.name).map fun name => ⟨name, .number, some node⟩
  else none

/-- The scope of a graph in which further globals are registered. -/
def ofView (view : View) (vocabulary : Vocabulary) (registered : List (Category × String)) :
    Scope where
  view := view
  vocabulary := vocabulary
  globals :=
    view.nodes.filterMap (numberBinding? view vocabulary) ++
      registered.map fun (category, name) => ⟨name, category, none⟩

/-- The blocks around a block, from the innermost outwards, each after the block from which it was
reached. Nothing if there are more of them than the limit allows. -/
def enclosures (scope : Scope) : Nat → NodeId → Option (List (NodeId × NodeId))
  | limit, node =>
    match scope.view.enclosing? node with
    | none => some []
    | some holder =>
      match limit with
      | 0 => none
      | limit + 1 => (enclosures scope limit holder).map ((node, holder) :: ·)

/-- The member of a chain of a block through which one gets from a block to its holder: the first
one on the way up that is attached to the holder or is next to another member. -/
def chainMember? (scope : Scope) (holder : NodeId) : Nat → NodeId → Option NodeId
  | 0, _ => none
  | limit + 1, node =>
    match scope.view.owner? node with
    | none => none
    | some owner =>
      if owner = holder ∨ scope.view.previous? node = some owner then some node
      else chainMember? scope holder limit owner

/-- The binding of the player of an offer. -/
def playerBindings (scope : Scope) (offer : NodeId) : List Binding :=
  ((scope.view.filledField? offer Field.playerName).map fun name =>
    ⟨name, .player, some offer⟩).toList

/-- The binding of a selection, if it is one of the given category. -/
def selectionBinding? (scope : Scope) (category : Category) (choice : NodeId) : Option Binding :=
  if scope.view.kind? scope.vocabulary choice = some .choiceSelection then do
    let name ← scope.view.filledField? choice Field.selectedAs
    let tag ← scope.view.field? choice Field.choiceType
    let categories ← SelectionCategories.ofTag? tag
    if categories.bound = category then some ⟨name, category, some choice⟩ else none
  else none

/-- The bindings that a block gives to what it holds, seen from a member of one of its chains. -/
def bindings (scope : Scope) (category : Category) (holder : NodeId) (member? : Option NodeId) :
    List Binding :=
  match scope.view.kind? scope.vocabulary holder with
  | some .offer => if category = .player then scope.playerBindings holder else []
  | some .offerCase | some .openOfferCase =>
    let choices := scope.view.chain scope.view.size (scope.view.input? holder Input.offers)
    (choices.filter fun choice => member? ≠ some choice).filterMap
      (scope.selectionBinding? category)
  | _ => []

/-- The first binding of every name, except for names that have been seen. -/
def firstOfEachName : (seen : List String) → List Binding → List Binding
  | _, [] => []
  | seen, binding :: rest =>
    if binding.name ∈ seen then firstOfEachName seen rest
    else binding :: firstOfEachName (binding.name :: seen) rest

/-- The names of a category to which a block can refer, the innermost first. -/
def names (scope : Scope) (node : NodeId) (category : Category) :
    Except ScopeError (List Binding) :=
  let limit := scope.view.size
  match scope.enclosures limit node with
  | none => .error (.enclosureCycle node limit)
  | some enclosures =>
    let inner := enclosures.flatMap fun (inside, holder) =>
      scope.bindings category holder (scope.chainMember? holder limit inside)
    let outer := scope.globals.filter fun binding => binding.category = category
    .ok (firstOfEachName [] (inner ++ outer))

/-- What a name refers to at a block. -/
def resolve (scope : Scope) (node : NodeId) (category : Category) (name : String) :
    Except ScopeError (Option Binding) :=
  (scope.names node category).map fun bindings =>
    bindings.find? fun binding => binding.name = name

end Scope

end RuleBlocks
