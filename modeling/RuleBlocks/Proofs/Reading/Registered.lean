import RuleBlocks.Proofs.Reading.Synonyms
import RuleBlocks.Proofs.Scope.Forest

/-!
# One more global

To register one more global is to say that a name of a category is known everywhere. It comes after
all other bindings, so a name refers to what it referred to before, and the new name refers to the
new global only where it referred to nothing (`Scope.resolve_register`). So a reader that knows one
more global reads the same, in any graph, and reports the same, in the same order, except that it no
longer warns about this name of this category (`Reader.registered_settles`).
-/

namespace RuleBlocks

/-! ## Names in scope -/

namespace Scope

/-- The scope with one more global, after all others. -/
def register (scope : Scope) (global : Binding) : Scope :=
  { scope with globals := scope.globals ++ [global] }

variable {scope : Scope} {global : Binding}

theorem ofView_registered (view : View) (vocabulary : Vocabulary)
    (registered : List (Category × String)) (category : Category) (name : String) :
    ofView view vocabulary (registered ++ [(category, name)]) =
      (ofView view vocabulary registered).register ⟨name, category, none⟩ := by
  unfold ofView register
  simp

theorem find?_filter_singleton (category : Category) (name : String) :
    (([global].filter fun binding => binding.category = category).find?
      fun binding => binding.name = name) =
        if global.category = category ∧ global.name = name then some global else none := by
  by_cases hCategory : global.category = category <;> by_cases hName : global.name = name <;>
    simp [hCategory, hName]

/-- **One more global is found only where nothing else is.** -/
theorem resolve_register (node : NodeId) (category : Category) (name : String) :
    (scope.register global).resolve node category name =
      (scope.resolve node category name).map fun found? =>
        found?.or
          (if global.category = category ∧ global.name = name then some global else none) := by
  have hSame : (scope.register global).view.Synonymous (scope.register global).vocabulary
      scope.view scope.vocabulary := ⟨rfl, fun _ => rfl, fun _ _ => rfl⟩
  have hGlobals : ((scope.register global).globals.filter fun binding =>
      binding.category = category) =
        (scope.globals.filter fun binding => binding.category = category) ++
          [global].filter fun binding => binding.category = category := List.filter_append _ _
  unfold resolve names
  simp only [hSame.size, enclosures_eq hSame, chainMember?_eq hSame, bindings_eq hSame, hGlobals]
  cases scope.enclosures scope.view.size node with
  | none => rfl
  | some around =>
    simp only [Except.map]
    rw [find?_firstOfEachName List.not_mem_nil, find?_firstOfEachName List.not_mem_nil,
      ← List.append_assoc, List.find?_append, find?_filter_singleton]

end Scope

/-! ## Readings -/

/-- The diagnostic warns that a name of a category refers to nothing. -/
def Diagnostic.Misses (category : Category) (name : String) (diagnostic : Diagnostic) : Prop :=
  diagnostic.severity = .warning ∧ diagnostic.error = .unresolvedVariable name category

instance (category : Category) (name : String) : DecidablePred (Diagnostic.Misses category name) :=
  fun _ => inferInstanceAs (Decidable (_ ∧ _))

/-- The second reports are the first ones without the warnings that a name of a category refers to
nothing. -/
def WithoutMissing (category : Category) (name : String) (before after : List Diagnostic) : Prop :=
  after = before.filter fun diagnostic => ¬ diagnostic.Misses category name

namespace WithoutMissing

variable {category : Category} {name : String}

theorem additive : Reading.Additive (WithoutMissing category name) where
  nil := rfl
  append hFirst hMore := by
    unfold WithoutMissing at *
    rw [List.filter_append, ← hFirst, ← hMore]

/-- What is no such warning stays. -/
theorem stays {diagnostic : Diagnostic} (h : ¬ diagnostic.Misses category name) :
    WithoutMissing category name [diagnostic] [diagnostic] := by
  simp [WithoutMissing, h]

theorem error {diagnostic : Diagnostic} (hError : diagnostic.isError = true) :
    WithoutMissing category name [diagnostic] [diagnostic] := by
  apply stays
  rintro ⟨hWarning, -⟩
  simp [Diagnostic.isError, hWarning] at hError

end WithoutMissing

namespace Reader

/-- The check of a reference against one more global reports the same, unless it is the global that
was missing. -/
theorem checkReference_register (view : View) (vocabulary : Vocabulary) (scope : Scope)
    (category : Category) (name : String) (spot : Spot) (asked : Category) (askedName : String) :
    WithoutMissing category name
      (checkReference ⟨view, vocabulary, some scope⟩ spot asked askedName).diagnostics
      (checkReference ⟨view, vocabulary, some (scope.register ⟨name, category, none⟩)⟩ spot asked
        askedName).diagnostics := by
  unfold checkReference
  simp only [Scope.resolve_register]
  cases hFound : scope.resolve spot.node asked askedName with
  | error error => exact WithoutMissing.stays fun hMisses => nomatch hMisses.2
  | ok found? =>
    cases found? with
    | some binding => exact WithoutMissing.additive.nil
    | none =>
      by_cases hAsked : category = asked ∧ name = askedName
      · obtain ⟨rfl, rfl⟩ := hAsked
        simp [Except.map, WithoutMissing, report, Diagnostic.Misses]
      · simp only [Except.map, Option.none_or, if_neg hAsked]
        apply WithoutMissing.stays
        rintro ⟨-, hError⟩
        cases hError
        exact hAsked ⟨rfl, rfl⟩

/-- **One more global takes away its own warnings and nothing else.** Whatever is read from a graph,
with whatever vocabulary and globals, the value is the same if one more global is registered. The
diagnostics are then the same in the same order, without the warnings that this name of this
category refers to nothing. -/
theorem registered_settles (view : View) (vocabulary : Vocabulary)
    (globals : List (Category × String)) (category : Category) (name : String) :
    (ofView view vocabulary ⟨true, globals⟩).ReadAlike
      (ofView view vocabulary ⟨true, globals ++ [(category, name)]⟩)
      (Reading.Alike (WithoutMissing category name)) := by
  have hAfter : ofView view vocabulary ⟨true, globals ++ [(category, name)]⟩ =
      ⟨view, vocabulary, some ((Scope.ofView view vocabulary globals).register
        ⟨name, category, none⟩)⟩ := by
    rw [← Scope.ofView_registered]
    rfl
  rw [hAfter]
  have hChecked := checkReference_register view vocabulary (Scope.ofView view vocabulary globals)
    category name
  exact readAlike_of_inStep
    (inStep_of_scopes WithoutMissing.additive (fun _ => WithoutMissing.error) hChecked)

end Reader

end RuleBlocks
