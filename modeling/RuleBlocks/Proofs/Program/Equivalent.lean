import RuleBlocks.Proofs.Basic
import RuleBlocks.Proofs.Program.Names

/-!
# What the normal form decides

Two statements are equivalent if they differ in idle brackets and in empty names of players only:
`Equivalent` is the least congruence in which a sequence of one item is that item, empty items and
inner brackets do not count, and an empty name of a player is no name. The normal form decides it
(`normalForm_eq_iff_equivalent`).

Equivalent statements do the same one after the other (`Equivalent.items_eq`), so they have the same
normal form. In the other direction every statement is equivalent to its own normal form
(`equivalent_ofChain_items`). And the normal form has no idle brackets left, at whatever depth
(`isNormal_normalForm`); what has none is its own normal form (`isNormal_iff`).
-/

namespace RuleBlocks.Statement

/-! ## Equivalent statements -/

/-- Statements that differ in idle brackets and empty names of players only: the least equivalence
that identifies these, and that holds of two statements if it holds of a part of them and the rest
is the same. -/
inductive Equivalent : Statement → Statement → Prop
  | refl (statement : Statement) : Equivalent statement statement
  | symm {first second : Statement} : Equivalent first second → Equivalent second first
  | trans {first second third : Statement} :
      Equivalent first second → Equivalent second third → Equivalent first third
  | noItem : Equivalent (block []) empty
  | oneItem (statement : Statement) : Equivalent (block [statement]) statement
  | emptyItem (before after : List Statement) :
      Equivalent (block (before ++ [empty] ++ after)) (block (before ++ after))
  | innerBlock (before inner after : List Statement) :
      Equivalent (block (before ++ [block inner] ++ after)) (block (before ++ inner ++ after))
  | emptyName (offerTo : PlayerCollectionExpression) (cases : List OfferCase) :
      Equivalent (offer offerTo (some "") cases) (offer offerTo none cases)
  | item {first second : Statement} (before after : List Statement) : Equivalent first second →
      Equivalent (block (before ++ [first] ++ after)) (block (before ++ [second] ++ after))
  | goTrue {first second : Statement} (condition : BooleanExpression) (goFalse : Statement) :
      Equivalent first second →
      Equivalent (conditional condition first goFalse) (conditional condition second goFalse)
  | goFalse {first second : Statement} (condition : BooleanExpression) (goTrue : Statement) :
      Equivalent first second →
      Equivalent (conditional condition goTrue first) (conditional condition goTrue second)
  | body {first second : Statement} (condition : BooleanExpression) : Equivalent first second →
      Equivalent (repeatWhile condition first) (repeatWhile condition second)
  | caseBody {first second : Statement} (offerTo : PlayerCollectionExpression)
      (playerName : Option String) (before after : List OfferCase)
      (condition : Option BooleanExpression) (message : String) (choices : List OfferChoice) :
      Equivalent first second →
      Equivalent
        (offer offerTo playerName (before ++ [⟨condition, message, choices, first⟩] ++ after))
        (offer offerTo playerName (before ++ [⟨condition, message, choices, second⟩] ++ after))

theorem itemsOfAll_append (first second : List Statement) :
    itemsOfAll (first ++ second) = itemsOfAll first ++ itemsOfAll second := by
  induction first with
  | nil => rw [itemsOfAll, List.nil_append, List.nil_append]
  | cons statement rest ih =>
    rw [List.cons_append, itemsOfAll, itemsOfAll, ih, List.append_assoc]

theorem itemsOfAll_singleton (statement : Statement) :
    itemsOfAll [statement] = statement.items := by
  rw [itemsOfAll, itemsOfAll, List.append_nil]

theorem normalCases_append (first second : List OfferCase) :
    normalCases (first ++ second) = normalCases first ++ normalCases second := by
  induction first with
  | nil => rw [normalCases, List.nil_append, List.nil_append]
  | cons offerCase rest ih => rw [List.cons_append, normalCases, normalCases, ih, List.cons_append]

/-- **Equivalent statements do the same one after the other.** -/
theorem Equivalent.items_eq {first second : Statement} (h : Equivalent first second) :
    first.items = second.items := by
  induction h with
  | refl => rfl
  | symm _ ih => exact ih.symm
  | trans _ _ ih ih' => exact ih.trans ih'
  | noItem => simp [items, itemsOfAll]
  | oneItem statement => rw [items, itemsOfAll_singleton]
  | emptyItem before after => simp [items, itemsOfAll_append, itemsOfAll]
  | innerBlock before inner after => simp [items, itemsOfAll_append, itemsOfAll]
  | emptyName offerTo cases => simp [items]
  | item before after _ ih => simp [items, itemsOfAll_append, itemsOfAll, ih]
  | goTrue condition goFalse _ ih => simp [items, ih]
  | goFalse condition goTrue _ ih => simp [items, ih]
  | body condition _ ih => simp [items, ih]
  | caseBody offerTo playerName before after condition message choices _ ih =>
    simp [items, normalCases_append, normalCases, normalCase, ih]

/-! ## A statement and its normal form -/

/-- The brackets around a sequence of fewer than two items are idle. -/
theorem equivalent_ofChain (statements : List Statement) :
    Equivalent (block statements) (ofChain statements) := by
  rcases statements with _ | ⟨first, _ | ⟨second, rest⟩⟩
  · exact .noItem
  · exact .oneItem first
  · exact .refl _

/-- In a sequence it makes no difference whether the items of a chain stand in brackets of their
own. -/
theorem equivalent_block_ofChain (before statements after : List Statement) :
    Equivalent (block (before ++ [ofChain statements] ++ after))
      (block (before ++ statements ++ after)) :=
  .trans (.item before after (equivalent_ofChain statements).symm) (.innerBlock _ _ _)

mutual

/-- A statement does what its items do one after the other. -/
theorem equivalent_ofChain_items : ∀ statement : Statement,
    Equivalent statement (ofChain statement.items)
  | empty => by
    rw [items]
    exact .refl empty
  | block statements => by
    have hItems := equivalent_block_itemsOfAll [] statements
    rw [items]
    exact hItems.trans (equivalent_ofChain _)
  | conditional condition goTrue goFalse => by
    have hTrue := Equivalent.goTrue condition goFalse (equivalent_ofChain_items goTrue)
    rw [items]
    exact hTrue.trans (.goFalse condition _ (equivalent_ofChain_items goFalse))
  | repeatWhile condition body => by
    rw [items]
    exact .body condition (equivalent_ofChain_items body)
  | offer offerTo playerName cases => by
    have hName : Equivalent (offer offerTo playerName cases)
        (offer offerTo (playerName.filter (· ≠ "")) cases) := by
      cases playerName with
      | none => exact .refl _
      | some name =>
        by_cases hEmpty : name = ""
        · subst hEmpty
          exact .emptyName offerTo cases
        · rw [Option.filter_some_pos (by simpa using hEmpty)]
          exact .refl _
    rw [items]
    exact hName.trans (equivalent_normalCases offerTo _ [] cases)
  | enterPhase _ | setNumber _ _ | shuffle _ | generateCards _ _ | deal _ _ _ | moveCards _ _
  | declareWinner _ | advancePlayer _ => by
    rw [items]
    exact .refl _

/-- The statements of a sequence may be replaced by their items, one statement after the other. -/
theorem equivalent_block_itemsOfAll : ∀ before statements : List Statement,
    Equivalent (block (before ++ statements)) (block (before ++ itemsOfAll statements))
  | before, [] => by
    rw [itemsOfAll]
    exact .refl _
  | before, statement :: rest => by
    have hFirst : Equivalent (block (before ++ [statement] ++ rest))
        (block (before ++ statement.items ++ rest)) :=
      .trans (.item before rest (equivalent_ofChain_items statement))
        (equivalent_block_ofChain before statement.items rest)
    have hRest := equivalent_block_itemsOfAll (before ++ statement.items) rest
    rw [itemsOfAll]
    simpa using hFirst.trans hRest

/-- The bodies of cases may be replaced by their normal forms, one case after the other. -/
theorem equivalent_normalCases (offerTo : PlayerCollectionExpression) (playerName : Option String) :
    ∀ before cases : List (OfferCaseOf Statement),
      Equivalent (offer offerTo playerName (before ++ cases))
        (offer offerTo playerName (before ++ normalCases cases))
  | before, [] => by
    rw [normalCases]
    exact .refl _
  | before, ⟨condition, message, choices, body⟩ :: rest => by
    have hFirst := Equivalent.caseBody offerTo playerName before rest condition message choices
      (equivalent_ofChain_items body)
    have hRest := equivalent_normalCases offerTo playerName
      (before ++ [⟨condition, message, choices, ofChain body.items⟩]) rest
    rw [normalCases, normalCase]
    simpa using hFirst.trans hRest

end

/-! ## Statements without idle brackets -/

/-- The first statement is the second one or stands in it, at whatever depth. -/
inductive PartOf : Statement → Statement → Prop
  | self (statement : Statement) : PartOf statement statement
  | item {part item : Statement} {items : List Statement} :
      item ∈ items → PartOf part item → PartOf part (block items)
  | goTrue {part goTrue : Statement} (condition : BooleanExpression) (goFalse : Statement) :
      PartOf part goTrue → PartOf part (conditional condition goTrue goFalse)
  | goFalse {part goFalse : Statement} (condition : BooleanExpression) (goTrue : Statement) :
      PartOf part goFalse → PartOf part (conditional condition goTrue goFalse)
  | body {part body : Statement} (condition : BooleanExpression) :
      PartOf part body → PartOf part (repeatWhile condition body)
  | caseBody {part : Statement} {offerCase : OfferCase} {cases : List OfferCase}
      (offerTo : PlayerCollectionExpression) (playerName : Option String) :
      offerCase ∈ cases → PartOf part offerCase.body → PartOf part (offer offerTo playerName cases)

/-- The statement is neither empty nor a sequence. -/
def IsSingle (statement : Statement) : Prop :=
  statement ≠ empty ∧ ∀ items, statement ≠ block items

/-- The brackets of a sequence hold at least two items, each of them single, and an offer has no
empty name for its player. -/
def IsTight : Statement → Prop
  | block items => 2 ≤ items.length ∧ ∀ item ∈ items, item.IsSingle
  | offer _ playerName _ => playerName ≠ some ""
  | _ => True

/-- There are no idle brackets and no empty names of players in the statement, at whatever depth. -/
def IsNormal (statement : Statement) : Prop :=
  ∀ part : Statement, part.PartOf statement → part.IsTight

theorem IsItem.isSingle {item : Statement} (hItem : item.IsItem) : item.IsSingle := by
  refine ⟨?_, hItem.ne_block⟩
  rintro rfl
  rw [IsItem, items] at hItem
  cases hItem

/-- A chain of single statements is normal if they are. -/
theorem isNormal_ofChain {statements : List Statement}
    (hSingle : ∀ statement ∈ statements, statement.IsSingle)
    (hNormal : ∀ statement ∈ statements, statement.IsNormal) : (ofChain statements).IsNormal := by
  intro part hPart
  rcases statements with _ | ⟨first, _ | ⟨second, rest⟩⟩
  · cases hPart
    exact trivial
  · exact hNormal first (List.mem_singleton_self first) part hPart
  · cases hPart with
    | self => exact ⟨by simp, hSingle⟩
    | item hMem hPart => exact hNormal _ hMem part hPart

mutual

theorem isNormal_of_mem_items : ∀ statement : Statement, ∀ item ∈ statement.items, item.IsNormal
  | empty, item, hItem => by
    rw [items] at hItem
    cases hItem
  | block statements, item, hItem => by
    rw [items] at hItem
    exact isNormal_of_mem_itemsOfAll statements item hItem
  | conditional condition goTrue goFalse, item, hItem => by
    rw [items] at hItem
    obtain rfl := List.mem_singleton.mp hItem
    intro part hPart
    cases hPart with
    | self => exact trivial
    | goTrue _ _ hPart => exact isNormal_ofChain_items goTrue part hPart
    | goFalse _ _ hPart => exact isNormal_ofChain_items goFalse part hPart
  | repeatWhile condition body, item, hItem => by
    rw [items] at hItem
    obtain rfl := List.mem_singleton.mp hItem
    intro part hPart
    cases hPart with
    | self => exact trivial
    | body _ hPart => exact isNormal_ofChain_items body part hPart
  | offer offerTo playerName cases, item, hItem => by
    rw [items] at hItem
    obtain rfl := List.mem_singleton.mp hItem
    intro part hPart
    cases hPart with
    | self =>
      intro hName
      simpa using (Option.filter_eq_some_iff.mp hName).2
    | caseBody _ _ hMem hPart => exact isNormal_of_mem_normalCases cases _ hMem part hPart
  | enterPhase _, item, hItem | setNumber _ _, item, hItem | shuffle _, item, hItem
  | generateCards _ _, item, hItem | deal _ _ _, item, hItem | moveCards _ _, item, hItem
  | declareWinner _, item, hItem | advancePlayer _, item, hItem => by
    rw [items] at hItem
    obtain rfl := List.mem_singleton.mp hItem
    intro part hPart
    cases hPart
    exact trivial

theorem isNormal_of_mem_itemsOfAll : ∀ parts : List Statement, ∀ item ∈ itemsOfAll parts,
    item.IsNormal
  | [], item, hItem => by
    rw [itemsOfAll] at hItem
    cases hItem
  | first :: rest, item, hItem => by
    rw [itemsOfAll, List.mem_append] at hItem
    rcases hItem with hItem | hItem
    · exact isNormal_of_mem_items first item hItem
    · exact isNormal_of_mem_itemsOfAll rest item hItem

theorem isNormal_of_mem_normalCases : ∀ cases : List (OfferCaseOf Statement),
    ∀ offerCase ∈ normalCases cases, offerCase.body.IsNormal
  | [], offerCase, hMem => by
    rw [normalCases] at hMem
    cases hMem
  | ⟨condition, message, choices, body⟩ :: rest, offerCase, hMem => by
    rw [normalCases, normalCase, List.mem_cons] at hMem
    rcases hMem with rfl | hMem
    · exact isNormal_ofChain_items body
    · exact isNormal_of_mem_normalCases rest offerCase hMem

theorem isNormal_ofChain_items : ∀ statement : Statement, (ofChain statement.items).IsNormal
  | statement =>
    isNormal_ofChain (fun item hItem => (isItem_of_mem_items statement item hItem).isSingle)
      (isNormal_of_mem_items statement)

end

/-- **The normal form has no idle brackets left.** -/
theorem isNormal_normalForm (statement : Statement) : statement.normalForm.IsNormal :=
  isNormal_ofChain_items statement

/-- A chain that gives a single statement is made of just this statement. -/
theorem eq_singleton_of_ofChain_eq {statements : List Statement} {statement : Statement}
    (h : ofChain statements = statement) (hSingle : statement.IsSingle) :
    statements = [statement] := by
  subst h
  rcases statements with _ | ⟨first, _ | ⟨second, rest⟩⟩
  · exact absurd rfl hSingle.1
  · rfl
  · exact absurd rfl (hSingle.2 _)

mutual

/-- Without idle brackets there is nothing to do. -/
theorem IsNormal.normalForm_eq : ∀ {statement : Statement}, statement.IsNormal →
    statement.normalForm = statement
  | empty, _ => by
    rw [normalForm, items]
    rfl
  | block statements, hNormal => by
    obtain ⟨hLength, hSingle⟩ := hNormal _ (.self _)
    have hItems : itemsOfAll statements = statements :=
      itemsOfAll_of_isNormal statements hSingle fun statement hMem part hPart =>
        hNormal part (.item hMem hPart)
    rw [normalForm, items, hItems]
    rcases statements with _ | ⟨first, _ | ⟨second, rest⟩⟩
    · simp at hLength
    · simp at hLength
    · rfl
  | conditional condition goTrue goFalse, hNormal => by
    have hTrue : ofChain goTrue.items = goTrue :=
      IsNormal.normalForm_eq fun part hPart => hNormal part (.goTrue condition goFalse hPart)
    have hFalse : ofChain goFalse.items = goFalse :=
      IsNormal.normalForm_eq fun part hPart => hNormal part (.goFalse condition goTrue hPart)
    rw [normalForm, items, hTrue, hFalse]
    rfl
  | repeatWhile condition body, hNormal => by
    have hBody : ofChain body.items = body :=
      IsNormal.normalForm_eq fun part hPart => hNormal part (.body condition hPart)
    rw [normalForm, items, hBody]
    rfl
  | offer offerTo playerName cases, hNormal => by
    have hName : playerName ≠ some "" := hNormal _ (.self _)
    have hFilled := filter_of_ne_some_empty hName
    have hCases : normalCases cases = cases :=
      normalCases_of_isNormal cases fun offerCase hMem part hPart =>
        hNormal part (.caseBody offerTo playerName hMem hPart)
    rw [normalForm, items, hFilled, hCases]
    rfl
  | enterPhase _, _ | setNumber _ _, _ | shuffle _, _ | generateCards _ _, _ | deal _ _ _, _
  | moveCards _ _, _ | declareWinner _, _ | advancePlayer _, _ => by
    rw [normalForm, items]
    rfl

theorem itemsOfAll_of_isNormal : ∀ statements : List Statement,
    (∀ statement ∈ statements, statement.IsSingle) →
    (∀ statement ∈ statements, statement.IsNormal) → itemsOfAll statements = statements
  | [], _, _ => by rw [itemsOfAll]
  | statement :: rest, hSingle, hNormal => by
    obtain ⟨hFirst, hRest⟩ := List.forall_mem_cons.mp hSingle
    obtain ⟨hNormalFirst, hNormalRest⟩ := List.forall_mem_cons.mp hNormal
    have hItems : statement.items = [statement] :=
      eq_singleton_of_ofChain_eq (IsNormal.normalForm_eq hNormalFirst) hFirst
    rw [itemsOfAll, hItems, itemsOfAll_of_isNormal rest hRest hNormalRest, List.singleton_append]

theorem normalCases_of_isNormal : ∀ cases : List (OfferCaseOf Statement),
    (∀ offerCase ∈ cases, offerCase.body.IsNormal) → normalCases cases = cases
  | [], _ => by rw [normalCases]
  | ⟨condition, message, choices, body⟩ :: rest, hNormal => by
    obtain ⟨hFirst, hRest⟩ := List.forall_mem_cons.mp hNormal
    have hBody : ofChain body.items = body := IsNormal.normalForm_eq hFirst
    rw [normalCases, normalCase, hBody, normalCases_of_isNormal rest hRest]

end

/-- **Just the statements without idle brackets are their own normal forms.** -/
theorem isNormal_iff {statement : Statement} :
    statement.IsNormal ↔ statement.normalForm = statement := by
  constructor
  · exact IsNormal.normalForm_eq
  · intro hSame
    have hNormal := isNormal_normalForm statement
    rwa [hSame] at hNormal

/-! ## Equivalence is decided -/

theorem Equivalent.normalForm_eq {first second : Statement} (h : Equivalent first second) :
    first.normalForm = second.normalForm := by
  rw [normalForm, normalForm, h.items_eq]

theorem equivalent_normalForm (statement : Statement) : Equivalent statement statement.normalForm :=
  equivalent_ofChain_items statement

/-- **The normal form decides whether statements are equivalent.** It has no idle brackets and no
empty names of players in it, and is its own normal form. Two statements have the same normal form
just if they are equivalent. So the normal form of a statement is the only statement without idle
brackets that is equivalent to it. -/
theorem normalForm_eq_iff_equivalent (first second : Statement) :
    first.normalForm.IsNormal ∧ first.normalForm.normalForm = first.normalForm ∧
      (first.normalForm = second.normalForm ↔ Equivalent first second) ∧
      (first.normalForm = second ↔ second.IsNormal ∧ Equivalent first second) := by
  have hNormal := isNormal_normalForm first
  have hDecided : first.normalForm = second.normalForm ↔ Equivalent first second := by
    constructor
    · intro hSame
      have hFirst := equivalent_normalForm first
      rw [hSame] at hFirst
      exact hFirst.trans (equivalent_normalForm second).symm
    · exact Equivalent.normalForm_eq
  refine ⟨hNormal, hNormal.normalForm_eq, hDecided, ?_⟩
  constructor
  · rintro rfl
    exact ⟨hNormal, equivalent_normalForm first⟩
  · rintro ⟨hSecond, hEquivalent⟩
    rw [hEquivalent.normalForm_eq, hSecond.normalForm_eq]

end RuleBlocks.Statement
