import RuleBlocks.Proofs.Program.Names
import RuleBlocks.Proofs.Reading.Combinators

/-!
# What the readers of expressions give

Whatever the graph is, no required name of an expression that was read is empty.
-/

namespace RuleBlocks.Reader

open Reading

variable {reader : Reader} {spot : Spot} {kind : BlockKind} {found : Category} {input : String}

theorem yields_playerAt :
    (reader.playerAt spot kind found).Yields fun player => "" ∉ player.requiredNames := by
  unfold playerAt
  split
  · exact Yields.pure (by simp [PlayerExpression.requiredNames])
  · refine Yields.mapSome fun name hName => ?_
    simpa [PlayerExpression.requiredNames, eq_comm] using yields_reference _ name hName
  · exact yields_typeMismatch _ _

theorem yields_player :
    (reader.player spot input).Yields fun player => "" ∉ player.requiredNames :=
  yields_socket fun _ _ _ => yields_playerAt

theorem yields_playerCollectionAt :
    (reader.playerCollectionAt spot kind found).Yields fun players =>
      "" ∉ players.requiredNames := by
  unfold playerCollectionAt
  split
  · exact Yields.mapSome yields_playerAt
  · split
    · exact Yields.pure (by simp [PlayerCollectionExpression.requiredNames])
    · refine Yields.mapSome fun name hName => ?_
      simpa [PlayerCollectionExpression.requiredNames, eq_comm] using yields_reference _ name hName
    · exact yields_typeMismatch _ _

theorem yields_playerCollection :
    (reader.playerCollection spot input).Yields fun players => "" ∉ players.requiredNames :=
  yields_socket fun _ _ _ => yields_playerCollectionAt

theorem yields_zoneAt :
    (reader.zoneAt spot kind found).Yields fun zone => "" ∉ zone.requiredNames := by
  unfold zoneAt
  split
  · refine Yields.and (Yields.and (Yields.parts ?_) yields_requiredField) yields_player
    intro zoneName hName player hPlayer
    simpa [ZoneExpression.requiredNames, eq_comm] using ⟨hName, hPlayer⟩
  · refine Yields.mapSome fun name hName => ?_
    simpa [ZoneExpression.requiredNames, eq_comm] using yields_reference _ name hName
  · exact yields_typeMismatch _ _

theorem yields_zone : (reader.zone spot input).Yields fun zone => "" ∉ zone.requiredNames :=
  yields_socket fun _ _ _ => yields_zoneAt

theorem yields_zoneCollectionAt :
    (reader.zoneCollectionAt spot kind found).Yields fun zones => "" ∉ zones.requiredNames := by
  unfold zoneCollectionAt
  split
  · exact Yields.mapSome yields_zoneAt
  · split
    · refine Yields.mapSome fun name hName => ?_
      simpa [ZoneCollectionExpression.requiredNames, eq_comm] using yields_requiredField name hName
    · refine Yields.mapSome fun name hName => ?_
      simpa [ZoneCollectionExpression.requiredNames, eq_comm] using yields_reference _ name hName
    · exact yields_typeMismatch _ _

theorem yields_zoneCollection :
    (reader.zoneCollection spot input).Yields fun zones => "" ∉ zones.requiredNames :=
  yields_socket fun _ _ _ => yields_zoneCollectionAt

theorem yields_cardAt :
    (reader.cardAt spot kind found).Yields fun card => "" ∉ card.requiredNames := by
  unfold cardAt
  split
  · refine Yields.mapSome fun name hName => ?_
    simpa [CardExpression.requiredNames, eq_comm] using yields_reference _ name hName
  · exact yields_typeMismatch _ _

theorem yields_card : (reader.card spot input).Yields fun card => "" ∉ card.requiredNames :=
  yields_socket fun _ _ _ => yields_cardAt

theorem yields_rankAt :
    (reader.rankAt spot kind found).Yields fun rank => "" ∉ rank.requiredNames := by
  unfold rankAt
  split
  · refine Yields.mapSome fun rank _ => ?_
    simp [RankExpression.requiredNames]
  · exact Yields.mapSome yields_card
  · exact yields_typeMismatch _ _

theorem yields_rank : (reader.rank spot input).Yields fun rank => "" ∉ rank.requiredNames :=
  yields_socket fun _ _ _ => yields_rankAt

theorem yields_suitAt :
    (reader.suitAt spot kind found).Yields fun suit => "" ∉ suit.requiredNames := by
  unfold suitAt
  split
  · refine Yields.mapSome fun suit _ => ?_
    simp [SuitExpression.requiredNames]
  · exact Yields.mapSome yields_card
  · exact yields_typeMismatch _ _

theorem yields_suit : (reader.suit spot input).Yields fun suit => "" ∉ suit.requiredNames :=
  yields_socket fun _ _ _ => yields_suitAt

/-- A setting gives one of the three ways to take cards from a zone. -/
theorem selection?_eq_some {setting : String} {take : ZoneExpression → CardCollectionExpression}
    (h : selection? setting = some take) :
    take = .allInZone ∨ take = .topInZone ∨ take = .bottomInZone := by
  unfold selection? at h
  split at h
  · exact Or.inl (Option.some.inj h).symm
  · split at h
    · exact Or.inr (Or.inl (Option.some.inj h).symm)
    · split at h
      · exact Or.inr (Or.inr (Option.some.inj h).symm)
      · cases h

theorem yields_cardCollectionAt :
    (reader.cardCollectionAt spot kind found).Yields fun cards => "" ∉ cards.requiredNames := by
  unfold cardCollectionAt
  split
  · exact Yields.mapSome yields_cardAt
  · split
    · refine Yields.mapSome fun name hName => ?_
      simpa [CardCollectionExpression.requiredNames, eq_comm] using yields_reference _ name hName
    · refine Yields.and (fun take hTake zone hZone => ?_) yields_zone
      rw [value_parsedField] at hTake
      obtain ⟨_, -, hTake⟩ := Option.bind_eq_some_iff.mp hTake
      rcases selection?_eq_some hTake with rfl | rfl | rfl <;> exact hZone
    · refine Yields.and (Yields.and (Yields.parts ?_) yields_zone) yields_suit
      intro zone hZone suit hSuit
      simpa [CardCollectionExpression.requiredNames] using ⟨hZone, hSuit⟩
    · refine Yields.and (Yields.and (Yields.parts ?_) yields_zone) yields_rank
      intro zone hZone rank hRank
      simpa [CardCollectionExpression.requiredNames] using ⟨hZone, hRank⟩
    · exact yields_typeMismatch _ _

theorem yields_cardCollection :
    (reader.cardCollection spot input).Yields fun cards => "" ∉ cards.requiredNames :=
  yields_socket fun _ _ _ => yields_cardCollectionAt

theorem yields_numberAt :
    (reader.numberAt spot kind found).Yields fun number => "" ∉ number.requiredNames := by
  unfold numberAt
  split
  · refine Yields.mapSome fun value _ => ?_
    simp [NumberExpression.requiredNames]
  · refine Yields.mapSome fun name hName => ?_
    simpa [NumberExpression.requiredNames, eq_comm] using yields_reference _ name hName
  · refine Yields.mapSome fun name hName => ?_
    simpa [NumberExpression.requiredNames, eq_comm] using yields_reference _ name hName
  · exact Yields.mapSome yields_cardCollection
  · exact yields_typeMismatch _ _

theorem yields_number :
    (reader.number spot input).Yields fun number => "" ∉ number.requiredNames :=
  yields_socket fun _ _ _ => yields_numberAt

theorem yields_booleanAt :
    (reader.booleanAt spot kind found).Yields fun condition => "" ∉ condition.requiredNames := by
  unfold booleanAt
  split
  · refine Yields.mapSome fun value _ => ?_
    simp [BooleanExpression.requiredNames]
  · have hAny : (reader.parsedField spot Field.comparison Comparison.ofCode?).Yields
        fun _ => True := fun _ _ => trivial
    refine Yields.and (Yields.and (Yields.and (Yields.parts ?_) hAny) yields_number) yields_number
    intro comparedTo _ left hLeft right hRight
    simpa [BooleanExpression.requiredNames] using ⟨hLeft, hRight⟩
  · refine Yields.and (Yields.and (Yields.parts ?_) yields_requiredField) yields_player
    intro typeName hName player hPlayer
    simpa [BooleanExpression.requiredNames, eq_comm] using ⟨hName, hPlayer⟩
  · exact yields_typeMismatch _ _

theorem yields_boolean :
    (reader.boolean spot input).Yields fun condition => "" ∉ condition.requiredNames :=
  yields_socket fun _ _ _ => yields_booleanAt

end RuleBlocks.Reader
