import RuleBlocks.Proofs.Program.Scope
import RuleBlocks.Proofs.Reading.Expression
import RuleBlocks.Proofs.Scope.Bound

/-!
# Readings without any diagnostic

What is read without any diagnostic refers to nothing but what the block that was read can refer to
(`CleanYields`). For an expression these are the names that its block sees at most.
-/

namespace RuleBlocks

namespace Reading

variable {α β : Type}

/-- What was read without any diagnostic has a property. -/
def CleanYields (reading : Reading (Option α)) (P : α → Prop) : Prop :=
  reading.diagnostics = [] → reading.Yields P

variable {P : β → Prop} {Q : α → Prop} {reading : Reading (Option α)}

theorem Yields.clean (h : reading.Yields Q) : reading.CleanYields Q := fun _ => h

theorem CleanYields.mapSome {f : α → β} (hReading : reading.CleanYields Q)
    (hMap : ∀ value, Q value → P (f value)) : (reading.mapSome f).CleanYields P := by
  intro hClean
  rw [diagnostics_mapSome] at hClean
  exact Yields.mapSome fun value hValue => hMap value (hReading hClean value hValue)

theorem CleanYields.andThen {next : α → Reading (Option β)} (hReading : reading.CleanYields Q)
    (hNext : ∀ value, Q value → (next value).CleanYields P) :
    (reading.andThen next).CleanYields P := by
  intro hClean value hValue
  rw [value_andThen] at hValue
  obtain ⟨inner, hInner, hValue⟩ := Option.bind_eq_some_iff.mp hValue
  rw [Reading.andThen, diagnostics_bind, hInner, List.append_eq_nil_iff] at hClean
  exact hNext inner (hReading hClean.1 inner hInner) hClean.2 value hValue

theorem CleanYields.and {f : Reading (Option (α → β))}
    (hFunction : f.CleanYields fun f => ∀ value, Q value → P (f value))
    (hReading : reading.CleanYields Q) : (f.and reading).CleanYields P := by
  intro hClean
  rw [diagnostics_and, List.append_eq_nil_iff] at hClean
  exact Yields.and (hFunction hClean.1) (hReading hClean.2)

theorem CleanYields.parts {f : α} (h : Q f) : (parts f).CleanYields Q := (Yields.parts h).clean

theorem CleanYields.pure {value : α} (h : Q value) :
    (Pure.pure (some value) : Reading (Option α)).CleanYields Q := (Yields.pure h).clean

theorem CleanYields.any : reading.CleanYields fun _ => True := fun _ _ _ => trivial

end Reading

namespace Reader

open Reading

/-- A reader of a tidy forest that checks references. -/
structure Checks (reader : Reader) (scope : Scope) (workspace : Workspace) : Prop where
  forest : workspace.Forest
  tidy : workspace.Tidy
  view : reader.view = workspace.view
  checked : reader.scope? = some scope
  scopeView : scope.view = workspace.view
  vocabulary : scope.vocabulary = reader.vocabulary

variable {reader : Reader} {scope : Scope} {workspace : Workspace} {spot : Spot}
variable {kind : BlockKind} {found : Category} {input : String}
variable {visible : List (Category × String)} {α : Type}

theorem cleanYields_fail {P : α → Prop} (error : ReadError) :
    (reader.fail spot error).CleanYields P := (yields_fail error).clean

theorem cleanYields_typeMismatch {P : α → Prop} (expected found : Category) :
    (reader.typeMismatch spot expected found).CleanYields P := (yields_typeMismatch _ _).clean

variable (hChecks : reader.Checks scope workspace)

include hChecks

/-- A reference about which nothing is reported is to a name that is seen. -/
theorem cleanYields_reference (hSees : scope.SeesAtMost spot.node visible) (field : String)
    (category : Category) :
    (reader.reference spot field category).CleanYields fun name => (category, name) ∈ visible := by
  refine CleanYields.any.andThen fun name _ hClean => Yields.pure ?_
  rw [diagnostics_bind, diagnostics_pure, List.append_nil, checkReference,
    hChecks.checked] at hClean
  dsimp only at hClean
  split at hClean
  · rename_i hResolve
    exact hSees.mem_of_resolve hResolve
  · cases hClean
  · cases hClean

theorem cleanYields_socket {P : α → Prop} {expected : Category}
    {read : Spot → BlockKind → Category → Reading (Option α)} (hInput : input ∉ Input.chains)
    (hSees : scope.SeesAtMost spot.node visible)
    (hRead : ∀ inner kind found, scope.SeesAtMost inner.node visible →
      (read inner kind found).CleanYields P) :
    (reader.socket spot input expected read).CleanYields P := by
  unfold socket
  split
  · exact cleanYields_fail _
  · rename_i child hChild
    rw [hChecks.view] at hChild
    have hParent := hChecks.forest.parent?_of_tidy hChecks.tidy hChild
    rw [if_neg hInput] at hParent
    have hInner := Scope.seesAtMost_value hChecks.forest hChecks.scopeView hParent hSees
    exact CleanYields.any.andThen fun checked _ => hRead _ checked.1 checked.2 hInner

/-! ## Expressions -/

variable (hSees : scope.SeesAtMost spot.node visible)

include hSees

theorem cleanYields_playerAt :
    (reader.playerAt spot kind found).CleanYields fun player => player.references ⊆ visible := by
  unfold playerAt
  split
  · exact CleanYields.pure (by simp [PlayerExpression.references])
  · refine (cleanYields_reference hChecks hSees _ _).mapSome fun name hName => ?_
    simpa [PlayerExpression.references] using hName
  · exact cleanYields_typeMismatch _ _

theorem cleanYields_player (hInput : input ∉ Input.chains) :
    (reader.player spot input).CleanYields fun player => player.references ⊆ visible :=
  cleanYields_socket hChecks hInput hSees fun _ _ _ hInner => cleanYields_playerAt hChecks hInner

theorem cleanYields_playerCollectionAt :
    (reader.playerCollectionAt spot kind found).CleanYields fun players =>
      players.references ⊆ visible := by
  unfold playerCollectionAt
  split
  · exact (cleanYields_playerAt hChecks hSees).mapSome fun _ hPlayer => hPlayer
  · split
    · exact CleanYields.pure (by simp [PlayerCollectionExpression.references])
    · refine (cleanYields_reference hChecks hSees _ _).mapSome fun name hName => ?_
      simpa [PlayerCollectionExpression.references] using hName
    · exact cleanYields_typeMismatch _ _

theorem cleanYields_playerCollection (hInput : input ∉ Input.chains) :
    (reader.playerCollection spot input).CleanYields fun players =>
      players.references ⊆ visible :=
  cleanYields_socket hChecks hInput hSees fun _ _ _ hInner =>
    cleanYields_playerCollectionAt hChecks hInner

theorem cleanYields_zoneAt :
    (reader.zoneAt spot kind found).CleanYields fun zone => zone.references ⊆ visible := by
  unfold zoneAt
  split
  · refine CleanYields.and (CleanYields.and (CleanYields.parts ?_) .any)
      (cleanYields_player hChecks hSees (by decide))
    exact fun _ _ _ hPlayer => hPlayer
  · refine (cleanYields_reference hChecks hSees _ _).mapSome fun name hName => ?_
    simpa [ZoneExpression.references] using hName
  · exact cleanYields_typeMismatch _ _

theorem cleanYields_zone (hInput : input ∉ Input.chains) :
    (reader.zone spot input).CleanYields fun zone => zone.references ⊆ visible :=
  cleanYields_socket hChecks hInput hSees fun _ _ _ hInner => cleanYields_zoneAt hChecks hInner

theorem cleanYields_zoneCollectionAt :
    (reader.zoneCollectionAt spot kind found).CleanYields fun zones =>
      zones.references ⊆ visible := by
  unfold zoneCollectionAt
  split
  · exact (cleanYields_zoneAt hChecks hSees).mapSome fun _ hZone => hZone
  · split
    · exact CleanYields.any.mapSome fun name _ => List.nil_subset _
    · refine (cleanYields_reference hChecks hSees _ _).mapSome fun name hName => ?_
      simpa [ZoneCollectionExpression.references] using hName
    · exact cleanYields_typeMismatch _ _

theorem cleanYields_zoneCollection (hInput : input ∉ Input.chains) :
    (reader.zoneCollection spot input).CleanYields fun zones => zones.references ⊆ visible :=
  cleanYields_socket hChecks hInput hSees fun _ _ _ hInner =>
    cleanYields_zoneCollectionAt hChecks hInner

theorem cleanYields_cardAt :
    (reader.cardAt spot kind found).CleanYields fun card => card.references ⊆ visible := by
  unfold cardAt
  split
  · refine (cleanYields_reference hChecks hSees _ _).mapSome fun name hName => ?_
    simpa [CardExpression.references] using hName
  · exact cleanYields_typeMismatch _ _

theorem cleanYields_card (hInput : input ∉ Input.chains) :
    (reader.card spot input).CleanYields fun card => card.references ⊆ visible :=
  cleanYields_socket hChecks hInput hSees fun _ _ _ hInner => cleanYields_cardAt hChecks hInner

theorem cleanYields_rankAt :
    (reader.rankAt spot kind found).CleanYields fun rank => rank.references ⊆ visible := by
  unfold rankAt
  split
  · exact CleanYields.any.mapSome fun rank _ => List.nil_subset _
  · exact (cleanYields_card hChecks hSees (by decide)).mapSome fun _ hCard => hCard
  · exact cleanYields_typeMismatch _ _

theorem cleanYields_rank (hInput : input ∉ Input.chains) :
    (reader.rank spot input).CleanYields fun rank => rank.references ⊆ visible :=
  cleanYields_socket hChecks hInput hSees fun _ _ _ hInner => cleanYields_rankAt hChecks hInner

theorem cleanYields_suitAt :
    (reader.suitAt spot kind found).CleanYields fun suit => suit.references ⊆ visible := by
  unfold suitAt
  split
  · exact CleanYields.any.mapSome fun suit _ => List.nil_subset _
  · exact (cleanYields_card hChecks hSees (by decide)).mapSome fun _ hCard => hCard
  · exact cleanYields_typeMismatch _ _

theorem cleanYields_suit (hInput : input ∉ Input.chains) :
    (reader.suit spot input).CleanYields fun suit => suit.references ⊆ visible :=
  cleanYields_socket hChecks hInput hSees fun _ _ _ hInner => cleanYields_suitAt hChecks hInner

theorem cleanYields_cardCollectionAt :
    (reader.cardCollectionAt spot kind found).CleanYields fun cards =>
      cards.references ⊆ visible := by
  unfold cardCollectionAt
  split
  · exact (cleanYields_cardAt hChecks hSees).mapSome fun _ hCard => hCard
  · split
    · refine (cleanYields_reference hChecks hSees _ _).mapSome fun name hName => ?_
      simpa [CardCollectionExpression.references] using hName
    · refine CleanYields.and (Yields.clean fun take hTake zone hZone => ?_)
        (cleanYields_zone hChecks hSees (by decide))
      rw [value_parsedField] at hTake
      obtain ⟨_, -, hTake⟩ := Option.bind_eq_some_iff.mp hTake
      rcases selection?_eq_some hTake with rfl | rfl | rfl <;> exact hZone
    · refine CleanYields.and (CleanYields.and (CleanYields.parts ?_)
        (cleanYields_zone hChecks hSees (by decide))) (cleanYields_suit hChecks hSees (by decide))
      exact fun zone hZone suit hSuit => List.append_subset.mpr ⟨hZone, hSuit⟩
    · refine CleanYields.and (CleanYields.and (CleanYields.parts ?_)
        (cleanYields_zone hChecks hSees (by decide))) (cleanYields_rank hChecks hSees (by decide))
      exact fun zone hZone rank hRank => List.append_subset.mpr ⟨hZone, hRank⟩
    · exact cleanYields_typeMismatch _ _

theorem cleanYields_cardCollection (hInput : input ∉ Input.chains) :
    (reader.cardCollection spot input).CleanYields fun cards => cards.references ⊆ visible :=
  cleanYields_socket hChecks hInput hSees fun _ _ _ hInner =>
    cleanYields_cardCollectionAt hChecks hInner

theorem cleanYields_numberAt :
    (reader.numberAt spot kind found).CleanYields fun number => number.references ⊆ visible := by
  unfold numberAt
  split
  · exact CleanYields.any.mapSome fun value _ => List.nil_subset _
  · refine (cleanYields_reference hChecks hSees _ _).mapSome fun name hName => ?_
    simpa [NumberExpression.references] using hName
  · refine (cleanYields_reference hChecks hSees _ _).mapSome fun name hName => ?_
    simpa [NumberExpression.references] using hName
  · exact (cleanYields_cardCollection hChecks hSees (by decide)).mapSome fun _ hCards => hCards
  · exact cleanYields_typeMismatch _ _

theorem cleanYields_number (hInput : input ∉ Input.chains) :
    (reader.number spot input).CleanYields fun number => number.references ⊆ visible :=
  cleanYields_socket hChecks hInput hSees fun _ _ _ hInner => cleanYields_numberAt hChecks hInner

theorem cleanYields_booleanAt :
    (reader.booleanAt spot kind found).CleanYields fun condition =>
      condition.references ⊆ visible := by
  unfold booleanAt
  split
  · exact CleanYields.any.mapSome fun value _ => List.nil_subset _
  · refine CleanYields.and (CleanYields.and (CleanYields.and (CleanYields.parts ?_) .any)
      (cleanYields_number hChecks hSees (by decide))) (cleanYields_number hChecks hSees (by decide))
    exact fun _ _ left hLeft right hRight => List.append_subset.mpr ⟨hLeft, hRight⟩
  · refine CleanYields.and (CleanYields.and (CleanYields.parts ?_) .any)
      (cleanYields_player hChecks hSees (by decide))
    exact fun _ _ _ hPlayer => hPlayer
  · exact cleanYields_typeMismatch _ _

theorem cleanYields_boolean (hInput : input ∉ Input.chains) :
    (reader.boolean spot input).CleanYields fun condition => condition.references ⊆ visible :=
  cleanYields_socket hChecks hInput hSees fun _ _ _ hInner => cleanYields_booleanAt hChecks hInner

end Reader

end RuleBlocks
