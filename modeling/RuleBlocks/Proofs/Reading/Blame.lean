import RuleBlocks.Proofs.Reading.Closed

/-!
# Which errors cost which part

A diagnostic carries the way from where the reading began to its block. So it can be told from a
diagnostic alone whether it stands below a block (`Diagnostic.Below`), and whether it blames the
block: whether it stands at the block itself or further down on a way through sockets for values
only (`Diagnostic.Blames`).

Whatever is read for a block, its diagnostics stand below the block, and the block is left out just
if one of them is an error that blames it (`Reader.explained_closed`). An error in a chain that the
block holds does not blame the block.
-/

namespace RuleBlocks

namespace Spot

theorem within_append (spot : Spot) (input : String) (rest : List PathSegment) :
    spot.within input ++ rest = spot.path ++ ⟨spot.node, input⟩ :: rest := by
  rw [within, List.append_assoc, List.singleton_append]

theorem path_ne_within_append (spot : Spot) (input : String) (rest : List PathSegment) :
    spot.path ≠ spot.within input ++ rest := by
  rw [within_append]
  intro h
  cases List.self_eq_append_right.mp h

end Spot

namespace Diagnostic

variable {diagnostic : Diagnostic} {spot : Spot} {input other : String} {child : NodeId}

/-- The diagnostic stands at a spot. -/
def StandsAt (diagnostic : Diagnostic) (spot : Spot) : Prop :=
  diagnostic.node = spot.node ∧ diagnostic.path = spot.path

/-- The diagnostic stands in or below what an input of a spot holds. -/
def Inside (diagnostic : Diagnostic) (spot : Spot) (input : String) : Prop :=
  ∃ rest, diagnostic.path = spot.within input ++ rest

/-- The diagnostic stands at a spot or in one of its inputs. -/
def Below (diagnostic : Diagnostic) (spot : Spot) : Prop :=
  diagnostic.StandsAt spot ∨ ∃ input, diagnostic.Inside spot input

/-- The diagnostic stands at a spot, or the way from there leads through sockets for values only. -/
def Blames (diagnostic : Diagnostic) (spot : Spot) : Prop :=
  diagnostic.StandsAt spot ∨
    ∃ input rest, diagnostic.path = spot.within input ++ rest ∧ input ∉ Input.chains ∧
      ∀ step ∈ rest, step.input ∉ Input.chains

theorem Blames.below (h : diagnostic.Blames spot) : diagnostic.Below spot :=
  h.imp_right fun ⟨input, rest, hPath, _⟩ => ⟨input, rest, hPath⟩

/-- The first step after a spot names the input. -/
theorem Inside.unique (h : diagnostic.Inside spot input) (hOther : diagnostic.Inside spot other) :
    input = other := by
  obtain ⟨rest, hPath⟩ := h
  obtain ⟨rest', hPath'⟩ := hOther
  have hSteps := hPath.symm.trans hPath'
  simp only [Spot.within_append, List.append_cancel_left_eq, List.cons.injEq, PathSegment.mk.injEq,
    true_and] at hSteps
  exact hSteps.1

theorem Inside.not_standsAt (h : diagnostic.Inside spot input) : ¬ diagnostic.StandsAt spot := by
  obtain ⟨rest, hPath⟩ := h
  rintro ⟨-, hAt⟩
  exact spot.path_ne_within_append input rest (hAt.symm.trans hPath)

/-- What stands in a chain of a block does not blame the block. -/
theorem Inside.not_blames (h : diagnostic.Inside spot input) (hInput : input ∈ Input.chains) :
    ¬ diagnostic.Blames spot := by
  rintro (hAt | ⟨socket, rest, hPath, hSocket, -⟩)
  · exact h.not_standsAt hAt
  · rw [h.unique ⟨rest, hPath⟩] at hInput
    exact hSocket hInput

theorem Below.inside (h : diagnostic.Below ⟨child, spot.within input⟩) :
    diagnostic.Inside spot input := by
  rcases h with ⟨-, hPath⟩ | ⟨inner, rest, hPath⟩
  · exact ⟨[], by rw [hPath, List.append_nil]⟩
  · rw [Spot.within_append] at hPath
    exact ⟨_, hPath⟩

/-- What blames a value blames the block that takes it. -/
theorem Blames.ofSocket (h : diagnostic.Blames ⟨child, spot.within input⟩)
    (hInput : input ∉ Input.chains) : diagnostic.Blames spot := by
  rcases h with ⟨-, hPath⟩ | ⟨inner, rest, hPath, hInner, hRest⟩
  · exact Or.inr ⟨input, [], by rw [hPath, List.append_nil], hInput, nofun⟩
  · rw [Spot.within_append] at hPath
    exact Or.inr ⟨input, _, hPath, hInput, List.forall_mem_cons.mpr ⟨hInner, hRest⟩⟩

/-- What stands below a value and blames the block that takes it blames the value. -/
theorem Blames.toSocket (h : diagnostic.Blames spot)
    (hBelow : diagnostic.Below ⟨child, spot.within input⟩) :
    diagnostic.Blames ⟨child, spot.within input⟩ := by
  have hInside := hBelow.inside
  refine hBelow.imp_right fun ⟨inner, rest, hPath⟩ => ⟨inner, rest, hPath, ?_⟩
  rcases h with hAt | ⟨socket, steps, hSteps, -, hValues⟩
  · exact absurd hAt hInside.not_standsAt
  · have hSocket : socket = input := Inside.unique ⟨steps, hSteps⟩ hInside
    subst hSocket
    rw [Spot.within_append, hSteps, List.append_cancel_left_eq] at hPath
    subst hPath
    exact List.forall_mem_cons.mp hValues

/-- No diagnostic stands below two members of one chain. -/
theorem Below.unique {first second : NodeId} {path : List PathSegment}
    (hFirst : diagnostic.Below ⟨first, path⟩) (hSecond : diagnostic.Below ⟨second, path⟩) :
    first = second := by
  rcases hFirst with hFirst | ⟨input, rest, hPath⟩
  · rcases hSecond with hSecond | ⟨input, rest, hPath⟩
    · exact hFirst.1.symm.trans hSecond.1
    · exact absurd (hFirst.2.symm.trans hPath) (Spot.path_ne_within_append ⟨second, path⟩ _ _)
  · rcases hSecond with hSecond | ⟨input', rest', hPath'⟩
    · exact absurd (hSecond.2.symm.trans hPath) (Spot.path_ne_within_append ⟨first, path⟩ _ _)
    · have hSteps := hPath.symm.trans hPath'
      simp only [Spot.within_append, List.append_cancel_left_eq, List.cons.injEq,
        PathSegment.mk.injEq] at hSteps
      exact hSteps.1.1

end Diagnostic

namespace Reading

variable {α β : Type} {spot : Spot}

/-- All diagnostics stand below a spot, and the part is left out just if an error blames the
spot. -/
structure Explained (spot : Spot) (reading : Reading (Option α)) : Prop where
  below : ∀ diagnostic ∈ reading.diagnostics, diagnostic.Below spot
  eq_none_iff : reading.finished = true →
    (reading.value = none ↔
      ∃ diagnostic ∈ reading.diagnostics, diagnostic.isError = true ∧ diagnostic.Blames spot)

theorem explained_of_no_blame {reading : Reading (Option α)} {value : α}
    (hValue : reading.value = some value)
    (hBelow : ∀ diagnostic ∈ reading.diagnostics, diagnostic.Below spot)
    (hBlame : ∀ diagnostic ∈ reading.diagnostics,
      diagnostic.isError = true → ¬ diagnostic.Blames spot) : reading.Explained spot where
  below := hBelow
  eq_none_iff _ := by
    rw [hValue]
    refine ⟨nofun, fun ⟨diagnostic, hMem, hError, hBlames⟩ => ?_⟩
    exact absurd hBlames (hBlame diagnostic hMem hError)

theorem explained_pure (value : α) : (pure (some value) : Reading (Option α)).Explained spot :=
  explained_of_no_blame rfl (fun _ hMem => absurd hMem List.not_mem_nil)
    fun _ hMem => absurd hMem List.not_mem_nil

/-- A reading that goes on to another one is explained if both are. -/
theorem Explained.andThen {reading : Reading (Option α)} {next : α → Reading (Option β)}
    (hReading : reading.Explained spot) (hNext : ∀ value, (next value).Explained spot) :
    (reading.andThen next).Explained spot := by
  cases hValue : reading.value with
  | none =>
    have hWhole : reading.andThen next = ⟨none, reading.diagnostics, reading.finished⟩ := by
      simp [Reading.andThen, bind, hValue, pure]
    rw [hWhole]
    refine ⟨hReading.below, fun hFinished => ?_⟩
    exact iff_of_true rfl ((hReading.eq_none_iff hFinished).mp hValue)
  | some value =>
    have hWhole : reading.andThen next =
        ⟨(next value).value, reading.diagnostics ++ (next value).diagnostics,
          reading.finished && (next value).finished⟩ := by
      simp [Reading.andThen, bind, hValue]
    rw [hWhole]
    refine ⟨fun diagnostic hMem => ?_, fun hFinished => ?_⟩
    · rcases List.mem_append.mp hMem with hMem | hMem
      · exact hReading.below _ hMem
      · exact (hNext value).below _ hMem
    · obtain ⟨hFirst, hSecond⟩ := Bool.and_eq_true_iff.mp hFinished
      have hBlameless := hReading.eq_none_iff hFirst
      simp only [hValue, reduceCtorEq, false_iff] at hBlameless
      simp only [(hNext value).eq_none_iff hSecond, List.mem_append, or_and_right, exists_or,
        hBlameless, false_or]

theorem Explained.mapSome {reading : Reading (Option α)} (f : α → β)
    (hReading : reading.Explained spot) : (reading.mapSome f).Explained spot := by
  have hWhole : reading.mapSome f =
      ⟨reading.value.map f, reading.diagnostics, reading.finished⟩ := by
    simp [Reading.mapSome, bind, pure]
  rw [hWhole]
  refine ⟨hReading.below, fun hFinished => ?_⟩
  rw [← hReading.eq_none_iff hFinished, Option.map_eq_none_iff]

/-- Two parts that are put together are explained if both are. -/
theorem Explained.and {f : Reading (Option (α → β))} {reading : Reading (Option α)}
    (hFunction : f.Explained spot) (hReading : reading.Explained spot) :
    (f.and reading).Explained spot := by
  refine ⟨fun diagnostic hMem => ?_, fun hFinished => ?_⟩
  · rw [diagnostics_and] at hMem
    rcases List.mem_append.mp hMem with hMem | hMem
    · exact hFunction.below _ hMem
    · exact hReading.below _ hMem
  · rw [finished_and] at hFinished
    obtain ⟨hFirst, hSecond⟩ := Bool.and_eq_true_iff.mp hFinished
    simp only [diagnostics_and, List.mem_append, or_and_right, exists_or, value_and,
      ← hFunction.eq_none_iff hFirst, ← hReading.eq_none_iff hSecond]
    cases f.value <;> simp

end Reading

namespace Reader

open Reading

variable {reader : Reader} {spot : Spot} {input : String} {α : Type}

theorem mem_diagnostics_fail {error : ReadError} {diagnostic : Diagnostic}
    (h : diagnostic ∈ (reader.fail spot error : Reading (Option α)).diagnostics) :
    diagnostic.StandsAt spot ∧ diagnostic.isError = true := by
  obtain rfl := List.mem_singleton.mp h
  exact ⟨⟨rfl, rfl⟩, rfl⟩

theorem eq_of_mem_diagnostics_checkReference {category : Category} {name : String}
    {diagnostic : Diagnostic}
    (h : diagnostic ∈ (reader.checkReference spot category name).diagnostics) :
    ∃ error, diagnostic =
      ⟨spot.node, reader.view.shownTag spot.node, spot.path, .warning, error⟩ := by
  unfold checkReference at h
  split at h
  · cases h
  · split at h
    · cases h
    all_goals exact ⟨_, List.mem_singleton.mp h⟩

/-- A reference that leads nowhere is a warning only. -/
theorem mem_diagnostics_checkReference {category : Category} {name : String}
    {diagnostic : Diagnostic}
    (h : diagnostic ∈ (reader.checkReference spot category name).diagnostics) :
    diagnostic.StandsAt spot ∧ diagnostic.isError = false := by
  obtain ⟨error, rfl⟩ := eq_of_mem_diagnostics_checkReference h
  exact ⟨⟨rfl, rfl⟩, rfl⟩

theorem explained_fail (spot : Spot) (error : ReadError) :
    (reader.fail spot error : Reading (Option α)).Explained spot := by
  refine ⟨fun diagnostic hMem => Or.inl (mem_diagnostics_fail hMem).1, fun _ => ?_⟩
  exact iff_of_true rfl ⟨_, List.mem_singleton_self _, rfl, Or.inl ⟨rfl, rfl⟩⟩

section

variable {Q : Spot → Diagnostic → Prop}

/-- A property of diagnostics at spots is closed if it holds of what is reported at the spot, and if
what holds of the reading of a value holds of the block that takes it. -/
theorem closed_of_reports
    (hReport : ∀ spot severity error,
      Q spot ⟨spot.node, reader.view.shownTag spot.node, spot.path, severity, error⟩)
    (hSocket : ∀ {spot input child diagnostic}, reader.view.input? spot.node input = some child →
      input ∉ Input.chains → Q ⟨child, spot.within input⟩ diagnostic → Q spot diagnostic) :
    reader.Closed fun _ spot reading => ∀ diagnostic ∈ reading.diagnostics, Q spot diagnostic where
  pure _ _ _ hMem := absurd hMem List.not_mem_nil
  fail spot error diagnostic hMem := by
    obtain rfl := List.mem_singleton.mp hMem
    exact hReport spot .error error
  mapSome f hReading diagnostic hMem := by
    rw [diagnostics_mapSome] at hMem
    exact hReading diagnostic hMem
  andThen := by
    intro α β spot reading next hReading hNext diagnostic hMem
    unfold Reading.andThen at hMem
    rw [diagnostics_bind, List.mem_append] at hMem
    rcases hMem with hMem | hMem
    · exact hReading diagnostic hMem
    · split at hMem
      · exact hNext _ diagnostic hMem
      · cases hMem
  and hFunction hReading diagnostic hMem := by
    rw [diagnostics_and, List.mem_append] at hMem
    exact hMem.elim (hFunction diagnostic) (hReading diagnostic)
  checked spot category name diagnostic hMem := by
    rw [diagnostics_bind, diagnostics_pure, List.append_nil] at hMem
    obtain ⟨error, rfl⟩ := eq_of_mem_diagnostics_checkReference hMem
    exact hReport spot .warning error
  socket hChild hInput hReading diagnostic hMem := hSocket hChild hInput (hReading diagnostic hMem)

/-- The property is closed under chains if what holds of a member of a chain holds of the block that
holds the chain. -/
theorem closedUnderChains_of_reports
    (hReport : ∀ spot severity error,
      Q spot ⟨spot.node, reader.view.shownTag spot.node, spot.path, severity, error⟩)
    (hSocket : ∀ {spot input child diagnostic}, reader.view.input? spot.node input = some child →
      input ∉ Input.chains → Q ⟨child, spot.within input⟩ diagnostic → Q spot diagnostic)
    (hChain : ∀ {spot input member diagnostic}, input ∈ Input.chains →
      member ∈ reader.chain (reader.view.input? spot.node input) →
        Q ⟨member, spot.within input⟩ diagnostic → Q spot diagnostic) :
    reader.ClosedUnderChains fun _ spot reading =>
      ∀ diagnostic ∈ reading.diagnostics, Q spot diagnostic where
  toClosed := closed_of_reports hReport hSocket
  endless _ _ hMem := absurd hMem List.not_mem_nil
  chain hInput hRead diagnostic hMem := by
    rw [diagnostics_always, diagnostics_collect, List.mem_flatMap] at hMem
    obtain ⟨member, hMember, hMem⟩ := hMem
    exact hChain hInput hMember (hRead member hMember diagnostic hMem)

end

/-- All that is reported for a value blames the block that takes it. -/
theorem blames_closed (reader : Reader) : reader.Closed fun _ spot reading =>
    ∀ diagnostic ∈ reading.diagnostics, diagnostic.Blames spot :=
  closed_of_reports (fun _ _ _ => Or.inl ⟨rfl, rfl⟩) fun _ hInput hBlames =>
    hBlames.ofSocket hInput

/-- Every part that is left out is explained by an error. -/
theorem explained_closed (reader : Reader) : reader.ClosedUnderChains fun _ spot reading =>
    reading.Explained spot where
  pure spot value := explained_pure value
  fail := explained_fail
  mapSome f := Explained.mapSome f
  andThen := Explained.andThen
  and := Explained.and
  checked spot category name := by
    refine explained_of_no_blame rfl (fun diagnostic hMem => ?_) (fun diagnostic hMem hError => ?_)
    all_goals rw [diagnostics_bind, diagnostics_pure, List.append_nil] at hMem
    · exact Or.inl (mem_diagnostics_checkReference hMem).1
    · rw [(mem_diagnostics_checkReference hMem).2] at hError
      cases hError
  socket := by
    intro α spot input child reading _ hInput hReading
    refine ⟨fun diagnostic hMem => ?_, fun hFinished => ?_⟩
    · exact Or.inr ⟨input, (hReading.below diagnostic hMem).inside⟩
    · rw [hReading.eq_none_iff hFinished]
      constructor
      · rintro ⟨diagnostic, hMem, hError, hBlames⟩
        exact ⟨diagnostic, hMem, hError, hBlames.ofSocket hInput⟩
      · rintro ⟨diagnostic, hMem, hError, hBlames⟩
        exact ⟨diagnostic, hMem, hError, hBlames.toSocket (hReading.below diagnostic hMem)⟩
  endless spot := ⟨fun _ hMem => absurd hMem List.not_mem_nil, fun h => absurd h Bool.false_ne_true⟩
  chain := by
    intro α spot input read hInput hRead
    have hInside : ∀ diagnostic ∈ (collect read
        (reader.chain (reader.view.input? spot.node input))).always.diagnostics,
        diagnostic.Inside spot input := by
      intro diagnostic hMem
      rw [diagnostics_always, diagnostics_collect, List.mem_flatMap] at hMem
      obtain ⟨node, hNode, hMem⟩ := hMem
      exact ((hRead node hNode).below diagnostic hMem).inside
    exact explained_of_no_blame rfl (fun diagnostic hMem => Or.inr ⟨input, hInside diagnostic hMem⟩)
      fun diagnostic hMem _ => (hInside diagnostic hMem).not_blames hInput

end Reader

end RuleBlocks
