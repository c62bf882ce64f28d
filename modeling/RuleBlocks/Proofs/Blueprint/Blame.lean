import RuleBlocks.Proofs.Graph.Calls

/-!
# Who is to blame

A step that is refused is blamed on a block. In the plan of a blueprint it is always one that the
plan has made by then, and if the blame names a kind, then the block was made with the tag of that
kind (`blamesMade_steps`, `blamesMade_chainSteps`).
-/

namespace RuleBlocks.Blueprint

/-- The tags of the blocks that steps make. -/
def madeBy (steps : List Step) : List String := steps.filterMap fun step => step.edit.madeTag?

/-- The blame is on one of the blocks that were made with some tags, from a number on. -/
def BlamesOne (start : Nat) (made : List String) (blame : Blame) : Prop :=
  ∃ index tag, blame.node = start + index ∧ made[index]? = some tag ∧
    ∀ kind, blame.kind? = some kind → kind.tag = tag

/-- Every step is blamed on a block that was made before, unless it makes one itself. -/
def BlamesMade (start : Nat) : List String → List Step → Prop
  | _, [] => True
  | made, step :: steps =>
    (step.edit.madeTag? = none → BlamesOne start made step.blame) ∧
      BlamesMade start (made ++ step.edit.madeTag?.toList) steps

variable {start : Nat} {made : List String} {blame : Blame} {first second : List Step}

theorem BlamesOne.append (h : BlamesOne start made blame) (more : List String) :
    BlamesOne start (made ++ more) blame := by
  obtain ⟨index, tag, hNode, hTag, hKind⟩ := h
  have hIndex := (List.getElem?_eq_some_iff.mp hTag).1
  exact ⟨index, tag, hNode, (List.getElem?_append_left hIndex).trans hTag, hKind⟩

theorem blamesOne_of_lt {node : Nat} (hLower : start ≤ node)
    (hUpper : node < start + made.length) : BlamesOne start made ⟨node, none⟩ := by
  obtain ⟨index, rfl⟩ := Nat.exists_eq_add_of_le hLower
  have hIndex : index < made.length := Nat.lt_of_add_lt_add_left hUpper
  exact ⟨index, made[index], rfl, List.getElem?_eq_getElem hIndex, nofun⟩

theorem madeBy_append : madeBy (first ++ second) = madeBy first ++ madeBy second :=
  List.filterMap_append

theorem blamesMade_append :
    BlamesMade start made (first ++ second) ↔
      BlamesMade start made first ∧ BlamesMade start (made ++ madeBy first) second := by
  induction first generalizing made with
  | nil => simp [BlamesMade, madeBy]
  | cons step steps ih =>
    have hMade : madeBy (step :: steps) = step.edit.madeTag?.toList ++ madeBy steps := by
      cases hTag : step.edit.madeTag? <;> simp [madeBy, hTag]
    rw [List.cons_append, BlamesMade, BlamesMade, ih, hMade, List.append_assoc, and_assoc]

/-- Steps that make nothing and are blamed on blocks that exist already. -/
def Links (start : Nat) (made : List String) (steps : List Step) : Prop :=
  ∀ step ∈ steps, step.edit.madeTag? = none ∧ BlamesOne start made step.blame

theorem Links.blamesMade {steps : List Step} (h : Links start made steps) :
    BlamesMade start made steps := by
  induction steps with
  | nil => trivial
  | cons step steps ih =>
    obtain ⟨hMade, hBlame⟩ := h step List.mem_cons_self
    refine ⟨fun _ => hBlame, ?_⟩
    rw [hMade, Option.toList_none, List.append_nil]
    exact ih fun other hOther => h other (List.mem_cons_of_mem _ hOther)

/-! ## How many blocks are made -/

theorem madeBy_setFields (node : NodeId) (blame : Blame) (fields : List (String × String)) :
    madeBy (fields.map fun field => ⟨.setField node field.1 field.2, blame⟩) = [] := by
  simp [madeBy, Edit.madeTag?]

theorem madeBy_attachSteps (link? : Option ParentLink) (child : NodeId) :
    madeBy (attachSteps link? child) = [] := by
  cases link? <;> rfl

theorem madeBy_linkSteps (node : NodeId) (rest : List NodeId) :
    madeBy (linkSteps node rest) = [] := by
  induction rest generalizing node with
  | nil => rfl
  | cons second rest ih => exact ih second

theorem madeBy_partSteps (kind : BlockKind) (node : NodeId) (input : String)
    (parts : List NodeId) : madeBy (partSteps kind node input parts) = [] := by
  cases parts with
  | nil => rfl
  | cons first rest => exact madeBy_linkSteps first rest

mutual

theorem length_madeBy_steps (node : Nat) :
    ∀ blueprint : Blueprint, (madeBy (steps node blueprint)).length = blueprint.size
  | block kind fields sockets => by
    have hSockets := length_madeBy_socketsSteps kind node (node + 1) sockets
    rw [steps, ← List.singleton_append, madeBy_append, madeBy_append, madeBy_setFields,
      List.nil_append, List.length_append, hSockets, size, Nat.add_comm]
    rfl

theorem length_madeBy_socketsSteps (kind : BlockKind) (node free : Nat) :
    ∀ sockets : List (SocketOf Blueprint),
      (madeBy (socketsSteps kind node free sockets)).length = socketsSize sockets
  | [] => rfl
  | socket :: sockets => by
    rw [socketsSteps, madeBy_append, List.length_append,
      length_madeBy_socketSteps kind node free socket,
      length_madeBy_socketsSteps kind node _ sockets, socketsSize]

theorem length_madeBy_socketSteps (kind : BlockKind) (node free : Nat) :
    ∀ socket : SocketOf Blueprint,
      (madeBy (socketSteps kind node free socket)).length = socketSize socket
  | .value input inner => by
    rw [socketSteps, madeBy_append, List.length_append, length_madeBy_steps free inner, socketSize]
    rfl
  | .body input chain => by
    rw [socketSteps, length_madeBy_chainSteps _ free chain, socketSize]
  | .parts input chain => by
    rw [socketSteps, madeBy_append, madeBy_partSteps, List.append_nil,
      length_madeBy_makeSteps free chain, socketSize]

theorem length_madeBy_chainSteps (link? : Option ParentLink) (free : Nat) :
    ∀ chain : List Blueprint, (madeBy (chainSteps link? free chain)).length = chainSize chain
  | [] => rfl
  | first :: rest => by
    rw [chainSteps, madeBy_append, madeBy_append, madeBy_attachSteps, List.append_nil,
      List.length_append, length_madeBy_steps free first, length_madeBy_chainSteps _ _ rest,
      chainSize]

theorem length_madeBy_makeSteps (free : Nat) :
    ∀ chain : List Blueprint, (madeBy (makeSteps free chain)).length = chainSize chain
  | [] => rfl
  | first :: rest => by
    rw [makeSteps, madeBy_append, List.length_append, length_madeBy_steps free first,
      length_madeBy_makeSteps _ rest, chainSize]

end

/-! ## Blame -/

theorem links_attachSteps (link? : Option ParentLink) {child : NodeId}
    (hChild : BlamesOne start made ⟨child, none⟩) :
    Links start made (attachSteps link? child) := by
  cases link? with
  | none => nofun
  | some link =>
    intro step hStep
    obtain rfl := List.mem_singleton.mp hStep
    exact ⟨rfl, hChild⟩

theorem links_linkSteps {node : NodeId} {rest : List NodeId}
    (hMade : ∀ member ∈ node :: rest, BlamesOne start made ⟨member, none⟩) :
    Links start made (linkSteps node rest) := by
  induction rest generalizing node with
  | nil => nofun
  | cons second rest ih =>
    intro step hStep
    rcases List.mem_cons.mp hStep with rfl | hMore
    · exact ⟨rfl, hMade node List.mem_cons_self⟩
    · exact ih (fun member hMember => hMade member (List.mem_cons_of_mem _ hMember)) step hMore

theorem links_partSteps {kind : BlockKind} {node : NodeId} (input : String) {parts : List NodeId}
    (hNode : BlamesOne start made ⟨node, some kind⟩)
    (hMade : ∀ member ∈ parts, BlamesOne start made ⟨member, none⟩) :
    Links start made (partSteps kind node input parts) := by
  cases parts with
  | nil => nofun
  | cons first rest =>
    intro step hStep
    rcases List.mem_cons.mp hStep with rfl | hMore
    · exact ⟨rfl, hNode⟩
    · exact links_linkSteps hMade step hMore

mutual

/-- **The steps for a block blame only blocks that were made before.** -/
theorem blamesMade_steps (node : Nat) (made : List String) (hNode : start + made.length = node) :
    ∀ blueprint : Blueprint, BlamesMade start made (steps node blueprint)
  | block kind fields sockets => by
    have hOne : BlamesOne start (made ++ [kind.tag]) ⟨node, some kind⟩ := by
      refine ⟨made.length, kind.tag, hNode.symm, ?_, ?_⟩
      · rw [List.getElem?_append_right (Nat.le_refl _), Nat.sub_self]
        rfl
      · rintro _ ⟨⟩
        rfl
    have hFields : Links start (made ++ [kind.tag]) (fields.map fun field =>
        ⟨.setField node field.1 field.2, ⟨node, some kind⟩⟩) := by
      intro step hStep
      obtain ⟨field, -, rfl⟩ := List.mem_map.mp hStep
      exact ⟨rfl, hOne⟩
    have hFree : start + (made ++ [kind.tag]).length = node + 1 := by
      rw [List.length_append, ← Nat.add_assoc, hNode]
      rfl
    rw [steps]
    refine ⟨nofun, blamesMade_append.mpr ⟨hFields.blamesMade, ?_⟩⟩
    rw [madeBy_setFields, List.append_nil]
    exact blamesMade_socketsSteps kind node (node + 1) _ hFree hOne sockets

theorem blamesMade_socketsSteps (kind : BlockKind) (node free : Nat) (made : List String)
    (hFree : start + made.length = free) (hOne : BlamesOne start made ⟨node, some kind⟩) :
    ∀ sockets : List (SocketOf Blueprint),
      BlamesMade start made (socketsSteps kind node free sockets)
  | [] => trivial
  | socket :: sockets => by
    rw [socketsSteps]
    refine blamesMade_append.mpr
      ⟨blamesMade_socketSteps kind node free made hFree hOne socket, ?_⟩
    refine blamesMade_socketsSteps kind node _ _ ?_ (hOne.append _) sockets
    rw [List.length_append, length_madeBy_socketSteps, ← Nat.add_assoc, hFree]

theorem blamesMade_socketSteps (kind : BlockKind) (node free : Nat) (made : List String)
    (hFree : start + made.length = free) (hOne : BlamesOne start made ⟨node, some kind⟩) :
    ∀ socket : SocketOf Blueprint, BlamesMade start made (socketSteps kind node free socket)
  | .value input inner => by
    rw [socketSteps]
    refine blamesMade_append.mpr ⟨blamesMade_steps free made hFree inner, ?_⟩
    exact ⟨fun _ => hOne.append _, trivial⟩
  | .body input chain => by
    rw [socketSteps]
    exact blamesMade_chainSteps _ free made hFree chain
  | .parts input chain => by
    rw [socketSteps]
    refine blamesMade_append.mpr ⟨blamesMade_makeSteps free made hFree chain, ?_⟩
    refine (links_partSteps input (hOne.append _) fun member hMember => ?_).blamesMade
    obtain ⟨hLower, hUpper⟩ := mem_chainNodes_bounds hMember
    refine blamesOne_of_lt (Nat.le_trans ?_ hLower) ?_
    · rw [← hFree]
      exact Nat.le_add_right _ _
    · rwa [List.length_append, length_madeBy_makeSteps, ← Nat.add_assoc, hFree]

/-- **The steps for a chain blame only blocks that were made before.** -/
theorem blamesMade_chainSteps (link? : Option ParentLink) (free : Nat) (made : List String)
    (hFree : start + made.length = free) :
    ∀ chain : List Blueprint, BlamesMade start made (chainSteps link? free chain)
  | [] => trivial
  | first :: rest => by
    have hLength : start + (made ++ madeBy (steps free first)).length = free + first.size := by
      rw [List.length_append, length_madeBy_steps, ← Nat.add_assoc, hFree]
    have hChild : BlamesOne start (made ++ madeBy (steps free first)) ⟨free, none⟩ := by
      refine blamesOne_of_lt ?_ ?_
      · rw [← hFree]
        exact Nat.le_add_right _ _
      · rw [hLength]
        exact Nat.lt_add_of_pos_right first.size_pos
    rw [chainSteps]
    refine blamesMade_append.mpr ⟨blamesMade_append.mpr
      ⟨blamesMade_steps free made hFree first, (links_attachSteps link? hChild).blamesMade⟩, ?_⟩
    rw [madeBy_append, madeBy_attachSteps, List.append_nil]
    exact blamesMade_chainSteps _ _ _ hLength rest

theorem blamesMade_makeSteps (free : Nat) (made : List String)
    (hFree : start + made.length = free) :
    ∀ chain : List Blueprint, BlamesMade start made (makeSteps free chain)
  | [] => trivial
  | first :: rest => by
    rw [makeSteps]
    refine blamesMade_append.mpr ⟨blamesMade_steps free made hFree first, ?_⟩
    refine blamesMade_makeSteps _ _ ?_ rest
    rw [List.length_append, length_madeBy_steps, ← Nat.add_assoc, hFree]

end

end RuleBlocks.Blueprint
