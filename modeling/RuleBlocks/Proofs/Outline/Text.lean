import RuleBlocks.Proofs.Outline.Lines
import RuleBlocks.Proofs.Text
import RuleBlocks.Proofs.Workspace.Run

/-!
# The text of an outline

If the names in a workspace stand on one line each, whatever its fields hold, then the outline has
just one line for each block, and these are the blocks in preorder (`outline_run`). The line of a
block is `shownLine`. It is indented by four columns for each input on the way to the block, and
rails and marks tell the blocks that are the last ones at their level from the others.
-/

namespace RuleBlocks

/-! ## Texts on one line -/

namespace Text

/-- A text without line breaks. -/
def OnOneLine (text : String) : Prop := '\n' ∉ text.toList

instance (text : String) : Decidable (OnOneLine text) := inferInstanceAs (Decidable (_ ∉ _))

theorem onOneLine_append {first second : String} :
    OnOneLine (first ++ second) ↔ OnOneLine first ∧ OnOneLine second := by
  simp [OnOneLine]

theorem onOneLine_join {texts : List String} :
    OnOneLine (String.join texts) ↔ ∀ text ∈ texts, OnOneLine text := by
  simp [OnOneLine]

theorem onOneLine_intercalate {separator : String} {texts : List String}
    (hSeparator : OnOneLine separator) (hTexts : ∀ text ∈ texts, OnOneLine text) :
    OnOneLine (separator.intercalate texts) := by
  induction texts with
  | nil => exact List.not_mem_nil
  | cons text texts ih =>
    have hFirst := hTexts text List.mem_cons_self
    have hRest := ih fun other hOther => hTexts other (List.mem_cons_of_mem _ hOther)
    by_cases hNil : texts = []
    · rwa [hNil, String.intercalate_singleton]
    · rw [String.intercalate_cons_of_ne_nil hNil, onOneLine_append, onOneLine_append]
      exact ⟨⟨hFirst, hSeparator⟩, hRest⟩

theorem lineBreak_notMem_toDigits {base : Nat} (hBase : 1 < base) (hMost : base ≤ 16)
    (number : Nat) : '\n' ∉ Nat.toDigits base number := by
  have hDigit : ∀ digit < 16, '\n' ≠ Nat.digitChar digit := by decide
  induction number using Nat.strongRecOn with
  | ind number ih =>
    rcases Nat.lt_or_ge number base with hLt | hLe
    · rw [Nat.toDigits_of_lt_base hLt, List.mem_singleton]
      exact hDigit number (by omega)
    · have hLess : number / base < number := Nat.div_lt_self (by omega) hBase
      have hLast : number % base < base := Nat.mod_lt _ (by omega)
      rw [Nat.toDigits_of_base_le hBase hLe, List.mem_append, List.mem_singleton, not_or]
      exact ⟨ih _ hLess, hDigit _ (by omega)⟩

theorem onOneLine_quotedChar (char : Char) : OnOneLine (quotedChar char) := by
  unfold quotedChar
  split_ifs with hQuote hSlash hTab hBreak
  on_goal 7 =>
    rw [codePoint, onOneLine_append, onOneLine_append]
    refine ⟨⟨by decide, ?_⟩, by decide⟩
    rw [OnOneLine, String.toList_ofList]
    exact lineBreak_notMem_toDigits (by decide) (by decide) _
  on_goal 7 =>
    rw [OnOneLine, Char.toString_eq_singleton, String.toList_singleton, List.mem_singleton]
    exact Ne.symm hBreak
  all_goals decide

/-- A quoted text stands on one line, whatever the text is. -/
theorem onOneLine_quoted (text : String) : OnOneLine (quoted text) := by
  rw [quoted, onOneLine_append, onOneLine_append, onOneLine_join]
  refine ⟨⟨by decide, fun written hWritten => ?_⟩, by decide⟩
  obtain ⟨char, -, rfl⟩ := List.mem_map.mp hWritten
  exact onOneLine_quotedChar char

/-- Lines that end in line breaks are found again. -/
theorem splitOn_lines {lines : List String} (h : ∀ line ∈ lines, OnOneLine line) :
    (String.join (lines.map (· ++ "\n"))).toList.splitOn '\n' =
      lines.map String.toList ++ [[]] := by
  induction lines with
  | nil => rfl
  | cons line lines ih =>
    have hLine := h line List.mem_cons_self
    have hRest := ih fun other hOther => h other (List.mem_cons_of_mem _ hOther)
    have hText : (String.join ((line :: lines).map (· ++ "\n"))).toList =
        line.toList ++ '\n' :: (String.join (lines.map (· ++ "\n"))).toList := by simp
    rw [hText, List.splitOn_append_cons_self_of_not_mem hLine, hRest]
    rfl

end Text

theorem NodeId.onOneLine_text (node : NodeId) : Text.OnOneLine node.text := by
  rw [NodeId.text, Text.onOneLine_append]
  refine ⟨by decide, ?_⟩
  rw [Text.OnOneLine, Nat.repr, String.toList_ofList]
  exact Text.lineBreak_notMem_toDigits (by decide) (by decide) node

/-! ## What a line says -/

/-- The names in a block stand on one line each. The values of its fields may be any texts. -/
def Block.NamesOnOneLine (block : Block) : Prop :=
  Text.OnOneLine block.tag ∧ (∀ name ∈ block.fields.names, Text.OnOneLine name) ∧
    ∀ connection ∈ block.inputs, Text.OnOneLine connection.input

instance (block : Block) : Decidable block.NamesOnOneLine := inferInstanceAs (Decidable (_ ∧ _ ∧ _))

theorem Block.NamesOnOneLine.onOneLine_fieldsText {block : Block} (h : block.NamesOnOneLine) :
    Text.OnOneLine (Workspace.fieldsText block.fields) := by
  unfold Workspace.fieldsText
  split
  · decide
  · rw [Text.onOneLine_append, Text.onOneLine_append]
    refine ⟨⟨by decide, Text.onOneLine_intercalate (by decide) fun text hText => ?_⟩, by decide⟩
    obtain ⟨entry, hEntry, rfl⟩ := List.mem_map.mp hText
    rw [Text.onOneLine_append, Text.onOneLine_append]
    exact ⟨⟨h.2.1 _ (List.mem_map_of_mem hEntry), by decide⟩, Text.onOneLine_quoted _⟩

namespace Workspace

/-- The names in a workspace stand on one line each. -/
def NamesOnOneLine (workspace : Workspace) : Prop :=
  ∀ block ∈ workspace.blocks.toList, block.NamesOnOneLine

instance (workspace : Workspace) : Decidable workspace.NamesOnOneLine :=
  inferInstanceAs (Decidable (∀ block ∈ workspace.blocks.toList, _))

/-- The indentation of a block: a column for each input on the way to it, with a rail unless the
block that has the input is the last one at its level. -/
def indentation (workspace : Workspace) (node : NodeId) : String :=
  String.join <| (workspace.inputHolders node).map fun holder =>
    if workspace.IsLast holder then "    " else "│   "

/-- The mark of a block tells whether it is the last one at its level. -/
def mark (workspace : Workspace) (node : NodeId) : String :=
  if workspace.IsLast node then "└── " else "├── "

/-- The name of the input that starts with a block, the tag and the number of the block, and its
fields. -/
def caption (workspace : Workspace) (node : NodeId) : String :=
  match workspace.block? node with
  | none => ""
  | some block =>
    ((workspace.label? node).map (· ++ ": ")).getD "" ++ block.tag ++ " " ++ node.text ++
      fieldsText block.fields

/-- The text of the line of a block. -/
def shownLine (workspace : Workspace) (node : NodeId) : String :=
  workspace.indentation node ++ workspace.mark node ++ workspace.caption node

variable {workspace : Workspace} {node : NodeId}

theorem length_indentation (workspace : Workspace) (node : NodeId) :
    (workspace.indentation node).length = 4 * (workspace.inputHolders node).length := by
  unfold indentation
  induction workspace.inputHolders node with
  | nil => rfl
  | cons holder holders ih =>
    have hColumn : (if workspace.IsLast holder then "    " else "│   ").length = 4 := by
      split <;> decide
    rw [List.map_cons, String.join_cons, String.length_append, hColumn, ih, List.length_cons]
    omega

theorem onOneLine_indentation (workspace : Workspace) (node : NodeId) :
    Text.OnOneLine (workspace.indentation node) := by
  refine Text.onOneLine_join.mpr fun column hColumn => ?_
  obtain ⟨holder, -, rfl⟩ := List.mem_map.mp hColumn
  split <;> decide

theorem onOneLine_mark (workspace : Workspace) (node : NodeId) :
    Text.OnOneLine (workspace.mark node) := by
  unfold mark
  split <;> decide

/-- A line of an outline is the text that is shown of its block. -/
theorem lineText_lineOf (hNode : node < workspace.size) :
    workspace.lineText (workspace.lineOf node) = workspace.shownLine node := by
  obtain ⟨block, hBlock⟩ := exists_block?_iff.mpr hNode
  have hIndent : String.join ((workspace.lineOf node).rails.map fun rail =>
      if rail then "│   " else "    ") = workspace.indentation node := by
    rw [lineOf, List.map_map, indentation]
    congr 1
    refine List.map_congr_left fun holder _ => ?_
    by_cases hLast : workspace.IsLast holder <;> simp [hLast]
  have hMark : (if (workspace.lineOf node).isLast then "└── " else "├── ") =
      workspace.mark node := by
    simp [lineOf, mark]
  have hLabel : (workspace.lineOf node).label = workspace.label? node := rfl
  have hNumber : (workspace.lineOf node).node = node := rfl
  unfold lineText
  rw [hNumber, hBlock]
  dsimp only
  rw [hIndent, hMark, hLabel, shownLine, caption, hBlock]
  cases workspace.label? node <;> simp [String.append_assoc]

namespace Forest

variable (hForest : workspace.Forest)

include hForest

theorem onOneLine_of_label? (hNames : workspace.NamesOnOneLine) {label : String}
    (hLabel : workspace.label? node = some label) : Text.OnOneLine label := by
  have hHeld {holder : NodeId} {via : Attachment}
      (hParent : workspace.parent? node = some ⟨holder, via⟩) :
      ∃ block : Block, block.NamesOnOneLine ∧ block.Holds node via := by
    obtain ⟨block, hBlock, hHolds⟩ := hForest.parent?_iff.mp hParent
    exact ⟨block, hNames block (Array.mem_toList_iff.mpr (Array.mem_of_getElem? hBlock)), hHolds⟩
  unfold label? at hLabel
  split at hLabel
  · rename_i hParent
    obtain ⟨block, hBlock, hHolds⟩ := hHeld hParent
    exact Option.some.inj hLabel ▸ hBlock.2.2 _ hHolds
  · rename_i hParent
    obtain ⟨block, hBlock, hHolds⟩ := hHeld hParent
    exact Option.some.inj hLabel ▸ hBlock.2.2 _ hHolds
  · cases hLabel

theorem onOneLine_shownLine (hNames : workspace.NamesOnOneLine) (node : NodeId) :
    Text.OnOneLine (workspace.shownLine node) := by
  rw [shownLine, Text.onOneLine_append, Text.onOneLine_append]
  refine ⟨⟨onOneLine_indentation _ _, onOneLine_mark _ _⟩, ?_⟩
  unfold caption
  split
  · decide
  · rename_i block hBlock
    have hBlock : block.NamesOnOneLine :=
      hNames block (Array.mem_toList_iff.mpr (Array.mem_of_getElem? hBlock))
    simp only [Text.onOneLine_append]
    refine ⟨⟨⟨⟨?_, hBlock.1⟩, by decide⟩, NodeId.onOneLine_text node⟩, hBlock.onOneLine_fieldsText⟩
    cases hLabel : workspace.label? node with
    | none => exact List.not_mem_nil
    | some label =>
      exact Text.onOneLine_append.mpr ⟨hForest.onOneLine_of_label? hNames hLabel, by decide⟩

/-- Each line of an outline shows one block. -/
theorem splitOn_outline (hNames : workspace.NamesOnOneLine) :
    workspace.outline.toList.splitOn '\n' =
      (workspace.outlineLines.map fun line => (workspace.shownLine line.node).toList) ++ [[]] := by
  have hShown : workspace.outlineLines.map workspace.lineText =
      workspace.outlineLines.map fun line => workspace.shownLine line.node := by
    refine List.map_congr_left fun line hLine => ?_
    have hNode : line.node < workspace.size :=
      List.mem_range.mp <| (hForest.perm_preorder hForest.preorder_outlineLines).mem_iff.mp <|
        List.mem_map_of_mem hLine
    rw [hForest.eq_lineOf_of_mem_outlineLines hLine]
    exact lineText_lineOf hNode
  have hText : workspace.outline = String.join
      ((workspace.outlineLines.map fun line => workspace.shownLine line.node).map (· ++ "\n")) := by
    rw [← hShown, List.map_map]
    rfl
  rw [hText, Text.splitOn_lines, List.map_map]
  · rfl
  · intro text hText
    obtain ⟨line, -, rfl⟩ := List.mem_map.mp hText
    exact hForest.onOneLine_shownLine hNames line.node

end Forest

/-- **The outline shows every block once, in its place.** After any commands, if the names stand on
one line each, the lines of the outline show the blocks in preorder, from the roots in the order in
which they were made. There is one line for every block, and it is indented by four columns for each
input on the way to the block. -/
theorem outline_run (commands : List Command) (hNames : (run commands).NamesOnOneLine) :
    let workspace := run commands
    let roots := (List.range workspace.size).filter fun node => (workspace.parent? node).isNone
    ∃ order, workspace.Preorder roots order ∧
      (∀ other, workspace.Preorder roots other → other = order) ∧
      order.Perm (List.range workspace.size) ∧
      workspace.outline.toList.splitOn '\n' =
        order.map (fun node => (workspace.shownLine node).toList) ++ [[]] ∧
      ∀ node ∈ order,
        (workspace.indentation node).length = 4 * (workspace.inputHolders node).length := by
  intro workspace roots
  have hForest : workspace.Forest := Forest.run commands
  have hPerm := hForest.perm_preorder hForest.preorder_outlineLines
  have hRoots : workspace.roots = roots := hForest.roots_eq
  have hPreorder : workspace.Preorder roots (workspace.outlineLines.map OutlineLine.node) :=
    hRoots ▸ hForest.preorder_outlineLines
  refine ⟨_, hPreorder, fun _ hOther => hPreorder.unique hOther, hPerm, ?_,
    fun node _ => length_indentation _ _⟩
  rw [hForest.splitOn_outline hNames, List.map_map]
  rfl

/-- A block that is repeated, another one after it, and a note beside both. -/
def repeatedSteps : List Command :=
  [.edit (.create "repeat"), .edit (.create "number"), .edit (.create "say"),
    .edit (.create "done"), .edit (.create "note"), .edit (.setField 2 "TEXT" "one\ntwo"),
    .edit (.attach ⟨0, .statement "BODY"⟩ 2), .edit (.attach ⟨0, .value "TIMES"⟩ 1),
    .edit (.attach ⟨0, .next⟩ 3)]

theorem outline_repeatedSteps :
    let workspace := run repeatedSteps
    let roots := (List.range workspace.size).filter fun node => (workspace.parent? node).isNone
    workspace.NamesOnOneLine ∧ workspace.outline = "├── repeat #0
│   ├── BODY: say #2 [TEXT=\"one\\ntwo\"]
│   └── TIMES: number #1
├── done #3
└── note #4
" ∧
      ∃ order, workspace.Preorder roots order ∧
        (∀ other, workspace.Preorder roots other → other = order) ∧
        order.Perm (List.range workspace.size) ∧
        workspace.outline.toList.splitOn '\n' =
          order.map (fun node => (workspace.shownLine node).toList) ++ [[]] ∧
        ∀ node ∈ order,
          (workspace.indentation node).length = 4 * (workspace.inputHolders node).length := by
  have hNames : (run repeatedSteps).NamesOnOneLine := by decide +kernel
  exact ⟨hNames, by decide +kernel, outline_run repeatedSteps hNames⟩

end Workspace

end RuleBlocks
