import RuleBlocks.Proofs.CommandLine.Run
import RuleBlocks.Proofs.Json.Lines
import RuleBlocks.Proofs.RoundTrip.Kept
import RuleBlocks.Proofs.Wire.Depth
import RuleBlocks.Proofs.Wire.Kept

/-!
# Printed programs

A run that prints a program as JSON prints it at the end, after an empty line, and there is no empty
line in it (`printedJson_ofRoundTrip`). What is printed is what was kept of the program in the file,
whatever the vocabulary is and whether references are checked or not. That is canonical and nests no
deeper than the file, so a file with the printed program can be loaded, and a run on it prints the
same program without any loss (`run_printedJson`).
-/

namespace RuleBlocks.CommandLine

open Json (FullLines)

/-! ## The end of the output -/

/-- What stands before the first empty line of a text that is given backwards. -/
def backToEmptyLine : List Char → List Char
  | '\n' :: '\n' :: _ => []
  | char :: rest => char :: backToEmptyLine rest
  | [] => []

/-- The program that a run has printed: what follows the last empty line of the output, without the
line break at the end. -/
def printedJson (output : String) : String :=
  String.ofList (backToEmptyLine (output.toList.reverse.drop 1)).reverse

theorem backToEmptyLine_append {chars : List Char}
    (hApart : chars.IsChain fun after before => before = '\n' → after ≠ '\n')
    (hLast : ∀ char ∈ chars.getLast?, char ≠ '\n') (rest : List Char) :
    backToEmptyLine (chars ++ '\n' :: '\n' :: rest) = chars := by
  induction chars with
  | nil => rfl
  | cons char chars ih =>
    cases chars with
    | nil =>
      have hNe : char ≠ '\n' := hLast char rfl
      rw [List.singleton_append, backToEmptyLine]
      · rfl
      · exact fun _ hBreak => absurd hBreak hNe
    | cons next chars =>
      obtain ⟨hFirst, hRest⟩ := List.isChain_cons_cons.mp hApart
      rw [List.cons_append, backToEmptyLine, ih hRest hLast]
      intro _ hBreak hNext
      rw [List.cons_append, List.cons.injEq] at hNext
      exact hFirst hNext.1 hBreak

/-- A text without empty lines is found again after an empty line. -/
theorem printedJson_append {chars : List Char} (hLines : FullLines chars) (report : String) :
    printedJson (report ++ "\n\n" ++ String.ofList chars ++ "\n") = String.ofList chars := by
  have hChars : ((report ++ "\n\n" ++ String.ofList chars ++ "\n").toList.reverse.drop 1) =
      chars.reverse ++ '\n' :: '\n' :: report.toList.reverse := by simp
  rw [printedJson, hChars, backToEmptyLine_append, List.reverse_reverse]
  · exact List.isChain_reverse.mpr hLines.apart
  · intro char hChar
    rw [List.getLast?_reverse] at hChar
    exact hLines.first char hChar

variable {Program : Type} {toJson : Program → Json} {path : String} {switches : List Switch}

theorem code_ofRoundTrip_ne (trip : RoundTrip Program) :
    (Outcome.ofRoundTrip path switches toJson trip).code ≠ 1 := by
  unfold Outcome.ofRoundTrip
  dsimp only
  split <;> decide

/-- The report of a round trip ends with the verdict and the program that came back. -/
theorem output_ofRoundTrip (path : String) (toJson : Program → Json)
    (hJson : .json ∈ switches) (trip : RoundTrip Program) :
    ∃ report, (Outcome.ofRoundTrip path switches toJson trip).output =
      report ++ "Round trip: " ++ (if trip.isLossless then "lossless" else "CHANGED") ++ "\n\n" ++
        (toJson trip.reading.value).pretty ++ "\n" := by
  have hBreaks : "\n\n" = "\n" ++ "\n" := rfl
  unfold Outcome.ofRoundTrip
  rw [if_pos hJson, hBreaks]
  simp only [← String.append_assoc]
  exact ⟨_, rfl⟩

theorem printedJson_ofRoundTrip (hJson : .json ∈ switches) (trip : RoundTrip Program) :
    printedJson (Outcome.ofRoundTrip path switches toJson trip).output =
      (toJson trip.reading.value).pretty := by
  obtain ⟨report, hOutput⟩ := output_ofRoundTrip path toJson hJson trip
  rw [hOutput]
  exact printedJson_append (Json.fullLines_prettyChars _ 0) _

theorem output_eq_printedJson (hJson : .json ∈ switches) (trip : RoundTrip Program) :
    ∃ report, (Outcome.ofRoundTrip path switches toJson trip).output =
      report ++ "\n\n" ++ printedJson (Outcome.ofRoundTrip path switches toJson trip).output ++
        "\n" := by
  rw [printedJson_ofRoundTrip hJson]
  obtain ⟨report, hOutput⟩ := output_ofRoundTrip path toJson hJson trip
  exact ⟨_, hOutput⟩

/-! ## A second run -/

theorem fromUTF8?_toUTF8 (text : String) : String.fromUTF8? text.toUTF8 = some text :=
  dif_pos text.isValidUTF8

/-- A program is loaded from a file in which it was written. -/
theorem load_pretty {decode : Json.Decoder Program} {program : Program} {json : Json}
    (hReads : decode.Reads json program) (hDepth : json.depth ≤ Json.nestingLimit) (path : String) :
    FileContent.load (.bytes json.pretty.toUTF8) path decode = .ok program := by
  rw [FileContent.load, FileContent.text, fromUTF8?_toUTF8]
  dsimp only [bind, Except.bind]
  rw [hReads.decodeText_pretty hDepth]
  rfl

/-- What is loaded from a file is written within the limit of brackets. -/
theorem depth_le_of_load {decode : Json.Decoder Program} (hFits : decode.Fits toJson)
    {content : FileContent} {program : Program}
    (hLoad : content.load path decode = .ok program) :
    (toJson program).depth ≤ Json.nestingLimit := by
  obtain ⟨text, -, hText⟩ := exists_ok_of_bind hLoad
  exact hFits.decodeText (ok_of_mapError hText)

/-- A run reports a round trip without any loss and prints a program. -/
structure Outcome.PrintsLossless (outcome : Outcome) (json : String) : Prop where
  code : outcome.code = 0
  errors : outcome.errors = ""
  output : ∃ report, outcome.output = report ++ "Round trip: lossless\n\n" ++ json ++ "\n"
  printed : printedJson outcome.output = json

theorem printsLossless_ofRoundTrip (hJson : .json ∈ switches) {trip : RoundTrip Program}
    {program : Program} (hLossless : trip.isLossless = true)
    (hValue : trip.reading.value = program) :
    (Outcome.ofRoundTrip path switches toJson trip).PrintsLossless (toJson program).pretty := by
  subst hValue
  refine ⟨if_pos hLossless, rfl, ?_, printedJson_ofRoundTrip hJson trip⟩
  obtain ⟨report, hOutput⟩ := output_ofRoundTrip path toJson hJson trip
  rw [if_pos hLossless] at hOutput
  exact ⟨report, by rw [hOutput]; simp [String.append_assoc]⟩

variable {arguments : Arguments} {content : FileContent} {known : Vocabulary}
variable {registered : List (Category × String)}

/-- A form in which a run with some arguments takes a program: how the program is read from a file,
the round trip that the run makes with it, and what is kept of it there. What is kept is written
within the limit of brackets, and it comes back. -/
structure Arguments.Form (arguments : Arguments) (toJson : Program → Json) where
  decode : Json.Decoder Program
  trip : Program → RoundTrip Program
  kept : Program → Program
  run_eq : ∀ {path : String} {content : FileContent} {program : Program},
    content.load path decode = .ok program →
      run path arguments content =
        Outcome.ofRoundTrip path arguments.switches toJson (trip program)
  reads : ∀ program, decode.Reads (toJson program) program
  fits : decode.Fits toJson
  depth_kept : ∀ program, (toJson (kept program)).depth ≤ (toJson program).depth
  value_trip : ∀ program, (trip program).reading.value = kept program
  kept_kept : ∀ program, kept (kept program) = kept program
  lossless_kept : ∀ program, (trip (kept program)).isLossless = true

/-- What is printed for a program is what was kept of it, and that is printed again. -/
theorem Arguments.Form.prints_again (form : arguments.Form toJson)
    (hJson : .json ∈ arguments.switches) {program : Program}
    (hLoad : content.load path form.decode = .ok program) (other : String) :
    let printed := printedJson (run path arguments content).output
    (∃ report, (run path arguments content).output = report ++ "\n\n" ++ printed ++ "\n") ∧
      (run other arguments (.bytes printed.toUTF8)).PrintsLossless printed := by
  have hPrinted : printedJson (run path arguments content).output =
      (toJson (form.kept program)).pretty := by
    rw [form.run_eq hLoad, printedJson_ofRoundTrip hJson, form.value_trip]
  have hDepth : (toJson (form.kept program)).depth ≤ Json.nestingLimit :=
    Nat.le_trans (form.depth_kept program) (depth_le_of_load form.fits hLoad)
  have hAgain := load_pretty (form.reads (form.kept program)) hDepth other
  constructor
  · rw [form.run_eq hLoad]
    exact output_eq_printedJson hJson _
  · rw [hPrinted, form.run_eq hAgain]
    refine printsLossless_ofRoundTrip hJson (form.lossless_kept program) ?_
    rw [form.value_trip, form.kept_kept]

section

variable (hVocabulary : ∀ kind : BlockKind, known.kind? kind.tag = some kind)
variable (hKnown : vocabulary arguments.aliases = .ok known)
variable (hRegistered : globals arguments.globals = .ok registered)

/-- The form of a run that is not asked for phases. -/
def statementForm (hForm : .phases ∉ arguments.switches) : arguments.Form Statement.toJson where
  decode := Statement.ofJson
  trip statement :=
    let reading := (Reader.ofView statement.drawn.view known
      (arguments.options registered)).readChain (Blueprint.chainNodes 0 statement.blueprints).head?
    ⟨statement.drawn, reading, reading.value = statement.normalForm⟩
  kept := Statement.kept
  run_eq hLoad := run_statement hKnown hRegistered hForm hLoad
  reads := Statement.reads_toJson
  fits := Statement.fits_ofJson
  depth_kept := Statement.depth_toJson_kept
  value_trip statement := statement.value_drawn hVocabulary (arguments.options registered)
  kept_kept statement := statement.canonical_kept.kept_eq
  lossless_kept statement := by
    refine decide_eq_true ?_
    rw [statement.kept.value_drawn hVocabulary, statement.canonical_kept.kept_eq,
      statement.canonical_kept.normal]

/-- The form of a run that is asked for phases. -/
def phasesForm (hForm : .phases ∈ arguments.switches) : arguments.Form Phases.toJson where
  decode := Phases.ofJson
  trip phases :=
    let reading := (Reader.ofView phases.drawn.view known
      (arguments.options registered)).readPhases
    ⟨phases.drawn, reading, reading.value = Phases.normalForm phases⟩
  kept := Phases.kept
  run_eq hLoad := run_phases hKnown hRegistered hForm hLoad
  reads := Phases.reads_toJson
  fits := Phases.fits_ofJson
  depth_kept := Phases.depth_toJson_kept
  value_trip phases := phases.value_drawn hVocabulary (arguments.options registered)
  kept_kept phases := Phases.kept_eq_of_canonical phases.canonical_kept
  lossless_kept phases := by
    refine decide_eq_true ?_
    rw [Phases.value_drawn phases.kept hVocabulary,
      Phases.kept_eq_of_canonical phases.canonical_kept,
      (Phases.roundTrips_of_canonical _ phases.canonical_kept).1]

end

/-- **What a run prints is a program that comes back.** Whenever a run that is asked for JSON makes
a round trip, whether without loss or not, and no alias gives another meaning to a canonical tag, a
run with the same arguments on any file that holds what it printed reports a round trip without any
loss and prints the same again. -/
theorem run_printedJson (path other : String) (arguments : Arguments) (content : FileContent)
    (hJson : .json ∈ arguments.switches) (hTags : arguments.KeepsTags)
    (hCode : (run path arguments content).code ≠ 1) :
    let printed := printedJson (run path arguments content).output
    (∃ report, (run path arguments content).output = report ++ "\n\n" ++ printed ++ "\n") ∧
      (run other arguments (.bytes printed.toUTF8)).PrintsLossless printed := by
  obtain ⟨known, registered, hKnown, hRegistered, hProgram⟩ := exists_program_of_code_ne hCode
  have hVocabulary := hTags.kind?_tag hKnown
  split at hProgram
  · rename_i hForm
    obtain ⟨phases, hLoad⟩ := hProgram
    exact (phasesForm hVocabulary hKnown hRegistered hForm).prints_again hJson hLoad other
  · rename_i hForm
    obtain ⟨statement, hLoad⟩ := hProgram
    exact (statementForm hVocabulary hKnown hRegistered hForm).prints_again hJson hLoad other

/-- A request for JSON with a check of references, a global and an alias. -/
def checkedArguments : Arguments where
  path? := some "game.json"
  switches := [.checkScopes, .json]
  globals := ["socs_t_player:dealer"]
  aliases := ["go=socs_enter_phase"]

theorem keepsTags_checkedArguments : checkedArguments.KeepsTags := by
  intro text hText tag canonicalTag hSplit
  obtain rfl := List.mem_singleton.mp hText
  have hGo : splitFirst? '=' "go=socs_enter_phase".toList =
      some (['g', 'o'], "socs_enter_phase".toList) := by decide
  obtain ⟨rfl, -⟩ := Prod.mk.inj (Option.some.inj (hGo.symm.trans hSplit))
  decide

/-- A sequence from which an item, and a branch of another one, are left out. -/
def halfNamed : Statement :=
  .block [.enterPhase "",
    .conditional (.comparison (.var "n") .less (.literal 3)) (.enterPhase "") (.enterPhase "end")]

/-- A file that holds the sequence. -/
def halfNamedFile : FileContent := .bytes halfNamed.toJson.pretty.toUTF8

theorem code_run_halfNamedFile : (run "game.json" checkedArguments halfNamedFile).code ≠ 1 := by
  have hKnown : vocabulary checkedArguments.aliases =
      .ok (.ofAliases [("go", "socs_enter_phase")]) := by decide
  have hRegistered : globals checkedArguments.globals = .ok [(.player, "dealer")] := by decide
  have hLoad : halfNamedFile.load "game.json" Statement.ofJson = .ok halfNamed :=
    load_pretty halfNamed.reads_toJson (by decide) "game.json"
  rw [run_statement hKnown hRegistered (by decide) hLoad]
  exact code_ofRoundTrip_ne _

theorem halfNamedFile_printedAgain :
    (.json ∈ checkedArguments.switches ∧ checkedArguments.KeepsTags ∧
      (run "game.json" checkedArguments halfNamedFile).code ≠ 1) ∧
    (∃ report, (run "game.json" checkedArguments halfNamedFile).output = report ++ "\n\n" ++
      printedJson (run "game.json" checkedArguments halfNamedFile).output ++ "\n") ∧
    Outcome.PrintsLossless
      (run "again.json" checkedArguments
        (.bytes (printedJson (run "game.json" checkedArguments halfNamedFile).output).toUTF8))
      (printedJson (run "game.json" checkedArguments halfNamedFile).output) := by
  have hJson : .json ∈ checkedArguments.switches := by decide
  exact ⟨⟨hJson, keepsTags_checkedArguments, code_run_halfNamedFile⟩,
    run_printedJson "game.json" "again.json" checkedArguments halfNamedFile hJson
      keepsTags_checkedArguments code_run_halfNamedFile⟩

end RuleBlocks.CommandLine
