import RuleBlocks.CommandLine
import RuleBlocks.Proofs.NameMap
import RuleBlocks.Proofs.Basic
import RuleBlocks.Proofs.RoundTrip.Lossless
import RuleBlocks.Proofs.Vocabulary

/-!
# Runs of the command line

A run that does not fail has well-formed aliases and globals and loads a program
(`exists_program_of_code_ne`); what it leaves behind then follows from the round trip of that
program (`run_statement`, `run_phases`). Aliases of tags that are not canonical leave the canonical
tags alone (`Arguments.KeepsTags.kind?_tag`).
-/

namespace RuleBlocks

namespace CommandLine

/-! ## Aliases -/

/-- No alias gives another meaning to a canonical tag. -/
def Arguments.KeepsTags (arguments : Arguments) : Prop :=
  ∀ text ∈ arguments.aliases, ∀ tag canonicalTag,
    splitFirst? '=' text.toList = some (tag, canonicalTag) →
      BlockKind.ofTag? (String.ofList tag) = none

theorem Arguments.KeepsTags.kind?_tag {arguments : Arguments} {known : Vocabulary}
    (hTags : arguments.KeepsTags) (hKnown : vocabulary arguments.aliases = .ok known)
    (kind : BlockKind) : known.kind? kind.tag = some kind := by
  obtain ⟨pairs, hPairs, hSame⟩ := exists_ok_of_bind hKnown
  cases hSame
  refine Vocabulary.kind?_ofAliases_tag (forall_mem_of_mapM hPairs ?_) kind
  intro text hText pair hPair
  split at hPair
  · rename_i tag canonicalTag hSplit
    cases hPair
    exact hTags text hText tag canonicalTag hSplit
  · cases hPair

/-! ## Outcomes -/

variable {path : String} {arguments : Arguments} {content : FileContent} {known : Vocabulary}
variable {registered : List (Category × String)}

/-- How references are read in a run. -/
def Arguments.options (arguments : Arguments) (registered : List (Category × String)) :
    ReadOptions := ⟨.checkScopes ∈ arguments.switches, registered⟩

/-- A run that does not fail makes a round trip of a program. -/
theorem exists_program_of_code_ne (hCode : (run path arguments content).code ≠ 1) :
    ∃ known registered, vocabulary arguments.aliases = .ok known ∧
      globals arguments.globals = .ok registered ∧
      if .phases ∈ arguments.switches then ∃ phases, content.load path Phases.ofJson = .ok phases
      else ∃ statement, content.load path Statement.ofJson = .ok statement := by
  cases hKnown : vocabulary arguments.aliases with
  | error message =>
    refine absurd ?_ hCode
    unfold run
    rw [hKnown]
    rfl
  | ok known =>
    cases hRegistered : globals arguments.globals with
    | error message =>
      refine absurd ?_ hCode
      unfold run
      rw [hKnown, hRegistered]
      rfl
    | ok registered =>
      refine ⟨known, registered, rfl, rfl, ?_⟩
      split
      · rename_i hForm
        cases hLoad : content.load path Phases.ofJson with
        | error fault =>
          refine absurd ?_ hCode
          unfold run
          simp only [hKnown, hRegistered, if_pos hForm, hLoad]
          rfl
        | ok phases => exact ⟨phases, rfl⟩
      · rename_i hForm
        cases hLoad : content.load path Statement.ofJson with
        | error fault =>
          refine absurd ?_ hCode
          unfold run
          simp only [hKnown, hRegistered, if_neg hForm, hLoad]
          rfl
        | ok statement => exact ⟨statement, rfl⟩

variable (hKnown : vocabulary arguments.aliases = .ok known)
variable (hRegistered : globals arguments.globals = .ok registered)

include hKnown hRegistered

theorem run_statement (hForm : .phases ∉ arguments.switches) {statement : Statement}
    (hLoad : content.load path Statement.ofJson = .ok statement) :
    let reading := (Reader.ofView statement.drawn.view known
      (arguments.options registered)).readChain (Blueprint.chainNodes 0 statement.blueprints).head?
    run path arguments content = .ofRoundTrip path arguments.switches Statement.toJson
      ⟨statement.drawn, reading, reading.value = statement.normalForm⟩ := by
  have hTrip := statement.roundTrip_drawn known (arguments.options registered)
  unfold Arguments.options at hTrip
  unfold run
  simp only [hKnown, hRegistered, if_neg hForm, hLoad, hTrip, bind, Except.bind, Except.mapError,
    pure, Except.pure]
  rfl

theorem run_phases (hForm : .phases ∈ arguments.switches) {phases : Phases}
    (hLoad : content.load path Phases.ofJson = .ok phases) :
    let reading := (Reader.ofView phases.drawn.view known
      (arguments.options registered)).readPhases
    run path arguments content = .ofRoundTrip path arguments.switches Phases.toJson
      ⟨phases.drawn, reading, reading.value = Phases.normalForm phases⟩ := by
  have hTrip := phases.roundTrip_drawn known (arguments.options registered)
  unfold Arguments.options at hTrip
  unfold run
  simp only [hKnown, hRegistered, if_pos hForm, hLoad, hTrip, bind, Except.bind, Except.mapError,
    pure, Except.pure]
  rfl

end CommandLine

end RuleBlocks
