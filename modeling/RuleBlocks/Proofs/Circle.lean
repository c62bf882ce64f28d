import Mathlib.Data.List.Chain
import Mathlib.Data.List.Perm.Subperm

/-!
# Running in a circle

Following a relation from a start, one can go on for ever only into a circle (`EntersCircle`) if
there are no more than finitely many things to go on from. Whoever has made more steps than there
are such things has come back to one of them, so a limit on the number of steps decides the question
(`canStep_iff_entersCircle`).
-/

namespace RuleBlocks

open Relation

variable {α : Type} {R : α → α → Prop} {start : α} {steps : Nat}

/-! ## Going on -/

/-- From a start one can make a number of steps. -/
def CanStep (R : α → α → Prop) (steps : Nat) (start : α) : Prop :=
  ∃ way : List α, way.length = steps ∧ (start :: way).IsChain R

theorem canStep_zero (start : α) : CanStep R 0 start := ⟨[], rfl, List.isChain_singleton _⟩

theorem canStep_succ_iff :
    CanStep R (steps + 1) start ↔ ∃ next, R start next ∧ CanStep R steps next := by
  constructor
  · rintro ⟨way, hLength, hWay⟩
    obtain ⟨next, way, rfl⟩ := List.exists_cons_of_length_eq_add_one hLength
    obtain ⟨hStep, hRest⟩ := List.isChain_cons_cons.mp hWay
    exact ⟨next, hStep, way, Nat.succ.inj hLength, hRest⟩
  · rintro ⟨next, hStep, way, hLength, hWay⟩
    exact ⟨next :: way, congrArg Nat.succ hLength, List.isChain_cons_cons.mpr ⟨hStep, hWay⟩⟩

/-! ## Circles -/

/-- From a start one can step into a circle. -/
def EntersCircle (R : α → α → Prop) (start : α) : Prop :=
  ∃ turn, ReflTransGen R start turn ∧ TransGen R turn turn

/-- A circle that is entered need not be left. -/
theorem EntersCircle.exists_step (h : EntersCircle R start) :
    ∃ next, R start next ∧ EntersCircle R next := by
  obtain ⟨turn, hReach, hTurn⟩ := h
  rcases hReach.cases_head with rfl | ⟨next, hStep, hReach⟩
  · obtain ⟨next, hStep, hReach⟩ := TransGen.head'_iff.mp hTurn
    exact ⟨next, hStep, start, hReach, hTurn⟩
  · exact ⟨next, hStep, turn, hReach, hTurn⟩

theorem EntersCircle.canStep (h : EntersCircle R start) (steps : Nat) : CanStep R steps start := by
  induction steps generalizing start with
  | zero => exact canStep_zero start
  | succ steps ih =>
    obtain ⟨next, hStep, hNext⟩ := h.exists_step
    exact canStep_succ_iff.mpr ⟨next, hStep, ih hNext⟩

/-- Without a circle nothing is met twice. -/
theorem nodup_of_isChain (hCircle : ¬ EntersCircle R start) {way : List α}
    (hWay : (start :: way).IsChain R) : (start :: way).Nodup := by
  have hLater : (start :: way).Pairwise (TransGen R) :=
    List.isChain_iff_pairwise.mp (hWay.imp fun _ _ => .single)
  refine hLater.imp_of_mem fun {early late} hEarly _ hTurn hEq => ?_
  subst hEq
  rcases List.mem_cons.mp hEarly with rfl | hEarly
  · exact hCircle ⟨_, .refl, hTurn⟩
  · exact hCircle ⟨early, (List.rel_of_pairwise_cons hLater hEarly).to_reflTransGen, hTurn⟩

/-- All that a way goes on from is listed. -/
theorem dropLast_subset_of_isChain {listed way : List α}
    (hListed : ∀ reached next, ReflTransGen R start reached → R reached next → reached ∈ listed)
    (hWay : (start :: way).IsChain R) : (start :: way).dropLast ⊆ listed := by
  induction way generalizing start with
  | nil => exact List.nil_subset _
  | cons next way ih =>
    obtain ⟨hStep, hRest⟩ := List.isChain_cons_cons.mp hWay
    have hLater := ih (fun reached after hReach => hListed reached after (.head hStep hReach)) hRest
    exact List.cons_subset.mpr ⟨hListed start next .refl hStep, hLater⟩

/-- **One can make more steps than there is to go on from just if one can step into a circle.** -/
theorem canStep_iff_entersCircle {listed : List α}
    (hListed : ∀ reached next, ReflTransGen R start reached → R reached next → reached ∈ listed) :
    CanStep R (listed.length + 1) start ↔ EntersCircle R start := by
  refine ⟨fun ⟨way, hLength, hWay⟩ => ?_, fun hCircle => hCircle.canStep _⟩
  by_contra hCircle
  have hNodup := (nodup_of_isChain hCircle hWay).sublist (List.dropLast_sublist _)
  have hSubset := dropLast_subset_of_isChain hListed hWay
  have hLe := (List.subperm_of_subset hNodup hSubset).length_le
  rw [List.length_dropLast, List.length_cons, hLength] at hLe
  exact Nat.not_succ_le_self _ hLe

/-- Where a bound falls with every step there is no circle. -/
theorem not_entersCircle_of_falls (bound : α → Nat)
    (hFalls : ∀ reached next, R reached next → bound next < bound reached) :
    ¬ EntersCircle R start := by
  rintro ⟨turn, -, hTurn⟩
  have hLt {first last : α} (h : TransGen R first last) : bound last < bound first := by
    induction h with
    | single hStep => exact hFalls _ _ hStep
    | tail _ hStep ih => exact Nat.lt_trans (hFalls _ _ hStep) ih
  exact Nat.lt_irrefl _ (hLt hTurn)

/-- If each step is determined by where it starts and no steps lead round in a circle, then the
steps from a start arrive in another place only once. -/
theorem eq_of_common_step (hUnique : Relator.RightUnique R)
    (hAcyclic : ∀ place, ¬ TransGen R place place) {first other last : α}
    (hFirst : ReflTransGen R start first) (hOther : ReflTransGen R start other)
    (hFirstStep : R first last) (hOtherStep : R other last) : first = other := by
  have hStops {early late : α} (hEarly : R early last) (hLate : R late last)
      (hReaches : ReflTransGen R early late) : early = late := by
    rcases hReaches.cases_head with hEq | ⟨next, hNext, hRest⟩
    · exact hEq
    · obtain rfl := hUnique hNext hEarly
      exact absurd (TransGen.tail' hRest hLate) (hAcyclic next)
  rcases ReflTransGen.total_of_right_unique hUnique hFirst hOther with hReaches | hReaches
  · exact hStops hFirstStep hOtherStep hReaches
  · exact (hStops hOtherStep hFirstStep hReaches).symm

end RuleBlocks
