import ResourceQuery.Proofs.Sort.Records
import ResourceQuery.Query.Refinement

/-!
# The columns that are read of records

How many columns a statement reads of its records decides nothing about which records it shows, as
long as it reads one.

* `Statement.ReadsAlike`: statements that differ in the columns of their records and nowhere else;
* `Statement.ReadsAlike.rows_eq`, `Statement.ReadsAlike.rowCount_eq`: they have the same rows, and
  as many are counted;
* `StatementRefinement.IgnoresColumns`, `StatementRefinement.agree_refined?`: a refinement that does
  not look at these columns leads to such statements again;
* `StatementStep.agree_change?`, `StatementRefinement.ofSteps_ignoresColumns`: one that is made of
  steps does not look at them.
-/

namespace ResourceQuery

namespace Statement

/-- Statements that are equal, or differ in nothing but the columns that they read of records. -/
inductive ReadsAlike : Statement → Statement → Prop
  | refl (s : Statement) : ReadsAlike s s
  | columns (s : Statement) {columns columns' : List Column} (h : columns ≠ [])
      (h' : columns' ≠ []) :
      ReadsAlike { s with selection := .records columns } { s with selection := .records columns' }

namespace ReadsAlike

variable {s s' : Statement} {db : Database}

theorem entity_eq (h : s.ReadsAlike s') : s'.entity = s.entity := by
  cases h <;> rfl

theorem withLimit (h : s.ReadsAlike s') (limit : Option Int) :
    { s with limit := limit }.ReadsAlike { s' with limit := limit } := by
  cases h with
  | refl s => exact .refl _
  | columns s h h' => exact .columns { s with limit := limit } h h'

theorem withOffset (h : s.ReadsAlike s') (offset : Option Int) :
    { s with offset := offset }.ReadsAlike { s' with offset := offset } := by
  cases h with
  | refl s => exact .refl _
  | columns s h h' => exact .columns { s with offset := offset } h h'

theorem paged (h : s.ReadsAlike s') (window : Option PageWindow) :
    (Query.paged s window).ReadsAlike (Query.paged s' window) := by
  cases window with
  | none => exact h
  | some w => exact (h.withLimit w.limit).withOffset _

/-- A record that is read mentions the entity, once or more often. -/
theorem chains_eq (h : s.ReadsAlike s') : s'.chains = s.chains := by
  cases h with
  | refl => rfl
  | @columns s columns columns' h h' =>
    have hchains : ∀ {columns : List Column}, columns ≠ [] →
        { s with selection := .records columns }.chains = joinedChains s.joins ++
          (unreadOf s.joinedSources [s.root] ++
            (((s.conditions.flatMap (·.sources)).filter (· ≠ s.root)).eraseDups).filter
              (· ∉ s.joinedSources)).map (⟨·, []⟩) := by
      intro columns hne
      have hmentioned : { s with selection := .records columns }.mentioned =
          List.replicate columns.length s.root ++ s.conditions.flatMap (·.sources) := by
        simp [mentioned, Selection.sources, List.map_const', root]
      rw [Statement.chains_eq, hmentioned, unreadOf_replicate_append (by simpa using hne)]
      rfl
    rw [hchains h, hchains h']

theorem frames_eq (h : s.ReadsAlike s') : s'.frames db = s.frames db := by
  have hchains := h.chains_eq
  cases h with
  | refl => rfl
  | columns s h h' => rw [frames, frames, hchains]

/-- Neither the groups nor their order depend on the columns of records. -/
theorem groups_eq (h : s.ReadsAlike s') : s'.groups db = s.groups db := by
  have hframes : s'.frames db = s.frames db := h.frames_eq
  cases h with
  | refl => rfl
  | columns s h h' =>
    rw [groups, groups, hframes]
    rfl

theorem rows_eq (h : s.ReadsAlike s') : s'.rows db = s.rows db := by
  have hgroups : s'.groups db = s.groups db := h.groups_eq
  cases h with
  | refl => rfl
  | columns s h h' =>
    rw [rows, rows, hgroups]
    rfl

theorem rowCount_eq (h : s.ReadsAlike s') : s'.rowCount db = s.rowCount db := by
  have hframes : s'.frames db = s.frames db := h.frames_eq
  cases h with
  | refl => rfl
  | columns s h h' =>
    simp only [rowCount, hframes]
    rfl

end ReadsAlike

end Statement

/-! ## Refinements -/

/-- Whether a refinement makes the same change whichever columns of records are read. -/
def StatementRefinement.IgnoresColumns : StatementRefinement → Prop
  | changes _ change => ∀ s s' : Statement, s.ReadsAlike s' →
    Agree (Option.Rel Statement.ReadsAlike) (change s) (change s')
  | other _ => True

/-- A refinement that ignores columns refines such statements to such statements. -/
theorem StatementRefinement.agree_refined? {s s' : Statement} (h : s.ReadsAlike s')
    {refinement : Option StatementRefinement} (hrefinement : ∀ t ∈ refinement, t.IgnoresColumns) :
    Agree Statement.ReadsAlike (refined? s refinement) (refined? s' refinement) := by
  cases refinement with
  | none => exact .ok h
  | some refinement =>
    cases refinement with
    | other kind => exact .error _ _
    | changes form change =>
      refine (hrefinement _ rfl s s' h).bind fun t t' ht => ?_
      cases ht with
      | none => exact .error _ _
      | some ht => exact .ok ht

/-- A step of a refinement changes such statements alike. -/
theorem StatementStep.agree_change? (schema : Schema) {s s' : Statement} (h : s.ReadsAlike s')
    (step : StatementStep) :
    Agree Statement.ReadsAlike (step.change? schema s) (step.change? schema s') := by
  cases h with
  | refl => exact .self .refl
  | columns s h h' =>
    cases step with
    | filter name comparison v =>
      refine Agree.bind_right fun field _ => Agree.bind_right fun condition _ => ?_
      exact .ok (.columns (s.filtered [condition]) h h')
    | limit count => exact .ok (.columns { s with limit := some count } h h')
    | select terms => exact Agree.bind_right fun terms _ => .ok (.refl _)
    | groupBy names =>
      exact Agree.bind_right fun fields _ => Agree.bind_right fun operands _ =>
        .ok (.columns { s with group := s.group ++ operands.flatten } h h')
    | orderBy names =>
      exact Agree.bind_right fun keys _ => .ok (.columns { s with order := s.order ++ keys } h h')

/-- A refinement that is made of steps ignores columns: every step does. -/
theorem StatementRefinement.ofSteps_ignoresColumns (schema : Schema) (form : Refinement.Form)
    (returnsNothing : Bool) (steps : List StatementStep) :
    (ofSteps schema form returnsNothing steps).IgnoresColumns := by
  intro s s' h
  refine (Agree.foldlM (fun t t' step ht => step.agree_change? schema ht) h steps).bind ?_
  intro t t' ht
  cases returnsNothing with
  | true => exact .ok .none
  | false => exact .ok (.some ht)

end ResourceQuery
