import ResourceQuery.Proofs.Filter.Kept
import ResourceQuery.Proofs.Statement.Restrict

/-!
# What compiled conditions mention

The conditions of filters and of base criteria never mention the sources that sort keys join, so
joins do not change which rows satisfy them.

* `Source.isUnjoined`: whether a source is read for another reason than a sort key;
* `FilterCompiler.mentionsOnly_filter?`, `FilterCompiler.mentionsOnly_criteria?`: compiled
  conditions mention such sources only.
-/

namespace ResourceQuery

/-- Whether a source is read for another reason than a sort key. -/
def Source.isUnjoined (s : Source) : Bool :=
  match s.reading with
  | .joined _ | .joinedLink _ => false
  | _ => true

section Conditions

variable {keep : Source → Bool} {field : ResolvedField} {v : Value} {values : List Value}
  {p : Predicate}

theorem mentionsOnly_isNull? (hfield : ∀ s ∈ field.operand.sources, keep s = true)
    (h : field.isNull? = .ok p) : p.MentionsOnly keep := by
  obtain ⟨c, rfl, rfl⟩ := ResolvedField.isNull?_eq_ok.1 h
  exact hfield c.source (List.mem_cons_self ..)

theorem mentionsOnly_notNull? (hfield : ∀ s ∈ field.operand.sources, keep s = true)
    (h : field.notNull? = .ok p) : p.MentionsOnly keep := by
  obtain ⟨c, rfl, rfl⟩ := ResolvedField.notNull?_eq_ok.1 h
  exact hfield c.source (List.mem_cons_self ..)

theorem mentionsOnly_equals? (hfield : ∀ s ∈ field.operand.sources, keep s = true)
    (h : field.equals? v = .ok p) : p.MentionsOnly keep := by
  unfold ResolvedField.equals? at h
  split at h
  · exact mentionsOnly_isNull? hfield h
  · cases field with
    | column c =>
      cases h
      exact hfield c.source (List.mem_cons_self ..)
    | relation r es => cases h
    | ofClass a =>
      cases h
      exact Predicate.mentionsOnly_ofTruth _

theorem mentionsOnly_differs? (hfield : ∀ s ∈ field.operand.sources, keep s = true)
    (h : field.differs? v = .ok p) : p.MentionsOnly keep := by
  cases field with
  | column c =>
    cases h
    exact hfield c.source (List.mem_cons_self ..)
  | relation r es => cases h
  | ofClass a =>
    cases h
    exact Predicate.mentionsOnly_ofTruth _

theorem mentionsOnly_contains? (hfield : ∀ s ∈ field.operand.sources, keep s = true)
    (h : field.contains? v = .ok p) : p.MentionsOnly keep := by
  obtain ⟨tested, htested, h⟩ := bind_eq_ok.1 h
  obtain ⟨-, rfl⟩ := ResolvedField.argument?_eq_ok.1 htested
  split at h
  · exact mentionsOnly_isNull? hfield h
  · cases h
    exact hfield

theorem mentionsOnly_ordered? {comparison : Comparison}
    (hfield : ∀ s ∈ field.operand.sources, keep s = true)
    (h : field.ordered? comparison v = .ok p) : p.MentionsOnly keep := by
  cases field with
  | column c =>
    rw [FilterOperator.ordered?_eq_ok h]
    exact hfield c.source (List.mem_cons_self ..)
  | relation r es => cases h
  | ofClass a =>
    rw [FilterOperator.ordered?_ofClass_eq_ok h]
    exact Predicate.mentionsOnly_ofTruth _

theorem mentionsOnly_allOrdered? {comparison : Comparison}
    (hfield : ∀ s ∈ field.operand.sources, keep s = true)
    (h : FilterOperator.allOrdered? comparison field values = .ok p) : p.MentionsOnly keep := by
  obtain ⟨ps, hps, rfl⟩ := map_eq_ok.1 h
  exact Predicate.mentionsOnly_allOf.2
    ((forall_of_mapM_eq_ok hps _).2 fun _ _ _ => mentionsOnly_ordered? hfield)

theorem mentionsOnly_condition? {operator : FilterOperator}
    (hfield : ∀ s ∈ field.operand.sources, keep s = true)
    (h : operator.condition? field values = .ok p) : p.MentionsOnly keep := by
  cases operator with
  | eq =>
    obtain ⟨ps, hps, rfl⟩ := map_eq_ok.1 h
    exact Predicate.mentionsOnly_anyOf.2
      ((forall_of_mapM_eq_ok hps _).2 fun _ _ _ => mentionsOnly_equals? hfield)
  | like =>
    obtain ⟨ps, hps, rfl⟩ := map_eq_ok.1 h
    exact Predicate.mentionsOnly_anyOf.2
      ((forall_of_mapM_eq_ok hps _).2 fun _ _ _ => mentionsOnly_contains? hfield)
  | not =>
    obtain ⟨others, hothers, h⟩ := bind_eq_ok.1 h
    have hothers : ∀ q ∈ others, q.MentionsOnly keep :=
      (forall_of_mapM_eq_ok hothers _).2 fun _ _ _ => mentionsOnly_differs? hfield
    split at h
    · obtain ⟨present, hpresent, h⟩ := bind_eq_ok.1 h
      cases h
      rw [Predicate.mentionsOnly_allOf, List.forall_mem_cons]
      exact ⟨mentionsOnly_notNull? hfield hpresent, hothers⟩
    · obtain ⟨absent, habsent, h⟩ := bind_eq_ok.1 h
      cases h
      exact ⟨mentionsOnly_isNull? hfield habsent, Predicate.mentionsOnly_allOf.2 hothers⟩
  | lt | lte | gt | gte => exact mentionsOnly_allOrdered? hfield h

end Conditions

/-! ## Steps and fields -/

/-- A step between kept sources, with a kept source between them, mentions kept sources only. -/
theorem Relationship.hop_kept {keep : Source → Bool} {r : Relationship} {near far : Reach}
    (link : Instance) (hnear : keep near.source = true) (hfar : keep far.source = true)
    (hlink : ∀ table, keep ⟨table, link⟩ = true) :
    (∀ s ∈ (r.hop near far link).sources, keep s = true) ∧
      ∀ s ∈ (r.hop near far link).equalities.flatMap (·.sources), keep s = true := by
  have hsources : ∀ s ∈ (r.hop near far link).sources, keep s = true := by
    intro s hs
    rw [sources_hop] at hs
    rcases List.mem_cons.1 hs with rfl | hs
    · exact hfar
    · cases hl : r.link with
      | direct pairs farFirst => simp [hl] at hs
      | through table fromNear fromFar =>
        obtain rfl : s = ⟨table, link⟩ := by simpa [hl] using hs
        exact hlink table
  refine ⟨hsources, fun s hs => ?_⟩
  rcases sources_equalities_hop hs with rfl | hs
  · exact hnear
  · exact hsources s hs

/-- A field that is read from an unjoined source mentions unjoined sources only. -/
theorem Reach.field?_unjoined {schema : Schema} {r : Reach} {name : String}
    {field : ResolvedField} (hr : r.source.isUnjoined = true)
    (h : r.field? schema name = .ok field) :
    ∀ s ∈ field.operand.sources, s.isUnjoined = true := by
  cases Reach.field?_eq_ok.1 h with
  | column => exact fun s hs => List.mem_singleton.1 hs ▸ hr
  | relation => exact (Relationship.hop_kept _ hr rfl fun _ => rfl).2
  | ofClass => exact fun s hs => absurd hs List.not_mem_nil

/-! ## Filters -/

namespace FilterCompiler

variable {k : FilterCompiler} {entries : List FilterEntry}

theorem mentionsOnly_clause? {r : Reach} {c : FilterClause} {p : Predicate}
    (hr : r.source.isUnjoined = true) (h : k.clause? r c = .ok p) :
    p.MentionsOnly Source.isUnjoined := by
  obtain ⟨field, hfield, h⟩ := bind_eq_ok.1 h
  exact mentionsOnly_condition? (Reach.field?_unjoined hr hfield)
    (FilterRegistry.condition?_eq_ok h)

theorem relatedReach_unjoined (owner target : Entity) (path : List String) :
    (relatedReach owner target path).source.isUnjoined = true := by
  unfold relatedReach
  split <;> rfl

theorem mentionsOnly_conditions? {depth : Nat} {r : Reach} {path : List String}
    {ps : List Predicate} (hr : r.source.isUnjoined = true)
    (h : k.conditions? depth r path entries = .ok ps) :
    ∀ p ∈ ps, p.MentionsOnly Source.isUnjoined := by
  induction depth generalizing r path entries ps with
  | zero => cases h; simp
  | succ depth ih =>
    obtain ⟨-, hparts⟩ := conditions?_eq_ok.1 h
    rw [forall_of_mapM_eq_ok hparts]
    rintro (c | name) - p hp
    · exact mentionsOnly_clause? hr hp
    · obtain ⟨relationship, target, criteria, -, hcriteria, rfl⟩ := part?_relation_eq_ok.1 hp
      have hinner := relatedReach_unjoined r.entity target (path ++ [name])
      obtain ⟨hsources, hequalities⟩ := Relationship.hop_kept (r := relationship) .base hr hinner
        fun _ => rfl
      exact ⟨hsources, hequalities, Predicate.mentionsOnly_allOf.2 (ih hinner hcriteria)⟩

theorem mentionsOnly_filter? {e : Entity} {clauses : List FilterClause} {ps : List Predicate}
    (h : k.filter? e clauses = .ok ps) : ∀ p ∈ ps, p.MentionsOnly Source.isUnjoined := by
  rcases filter?_eq_ok.1 h with ⟨-, rfl⟩ | ⟨-, conditions, hconditions, rfl⟩
  · simp
  · rw [List.forall_mem_singleton]
    refine Predicate.MentionsOnly.simplified (Predicate.mentionsOnly_allOf.2 ?_)
    exact mentionsOnly_conditions? (r := e.reach) rfl hconditions

theorem mentionsOnly_criteria? {e : Entity} {entries : List (String × Value)}
    {ps : List Predicate} (h : k.criteria? e.reach entries = .ok ps) :
    ∀ p ∈ ps, p.MentionsOnly Source.isUnjoined := by
  rw [forall_of_mapM_eq_ok h]
  rintro ⟨name, v⟩ - p hp
  obtain ⟨field, hfield, hp⟩ := bind_eq_ok.1 hp
  exact mentionsOnly_equals? (Reach.field?_unjoined (r := e.reach) rfl hfield) hp

end FilterCompiler

end ResourceQuery
