import ResourceQuery.Proofs.Filter.Part
import ResourceQuery.Filter.Condition
import ResourceQuery.Proofs.Statement.Simplified
import ResourceQuery.Proofs.Outcome

/-!
# The forms of compiled conditions

What an operator makes of a field and some values is put together from conditions of one value in
one of three ways.

* `Predicate.IsSimple`: conditions that are no combination of others;
* `FilterOperator.Combined`: one of some, all of some, or one or else all of some;
* `FilterOperator.combined_condition?`: the condition of an operator has one of these forms;
* `Predicate.IsFlat`, `FilterOperator.Combined.isFlat`: it does not ask for related rows;
* `FilterOperator.Combined.keepsAlternatives`: it loses nothing in its alternatives when it is
  simplified;
* `FilterOperator.isOpen_condition?`: on a field or a relation it stays as it is.
-/

namespace ResourceQuery

namespace Predicate

/-- Whether a condition is no combination of others. -/
def IsSimple : Predicate → Prop
  | both .. | either .. | related .. => False
  | _ => True

/-- Whether a condition does not ask for related rows. -/
def IsFlat : Predicate → Prop
  | both p q | either p q => p.IsFlat ∧ q.IsFlat
  | related .. => False
  | _ => True

variable {p : Predicate} {ps : List Predicate}

theorem isSimple_ofTruth (b : Bool) : (ofTruth b).IsSimple := by
  cases b <;> trivial

theorem IsSimple.isFlat (h : p.IsSimple) : p.IsFlat := by
  cases p <;> trivial

theorem IsSimple.keepsAlternatives (h : p.IsSimple) : p.KeepsAlternatives := by
  cases p <;> trivial

theorem IsSimple.simplified (h : p.IsSimple) : p.simplified = p := by
  cases p <;> first | rfl | cases h

theorem isFlat_allOf (h : ∀ p ∈ ps, p.IsFlat) : (allOf ps).IsFlat :=
  allOf_induction (fun _ => trivial) (fun _ _ => And.intro) h

theorem isFlat_anyOf (h : ∀ p ∈ ps, p.IsFlat) : (anyOf ps).IsFlat :=
  anyOf_induction (fun _ => trivial) (fun _ _ => And.intro) h

end Predicate

/-! ## Conditions of one value -/

namespace ResolvedField

variable {f : ResolvedField} {v : Value} {comparison : Comparison} {p : Predicate}

/-- Only columns can have no value. -/
theorem isNull?_eq_ok : f.isNull? = .ok p ↔ ∃ c, f = .column c ∧ p = .isNull c := by
  cases f <;> simp [isNull?, eq_comm]

theorem notNull?_eq_ok : f.notNull? = .ok p ↔ ∃ c, f = .column c ∧ p = .notNull c := by
  cases f <;> simp [notNull?, eq_comm]

theorem isSimple_isNull? (h : f.isNull? = .ok p) : p.IsSimple := by
  obtain ⟨c, -, rfl⟩ := isNull?_eq_ok.1 h
  trivial

theorem isSimple_equals? (h : f.equals? v = .ok p) : p.IsSimple := by
  unfold equals? at h
  split at h
  · exact isSimple_isNull? h
  · cases f <;> cases h
    · trivial
    · exact Predicate.isSimple_ofTruth _

theorem isSimple_differs? (h : f.differs? v = .ok p) : p.IsSimple := by
  cases f <;> cases h
  · trivial
  · exact Predicate.isSimple_ofTruth _

theorem isSimple_contains? (h : f.contains? v = .ok p) : p.IsSimple := by
  obtain ⟨tested, -, h⟩ := bind_eq_ok.1 h
  split at h
  · exact isSimple_isNull? h
  · cases h
    trivial

theorem isSimple_ordered? (h : f.ordered? comparison v = .ok p) : p.IsSimple := by
  unfold ordered? at h
  split at h <;> try cases h
  · obtain ⟨b, -, rfl⟩ := map_eq_ok.1 h
    exact Predicate.isSimple_ofTruth b
  · trivial

theorem isOpen_isNull? (h : f.isNull? = .ok p) : p.IsOpen := by
  obtain ⟨c, -, rfl⟩ := isNull?_eq_ok.1 h
  trivial

theorem isOpen_contains? (h : f.contains? v = .ok p) : p.IsOpen := by
  obtain ⟨tested, -, h⟩ := bind_eq_ok.1 h
  split at h
  · exact isOpen_isNull? h
  · cases h
    trivial

/-- Only attributes of classes make conditions that hold or fail whatever the row is. -/
theorem isOpen_equals? (hclass : ∀ a, f ≠ .ofClass a) (h : f.equals? v = .ok p) : p.IsOpen := by
  unfold equals? at h
  split at h
  · exact isOpen_isNull? h
  · cases f with
    | column c =>
      cases h
      trivial
    | relation r equalities => cases h
    | ofClass a => exact absurd rfl (hclass a)

theorem isOpen_differs? (hclass : ∀ a, f ≠ .ofClass a) (h : f.differs? v = .ok p) : p.IsOpen := by
  cases f with
  | column c =>
    cases h
    trivial
  | relation r equalities => cases h
  | ofClass a => exact absurd rfl (hclass a)

theorem isOpen_ordered? (hclass : ∀ a, f ≠ .ofClass a) (h : f.ordered? comparison v = .ok p) :
    p.IsOpen := by
  unfold ordered? at h
  split at h <;> try cases h
  · exact absurd rfl (hclass _)
  · trivial

end ResolvedField

/-! ## Conditions of several values -/

namespace FilterOperator

/-- How the conditions of several values are put together. Alternatives to all of some are on a
column, and none of them holds or fails whatever the row is. -/
inductive Combined : Predicate → Prop
  | anyOf {ps : List Predicate} (h : ∀ p ∈ ps, p.IsSimple) : Combined (.anyOf ps)
  | allOf {ps : List Predicate} (h : ∀ p ∈ ps, p.IsSimple) : Combined (.allOf ps)
  | orAllOf {p : Predicate} {ps : List Predicate} (hp : p.IsSimple)
    (h : ∀ q ∈ ps, q.IsSimple ∧ q.IsOpen) : Combined (.either p (.allOf ps))

variable {operator : FilterOperator} {f : ResolvedField} {values : List Value} {p : Predicate}

theorem combined_noneOf? (h : noneOf? f values = .ok p) : Combined p := by
  obtain ⟨others, hothers, h⟩ := bind_eq_ok.1 h
  have hsimple : ∀ q ∈ others, q.IsSimple :=
    (forall_of_mapM_eq_ok hothers _).2 fun _ _ _ => ResolvedField.isSimple_differs?
  split at h
  · obtain ⟨present, hpresent, h⟩ := bind_eq_ok.1 h
    obtain ⟨c, -, rfl⟩ := ResolvedField.notNull?_eq_ok.1 hpresent
    cases h
    exact .allOf (List.forall_mem_cons.2 ⟨trivial, hsimple⟩)
  · obtain ⟨absent, habsent, h⟩ := bind_eq_ok.1 h
    obtain ⟨c, rfl, rfl⟩ := ResolvedField.isNull?_eq_ok.1 habsent
    cases h
    refine .orAllOf trivial fun q hq => ⟨hsimple q hq, ?_⟩
    obtain ⟨v, -, hv⟩ := exists_of_mapM_eq_ok hothers hq
    cases hv
    trivial

theorem combined_allOrdered? {comparison : Comparison}
    (h : allOrdered? comparison f values = .ok p) : Combined p := by
  obtain ⟨ps, hps, rfl⟩ := map_eq_ok.1 h
  exact .allOf ((forall_of_mapM_eq_ok hps _).2 fun _ _ _ => ResolvedField.isSimple_ordered?)

/-- The condition of an operator has one of the forms. -/
theorem combined_condition? (h : operator.condition? f values = .ok p) : Combined p := by
  cases operator with
  | eq =>
    obtain ⟨ps, hps, rfl⟩ := map_eq_ok.1 h
    exact .anyOf ((forall_of_mapM_eq_ok hps _).2 fun _ _ _ => ResolvedField.isSimple_equals?)
  | like =>
    obtain ⟨ps, hps, rfl⟩ := map_eq_ok.1 h
    exact .anyOf ((forall_of_mapM_eq_ok hps _).2 fun _ _ _ => ResolvedField.isSimple_contains?)
  | not => exact combined_noneOf? h
  | lt | lte | gt | gte => exact combined_allOrdered? h

/-- The condition of an operator does not ask for related rows. -/
theorem Combined.isFlat (h : Combined p) : p.IsFlat := by
  cases h with
  | anyOf h => exact Predicate.isFlat_anyOf fun p hp => (h p hp).isFlat
  | allOf h => exact Predicate.isFlat_allOf fun p hp => (h p hp).isFlat
  | orAllOf hp h => exact ⟨hp.isFlat, Predicate.isFlat_allOf fun q hq => (h q hq).1.isFlat⟩

theorem Combined.keepsAlternatives (h : Combined p) : p.KeepsAlternatives := by
  cases h with
  | anyOf h =>
    exact Predicate.keepsAlternatives_anyOf fun p hp =>
      ⟨(h p hp).keepsAlternatives, by rw [(h p hp).simplified]⟩
  | allOf h => exact Predicate.keepsAlternatives_allOf fun p hp => (h p hp).keepsAlternatives
  | orAllOf hp h =>
    refine ⟨⟨hp.keepsAlternatives, Predicate.keepsAlternatives_allOf fun q hq =>
      (h q hq).1.keepsAlternatives⟩, by rw [hp.simplified], ?_⟩
    rw [Predicate.simplified_allOf fun q hq => (h q hq).2]

theorem isOpen_noneOf? (hclass : ∀ a, f ≠ .ofClass a) (hvalues : values ≠ [])
    (h : noneOf? f values = .ok p) : p.IsOpen := by
  obtain ⟨others, hothers, h⟩ := bind_eq_ok.1 h
  have hopen : ∀ q ∈ others, q.IsOpen :=
    (forall_of_mapM_eq_ok hothers _).2 fun _ _ _ => ResolvedField.isOpen_differs? hclass
  split at h
  · obtain ⟨present, hpresent, h⟩ := bind_eq_ok.1 h
    obtain ⟨c, -, rfl⟩ := ResolvedField.notNull?_eq_ok.1 hpresent
    cases h
    exact Predicate.isOpen_allOf (List.cons_ne_nil _ _) (List.forall_mem_cons.2 ⟨trivial, hopen⟩)
  · next hnull =>
    obtain ⟨absent, habsent, h⟩ := bind_eq_ok.1 h
    cases h
    -- A value that is not null is among the others.
    refine ⟨ResolvedField.isOpen_isNull? habsent, Predicate.isOpen_allOf ?_ hopen⟩
    rintro rfl
    obtain ⟨v, rest, rfl⟩ := List.exists_cons_of_ne_nil hvalues
    rw [mapM_eq_ok, List.forall₂_nil_right_iff, List.filter_eq_nil_iff] at hothers
    exact hnull (List.any_eq_true.2 ⟨v, by simp, by simpa using hothers v (by simp)⟩)

theorem isOpen_allOrdered? {comparison : Comparison} (hclass : ∀ a, f ≠ .ofClass a)
    (hvalues : values ≠ []) (h : allOrdered? comparison f values = .ok p) : p.IsOpen := by
  obtain ⟨ps, hps, rfl⟩ := map_eq_ok.1 h
  exact Predicate.isOpen_allOf (ne_nil_of_mapM_eq_ok hps hvalues)
    ((forall_of_mapM_eq_ok hps _).2 fun _ _ _ => ResolvedField.isOpen_ordered? hclass)

/-- The condition of an operator on a field or a relation holds or fails with the row. -/
theorem isOpen_condition? (hclass : ∀ a, f ≠ .ofClass a) (hvalues : values ≠ [])
    (h : operator.condition? f values = .ok p) : p.IsOpen := by
  cases operator with
  | eq =>
    obtain ⟨ps, hps, rfl⟩ := map_eq_ok.1 h
    exact Predicate.isOpen_anyOf (ne_nil_of_mapM_eq_ok hps hvalues)
      ((forall_of_mapM_eq_ok hps _).2 fun _ _ _ => ResolvedField.isOpen_equals? hclass)
  | like =>
    obtain ⟨ps, hps, rfl⟩ := map_eq_ok.1 h
    exact Predicate.isOpen_anyOf (ne_nil_of_mapM_eq_ok hps hvalues)
      ((forall_of_mapM_eq_ok hps _).2 fun _ _ _ => ResolvedField.isOpen_contains?)
  | not => exact isOpen_noneOf? hclass hvalues h
  | lt | lte | gt | gte => exact isOpen_allOrdered? hclass hvalues h

end FilterOperator

/-! ## Filters -/

namespace FilterRegistry

variable {registry : FilterRegistry} {operator : FilterOperator} {field : ResolvedField}
  {values : List Value} {p : Predicate}

theorem condition?_eq_ok (h : registry.condition? operator field values = .ok p) :
    operator.condition? field values = .ok p := by
  unfold condition? get? at h
  split at h
  · next hop =>
    split at hop <;> cases hop
    exact h
  · cases h

end FilterRegistry

namespace FilterCompiler

variable {k : FilterCompiler}

theorem combined_clause? {r : Reach} {c : FilterClause} {p : Predicate}
    (h : k.clause? r c = .ok p) : FilterOperator.Combined p := by
  obtain ⟨field, -, h⟩ := bind_eq_ok.1 h
  exact FilterOperator.combined_condition? (FilterRegistry.condition?_eq_ok h)

theorem isOpen_clause? {r : Reach} {c : FilterClause} {p : Predicate}
    (hclass : ∀ a, r.field? k.schema (k.naming.toStorage c.path.field) ≠ .ok (.ofClass a))
    (hvalues : c.values ≠ []) (h : k.clause? r c = .ok p) : p.IsOpen := by
  obtain ⟨field, hfield, h⟩ := bind_eq_ok.1 h
  refine FilterOperator.isOpen_condition? (fun a ha => hclass a (ha ▸ hfield)) ?_
    (FilterRegistry.condition?_eq_ok h)
  split
  · exact hvalues
  · exact fun hnil => hvalues (List.map_eq_nil_iff.1 hnil)

end FilterCompiler

end ResourceQuery
