import ResourceQuery.Filter.Registry
import ResourceQuery.Proofs.Resolution
import ResourceQuery.Proofs.Statement.Renamed

/-!
# Fields of other sources

The conditions that operators make of fields, and the steps to related rows, when others stand for
the sources that they mention.

* `Reach.Renamed`, `ResolvedField.Renamed`: readings and fields that differ in their sources alone;
* `Relationship.hop_renamed`, `Reach.agree_field?`: steps and fields of such readings differ so;
* `ResolvedField.Renamed.agree_condition?`: so do the conditions of an operator on such fields.
-/

namespace ResourceQuery

/-- Whether a source is read for anything but the related rows that a filter asks for. -/
def Source.isOutside (s : Source) : Bool :=
  match s.reading with
  | .related _ => false
  | _ => true

/-! ## Fields and steps -/

/-- Whether two fields are columns, or relations, that differ in their sources alone, or one class
attribute. -/
inductive ResolvedField.Renamed (R : Source → Source → Prop) : ResolvedField → ResolvedField → Prop
  | column {x y : ColumnRef} (h : x.Renamed R y) : Renamed R (.column x) (.column y)
  | relation (r : Relationship) {es es' : List Equality}
    (h : List.Forall₂ (Equality.Renamed R) es es') : Renamed R (.relation r es) (.relation r es')
  | ofClass (a : ClassAttribute) : Renamed R (.ofClass a) (.ofClass a)

/-- Whether two readings are of one entity, from sources of which one stands for the other. -/
structure Reach.Renamed (R : Source → Source → Prop) (r r' : Reach) : Prop where
  entity : r.entity = r'.entity
  source : R r.source r'.source
  shown : r.shown = r'.shown

section Renamed

variable {R : Source → Source → Prop} {near near' far far' : Reach}

theorem Reach.Renamed.columnNamed (h : near.Renamed R near') (name : String) :
    (near.columnNamed name).Renamed R (near'.columnNamed name) :=
  ⟨h.source, rfl, by rw [Reach.columnNamed, Reach.columnNamed, h.entity]⟩

theorem Relationship.linkEqualities_renamed (h : near.Renamed R near') {link : Source}
    (hlink : R link link) (pairs : List ColumnPair) :
    List.Forall₂ (Equality.Renamed R) (linkEqualities near link pairs)
      (linkEqualities near' link pairs) := by
  refine List.rel_map (fun p p' hp => ?_) (List.forall₂_same.2 fun p _ => rfl)
  cases hp
  exact ⟨h.columnNamed _, hlink, rfl, (h.columnNamed _).type⟩

theorem Relationship.hop_renamed {r : Relationship} {link : Instance} (hnear : near.Renamed R near')
    (hfar : far.Renamed R far') (hlink : ∀ table, R ⟨table, link⟩ ⟨table, link⟩) :
    (r.hop near far link).Renamed R (r.hop near' far' link) := by
  unfold Relationship.hop
  cases r.link with
  | direct pairs farFirst =>
    refine ⟨.cons hfar.source .nil, List.rel_map (fun p p' hp => ?_)
      (List.forall₂_same.2 fun p _ => rfl)⟩
    cases hp
    cases farFirst
    · exact ⟨hnear.columnNamed _, hfar.columnNamed _⟩
    · exact ⟨hfar.columnNamed _, hnear.columnNamed _⟩
  | through table fromNear fromFar =>
    exact ⟨.cons hfar.source (.cons (hlink table) .nil),
      List.rel_append (linkEqualities_renamed hnear (hlink table) _)
        (linkEqualities_renamed hfar (hlink table) _)⟩

theorem Reach.agree_field? {schema : Schema} {name : String} (h : near.Renamed R near')
    (houtside : ∀ s : Source, s.isOutside = true → R s s) :
    Agree (ResolvedField.Renamed R) (near.field? schema name) (near'.field? schema name) := by
  unfold Reach.field?
  rw [← h.entity]
  split
  · exact .ok (.column ⟨h.source, rfl, rfl⟩)
  · split
    · next r target _ =>
      have hfar : target.reach.Renamed R target.reach := ⟨rfl, houtside _ rfl, rfl⟩
      exact .ok (.relation r (r.hop_renamed h hfar fun _ => houtside _ rfl).equalities)
    · rw [Reach.classAttribute?_eq_of_shown h.entity h.shown]
      split
      · exact .ok (.ofClass _)
      · exact .error _ _

end Renamed

/-! ## Conditions of operators -/

namespace ResolvedField.Renamed

variable {R : Source → Source → Prop} {field field' : ResolvedField} {v : Value}
  {values : List Value}

theorem type_eq (h : field.Renamed R field') : field.type = field'.type := by
  cases h with
  | column h => exact h.type
  | relation | ofClass => rfl

theorem operand (h : field.Renamed R field') : field.operand.Renamed R field'.operand := by
  cases h with
  | column h => exact .column h
  | relation r h => exact .linked h
  | ofClass a => exact .constant a

theorem agree_argument? (h : field.Renamed R field') :
    Agree (Operand.Renamed R) field.argument? field'.argument? := by
  cases h with
  | column h => exact .ok (.column h)
  | relation r h => exact .ok (.linked h)
  | ofClass a =>
    cases a with
    | table => exact .error _ _
    | text | object => exact .ok (.constant _)

theorem agree_isNull? (h : field.Renamed R field') :
    Agree (Predicate.Renamed R) field.isNull? field'.isNull? := by
  cases h with
  | column h => exact .ok (.isNull h)
  | relation | ofClass => exact .error _ _

theorem agree_notNull? (h : field.Renamed R field') :
    Agree (Predicate.Renamed R) field.notNull? field'.notNull? := by
  cases h with
  | column h => exact .ok (.notNull h)
  | relation | ofClass => exact .error _ _

theorem agree_equals? (h : field.Renamed R field') :
    Agree (Predicate.Renamed R) (field.equals? v) (field'.equals? v) := by
  unfold ResolvedField.equals?
  split
  · exact h.agree_isNull?
  · cases h with
    | column h => exact .ok (.compare h .eq v)
    | relation r h => exact .error _ _
    | ofClass a => exact .ok (.ofTruth _)

theorem agree_differs? (h : field.Renamed R field') :
    Agree (Predicate.Renamed R) (field.differs? v) (field'.differs? v) := by
  cases h with
  | column h => exact .ok (.compare h .ne v)
  | relation r h => exact .error _ _
  | ofClass a => exact .ok (.ofTruth _)

theorem agree_contains? (h : field.Renamed R field') :
    Agree (Predicate.Renamed R) (field.contains? v) (field'.contains? v) := by
  unfold ResolvedField.contains?
  rw [h.type_eq]
  refine h.agree_argument?.bind fun tested tested' htested => ?_
  split
  · exact h.agree_isNull?
  · exact .ok (.contains htested _ _)

theorem agree_ordered? {comparison : Comparison} (h : field.Renamed R field') :
    Agree (Predicate.Renamed R) (field.ordered? comparison v) (field'.ordered? comparison v) := by
  cases h with
  | column h =>
    cases v with
    | null | bool => exact .error _ _
    | _ => exact .ok (.compare h comparison _)
  | relation r h => exact .error _ _
  | ofClass a => exact Agree.bind_right fun holds _ => .ok (.ofTruth holds)

theorem agree_noneOf? (h : field.Renamed R field') :
    Agree (Predicate.Renamed R) (FilterOperator.noneOf? field values)
      (FilterOperator.noneOf? field' values) := by
  refine (Agree.mapM (List.forall₂_same.2 fun v _ => h.agree_differs?)).bind
    fun others others' hothers => ?_
  split
  · exact h.agree_notNull?.bind fun _ _ hpresent => .ok (.allOf (.cons hpresent hothers))
  · exact h.agree_isNull?.bind fun _ _ habsent => .ok (.either habsent (.allOf hothers))

/-- The conditions of an operator on fields that differ in their sources do so too. -/
theorem agree_condition? {operator : FilterOperator} (h : field.Renamed R field') :
    Agree (Predicate.Renamed R) (operator.condition? field values)
      (operator.condition? field' values) := by
  cases operator with
  | eq =>
    exact (Agree.mapM (List.forall₂_same.2 fun v _ => h.agree_equals?)).map fun _ _ => .anyOf
  | like =>
    exact (Agree.mapM (List.forall₂_same.2 fun v _ => h.agree_contains?)).map fun _ _ => .anyOf
  | not => exact h.agree_noneOf?
  | lt | lte | gt | gte =>
    exact (Agree.mapM (List.forall₂_same.2 fun v _ => h.agree_ordered?)).map fun _ _ => .allOf

end ResolvedField.Renamed

end ResourceQuery
