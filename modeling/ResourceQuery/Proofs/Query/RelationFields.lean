import ResourceQuery.Proofs.Parameters.Names
import ResourceQuery.Proofs.Query.Aggregates

/-!
# Names of relations among the fields

What it changes when names of relations are inserted into the fields of the records of a request.
Records are read as before: what reads their columns skips these names, for the records of the
request and for those loaded with them. Rows of values are not: every such name becomes one more
term, and what is read for it multiplies the rows that aggregates are about.

* `Inserted`: a list with some more elements;
* `FieldCompiler.fieldNames?_inserted`, `IncludeCompiler.loads?_inserted`: what skips such names;
* `Query.statement?_records_inserted`, `Query.statement?_rows_inserted`: the statements of records
  and of rows of values, with such names and without;
* `Parameters.readRequest?_fields`: the reading of parameters with other fields;
* `Query.InsertsRelations`: a request with such names inserted into another one;
* `Query.relations_among_fields`: what this changes.
-/

namespace ResourceQuery

/-! ## Lists with more elements -/

/-- Whether a list is another one with some elements inserted anywhere. -/
inductive Inserted {α : Type} (p : α → Prop) : List α → List α → Prop
  | nil : Inserted p [] []
  | keep {x : α} {xs ys : List α} (h : Inserted p xs ys) : Inserted p (x :: xs) (x :: ys)
  | insert {y : α} {xs ys : List α} (hy : p y) (h : Inserted p xs ys) : Inserted p xs (y :: ys)

namespace Inserted

variable {α β ε : Type} {p : α → Prop} {xs ys : List α}

theorem sublist (h : Inserted p xs ys) : xs.Sublist ys := by
  induction h with
  | nil => exact .slnil
  | keep _ ih => exact .cons_cons _ ih
  | insert _ _ ih => exact .cons _ ih

theorem refl (p : α → Prop) (xs : List α) : Inserted p xs xs := by
  induction xs with
  | nil => exact .nil
  | cons _ _ ih => exact .keep ih

theorem imp {q : α → Prop} (h : Inserted p xs ys) (hpq : ∀ x, p x → q x) : Inserted q xs ys := by
  induction h with
  | nil => exact .nil
  | keep _ ih => exact .keep ih
  | insert hy _ ih => exact .insert (hpq _ hy) ih

/-- Nothing is inserted when the lists are of one length. -/
theorem eq_iff (h : Inserted p xs ys) : ys = xs ↔ ys.length = xs.length :=
  ⟨congrArg List.length, fun hlength => (h.sublist.eq_of_length hlength.symm).symm⟩

theorem map {q : β → Prop} {f : α → β} (h : Inserted p xs ys) (hf : ∀ x, p x → q (f x)) :
    Inserted q (xs.map f) (ys.map f) := by
  induction h with
  | nil => exact .nil
  | keep _ ih => exact .keep ih
  | insert hy _ ih => exact .insert (hf _ hy) ih

theorem not_mem_iff {x : α} (h : Inserted p xs ys) (hx : ¬ p x) : x ∉ ys ↔ x ∉ xs := by
  induction h with
  | nil => rfl
  | keep _ ih => rw [List.mem_cons, List.mem_cons, not_or, not_or, ih]
  | insert hy _ ih =>
    rw [List.mem_cons, not_or, ih]
    exact and_iff_right fun heq : x = _ => hx (heq ▸ hy)

theorem filter_eq {g : α → Bool} (h : Inserted p xs ys) (hg : ∀ y, p y → g y = false) :
    ys.filter g = xs.filter g := by
  induction h with
  | nil => rfl
  | keep _ ih => rw [List.filter_cons, List.filter_cons, ih]
  | insert hy _ ih => rw [List.filter_cons_of_neg (by simp [hg _ hy]), ih]

theorem any_eq {g : α → Bool} (h : Inserted p xs ys) (hg : ∀ y, p y → g y = false) :
    ys.any g = xs.any g := by
  induction h with
  | nil => rfl
  | keep _ ih => rw [List.any_cons, List.any_cons, ih]
  | insert hy _ ih => rw [List.any_cons, hg _ hy, Bool.false_or, ih]

theorem mapM_eq_ok {f : α → Except ε β} {bs : List β} (h : Inserted p xs ys)
    (hys : ys.mapM f = .ok bs) :
    ∃ as, xs.mapM f = .ok as ∧ Inserted (fun b => ∃ y, p y ∧ f y = .ok b) as bs := by
  rw [ResourceQuery.mapM_eq_ok] at hys
  induction h generalizing bs with
  | nil =>
    cases hys
    exact ⟨[], rfl, .nil⟩
  | keep _ ih =>
    obtain ⟨b, bs, hb, hrest, rfl⟩ := List.forall₂_cons_left_iff.1 hys
    obtain ⟨as, has, h⟩ := ih hrest
    exact ⟨b :: as, ResourceQuery.mapM_eq_ok.2 (.cons hb (ResourceQuery.mapM_eq_ok.1 has)), .keep h⟩
  | insert hy _ ih =>
    obtain ⟨b, bs, hb, hrest, rfl⟩ := List.forall₂_cons_left_iff.1 hys
    obtain ⟨as, has, h⟩ := ih hrest
    exact ⟨as, has, .insert ⟨_, hy, hb⟩ h⟩

end Inserted

/-! ## Fields with more names -/

namespace Query

/-- Whether a field is a relation of the entity, and of every entity whose related records are
restricted by the fields of a type. -/
structure SelectsRelation (q : Query) (type : String) (f : SelectedField) : Prop where
  plain : f.isAggregate = false
  primary : q.entity.isRelationship (q.naming.toStorage f.name) = true
  related : ∀ e ∈ q.schema.entities, e.relatedType = type →
    e.isRelationship (q.naming.toStorage f.name) = true

/-- Whether the fields of a type have relations inserted, if there are any fields and the type is
that of the records. -/
structure ProjectsMore (q : Query) (type : String) (entry entry' : String × List SelectedField) :
    Prop where
  type_eq : entry'.1 = entry.1
  isEmpty : entry'.2.isEmpty = entry.2.isEmpty
  inserted : Inserted (fun f => entry.1 = type ∧ q.SelectsRelation type f) entry.2 entry'.2

variable {q : Query} {type : String}

theorem ProjectsMore.refl (q : Query) (type : String) (entry : String × List SelectedField) :
    q.ProjectsMore type entry entry :=
  ⟨rfl, rfl, .refl _ _⟩

/-- The fields of each type, as one list after the other. -/
theorem ofType_inserted {ps ps' : List (String × List SelectedField)}
    (h : List.Forall₂ (q.ProjectsMore type) ps ps') (other : String) :
    (Fields.ofType ps' other).isEmpty = (Fields.ofType ps other).isEmpty ∧
      Inserted (fun f => other = type ∧ q.SelectsRelation type f) (Fields.ofType ps other)
        (Fields.ofType ps' other) := by
  induction h with
  | nil => exact ⟨rfl, .nil⟩
  | @cons entry entry' ps ps' hentry _ ih =>
    obtain ⟨htype, hempty, hinserted⟩ := hentry
    by_cases hother : entry.1 = other
    · simpa [Fields.ofType, htype, hother] using ⟨hempty, hother ▸ hinserted⟩
    · simpa [Fields.ofType, htype, hother] using ih

end Query

/-! ## What skips them -/

/-- The stored names of fields are without those of relations. -/
theorem FieldCompiler.fieldNames?_inserted {k : FieldCompiler} {e : Entity} {skip : Bool}
    {p : SelectedField → Prop} {fields fields' : List SelectedField}
    (h : Inserted p fields fields')
    (hp : ∀ f, p f → e.isRelationship (k.naming.toStorage f.name) = true) :
    k.fieldNames? e skip fields' = k.fieldNames? e skip fields := by
  induction h with
  | nil => rfl
  | keep _ ih => rw [fieldNames?, fieldNames?, ih]
  | insert hy _ ih => rw [fieldNames?, hp _ hy, Bool.or_true, if_pos rfl, ih]

namespace IncludeCompiler

variable {q : Query} {type : String} {ps ps' : List (String × List SelectedField)}

/-- The columns of owners that relations read depend on no fields. -/
theorem ownerFields?_includes (q : Query) (ps ps' : List (String × List SelectedField))
    (e : Entity) (nodes : List IncludeNode) :
    (q.includes ps').ownerFields? e nodes = (q.includes ps).ownerFields? e nodes := by
  induction nodes with
  | nil => rfl
  | cons node rest ih =>
    rw [ownerFields?, ownerFields?, ih]
    rfl

theorem columns?_inserted (h : List.Forall₂ (q.ProjectsMore type) ps ps') (r : Relationship)
    {target : Entity} (htarget : target ∈ q.schema.entities) (children : List IncludeNode) :
    (q.includes ps').columns? r target children = (q.includes ps).columns? r target children := by
  obtain ⟨hempty, hinserted⟩ := Query.ofType_inserted h target.relatedType
  have hnames : (q.includes ps').fields.fieldNames? target true
      (Fields.ofType (q.includes ps').projections target.relatedType) =
        (q.includes ps).fields.fieldNames? target true
          (Fields.ofType (q.includes ps).projections target.relatedType) :=
    FieldCompiler.fieldNames?_inserted hinserted fun f hf => hf.2.related target htarget hf.1
  have hisEmpty : (Fields.ofType (q.includes ps').projections target.relatedType).isEmpty =
      (Fields.ofType (q.includes ps).projections target.relatedType).isEmpty := hempty
  rw [columns?, columns?]
  simp only [hnames, hisEmpty, ownerFields?_includes q ps ps' target children]

mutual

theorem load?_inserted (h : List.Forall₂ (q.ProjectsMore type) ps ps') (e : Entity)
    (node : IncludeNode) :
    (q.includes ps').load? e node = (q.includes ps).load? e node := by
  obtain ⟨name, refinement, children⟩ := node
  rw [load?, load?]
  have hrelated : (q.includes ps').related? e name = (q.includes ps).related? e name := rfl
  rw [hrelated]
  cases hr : (q.includes ps).related? e name with
  | error error => rfl
  | ok found =>
    obtain ⟨r, target⟩ := found
    have htarget : target ∈ q.schema.entities :=
      Schema.WellFormed.target_mem (Reach.related?_eq_ok.1 hr)
    have hcriteria : (q.includes ps').criteria? target refinement =
        (q.includes ps).criteria? target refinement := rfl
    simp only [bind, Except.bind, hcriteria, loads?_inserted h target children,
      columns?_inserted h r htarget children]

theorem loads?_inserted (h : List.Forall₂ (q.ProjectsMore type) ps ps') (e : Entity)
    (nodes : List IncludeNode) :
    (q.includes ps').loads? e nodes = (q.includes ps).loads? e nodes := by
  cases nodes with
  | nil => rfl
  | cons node rest => rw [loads?, loads?, load?_inserted h e node, loads?_inserted h e rest]

end

end IncludeCompiler

/-! ## Statements -/

namespace Query

variable {q : Query} {type : String} {r : ReadRequest} {ps : List (String × List SelectedField)}
  {fields fields' : List SelectedField} {criteria : List (String × Value)} {s' : Statement}
  {loads : List RelationLoad} {isRestricted : Bool}

/-- Whether a term of rows is a relation of the entity. -/
def ShowsRelation (q : Query) (t : SelectedTerm) : Prop :=
  ∃ field, q.entity.isRelationship t.label = true ∧
    q.entity.reach.field? q.schema t.label = .ok field ∧ t.term = .plain field.operand

/-- A relation among the fields is a term of rows. -/
theorem showsRelation_of_selectedTerm? {f : SelectedField} {t : SelectedTerm}
    (hf : q.SelectsRelation type f) (h : q.fields.selectedTerm? q.entity f = .ok t) :
    q.ShowsRelation t := by
  obtain ⟨haggregate, -⟩ | ⟨-, field, hfield, -, rfl⟩ := FieldCompiler.selectedTerm?_cases h
  · rw [hf.plain] at haggregate
    cases haggregate
  · exact ⟨field, hf.primary, hfield, rfl⟩

/-- What is said about the fields of the records of a request. -/
structure FieldsInserted (q : Query) (type : String) (fields fields' : List SelectedField) :
    Prop where
  isEmpty : fields'.isEmpty = fields.isEmpty
  inserted : Inserted (q.SelectsRelation type) fields fields'

namespace FieldsInserted

theorem isRowMode_eq (h : q.FieldsInserted type fields fields') (group : List SelectedField) :
    isRowMode fields' group = isRowMode fields group := by
  rw [isRowMode, isRowMode, h.inserted.any_eq fun f hf => hf.plain]

theorem aggregateLabels_eq (h : q.FieldsInserted type fields fields')
    (group : List SelectedField) :
    FieldCompiler.aggregateLabels fields' group = FieldCompiler.aggregateLabels fields group := by
  unfold FieldCompiler.aggregateLabels
  rw [h.isEmpty]
  split
  · rfl
  · rw [h.inserted.filter_eq fun f hf => hf.plain]

theorem columns?_eq (h : q.FieldsInserted type fields fields') (kept : List String) :
    q.fields.columns? q.entity fields' kept = q.fields.columns? q.entity fields kept := by
  rw [FieldCompiler.columns?, FieldCompiler.columns?, h.isEmpty,
    FieldCompiler.fieldNames?_inserted h.inserted fun f hf => hf.primary]

/-- Rows have one more term for every relation that is inserted. -/
theorem rowTerms?_eq_ok (h : q.FieldsInserted type fields fields') {group : List SelectedField}
    {terms' : List SelectedTerm}
    (hterms : q.fields.rowTerms? q.entity fields' group = .ok terms') :
    ∃ terms, q.fields.rowTerms? q.entity fields group = .ok terms ∧
      Inserted q.ShowsRelation terms terms' ∧ (terms' = terms ↔ fields' = fields) := by
  rw [FieldCompiler.rowTerms?, h.isEmpty] at hterms
  rw [FieldCompiler.rowTerms?]
  cases hempty : fields.isEmpty with
  | true =>
    have hfields : fields' = fields := by
      rw [List.isEmpty_iff.1 hempty, List.isEmpty_iff.1 (h.isEmpty.trans hempty)]
    rw [hempty] at hterms
    exact ⟨terms', hterms, .refl _ _, by simp [hfields]⟩
  | false =>
    rw [hempty] at hterms
    obtain ⟨terms, hterms', hinserted⟩ := h.inserted.mapM_eq_ok hterms
    have hinserted' : Inserted q.ShowsRelation terms terms' := by
      refine hinserted.imp fun t ht => ?_
      obtain ⟨f, hf, ht⟩ := ht
      exact showsRelation_of_selectedTerm? hf ht
    refine ⟨terms, hterms', hinserted', ?_⟩
    rw [hinserted'.eq_iff, h.inserted.eq_iff, ← (mapM_eq_ok.1 hterms).length_eq,
      ← (mapM_eq_ok.1 hterms').length_eq]
    rfl

end FieldsInserted

/-- Records are read by the same statement. -/
theorem statement?_records_inserted (hps : List.Forall₂ (q.ProjectsMore type) r.projections ps)
    (hfields : q.FieldsInserted type fields fields') (hmode : isRowMode fields r.group = false) :
    q.statement? criteria { r with projections := ps } fields' =
      q.statement? criteria r fields := by
  have hmode' : isRowMode fields' r.group = false := (hfields.isRowMode_eq r.group).trans hmode
  have hloads : q.loads? fields' { r with projections := ps } = q.loads? fields r := by
    rw [loads?, loads?, hmode]
    simp only [hmode', Bool.false_eq_true, if_false]
    exact IncludeCompiler.loads?_inserted hps _ _
  have hselection : q.selection? false fields' r.group (q.includes ps)
      (IncludeTree.ofPaths r.includes) = q.selection? false fields r.group
        (q.includes r.projections) (IncludeTree.ofPaths r.includes) := by
    rw [selection?, selection?]
    simp only [Bool.false_eq_true, if_false, hfields.isEmpty, hfields.columns?_eq,
      IncludeCompiler.ownerFields?_includes q r.projections ps]
  rw [statement?_eq, statement?_eq, hloads]
  simp only [hmode, hmode', hselection]

/-- Rows are read by a statement with more terms. -/
theorem statement?_rows_inserted
    (hfields : q.FieldsInserted type fields fields') (hmode : isRowMode fields r.group = true)
    (h : q.statement? criteria { r with projections := ps } fields' =
      .ok (s', loads, isRestricted)) :
    ∃ s terms terms', q.statement? criteria r fields = .ok (s, loads, isRestricted) ∧
      s.selection = .rows terms ∧ s' = { s with selection := .rows terms' } ∧
        Inserted q.ShowsRelation terms terms' ∧ (terms' = terms ↔ fields' = fields) := by
  have hmode' : isRowMode fields' r.group = true := (hfields.isRowMode_eq r.group).trans hmode
  simp only [statement?_eq, loads?, selection?, hmode, hmode', if_true, bind_eq_ok, Prod.exists]
    at h ⊢
  obtain ⟨base, hbase, loads', hloads, conditions, hconditions, group, hgroup, joins, order, horder,
    selection, restricted, ⟨terms', hterms', hselection⟩, h⟩ := h
  cases hselection
  obtain ⟨terms, hterms, hinserted, hsame⟩ := hfields.rowTerms?_eq_ok hterms'
  cases h
  exact ⟨⟨q.entity, .rows terms, joins, base ++ conditions, group, order, none, none⟩, terms,
    terms', ⟨base, hbase, loads, hloads, conditions, hconditions, group, hgroup, joins, order,
      horder, _, _, ⟨terms, hterms, rfl⟩, rfl⟩, rfl, rfl, hinserted, hsame⟩

end Query

/-! ## Reading parameters -/

namespace Parameters

theorem projections_of_readRequest? {p : Parameters} {r : ReadRequest}
    (h : p.readRequest? = .ok r) : r.projections = Fields.ofNames p.fields := by
  simp only [readRequest?, bind_eq_ok, Fields.read?_fieldsValue] at h
  obtain ⟨_, -, _, -, _, ⟨-, rfl⟩, _, -, _, -, h⟩ := h
  cases h
  rfl

/-- Parameters with other fields are read when those without them are, and the same but for the
fields. -/
theorem readRequest?_fields {p : Parameters} {fields : List (String × List String)}
    (h : (∀ entry ∈ fields, "" ∉ entry.2) ↔ ∀ entry ∈ p.fields, "" ∉ entry.2) {r' : ReadRequest} :
    { p with fields := fields }.readRequest? = .ok r' ↔
      ∃ r, p.readRequest? = .ok r ∧ r' = { r with projections := Fields.ofNames fields } := by
  have hfilter : { p with fields := fields }.filterValue = p.filterValue := rfl
  simp only [readRequest?, bind_eq_ok, Fields.read?_fieldsValue, h, hfilter]
  constructor
  · rintro ⟨clauses, hclauses, keys, hkeys, _, ⟨hfields, rfl⟩, group, hgroup, includes, hincludes,
      heq⟩
    cases heq
    exact ⟨_, ⟨clauses, hclauses, keys, hkeys, _, ⟨hfields, rfl⟩, group, hgroup, includes,
      hincludes, rfl⟩, rfl⟩
  · rintro ⟨_, ⟨clauses, hclauses, keys, hkeys, _, ⟨hfields, rfl⟩, group, hgroup, includes,
      hincludes, heq⟩, rfl⟩
    cases heq
    exact ⟨clauses, hclauses, keys, hkeys, _, ⟨hfields, rfl⟩, group, hgroup, includes, hincludes,
      rfl⟩

end Parameters

/-! ## Requests -/

namespace Query

variable {q : Query} {type : String} {request request' : Request} {names names' : List String}
  {r : ReadRequest}

/-- The type by which a request names the fields of its records. -/
def typeOf (q : Query) (request : Request) : String :=
  if request.type.isEmpty then q.resourceType else request.type

/-- Whether a name among the fields of a type is that of a relation. -/
def NamesRelation (q : Query) (type name : String) : Prop :=
  name ≠ "" ∧ q.SelectsRelation type (.ofName name)

/-- Whether a request is another one with names of relations inserted into the fields of its
records, of which there is one at least. -/
structure InsertsRelations (q : Query) (request request' : Request) (names names' : List String) :
    Prop where
  params : ∃ p before after, Parameters.parse request.params = .ok p ∧
    p.fields = before ++ (q.typeOf request, names) :: after ∧
    Parameters.parse request'.params =
      .ok { p with fields := before ++ (q.typeOf request, names') :: after } ∧
    ∀ entry ∈ before, entry.1 ≠ q.typeOf request
  ne_nil : names ≠ []
  inserted : Inserted (q.NamesRelation (q.typeOf request)) names names'
  single : request'.single = request.single
  criteria : request'.criteria = request.criteria
  type : request'.type = request.type

namespace InsertsRelations

/-- What the parameters of both requests say: the same, but for fields of the records. -/
theorem exists_read (h : q.InsertsRelations request request' names names') :
    ∃ p p' ps, Parameters.parse request.params = .ok p ∧
      Parameters.parse request'.params = .ok p' ∧
      (∀ r', p'.readRequest? = .ok r' ↔
        ∃ r, p.readRequest? = .ok r ∧ r' = { r with projections := ps }) ∧
      ∀ r, p.readRequest? = .ok r →
        List.Forall₂ (q.ProjectsMore (q.typeOf request)) r.projections ps ∧
        q.FieldsInserted (q.typeOf request) (q.fieldsOf request r)
          (q.fieldsOf request' { r with projections := ps }) ∧
        (q.fieldsOf request' { r with projections := ps } = q.fieldsOf request r ↔
          names' = names) := by
  obtain ⟨p, before, after, hparse, hfields, hparse', hbefore⟩ := h.params
  have hempty : "" ∉ names' ↔ "" ∉ names := h.inserted.not_mem_iff fun hname => hname.1 rfl
  have hread : (∀ entry ∈ before ++ (q.typeOf request, names') :: after, "" ∉ entry.2) ↔
      ∀ entry ∈ p.fields, "" ∉ entry.2 := by
    simp only [hfields, List.forall_mem_append, List.forall_mem_cons, hempty]
  have hinserted : Inserted (q.SelectsRelation (q.typeOf request))
      (names.map SelectedField.ofName) (names'.map SelectedField.ofName) :=
    h.inserted.map fun _ hname => hname.2
  have hisEmpty : (names'.map SelectedField.ofName).isEmpty =
      (names.map SelectedField.ofName).isEmpty := by
    obtain ⟨name, hname⟩ := List.exists_mem_of_ne_nil _ h.ne_nil
    rw [List.isEmpty_eq_false_iff_exists_mem.2 ⟨_, List.mem_map_of_mem hname⟩,
      List.isEmpty_eq_false_iff_exists_mem.2
        ⟨_, List.mem_map_of_mem (h.inserted.sublist.subset hname)⟩]
  refine ⟨p, _, Fields.ofNames (before ++ (q.typeOf request, names') :: after), hparse, hparse',
    fun r' => Parameters.readRequest?_fields hread, fun r hr => ?_⟩
  have hprojections := Parameters.projections_of_readRequest? hr
  rw [hfields] at hprojections
  have hfieldsOf : q.fieldsOf request r = names.map SelectedField.ofName := by
    rw [fieldsOf, hprojections]
    exact Fields.ofType_ofNames hbefore
  have hfieldsOf' : q.fieldsOf request' ⟨r.clauses, r.sortKeys,
      Fields.ofNames (before ++ (q.typeOf request, names') :: after), r.group, r.includes,
        r.page⟩ = names'.map SelectedField.ofName := by
    rw [fieldsOf, h.type]
    exact Fields.ofType_ofNames hbefore
  rw [hfieldsOf, hfieldsOf', hprojections, Fields.ofNames, Fields.ofNames, List.map_append,
    List.map_append, List.map_cons, List.map_cons]
  refine ⟨List.rel_append ?_ (.cons ⟨rfl, hisEmpty, hinserted.imp fun _ hf => ⟨rfl, hf⟩⟩ ?_),
    ⟨hisEmpty, hinserted⟩, (List.map_injective_iff.2 SelectedField.ofName_injective).eq_iff⟩
  · exact List.forall₂_same.2 fun _ _ => .refl _ _ _
  · exact List.forall₂_same.2 fun _ _ => .refl _ _ _

end InsertsRelations

/-- What a request compiles to, but for its statement, is the same. -/
theorem compiled_inserted {ps : List (String × List SelectedField)}
    (h : q.InsertsRelations request request' names names')
    (hfields : q.FieldsInserted type (q.fieldsOf request r)
      (q.fieldsOf request' { r with projections := ps }))
    (s : Statement) (loads : List RelationLoad) (isRestricted : Bool) :
    q.compiled request' { r with projections := ps } s loads isRestricted =
      q.compiled request r s loads isRestricted := by
  have hmode := hfields.isRowMode_eq r.group
  have hlabels := hfields.aggregateLabels_eq r.group
  unfold compiled windowOf
  rw [h.single, h.criteria]
  dsimp only
  rw [hmode, hlabels]

/-- A statement with another selection is run with that one. -/
theorem statement_compiled_selection (q : Query) (request : Request) (r : ReadRequest)
    (s : Statement) (selection : Selection) (loads : List RelationLoad) (isRestricted : Bool) :
    (q.compiled request r { s with selection := selection } loads isRestricted).statement =
      { (q.compiled request r s loads isRestricted).statement with selection := selection } := by
  unfold compiled paged
  dsimp only
  split
  · rfl
  · split <;> rfl

/-- Requests for records compile to the same. -/
theorem compile?_records_inserted (h : q.InsertsRelations request request' names names')
    {c : CompiledQuery} (hmode : c.rowMode = false) :
    q.compile? request' = .ok c ↔ q.compile? request = .ok c := by
  obtain ⟨p, p', ps, hparse, hparse', hread', hfields⟩ := h.exists_read
  constructor <;> intro hc
  · obtain ⟨_, _, s, loads, isRestricted, hparse'', hr', hstatement, rfl⟩ := compile?_eq_ok.1 hc
    obtain rfl := Except.ok.inj (hparse'.symm.trans hparse'')
    obtain ⟨r, hr, rfl⟩ := (hread' _).1 hr'
    obtain ⟨hmore, hinserted, -⟩ := hfields r hr
    rw [compiled_inserted h hinserted] at hmode ⊢
    rw [h.criteria, statement?_records_inserted hmore hinserted hmode] at hstatement
    exact compile?_eq_ok.2 ⟨p, r, s, loads, isRestricted, hparse, hr, hstatement, rfl⟩
  · obtain ⟨_, r, s, loads, isRestricted, hparse'', hr, hstatement, rfl⟩ := compile?_eq_ok.1 hc
    obtain rfl := Except.ok.inj (hparse.symm.trans hparse'')
    obtain ⟨hmore, hinserted, -⟩ := hfields r hr
    rw [← compiled_inserted h hinserted]
    refine compile?_eq_ok.2 ⟨p', _, s, loads, isRestricted, hparse', (hread' _).2 ⟨r, hr, rfl⟩,
      ?_, rfl⟩
    rw [h.criteria, statement?_records_inserted hmore hinserted hmode, hstatement]

/-- Requests for rows compile to statements that differ in their terms. -/
theorem compile?_rows_inserted (h : q.InsertsRelations request request' names names')
    {c' : CompiledQuery} (hmode : c'.rowMode = true) (hc' : q.compile? request' = .ok c') :
    ∃ c terms terms', q.compile? request = .ok c ∧ c.statement.selection = .rows terms ∧
      c'.statement = { c.statement with selection := .rows terms' } ∧
      Inserted q.ShowsRelation terms terms' ∧ (terms' = terms ↔ names' = names) := by
  obtain ⟨p, p', ps, hparse, hparse', hread', hfields⟩ := h.exists_read
  obtain ⟨_, _, s', loads, isRestricted, hparse'', hr', hstatement, rfl⟩ := compile?_eq_ok.1 hc'
  obtain rfl := Except.ok.inj (hparse'.symm.trans hparse'')
  obtain ⟨r, hr, rfl⟩ := (hread' _).1 hr'
  obtain ⟨-, hinserted, hsame⟩ := hfields r hr
  rw [compiled_inserted h hinserted] at hmode ⊢
  rw [h.criteria] at hstatement
  obtain ⟨s, terms, terms', hs, hselection, rfl, hterms, hterms'⟩ :=
    statement?_rows_inserted hinserted hmode hstatement
  obtain ⟨limit, offset, hpaged⟩ := statement_compiled q request r s loads isRestricted
  refine ⟨_, terms, terms', compile?_eq_ok.2 ⟨p, r, s, loads, isRestricted, hparse, hr, hs,
    rfl⟩, ?_, statement_compiled_selection .., hterms, hterms'.trans hsame⟩
  rw [hpaged, hselection]

/-- **Relations among the fields of records are skipped, and those among the fields of rows are
not.** Let names of relations be inserted anywhere into the fields of the records of a request, of
which there is one at least. A request for records compiles to what it compiled to, with the same
columns, conditions and loads, and has the same answer. A request for rows of values has a statement
that differs in its terms: every name is one more of them, the comparison of the keys of the entity
with those of its related one. It is the same only when nothing is inserted. -/
theorem relations_among_fields (h : q.InsertsRelations request request' names names') :
    (∀ c, c.rowMode = false → (q.compile? request' = .ok c ↔ q.compile? request = .ok c)) ∧
    (∀ c, c.rowMode = false → q.compile? request = .ok c → ∀ db transform refinement,
      q.fetch? db request' transform refinement = q.fetch? db request transform refinement) ∧
    ∀ c', c'.rowMode = true → q.compile? request' = .ok c' → ∃ c terms terms',
      q.compile? request = .ok c ∧ c.statement.selection = .rows terms ∧
        c'.statement = { c.statement with selection := .rows terms' } ∧
        Inserted q.ShowsRelation terms terms' ∧ (terms' = terms ↔ names' = names) := by
  refine ⟨fun _ => compile?_records_inserted h, ?_, fun _ => compile?_rows_inserted h⟩
  intro c hmode hc db transform refinement
  rw [fetch?, fetch?, fetchFrom, fetchFrom, hc, (compile?_records_inserted h hmode).2 hc]

end Query

namespace Sample

/-- People, with these fields of theirs. -/
def peopleFields (names : List String) : Request where
  params := .ofFields [("fields", .ofFields [("person", Parameters.textsValue names)])]

theorem namesRelation_pets : people.NamesRelation "person" "pets" :=
  ⟨by decide, rfl, rfl, by decide⟩

/-- First names, with the relation to the pets before and after them. -/
theorem insertsRelations_names : people.InsertsRelations (peopleFields ["first_name"])
    (peopleFields ["pets", "first_name", "pets"]) ["first_name"]
    ["pets", "first_name", "pets"] where
  params := ⟨_, [], [], rfl, rfl, rfl, by simp⟩
  ne_nil := by simp
  inserted := .insert namesRelation_pets (.keep (.insert namesRelation_pets .nil))
  single := rfl
  criteria := rfl
  type := rfl

/-- The number of people, with the relation to the pets after it. -/
theorem insertsRelations_count : people.InsertsRelations (peopleFields ["count(id)"])
    (peopleFields ["count(id)", "pets"]) ["count(id)"] ["count(id)", "pets"] where
  params := ⟨_, [], [], rfl, rfl, rfl, by simp⟩
  ne_nil := by simp
  inserted := .keep (.insert namesRelation_pets .nil)
  single := rfl
  criteria := rfl
  type := rfl

/-- Among first names the relation is skipped, and beside a count it is one more term. -/
theorem relations_among_peopleFields :
    (∃ c a, people.compile? (peopleFields ["first_name"]) = .ok c ∧
      people.compile? (peopleFields ["pets", "first_name", "pets"]) = .ok c ∧
      people.fetch? database (peopleFields ["first_name"]) none none = .ok a ∧
        people.fetch? database (peopleFields ["pets", "first_name", "pets"]) none none = .ok a) ∧
    ∃ c c' terms terms', people.compile? (peopleFields ["count(id)"]) = .ok c ∧
      people.compile? (peopleFields ["count(id)", "pets"]) = .ok c' ∧
      c.statement.selection = .rows terms ∧
      c'.statement = { c.statement with selection := .rows terms' } ∧
        Inserted people.ShowsRelation terms terms' ∧ terms' ≠ terms := by
  obtain ⟨hcompile, hfetch, -⟩ := Query.relations_among_fields insertsRelations_names
  obtain ⟨-, -, hrows⟩ := Query.relations_among_fields insertsRelations_count
  obtain ⟨c, terms, terms', hc, hselection, hstatement, hterms, hsame⟩ := hrows _ rfl rfl
  obtain ⟨a, ha, -⟩ := Query.exists_answer people database (peopleFields ["first_name"]) none rfl
    rfl rfl rfl (Statement.runFault?_of_isTotal (by decide) (by decide) (by decide +kernel))
    (by decide)
  exact ⟨⟨_, a, rfl, (hcompile _ rfl).2 rfl, ha, (hfetch _ rfl rfl ..).trans ha⟩,
    c, _, terms, terms', hc, rfl, hselection, hstatement, hterms, fun h => by
      simpa using hsame.1 h⟩

/-- Among aggregates the relation is read: of five people twenty-five are counted, each with every
pet. -/
theorem relation_multiplies_count : ∃ a b,
    people.InsertsRelations (peopleFields ["count(id)"]) (peopleFields ["count(id)", "pets"])
      ["count(id)"] ["count(id)", "pets"] ∧
    people.fetch? database (peopleFields ["count(id)"]) none none = .ok a ∧
    people.fetch? database (peopleFields ["count(id)", "pets"]) none none = .ok b ∧
    a.outcome = .collection ⟨[.values [("count", .int 5)]], none⟩ ∧
      b.outcome = .collection ⟨[.values [("count", .int 25), ("pets", .bool true)]], none⟩ := by
  obtain ⟨a, ha, hcount⟩ := Query.exists_answer people database (peopleFields ["count(id)"]) none
    rfl rfl rfl rfl
    (Statement.runFault?_of_isTotal (by decide) (by decide) (by decide +kernel)) (by decide)
  obtain ⟨b, hb, hmultiplied⟩ := Query.exists_answer people database
    (peopleFields ["count(id)", "pets"]) none rfl rfl rfl rfl
    (Statement.runFault?_of_isTotal (by decide) (by decide) (by decide +kernel)) (by decide)
  refine ⟨a, b, insertsRelations_count, ha, hb, ?_, ?_⟩
  · rw [hcount]
    rw [CompiledQuery.shownRecords_rows rfl, Statement.rows, Statement.groups_of_order_nil _ rfl]
    rfl
  · rw [hmultiplied]
    rw [CompiledQuery.shownRecords_rows rfl, Statement.rows, Statement.groups_of_order_nil _ rfl]
    rfl

end Sample

end ResourceQuery
