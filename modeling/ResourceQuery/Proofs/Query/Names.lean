import ResourceQuery.Proofs.Filter.Kept
import ResourceQuery.Proofs.Include.Paths
import ResourceQuery.Proofs.Query.Count
import ResourceQuery.Proofs.Sort.Along

/-!
# The names of a request

A request that compiles names nothing that is not there: every relation of a path is one of the
entity that the relations before it lead to, and every field is looked up on the entity where it is
named. Each stage of a statement looks its names up, whatever the others do. What is found for the
name of a field is a field, a relation, or an attribute of the class that is neither.

* `Entity.HasAttribute`, `Entity.IsOnlyOfClass`, `Entity.HasName`: names that are there;
* `Query.EveryName`: what is so of every name of a request on the entity that it is looked up on;
* `Query.EveryName.congr`: it is enough to know it of the names that are there;
* `Query.KnowsNames`: every name of a request is that of a field or of a relation;
* `Query.namesPath_conditions?`: a filter looks up the paths of all clauses, level by level;
* `Query.namesKey_of_key?`: a sort key is looked up in one of three ways;
* `Query.namesFields_selection?`: the fields of rows and those of records;
* `Query.compile?_knowsNames`: the names of a request that compiles.

An aggregate of a star is not looked up at all, whatever its function.
-/

namespace ResourceQuery

/-! ## Names that are there -/

namespace Entity

/-- Whether a stored name is that of a field or of a relation. -/
def HasAttribute (e : Entity) (name : String) : Prop :=
  (e.column? name).isSome ∨ e.isRelationship name

instance (e : Entity) (name : String) : Decidable (e.HasAttribute name) :=
  inferInstanceAs (Decidable (_ ∨ _))

/-- Whether a stored name is that of an attribute of the class that is no field and no relation. -/
def IsOnlyOfClass (e : Entity) (name : String) : Prop :=
  ¬ e.HasAttribute name ∧ (name = "__name__" ∨ (e.classAttribute? name).isSome)

instance (e : Entity) (name : String) : Decidable (e.IsOnlyOfClass name) :=
  inferInstanceAs (Decidable (_ ∧ _))

/-- Whether there is something of a stored name. -/
def HasName (e : Entity) (name : String) : Prop := e.HasAttribute name ∨ e.IsOnlyOfClass name

theorem hasAttribute_iff {e : Entity} {name : String} (h : e.HasName name) :
    e.HasAttribute name ↔ ¬ e.IsOnlyOfClass name :=
  ⟨fun hattribute hclass => hclass.1 hattribute, h.resolve_right⟩

end Entity

/-- What a field is found for has a name. -/
theorem Reach.hasName_of_field? {s : Schema} {r : Reach} {name : String} {field : ResolvedField}
    (h : r.field? s name = .ok field) : r.entity.HasName name := by
  cases Reach.field?_eq_ok.1 h with
  | column hcolumn => exact .inl (.inl (Option.isSome_of_eq_some hcolumn))
  | relation hcolumn hrelated =>
    obtain ⟨relationship, hrelationship, -⟩ := Option.bind_eq_some_iff.1 hrelated
    exact .inl (.inr (Option.isSome_of_eq_some hrelationship))
  | ofClass hcolumn hrelated ha =>
    by_cases hattribute : r.entity.HasAttribute name
    · exact .inl hattribute
    · refine .inr ⟨hattribute, ?_⟩
      unfold classAttribute? at ha
      split at ha
      · next hname => exact .inl hname
      · exact .inr (Option.isSome_of_eq_some ha)

namespace Query

/-! ## Every name of a request -/

section Everywhere

variable (q : Query) (has : Entity → String → Prop) (star : AggregateFunction → Prop)

/-- Whether a path leads through relations to an entity that has its field. -/
def NamesPath (e : Entity) (relations : List String) (field : String) : Prop :=
  ∃ target, q.sorts.target? e relations = some target ∧ has target (q.naming.toStorage field)

/-- Whether the entity has a selected field. The argument of an aggregate is a stored name, and a
star is none. -/
def NamesField (f : SelectedField) : Prop :=
  match f.aggregate with
  | none => has q.entity (q.naming.toStorage f.name)
  | some (function, argument) => if argument = "*" then star function else has q.entity argument

/-- Whether the entity has a sort key, or the entity that its relations lead to. -/
def NamesKey (key : SortKey) : Prop :=
  if key.path.isLocal then q.NamesField has star (.ofName key.path.field)
  else q.NamesPath has q.entity key.path.relations key.path.field

/-- Whether something is so of every name of a request: those of base criteria, filter, order, group
and fields, and where the answer is records, those of included relations. -/
structure EveryName (request : Request) (r : ReadRequest) : Prop where
  criteria : ∀ entry ∈ request.criteria, has q.entity (q.naming.toStorage entry.1)
  clauses : ∀ c ∈ r.clauses, q.NamesPath has q.entity c.path.relations c.path.field
  sortKeys : ∀ key ∈ r.sortKeys, q.NamesKey has star key
  group : ∀ f ∈ r.group, q.NamesField has star f
  fields : ∀ f ∈ q.fieldsOf request r, q.NamesField has star f
  includes : isRowMode (q.fieldsOf request r) r.group = false →
    ∀ p ∈ r.includes, ∃ target, q.sorts.target? q.entity p.relations = some target

end Everywhere

section Congr

variable {q : Query} {has has' has'' : Entity → String → Prop} {star : AggregateFunction → Prop}
  {request : Request} {r : ReadRequest}

theorem NamesField.imp (h : ∀ e name, has e name → has' e name → has'' e name)
    {f : SelectedField} (hall : q.NamesField has (fun _ => True) f)
    (hf : q.NamesField has' star f) : q.NamesField has'' star f := by
  unfold NamesField at hall hf ⊢
  split
  · next hplain =>
    rw [hplain] at hall hf
    exact h _ _ hall hf
  · next haggregate =>
    rw [haggregate] at hall hf
    dsimp only at hall hf
    split
    · next hstar => rwa [if_pos hstar] at hf
    · next hstar =>
      rw [if_neg hstar] at hall hf
      exact h _ _ hall hf

theorem NamesPath.imp (h : ∀ e name, has e name → has' e name → has'' e name) {e : Entity}
    {relations : List String} {field : String} (hall : q.NamesPath has e relations field)
    (hpath : q.NamesPath has' e relations field) : q.NamesPath has'' e relations field := by
  obtain ⟨target, htarget, hname⟩ := hall
  obtain ⟨target', htarget', hname'⟩ := hpath
  obtain rfl := Option.some.inj (htarget.symm.trans htarget')
  exact ⟨target, htarget, h _ _ hname hname'⟩

theorem EveryName.imp (h : ∀ e name, has e name → has' e name → has'' e name)
    (hall : q.EveryName has (fun _ => True) request r) (hr : q.EveryName has' star request r) :
    q.EveryName has'' star request r where
  criteria entry hentry := h _ _ (hall.criteria entry hentry) (hr.criteria entry hentry)
  clauses c hc := (hall.clauses c hc).imp h (hr.clauses c hc)
  sortKeys key hkey := by
    have hall := hall.sortKeys key hkey
    have hkey := hr.sortKeys key hkey
    unfold NamesKey at hall hkey ⊢
    split
    · next hlocal =>
      rw [if_pos hlocal] at hall hkey
      exact hall.imp h hkey
    · next hlocal =>
      rw [if_neg hlocal] at hall hkey
      exact hall.imp h hkey
  group f hf := (hall.group f hf).imp h (hr.group f hf)
  fields f hf := (hall.fields f hf).imp h (hr.fields f hf)
  includes := hr.includes

/-- What is so of the names of a request depends on those names only that are there. -/
theorem EveryName.congr (h : ∀ e name, has e name → (has' e name ↔ has'' e name))
    (hall : q.EveryName has (fun _ => True) request r) :
    q.EveryName has' star request r ↔ q.EveryName has'' star request r :=
  ⟨hall.imp fun e name hname => (h e name hname).1, hall.imp fun e name hname => (h e name hname).2⟩

end Congr

/-- Whether an aggregate of a star counts, unless the star is the name of something. -/
def CountsStar (q : Query) (function : AggregateFunction) : Prop :=
  function = .count ∨ q.entity.HasAttribute "*"

/-- Whether every name of a request is that of a field or of a relation. -/
abbrev KnowsNames (q : Query) (request : Request) (r : ReadRequest) : Prop :=
  q.EveryName Entity.HasAttribute q.CountsStar request r

variable {q : Query} {e : Entity} {f : SelectedField} {fields group : List SelectedField}

/-! ## Filters -/

theorem hasName_criteria? {reach : Reach} {criteria : List (String × Value)}
    {ps : List Predicate} (h : q.filters.criteria? reach criteria = .ok ps) :
    ∀ entry ∈ criteria, reach.entity.HasName (q.naming.toStorage entry.1) := by
  intro entry hentry
  obtain ⟨p, hp⟩ := exists_mapM_eq_ok.1 ⟨ps, h⟩ entry hentry
  obtain ⟨field, hfield, -⟩ := bind_eq_ok.1 hp
  exact Reach.hasName_of_field? hfield

/-- The clauses of a level are looked up on its entity, and those behind a relation on the entity
that it leads to. -/
theorem namesPath_conditions? {depth : Nat} {reach : Reach} {path : List String}
    {entries : List FilterEntry} {ps : List Predicate} (hdepth : Part.depth entries ≤ depth)
    (h : q.filters.conditions? depth reach path entries = .ok ps) :
    ∀ entry ∈ entries, q.NamesPath Entity.HasName reach.entity entry.1 entry.2.path.field := by
  induction depth generalizing reach path entries ps with
  | zero => simp [Part.depth] at hdepth
  | succ depth ih =>
    obtain ⟨⟨qs, hfields⟩, hparts⟩ := FilterCompiler.conditions?_eq_ok.1 h
    -- A clause on a field is looked up here, one behind a relation where the relation leads.
    rintro ⟨_ | ⟨name, rest⟩, c⟩ hentry
    · obtain ⟨p, hp⟩ := exists_mapM_eq_ok.1 ⟨qs, hfields⟩ c (Part.mem_localClauses.2 hentry)
      obtain ⟨field, hfield, -⟩ := bind_eq_ok.1 hp
      exact ⟨reach.entity, rfl, Reach.hasName_of_field? hfield⟩
    · have hname : name ∈ Part.heads entries := Part.mem_heads.2 ⟨rest, c, hentry⟩
      obtain ⟨p, hp⟩ := exists_mapM_eq_ok.1 ⟨ps, hparts⟩ (.relation name)
        (Part.relation_mem_ofEntries.2 ⟨hname, List.not_mem_nil⟩)
      obtain ⟨r, target, criteria, hr, hcriteria, -⟩ := FilterCompiler.part?_relation_eq_ok.1 hp
      have hlt := Nat.lt_of_lt_of_le (Part.depth_behind_lt hname) hdepth
      obtain ⟨last, hlast, hattribute⟩ := ih (Nat.le_of_lt_succ hlt) hcriteria (rest, c)
        (Part.mem_behind.2 hentry)
      rw [FilterCompiler.relatedReach_entity] at hlast
      exact ⟨last, (SortCompiler.target?_cons hr).trans hlast, hattribute⟩

theorem namesPath_filter? {clauses : List FilterClause} {ps : List Predicate}
    (h : q.filters.filter? e clauses = .ok ps) :
    ∀ c ∈ clauses, q.NamesPath Entity.HasName e c.path.relations c.path.field := by
  intro c hc
  rcases FilterCompiler.filter?_eq_ok.1 h with ⟨rfl, -⟩ | ⟨-, conditions, hconditions, -⟩
  · cases hc
  · exact namesPath_conditions? (Nat.le_refl _) hconditions _ (List.mem_map.2 ⟨c, hc, rfl⟩)

/-! ## Fields -/

theorem namesField_of_term? {t : Term} (h : f.term? q.schema q.entity.reach = .ok t) :
    q.NamesField Entity.HasName (fun _ => True) f := by
  unfold NamesField
  obtain ⟨function, haggregate, -⟩ | ⟨function, argument, field, hstar, haggregate, hfield, -⟩ :=
    SelectedField.term?_cases h
  · rw [haggregate]
    exact trivial
  · simp only [haggregate, if_neg hstar]
    exact Reach.hasName_of_field? hfield

theorem namesField_of_plain {has : Entity → String → Prop} {star : AggregateFunction → Prop}
    (hplain : f.isAggregate = false) (h : has q.entity (q.naming.toStorage f.name)) :
    q.NamesField has star f := by
  rw [NamesField, SelectedField.aggregate_eq_none hplain]
  exact h

theorem namesFields_group? {operands : List Operand}
    (h : q.fields.group? q.entity group = .ok operands) :
    ∀ f ∈ group, q.NamesField Entity.HasName (fun _ => True) f := by
  intro f hf
  obtain ⟨groups, hgroups, -⟩ := bind_eq_ok.1 h
  obtain ⟨x, hx⟩ := exists_mapM_eq_ok.1 ⟨groups, hgroups⟩ f hf
  unfold FieldCompiler.groupOperands? at hx
  split at hx
  · cases hx
  · next hplain =>
    obtain ⟨field, hfield, -⟩ := bind_eq_ok.1 hx
    exact namesField_of_plain (Bool.eq_false_iff.2 hplain) (Reach.hasName_of_field? hfield)

theorem namesFields_rowTerms? {terms : List SelectedTerm}
    (h : q.fields.rowTerms? q.entity fields group = .ok terms) :
    ∀ f ∈ fields, q.NamesField Entity.HasName (fun _ => True) f := by
  intro f hf
  have hne : fields.isEmpty = false := List.isEmpty_eq_false_iff_exists_mem.2 ⟨f, hf⟩
  rw [FieldCompiler.rowTerms?, hne] at h
  obtain ⟨t, ht⟩ := exists_mapM_eq_ok.1 ⟨terms, h⟩ f hf
  obtain ⟨-, term, hterm, -⟩ | ⟨hplain, field, hfield, -⟩ := FieldCompiler.selectedTerm?_cases ht
  · exact namesField_of_term? hterm
  · exact namesField_of_plain hplain (Reach.hasName_of_field? hfield)

/-- The fields of records: relations are passed over, all other fields are looked up. -/
theorem hasName_fieldNames? {names : List String}
    (h : q.fields.fieldNames? q.entity false fields = .ok names) :
    ∀ f ∈ fields, q.entity.HasName (q.naming.toStorage f.name) := by
  induction fields generalizing names with
  | nil => simp
  | cons f rest ih =>
    rw [List.forall_mem_cons]
    simp only [FieldCompiler.fieldNames?, Bool.false_and, Bool.false_or] at h
    split at h
    · next hrelation => exact ⟨.inl (.inr hrelation), ih h⟩
    · obtain ⟨field, hfield, h⟩ := bind_eq_ok.1 h
      obtain ⟨more, hmore, -⟩ := bind_eq_ok.1 h
      exact ⟨Reach.hasName_of_field? hfield, ih hmore⟩

theorem namesFields_selection? {loader : IncludeCompiler} {tree : List IncludeNode}
    {selection : Selection} {isRestricted : Bool}
    (h : q.selection? (isRowMode fields group) fields group loader tree =
      .ok (selection, isRestricted)) :
    ∀ f ∈ fields, q.NamesField Entity.HasName (fun _ => True) f := by
  intro f hf
  cases hmode : isRowMode fields group with
  | true =>
    rw [hmode] at h
    obtain ⟨terms, hterms, -⟩ := bind_eq_ok.1 h
    exact namesFields_rowTerms? hterms f hf
  | false =>
    rw [hmode] at h
    have hplain : ∀ f ∈ fields, f.isAggregate = false := by
      simp only [isRowMode, Bool.or_eq_false_iff, List.any_eq_false] at hmode
      simpa using hmode.2
    obtain ⟨kept, columns, -, hcolumns, -⟩ := columns?_of_selection? h
    obtain ⟨rfl, -⟩ | ⟨-, names, hnames, -⟩ := FieldCompiler.columns?_eq_ok.1 hcolumns
    · cases hf
    · exact namesField_of_plain (hplain f hf) (hasName_fieldNames? hnames f hf)

/-! ## Sort keys -/

theorem namesField_of_localKey? {name : String} {o : OrderKey}
    (h : q.sorts.localKey? q.entity name = .ok o) :
    q.NamesField Entity.HasName (fun _ => True) (.ofName name) := by
  simp only [SortCompiler.localKey?] at h
  split at h
  · obtain ⟨t, ht, -⟩ := map_eq_ok.1 h
    exact namesField_of_term? ht
  · next hplain =>
    obtain ⟨field, hfield, -⟩ := bind_eq_ok.1 h
    exact namesField_of_plain (Bool.eq_false_iff.2 hplain) (Reach.hasName_of_field? hfield)

/-- A key on the entity itself is looked up there, one behind a relation to many in its subquery,
and any other one where its joined path ends. -/
theorem namesKey_of_key? {c c' : JoinCache} {joins more : List Join} {index : Nat} {key : SortKey}
    {o : OrderKey} (htraced : q.sorts.Traced q.entity c joins)
    (hplain : ∀ name ∈ key.path.relations, IsPlain name)
    (h : q.sorts.key? q.entity index c key = .ok (c', more, o)) :
    q.NamesKey Entity.HasName (fun _ => True) key := by
  unfold NamesKey
  obtain ⟨hlocal, ho, -⟩ | ⟨hlocal, -, ho, -⟩ | ⟨hlocal, hone, last, field, hpath, hfield, -⟩ :=
    SortCompiler.key?_cases h
  · rw [if_pos hlocal]
    exact namesField_of_localKey? ho
  · rw [if_neg (Bool.eq_false_iff.1 hlocal)]
    obtain ⟨⟨hops, last⟩, hhops, ho⟩ := bind_eq_ok.1 ho
    obtain ⟨field, hfield, -⟩ := bind_eq_ok.1 ho
    exact ⟨last.entity, SortCompiler.target?_of_hops? hhops, Reach.hasName_of_field? hfield⟩
  · rw [if_neg (Bool.eq_false_iff.1 hlocal)]
    obtain ⟨-, -, -, hleads⟩ := SortCompiler.traced_path? htraced hone hplain hpath
    exact ⟨last.entity, hleads.target?_eq, Reach.hasName_of_field? hfield⟩

/-- A path that is joined already is not looked up again: the paths of the cache lead where their
relations say. -/
theorem namesKeys_keys? {c : JoinCache} {joins more : List Join} {index : Nat}
    {keys : List SortKey} {order : List OrderTerm} (htraced : q.sorts.Traced q.entity c joins)
    (hplain : ∀ key ∈ keys, ∀ name ∈ key.path.relations, IsPlain name)
    (h : q.sorts.keys? q.entity index c keys = .ok (more, order)) :
    ∀ key ∈ keys, q.NamesKey Entity.HasName (fun _ => True) key := by
  induction keys generalizing c joins more index order with
  | nil => simp
  | cons key rest ih =>
    rw [List.forall_mem_cons] at hplain ⊢
    obtain ⟨⟨c', more', o⟩, hkey, h⟩ := bind_eq_ok.1 h
    obtain ⟨⟨more'', terms⟩, hkeys, -⟩ := bind_eq_ok.1 h
    obtain ⟨htraced', -, -⟩ := SortCompiler.traced_key? htraced hplain.1 hkey
    exact ⟨namesKey_of_key? htraced hplain.1 hkey, ih htraced' hplain.2 hkeys⟩

/-! ## Requests -/

/-- Whether a request compiles with a name that is not known. -/
def AcceptsUnknown (q : Query) (request : Request) : Prop :=
  ∃ c parameters r, q.compile? request = .ok c ∧
    Parameters.parse request.params = .ok parameters ∧ parameters.readRequest? = .ok r ∧
      ¬ q.KnowsNames request r

/-- What compiles has found all its names. -/
theorem hasNames_of_statement? {request : Request} {r : ReadRequest} {s : Statement}
    {loads : List RelationLoad} {isRestricted : Bool}
    (hplain : ∀ key ∈ r.sortKeys, ∀ name ∈ key.path.relations, IsPlain name)
    (h : q.statement? request.criteria r (q.fieldsOf request r) = .ok (s, loads, isRestricted)) :
    q.EveryName Entity.HasName (fun _ => True) request r := by
  obtain ⟨base, ps, group, joins, order, selection, hbase, hps, hgroup, horder, hselection, -,
    hloads⟩ := statement?_eq_ok h
  refine ⟨hasName_criteria? hbase, namesPath_filter? hps, namesKeys_keys? .none hplain horder,
    namesFields_group? hgroup, namesFields_selection? hselection, fun hmode p hp => ?_⟩
  rw [loads?, hmode] at hloads
  exact IncludeCompiler.exists_target?_of_loads? hloads (IncludeTree.covers_ofPaths hp)

/-- **No unknown name is accepted.** A request either fails to compile, or it is read and something
is found for each of its names: the names of base criteria, of group, of the fields of its records
and of every relation and the field of every clause and sort key, and where the answer is records,
every relation that is included. These are the names of fields and of relations exactly when none of
them is an attribute of a class and nothing else, and every aggregate of a star counts. -/
theorem compile?_knowsNames (q : Query) (request : Request) :
    (∃ e, q.compile? request = .error e) ∨
      ∃ c parameters r, q.compile? request = .ok c ∧
        Parameters.parse request.params = .ok parameters ∧
        parameters.readRequest? = .ok r ∧
        q.EveryName Entity.HasName (fun _ => True) request r ∧
        (q.KnowsNames request r ↔
          q.EveryName (fun e name => ¬ e.IsOnlyOfClass name) q.CountsStar request r) := by
  cases hc : q.compile? request with
  | error e => exact .inl ⟨e, rfl⟩
  | ok c =>
    obtain ⟨parameters, r, s, loads, isRestricted, hparse, hread, hstatement, -⟩ :=
      compile?_eq_ok.1 hc
    have hnames := hasNames_of_statement? (Parameters.plain_of_readRequest? hread) hstatement
    exact .inr ⟨c, parameters, r, rfl, hparse, hread, hnames,
      hnames.congr fun e name => Entity.hasAttribute_iff⟩

end Query

namespace Sample

/-- How many pets called Grover with a car every owner has, owners with most of them first. -/
def countedPets : Request where
  params := .ofFields [
    ("fields", .ofFields [("pet", .list [.text "pet_owner_id", .text "count(*)"])]),
    ("group", .list [.text "pet_owner_id"]),
    ("filter", .ofFields [("toy.type", .text "car")]),
    ("sort", .list [.text "-count(*)", .text "pet_owner.first_name"])]
  criteria := [("name", .text "Grover")]

/-- What the parameters of the request say. -/
def countedPetsRead : ReadRequest where
  clauses := [⟨.eq, ⟨["toy"], "type"⟩, [.text "car"]⟩]
  sortKeys := [⟨⟨[], "count(*)"⟩, true⟩, ⟨⟨["pet_owner"], "first_name"⟩, false⟩]
  projections := [("pet", [⟨"pet_owner_id", none⟩, ⟨"count(*)", some (.count, "*")⟩])]
  group := [⟨"pet_owner_id", none⟩]
  includes := []
  page := none

theorem read_countedPets : ∃ parameters,
    Parameters.parse countedPets.params = .ok parameters ∧
      parameters.readRequest? = .ok countedPetsRead :=
  ⟨_, rfl, rfl⟩

/-- They name fields, relations and a count of rows. -/
theorem names_countedPets : ∃ c, pets.compile? countedPets = .ok c ∧
    pets.KnowsNames countedPets countedPetsRead := by
  obtain ⟨parameters, hparse, hread⟩ := read_countedPets
  have hcompiles : ∃ c, pets.compile? countedPets = .ok c := ⟨_, rfl⟩
  obtain ⟨e, he⟩ | ⟨c, parameters', r, hc, hparse', hread', -, hknown⟩ :=
    Query.compile?_knowsNames pets countedPets
  · obtain ⟨c, hc⟩ := hcompiles
    rw [he] at hc
    cases hc
  · obtain rfl := Except.ok.inj (hparse.symm.trans hparse')
    obtain rfl := Except.ok.inj (hread.symm.trans hread')
    refine ⟨c, hc, hknown.2 ⟨by decide, ?_, ?_, ?_, ?_, nofun⟩⟩
    · exact List.forall_mem_singleton.2 ⟨toy, rfl, by decide⟩
    · refine List.forall_mem_cons.2 ⟨.inl rfl, List.forall_mem_singleton.2 ⟨person, rfl, by decide⟩⟩
    · exact List.forall_mem_singleton.2 (by decide : ¬ pet.IsOnlyOfClass "pet_owner_id")
    · exact List.forall_mem_cons.2 ⟨(by decide : ¬ pet.IsOnlyOfClass "pet_owner_id"),
        List.forall_mem_singleton.2 (.inl rfl)⟩

/-- The sum of a star over all pets. -/
def sumOfStar : Request where
  params := .ofFields [("fields", .ofFields [("pet", .list [.text "sum(*)"])])]

/-- Pets by the name of their table, which is an attribute of their class. -/
def petsOfTable : Request where
  params := .ofFields [("filter", .ofFields [("__tablename__", .text "pet")])]

/-- The sum of a star is no sum of a field that there is, and it compiles. So does a comparison with
the name of the table. -/
theorem unmapped_names_compile :
    pets.AcceptsUnknown sumOfStar ∧ pets.AcceptsUnknown petsOfTable := by
  refine ⟨⟨_, _, _, rfl, rfl, rfl, fun h => ?_⟩, ⟨_, _, _, rfl, rfl, rfl, fun h => ?_⟩⟩
  · have hsum : pets.NamesField Entity.HasAttribute pets.CountsStar ⟨"sum(*)", some (.sum, "*")⟩ :=
      h.fields _ (List.mem_singleton_self _)
    rcases hsum with hcount | hattribute
    · cases hcount
    · revert hattribute
      decide
  · obtain ⟨target, htarget, hattribute⟩ :=
      h.clauses ⟨.eq, ⟨[], "__tablename__"⟩, [.text "pet"]⟩ (List.mem_singleton_self _)
    cases htarget
    revert hattribute
    decide

end Sample

end ResourceQuery
