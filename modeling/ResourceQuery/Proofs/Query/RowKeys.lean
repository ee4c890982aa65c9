import ResourceQuery.Proofs.Parameters.Reading
import ResourceQuery.Proofs.Query.Aggregates

/-!
# The keys of rows of values

A row of values has one entry for every selected field, an aggregate under the name of its function
and a plain field under its name in requests.

This needs the labels of the fields to differ, and their keys. A label that appears again gets a
number, which makes it the label of no aggregate: two aggregates with one function are under the
function and under a key that the naming policy makes of the numbered one.

* `FieldCompiler.rowKey`, `FieldCompiler.groupValue`: the key of a field and its value for a group;
* `FieldCompiler.toValue_selectedTerm?`: what is selected for a field has this value;
* `CompiledQuery.domainKey_rowLabel`: what is selected under a label comes under the key;
* `Query.rows_by_keys`: the records of a request for rows of values.
-/

namespace ResourceQuery

/-! ## Labels and keys that differ -/

/-- Labels that differ get no numbers. -/
theorem numberedLabels_eq_self {seen labels : List String} (h : labels.Nodup)
    (hseen : ∀ label ∈ labels, label ∉ seen) : numberedLabels seen labels = labels := by
  induction labels generalizing seen with
  | nil => rfl
  | cons label rest ih =>
    obtain ⟨hlabel, hrest⟩ := List.nodup_cons.1 h
    rw [List.forall_mem_cons] at hseen
    have hnew : ∀ other ∈ rest, other ∉ label :: seen := by
      intro other hother hmem
      rcases List.mem_cons.1 hmem with rfl | hmem
      · exact hlabel hother
      · exact hseen.2 other hother hmem
    rw [numberedLabels, ih hrest hnew]
    simp [List.count_eq_zero.2 hseen.1]

/-! ## The value of a field -/

namespace FieldCompiler

variable (k : FieldCompiler) (e : Entity)

/-- The key of a field in a record: the function of an aggregate, and the name in requests of the
stored name of any other field. -/
def rowKey (f : SelectedField) : String :=
  if f.isAggregate then f.label else k.naming.toDomain (k.naming.toStorage f.name)

/-- The value of a field for a group: the number of its frames, a function of the cells of all of
them, or the cell of the frame that is shown. -/
def groupValue (g : FrameGroup) (f : SelectedField) : Value :=
  match f.aggregate with
  | some (function, argument) =>
    if argument = "*" then .int g.members.length
    else
      match e.reach.field? k.schema argument with
      | .ok field => (function.apply (g.members.map field.operand.cell)).toValue
          (function.typeOf field.operand.type)
      | .error _ => .null
  | none =>
    match e.reach.field? k.schema (k.naming.toStorage f.name) with
    | .ok field => (field.operand.cell g.shown).toValue field.operand.type
    | .error _ => .null

variable {k e} {f : SelectedField} {t : SelectedTerm}

/-- What is selected for a field has the value of the field for every group. -/
theorem toValue_selectedTerm? (h : k.selectedTerm? e f = .ok t) (g : FrameGroup) :
    (t.term.cell g).toValue t.term.type = k.groupValue e g f := by
  unfold groupValue
  obtain ⟨-, term, hterm, rfl⟩ | ⟨hplain, field, hfield, -, rfl⟩ := selectedTerm?_cases h
  · obtain ⟨function, haggregate, rfl⟩ |
      ⟨function, argument, field, hstar, haggregate, hfield, rfl⟩ := SelectedField.term?_cases hterm
    · rw [haggregate]
      rfl
    · simp only [haggregate, hstar, if_false, hfield]
      cases function <;> rfl
  · simp only [SelectedField.aggregate_eq_none hplain, hfield]
    rfl

end FieldCompiler

/-! ## Rows -/

theorem mem_aggregateLabels {fields group : List SelectedField} {label : String} :
    label ∈ FieldCompiler.aggregateLabels fields group ↔
      ∃ f ∈ shownFields fields group, f.isAggregate = true ∧ f.label = label := by
  rw [FieldCompiler.aggregateLabels, List.mem_eraseDups]
  simp [shownFields, and_assoc]

namespace Query

variable {q : Query} {db : Database} {request : Request} {parameters : Parameters}
  {r : ReadRequest} {c : CompiledQuery} {transform : Option Transform} {a : Answer}
  {s : Statement} {loads : List RelationLoad} {isRestricted : Bool}

/-- Where the labels of all fields differ, what is selected under a label comes under the key of
the field. A plain field has the label of no aggregate then. -/
theorem domainKey_rowLabel (hmode : isRowMode (q.fieldsOf request r) r.group = true)
    (hlabels : ((shownFields (q.fieldsOf request r) r.group).map q.fields.rowLabel).Nodup)
    {f : SelectedField} (hf : f ∈ shownFields (q.fieldsOf request r) r.group) :
    (q.compiled request r s loads isRestricted).domainKey q.naming (q.fields.rowLabel f) =
      q.fields.rowKey f := by
  have haggregateLabels : (q.compiled request r s loads isRestricted).aggregateLabels =
      FieldCompiler.aggregateLabels (q.fieldsOf request r) r.group := if_pos hmode
  rw [CompiledQuery.domainKey, haggregateLabels]
  by_cases haggregate : f.isAggregate = true
  · have hlabel : q.fields.rowLabel f = f.label := if_pos haggregate
    rw [FieldCompiler.rowKey, if_pos haggregate, hlabel]
    exact if_pos (mem_aggregateLabels.2 ⟨f, hf, haggregate, rfl⟩)
  · have hlabel : q.fields.rowLabel f = q.naming.toStorage f.name := if_neg haggregate
    rw [FieldCompiler.rowKey, if_neg haggregate, if_neg, hlabel]
    · rfl
    · intro hmem
      obtain ⟨g, hg, hgaggregate, hglabel⟩ := mem_aggregateLabels.1 hmem
      have hsame : q.fields.rowLabel g = q.fields.rowLabel f := by
        rw [FieldCompiler.rowLabel, if_pos hgaggregate, hglabel]
      rw [List.inj_on_of_nodup_map hlabels hg hf hsame] at hgaggregate
      exact haggregate hgaggregate

/-- The record of a group has the value of every field under its key. -/
theorem valuesRecord_answerRow {terms : List SelectedTerm}
    (hmode : isRowMode (q.fieldsOf request r) r.group = true)
    (hlabels : ((shownFields (q.fieldsOf request r) r.group).map q.fields.rowLabel).Nodup)
    (hkeys : ((shownFields (q.fieldsOf request r) r.group).map q.fields.rowKey).Nodup)
    (hselection : s.selection = .rows terms)
    (hterms : q.fields.rowTerms? q.entity (q.fieldsOf request r) r.group = .ok terms)
    {s' : Statement} (g : FrameGroup) :
    (q.compiled request r s' loads isRestricted).valuesRecord q.naming (s.answerRow g) =
      .values ((shownFields (q.fieldsOf request r) r.group).map fun f =>
        (q.fields.rowKey f, q.fields.groupValue q.entity g f)) := by
  have hshown : terms.map (·.label) =
      (shownFields (q.fieldsOf request r) r.group).map q.fields.rowLabel :=
    map_eq_of_mapM_eq_ok hterms fun _ _ _ ht => FieldCompiler.label_selectedTerm? ht
  have hvalues : (terms.map fun t => (t.term.cell g).toValue t.term.type) =
      (shownFields (q.fieldsOf request r) r.group).map (q.fields.groupValue q.entity g) :=
    map_eq_of_mapM_eq_ok hterms fun _ _ _ ht => FieldCompiler.toValue_selectedTerm? ht g
  rw [Statement.answerRow, hselection]
  dsimp only
  rw [hshown, hvalues, numberedLabels_eq_self hlabels fun _ _ => List.not_mem_nil,
    CompiledQuery.valuesRecord, CompiledQuery.domainRow, List.zip_map', List.map_map]
  have hentries : ∀ f ∈ shownFields (q.fieldsOf request r) r.group,
      ((fun entry : String × Value =>
        ((q.compiled request r s' loads isRestricted).domainKey q.naming entry.1, entry.2)) ∘
          fun f => (q.fields.rowLabel f, q.fields.groupValue q.entity g f)) f =
        (q.fields.rowKey f, q.fields.groupValue q.entity g f) :=
    fun f hf => congrArg (·, _) (domainKey_rowLabel hmode hlabels hf)
  rw [List.map_congr_left hentries, Input.ofEntries_eq_self]
  rwa [List.map_map]

/-- **Every selected field has an entry of its own.** Let a request for rows of values be answered
whose fields have labels that differ, and keys that differ. Then its records are, on a page, those
of the groups of its statement, and each has, in the order of the fields, the value of every field
under its key, and no other keys. -/
theorem rows_by_keys (hparse : Parameters.parse request.params = .ok parameters)
    (hread : parameters.readRequest? = .ok r)
    (hmode : isRowMode (q.fieldsOf request r) r.group = true)
    (hlabels : ((shownFields (q.fieldsOf request r) r.group).map q.fields.rowLabel).Nodup)
    (hkeys : ((shownFields (q.fieldsOf request r) r.group).map q.fields.rowKey).Nodup)
    (hc : q.compile? request = .ok c) (h : q.fetch? db request transform none = .ok a) :
    (∀ f ∈ shownFields (q.fieldsOf request r) r.group,
      ∃ t, q.fields.selectedTerm? q.entity f = .ok t) ∧
    ∃ pagination made,
      Transform.resultAll? a.session transform
        ((Statement.window c.statement.limit c.statement.offset (c.statement.groups db)).map
          fun g => .values ((shownFields (q.fieldsOf request r) r.group).map fun f =>
            (q.fields.rowKey f, q.fields.groupValue q.entity g f))) = .ok made ∧
      a.outcome = if c.single then .single made.head? else .collection ⟨made, pagination⟩ := by
  obtain ⟨c', pagination, rows, session, records, made, hc', -, hrows, hrecords, hmade, rfl⟩ :=
    fetch?_transform_eq_ok.1 h
  obtain rfl := Except.ok.inj (hc.symm.trans hc')
  obtain ⟨s, loads, isRestricted, hstatement, rfl⟩ := exists_statement? hparse hread hc
  obtain ⟨limit, offset, hpaged⟩ := statement_compiled q request r s loads isRestricted
  obtain ⟨terms, hselection, hterms⟩ := rowTerms_statement? hmode hstatement
  have hselection' : (q.compiled request r s loads isRestricted).statement.selection =
      .rows terms := by rw [hpaged]; exact hselection
  obtain ⟨-, hrun⟩ := Statement.store_rows_eq_ok.1 hrows
  obtain ⟨-, rfl⟩ := Statement.run_eq_ok.1 hrun
  obtain ⟨-, rfl⟩ := (CompiledQuery.materialize_rows hselection').1 hrecords
  refine ⟨exists_mapM_eq_ok.1 ⟨terms, hterms⟩, pagination, made, ?_, rfl⟩
  rw [← hmade, Statement.rows, List.map_map]
  refine congrArg _ (List.map_congr_left fun g _ => ?_)
  exact (valuesRecord_answerRow hmode hlabels hkeys hselection' hterms g).symm

end Query

namespace Sample

/-- Queries for pets, by names with capitals. -/
def snakePets : Query := { schema := schema, entity := pet, naming := .snake }

/-- How many pets every owner has, and the last of their names. -/
def petsCounted : Request where
  params := .ofFields [
    ("fields", .ofFields
      [("pet", .list [.text "petOwnerId", .text "count(id)", .text "max(name)"])]),
    ("group", .list [.text "petOwnerId"])]

/-- What is asked for of these pets. -/
def petsCountedFields : List SelectedField :=
  [⟨"petOwnerId", none⟩, ⟨"count(id)", some (.count, "id")⟩, ⟨"max(name)", some (.max, "name")⟩]

theorem exists_petsCounted : ∃ c a, snakePets.compile? petsCounted = .ok c ∧
    snakePets.fetch? database petsCounted none none = .ok a ∧ c.single = false ∧
      c.statement.limit = none ∧ c.statement.offset = none := by
  obtain ⟨a, ha, -⟩ := Query.exists_answer snakePets database petsCounted none rfl rfl rfl rfl
    (Statement.runFault?_of_isTotal (by decide) (by decide) (by decide +kernel)) (by decide)
  exact ⟨_, a, rfl, ha, rfl, rfl, rfl⟩

theorem read_petsCounted : ∃ parameters, Parameters.parse petsCounted.params = .ok parameters ∧
    parameters.readRequest? =
      .ok ⟨[], [], [("pet", petsCountedFields)], [⟨"petOwnerId", none⟩], [], none⟩ :=
  ⟨_, rfl, rfl⟩

/-- Each of their rows has the owner, the number and the name under three keys. -/
theorem keys_petsCounted : ∃ c a pagination, snakePets.compile? petsCounted = .ok c ∧
    snakePets.fetch? database petsCounted none none = .ok a ∧
      a.outcome = .collection ⟨(c.statement.groups database).map fun g => .values [
        ("petOwnerId", snakePets.fields.groupValue pet g ⟨"petOwnerId", none⟩),
        ("count", snakePets.fields.groupValue pet g ⟨"count(id)", some (.count, "id")⟩),
        ("max", snakePets.fields.groupValue pet g ⟨"max(name)", some (.max, "name")⟩)],
        pagination⟩ := by
  obtain ⟨c, a, hc, ha, hsingle, hlimit, hoffset⟩ := exists_petsCounted
  obtain ⟨parameters, hparse, hread⟩ := read_petsCounted
  obtain ⟨-, pagination, made, hmade, houtcome⟩ := Query.rows_by_keys hparse hread (by decide)
    (by decide +kernel) (by decide +kernel) hc ha
  obtain rfl := Except.ok.inj hmade
  rw [hlimit, hoffset, hsingle] at houtcome
  exact ⟨c, a, pagination, hc, ha, houtcome⟩

/-- Queries for people, by names with capitals. -/
def snakePeople : Query := { schema := schema, entity := person, naming := .snake }

/-- The greatest age and the greatest number of all people. -/
def twoMaxima : Request where
  params := .ofFields [
    ("fields", .ofFields [("person", .list [.text "max(age)", .text "max(id)"])])]

/-- What this compiles to. -/
def twoMaximaQuery : CompiledQuery where
  statement := { entity := person, selection := .rows [
    ⟨.aggregate .max (.column ⟨person.reach.source, "age", .integer⟩), "max"⟩,
    ⟨.aggregate .max (.column ⟨person.reach.source, "id", .integer⟩), "max"⟩] }
  counted := none
  loads := []
  isRestricted := false
  window := none
  single := false
  rowMode := true
  aggregateLabels := ["max"]

/-- Of two aggregates with one function the second is not under the function, and its key is
renamed. -/
theorem second_maximum_renamed : ∃ a, snakePeople.fetch? database twoMaxima none none = .ok a ∧
    a.outcome = .collection ⟨[.values [("max", .int 70), ("max1", .int 5)]], none⟩ ∧
      snakePeople.fields.rowKey ⟨"max(id)", some (.max, "id")⟩ = "max" := by
  have hc : snakePeople.compile? twoMaxima = .ok twoMaximaQuery := rfl
  obtain ⟨a, ha, houtcome⟩ := Query.exists_answer snakePeople database twoMaxima none hc rfl rfl rfl
    (Statement.runFault?_of_isTotal (by decide) (by decide) (by decide +kernel)) (by decide)
  refine ⟨a, ha, ?_, by decide⟩
  rw [houtcome, CompiledQuery.shownRecords_rows rfl, Statement.rows,
    Statement.groups_of_order_nil _ rfl]
  rfl

end Sample

end ResourceQuery
