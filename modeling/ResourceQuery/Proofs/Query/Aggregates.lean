import ResourceQuery.Proofs.Query.Guard
import ResourceQuery.Proofs.Query.Matching

/-!
# Aggregates

What rows of values say about the rows of the entity: they are about classes of rows with the same
values in the group columns, and every row that the request matches is in one class, once.

* `RowClass`: some rows, and the one of them whose columns are shown;
* `FieldCompiler.classValue`, `FieldCompiler.isAnswered`: the value of a field for a class, and
  whether the store has one;
* `Query.AreClasses`: the classes of some rows by the columns of a group;
* `Query.areClasses_groups`: the groups of a statement are the classes of the rows behind it;
* `Query.aggregates_of_classes`: the rows of values of a request.

A request that selects nothing but `count(*)`, and asks for nothing of the entity itself, has a
statement that does not read the entity. It counts a single row then.
-/

namespace ResourceQuery

/-! ## The values of a class -/

/-- Some rows of an entity, and the one of them whose columns are shown. -/
structure RowClass where
  rows : List StoredRow
  shown : Option StoredRow

/-- The rows of an entity that the frames of a group show. -/
def FrameGroup.rowClass (root : Source) (g : FrameGroup) : RowClass :=
  ⟨g.members.filterMap (·.row? root), g.shown.row? root⟩

/-- The type of the values of a function of a column. -/
def AggregateFunction.typeOf (type : ColumnType) : AggregateFunction → ColumnType
  | count => .integer
  | avg => .untyped
  | sum | max | min => type

/-- The fields that rows of values show: those of the group when none are selected. -/
def shownFields (fields group : List SelectedField) : List SelectedField :=
  if fields.isEmpty then group else fields

namespace FieldCompiler

variable (k : FieldCompiler) (e : Entity)

/-- Whether a field of rows is about a column or about the rows themselves, and not about a
relation. -/
def isOnColumn (f : SelectedField) : Bool :=
  match f.aggregate with
  | some (_, argument) => argument = "*" || (e.column? argument).isSome
  | none => (e.column? (k.naming.toStorage f.name)).isSome

/-- The key of a field in a row before it is renamed. -/
def rowLabel (f : SelectedField) : String :=
  if f.isAggregate then f.label else k.naming.toStorage f.name

/-- The cell of a field for a class of rows: the number of rows, a function of the cells of all of
them, or the cell of the row that is shown. -/
def classCell (f : SelectedField) (c : RowClass) : Cell :=
  match f.aggregate with
  | some (function, argument) =>
    if argument = "*" then .integer c.rows.length
    else ((e.column? argument).map fun column =>
      function.apply (c.rows.map (·.get column.name))).getD .null
  | none => ((e.column? (k.naming.toStorage f.name)).map fun column =>
      (c.shown.map (StoredRow.get · column.name)).getD .null).getD .null

/-- The type of the values of a field. -/
def classType (f : SelectedField) : ColumnType :=
  match f.aggregate with
  | some (function, argument) =>
    if argument = "*" then .integer
    else ((e.column? argument).map fun column => function.typeOf column.type).getD .untyped
  | none => ((e.column? (k.naming.toStorage f.name)).map (·.type)).getD .untyped

/-- The value of a field for a class of rows. -/
def classValue (f : SelectedField) (c : RowClass) : Value :=
  (k.classCell e f c).toValue (k.classType e f)

/-- Whether the store refuses to add up a field for a class of rows. -/
def classOverflows (f : SelectedField) (c : RowClass) : Bool :=
  match f.aggregate with
  | some (function, argument) =>
    argument ≠ "*" && ((e.column? argument).map fun column =>
      function.overflows (c.rows.map (·.get column.name))).getD false
  | none => false

/-- Whether there is a value of a field for a class of rows: no sum leaves the integers of the
store, and the cell is a value of its type. -/
def isAnswered (f : SelectedField) (c : RowClass) : Bool :=
  !classOverflows e f c && ((k.classCell e f c).read? (k.classType e f)).isSome

/-- The row of values of a class. -/
def classRow (selected : List SelectedField) (c : RowClass) : AnswerRow :=
  .values ((numberedLabels [] (selected.map k.rowLabel)).zip
    (selected.map fun f => k.classValue e f c))

variable {k e} {f : SelectedField} {t : SelectedTerm}

theorem label_selectedTerm? (h : k.selectedTerm? e f = .ok t) : t.label = k.rowLabel f := by
  obtain ⟨haggregate, _, -, rfl⟩ | ⟨hplain, _, -, -, rfl⟩ := selectedTerm?_cases h
  · rw [rowLabel, if_pos haggregate]
  · rw [rowLabel, if_neg (Bool.eq_false_iff.1 hplain)]

/-- The term of a field on a column. -/
theorem selectedTerm?_eq_ok (hf : k.isOnColumn e f = true) (h : k.selectedTerm? e f = .ok t) :
    (∃ function, f.aggregate = some (function, "*") ∧ t = ⟨.countAll, k.rowLabel f⟩) ∨
    (∃ function argument column, argument ≠ "*" ∧ f.aggregate = some (function, argument) ∧
      e.column? argument = some column ∧
      t = ⟨.aggregate function (.column (column.at_ e.reach.source)), k.rowLabel f⟩) ∨
    ∃ column, f.aggregate = none ∧ e.column? (k.naming.toStorage f.name) = some column ∧
      t = ⟨.plain (.column (column.at_ e.reach.source)), k.rowLabel f⟩ := by
  have hlabel := label_selectedTerm? h
  obtain ⟨haggregated, term, hterm, rfl⟩ | ⟨hplain, field, hfield, -, rfl⟩ := selectedTerm?_cases h
  · obtain ⟨function, haggregate, rfl⟩ |
      ⟨function, argument, field, hstar, haggregate, hfield, rfl⟩ := SelectedField.term?_cases hterm
    · exact .inl ⟨function, haggregate, by rw [← hlabel]⟩
    · simp only [isOnColumn, haggregate, Bool.or_eq_true, decide_eq_true_eq, hstar, false_or] at hf
      obtain ⟨column, hcolumn⟩ := Option.isSome_iff_exists.1 hf
      obtain rfl := Except.ok.inj ((Reach.field?_of_column hcolumn).symm.trans hfield)
      exact .inr (.inl
        ⟨function, argument, column, hstar, haggregate, hcolumn, by rw [← hlabel]; rfl⟩)
  · have hnone := SelectedField.aggregate_eq_none hplain
    simp only [isOnColumn, hnone] at hf
    obtain ⟨column, hcolumn⟩ := Option.isSome_iff_exists.1 hf
    obtain rfl := Except.ok.inj ((Reach.field?_of_column hcolumn).symm.trans hfield)
    exact .inr (.inr ⟨column, hnone, hcolumn, by rw [← hlabel]; rfl⟩)

/-- The term of a field mentions the entity and nothing else. -/
theorem sources_selectedTerm? (hf : k.isOnColumn e f = true) (h : k.selectedTerm? e f = .ok t) :
    ∀ s ∈ t.term.sources, s = e.reach.source := by
  rcases selectedTerm?_eq_ok hf h with ⟨_, -, rfl⟩ | ⟨_, _, _, -, -, -, rfl⟩ | ⟨_, -, -, rfl⟩
  · exact fun s hs => nomatch hs
  all_goals exact fun s hs => List.mem_singleton.1 hs

/-- The rows that some frames show. -/
theorem map_row?_eq {root : Source} {frames : List Frame}
    (hframes : ∀ f ∈ frames, ∃ x, f.row? root = some x) :
    frames.map (·.row? root) = (frames.filterMap (·.row? root)).map some := by
  induction frames with
  | nil => rfl
  | cons f frames ih =>
    rw [List.forall_mem_cons] at hframes
    obtain ⟨⟨x, hx⟩, hframes⟩ := hframes
    simp only [List.map_cons, List.filterMap_cons, hx, ih hframes]

/-- What a group shows of a field is what the field is for the rows behind the group. -/
theorem cell_selectedTerm? (hf : k.isOnColumn e f = true) (h : k.selectedTerm? e f = .ok t)
    {g : FrameGroup} (hmembers : ∀ m ∈ g.members, ∃ x, m.row? e.reach.source = some x) :
    t.term.cell g = k.classCell e f (g.rowClass e.reach.source) ∧
      t.term.type = k.classType e f ∧
      t.term.overflows g = classOverflows e f (g.rowClass e.reach.source) := by
  have hcells : ∀ column : Column,
      g.members.map (Operand.column (column.at_ e.reach.source)).cell =
        (g.rowClass e.reach.source).rows.map (·.get column.name) := by
    intro column
    have hmap := congrArg (List.map fun row => ((row.map (StoredRow.get · column.name)).getD
      .null)) (map_row?_eq hmembers)
    rw [List.map_map, List.map_map] at hmap
    exact hmap
  rcases selectedTerm?_eq_ok hf h with ⟨function, haggregate, rfl⟩ |
    ⟨function, argument, column, hstar, haggregate, hcolumn, rfl⟩ |
    ⟨column, haggregate, hcolumn, rfl⟩
  · have hlen := congrArg List.length (map_row?_eq hmembers)
    rw [List.length_map, List.length_map] at hlen
    simp only [classCell, classType, classOverflows, haggregate, FrameGroup.rowClass, ← hlen]
    exact ⟨rfl, rfl, rfl⟩
  · simp only [classCell, classType, classOverflows, haggregate, hcolumn, hstar, if_false,
      Option.map_some, Option.getD_some, ← hcells, ne_eq, not_false_eq_true, decide_true,
      Bool.true_and]
    exact ⟨rfl, by cases function <;> rfl, rfl⟩
  · simp only [classCell, classType, classOverflows, haggregate, hcolumn, Option.map_some,
      Option.getD_some]
    exact ⟨rfl, rfl, rfl⟩

/-- What rows of values show of a group is the row of the class behind it. -/
theorem answerRow_rows {s : Statement} {fields group : List SelectedField}
    {terms : List SelectedTerm} (hselection : s.selection = .rows terms)
    (hterms : k.rowTerms? e fields group = .ok terms)
    (hshown : ∀ f ∈ shownFields fields group, k.isOnColumn e f = true)
    {g : FrameGroup} (hmembers : ∀ m ∈ g.members, ∃ x, m.row? e.reach.source = some x) :
    s.answerRow g = k.classRow e (shownFields fields group) (g.rowClass e.reach.source) := by
  have hlabels : terms.map (·.label) = (shownFields fields group).map k.rowLabel :=
    map_eq_of_mapM_eq_ok hterms fun _ _ _ ht => label_selectedTerm? ht
  have hvalues : (terms.map fun t => (t.term.cell g).toValue t.term.type) =
      (shownFields fields group).map fun f => k.classValue e f (g.rowClass e.reach.source) := by
    refine map_eq_of_mapM_eq_ok hterms fun f hf t ht => ?_
    obtain ⟨hcell, htype, -⟩ := cell_selectedTerm? (hshown f hf) ht hmembers
    rw [classValue, hcell, htype]
  rw [Statement.answerRow, hselection, classRow]
  dsimp only
  rw [hlabels, hvalues]

/-- The store has values for the classes behind groups that it computes and can read. -/
theorem isAnswered_rowClass {s : Statement} {fields group : List SelectedField}
    {terms : List SelectedTerm} (hselection : s.selection = .rows terms)
    (hterms : k.rowTerms? e fields group = .ok terms)
    (hshown : ∀ f ∈ shownFields fields group, k.isOnColumn e f = true)
    {g : FrameGroup} (hmembers : ∀ m ∈ g.members, ∃ x, m.row? e.reach.source = some x)
    (hoverflow : ∀ t ∈ s.terms, t.overflows g = false) (hreadable : s.isReadable g = true) :
    ∀ f ∈ shownFields fields group, k.isAnswered e f (g.rowClass e.reach.source) = true := by
  intro f hf
  obtain ⟨t, ht, hterm⟩ := exists_mem_of_mapM_eq_ok hterms hf
  obtain ⟨hcell, htype, hsum⟩ := cell_selectedTerm? (hshown f hf) hterm hmembers
  have hmem : t.term ∈ s.selectedTerms := by
    rw [Statement.selectedTerms, hselection]
    exact List.mem_map_of_mem ht
  have hread := List.all_eq_true.1 hreadable _ hmem
  rw [isAnswered, ← hsum, ← hcell, ← htype, hoverflow _ (List.mem_append_left _ hmem), hread]
  rfl

end FieldCompiler

/-! ## The classes of a group -/

namespace Query

/-- What the columns of a group hold in a row of the entity. -/
def groupTuple (q : Query) (group : List SelectedField) (x : StoredRow) : List Cell.Content :=
  group.map fun f => (((q.entity.column? (q.naming.toStorage f.name)).map fun column =>
    x.get column.name).getD .null).content

/-- Whether some classes are those of some rows by the columns of a group: every row is in one of
them, once, and two rows are in the same one when their group columns hold the same. Without a group
there is a single class, which may be empty. -/
structure AreClasses (q : Query) (group : List SelectedField) (xs : List StoredRow)
    (classes : List RowClass) : Prop where
  rows_perm : (classes.flatMap (·.rows)).Perm xs
  equal : ∀ c ∈ classes, ∀ x ∈ c.rows, ∀ y ∈ c.rows, q.groupTuple group x = q.groupTuple group y
  differ : classes.Pairwise fun c d =>
    ∀ x ∈ c.rows, ∀ y ∈ d.rows, q.groupTuple group x ≠ q.groupTuple group y
  ne_nil : group ≠ [] → ∀ c ∈ classes, c.rows ≠ []
  single : group = [] → classes.length = 1
  shown : ∀ c ∈ classes, (∃ x ∈ c.rows, c.shown = some x) ∨ c.rows = [] ∧ c.shown = none

variable {q : Query} {criteria : List (String × Value)} {r : ReadRequest}
  {fields : List SelectedField} {s : Statement} {loads : List RelationLoad} {isRestricted : Bool}
  {db : Database}

/-- The frames of a statement are grouped by what the columns of the group hold in the rows that
they show. -/
theorem groupContent_eq_groupTuple
    (hgroup : ∀ f ∈ r.group, (q.entity.column? (q.naming.toStorage f.name)).isSome)
    (h : q.statement? criteria r fields = .ok (s, loads, isRestricted)) {f : Frame} {x : StoredRow}
    (hx : f.row? q.entity.reach.source = some x) :
    s.groupContent f = q.groupTuple r.group x := by
  obtain ⟨_, _, _, _, _, _, -, -, hread, -, -, rfl, -⟩ := statement?_eq_ok h
  obtain ⟨groups, hgroups, hread⟩ := bind_eq_ok.1 hread
  cases hread
  have hone : ∀ g ∈ r.group, ∀ operands, q.fields.groupOperands? q.entity g = .ok operands →
      contents (operands.map (·.cell f)) =
        [(((q.entity.column? (q.naming.toStorage g.name)).map fun column =>
          x.get column.name).getD .null).content] := by
    intro g hg operands hoperands
    obtain ⟨column, hcolumn⟩ := Option.isSome_iff_exists.1 (hgroup g hg)
    unfold FieldCompiler.groupOperands? at hoperands
    split at hoperands
    · cases hoperands
    · obtain ⟨field, hfield, hoperands⟩ := bind_eq_ok.1 hoperands
      obtain rfl := Except.ok.inj ((Reach.field?_of_column hcolumn).symm.trans hfield)
      cases hoperands
      have hget : f.get (column.at_ q.entity.reach.source) = x.get column.name :=
        Frame.get_of_row? hx
      rw [hcolumn, Option.map_some, Option.getD_some, ← hget]
      rfl
  have hmap := congrArg List.flatten (map_eq_of_mapM_eq_ok hgroups hone)
  have hcontents : (groups.flatten.map fun operand => operand.cell f).map Cell.content =
      (groups.map fun operands => contents (operands.map (·.cell f))).flatten := by
    rw [List.map_flatten, List.map_flatten, List.map_map]
    rfl
  rw [Statement.groupContent, contents, hcontents, hmap, groupTuple, ← List.flatMap_def,
    ← List.map_eq_flatMap]

/-- The statement of a request for rows of values mentions its entity and nothing else. -/
theorem readsEntity_statement?
    (hplain : ∀ key ∈ r.sortKeys, ∀ name ∈ key.path.relations, IsPlain name)
    (hvalues : ∀ c ∈ r.clauses, c.values ≠ [])
    (hlike : ∀ c ∈ r.clauses, c.operator = .like → c.path.relations = [] →
      (q.entity.column? (q.naming.toStorage c.path.field)).isSome)
    (hshown : ∀ f ∈ shownFields fields r.group, q.fields.isOnColumn q.entity f = true)
    (hmode : isRowMode fields r.group = true)
    (h : q.statement? criteria r fields = .ok (s, loads, isRestricted))
    (hread : q.entity.reach.source ∈ s.sources) : s.ReadsEntity q.schema := by
  have hsources := sources_statement? hvalues hlike h
  obtain ⟨terms, hselection, hterms⟩ := rowTerms_statement? hmode h
  obtain ⟨base, ps, group, joins, order, selection, hbase, hps, -, horder, -, rfl, -⟩ :=
    statement?_eq_ok h
  refine ⟨SortCompiler.joined_order? hplain horder, fun p hp => ?_, fun t ht => ?_, hread⟩
  · rcases List.mem_append.1 hp with hp | hp
    · exact FilterCompiler.mentionsOnly_criteria? hbase p hp
    · exact FilterCompiler.mentionsOnly_filter? hps p hp
  · rcases List.mem_append.1 ht with ht | ht
    · rw [hselection] at ht
      obtain ⟨term, hterm, ht⟩ := List.mem_flatMap.1 ht
      obtain ⟨f, hf, hterm⟩ := exists_of_mapM_eq_ok hterms hterm
      exact FieldCompiler.sources_selectedTerm? (hshown f hf) hterm t ht
    · exact List.mem_singleton.1 (Predicate.flatMap_sources_subset hsources ht)

theorem group_eq_nil (h : q.statement? criteria r fields = .ok (s, loads, isRestricted))
    (hgroup : r.group = []) : s.group = [] := by
  obtain ⟨_, _, _, _, _, _, -, -, hread, -, -, rfl, -⟩ := statement?_eq_ok h
  rw [hgroup] at hread
  cases hread
  rfl

/-- Without a group there is a single group of frames. -/
theorem length_groups_of_nil (he : q.entity.WellFormed) (hmode : isRowMode fields r.group = true)
    (hproper : db.Proper q.entity)
    (h : q.statement? criteria r fields = .ok (s, loads, isRestricted)) (hgroup : r.group = []) :
    (s.groups db).length = 1 := by
  rw [← rowCount_eq_length_groups hmode hproper h, rowCount_eq_card he hmode hproper h,
    if_pos (group_eq_nil h hgroup)]

/-- The classes behind the groups of a statement, by the columns of its group. -/
theorem classes_groups (he : q.entity.WellFormed) (hproper : db.Proper q.entity)
    (hgroup : ∀ f ∈ r.group, (q.entity.column? (q.naming.toStorage f.name)).isSome)
    (h : q.statement? criteria r fields = .ok (s, loads, isRestricted)) (hne : r.group ≠ []) :
    (∀ g ∈ s.groups db, g.members ≠ [] ∧
      ∀ x ∈ (g.rowClass q.entity.reach.source).rows, ∀ y ∈ (g.rowClass q.entity.reach.source).rows,
        q.groupTuple r.group x = q.groupTuple r.group y) ∧
    (s.groups db).Pairwise fun g g' =>
      ∀ x ∈ (g.rowClass q.entity.reach.source).rows, ∀ y ∈ (g'.rowClass q.entity.reach.source).rows,
        q.groupTuple r.group x ≠ q.groupTuple r.group y := by
  have htuple : ∀ {f x}, Frame.row? f q.entity.reach.source = some x →
      s.groupContent f = q.groupTuple r.group x := groupContent_eq_groupTuple hgroup h
  obtain ⟨frames, hframes, hgroups⟩ := s.exists_groups_perm db
  obtain ⟨hsame, hdiffer⟩ := s.classes_unorderedGroups
    (fun hnil => hne (nil_of_group_nil he h hnil))
    fun f hf => proper_group hproper h f (hframes.mem_iff.1 hf)
  constructor
  · intro g hg
    obtain ⟨hmembers, hsame⟩ := hsame g (hgroups.mem_iff.1 hg)
    refine ⟨hmembers, fun x hx y hy => ?_⟩
    obtain ⟨f, hf, hfx⟩ := List.mem_filterMap.1 hx
    obtain ⟨f', hf', hfy⟩ := List.mem_filterMap.1 hy
    rw [← htuple hfx, ← htuple hfy]
    exact hsame f hf f' hf'
  · refine (hgroups.pairwise_iff fun hpq a ha b hb hab => hpq b hb a ha hab.symm).2
      (hdiffer.imp fun hgg x hx y hy => ?_)
    obtain ⟨f, hf, hfx⟩ := List.mem_filterMap.1 hx
    obtain ⟨f', hf', hfy⟩ := List.mem_filterMap.1 hy
    rw [← htuple hfx, ← htuple hfy]
    exact hgg f hf f' hf'

/-- Every frame of a group shows a row of the entity. -/
theorem exists_row?_of_member (hs : q.schema.WellFormed) (he : q.entity ∈ q.schema.entities)
    (hone : db.ToOne q.schema) (h : q.statement? criteria r fields = .ok (s, loads, isRestricted))
    (hreads : s.ReadsEntity q.schema) {g : FrameGroup} (hg : g ∈ s.groups db) :
    ∀ m ∈ g.members, ∃ x, m.row? q.entity.reach.source = some x := by
  intro m hm
  obtain ⟨frames, hframes, hgroups⟩ := s.exists_groups_perm db
  have hmem := hframes.mem_iff.1 ((s.members_perm frames).mem_iff.1
    (List.mem_flatMap.2 ⟨g, hgroups.mem_iff.1 hg, hm⟩))
  have hrow := List.mem_map_of_mem (f := (·.row? s.root)) hmem
  rw [hreads.map_row?_frames hs (entity_statement? h ▸ he) hone] at hrow
  obtain ⟨x, -, hx⟩ := List.mem_map.1 hrow
  exact ⟨x, root_statement? h ▸ hx.symm⟩

theorem filterMap_row?_frames (hs : q.schema.WellFormed) (he : q.entity ∈ q.schema.entities)
    (hone : db.ToOne q.schema) (h : q.statement? criteria r fields = .ok (s, loads, isRestricted))
    (hreads : s.ReadsEntity q.schema) :
    (s.frames db).filterMap (·.row? q.entity.reach.source) =
      Statement.keptRows db q.entity s.conditions := by
  have hentity := entity_statement? h
  have hmap := congrArg (List.filterMap id) (hreads.map_row?_frames hs (hentity ▸ he) hone)
  rw [List.filterMap_map, List.filterMap_map, hentity] at hmap
  rw [← List.filterMap_some (l := Statement.keptRows db q.entity s.conditions), ← root_statement? h]
  exact hmap

/-- The rows of the classes behind groups are those of the frames, each as often. -/
theorem rows_rowClass_perm (db : Database) (s : Statement) (root : Source) :
    (((s.groups db).map (·.rowClass root)).flatMap (·.rows)).Perm
      ((s.frames db).filterMap (·.row? root)) := by
  obtain ⟨frames, hframes, hgroups⟩ := s.exists_groups_perm db
  have hflat : ((s.groups db).map (·.rowClass root)).flatMap (·.rows) =
      ((s.groups db).flatMap (·.members)).filterMap (·.row? root) := by
    rw [List.flatMap_map, List.filterMap_flatMap]
    rfl
  rw [hflat]
  exact ((hgroups.flatMap_right _).trans ((s.members_perm frames).trans hframes)).filterMap _

/-- The class behind a group shows one of its rows, if it has any. -/
theorem shown_rowClass {root : Source} {g : FrameGroup} (hg : g ∈ s.groups db)
    (hrow : ∀ m ∈ g.members, ∃ x, m.row? root = some x) :
    (∃ x ∈ (g.rowClass root).rows, (g.rowClass root).shown = some x) ∨
      (g.rowClass root).rows = [] ∧ (g.rowClass root).shown = none := by
  obtain ⟨frames, -, hgroups⟩ := s.exists_groups_perm db
  rcases Statement.shown_mem (hgroups.mem_iff.1 hg) with hmem | ⟨hmembers, hshown⟩
  · obtain ⟨x, hx⟩ := hrow _ hmem
    exact .inl ⟨x, List.mem_filterMap.2 ⟨_, hmem, hx⟩, hx⟩
  · refine .inr ⟨?_, ?_⟩
    · rw [FrameGroup.rowClass, hmembers]
      rfl
    · rw [FrameGroup.rowClass, hshown]
      rfl

/-- The groups of a statement are the classes of the rows that its conditions keep. -/
theorem areClasses_groups (hs : q.schema.WellFormed) (he : q.entity ∈ q.schema.entities)
    (hone : db.ToOne q.schema) (hproper : db.Proper q.entity)
    (hgroup : ∀ f ∈ r.group, (q.entity.column? (q.naming.toStorage f.name)).isSome)
    (hmode : isRowMode fields r.group = true)
    (h : q.statement? criteria r fields = .ok (s, loads, isRestricted))
    (hreads : s.ReadsEntity q.schema) :
    q.AreClasses r.group (Statement.keptRows db q.entity s.conditions)
      ((s.groups db).map (·.rowClass q.entity.reach.source)) where
  rows_perm := filterMap_row?_frames hs he hone h hreads ▸ rows_rowClass_perm db s _
  equal c hc x hx y hy := by
    by_cases hne : r.group = []
    · rw [hne]
      rfl
    · obtain ⟨g, hg, rfl⟩ := List.mem_map.1 hc
      exact ((classes_groups (hs.entities _ he) hproper hgroup h hne).1 g hg).2 x hx y hy
  differ := by
    by_cases hne : r.group = []
    · obtain ⟨g, hg⟩ :=
        List.length_eq_one_iff.1 (length_groups_of_nil (hs.entities _ he) hmode hproper h hne)
      rw [hg]
      exact List.pairwise_singleton _ _
    · exact List.pairwise_map.2 (classes_groups (hs.entities _ he) hproper hgroup h hne).2
  ne_nil hne c hc hnil := by
    obtain ⟨g, hg, rfl⟩ := List.mem_map.1 hc
    obtain ⟨m, hm⟩ := List.exists_mem_of_ne_nil _
      ((classes_groups (hs.entities _ he) hproper hgroup h hne).1 g hg).1
    obtain ⟨x, hx⟩ := exists_row?_of_member hs he hone h hreads hg m hm
    have hmem : x ∈ (g.rowClass q.entity.reach.source).rows := List.mem_filterMap.2 ⟨m, hm, hx⟩
    rw [hnil] at hmem
    cases hmem
  single hnil := by
    rw [List.length_map, length_groups_of_nil (hs.entities _ he) hmode hproper h hnil]
  shown c hc := by
    obtain ⟨g, hg, rfl⟩ := List.mem_map.1 hc
    exact shown_rowClass hg (exists_row?_of_member hs he hone h hreads hg)

/-! ## Answers -/

variable {request : Request} {parameters : Parameters} {transform : Option Transform}
  {c : CompiledQuery} {a : Answer}

/-- **Aggregates are about every matching row once.** Let a request for rows of values be answered
whose fields are aggregates and columns and whose group is of columns; no `like` of its filter is on
a relation of the entity itself, and its statement reads the entity. Then its rows are, on a page,
those of the classes of the rows that the base criteria and the filter keep, by the columns of the
group; without a group there is one class. Every aggregate in a row is that of the class, and a
column is that of one of its rows; no sum of these leaves the integers of the store, and every cell
is a value of its type. The sort keys, and whatever the filter asks of related rows, take no row
away and bring none in twice. -/
theorem aggregates_of_classes (hs : q.schema.WellFormed) (he : q.entity ∈ q.schema.entities)
    (hone : db.ToOne q.schema) (hproper : db.Proper q.entity)
    (hparse : Parameters.parse request.params = .ok parameters)
    (hread : parameters.readRequest? = .ok r)
    (hmode : isRowMode (q.fieldsOf request r) r.group = true)
    (hshown : ∀ f ∈ shownFields (q.fieldsOf request r) r.group,
      q.fields.isOnColumn q.entity f = true)
    (hgroup : ∀ f ∈ r.group, (q.entity.column? (q.naming.toStorage f.name)).isSome)
    (hlike : ∀ c ∈ r.clauses, c.operator = .like → c.path.relations = [] →
      (q.entity.column? (q.naming.toStorage c.path.field)).isSome)
    (hc : q.compile? request = .ok c) (hreads : q.entity.reach.source ∈ c.statement.sources)
    (h : q.fetch? db request transform none = .ok a) :
    ∃ base ps classes pagination made,
      q.filters.criteria? q.entity.reach request.criteria = .ok base ∧
      q.filters.filter? q.entity r.clauses = .ok ps ∧
      q.AreClasses r.group (Statement.keptRows db q.entity (base ++ ps)) classes ∧
      (∀ rows ∈ Statement.window c.statement.limit c.statement.offset classes,
        ∀ f ∈ shownFields (q.fieldsOf request r) r.group,
          q.fields.isAnswered q.entity f rows = true) ∧
      Transform.resultAll? a.session transform
        ((Statement.window c.statement.limit c.statement.offset classes).map fun rows =>
          c.valuesRecord q.naming (q.fields.classRow q.entity
            (shownFields (q.fieldsOf request r) r.group) rows)) = .ok made ∧
      a.outcome = if c.single then .single made.head? else .collection ⟨made, pagination⟩ := by
  obtain ⟨c', pagination, rows, session, records, made, hc', -, hrows, hrecords, hmade, rfl⟩ :=
    fetch?_transform_eq_ok.1 h
  obtain rfl := Except.ok.inj (hc.symm.trans hc')
  obtain ⟨s, loads, isRestricted, hstatement, hcompiled⟩ := exists_statement? hparse hread hc
  obtain ⟨limit, offset, hpaged⟩ := statement_compiled q request r s loads isRestricted
  rw [← hcompiled] at hpaged
  rw [hpaged] at hreads hrows hrecords ⊢
  have hreads' := readsEntity_statement? (Parameters.plain_of_readRequest? hread)
    (values_ne_nil_of_readRequest? hread) hlike hshown hmode hstatement hreads
  have hclasses := areClasses_groups hs he hone hproper hgroup hmode hstatement hreads'
  obtain ⟨terms, hselection, hterms⟩ := rowTerms_statement? hmode hstatement
  have hselection' : ({ s with limit := limit, offset := offset } : Statement).selection =
      .rows terms := hselection
  obtain ⟨-, hrun⟩ := Statement.store_rows_eq_ok.1 hrows
  obtain ⟨hfault, rfl⟩ := Statement.run_eq_ok.1 hrun
  obtain ⟨hoverflow, hreadable⟩ :=
    Statement.resultFault?_eq_none.1 (Statement.runFault?_eq_none.1 hfault).2
  obtain ⟨-, rfl⟩ := (CompiledQuery.materialize_rows hselection').1 hrecords
  have hrow : ∀ g ∈ s.groups db, s.answerRow g = q.fields.classRow q.entity
      (shownFields (q.fieldsOf request r) r.group) (g.rowClass q.entity.reach.source) :=
    fun g hg => FieldCompiler.answerRow_rows hselection hterms hshown
      (exists_row?_of_member hs he hone hstatement hreads' hg)
  obtain ⟨base, ps, _, _, _, _, hbase, hps, -, -, -, hs', -⟩ := statement?_eq_ok hstatement
  have hconditions : s.conditions = base ++ ps := by rw [hs']
  rw [hconditions] at hclasses
  refine ⟨base, ps, _, pagination, made, hbase, hps, hclasses, ?_, ?_, rfl⟩
  · rw [← Statement.map_window]
    intro rows hrows
    obtain ⟨g, hg, rfl⟩ := List.mem_map.1 hrows
    exact FieldCompiler.isAnswered_rowClass hselection' hterms hshown
      (exists_row?_of_member hs he hone hstatement hreads'
        ((Statement.window_sublist ..).subset hg))
      (hoverflow g (Statement.mem_computedGroups_of_mem_window hg)) (hreadable g hg)
  · rw [← Statement.map_window, List.map_map, ← hmade, rows_paged, List.map_map]
    refine congrArg _ (List.map_congr_left fun g hg => ?_)
    exact congrArg (c.valuesRecord q.naming)
      (hrow g ((Statement.window_sublist ..).subset hg)).symm

end Query

namespace Sample

/-- People with a pet of another name than this, by gender, the larger groups first. -/
def peopleByGender : Request where
  params := .ofFields [
    ("fields", .ofFields [("person", .list [.text "gender", .text "count(id)", .text "avg(age)"])]),
    ("group", .list [.text "gender"]), ("sort", .list [.text "-count(id)"]),
    ("filter", .ofFields [("not", .ofFields [("pets.name", .text "Patches")])])]

/-- What is asked for of these people. -/
def gendersCounted : List SelectedField :=
  [⟨"gender", none⟩, ⟨"count(id)", some (.count, "id")⟩, ⟨"avg(age)", some (.avg, "age")⟩]

theorem exists_peopleByGender : ∃ c a, people.compile? peopleByGender = .ok c ∧
    people.fetch? database peopleByGender none none = .ok a ∧ c.single = false ∧
      c.statement.limit = none ∧ c.statement.offset = none ∧
        person.reach.source ∈ c.statement.sources := by
  obtain ⟨a, ha, -⟩ := Query.exists_answer people database peopleByGender none rfl rfl rfl rfl
    (Statement.runFault?_of_isTotal (by decide) (by decide) (by decide +kernel)) (by decide)
  exact ⟨_, a, rfl, ha, rfl, rfl, rfl, by decide +kernel⟩

/-- What the parameters of this request say. -/
def peopleByGenderRead : ReadRequest where
  clauses := [⟨.not, ⟨["pets"], "name"⟩, [.text "Patches"]⟩]
  sortKeys := [⟨⟨[], "count(id)"⟩, true⟩]
  projections := [("person", gendersCounted)]
  group := [⟨"gender", none⟩]
  includes := []
  page := none

theorem read_peopleByGender : ∃ parameters,
    Parameters.parse peopleByGender.params = .ok parameters ∧
      parameters.readRequest? = .ok peopleByGenderRead :=
  ⟨_, rfl, rfl⟩

theorem kept_peopleByGender {ps : List Predicate}
    (h : people.filters.filter? person peopleByGenderRead.clauses = .ok ps) :
    Statement.keptRows database person ps = personRows.take 2 := by
  have hkept : ((people.filters.filter? person peopleByGenderRead.clauses).toOption.map
      (Statement.keptRows database person)) = some (personRows.take 2) := by
    decide +kernel
  rw [h] at hkept
  exact Option.some.inj hkept

/-- The two of them are in classes by gender, and their rows show the aggregates of these. -/
theorem classes_peopleByGender : ∃ c a classes pagination, people.compile? peopleByGender = .ok c ∧
    people.fetch? database peopleByGender none none = .ok a ∧
      people.AreClasses [⟨"gender", none⟩] (personRows.take 2) classes ∧
        a.outcome = .collection ⟨classes.map fun rows =>
          c.valuesRecord .identity (people.fields.classRow person gendersCounted rows),
          pagination⟩ := by
  obtain ⟨c, a, hc, ha, hsingle, hlimit, hoffset, hreads⟩ := exists_peopleByGender
  obtain ⟨parameters, hparse, hread⟩ := read_peopleByGender
  obtain ⟨base, ps, classes, pagination, made, hbase, hps, hclasses, -, hmade, houtcome⟩ :=
    Query.aggregates_of_classes schema_wellFormed (by decide) database_toOne (by decide) hparse
      hread (by decide) (by decide) (by decide) (by decide) hc hreads ha
  obtain rfl : base = [] := (Except.ok.inj hbase).symm
  obtain rfl := Except.ok.inj hmade
  rw [hlimit, hoffset, hsingle] at houtcome
  have hkept : Statement.keptRows database people.entity ps = _ := kept_peopleByGender hps
  rw [List.nil_append, hkept] at hclasses
  exact ⟨c, a, classes, pagination, hc, ha, hclasses, houtcome⟩

/-- The number of all people, and nothing else about them. -/
def peopleCounted : Request where
  params := .ofFields [("fields", .ofFields [("person", .list [.text "count(*)"])])]

/-- What this compiles to. -/
def peopleCountedQuery : CompiledQuery where
  statement := { entity := person, selection := .rows [⟨.countAll, "count"⟩] }
  counted := none
  loads := []
  isRestricted := false
  window := none
  single := false
  rowMode := true
  aggregateLabels := ["count"]

/-- Of five people one is counted: the statement does not read their table. -/
theorem count_without_entity : ∃ a, people.fetch? database peopleCounted none none = .ok a ∧
    a.outcome = .collection ⟨[.values [("count", .int 1)]], none⟩ ∧
      (Statement.keptRows database person []).length = 5 := by
  have hc : people.compile? peopleCounted = .ok peopleCountedQuery := rfl
  obtain ⟨a, ha, houtcome⟩ := Query.exists_answer people database peopleCounted none hc rfl rfl rfl
    (Statement.runFault?_of_isTotal (by decide) (by decide) (by decide +kernel)) (by decide)
  refine ⟨a, ha, ?_, by decide +kernel⟩
  rw [houtcome, CompiledQuery.shownRecords_rows rfl, Statement.rows,
    Statement.groups_of_order_nil _ rfl]
  rfl

end Sample

end ResourceQuery
