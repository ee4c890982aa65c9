import ResourceQuery.Proofs.Filter.Shape
import ResourceQuery.Proofs.Include.Rows
import ResourceQuery.Proofs.Query.Pages

/-!
# Base criteria

The base criteria of a request hold of every row of the entity that its answer is made from. They
are conditions of the statement, so every frame satisfies them, and nothing that the parameters add
brings frames back or takes a part of an answer from elsewhere.

* `Statement.AsksRecords.exists_counted`: what a count of records counts;
* `Query.Meets`: what base criteria say of a row, or without one;
* `Query.frames_meet`: every frame of the statement shows what meets them;
* `Query.IsGuarded`: a group of such frames;
* `Query.RecordsMeet`, `Query.RowsMeet`: records of such rows, and rows of values about the groups
  of the statement, which are made of such frames;
* `Query.CountMeets`: a count of them;
* `Query.answers_meet_criteria`: what any request is answered with.
-/

namespace ResourceQuery

/-- Distinct values of a function, each with an element that it is the value of. -/
theorem exists_map_eq_eraseDups {α β : Type} [BEq β] [LawfulBEq β] (g : α → β) (xs : List α) :
    ∃ ys : List α, ys.Sublist xs ∧ (ys.map g).Nodup ∧ ys.map g = (xs.map g).eraseDups := by
  induction hn : xs.length using Nat.strong_induction_on generalizing xs with
  | _ n ih =>
    cases xs with
    | nil => exact ⟨[], .slnil, .nil, rfl⟩
    | cons x xs =>
      have hlen : (xs.filter fun y => !g y == g x).length < n := by
        have := List.length_filter_le (fun y => !g y == g x) xs
        rw [List.length_cons] at hn
        omega
      obtain ⟨ys, hsub, hnodup, hys⟩ := ih _ hlen _ rfl
      have hfilter : (xs.filter fun y => !g y == g x).map g =
          (xs.map g).filter fun b => !b == g x := by
        rw [List.filter_map]
        rfl
      refine ⟨x :: ys, .cons_cons _ (hsub.trans List.filter_sublist), ?_, ?_⟩
      · rw [List.map_cons, List.nodup_cons]
        refine ⟨fun hmem => ?_, hnodup⟩
        rw [hys, hfilter, List.mem_eraseDups, List.mem_filter] at hmem
        simp at hmem
      · rw [List.map_cons, List.map_cons, List.eraseDups_cons, hys, hfilter]

/-- A statement for records counts one row for each key of the rows that it shows. -/
theorem Statement.AsksRecords.exists_counted {schema : Schema} {s : Statement}
    (h : s.AsksRecords schema) (db : Database) : ∃ xs : List StoredRow,
      xs.Sublist (shownRows db s) ∧ (xs.map s.entity.recordId).Nodup ∧
      (∀ x ∈ shownRows db s, s.entity.recordId x ∈ xs.map s.entity.recordId) ∧
      s.rowCount db = xs.length := by
  obtain ⟨columns, -, hselection⟩ := h.selection
  obtain ⟨xs, hsub, hnodup, hxs⟩ :=
    exists_map_eq_eraseDups (fun x => (s.entity.recordId x).key) (shownRows db s)
  refine ⟨xs, hsub, ?_, fun x hx => ?_, ?_⟩
  · exact List.Nodup.of_map (fun id : RecordId => id.key) (by rwa [List.map_map])
  · have hkey := List.mem_map_of_mem (f := fun x => (s.entity.recordId x).key) hx
    rw [← List.mem_eraseDups, ← hxs] at hkey
    obtain ⟨y, hy, hsame⟩ := List.mem_map.1 hkey
    exact List.mem_map.2 ⟨y, hy, congrArg (RecordId.mk s.entity.name) hsame⟩
  · rw [Statement.rowCount, hselection]
    dsimp only
    rw [h.map_keyCells, List.map_map]
    exact (congrArg List.length hxs).symm.trans (List.length_map _)

/-! ## Criteria as conditions -/

namespace Query

/-- Whether a row of the entity meets a base criterion: its value is null where null is asked for,
and otherwise equals the value of the criterion, coerced to the type of the column. A criterion on
an attribute of the class is about no row. -/
def MeetsCriterion (q : Query) (criterion : String × Value) (x : Option StoredRow) : Prop :=
  match q.entity.column? (q.naming.toStorage criterion.1) with
  | some column => ∃ y ∈ x,
    if criterion.2.isNull then y.get column.name = .null
    else FilterOperator.compared column.type (y.get column.name) .eq
      (criterion.2.coerceTo column.type) = some true
  | none => ∃ a ∈ q.entity.reach.classAttribute? (q.naming.toStorage criterion.1),
    a.equals criterion.2 = true

/-- Whether a row of the entity meets all of some base criteria, or what there is without a row. -/
def Meets (q : Query) (criteria : List (String × Value)) (x : Option StoredRow) : Prop :=
  ∀ criterion ∈ criteria, q.MeetsCriterion criterion x

variable {q : Query} {criteria : List (String × Value)} {r : ReadRequest}
  {fields : List SelectedField} {s : Statement} {loads : List RelationLoad} {isRestricted : Bool}
  {db : Database} {f : Frame}

/-- What the condition of a criterion says of a frame. One on a column reads the entity. -/
theorem meetsCriterion_of_holds {criterion : String × Value} {p : Predicate}
    (hp : (do
      let field ← q.entity.reach.field? q.filters.schema (q.filters.naming.toStorage criterion.1)
      field.equals? (criterion.2.coerceTo field.type)) = .ok p)
    (hrow : q.entity.reach.source ∈ p.sources → ∃ x, f.row? q.entity.reach.source = some x)
    (hholds : p.holds db f = true) : q.MeetsCriterion criterion (f.row? q.entity.reach.source) := by
  obtain ⟨field, hfield, hp⟩ := bind_eq_ok.1 hp
  unfold MeetsCriterion
  cases Reach.field?_eq_ok.1 hfield with
  | @column column hcolumn =>
    have hname : q.entity.column? (q.naming.toStorage criterion.1) = some column := hcolumn
    have hsources : p.sources = [q.entity.reach.source] := by
      unfold ResolvedField.equals? at hp
      split at hp <;> cases hp <;> rfl
    obtain ⟨x, hx⟩ := hrow (by rw [hsources]; exact List.mem_singleton_self _)
    have hget : f.get (column.at_ q.entity.reach.source) = x.get column.name := Frame.get_of_row? hx
    rw [Predicate.holds_iff, FilterOperator.truth_equals? hp, hget] at hholds
    simp only [hname, hx]
    refine ⟨x, rfl, ?_⟩
    rw [Value.isNull_coerceTo] at hholds
    split
    · next hnull =>
      rw [if_pos hnull] at hholds
      cases hcell : x.get column.name <;> simp [hcell, Cell.isNull] at hholds ⊢
    · next hvalue => rwa [if_neg hvalue] at hholds
  | relation => exact absurd hp FilterOperator.equals?_relation
  | @ofClass a hcolumn hrelated ha =>
    have hname : q.entity.column? (q.naming.toStorage criterion.1) = none := hcolumn
    rw [FilterCompiler.coerceTo_ofClass] at hp
    rw [FilterOperator.equals?_ofClass_eq_ok hp, Predicate.holds_iff, Predicate.truth_ofTruth]
      at hholds
    simp only [hname]
    exact ⟨a, ha, Option.some.inj hholds⟩

/-! ## Frames -/

/-- Whether a frame shows a row of the entity that meets some base criteria, or none where they are
about none. -/
structure ShowsMeeting (q : Query) (db : Database) (criteria : List (String × Value)) (f : Frame) :
    Prop where
  mem : ∀ x ∈ f.row? q.entity.reach.source, x ∈ db.rows q.entity.table
  meets : q.Meets criteria (f.row? q.entity.reach.source)

/-- Every frame of the statement of a request meets the base criteria, whatever else the request
asks for. -/
theorem frames_meet (hplain : ∀ key ∈ r.sortKeys, ∀ name ∈ key.path.relations, IsPlain name)
    (h : q.statement? criteria r fields = .ok (s, loads, isRestricted)) (hf : f ∈ s.frames db) :
    q.ShowsMeeting db criteria f := by
  obtain ⟨base, ps, group, joins, order, selection, hbase, -, -, horder, -, rfl, -⟩ :=
    statement?_eq_ok h
  obtain ⟨c, hjoined⟩ := SortCompiler.joined_order? hplain horder
  have hall := List.of_mem_filter hf
  rw [List.all_eq_true] at hall
  refine ⟨fun x hx => (Frame.IsOf.of_mem_frames hf).row? hx, fun criterion hcriterion => ?_⟩
  obtain ⟨p, hmem, hp⟩ := exists_mem_of_mapM_eq_ok hbase hcriterion
  refine meetsCriterion_of_holds hp (fun hread => ?_) (hall p (List.mem_append_left _ hmem))
  refine (Statement.exists_row?_root hjoined ?_ hf).imp fun _ hx => hx.2
  exact Statement.mem_sources.2 (.inr (List.mem_append_right _
    (List.mem_flatMap.2 ⟨p, List.mem_append_left _ hmem, hread⟩)))

/-! ## Rows of values -/

/-- Whether a group is about rows that meet some base criteria: every frame of it shows one, and
the group shows one of its frames, or nothing when it has none. -/
structure IsGuarded (q : Query) (db : Database) (criteria : List (String × Value))
    (g : FrameGroup) : Prop where
  members : ∀ f ∈ g.members, q.ShowsMeeting db criteria f
  shown : g.shown ∈ g.members ∨ g.members = [] ∧ g.shown = []

/-- Groups of frames that show such rows are about such rows. -/
theorem isGuarded_of_mem_unorderedGroups {s' : Statement} {frames : List Frame} {g : FrameGroup}
    (hframes : ∀ f ∈ frames, q.ShowsMeeting db criteria f) (hg : g ∈ s'.unorderedGroups frames) :
    q.IsGuarded db criteria g where
  members f hf := hframes f
    ((s'.members_perm frames).mem_iff.1 (List.mem_flatMap.2 ⟨g, hg, hf⟩))
  shown := Statement.shown_mem hg

theorem isGuarded_of_mem_groups
    (hplain : ∀ key ∈ r.sortKeys, ∀ name ∈ key.path.relations, IsPlain name)
    (h : q.statement? criteria r fields = .ok (s, loads, isRestricted)) {g : FrameGroup}
    (hg : g ∈ s.groups db) : q.IsGuarded db criteria g := by
  obtain ⟨frames, hframes, hgroups⟩ := s.exists_groups_perm db
  exact isGuarded_of_mem_unorderedGroups
    (fun f hf => frames_meet hplain h (hframes.mem_iff.1 hf)) (hgroups.mem_iff.1 hg)

/-- Whether records are the rows of values of a statement: what it shows of those of its groups that
are in its window, and all its groups are about rows that meet some base criteria. -/
structure RowsMeet (q : Query) (db : Database) (criteria : List (String × Value))
    (c : CompiledQuery) (records : List AnswerRecord) : Prop where
  guarded : ∀ g ∈ c.statement.groups db, q.IsGuarded db criteria g
  records_eq : records = (Statement.window c.statement.limit c.statement.offset
    (c.statement.groups db)).map fun g => c.valuesRecord q.naming (c.statement.answerRow g)

/-! ## Records -/

/-- Whether records are those of rows that meet some base criteria, in a session that has them with
these rows. -/
def RecordsMeet (q : Query) (db : Database) (criteria : List (String × Value)) (session : Session)
    (records : List AnswerRecord) : Prop :=
  ∀ record ∈ records, ∃ loaded, record = .record (q.entity.recordId loaded.row) ∧
    session.get? (q.entity.recordId loaded.row) = some loaded ∧ loaded.entity = q.entity ∧
    loaded.row ∈ db.rows q.entity.table ∧ q.Meets criteria (some loaded.row)

/-- The records of some rows of the entity are loaded with these rows, whatever is loaded with
them. -/
theorem exists_loaded {c : CompiledQuery} {session : Session} {rows : List AnswerRow}
    {records : List AnswerRecord} {columns : List Column}
    (hselection : s.selection = .records columns)
    (h : c.materialize db.store q.naming s rows = .ok (session, records)) {record : AnswerRecord}
    (hrecord : record ∈ records) (hrows : ∀ row ∈ rows, ∃ x : StoredRow, row = .record (some x)) :
    ∃ loaded, record = .record (s.entity.recordId loaded.row) ∧
      session.get? (s.entity.recordId loaded.row) = some loaded ∧ loaded.entity = s.entity ∧
      AnswerRow.record (some loaded.row) ∈ rows := by
  obtain ⟨hload, rfl⟩ := (CompiledQuery.materialize_records hselection).1 h
  set visited := (rows.filterMap CompiledQuery.storedRow?).eraseDups with hvisited
  have hmem : ∀ x, x ∈ visited ↔ AnswerRow.record (some x) ∈ rows := by
    intro x
    rw [hvisited, List.mem_eraseDups, List.mem_filterMap]
    constructor
    · rintro ⟨row, hrow, hx⟩
      cases row with
      | record row =>
        obtain rfl : row = some x := hx
        exact hrow
      | values entries => cases hx
    · exact fun hrow => ⟨_, hrow, rfl⟩
  obtain ⟨row, hrow, rfl⟩ := List.mem_map.1 (CompiledQuery.mem_of_mem_distinct hrecord)
  obtain ⟨x, rfl⟩ := hrows row hrow
  have hshows : Session.OnlyShows {} s.entity visited := fun id loaded hget => nomatch hget
  obtain ⟨first, hfirst⟩ :=
    Session.exists_of_visit {} s.entity columns ((hmem x).2 hrow)
  obtain ⟨hentity, hrow', hid⟩ := hshows.visit (List.Subset.refl _) columns _ _ hfirst
  obtain ⟨loaded, hloaded, hentity', hsame⟩ := RelationLoad.keeps_runAll hload _ _ hfirst
  rw [← hsame] at hrow' hid
  refine ⟨loaded, ?_, by rwa [hid], hentity'.trans hentity, (hmem _).1 hrow'⟩
  rw [hid]
  rfl

/-- The rows that a statement for records shows are rows of the entity that meet the base
criteria. -/
theorem meets_of_mem_shownRows (hasks : s.AsksRecords q.schema)
    (hplain : ∀ key ∈ r.sortKeys, ∀ name ∈ key.path.relations, IsPlain name)
    (h : q.statement? criteria r fields = .ok (s, loads, isRestricted)) {x : StoredRow}
    (hx : x ∈ Statement.AsksRecords.shownRows db s) :
    x ∈ db.rows q.entity.table ∧ q.Meets criteria (some x) := by
  obtain ⟨f, hf, hrow⟩ := hasks.exists_frame_of_mem_shownRows hx
  obtain ⟨hmem, hmeets⟩ := frames_meet hplain h hf
  rw [← root_statement? h, hrow] at hmem hmeets
  exact ⟨hmem x rfl, hmeets⟩

/-- A frame of a statement for records shows a row of the entity that meets the base criteria. -/
theorem exists_meeting_row (hasks : s.AsksRecords q.schema)
    (hplain : ∀ key ∈ r.sortKeys, ∀ name ∈ key.path.relations, IsPlain name)
    (h : q.statement? criteria r fields = .ok (s, loads, isRestricted)) (hf : f ∈ s.frames db) :
    ∃ x ∈ db.rows q.entity.table, f.row? s.root = some x ∧ q.Meets criteria (some x) := by
  obtain ⟨x, hx, hrow⟩ := hasks.exists_shownRow hf
  obtain ⟨hmem, hmeets⟩ := meets_of_mem_shownRows hasks hplain h hx
  exact ⟨x, hmem, hrow, hmeets⟩

/-! ## Counts -/

/-- Whether a count is that of the groups of a statement, which are about rows that meet some base
criteria, or that of the rows that its frames show, which meet them; rows with one key are counted
once. -/
def CountMeets (q : Query) (db : Database) (criteria : List (String × Value)) (rowMode : Bool)
    (s : Statement) (count : Int) : Prop :=
  if rowMode then
    (∀ g ∈ { s with order := [] }.unorderedGroups (s.frames db), q.IsGuarded db criteria g) ∧
      count = ({ s with order := [] }.unorderedGroups (s.frames db)).length
  else
    ∃ xs : List StoredRow, (xs.map q.entity.recordId).Nodup ∧
      (∀ x ∈ xs, x ∈ db.rows q.entity.table ∧ q.Meets criteria (some x)) ∧
      (∀ f ∈ s.frames db, ∃ x ∈ f.row? q.entity.reach.source,
        q.entity.recordId x ∈ xs.map q.entity.recordId) ∧
      count = xs.length

/-- The count of a statement counts rows that meet the base criteria only. -/
theorem countMeets_rowCount (he : q.entity.WellFormed)
    (hplain : ∀ key ∈ r.sortKeys, ∀ name ∈ key.path.relations, IsPlain name)
    (h : q.statement? criteria r fields = .ok (s, loads, isRestricted)) :
    q.CountMeets db criteria (isRowMode fields r.group) s (s.rowCount db) := by
  unfold CountMeets
  split
  · next hmode =>
    obtain ⟨terms, hterms⟩ := asksRows_statement? hmode h
    exact ⟨fun g hg => isGuarded_of_mem_unorderedGroups (fun f hf => frames_meet hplain h hf) hg, by
      rw [Statement.rowCount, hterms]⟩
  · next hmode =>
    have hasks := asksRecords_statement? he hplain (eq_false_of_ne_true hmode) h
    obtain ⟨xs, hsub, hnodup, hall, hcount⟩ := hasks.exists_counted db
    rw [entity_statement? h] at hnodup hall
    refine ⟨xs, hnodup, fun x hx => meets_of_mem_shownRows hasks hplain h (hsub.subset hx),
      fun f hf => ?_, by rw [hcount]⟩
    obtain ⟨x, hx, hrow⟩ := hasks.exists_shownRow hf
    rw [root_statement? h] at hrow
    exact ⟨x, hrow, hall x hx⟩

/-! ## Answers -/

variable {request : Request} {transform : Option Transform} {a : Answer}

theorem rows_paged (s : Statement) (db : Database) (limit offset : Option Int) :
    { s with limit := limit, offset := offset }.rows db =
      (Statement.window limit offset (s.groups db)).map s.answerRow :=
  rfl

/-- The rows of values of a request are about groups of rows that meet the base criteria. -/
theorem rowsMeet_compiled
    (hplain : ∀ key ∈ r.sortKeys, ∀ name ∈ key.path.relations, IsPlain name)
    (h : q.statement? request.criteria r fields = .ok (s, loads, isRestricted))
    (hmode : isRowMode fields r.group = true) {session : Session} {records : List AnswerRecord}
    {c : CompiledQuery} (hc : c = q.compiled request r s loads isRestricted)
    (hrecords : c.materialize db.store q.naming c.statement (c.statement.rows db) =
      .ok (session, records)) : q.RowsMeet db request.criteria c records := by
  obtain ⟨limit, offset, hpaged⟩ := statement_compiled q request r s loads isRestricted
  rw [← hc] at hpaged
  obtain ⟨terms, hterms⟩ := asksRows_statement? hmode h
  have hterms' : c.statement.selection = .rows terms := by
    rw [hpaged]
    exact hterms
  obtain ⟨-, rfl⟩ := (CompiledQuery.materialize_rows hterms').1 hrecords
  have hgroups : c.statement.groups db = s.groups db := by
    rw [hpaged]
    rfl
  refine ⟨fun g hg => isGuarded_of_mem_groups hplain h (hgroups ▸ hg), ?_⟩
  rw [hgroups, hpaged, rows_paged, List.map_map]
  rfl

/-- The records of a request are those of rows that meet the base criteria. -/
theorem recordsMeet_compiled (he : q.entity.WellFormed)
    (hplain : ∀ key ∈ r.sortKeys, ∀ name ∈ key.path.relations, IsPlain name)
    (h : q.statement? request.criteria r fields = .ok (s, loads, isRestricted))
    (hmode : isRowMode fields r.group = false) {session : Session} {records : List AnswerRecord}
    {c : CompiledQuery} (hc : c = q.compiled request r s loads isRestricted)
    (hrecords : c.materialize db.store q.naming c.statement (c.statement.rows db) =
      .ok (session, records)) : q.RecordsMeet db request.criteria session records := by
  obtain ⟨limit, offset, hpaged⟩ := statement_compiled q request r s loads isRestricted
  rw [← hc] at hpaged
  have hasks := asksRecords_statement? he hplain hmode h
  obtain ⟨columns, -, hselection⟩ := hasks.selection
  have hentity : c.statement.entity = q.entity := by
    rw [← entity_statement? h, hpaged]
  have hselection' : c.statement.selection = .records columns := by
    rw [hpaged]
    exact hselection
  have hrows : ∀ row ∈ c.statement.rows db, ∃ x ∈ db.rows q.entity.table,
      row = .record (some x) ∧ q.Meets request.criteria (some x) := by
    intro row hrow
    rw [hpaged, rows_paged] at hrow
    obtain ⟨g, hg, rfl⟩ := List.mem_map.1 hrow
    have hshown : g.shown ∈ s.frames db := (hasks.groups_perm db).mem_iff.1
      (List.mem_map_of_mem ((Statement.window_sublist ..).subset hg))
    obtain ⟨x, hx, hrow, hmeets⟩ := exists_meeting_row hasks hplain h hshown
    exact ⟨x, hx, by rw [hasks.answerRow_eq, hrow], hmeets⟩
  intro record hrecord
  obtain ⟨loaded, hshown, hget, hloaded, hrow⟩ := exists_loaded hselection' hrecords hrecord
    fun row hrow => (hrows row hrow).imp fun x hx => hx.2.1
  obtain ⟨x, hx, heq, hmeets⟩ := hrows _ hrow
  obtain rfl : loaded.row = x := Option.some.inj (AnswerRow.record.inj heq)
  rw [hentity] at hshown hget hloaded
  exact ⟨loaded, hshown, hget, hloaded, hx, hmeets⟩

theorem rowCount_of_paginate? {w : PageWindow} {count : Int} {page : Pagination}
    (h : w.paginate? count = .ok page) : page.rowCount = count := by
  unfold PageWindow.paginate? at h
  split at h
  · cases h
    rfl
  · split at h
    · split at h <;> cases h
      rfl
    · cases h
      rfl

/-- The count of a page is that of the statement without the page, which is the counted one. -/
theorem rowCount_of_paginate {pagination : Option Pagination} {page : Pagination}
    (h : (q.compiled request r s loads isRestricted).paginate db.store = .ok pagination)
    (hpage : page ∈ pagination) :
    (q.compiled request r s loads isRestricted).counted = some s ∧
      page.rowCount = s.rowCount db := by
  unfold CompiledQuery.paginate at h
  split at h
  · next counted window hcounted hwindow =>
    obtain ⟨n, hn, h⟩ := bind_eq_ok.1 h
    obtain rfl := (counted_compiled hcounted).1
    obtain ⟨-, rfl⟩ := Statement.count_eq_ok.1 (Statement.store_count_eq_ok.1 hn)
    rw [ofExcept_eq] at h
    obtain ⟨page', hpage', rfl⟩ := map_eq_ok.1 h
    obtain rfl := Option.some.inj hpage
    exact ⟨hcounted, rowCount_of_paginate? hpage'⟩
  · cases h
    cases hpage

/-- **Base criteria hold of whatever an answer is made from.** Let a request be answered, with any
parameters and any transform. Its records are those of rows of the entity that meet the base
criteria, and are loaded with these rows; or, in row mode, its rows of values show the groups of its
statement that are on the page, and every frame of every group shows a row that meets them. The
count of a page is that of the rows that the counted statement shows, each of them once, or of its
groups, and these are such rows and such groups. Only criteria on attributes of the class are about
no row; they are the same for all of them. -/
theorem answers_meet_criteria (he : q.entity.WellFormed)
    (h : q.fetch? db request transform none = .ok a) :
    ∃ c pagination records made, q.compile? request = .ok c ∧
      Transform.resultAll? a.session transform records = .ok made ∧
      a.outcome = (if c.single then .single made.head? else .collection ⟨made, pagination⟩) ∧
      (if c.rowMode then q.RowsMeet db request.criteria c records
        else q.RecordsMeet db request.criteria a.session records) ∧
      ∀ page ∈ pagination, ∃ counted, c.counted = some counted ∧
        q.CountMeets db request.criteria c.rowMode counted page.rowCount := by
  obtain ⟨c, pagination, rows, session, records, made, hc, hpage, hrows, hrecords, hmade, rfl⟩ :=
    fetch?_transform_eq_ok.1 h
  obtain ⟨parameters, r, s, loads, isRestricted, -, hread, hstatement, rfl⟩ := compile?_eq_ok.1 hc
  have hplain := Parameters.plain_of_readRequest? hread
  refine ⟨_, pagination, records, made, hc, hmade, rfl, ?_, fun page hmem => ?_⟩
  · obtain ⟨-, hrun⟩ := Statement.store_rows_eq_ok.1 hrows
    obtain ⟨-, rfl⟩ := Statement.run_eq_ok.1 hrun
    split
    · next hmode => exact rowsMeet_compiled hplain hstatement hmode rfl hrecords
    · next hmode =>
      exact recordsMeet_compiled he hplain hstatement (eq_false_of_ne_true hmode) rfl hrecords
  · obtain ⟨hcounted, hcount⟩ := rowCount_of_paginate hpage hmem
    rw [hcount]
    exact ⟨s, hcounted, countMeets_rowCount he hplain hstatement⟩

end Query

namespace Sample

/-- The pets of one owner with an `r` in their names, on a page of one. -/
def petsOfBarney : Request where
  params := .ofFields [("filter", .ofFields [("like", .ofFields [("name", .text "r")])]),
    ("page", pageValue 1 0)]
  criteria := [("pet_owner_id", .text "1")]

/-- Their number and the last of their names, on a page of one. -/
def petsOfBarneyCounted : Request where
  params := .ofFields [("filter", .ofFields [("like", .ofFields [("name", .text "r")])]),
    ("fields", .ofFields [("pet", .list [.text "count(id)", .text "max(name)"])]),
    ("page", pageValue 1 0)]
  criteria := [("pet_owner_id", .text "1")]

theorem exists_petsOfBarney : ∃ a records,
    pets.fetch? database petsOfBarney none none = .ok a ∧
      a.outcome = .collection ⟨records, some ⟨some 1, 0, 2, some 2⟩⟩ ∧ records.length = 1 := by
  obtain ⟨a, ha, houtcome⟩ := Query.exists_answer pets database petsOfBarney
    (some ⟨some 1, 0, 2, some 2⟩) rfl rfl
    (Query.paginate_eq_ok rfl rfl (Statement.count_eq_rowCount (by decide) (by decide +kernel)) rfl)
    rfl (Statement.runFault?_of_isTotal (by decide) (by decide) (by decide +kernel)) (by decide)
  refine ⟨a, _, ha, houtcome, ?_⟩
  rw [CompiledQuery.shownRecords_records rfl, Statement.rows_records rfl rfl rfl]
  rfl

theorem exists_petsOfBarneyCounted : ∃ a,
    pets.fetch? database petsOfBarneyCounted none none = .ok a ∧
      a.outcome = .collection ⟨[.values [("count", .int 2), ("max", .text "Grover")]],
        some ⟨some 1, 0, 1, some 1⟩⟩ := by
  obtain ⟨a, ha, houtcome⟩ := Query.exists_answer pets database petsOfBarneyCounted
    (some ⟨some 1, 0, 1, some 1⟩) rfl rfl
    (Query.paginate_eq_ok rfl rfl (Statement.count_eq_rowCount (by decide) (by decide +kernel)) rfl)
    rfl (Statement.runFault?_of_isTotal (by decide) (by decide) (by decide +kernel)) (by decide)
  refine ⟨a, ha, ?_⟩
  rw [houtcome, CompiledQuery.shownRecords_rows rfl, Statement.rows,
    Statement.groups_of_order_nil _ rfl]
  rfl

/-- They are pets of this owner, and so are the two that are counted; what is counted of them and
the last of their names is about such pets, too. -/
theorem guarded_petsOfBarney :
    (∃ a records c s, pets.fetch? database petsOfBarney none none = .ok a ∧
      pets.compile? petsOfBarney = .ok c ∧ c.counted = some s ∧
      a.outcome = .collection ⟨records, some ⟨some 1, 0, 2, some 2⟩⟩ ∧ records.length = 1 ∧
        pets.RecordsMeet database petsOfBarney.criteria a.session records ∧
          pets.CountMeets database petsOfBarney.criteria false s 2) ∧
    ∃ a records c s, pets.fetch? database petsOfBarneyCounted none none = .ok a ∧
      pets.compile? petsOfBarneyCounted = .ok c ∧ c.counted = some s ∧
      a.outcome = .collection ⟨records, some ⟨some 1, 0, 1, some 1⟩⟩ ∧
        records = [.values [("count", .int 2), ("max", .text "Grover")]] ∧
          pets.RowsMeet database petsOfBarneyCounted.criteria c records ∧
            pets.CountMeets database petsOfBarneyCounted.criteria true s 1 := by
  constructor
  · obtain ⟨a, records, ha, houtcome, hlength⟩ := exists_petsOfBarney
    obtain ⟨c, pagination, records', made, hc, hmade, houtcome', hmeets, hcount⟩ :=
      Query.answers_meet_criteria (by decide) ha
    have hmodes : (pets.compile? petsOfBarney).map (fun c => (c.single, c.rowMode)) =
        .ok (false, false) := rfl
    rw [hc] at hmodes
    obtain ⟨hsingle, hmode⟩ := Prod.mk.inj (Except.ok.inj hmodes)
    obtain rfl := Except.ok.inj hmade
    rw [houtcome, hsingle] at houtcome'
    obtain ⟨rfl, rfl⟩ := Collection.mk.inj (Outcome.collection.inj houtcome')
    rw [hmode] at hmeets hcount
    obtain ⟨s, hcounted, hcount⟩ := hcount _ rfl
    exact ⟨a, records, c, s, ha, hc, hcounted, houtcome, hlength, hmeets, hcount⟩
  · obtain ⟨a, ha, houtcome⟩ := exists_petsOfBarneyCounted
    obtain ⟨c, pagination, records, made, hc, hmade, houtcome', hmeets, hcount⟩ :=
      Query.answers_meet_criteria (by decide) ha
    have hmodes : (pets.compile? petsOfBarneyCounted).map (fun c => (c.single, c.rowMode)) =
        .ok (false, true) := rfl
    rw [hc] at hmodes
    obtain ⟨hsingle, hmode⟩ := Prod.mk.inj (Except.ok.inj hmodes)
    obtain rfl := Except.ok.inj hmade
    rw [houtcome, hsingle] at houtcome'
    obtain ⟨rfl, rfl⟩ := Collection.mk.inj (Outcome.collection.inj houtcome')
    rw [hmode] at hmeets hcount
    obtain ⟨s, hcounted, hcount⟩ := hcount _ rfl
    exact ⟨a, _, c, s, ha, hc, hcounted, houtcome, rfl, hmeets, hcount⟩

end Sample

end ResourceQuery
