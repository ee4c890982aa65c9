import ResourceQuery.Proofs.Sort.Records
import ResourceQuery.Proofs.Sort.Values

/-!
# What compiled sort keys show

A sort key compiles to a column of the entity, a column of a joined path or a subquery. In a frame
of the statement each of them has the value of the sort key for the row that the frame shows.

* `SortCompiler.Shows`: a frame with the rows that joined paths lead to;
* `SortCompiler.cell_collectionKey?`: the subquery of a path through a relation to many;
* `SortCompiler.Compiles.cell_eq`, `SortCompiler.CompilesAll.cells_eq`: all compiled keys;
* `Statement.AsksRecords.exists_shows`: the frames of a statement are such frames.
-/

namespace ResourceQuery

namespace SortCompiler

variable {k : SortCompiler} {db : Database} {e : Entity} {key : SortKey} {x : StoredRow}
  {c : JoinCache} {g : Frame}

/-- Whether a frame shows the rows that the joined paths of a cache lead to from a row. -/
def Shows (k : SortCompiler) (db : Database) (e : Entity) (c : JoinCache) (g : Frame)
    (x : StoredRow) : Prop :=
  ∀ names r, c.EndsAt e names r → (∀ name ∈ names, IsPlain name) →
    (g.row? r.source).toList = k.rowsAlong db e names x

theorem Shows.root (h : Shows k db e c g x) : g.row? e.reach.source = some x := by
  have hroot : (g.row? e.reach.source).toList = [x] := h [] e.reach (.inl ⟨rfl, rfl⟩) (by simp)
  cases hrow : g.row? e.reach.source with
  | none => simp [hrow] at hroot
  | some y => simpa [hrow] using hroot

/-! ## Columns -/

/-- A key on the end of a path is on a column. -/
theorem column_of_fieldKey? {last : Reach} {name : String} {field : ResolvedField} {o : OrderKey}
    (hfield : last.field? k.schema name = .ok field) (ho : fieldKey? field = .ok o) :
    ∃ column, last.entity.column? name = some column ∧
      o = .term (.plain (.column (column.at_ last.source))) := by
  cases Reach.field?_eq_ok.1 hfield with
  | @column column hcolumn =>
    cases ho
    exact ⟨column, hcolumn, rfl⟩
  | relation => cases ho
  | ofClass => cases ho

/-- And so is one on the entity itself that is not written like an aggregate. -/
theorem column_of_localKey? {name : String} {o : OrderKey}
    (hplain : (SelectedField.ofName name).isAggregate = false) (ho : k.localKey? e name = .ok o) :
    ∃ column, e.column? (k.naming.toStorage name) = some column ∧
      o = .term (.plain (.column (column.at_ e.reach.source))) := by
  unfold localKey? at ho
  simp only [hplain, Bool.false_eq_true, if_false, bind_eq_ok] at ho
  obtain ⟨field, hfield, ho⟩ := ho
  exact column_of_fieldKey? hfield ho

/-- The column at the end of a path to one record has the value of the key. -/
theorem get_eq_value {r : Reach} {column : Column} {group : FrameGroup}
    (hcolumn : k.column? e key.path = some column)
    (hone : k.crossesMany e key.path.relations = false)
    (hrow : (group.shown.row? r.source).toList = k.rowsAlong db e key.path.relations x) :
    (Term.plain (.column (column.at_ r.source))).cell group = k.value db e key x := by
  rw [value, hone, cellsAlong, hcolumn, ← hrow]
  show ((group.shown.row? r.source).map (·.get column.name)).getD .null = _
  cases group.shown.row? r.source <;> rfl

/-! ## Subqueries -/

/-- What a key of a path through a relation to many is. -/
theorem collectionKey?_eq_ok {index : Nat} {o : OrderKey} (hattribute : k.IsAttribute e key)
    (h : k.collectionKey? e index key = .ok o) :
    ∃ hops last column, k.column? e key.path = some column ∧
      k.hops? index 0 (e.reachAs (.hop index 0)) key.path.relations = .ok (hops, last) ∧
      o = .extreme key.descending (e.reachAs (.hop index 0)).source hops
        (.column (column.at_ last.source))
        (e.keyColumns.map fun c =>
          ⟨c.at_ (e.reachAs (.hop index 0)).source, c.at_ e.reach.source⟩) := by
  obtain ⟨⟨hops, last⟩, hhops, h⟩ := bind_eq_ok.1 h
  have htarget : k.target? e key.path.relations = some last.entity := target?_of_hops? hhops
  obtain ⟨column, hcolumn⟩ := Option.isSome_iff_exists.1 hattribute.1
  have hlast := hcolumn
  rw [column?, htarget, Option.bind_some] at hlast
  obtain ⟨field, hfield, h⟩ := bind_eq_ok.1 h
  rw [Reach.field?_of_column hlast] at hfield
  cases hfield
  cases h
  exact ⟨hops, last, column, hcolumn, hhops, rfl⟩

/-- The subquery of such a key reads nothing but its steps. -/
theorem chains_extreme {outer : List Source} {largest : Bool} {root : Source} {hops : List Hop}
    {column : ColumnRef} {sameKey : List Equality}
    (hcolumn : column.source ∈ Chain.sources ⟨root, hops⟩)
    (hkey : ∀ eq ∈ sameKey, eq.left.source = root ∧ eq.right.source ∈ outer) :
    (OrderKey.extreme largest root hops (.column column) sameKey).chains outer =
      [⟨root, hops⟩] := by
  have hunread : unreadOf (Chain.sources ⟨root, hops⟩ ++ outer)
      ((Operand.column column).sources ++ sameKey.flatMap (·.sources)) = [] := by
    rw [List.eq_nil_iff_forall_not_mem]
    intro t ht
    rw [mem_unreadOf, List.mem_append, List.mem_append, not_or, Operand.sources,
      List.mem_singleton, List.mem_flatMap] at ht
    obtain ⟨rfl | ⟨eq, heq, ht⟩, hchain, houter⟩ := ht
    · exact hchain hcolumn
    · obtain ⟨hleft, hright⟩ := hkey eq heq
      simp only [Equality.sources, List.mem_cons, List.not_mem_nil, or_false] at ht
      rcases ht with rfl | rfl
      · exact hchain (hleft ▸ List.mem_cons_self ..)
      · exact houter hright
  show _ :: (unreadOf _ _).map _ = _
  rw [hunread, List.map_nil]

/-- The key columns of two readings of a table are equal when the rows have one key. -/
theorem sameKey_eq_true_iff {f : Frame} {root base : Source} {y : StoredRow}
    (hy : f.row? root = some y) (hx : f.row? base = some x) :
    equalitiesTruth f (e.keyColumns.map fun c => ⟨c.at_ root, c.at_ base⟩) = some true ↔
      e.sameKey y x = true := by
  have hleft : ∀ c : Column, f.get (c.at_ root) = y.get c.name := fun _ => Frame.get_of_row? hy
  have hright : ∀ c : Column, f.get (c.at_ base) = x.get c.name := fun _ => Frame.get_of_row? hx
  rw [equalitiesTruth_eq_true_iff]
  simp [Entity.sameKey, Equality.truth, hleft, hright]

/-- The steps of a subquery leave the row that they start from, and the row of the frame. -/
theorem row?_of_mem_innerFrames {index : Nat} {names : List String} {hops : List Hop}
    {last : Reach} (h : k.hops? index 0 (e.reachAs (.hop index 0)) names = .ok (hops, last))
    {y : Option StoredRow} {f : Frame}
    (hf : f ∈ innerFrames db hops (((e.reachAs (.hop index 0)).source, y) :: g)) :
    f.row? (e.reachAs (.hop index 0)).source = y ∧
      f.row? e.reach.source = g.row? e.reach.source := by
  obtain ⟨p, rfl, hp⟩ := exists_of_mem_innerFrames hf
  have hnot : ∀ t : Source, t.reading = .hop index 0 ∨ t.reading = .base →
      t ∉ Frame.sources p := by
    rintro t ht hmem
    obtain ⟨n, hn, hreading⟩ := reading_of_mem_hops? h (hp hmem)
    rcases ht with ht | ht <;> rcases hreading with hr | hr <;> rw [ht] at hr <;> cases hr
    omega
  rw [Frame.row?_append_of_not_mem (hnot _ (.inl rfl)),
    Frame.row?_append_of_not_mem (hnot _ (.inr rfl)), Frame.row?_cons_self,
    Frame.row?_cons_of_ne (by simp [Entity.reachAs, Entity.reach])]
  exact ⟨rfl, rfl⟩

/-- Of the frames of a subquery those with the key of a row start from this row. -/
theorem filter_sameKey_chainFrames {index : Nat} {names : List String} {hops : List Hop}
    {last : Reach} (h : k.hops? index 0 (e.reachAs (.hop index 0)) names = .ok (hops, last))
    (hkeyed : db.PrimaryKeyed e) (hx : x ∈ db.rows e.table)
    (hroot : g.row? e.reach.source = some x) :
    (chainFrames db (fun h => h.inner db) [⟨(e.reachAs (.hop index 0)).source, hops⟩] g).filter
      (fun f => equalitiesTruth f (e.keyColumns.map fun c =>
        ⟨c.at_ (e.reachAs (.hop index 0)).source, c.at_ e.reach.source⟩) == some true) =
      innerFrames db hops (((e.reachAs (.hop index 0)).source, some x) :: g) := by
  set root := e.reachAs (.hop index 0)
  have hframes : chainFrames db (fun h => h.inner db) [⟨root.source, hops⟩] g =
      (db.rows e.table).flatMap fun y => innerFrames db hops ((root.source, some y) :: g) := by
    rw [chainFrames, List.foldl_cons, List.foldl_nil, List.flatMap_singleton, Chain.frames,
      foldl_flatMap (fun h : Hop => h.inner db), extend_one, List.flatMap_map]
    rfl
  have hiff : ∀ y ∈ db.rows e.table, ∀ f ∈ innerFrames db hops ((root.source, some y) :: g),
      (equalitiesTruth f (e.keyColumns.map fun c =>
        ⟨c.at_ root.source, c.at_ e.reach.source⟩) == some true) = e.sameKey y x := by
    intro y _ f hf
    obtain ⟨hrow, hbase⟩ := row?_of_mem_innerFrames h hf
    rw [Bool.eq_iff_iff, beq_iff_eq]
    exact sameKey_eq_true_iff hrow (hbase.trans hroot)
  rw [hframes, filter_flatMap_eq hiff, hkeyed.filter_sameKey hx, List.flatMap_singleton]

/-- The subquery of a path through a relation to many has the extreme value over the rows along the
path, from the row that the frame shows and from no other one. -/
theorem cell_collectionKey? {index : Nat} {o : OrderKey} {group : FrameGroup}
    (hattribute : k.IsAttribute e key) (h : k.collectionKey? e index key = .ok o)
    (hmany : k.crossesMany e key.path.relations = true) (hkeyed : db.PrimaryKeyed e)
    (hx : x ∈ db.rows e.table) (hroot : group.shown.row? e.reach.source = some x) :
    o.cell db group = k.value db e key x := by
  obtain ⟨hops, last, column, hcolumn, hhops, rfl⟩ := collectionKey?_eq_ok hattribute h
  set root := e.reachAs (.hop index 0)
  have hkey : ∀ eq ∈ e.keyColumns.map fun c =>
        (⟨c.at_ root.source, c.at_ e.reach.source⟩ : Equality),
      eq.left.source = root.source ∧ eq.right.source ∈ group.shown.sources := by
    intro eq heq
    obtain ⟨c, -, rfl⟩ := List.mem_map.1 heq
    exact ⟨rfl, Frame.mem_sources_of_row? hroot⟩
  have hcells : (innerFrames db hops ((root.source, some x) :: group.shown)).map
      (Operand.cell · (.column (column.at_ last.source))) = k.cellsAlong db e key x := by
    have hrows := congrArg (List.map fun y? : Option StoredRow =>
      (y?.map (·.get column.name)).getD .null)
        (map_row?_innerFrames db hhops rfl (Frame.row?_cons_self root.source (some x) group.shown))
    rw [List.map_map, List.map_map] at hrows
    rw [cellsAlong, hcolumn]
    exact hrows
  rw [OrderKey.cell, chains_extreme (source_mem_of_hops? hhops) hkey,
    filter_sameKey_chainFrames hhops hkeyed hx hroot, hcells, value, hmany, if_pos rfl]
  cases key.descending <;> rfl

/-! ## All keys -/

/-- A key of the order has the value of its sort key in a frame that shows the joined paths. -/
theorem Compiles.cell_eq {o : OrderKey} {group : FrameGroup} (h : Compiles k e c key o)
    (hattribute : k.IsAttribute e key) (hplain : ∀ name ∈ key.path.relations, IsPlain name)
    (hkeyed : db.PrimaryKeyed e) (hx : x ∈ db.rows e.table)
    (hshows : Shows k db e c group.shown x) : o.cell db group = k.value db e key x := by
  obtain ⟨column, hcolumn⟩ := Option.isSome_iff_exists.1 hattribute.1
  cases h with
  | onEntity hlocal ho =>
    have hnil : key.path.relations = [] := List.isEmpty_iff.1 hlocal
    obtain ⟨column', hcolumn', rfl⟩ := column_of_localKey? (hattribute.2 hlocal) ho
    have htarget : k.column? e key.path = some column' := by
      rw [column?, hnil]
      exact hcolumn'
    refine get_eq_value htarget (by rw [hnil]; rfl) ?_
    rw [hnil]
    exact hshows [] e.reach (.inl ⟨rfl, rfl⟩) (by simp)
  | behindMany hcrosses ho =>
    exact cell_collectionKey? hattribute ho (crossesMany_of_crossesCollection? hcrosses) hkeyed hx
      hshows.root
  | behindOne hone hends hleads hfield ho =>
    obtain ⟨column', hcolumn', rfl⟩ := column_of_fieldKey? hfield ho
    have htarget : k.column? e key.path = some column' := by
      rw [column?, hleads.target?_eq]
      exact hcolumn'
    exact get_eq_value htarget (crossesMany_of_crossesCollection? hone)
      (hshows _ _ hends hplain)

/-- The keys of an order have the values of the sort keys, in a frame that shows the joined
paths. -/
theorem CompilesAll.cells_eq {keys : List SortKey} {order : List OrderTerm} {group : FrameGroup}
    (h : CompilesAll k e c keys order) (hattribute : ∀ key ∈ keys, k.IsAttribute e key)
    (hplain : ∀ key ∈ keys, ∀ name ∈ key.path.relations, IsPlain name)
    (hkeyed : db.PrimaryKeyed e) (hx : x ∈ db.rows e.table)
    (hshows : Shows k db e c group.shown x) :
    order.map (·.key.cell db group) = keys.map (k.value db e · x) := by
  induction h with
  | nil => rfl
  | cons hterm _ ih =>
    rw [List.forall_mem_cons] at hattribute hplain
    rw [List.map_cons, List.map_cons, ih hattribute.2 hplain.2,
      hterm.2.cell_eq hattribute.1 hplain.1 hkeyed hx hshows]

/-- A key of the order that is no subquery is a column of the entity or of a joined path. -/
theorem Compiles.exists_column {o : OrderKey} {t : Term} (h : Compiles k e c key o)
    (hattribute : k.IsAttribute e key) (ht : o.term? = some t) :
    ∃ r column, (r = e.reach ∨ ∃ path, (path, r) ∈ c.readings) ∧
      t = .plain (.column (Column.at_ column r.source)) := by
  cases h with
  | onEntity hlocal ho =>
    obtain ⟨column, -, rfl⟩ := column_of_localKey? (hattribute.2 hlocal) ho
    exact ⟨e.reach, column, .inl rfl, (Option.some.inj ht).symm⟩
  | behindMany hcrosses ho =>
    obtain ⟨hops, last, column, -, -, rfl⟩ := collectionKey?_eq_ok hattribute ho
    cases ht
  | behindOne hone hends hleads hfield ho =>
    obtain ⟨column, -, rfl⟩ := column_of_fieldKey? hfield ho
    exact ⟨_, column, hends.imp And.right fun h => ⟨_, h.2⟩, (Option.some.inj ht).symm⟩

theorem CompilesAll.directions_eq {keys : List SortKey} {order : List OrderTerm}
    (h : CompilesAll k e c keys order) :
    order.map (·.descending) = keys.map (·.descending) := by
  induction h with
  | nil => rfl
  | cons hterm _ ih => rw [List.map_cons, List.map_cons, ih, hterm.1]

theorem CompilesAll.exists_of_mem {keys : List SortKey} {order : List OrderTerm}
    (h : CompilesAll k e c keys order) {t : OrderTerm} (ht : t ∈ order) :
    ∃ key ∈ keys, Compiles k e c key t.key := by
  induction h with
  | nil => cases ht
  | @cons key _ keys _ hterm _ ih =>
    rcases List.mem_cons.1 ht with rfl | ht
    · exact ⟨key, List.mem_cons_self .., hterm.2⟩
    · obtain ⟨key', hkey', hcompiles⟩ := ih ht
      exact ⟨key', List.mem_cons_of_mem _ hkey', hcompiles⟩

end SortCompiler

/-! ## Frames -/

/-- A frame of a statement for records shows a row of the entity, and what the joined paths of its
sort keys lead to from there. -/
theorem Statement.AsksRecords.exists_shows {k : SortCompiler} {s : Statement} {db : Database}
    {c : JoinCache} (h : s.AsksRecords k.schema) (htraced : k.Traced s.entity c s.joins)
    (hs : k.schema.WellFormed) (he : s.entity ∈ k.schema.entities) (hone : db.ToOne k.schema)
    {g : Frame} (hg : g ∈ s.frames db) :
    ∃ x ∈ db.rows s.entity.table, k.Shows db s.entity c g x := by
  rw [h.frames_eq] at hg
  obtain ⟨x, hx, hg⟩ := List.mem_flatMap.1 hg
  obtain ⟨f, hf, -⟩ := htraced.joined.joinFrames_eq_singleton hs he hone hx
  have hjoined : joinFrames db s.joins [(s.root, some x)] = [f] := hf
  rw [hjoined, List.flatMap_singleton] at hg
  obtain ⟨p, rfl, hp⟩ := exists_of_mem_extend (List.mem_of_mem_filter hg)
  refine ⟨x, hx, fun names r hends hplain => ?_⟩
  have hnot : r.source ∉ Frame.sources p := by
    rw [hp, List.mem_reverse]
    intro hstray
    rcases hends with ⟨-, rfl⟩ | ⟨-, hmem⟩
    · exact root_not_mem_strays s hstray
    · have hunjoined := h.strays_unjoined hstray
      rw [htraced.joined.isUnjoined_eq_false (htraced.joined.source_mem hmem)] at hunjoined
      cases hunjoined
  rw [Frame.row?_append_of_not_mem hnot]
  exact htraced.toList_row? hs he hone hx hf hends hplain

end ResourceQuery
