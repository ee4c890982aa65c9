import ResourceQuery.Proofs.Filter.Equality
import ResourceQuery.Proofs.Query.Guard
import ResourceQuery.Proofs.Query.Single

/-!
# Requests for one record that do not say so

A request that leaves open whether it is for one record is for one when its base criteria give every
field of the key. At most one row meets such criteria, so a limit of one leaves no record out. Rows
of values that are grouped by a relation are about pairs of that row with related ones, and there
may be several of them.

* `Query.PinsKey`: base criteria that give every field of the key;
* `Query.sameKey_of_meets`: rows that meet such criteria have equal keys;
* `Query.length_keptRows_le_one`: so there is at most one of them;
* `Statement.length_groups_le_one`: frames with equal group columns are one group;
* `Query.length_shownRecords_le_one`: so there is at most one record to show;
* `Query.isSingle_safe`: which requests are for one record, and what their limit leaves out.

Whether the key is given is decided by names, and rows are compared with values. The two agree since
a name among the criteria is the name of a column that is compared, however it is spelled, and since
cells that equal the same value equal each other.
-/

namespace ResourceQuery

/-! ## Frames that are alike -/

namespace Statement

variable {s : Statement} {db : Database} {frames : List Frame}

/-- Frames with equal group columns are one group, and so are all frames without a group. -/
theorem length_unorderedGroups_le_one (hgrouped : s.isGrouped = true)
    (h : ∀ f ∈ frames, ∀ g ∈ frames, ∀ x ∈ s.group, x.cell f = x.cell g) :
    (s.unorderedGroups frames).length ≤ 1 := by
  by_cases hgroup : s.group = []
  · simp [unorderedGroups, hgrouped, hgroup]
  · rw [unorderedGroups_eq hgroup, List.length_map]
    by_cases hnil : s.orderedFrames frames = []
    · simp [hnil]
    · have hmem {f : Frame} (hf : f ∈ s.orderedFrames frames) : f ∈ frames :=
        (s.orderedFrames_perm frames).mem_iff.1 hf
      have hchain : (s.orderedFrames frames).IsChain fun f g => s.sameGroup f g = true := by
        refine List.Pairwise.isChain (List.pairwise_of_forall_mem_list fun f hf g hg => ?_)
        rw [sameGroup, List.map_congr_left fun x hx => h f (hmem hf) g (hmem hg) x hx]
        exact sameCells_self _
      rw [List.splitBy_of_isChain hnil hchain]
      simp

theorem length_groups_le_one (hgrouped : s.isGrouped = true)
    (h : ∀ f ∈ s.frames db, ∀ g ∈ s.frames db, ∀ x ∈ s.group, x.cell f = x.cell g) :
    (s.groups db).length ≤ 1 := by
  rw [groups, (sortByKeys_perm _ _ _).length_eq]
  refine length_unorderedGroups_le_one hgrouped fun f hf g hg => h f ?_ g ?_
  · split at hf <;> simpa using hf
  · split at hg <;> simpa using hg

end Statement

/-! ## Records that are alike -/

theorem eq_of_head?_of_length_le_one {α : Type} {xs ys : List α} (hx : xs.length ≤ 1)
    (hy : ys.length ≤ 1) (h : xs.head? = ys.head?) : xs = ys := by
  rcases xs with _ | ⟨x, _ | _⟩ <;> rcases ys with _ | ⟨y, _ | _⟩ <;> simp_all

namespace CompiledQuery

variable {c : CompiledQuery} {db : Database} {naming : Naming} {s : Statement}

/-- Records that are all the same are shown once. -/
theorem length_distinct_le_one {records : List AnswerRecord} {id : RecordId}
    (h : ∀ r ∈ records, r = .record id) : (distinct [] records).length ≤ 1 := by
  have hrecords : records = (List.replicate records.length id).map .record := by
    rw [List.map_replicate]
    exact List.eq_replicate_iff.2 ⟨rfl, h⟩
  rw [hrecords, length_distinct, Finset.card_le_one]
  intro a ha b hb
  rw [List.mem_toFinset] at ha hb
  rw [List.eq_of_mem_replicate ha, List.eq_of_mem_replicate hb]

theorem length_distinct_le (seen : List RecordId) (records : List AnswerRecord) :
    (distinct seen records).length ≤ records.length := by
  induction records generalizing seen with
  | nil => exact Nat.le_refl _
  | cons r rest ih =>
    have hrest (seen : List RecordId) := Nat.succ_le_succ (ih seen)
    cases r with
    | record id =>
      rw [distinct]
      split
      · exact (ih seen).trans (Nat.le_succ _)
      · exact hrest _
    | _ => exact hrest _

theorem length_shownRecords_le (s : Statement) :
    (c.shownRecords db naming s).length ≤ (s.rows db).length := by
  unfold shownRecords
  cases s.selection with
  | records columns => exact (length_distinct_le _ _).trans (List.length_map _).le
  | rows terms => exact (List.length_map _).le

/-- Where a statement shows at most one record, it shows the same with a limit of one. -/
theorem shownRecords_limited (hunpaged : s.limit = none ∧ s.offset = none)
    (h : (c.shownRecords db naming s).length ≤ 1) :
    c.shownRecords db naming { s with limit := some 1 } = c.shownRecords db naming s := by
  have hlimited : (c.shownRecords db naming { s with limit := some 1 }).length ≤ 1 := by
    refine (length_shownRecords_le _).trans ?_
    rw [Statement.rows_first hunpaged]
    exact List.length_take_le _ _
  exact eq_of_head?_of_length_le_one hlimited h (shownRecords_first hunpaged)

end CompiledQuery

/-! ## Criteria that give the key -/

namespace FilterOperator

/-- Cells that equal the same value of a criterion are equal. -/
theorem compare?_of_compared {type : ColumnType} {a b : Cell} {v : Value}
    (ha : compared type a .eq v = some true) (hb : compared type b .eq v = some true) :
    Cell.compare? .eq a b = some true := by
  rw [compared, Cell.compare?_eq_true_iff] at ha hb
  obtain ⟨hanull, -, ha⟩ := ha
  obtain ⟨hbnull, -, hb⟩ := hb
  simp only [Cell.holdsFor, beq_iff_eq] at ha hb
  rw [Cell.compare?_eq_true_iff]
  exact ⟨hanull, hbnull, beq_iff_eq.2
    (Cell.order_eq_of_order_eq ((Cell.proper_ofValue v).forColumn type) ha hb)⟩

end FilterOperator

namespace Query

variable {q : Query} {criteria : List (String × Value)} {db : Database} {x y : StoredRow}

/-- Whether base criteria give every field of the key. -/
def PinsKey (q : Query) (criteria : List (String × Value)) : Prop :=
  ∀ field ∈ q.entity.key, ∃ criterion ∈ criteria, q.naming.toStorage criterion.1 = field

theorem PinsKey.ne_nil (he : q.entity.WellFormed) (h : q.PinsKey criteria) : criteria ≠ [] := by
  rintro rfl
  obtain ⟨field, rest, hkey⟩ := List.exists_cons_of_ne_nil he.key_ne_nil
  obtain ⟨criterion, hcriterion, -⟩ := h field (by rw [hkey]; exact List.mem_cons_self ..)
  cases hcriterion

/-- A request that leaves it open is for one record when its criteria give every field of the
key. -/
theorem isSingle_none_iff (he : q.entity.WellFormed) :
    q.isSingle none criteria = true ↔ q.PinsKey criteria := by
  simp only [isSingle, Bool.and_eq_true, Bool.not_eq_true', List.isEmpty_eq_false_iff,
    List.all_eq_true, decide_eq_true_eq, List.mem_map]
  exact and_iff_right_of_imp (PinsKey.ne_nil he)

/-- What meets criteria that give the key is a row: they are about columns of the entity. -/
theorem PinsKey.exists_row (hpins : q.PinsKey criteria) (he : q.entity.WellFormed)
    {row : Option StoredRow} (h : q.Meets criteria row) : ∃ x, row = some x := by
  obtain ⟨field, rest, hkey⟩ := List.exists_cons_of_ne_nil he.key_ne_nil
  have hfield : field ∈ q.entity.key := by rw [hkey]; exact List.mem_cons_self ..
  obtain ⟨column, hcolumn⟩ := Option.isSome_iff_exists.1 (he.column_of_key field hfield)
  obtain ⟨criterion, hcriterion, rfl⟩ := hpins field hfield
  have hmeets := h criterion hcriterion
  simp only [MeetsCriterion, hcolumn] at hmeets
  exact hmeets.imp fun _ hx => hx.1

/-- Rows that meet criteria that give the key have equal keys. A row whose key is not null meets no
criterion that asks for null there. -/
theorem sameKey_of_meets (hpins : q.PinsKey criteria) (hself : q.entity.sameKey x x = true)
    (hx : q.Meets criteria (some x)) (hy : q.Meets criteria (some y)) :
    q.entity.sameKey x y = true := by
  rw [Entity.sameKey, List.all_eq_true] at hself ⊢
  intro column hcolumn
  obtain ⟨field, hfield, hfound⟩ := List.mem_filterMap.1 hcolumn
  obtain ⟨criterion, hcriterion, rfl⟩ := hpins field hfield
  have hx := hx criterion hcriterion
  have hy := hy criterion hcriterion
  simp only [MeetsCriterion, hfound, Option.mem_def, Option.some.injEq, exists_eq_left'] at hx hy
  have hself := hself _ hcolumn
  rw [beq_iff_eq] at hself ⊢
  split at hx
  · rw [hx] at hself
    cases hself
  · next hnull =>
    rw [if_neg hnull] at hy
    exact FilterOperator.compare?_of_compared hx hy

theorem eq_of_meets (hdb : db.PrimaryKeyed q.entity) (hpins : q.PinsKey criteria)
    (hx : x ∈ db.rows q.entity.table) (hy : y ∈ db.rows q.entity.table)
    (hx' : q.Meets criteria (some x)) (hy' : q.Meets criteria (some y)) : x = y := by
  have hmem : x ∈ (db.rows q.entity.table).filter (q.entity.sameKey · y) :=
    List.mem_filter.2 ⟨hx, sameKey_of_meets hpins (hdb.1 x hx) hx' hy'⟩
  rwa [hdb.filter_sameKey hy, List.mem_singleton] at hmem

/-- The rows that base criteria keep are rows that meet them. -/
theorem meets_of_mem_keptRows {base : List Predicate}
    (hbase : q.filters.criteria? q.entity.reach criteria = .ok base)
    (hx : x ∈ Statement.keptRows db q.entity base) : q.Meets criteria (some x) := by
  obtain ⟨-, hframes⟩ := List.mem_filter.1 hx
  obtain ⟨f, hf, hshown⟩ := List.any_eq_true.1 hframes
  have hrow : f.row? q.entity.reach.source = some x := beq_iff_eq.1 hshown
  have hall := List.of_mem_filter hf
  rw [List.all_eq_true] at hall
  intro criterion hcriterion
  obtain ⟨p, hmem, hp⟩ := exists_mem_of_mapM_eq_ok hbase hcriterion
  exact hrow ▸ meetsCriterion_of_holds hp (fun _ => ⟨x, hrow⟩) (hall p hmem)

/-- At most one row meets criteria that give the key. -/
theorem length_keptRows_le_one (hdb : db.PrimaryKeyed q.entity) (hpins : q.PinsKey criteria)
    {base : List Predicate} (hbase : q.filters.criteria? q.entity.reach criteria = .ok base) :
    (Statement.keptRows db q.entity base).length ≤ 1 := by
  have hself {x : StoredRow} (hx : x ∈ Statement.keptRows db q.entity base) :
      q.entity.sameKey x x = true := hdb.1 x (List.mem_of_mem_filter hx)
  have hmeets {x : StoredRow} (hx : x ∈ Statement.keptRows db q.entity base) :
      q.Meets criteria (some x) := meets_of_mem_keptRows hbase hx
  have hpairs : (Statement.keptRows db q.entity base).Pairwise fun x y =>
      q.entity.sameKey x y = false := hdb.2.sublist List.filter_sublist
  rcases hkept : Statement.keptRows db q.entity base with _ | ⟨x, _ | ⟨y, rest⟩⟩
  · simp
  · simp
  · rw [hkept] at hself hmeets hpairs
    have hsame := sameKey_of_meets hpins (hself (by simp)) (hmeets (x := x) (by simp))
      (hmeets (x := y) (by simp))
    rw [(List.pairwise_cons.1 hpairs).1 y (by simp)] at hsame
    cases hsame

/-! ## Statements -/

variable {r : ReadRequest} {fields : List SelectedField} {s : Statement} {loads : List RelationLoad}
  {isRestricted : Bool}

/-- All frames of a request with such criteria show the same row of the entity. -/
theorem row?_eq_of_pinsKey (he : q.entity.WellFormed) (hdb : db.PrimaryKeyed q.entity)
    (hpins : q.PinsKey criteria)
    (hplain : ∀ key ∈ r.sortKeys, ∀ name ∈ key.path.relations, IsPlain name)
    (h : q.statement? criteria r fields = .ok (s, loads, isRestricted)) {f g : Frame}
    (hf : f ∈ s.frames db) (hg : g ∈ s.frames db) :
    f.row? q.entity.reach.source = g.row? q.entity.reach.source := by
  obtain ⟨hmem, hmeets⟩ := frames_meet hplain h hf
  obtain ⟨hmem', hmeets'⟩ := frames_meet hplain h hg
  obtain ⟨x, hx⟩ := hpins.exists_row he hmeets
  obtain ⟨y, hy⟩ := hpins.exists_row he hmeets'
  rw [hx] at hmem hmeets ⊢
  rw [hy] at hmem' hmeets' ⊢
  rw [eq_of_meets hdb hpins (hmem x rfl) (hmem' y rfl) hmeets hmeets']

/-- What rows are grouped by is the same in frames that show one row, unless it is a relation. -/
theorem cell_group_statement? (h : q.statement? criteria r fields = .ok (s, loads, isRestricted))
    {x : Operand} (hx : x ∈ s.group) (hrelation : ∀ equalities, x ≠ .linked equalities)
    {f g : Frame} (hrow : f.row? q.entity.reach.source = g.row? q.entity.reach.source) :
    x.cell f = x.cell g := by
  obtain ⟨name, field, operands, hfield, hoperands, hx⟩ := group_statement? h hx
  have hcolumn : ∀ column : Column, f.get (column.at_ q.entity.reach.source) =
      g.get (column.at_ q.entity.reach.source) := by
    intro column
    simp only [Frame.get, Column.at_, hrow]
  rcases ResolvedField.mem_groupOperands? hoperands hx with ⟨_, -, rfl⟩ | ⟨column, -, -, rfl⟩ |
    ⟨hclass, rfl⟩
  · rfl
  · exact hcolumn column
  · cases Reach.field?_eq_ok.1 hfield with
    | column => exact hcolumn _
    | relation => exact absurd rfl (hrelation _)
    | ofClass => exact absurd rfl (hclass _)

/-- A request with such criteria shows at most one record, and at most one row of values unless
these are grouped by a relation. -/
theorem length_shownRecords_le_one (he : q.entity.WellFormed) (hdb : db.PrimaryKeyed q.entity)
    (hpins : q.PinsKey criteria)
    (hplain : ∀ key ∈ r.sortKeys, ∀ name ∈ key.path.relations, IsPlain name)
    (h : q.statement? criteria r fields = .ok (s, loads, isRestricted))
    (hgroup : isRowMode fields r.group = true → ∀ x ∈ s.group, ∀ equalities, x ≠ .linked equalities)
    (c : CompiledQuery) : (c.shownRecords db q.naming s).length ≤ 1 := by
  cases hmode : isRowMode fields r.group with
  | false =>
    have hasks := asksRecords_statement? he hplain hmode h
    obtain ⟨columns, -, hselection⟩ := hasks.selection
    have hshows : ∀ g ∈ s.groups db, ∃ x ∈ db.rows q.entity.table,
        CompiledQuery.entityRecord s.entity (s.answerRow g) = .record (s.entity.recordId x) ∧
          q.Meets criteria (some x) := by
      intro g hg
      have hshown : g.shown ∈ s.frames db := (hasks.groups_perm db).mem_iff.1
        (List.mem_map_of_mem hg)
      obtain ⟨x, hx, hrow, hmeets⟩ := exists_meeting_row hasks hplain h hshown
      exact ⟨x, hx, by rw [hasks.answerRow_eq, hrow, CompiledQuery.entityRecord], hmeets⟩
    rw [CompiledQuery.shownRecords_records hselection, rows_statement? h, List.map_map]
    -- Without a group nothing is shown, and otherwise what the first group shows.
    rcases hgroups : s.groups db with _ | ⟨first, rest⟩
    · exact Nat.zero_le _
    · obtain ⟨x, hx, -, hmeets⟩ := hshows first (by simp [hgroups])
      have hsame : ∀ record ∈ (first :: rest).map
          (CompiledQuery.entityRecord s.entity ∘ s.answerRow),
          record = .record (s.entity.recordId x) := by
        intro record hrecord
        obtain ⟨g, hg, rfl⟩ := List.mem_map.1 hrecord
        obtain ⟨y, hy, hshown, hmeets'⟩ := hshows g (hgroups ▸ hg)
        rw [Function.comp_apply, hshown, eq_of_meets hdb hpins hx hy hmeets hmeets']
      exact CompiledQuery.length_distinct_le_one hsame
  | true =>
    obtain ⟨terms, hselection⟩ := asksRows_statement? hmode h
    have hgrouped : s.isGrouped = true := by
      by_cases hnil : s.group = []
      · rw [Statement.isGrouped, exists_aggregate he hmode h hnil, Bool.or_true]
      · simp [Statement.isGrouped, hnil]
    rw [CompiledQuery.shownRecords_rows hselection, rows_statement? h, List.map_map,
      List.length_map]
    refine Statement.length_groups_le_one hgrouped fun f hf g hg x hx => ?_
    exact cell_group_statement? h hx (hgroup hmode x hx)
      (row?_eq_of_pinsKey he hdb hpins hplain h hf hg)

/-- **Requests for one record that do not say so.** A request that leaves it open is for one record
exactly when every field of the key is what some name of its base criteria stands for. When it
compiles, at most one row of the entity meets the criteria, as long as the keys of the rows are
different and not null, and all frames of its statement show the same row. The limit of one then
leaves no record out, and no row of values unless these are grouped by a relation. -/
theorem isSingle_safe (he : q.entity.WellFormed) {request : Request}
    (hundecided : request.single = none) :
    (q.isSingle request.single request.criteria = true ↔
      ∀ field ∈ q.entity.key, ∃ criterion ∈ request.criteria,
        q.naming.toStorage criterion.1 = field) ∧
    ∀ c, q.compile? request = .ok c → c.single = true →
      ∀ db : Database, db.PrimaryKeyed q.entity →
        (∃ base, q.filters.criteria? q.entity.reach request.criteria = .ok base ∧
          (Statement.keptRows db q.entity base).length ≤ 1) ∧
        (∀ f ∈ c.statement.frames db, ∀ g ∈ c.statement.frames db,
          f.row? q.entity.reach.source = g.row? q.entity.reach.source) ∧
        ((c.rowMode = true → ∀ x ∈ c.statement.group, ∀ equalities, x ≠ .linked equalities) →
          c.shownRecords db q.naming { c.statement with limit := none } =
            c.shownRecords db q.naming c.statement) := by
  have hiff : q.isSingle request.single request.criteria = true ↔ q.PinsKey request.criteria := by
    rw [hundecided]
    exact isSingle_none_iff he
  refine ⟨hiff, fun c hc hsingle db hdb => ?_⟩
  obtain ⟨_, r, s, loads, isRestricted, -, hread, hstatement, rfl⟩ := compile?_eq_ok.1 hc
  have hpins := hiff.1 hsingle
  have hplain := Parameters.plain_of_readRequest? hread
  have hunpaged := unpaged_statement? hstatement
  have hlimited : (q.compiled request r s loads isRestricted).statement =
      { s with limit := some 1 } := if_pos hsingle
  have hunlimited : { s with limit := none } = s := by
    rw [← hunpaged.1]
  rw [hlimited]
  refine ⟨?_, fun f hf g hg => row?_eq_of_pinsKey he hdb hpins hplain hstatement hf hg,
    fun hgroup => ?_⟩
  · obtain ⟨base, _, _, _, _, _, hbase, -⟩ := statement?_eq_ok hstatement
    exact ⟨base, hbase, length_keptRows_le_one hdb hpins hbase⟩
  · rw [hunlimited]
    exact (CompiledQuery.shownRecords_limited hunpaged
      (length_shownRecords_le_one he hdb hpins hplain hstatement hgroup _)).symm

end Query

namespace Sample

/-- A query for seats. -/
def seats : Query := { schema := schema, entity := seat, naming := .identity }

/-- A request for a seat by hall and number, in the order of the guests who booked it. -/
def seatOfHall : Request where
  params := .ofFields [("sort", .text "-bookings.guest")]
  criteria := [("number", .text "2"), ("hall", .text "A")]

theorem safe_seatOfHall : ∃ c, seats.compile? seatOfHall = .ok c ∧ c.single = true ∧
    database.PrimaryKeyed seat ∧
    c.shownRecords database .identity { c.statement with limit := none } =
      c.shownRecords database .identity c.statement := by
  obtain ⟨-, hsafe⟩ := @Query.isSingle_safe seats (by decide) seatOfHall rfl
  obtain ⟨c, hc, hmodes⟩ : ∃ c, seats.compile? seatOfHall = .ok c ∧
      (c.single, c.rowMode) = (true, false) := ⟨_, rfl, rfl⟩
  obtain ⟨hsingle, hmode⟩ := Prod.mk.inj hmodes
  have hkeyed : database.PrimaryKeyed seat := by decide +kernel
  obtain ⟨-, -, hlimit⟩ := hsafe c hc hsingle database hkeyed
  exact ⟨c, hc, hsingle, hkeyed, hlimit fun h => by rw [hmode] at h; cases h⟩

/-- A request for a person by the key that asks how many pets are theirs and how many are not. -/
def barneyByPets : Request where
  params := .ofFields [("fields", .ofFields [("person", .list [.text "pets", .text "count(id)"])]),
    ("group", .list [.text "pets"])]
  criteria := [("id", .int 1)]

/-- The one person is in a frame with every pet, and the frames are in two groups. The request is
for one record, so that the second row is left out. -/
theorem limit_drops_relation_group : ∃ a b, barneyByPets.single = none ∧
    people.isSingle none barneyByPets.criteria = true ∧ database.PrimaryKeyed person ∧
    people.fetch? database barneyByPets none none = .ok a ∧
    people.fetch? database { barneyByPets with single := some false } none none = .ok b ∧
    a.outcome = .single (some (.values [("pets", .bool false), ("count", .int 3)])) ∧
      b.outcome = .collection ⟨[.values [("pets", .bool false), ("count", .int 3)],
        .values [("pets", .bool true), ("count", .int 2)]], none⟩ := by
  have hone : (people.fetch? database barneyByPets none none).toOption.map (·.outcome) =
      some (.single (some (.values [("pets", .bool false), ("count", .int 3)]))) := by
    cbv
  have hall : (people.fetch? database { barneyByPets with single := some false } none
      none).toOption.map (·.outcome) =
        some (.collection ⟨[.values [("pets", .bool false), ("count", .int 3)],
          .values [("pets", .bool true), ("count", .int 2)]], none⟩) := by
    cbv
  obtain ⟨a, ha, hsingle⟩ := Option.map_eq_some_iff.1 hone
  obtain ⟨b, hb, hrows⟩ := Option.map_eq_some_iff.1 hall
  exact ⟨a, b, rfl, by decide, by decide +kernel, toOption_eq_some.1 ha, toOption_eq_some.1 hb,
    hsingle, hrows⟩

end Sample

end ResourceQuery
