import ResourceQuery.Include.Session
import ResourceQuery.Sample.Rows
import ResourceQuery.Proofs.Statement.Related

/-!
# Well-formed schemas and databases

What a schema and a database satisfy when they come from mapped tables. A schema can be checked
against this before any request comes; a database keeps it by its own constraints.

* `Schema.WellFormed`: every entity has a key, every relation links columns, and different entities
  have different tables;
* `Database.Keyed`, `Database.PrimaryKeyed`: no two rows of an entity have the same key, or one
  that the store takes for the same;
* `Database.Proper`: the store holds no number that is not a number;
* `Database.ToOne`: a relation to one record leads to at most one row.
-/

namespace ResourceQuery

/-- An entity with a key among its columns. -/
@[mk_iff] structure Entity.WellFormed (e : Entity) : Prop where
  key_ne_nil : e.key ≠ []
  column_of_key : ∀ field ∈ e.key, (e.column? field).isSome

/-- A relation whose link names columns, between tables that are told apart. -/
@[mk_iff] structure Relationship.WellFormed (r : Relationship) (owner target : Entity) : Prop where
  isLinked : r.link.IsLinked
  table_ne : target.name ≠ owner.name → target.table ≠ owner.table
  between_ne : ∀ table ∈ r.link.table?, table ≠ owner.table ∧ table ≠ target.table

/-- A schema of well-formed entities and relations. -/
@[mk_iff] structure Schema.WellFormed (s : Schema) : Prop where
  entities : ∀ e ∈ s.entities, e.WellFormed
  relations : ∀ e ∈ s.entities, ∀ r ∈ e.relationships, ∀ target ∈ s.entity? r.target,
    r.WellFormed e target

instance (e : Entity) : Decidable e.WellFormed :=
  decidable_of_iff _ (Entity.wellFormed_iff e).symm

instance (r : Relationship) (owner target : Entity) : Decidable (r.WellFormed owner target) :=
  decidable_of_iff _ (Relationship.wellFormed_iff r owner target).symm

instance (s : Schema) : Decidable s.WellFormed :=
  decidable_of_iff _ (Schema.wellFormed_iff s).symm

theorem Sample.schema_wellFormed : Sample.schema.WellFormed := by decide

/-! ## What relations lead to -/

theorem Schema.entity?_mem {s : Schema} {name : String} {e : Entity}
    (h : s.entity? name = some e) : e ∈ s.entities :=
  List.mem_of_find?_eq_some h

theorem Schema.related?_eq_some {s : Schema} {e target : Entity} {name : String}
    {r : Relationship} (h : s.related? e name = some (r, target)) :
    r ∈ e.relationships ∧ s.entity? r.target = some target := by
  simp only [Schema.related?, Option.bind_eq_some_iff, Option.map_eq_some_iff,
    Prod.mk.injEq] at h
  obtain ⟨_, hr, _, ht, rfl, rfl⟩ := h
  exact ⟨List.mem_of_find?_eq_some hr, ht⟩

theorem Reach.related?_eq_ok {s : Schema} {r : Reach} {name : String}
    {found : Relationship × Entity} :
    r.related? s name = .ok found ↔ s.related? r.entity name = some found := by
  unfold Reach.related?
  split
  · next h => simp [h]
  · next h => simp [h]

namespace Schema.WellFormed

variable {s : Schema} {e target : Entity} {name : String} {r : Relationship}

theorem target_mem (h : s.related? e name = some (r, target)) : target ∈ s.entities :=
  s.entity?_mem (related?_eq_some h).2

theorem relation (hs : s.WellFormed) (he : e ∈ s.entities)
    (h : s.related? e name = some (r, target)) : r.WellFormed e target :=
  hs.relations e he r (related?_eq_some h).1 target (related?_eq_some h).2

end Schema.WellFormed

theorem Entity.WellFormed.columns_ne_nil {e : Entity} (he : e.WellFormed) : e.columns ≠ [] := by
  intro hnil
  obtain ⟨field, rest, hkey⟩ := List.exists_cons_of_ne_nil he.key_ne_nil
  have := he.column_of_key field (by rw [hkey]; exact List.mem_cons_self ..)
  simp [Entity.column?, hnil] at this

/-! ## Databases -/

/-- Whether two rows of an entity have equal keys, as the store compares them. -/
def Entity.sameKey (e : Entity) (x y : StoredRow) : Bool :=
  e.keyColumns.all fun c => Cell.compare? .eq (x.get c.name) (y.get c.name) == some true

theorem Entity.sameKey_comm (e : Entity) (x y : StoredRow) : e.sameKey x y = e.sameKey y x := by
  simp only [sameKey, Cell.compare?_eq_comm (x.get _)]

namespace Database

/-- Whether the rows of an entity have different keys. -/
def Keyed (db : Database) (e : Entity) : Prop := ((db.rows e.table).map e.recordId).Nodup

/-- Whether every row of an entity has a key, and no two of them keys that the store takes for
equal. -/
def PrimaryKeyed (db : Database) (e : Entity) : Prop :=
  (∀ x ∈ db.rows e.table, e.sameKey x x = true) ∧
    (db.rows e.table).Pairwise fun x y => e.sameKey x y = false

/-- Whether every cell of an entity's rows is null or a value. -/
def Proper (db : Database) (e : Entity) : Prop :=
  ∀ x ∈ db.rows e.table, ∀ c ∈ x.cells, c.2.IsProper

/-- Whether relations to one record lead to at most one row. -/
def ToOne (db : Database) (s : Schema) : Prop :=
  ∀ e ∈ s.entities, ∀ r ∈ e.relationships, r.toMany = false → ∀ target ∈ s.entity? r.target,
    ∀ x ∈ db.rows e.table, (r.rowsFrom db target x).length ≤ 1

instance (db : Database) (e : Entity) : Decidable (db.Keyed e) :=
  inferInstanceAs (Decidable (List.Nodup _))

instance (db : Database) (e : Entity) : Decidable (db.PrimaryKeyed e) :=
  inferInstanceAs (Decidable (_ ∧ _))

instance (db : Database) (e : Entity) : Decidable (db.Proper e) :=
  inferInstanceAs (Decidable (∀ _ ∈ _, ∀ _ ∈ _, _))

instance (db : Database) (s : Schema) : Decidable (db.ToOne s) :=
  inferInstanceAs (Decidable (∀ _ ∈ _, ∀ _ ∈ _, _ → ∀ _ ∈ _, ∀ _ ∈ _, _ ≤ 1))

/-- Only a row itself has its key. -/
theorem PrimaryKeyed.filter_sameKey {db : Database} {e : Entity} (h : db.PrimaryKeyed e)
    {x : StoredRow} (hx : x ∈ db.rows e.table) :
    (db.rows e.table).filter (e.sameKey · x) = [x] := by
  obtain ⟨hself, hpairs⟩ := h
  generalize db.rows e.table = rows at hself hpairs hx ⊢
  induction rows with
  | nil => cases hx
  | cons y rows ih =>
    rw [List.pairwise_cons] at hpairs
    rw [List.forall_mem_cons] at hself
    rcases List.mem_cons.1 hx with rfl | hx
    · have hnone : rows.filter (e.sameKey · x) = [] := by
        rw [List.filter_eq_nil_iff]
        intro z hz
        simp [e.sameKey_comm z x, hpairs.1 z hz]
      simp [hself.1, hnone]
    · simp [hpairs.1 x hx, ih hself.2 hpairs.2 hx]

/-- A cell of a row is one of its own, or null. -/
theorem Proper.get {db : Database} {e : Entity} (h : db.Proper e) {x : StoredRow}
    (hx : x ∈ db.rows e.table) (name : String) : (x.get name).IsProper := by
  unfold StoredRow.get
  cases hc : x.cells.find? (·.1 == name) with
  | none => simp [Cell.IsProper]
  | some c => exact h x hx c (List.mem_of_find?_eq_some hc)

end Database

theorem Sample.database_toOne : Sample.database.ToOne Sample.schema := by decide

end ResourceQuery
