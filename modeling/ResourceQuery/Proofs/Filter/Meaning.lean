import ResourceQuery.Proofs.Filter.Operator
import ResourceQuery.Proofs.Filter.Part
import ResourceQuery.Proofs.Resolution
import ResourceQuery.Proofs.WellFormed

/-!
# The meaning of a filter

Which rows satisfy the clauses of a filter, said without predicates: a clause on a field is about
the row itself, and the clauses that start with one relation are about one row that it leads to.

* `FilterCompiler.satisfies`: whether a row satisfies some clauses;
* `FilterCompiler.column?`: the column that the path of a clause ends in;
* `FilterCompiler.holds_clause?`: a compiled clause says what it means, of columns and of class
  attributes;
* `FilterCompiler.Decides`, `FilterCompiler.decides_conditions?`: the compiled conditions keep a
  row exactly when it does;
* `FilterCompiler.satisfies_perm`: the order of the clauses does not matter for it.
-/

namespace ResourceQuery.FilterCompiler

variable (k : FilterCompiler) (db : Database)

/-- Whether a clause on a field holds of a row of an entity. What is no field of the row may be an
attribute of its class. -/
def holdsOf (e : Entity) (x : StoredRow) (c : FilterClause) : Bool :=
  match e.column? (k.naming.toStorage c.path.field) with
  | some column =>
    let values := if c.operator = .like then c.values else c.values.map (·.coerceTo column.type)
    c.operator.truth column.type (x.get column.name) values == some true
  | none =>
    (e.reach.classAttribute? (k.naming.toStorage c.path.field)).any fun a =>
      c.operator.holdsOfClass a c.values

/-- Whether a row of an entity satisfies some clauses. There has to be one related row for all
clauses behind a relation. -/
def satisfies (e : Entity) (entries : List FilterEntry) (x : StoredRow) : Bool :=
  (Part.localClauses entries).all (k.holdsOf e x) &&
    (Part.heads entries).attach.all fun name =>
      (k.schema.related? e (k.naming.toStorage name.1)).any fun (r, target) =>
        (r.rowsFrom db target x).any (satisfies target (Part.behind name.1 entries))
termination_by Part.depth entries
decreasing_by exact Part.depth_behind_lt name.2

/-- The column that a path from an entity ends in, if it does. -/
def column? (e : Entity) : List String → String → Option Column
  | [], field => e.column? (k.naming.toStorage field)
  | name :: rest, field =>
    (k.schema.related? e (k.naming.toStorage name)).bind fun (_, target) =>
      column? target rest field

/-- Whether every clause has values, and every `like` ends in a column. -/
def EndInColumns (e : Entity) (entries : List FilterEntry) : Prop :=
  ∀ entry ∈ entries, entry.2.values ≠ [] ∧
    (entry.2.operator = .like → (k.column? e entry.1 entry.2.path.field).isSome)

instance (e : Entity) (entries : List FilterEntry) : Decidable (k.EndInColumns e entries) :=
  inferInstanceAs (Decidable (∀ _ ∈ _, _ ∧ (_ → _)))

variable {k db} {e target : Entity} {entries entries' : List FilterEntry} {x : StoredRow}

theorem satisfies_iff : k.satisfies db e entries x = true ↔
    (∀ c ∈ Part.localClauses entries, k.holdsOf e x c = true) ∧
      ∀ name ∈ Part.heads entries, ∃ r target,
        k.schema.related? e (k.naming.toStorage name) = some (r, target) ∧
          ∃ y ∈ r.rowsFrom db target x,
            k.satisfies db target (Part.behind name entries) y = true := by
  rw [satisfies]
  simp only [Bool.and_eq_true, List.all_eq_true, List.mem_attach, forall_true_left,
    Subtype.forall, Option.any_eq_true_iff_get, List.any_eq_true]
  refine and_congr_right fun _ => forall₂_congr fun name _ => ?_
  constructor
  · rintro ⟨h, y, hy⟩
    exact ⟨_, _, (Option.some_get h).symm, y, hy⟩
  · rintro ⟨r, target, h, y, hy⟩
    refine ⟨by rw [h]; rfl, y, ?_⟩
    simpa only [h, Option.get_some] using hy

theorem EndInColumns.behind {name : String} {r : Relationship} (h : k.EndInColumns e entries)
    (hr : k.schema.related? e (k.naming.toStorage name) = some (r, target)) :
    k.EndInColumns target (Part.behind name entries) := by
  intro entry hentry
  obtain ⟨hvalues, hlike⟩ := h _ (Part.mem_behind.1 hentry)
  refine ⟨hvalues, fun hop => ?_⟩
  simpa [column?, hr] using hlike hop

theorem satisfies_perm (h : entries.Perm entries') :
    k.satisfies db e entries x = k.satisfies db e entries' x := by
  generalize hn : Part.depth entries = n
  induction n using Nat.strong_induction_on generalizing e entries entries' x with
  | _ n ih =>
    rw [Bool.eq_iff_iff, satisfies_iff, satisfies_iff]
    refine and_congr ?_ ?_
    · simp only [(Part.localClauses_perm h).mem_iff]
    · simp only [(Part.heads_perm h).mem_iff]
      refine forall₂_congr fun name hname => exists₂_congr fun r target => ?_
      have hlt := Part.depth_behind_lt ((Part.heads_perm h).mem_iff.2 hname)
      simp only [fun y => ih _ (hn ▸ hlt) (x := y) (e := target) (Part.behind_perm name h) rfl]

/-! ## Conditions of clauses -/

/-- Whether a reading is one that a filter has at the end of a path of relations. -/
def IsReadAt (r : Reach) (path : List String) : Prop :=
  r.source.table = r.entity.table ∧ (r.source.reading = .base ∨ r.source.reading = .related path)

/-- Filters know every reading of an entity by the name of the entity. -/
theorem IsReadAt.classAttribute?_eq {r : Reach} {path : List String} (h : IsReadAt r path)
    (name : String) : r.classAttribute? name = r.entity.reach.classAttribute? name := by
  refine Reach.classAttribute?_eq_of_shown rfl ?_
  rcases h.2 with hreading | hreading <;> simp only [Reach.shown, hreading, Entity.reach]

/-- Values are not coerced for a class attribute. -/
theorem coerceTo_ofClass (a : ClassAttribute) (v : Value) :
    v.coerceTo (ResolvedField.ofClass a).type = v := by
  cases v <;> rfl

/-- What a clause that is compiled is on: a column, or a class attribute if there is no column. -/
theorem clause?_eq_ok {r : Reach} {c : FilterClause} {p : Predicate}
    (hvalues : c.values ≠ [])
    (hlike : c.operator = .like → (k.column? r.entity [] c.path.field).isSome)
    (h : k.clause? r c = .ok p) :
    (∃ column, r.entity.column? (k.naming.toStorage c.path.field) = some column ∧
      c.operator.condition? (.column (column.at_ r.source))
        (if c.operator = .like then c.values else c.values.map (·.coerceTo column.type)) =
          .ok p) ∨
    (r.entity.column? (k.naming.toStorage c.path.field) = none ∧ c.operator ≠ .like ∧
      ∃ a, r.classAttribute? (k.naming.toStorage c.path.field) = some a ∧
        c.operator.condition? (.ofClass a) c.values = .ok p) := by
  obtain ⟨field, hfield, h⟩ := bind_eq_ok.1 h
  replace h := FilterRegistry.condition?_eq_ok h
  have hop : r.entity.column? (k.naming.toStorage c.path.field) = none → c.operator ≠ .like :=
    fun hcolumn hop => by simpa [column?, hcolumn] using hlike hop
  cases Reach.field?_eq_ok.1 hfield with
  | column hcolumn => exact .inl ⟨_, hcolumn, h⟩
  | relation hcolumn =>
    rw [if_neg (hop hcolumn)] at h
    exact absurd h (FilterOperator.condition?_relation (hop hcolumn) (by simpa using hvalues))
  | ofClass hcolumn _ ha =>
    simp only [if_neg (hop hcolumn), coerceTo_ofClass, List.map_id'] at h
    exact .inr ⟨hcolumn, hop hcolumn, _, ha, h⟩

theorem sources_clause? {r : Reach} {c : FilterClause} {p : Predicate} (hvalues : c.values ≠ [])
    (hlike : c.operator = .like → (k.column? r.entity [] c.path.field).isSome)
    (h : k.clause? r c = .ok p) : p.sources ⊆ [r.source] := by
  obtain ⟨column, -, h⟩ | ⟨-, hop, a, -, h⟩ := clause?_eq_ok hvalues hlike h
  · exact FilterOperator.sources_condition? h
  · rw [(FilterOperator.condition?_ofClass_eq_ok hop h).1]
    exact List.nil_subset _

theorem holds_clause? {r : Reach} {path : List String} {c : FilterClause} {p : Predicate}
    (hat : IsReadAt r path) (hvalues : c.values ≠ [])
    (hlike : c.operator = .like → (k.column? r.entity [] c.path.field).isSome)
    (h : k.clause? r c = .ok p) {f : Frame} (hx : Frame.row? f r.source = some x) :
    p.holds db f = true ↔ k.holdsOf r.entity x c = true := by
  obtain ⟨column, hcolumn, h⟩ | ⟨hcolumn, hop, a, ha, h⟩ := clause?_eq_ok hvalues hlike h
  · have hget : f.get (column.at_ r.source) = x.get column.name := Frame.get_of_row? hx
    rw [Predicate.holds, FilterOperator.truth_condition? h, hget, holdsOf, hcolumn]
    rfl
  · rw [hat.classAttribute?_eq] at ha
    rw [Predicate.holds_iff, (FilterOperator.condition?_ofClass_eq_ok hop h).2, holdsOf, hcolumn]
    simp [ha]

/-! ## Compiled conditions -/

/-- The condition of one part of some clauses. -/
def part? (k : FilterCompiler) (depth : Nat) (r : Reach) (path : List String)
    (entries : List FilterEntry) : Part → Except QueryError Predicate
  | .field c => k.clause? r c
  | .relation name => do
    let (relationship, target) ← r.related? k.schema (k.naming.toStorage name)
    let path := path ++ [name]
    let inner := relatedReach r.entity target path
    let criteria ← k.conditions? depth inner path (Part.behind name entries)
    .ok (.related (relationship.hop r inner .base) (.allOf criteria))

theorem conditions?_eq_ok {depth : Nat} {r : Reach} {path : List String} {ps : List Predicate} :
    k.conditions? (depth + 1) r path entries = .ok ps ↔
      (∃ qs, (Part.localClauses entries).mapM (k.clause? r) = .ok qs) ∧
        (Part.ofEntries [] entries).mapM (k.part? depth r path entries) = .ok ps := by
  rw [conditions?, bind_eq_ok, ← exists_and_right]
  rfl

theorem part?_relation_eq_ok {depth : Nat} {r : Reach} {path : List String} {name : String}
    {p : Predicate} :
    k.part? depth r path entries (.relation name) = .ok p ↔
      ∃ relationship target criteria,
        k.schema.related? r.entity (k.naming.toStorage name) = some (relationship, target) ∧
        k.conditions? depth (relatedReach r.entity target (path ++ [name])) (path ++ [name])
          (Part.behind name entries) = .ok criteria ∧
        p = .related (relationship.hop r (relatedReach r.entity target (path ++ [name])) .base)
          (.allOf criteria) := by
  simp only [part?, bind_eq_ok, Reach.related?_eq_ok, Prod.exists]
  refine exists₂_congr fun relationship target => ?_
  constructor
  · rintro ⟨hr, criteria, hcriteria, h⟩
    exact ⟨criteria, hr, hcriteria, (Except.ok.inj h).symm⟩
  · rintro ⟨criteria, hr, hcriteria, rfl⟩
    exact ⟨hr, criteria, hcriteria, rfl⟩

theorem relatedReach_isReadAt (owner target : Entity) (path : List String) :
    IsReadAt (relatedReach owner target path) path := by
  unfold relatedReach
  split
  · exact ⟨rfl, .inr rfl⟩
  · exact ⟨rfl, .inl rfl⟩

@[simp] theorem relatedReach_entity (owner target : Entity) (path : List String) :
    (relatedReach owner target path).entity = target := by
  unfold relatedReach
  split <;> rfl

/-- The step to the rows that a filter asks for is one between different sources. -/
theorem stepsApart_relatedReach {relationship : Relationship} {r : Reach} {path : List String}
    (name : String) (hr : relationship.WellFormed r.entity target) (hat : IsReadAt r path) :
    relationship.StepsApart r.source (relatedReach r.entity target (path ++ [name])).source
      .base := by
  obtain ⟨htable, hreading⟩ := hat
  have hfar : (relatedReach r.entity target (path ++ [name])).source.table = target.table := by
    simpa using (relatedReach_isReadAt r.entity target (path ++ [name])).1
  refine ⟨fun h => ?_, fun table hbetween => ⟨fun h => ?_, fun h => ?_⟩⟩
  · by_cases hname : target.name = r.entity.name
    · have hpath : Instance.related (path ++ [name]) = r.source.reading := by
        rw [← h, relatedReach, if_pos hname]
        rfl
      rcases hreading with hbase | hrelated
      · rw [hbase] at hpath
        cases hpath
      · rw [hrelated] at hpath
        simp at hpath
    · exact hr.table_ne hname (by rw [← hfar, h, htable])
  · exact (hr.between_ne table hbetween).1 (by rw [← htable, ← h])
  · exact (hr.between_ne table hbetween).2 (by rw [← hfar, ← h])

/-- Whether a row of an entity satisfies one part of some clauses. -/
def SatisfiesPart (k : FilterCompiler) (db : Database) (e : Entity) (entries : List FilterEntry)
    (x : StoredRow) : Part → Prop
  | .field c => k.holdsOf e x c = true
  | .relation name => ∃ r target, k.schema.related? e (k.naming.toStorage name) = some (r, target) ∧
      ∃ y ∈ r.rowsFrom db target x, k.satisfies db target (Part.behind name entries) y = true

theorem satisfies_iff_parts : k.satisfies db e entries x = true ↔
    ∀ part ∈ Part.ofEntries [] entries, k.SatisfiesPart db e entries x part := by
  rw [satisfies_iff, Part.forall_ofEntries]
  rfl

/-- Conditions that keep a row exactly when something holds of it, and that mention nothing but its
source. -/
def Decides (db : Database) (s : Source) (ps : List Predicate) (sat : StoredRow → Prop) : Prop :=
  (∀ p ∈ ps, p.sources ⊆ [s]) ∧ ∀ f x, Frame.row? f s = some x →
    ((∀ p ∈ ps, p.holds db f = true) ↔ sat x)

theorem decides_singleton {s : Source} {p : Predicate} {sat : StoredRow → Prop} :
    Decides db s [p] sat ↔ p.sources ⊆ [s] ∧ ∀ f x, Frame.row? f s = some x →
      (p.holds db f = true ↔ sat x) := by
  simp [Decides]

/-- The condition of a relation decides it when the conditions behind the relation decide what is
there. -/
theorem decides_relation? (hs : k.schema.WellFormed) {depth : Nat} {r : Reach}
    {path : List String} {name : String} {p : Predicate} (hr : r.entity ∈ k.schema.entities)
    (hat : IsReadAt r path) (hp : k.part? depth r path entries (.relation name) = .ok p)
    (hbehind : ∀ relationship target criteria,
      k.schema.related? r.entity (k.naming.toStorage name) = some (relationship, target) →
      k.conditions? depth (relatedReach r.entity target (path ++ [name])) (path ++ [name])
        (Part.behind name entries) = .ok criteria →
      Decides db (relatedReach r.entity target (path ++ [name])).source criteria
        (k.satisfies db target (Part.behind name entries) · = true)) :
    Decides db r.source [p] (k.SatisfiesPart db r.entity entries · (.relation name)) := by
  obtain ⟨relationship, target, criteria, hfound, hcriteria, rfl⟩ := part?_relation_eq_ok.1 hp
  obtain ⟨hsources, hholds⟩ := hbehind relationship target criteria hfound hcriteria
  refine decides_singleton.2 ⟨by simp [Predicate.sources], fun f x hx => ?_⟩
  rw [Relationship.holds_related (k.satisfies db target (Part.behind name entries)) hx
    (by simpa using (relatedReach_isReadAt ..).1)
    (stepsApart_relatedReach name (hs.relation hr hfound) hat)]
  · simp [SatisfiesPart, hfound]
  · rw [Predicate.sources_allOf]
    exact Predicate.flatMap_sources_subset hsources
  · intro g y hy
    rw [Predicate.holds_allOf]
    exact hholds g y hy

/-- The conditions of a filter keep a row exactly when it satisfies the clauses. -/
theorem decides_conditions? (db : Database) (hs : k.schema.WellFormed) {depth : Nat} {r : Reach}
    {path : List String} {ps : List Predicate} (hr : r.entity ∈ k.schema.entities)
    (hat : IsReadAt r path) (hdepth : Part.depth entries ≤ depth)
    (hends : k.EndInColumns r.entity entries) (h : k.conditions? depth r path entries = .ok ps) :
    Decides db r.source ps (k.satisfies db r.entity entries · = true) := by
  induction depth generalizing r path entries ps with
  | zero => simp [Part.depth] at hdepth
  | succ depth ih =>
    obtain ⟨-, hparts⟩ := conditions?_eq_ok.1 h
    have hpart : ∀ part ∈ Part.ofEntries [] entries, ∀ p,
        k.part? depth r path entries part = .ok p →
          Decides db r.source [p] (k.SatisfiesPart db r.entity entries · part) := by
      rw [Part.forall_ofEntries]
      refine ⟨fun c hc p hp => ?_, fun name hname p hp => ?_⟩
      · obtain ⟨hvalues, hlike⟩ := hends _ (Part.mem_localClauses.1 hc)
        exact decides_singleton.2 ⟨sources_clause? hvalues hlike hp, fun f x hx =>
          holds_clause? hat hvalues hlike hp hx⟩
      · refine decides_relation? hs hr hat hp fun _ target criteria hfound hcriteria => ?_
        have hlt := Nat.lt_of_lt_of_le (Part.depth_behind_lt hname) hdepth
        simpa using ih (by simpa using Schema.WellFormed.target_mem hfound)
          (relatedReach_isReadAt ..) (Nat.le_of_lt_succ hlt) (by simpa using hends.behind hfound)
          hcriteria
    refine ⟨?_, fun f x hx => ?_⟩
    · rw [forall_of_mapM_eq_ok hparts]
      exact fun part hmem p hp => (decides_singleton.1 (hpart part hmem p hp)).1
    · refine Iff.trans ?_ satisfies_iff_parts.symm
      exact forall_iff_of_mapM_eq_ok hparts fun part hmem p hp =>
        (decides_singleton.1 (hpart part hmem p hp)).2 f x hx

end ResourceQuery.FilterCompiler
