import ResourceQuery.Include.Session
import ResourceQuery.Proofs.Outcome

/-!
# The rows of loaded records

A session keeps the row that it first has for a record, whatever is loaded after it.

* `Session.Keeps`: a session that has all records of another one with their rows;
* `Session.keeps_visit`, `RelationLoad.keeps_runAll`: visits and loads lead to such sessions;
* `Session.OnlyShows`: a session with no other rows than some;
* `Session.exists_of_visit`: what a session has after a visit;
* `Session.RowsAlike`: sessions with the same rows, whatever is loaded of them.
-/

namespace ResourceQuery

namespace Session

variable {s s' s'' : Session}

/-- Whether a session has all records of another one, with the rows that they have there. -/
def Keeps (s s' : Session) : Prop :=
  ∀ id r, s.get? id = some r → ∃ r', s'.get? id = some r' ∧ r'.entity = r.entity ∧ r'.row = r.row

theorem Keeps.refl (s : Session) : s.Keeps s := fun _ r h => ⟨r, h, rfl, rfl⟩

theorem Keeps.trans (h : s.Keeps s') (h' : s'.Keeps s'') : s.Keeps s'' := by
  intro id r hr
  obtain ⟨r', hr', he, hrow⟩ := h id r hr
  obtain ⟨r'', hr'', he', hrow'⟩ := h' id r' hr'
  exact ⟨r'', hr'', he'.trans he, hrow'.trans hrow⟩

theorem get?_modify (s : Session) (id other : RecordId) (change : LoadedRecord → LoadedRecord) :
    (s.modify id change).get? other =
      (s.get? other).map fun r => if other = id then change r else r := by
  have hfind : ∀ records : List (RecordId × LoadedRecord),
      ((records.map fun p => if p.1 = id then (p.1, change p.2) else p).find?
        (·.1 == other)).map (·.2) =
      ((records.find? (·.1 == other)).map (·.2)).map fun r =>
        if other = id then change r else r := by
    intro records
    induction records with
    | nil => rfl
    | cons p records ih =>
      obtain ⟨o, r⟩ := p
      by_cases ho : o = other
      · by_cases hid : other = id <;> simp [ho, hid]
      · by_cases hid : o = id
        · have hne : id ≠ other := hid ▸ ho
          simpa [hid, hne] using ih
        · simpa [hid, ho] using ih
  exact hfind s.records

/-- Two sessions that have the same records with the same rows. -/
def RowsAlike (s s' : Session) : Prop :=
  ∀ id, (s'.get? id).map (fun r => (r.entity, r.row)) =
    (s.get? id).map fun r => (r.entity, r.row)

theorem RowsAlike.keeps (h : s.RowsAlike s') : s.Keeps s' := by
  intro id r hr
  have hid := h id
  rw [hr] at hid
  obtain ⟨r', hr', hrow⟩ := Option.map_eq_some_iff.1 hid
  obtain ⟨he, hrow⟩ := Prod.mk.inj hrow
  exact ⟨r', hr', he, hrow⟩

theorem RowsAlike.symm (h : s.RowsAlike s') : s'.RowsAlike s := fun id => (h id).symm

theorem RowsAlike.trans (h : s.RowsAlike s') (h' : s'.RowsAlike s'') : s.RowsAlike s'' :=
  fun id => (h' id).trans (h id)

theorem rowsAlike_modify {id : RecordId} {change : LoadedRecord → LoadedRecord}
    (hchange : ∀ r, (change r).entity = r.entity ∧ (change r).row = r.row) :
    s.RowsAlike (s.modify id change) := by
  intro other
  rw [get?_modify, Option.map_map]
  refine congrArg (Option.map · _) (funext fun r => ?_)
  obtain ⟨he, hrow⟩ := hchange r
  by_cases hid : other = id
  · simp [hid, he, hrow]
  · simp [hid]

theorem keeps_modify {id : RecordId} {change : LoadedRecord → LoadedRecord}
    (hchange : ∀ r, (change r).entity = r.entity ∧ (change r).row = r.row) :
    s.Keeps (s.modify id change) :=
  (rowsAlike_modify hchange).keeps

/-! ## Visits -/

theorem get?_append (s : Session) (id other : RecordId) (r : LoadedRecord) :
    (⟨s.records ++ [(id, r)]⟩ : Session).get? other =
      (s.get? other).or (if id = other then some r else none) := by
  unfold get?
  rw [List.find?_append]
  by_cases h : id = other <;> cases s.records.find? (·.1 == other) <;> simp [h]

theorem keeps_visitRow (s : Session) (e : Entity) (columns : List Column) (row : StoredRow) :
    s.Keeps (s.visitRow e columns row).1 := by
  unfold visitRow
  dsimp only
  split
  · intro id r hr
    exact ⟨r, by rw [get?_append, hr, Option.some_or], rfl, rfl⟩
  · exact keeps_modify fun r => ⟨rfl, rfl⟩

/-- A visit keeps the rows that are there. -/
theorem keeps_visit (s : Session) (e : Entity) (columns : List Column) (rows : List StoredRow) :
    s.Keeps (s.visit e columns rows).1 := by
  induction rows generalizing s with
  | nil => exact .refl s
  | cons row rest ih => exact (keeps_visitRow s e columns row).trans (ih _)

/-- Whether the records of a session are those of some rows of one entity. -/
def OnlyShows (s : Session) (e : Entity) (rows : List StoredRow) : Prop :=
  ∀ id r, s.get? id = some r → r.entity = e ∧ r.row ∈ rows ∧ e.recordId r.row = id

theorem OnlyShows.visitRow {e : Entity} {rows : List StoredRow} (h : s.OnlyShows e rows)
    {row : StoredRow} (hrow : row ∈ rows) (columns : List Column) :
    (s.visitRow e columns row).1.OnlyShows e rows := by
  intro other r hr
  unfold Session.visitRow at hr
  dsimp only at hr
  split at hr
  · rw [get?_append] at hr
    cases hget : s.get? other with
    | some r' =>
      obtain rfl : r' = r := by simpa [hget] using hr
      exact h other _ hget
    | none =>
      rw [hget, Option.none_or] at hr
      split at hr
      · next hid =>
        cases hr
        exact ⟨rfl, hrow, hid⟩
      · cases hr
  · rw [get?_modify] at hr
    obtain ⟨r', hr', rfl⟩ := Option.map_eq_some_iff.1 hr
    split
    · exact h other r' hr'
    · exact h other r' hr'

theorem OnlyShows.visit {e : Entity} {rows visited : List StoredRow} (h : s.OnlyShows e rows)
    (hvisited : visited ⊆ rows) (columns : List Column) :
    (s.visit e columns visited).1.OnlyShows e rows := by
  induction visited generalizing s with
  | nil => exact h
  | cons row rest ih =>
    rw [List.cons_subset] at hvisited
    exact ih (h.visitRow hvisited.1 columns) hvisited.2

/-- Every visited row has a record. -/
theorem exists_of_visit (s : Session) (e : Entity) (columns : List Column)
    {rows : List StoredRow} {row : StoredRow} (hrow : row ∈ rows) :
    ∃ r, (s.visit e columns rows).1.get? (e.recordId row) = some r := by
  induction rows generalizing s with
  | nil => cases hrow
  | cons first rest ih =>
    rcases List.mem_cons.1 hrow with rfl | hrow
    · have hfirst : ∃ r, (s.visitRow e columns row).1.get? (e.recordId row) = some r := by
        unfold visitRow
        dsimp only
        split
        · next hnone => exact ⟨_, by rw [get?_append, hnone, if_pos rfl]; rfl⟩
        · next r hsome => exact ⟨_, by rw [get?_modify, hsome]; rfl⟩
      obtain ⟨r, hr⟩ := hfirst
      obtain ⟨r', hr', -⟩ := keeps_visit (s.visitRow e columns row).1 e columns rest _ r hr
      exact ⟨r', hr'⟩
    · exact ih _ hrow

theorem RowsAlike.visitRow (h : s.RowsAlike s') (e : Entity) (columns columns' : List Column)
    (row : StoredRow) :
    (s.visitRow e columns row).1.RowsAlike (s'.visitRow e columns' row).1 := by
  have hid := h (e.recordId row)
  unfold Session.visitRow
  dsimp only
  cases hs : s.get? (e.recordId row) with
  | none =>
    cases hs' : s'.get? (e.recordId row) with
    | none =>
      intro other
      dsimp only
      rw [get?_append, get?_append, Option.map_or, Option.map_or, h other]
      split <;> rfl
    | some r' => simp [hs, hs'] at hid
  | some r =>
    cases hs' : s'.get? (e.recordId row) with
    | none => simp [hs, hs'] at hid
    | some r' =>
      dsimp only
      refine .trans (.symm (rowsAlike_modify ?_)) (h.trans (rowsAlike_modify ?_))
      · exact fun r => ⟨rfl, rfl⟩
      · exact fun r => ⟨rfl, rfl⟩

/-- The rows of visited records do not depend on the columns that are read of them. -/
theorem RowsAlike.visit (h : s.RowsAlike s') (e : Entity) (columns columns' : List Column)
    (rows : List StoredRow) :
    (s.visit e columns rows).1.RowsAlike (s'.visit e columns' rows).1 := by
  induction rows generalizing s s' with
  | nil => exact h
  | cons row rest ih => exact ih (h.visitRow e columns columns' row)

/-! ## Loads -/

theorem keeps_link (s : Session) (v : Visit) (name : String) (related : Related) :
    s.Keeps (s.link v name related) := by
  refine keeps_modify fun r => ?_
  split
  · exact ⟨rfl, rfl⟩
  · exact ⟨rfl, rfl⟩

end Session

namespace RelationLoad

mutual

theorem keeps_run {db : Database} {inherited : List (String × Predicate)} {visits : List Visit}
    {s s' : Session} {load : RelationLoad} (h : run db inherited visits s load = .ok s') :
    s.Keeps s' := by
  cases load with
  | mk r owner target criteria columns children =>
    rw [run] at h
    obtain ⟨-, -, h⟩ := bind_eq_ok.1 h
    obtain ⟨s₂, hs₂, h⟩ := bind_eq_ok.1 h
    cases h
    have hlinks : ∀ (found : List (Visit × List StoredRow)) (s : Session),
        s.Keeps (found.foldl (fun s (v, rows) => s.link v r.name (r.related target rows)) s) := by
      intro found
      induction found with
      | nil => exact Session.Keeps.refl
      | cons p found ih => exact fun s => Session.Keeps.trans (s.keeps_link _ _ _) (ih _)
    exact Session.Keeps.trans (s.keeps_visit _ _ _) ((keeps_runAll hs₂).trans (hlinks _ s₂))

/-- Loads keep the rows that are there. -/
theorem keeps_runAll {db : Database} {inherited : List (String × Predicate)} {visits : List Visit}
    {s s' : Session} {loads : List RelationLoad} (h : runAll db inherited visits s loads = .ok s') :
    s.Keeps s' := by
  cases loads with
  | nil =>
    cases h
    exact .refl s
  | cons load rest =>
    rw [runAll] at h
    obtain ⟨s₂, hs₂, h⟩ := bind_eq_ok.1 h
    exact (keeps_run hs₂).trans (keeps_runAll h)

end

end RelationLoad

end ResourceQuery
