import ResourceQuery.Proofs.Sort.Along

/-!
# The values of sort keys

What rows are ordered by, said without statements: the value that a sort key has for a row, and the
order that sort keys make of two rows.

* `SortCompiler.cellsAlong`: the attribute of a sort key in all rows along its path;
* `SortCompiler.value`: the value of a sort key: the attribute at the end of the path, or the least
  or greatest one when the path leads through a relation to many;
* `SortCompiler.NotAfter`: the order of two rows, key by key;
* `SortCompiler.isValue_value`, `SortCompiler.order_of_null`, `SortCompiler.notAfter_flip`: what
  values there are, where null stands, and what turning all keys around does.
-/

namespace ResourceQuery

/-! ## Extreme cells -/

theorem Cell.order_null_left {c : Cell} (h : c ≠ .null) : Cell.order .null c = .lt := by
  cases c <;> first | rfl | exact absurd rfl h

theorem Cell.isNull_eq_false_iff {c : Cell} : c.isNull = false ↔ c ≠ .null := by
  cases c <;> simp [Cell.isNull]

/-- Whether a cell comes before another one, or is equal to it, when large ones come first or
last. -/
def Cell.NotBeaten (largest : Bool) (v c : Cell) : Prop :=
  if largest then Cell.order c v ≠ .gt else Cell.order v c ≠ .gt

theorem Cell.notBeaten_iff {largest : Bool} {v c : Cell} :
    v.NotBeaten largest c ↔ c.beats largest v = false := by
  cases largest with
  | true => simp [NotBeaten, beats]
  | false =>
    rw [NotBeaten, beats, Cell.order_swap c v]
    cases Cell.order c v <;> simp

theorem Cell.NotBeaten.trans {largest : Bool} {a b c : Cell} (ha : a.IsProper) (hb : b.IsProper)
    (hc : c.IsProper) (hab : a.NotBeaten largest b) (hbc : b.NotBeaten largest c) :
    a.NotBeaten largest c := by
  cases largest with
  | true => exact order_trans hc hb ha hbc hab
  | false => exact order_trans ha hb hc hab hbc

theorem Cell.NotBeaten.of_beats {largest : Bool} {a b : Cell} (h : a.beats largest b = true) :
    a.NotBeaten largest b := by
  cases largest with
  | true =>
    rw [NotBeaten, if_pos rfl, Cell.order_swap a b]
    simp_all [beats]
  | false => simp_all [NotBeaten, beats]

theorem Cell.NotBeaten.refl (largest : Bool) (c : Cell) : c.NotBeaten largest c := by
  have h : Cell.order c c ≠ .gt := by
    have := Cell.order_swap c c
    cases ho : Cell.order c c <;> simp_all
  cases largest <;> exact h

/-- The extreme one of some cells is one of them, and none of them beats it. -/
theorem extremeCell_spec (largest : Bool) {cells : List Cell} (hne : cells ≠ [])
    (hproper : AllProper cells) :
    extremeCell largest cells ∈ cells ∧
      ∀ c ∈ cells, (extremeCell largest cells).NotBeaten largest c := by
  obtain ⟨best, rest, rfl⟩ := List.exists_cons_of_ne_nil hne
  rw [extremeCell]
  induction rest generalizing best with
  | nil => simpa using Cell.NotBeaten.refl largest best
  | cons c rest ih =>
    simp only [AllProper, List.forall_mem_cons] at hproper
    obtain ⟨hbest, hc, hrest⟩ := hproper
    rw [List.foldl_cons]
    by_cases h : c.beats largest best = true
    · rw [if_pos h]
      obtain ⟨hmem, hleast⟩ := ih c (by simp) (List.forall_mem_cons.2 ⟨hc, hrest⟩)
      have hv := (List.forall_mem_cons.2 ⟨hc, hrest⟩ : AllProper (c :: rest)) _ hmem
      refine ⟨List.mem_cons_of_mem _ hmem, List.forall_mem_cons.2 ⟨?_, hleast⟩⟩
      exact (hleast c (List.mem_cons_self ..)).trans hv hc hbest (.of_beats h)
    · rw [if_neg h]
      obtain ⟨hmem, hleast⟩ := ih best (by simp) (List.forall_mem_cons.2 ⟨hbest, hrest⟩)
      have hv := (List.forall_mem_cons.2 ⟨hbest, hrest⟩ : AllProper (best :: rest)) _ hmem
      rw [List.forall_mem_cons] at hleast
      refine ⟨?_, List.forall_mem_cons.2 ⟨hleast.1, List.forall_mem_cons.2 ⟨?_, hleast.2⟩⟩⟩
      · rcases List.mem_cons.1 hmem with heq | hmem
        · exact List.mem_cons.2 (.inl heq)
        · exact List.mem_cons_of_mem _ (List.mem_cons_of_mem _ hmem)
      · exact hleast.1.trans hv hbest hc (Cell.notBeaten_iff.2 (by simpa using h))

/-! ## Values -/

/-- The same sort key in the other direction. -/
def SortKey.flip (key : SortKey) : SortKey := { key with descending := !key.descending }

namespace SortCompiler

variable {k : SortCompiler} {db : Database} {e : Entity} {key : SortKey} {x y : StoredRow}

/-- The column at the end of a path. -/
def column? (k : SortCompiler) (e : Entity) (path : FieldPath) : Option Column :=
  (k.target? e path.relations).bind (·.column? (k.naming.toStorage path.field))

/-- Whether a sort key is on an attribute: there is a column at the end of its path, and it is not
written like an aggregate. -/
def IsAttribute (k : SortCompiler) (e : Entity) (key : SortKey) : Prop :=
  (k.column? e key.path).isSome ∧
    (key.path.isLocal = true → (SelectedField.ofName key.path.field).isAggregate = false)

instance (k : SortCompiler) (e : Entity) (key : SortKey) : Decidable (k.IsAttribute e key) :=
  inferInstanceAs (Decidable (_ ∧ _))

/-- Whether a path leads through a relation to many at any place. -/
def crossesMany (k : SortCompiler) (e : Entity) : List String → Bool
  | [] => false
  | name :: rest =>
    match k.schema.related? e (k.naming.toStorage name) with
    | some (r, target) => r.toMany || k.crossesMany target rest
    | none => false

/-- The attribute of a sort key in all rows along its path. -/
def cellsAlong (k : SortCompiler) (db : Database) (e : Entity) (key : SortKey) (x : StoredRow) :
    List Cell :=
  match k.column? e key.path with
  | some c => (k.rowsAlong db e key.path.relations x).map (·.get c.name)
  | none => []

/-- The value of a sort key for a row: the attribute at the end of its path, or, when the path leads
through a relation to many, the least one, or the greatest one when the key is descending. -/
def value (k : SortCompiler) (db : Database) (e : Entity) (key : SortKey) (x : StoredRow) : Cell :=
  if k.crossesMany e key.path.relations then
    extremeCell key.descending ((k.cellsAlong db e key x).filter (!·.isNull))
  else (k.cellsAlong db e key x).headD .null

/-- What it means to be the value of a sort key for a row. On a path through a relation to many it
is an attribute that none along the path beats, null apart, and null when there is none. On another
path it is the attribute of the one row at its end, and null when there is no row. -/
def IsValue (k : SortCompiler) (db : Database) (e : Entity) (key : SortKey) (x : StoredRow)
    (v : Cell) : Prop :=
  if k.crossesMany e key.path.relations then
    (v ∈ k.cellsAlong db e key x ∧ v ≠ .null ∧
      ∀ c ∈ k.cellsAlong db e key x, c ≠ .null → v.NotBeaten key.descending c) ∨
    (v = .null ∧ ∀ c ∈ k.cellsAlong db e key x, c = .null)
  else k.cellsAlong db e key x = [v] ∨ (v = .null ∧ k.cellsAlong db e key x = [])

theorem crossesMany_cons {name : String} {rest : List String} {r : Relationship} {target : Entity}
    (hr : k.schema.related? e (k.naming.toStorage name) = some (r, target)) :
    k.crossesMany e (name :: rest) = (r.toMany || k.crossesMany target rest) := by
  rw [crossesMany, hr]

theorem crossesMany_of_crossesCollection? {names : List String} {b : Bool}
    (h : k.crossesCollection? e names = .ok b) : k.crossesMany e names = b := by
  induction names generalizing e with
  | nil =>
    cases h
    rfl
  | cons name rest ih =>
    cases b with
    | false =>
      obtain ⟨r, target, hr, hone, hrest⟩ := related?_of_not_crosses h
      rw [crossesMany_cons hr, hone, ih hrest]
      rfl
    | true =>
      obtain ⟨⟨r, target⟩, hr, h⟩ := bind_eq_ok.1 h
      rw [crossesMany_cons (e := e) (Reach.related?_eq_ok.1 hr)]
      cases hmany : r.toMany with
      | true => rfl
      | false =>
        simp only [hmany, Bool.false_eq_true, if_false] at h
        exact ih h

/-- A path of relations to one record leads to at most one row. -/
theorem length_rowsAlong_le_one (hone : db.ToOne k.schema) {names : List String}
    (he : e ∈ k.schema.entities) (hx : x ∈ db.rows e.table)
    (h : k.crossesMany e names = false) : (k.rowsAlong db e names x).length ≤ 1 := by
  induction names generalizing e x with
  | nil => simp [rowsAlong]
  | cons name rest ih =>
    cases hr : k.schema.related? e (k.naming.toStorage name) with
    | none => simp [rowsAlong, hr]
    | some found =>
      obtain ⟨r, target⟩ := found
      rw [crossesMany_cons hr, Bool.or_eq_false_iff] at h
      obtain ⟨hrel, htarget⟩ := Schema.related?_eq_some hr
      have hlen := hone e he r hrel h.1 target htarget x hx
      have hmem : ∀ z ∈ r.rowsFrom db target x, (k.rowsAlong db target rest z).length ≤ 1 :=
        fun z hz => ih (Schema.WellFormed.target_mem hr)
          (Relationship.mem_rows_of_mem_rowsFrom hz) h.2
      rw [rowsAlong_cons hr]
      generalize r.rowsFrom db target x = zs at hlen hmem ⊢
      rcases zs with _ | ⟨z, _ | ⟨z', more⟩⟩
      · exact Nat.zero_le 1
      · rw [List.flatMap_singleton]
        exact hmem z (List.mem_singleton_self z)
      · simp at hlen

theorem target_mem_of_target? {names : List String} {target : Entity}
    (he : e ∈ k.schema.entities) (h : k.target? e names = some target) :
    target ∈ k.schema.entities := by
  induction names generalizing e with
  | nil =>
    cases h
    exact he
  | cons name rest ih =>
    obtain ⟨⟨r, next⟩, hr, h⟩ := Option.bind_eq_some_iff.1 h
    exact ih (Schema.WellFormed.target_mem hr) h

theorem proper_cellsAlong (key : SortKey) (hproper : ∀ e ∈ k.schema.entities, db.Proper e)
    (he : e ∈ k.schema.entities) (hx : x ∈ db.rows e.table) :
    AllProper (k.cellsAlong db e key x) := by
  intro cell hcell
  unfold cellsAlong at hcell
  split at hcell
  · next c hc =>
    obtain ⟨target, htarget, -⟩ := Option.bind_eq_some_iff.1 hc
    obtain ⟨y, hy, rfl⟩ := List.mem_map.1 hcell
    exact (hproper target (target_mem_of_target? he htarget)).get
      (mem_rows_of_mem_rowsAlong htarget hx hy) _
  · cases hcell

/-- The value of a sort key is one that its path leads to. -/
theorem isValue_value (he : e ∈ k.schema.entities) (hone : db.ToOne k.schema)
    (hproper : ∀ e ∈ k.schema.entities, db.Proper e)
    (hx : x ∈ db.rows e.table) : k.IsValue db e key x (k.value db e key x) := by
  unfold IsValue value
  cases hmany : k.crossesMany e key.path.relations with
  | true =>
    rw [if_pos rfl, if_pos rfl]
    set present := (k.cellsAlong db e key x).filter (!·.isNull) with hpresent
    have hmem : ∀ c, c ∈ present ↔ c ∈ k.cellsAlong db e key x ∧ c ≠ .null := by
      intro c
      simp [hpresent, Cell.isNull_eq_false_iff]
    by_cases hnil : present = []
    · right
      rw [hnil]
      refine ⟨rfl, fun c hc => ?_⟩
      by_contra hnull
      have := (hmem c).2 ⟨hc, hnull⟩
      rw [hnil] at this
      cases this
    · have hp : AllProper present := fun c hc =>
        proper_cellsAlong key hproper he hx c ((hmem c).1 hc).1
      obtain ⟨hin, hleast⟩ := extremeCell_spec key.descending hnil hp
      exact .inl ⟨((hmem _).1 hin).1, ((hmem _).1 hin).2,
        fun c hc hnull => hleast c ((hmem c).2 ⟨hc, hnull⟩)⟩
  | false =>
    rw [if_neg (by decide), if_neg (by decide)]
    have hlen : (k.cellsAlong db e key x).length ≤ 1 := by
      unfold cellsAlong
      split
      · rw [List.length_map]
        exact length_rowsAlong_le_one hone he hx hmany
      · simp
    generalize k.cellsAlong db e key x = cells at hlen ⊢
    rcases cells with _ | ⟨c, _ | ⟨c', more⟩⟩
    · exact .inr ⟨rfl, rfl⟩
    · exact .inl rfl
    · simp at hlen

theorem proper_value (key : SortKey) (hproper : ∀ e ∈ k.schema.entities, db.Proper e)
    (he : e ∈ k.schema.entities) (hx : x ∈ db.rows e.table) :
    (k.value db e key x).IsProper := by
  have hcells := proper_cellsAlong key hproper he hx
  unfold value
  split
  · have hp : AllProper ((k.cellsAlong db e key x).filter (!·.isNull)) := fun c hc =>
      hcells c (List.mem_of_mem_filter hc)
    by_cases hnil : (k.cellsAlong db e key x).filter (!·.isNull) = []
    · rw [hnil]
      exact Cell.noConfusion
    · exact hp _ (extremeCell_spec _ hnil hp).1
  · rcases hlist : k.cellsAlong db e key x with _ | ⟨c, more⟩
    · exact Cell.noConfusion
    · exact hcells c (hlist ▸ List.mem_cons_self ..)

/-! ## The order of two rows -/

/-- The order that a sort key makes of two rows. -/
def order (k : SortCompiler) (db : Database) (e : Entity) (key : SortKey) (x y : StoredRow) :
    Ordering :=
  let o := Cell.order (k.value db e key x) (k.value db e key y)
  if key.descending then o.swap else o

/-- Whether sort keys leave a row in front of another one: the first key that tells them apart puts
it before the other. -/
def NotAfter (k : SortCompiler) (db : Database) (e : Entity) :
    List SortKey → StoredRow → StoredRow → Prop
  | [], _, _ => True
  | key :: rest, x, y =>
    k.order db e key x y = .lt ∨ (k.order db e key x y = .eq ∧ k.NotAfter db e rest x y)

/-- The order of the rows is that of the lists of their values. -/
theorem notAfter_iff {keys : List SortKey} :
    k.NotAfter db e keys x y ↔ keysOrder ((keys.map (·.descending)).zip
      ((keys.map (k.value db e · x)).zip (keys.map (k.value db e · y)))) ≠ .gt := by
  induction keys with
  | nil => simp [NotAfter, keysOrder]
  | cons key rest ih =>
    rw [NotAfter, ih]
    simp only [List.map_cons, List.zip_cons_cons, keysOrder, order]
    cases (if key.descending then (Cell.order (k.value db e key x) (k.value db e key y)).swap
      else Cell.order (k.value db e key x) (k.value db e key y)) <;> simp [Ordering.then]

/-- Null comes before every value, and after it when the key is descending. -/
theorem order_of_null (hx : k.value db e key x = .null) (hy : k.value db e key y ≠ .null) :
    k.order db e key x y = if key.descending then .gt else .lt := by
  rw [order, hx, Cell.order_null_left hy]
  cases key.descending <;> rfl

theorem order_flip (hone : k.crossesMany e key.path.relations = false) :
    k.order db e key.flip x y = k.order db e key y x := by
  have hvalue : ∀ z, k.value db e key.flip z = k.value db e key z := by
    intro z
    have hone' : k.crossesMany e key.flip.path.relations = false := hone
    rw [value, value, hone, hone']
    rfl
  rw [order, order, hvalue, hvalue, Cell.order_swap (k.value db e key x)]
  cases hd : key.descending <;> simp [SortKey.flip, hd]

/-- Turning around all keys without a relation to many turns the order of rows around. -/
theorem notAfter_flip {keys : List SortKey}
    (hone : ∀ key ∈ keys, k.crossesMany e key.path.relations = false) :
    k.NotAfter db e (keys.map SortKey.flip) x y ↔ k.NotAfter db e keys y x := by
  induction keys with
  | nil => rfl
  | cons key rest ih =>
    rw [List.forall_mem_cons] at hone
    rw [List.map_cons, NotAfter, NotAfter, order_flip hone.1, ih hone.2]

end SortCompiler

end ResourceQuery
