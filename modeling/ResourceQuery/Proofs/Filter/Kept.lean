import ResourceQuery.Proofs.Filter.Meaning
import ResourceQuery.Proofs.Statement.Frames

/-!
# The rows that a filter keeps

A filter keeps the rows that satisfy its clauses, each as often as it is there without the filter,
whatever the order of the clauses.

This needs every `like` to end in a column. A `like` on a relation is compiled, to a comparison of
the columns of the link, which reads the related table beside that of the entity: rows of the
entity then come back once for every related row that the comparison is true of.
-/

namespace ResourceQuery

namespace FilterCompiler

/-- The clauses of a filter with the paths that lead to their fields. -/
def entriesOf (clauses : List FilterClause) : List FilterEntry :=
  clauses.map fun c => (c.path.relations, c)

variable {k : FilterCompiler} {db : Database} {e : Entity} {clauses clauses' : List FilterClause}
  {ps : List Predicate}

theorem filter?_eq_ok : k.filter? e clauses = .ok ps ↔
    clauses = [] ∧ ps = [] ∨ clauses ≠ [] ∧ ∃ conditions,
      k.conditions? (Part.depth (entriesOf clauses)) e.reach [] (entriesOf clauses) =
        .ok conditions ∧ ps = [(Predicate.allOf conditions).simplified] := by
  unfold filter?
  cases clauses with
  | nil => simp [eq_comm]
  | cons c rest =>
    simp only [List.isEmpty_cons, Bool.false_eq_true, if_false, bind_eq_ok, reduceCtorEq,
      false_and, ne_eq, not_false_eq_true, true_and, false_or]
    refine exists_congr fun conditions => and_congr_right fun _ => ?_
    rw [Except.ok.injEq, eq_comm]

/-- The conditions of a filter lose nothing in their alternatives when they are simplified. -/
theorem keepsAlternatives_conditions? {depth : Nat} {r : Reach} {path : List String}
    {entries : List FilterEntry} (h : k.conditions? depth r path entries = .ok ps) :
    ∀ p ∈ ps, p.KeepsAlternatives := by
  induction depth generalizing r path entries ps with
  | zero => cases h; simp
  | succ depth ih =>
    obtain ⟨-, hparts⟩ := conditions?_eq_ok.1 h
    rw [forall_of_mapM_eq_ok hparts]
    rintro (c | name) - p hp
    · exact (combined_clause? hp).keepsAlternatives
    · obtain ⟨relationship, target, criteria, -, hcriteria, rfl⟩ := part?_relation_eq_ok.1 hp
      exact Predicate.keepsAlternatives_allOf (ih hcriteria)

/-- The conditions of a filter decide its rows by the meaning of its clauses. -/
theorem decides_filter? (db : Database) (hs : k.schema.WellFormed) (he : e ∈ k.schema.entities)
    (hends : k.EndInColumns e (entriesOf clauses)) (h : k.filter? e clauses = .ok ps) :
    Decides db e.reach.source ps (k.satisfies db e (entriesOf clauses) · = true) := by
  rcases filter?_eq_ok.1 h with ⟨rfl, rfl⟩ | ⟨-, conditions, hconditions, rfl⟩
  · refine ⟨by simp, fun f x _ => ?_⟩
    have : k.satisfies db e (entriesOf []) x = true :=
      satisfies_iff.2 ⟨by simp [entriesOf, Part.localClauses], by simp [entriesOf, Part.heads]⟩
    simpa using this
  · obtain ⟨hsources, hholds⟩ := decides_conditions? db hs (r := e.reach) he
      ⟨rfl, .inl rfl⟩ (Nat.le_refl _) hends hconditions
    have hkept := Predicate.keepsAlternatives_allOf (keepsAlternatives_conditions? hconditions)
    refine decides_singleton.2 ⟨List.Subset.trans (Predicate.sources_simplified_subset _) ?_,
      fun f x hx => ?_⟩
    · rw [Predicate.sources_allOf]
      exact Predicate.flatMap_sources_subset hsources
    · rw [Predicate.holds, Predicate.truth_simplified hkept, ← Predicate.holds,
        Predicate.holds_allOf]
      exact hholds f x hx

/-! ## The order of the clauses -/

theorem exists_conditions?_perm {depth : Nat} {r : Reach} {path : List String}
    {entries entries' : List FilterEntry} (hperm : entries.Perm entries')
    (h : ∃ ps, k.conditions? depth r path entries = .ok ps) :
    ∃ ps, k.conditions? depth r path entries' = .ok ps := by
  induction depth generalizing r path entries entries' with
  | zero => exact ⟨[], rfl⟩
  | succ depth ih =>
    simp only [conditions?_eq_ok, exists_and_left, exists_mapM_eq_ok, Part.forall_ofEntries] at h ⊢
    obtain ⟨hfields, hfields', hrelations⟩ := h
    have hmem : ∀ c ∈ Part.localClauses entries', c ∈ Part.localClauses entries := fun c hc =>
      (Part.localClauses_perm hperm).mem_iff.2 hc
    refine ⟨fun c hc => hfields c (hmem c hc), fun c hc => hfields' c (hmem c hc), ?_⟩
    intro name hname
    obtain ⟨p, hp⟩ := hrelations name ((Part.heads_perm hperm).mem_iff.2 hname)
    obtain ⟨relationship, target, criteria, hfound, hcriteria, -⟩ := part?_relation_eq_ok.1 hp
    obtain ⟨criteria', hcriteria'⟩ := ih (Part.behind_perm name hperm) ⟨criteria, hcriteria⟩
    exact ⟨_, part?_relation_eq_ok.2 ⟨relationship, target, criteria', hfound, hcriteria', rfl⟩⟩

theorem entriesOf_perm (h : clauses.Perm clauses') :
    (entriesOf clauses).Perm (entriesOf clauses') := h.map _

theorem exists_filter?_perm (hperm : clauses.Perm clauses') (h : k.filter? e clauses = .ok ps) :
    ∃ ps', k.filter? e clauses' = .ok ps' := by
  rcases filter?_eq_ok.1 h with ⟨rfl, rfl⟩ | ⟨hne, conditions, hconditions, rfl⟩
  · rw [List.nil_perm.1 hperm]
    exact ⟨[], rfl⟩
  · have hne' : clauses' ≠ [] := by
      rintro rfl
      exact hne hperm.eq_nil
    obtain ⟨conditions', h'⟩ := exists_conditions?_perm (entriesOf_perm hperm) ⟨_, hconditions⟩
    rw [Part.depth_perm (entriesOf_perm hperm)] at h'
    exact ⟨_, filter?_eq_ok.2 (.inr ⟨hne', conditions', h', rfl⟩)⟩

theorem EndInColumns.perm (h : k.EndInColumns e (entriesOf clauses))
    (hperm : clauses.Perm clauses') : k.EndInColumns e (entriesOf clauses') :=
  fun entry hentry => h entry ((entriesOf_perm hperm).mem_iff.2 hentry)

/-! ## The rows that are kept -/

/-- The rows of the records of an entity that satisfy the clauses of a filter. -/
theorem rows_filtered (db : Database) (hs : k.schema.WellFormed) (he : e ∈ k.schema.entities)
    (hends : k.EndInColumns e (entriesOf clauses)) (h : k.filter? e clauses = .ok ps) :
    ((Statement.all e).filtered ps).rows db =
      ((db.rows e.table).filter (k.satisfies db e (entriesOf clauses))).map
        fun x => .record (some x) := by
  have hcolumns := (hs.entities e he).columns_ne_nil
  obtain ⟨hsources, hholds⟩ := decides_filter? db hs he hends h
  have hread : ∀ p ∈ ps, p.sources ⊆ (Statement.all e).sources := by
    intro p hp t ht
    rw [Statement.sources, Statement.chains_all hcolumns]
    simpa [Chain.sources] using hsources p hp ht
  rw [Statement.rows_records rfl rfl rfl, Statement.frames_filtered hread,
    Statement.frames_all hcolumns, List.filter_map, List.map_map]
  have hkept : ∀ x : StoredRow, (ps.all (·.holds db [(e.reach.source, some x)])) =
      k.satisfies db e (entriesOf clauses) x := by
    intro x
    rw [Bool.eq_iff_iff, List.all_eq_true]
    exact hholds _ x (Frame.row?_cons_self ..)
  simp only [Function.comp_def, hkept]
  exact List.map_congr_left fun x _ => congrArg _ (Frame.row?_cons_self ..)

/-- **The meaning of a filter.** Its conditions hold of a row exactly when the row satisfies the
clauses; the records it keeps are those rows in their order; it multiplies the frames of no
statement that reads the entity; and the clauses in any other order keep the same records. -/
theorem kept_iff_satisfies (hs : k.schema.WellFormed) (he : e ∈ k.schema.entities)
    (hends : k.EndInColumns e (entriesOf clauses)) (h : k.filter? e clauses = .ok ps) :
    (∀ f x, Frame.row? f e.reach.source = some x →
      ((∀ p ∈ ps, p.truth db f = some true) ↔ k.satisfies db e (entriesOf clauses) x = true)) ∧
    ((Statement.all e).filtered ps).rows db =
      ((db.rows e.table).filter (k.satisfies db e (entriesOf clauses))).map
        (fun x => .record (some x)) ∧
    (∀ s : Statement, e.reach.source ∈ s.sources →
      ((s.filtered ps).frames db).Sublist (s.frames db)) ∧
    ∀ clauses', clauses.Perm clauses' → ∃ ps', k.filter? e clauses' = .ok ps' ∧
      ((Statement.all e).filtered ps').rows db = ((Statement.all e).filtered ps).rows db := by
  obtain ⟨hsources, hholds⟩ := decides_filter? db hs he hends h
  have hrows := rows_filtered db hs he hends h
  refine ⟨fun f x hx => ?_, hrows, fun s hread => ?_, fun clauses' hperm => ?_⟩
  · simpa [Predicate.holds_iff] using hholds f x hx
  · rw [Statement.frames_filtered fun p hp t ht => by
      rwa [List.mem_singleton.1 (hsources p hp ht)]]
    exact List.filter_sublist
  · obtain ⟨ps', h'⟩ := exists_filter?_perm hperm h
    have hsame : k.satisfies db e (entriesOf clauses) = k.satisfies db e (entriesOf clauses') :=
      funext fun x => satisfies_perm (entriesOf_perm hperm)
    exact ⟨ps', h', by rw [rows_filtered db hs he (hends.perm hperm) h', hrows, hsame]⟩

end FilterCompiler

namespace Sample

/-- The compiler of filters of the sample entities. -/
def filters : FilterCompiler := ⟨schema, .identity, .standard⟩

/-- People with a pet named Grover whose number is not 1, and a first name with `ar`. -/
def petClauses : List FilterClause := [
  ⟨.eq, ⟨["pets"], "name"⟩, [.text "Grover"]⟩,
  ⟨.like, ⟨[], "first_name"⟩, [.text "ar"]⟩,
  ⟨.not, ⟨["pets"], "id"⟩, [.text "1"]⟩]

theorem kept_petClauses : ∃ ps, filters.filter? person petClauses = .ok ps ∧
    ((Statement.all person).filtered ps).rows database =
      ((database.rows "person").filter
        (filters.satisfies database person (FilterCompiler.entriesOf petClauses))).map
          fun x => .record (some x) :=
  ⟨_, rfl, (FilterCompiler.kept_iff_satisfies schema_wellFormed (by decide) (by decide) rfl).2.1⟩

/-- The condition that a filter by `like` on the pets of people compiles to. -/
def petsContain (fragment : String) : Predicate :=
  .contains (.linked [⟨⟨person.reach.source, "id", .integer⟩,
    ⟨pet.reach.source, "pet_owner_id", .integer⟩⟩]) true fragment

/-- A `like` on a relation brings rows of the entity back more often than they are there. -/
theorem like_on_relation_repeats_rows :
    ¬ ∀ clauses ps, (∀ c ∈ clauses, c.values ≠ []) → filters.filter? person clauses = .ok ps →
      (((Statement.all person).filtered ps).frames database).Sublist
        ((Statement.all person).frames database) := by
  intro h
  have hrows := h [⟨.like, ⟨[], "pets"⟩, [.text "1"]⟩] [petsContain "1"] (by decide) rfl
  exact absurd hrows (by decide +kernel)

end Sample

end ResourceQuery
