import ResourceQuery.Proofs.Sort.Frames

/-!
# Rows along a path

The rows that a path of relations leads to, said without sources and frames, and how the two ways of
reading a path compare with them: the outer joins of a path of relations to one record, and the
inner steps of a subquery.

* `SortCompiler.rowsAlong`: the rows that a path leads to from a row;
* `SortCompiler.Traced.toList_row?`: a joined path shows the row that it leads to;
* `innerFrames`, `SortCompiler.map_row?_innerFrames`: the steps of a subquery show all rows that
  its path leads to, in their order.
-/

namespace ResourceQuery

open Text

namespace SortCompiler

variable {k : SortCompiler} {e : Entity} {db : Database}

/-- The rows that a path of relations leads to from a row of an entity. A row that several ways
lead to is there as often. -/
def rowsAlong (k : SortCompiler) (db : Database) (e : Entity) :
    List String → StoredRow → List StoredRow
  | [], x => [x]
  | name :: rest, x =>
    match k.schema.related? e (k.naming.toStorage name) with
    | some (r, target) => (r.rowsFrom db target x).flatMap (k.rowsAlong db target rest)
    | none => []

theorem rowsAlong_cons {name : String} {rest : List String} {r : Relationship} {target : Entity}
    (hr : k.schema.related? e (k.naming.toStorage name) = some (r, target)) (x : StoredRow) :
    k.rowsAlong db e (name :: rest) x =
      (r.rowsFrom db target x).flatMap (k.rowsAlong db target rest) := by
  rw [rowsAlong, hr]

theorem rowsAlong_append {names rest : List String} {current : Entity}
    (h : k.target? e names = some current) (x : StoredRow) :
    k.rowsAlong db e (names ++ rest) x =
      (k.rowsAlong db e names x).flatMap (k.rowsAlong db current rest) := by
  induction names generalizing e x with
  | nil =>
    cases h
    simp [rowsAlong]
  | cons name names ih =>
    obtain ⟨⟨r, target⟩, hr, h⟩ := Option.bind_eq_some_iff.1 h
    rw [List.cons_append, rowsAlong_cons hr, rowsAlong_cons hr, List.flatMap_assoc]
    apply List.flatMap_congr
    intro y _
    exact ih h y

/-- The rows along a path are rows of the entity that it leads to. -/
theorem mem_rows_of_mem_rowsAlong {names : List String} {target : Entity}
    (h : k.target? e names = some target) {x y : StoredRow} (hx : x ∈ db.rows e.table)
    (hy : y ∈ k.rowsAlong db e names x) : y ∈ db.rows target.table := by
  induction names generalizing e x with
  | nil =>
    cases h
    exact List.mem_singleton.1 hy ▸ hx
  | cons name names ih =>
    obtain ⟨⟨r, next⟩, hr, h⟩ := Option.bind_eq_some_iff.1 h
    rw [rowsAlong_cons hr] at hy
    obtain ⟨z, hz, hy⟩ := List.mem_flatMap.1 hy
    exact ih h (Relationship.mem_rows_of_mem_rowsFrom hz) hy

/-! ## Joined paths -/

/-- A joined path shows the row that it leads to, or none when it leads to none. -/
theorem Traced.toList_row? {c : JoinCache} {joins : List Join} (h : Traced k e c joins)
    (hs : k.schema.WellFormed) (he : e ∈ k.schema.entities) (hone : db.ToOne k.schema)
    {x : StoredRow} (hx : x ∈ db.rows e.table) {f : Frame}
    (hf : joinFrames db joins [(e.reach.source, some x)] = [f]) {names : List String} {r : Reach}
    (hends : c.EndsAt e names r) (hplain : ∀ name ∈ names, IsPlain name) :
    (f.row? r.source).toList = k.rowsAlong db e names x := by
  induction h generalizing f names r with
  | none =>
    obtain rfl := List.singleton_inj.1 hf
    rcases hends with ⟨rfl, rfl⟩ | ⟨-, hmem⟩
    · rw [Frame.row?_cons_self]
      rfl
    · cases hmem
  | @join c joins current names' name path rel target before hcurrent hleads hr htoOne hplain'
      hname hpath ih =>
    obtain ⟨f', hf', hroot, hreadings⟩ := before.joined.joinFrames_eq_singleton hs he hone hx
    have hcurrent' : current = e.reach ∨ ∃ path, (path, current) ∈ c.readings :=
      hcurrent.imp And.right fun h => ⟨_, h.2⟩
    have hrow : ∀ y, f'.row? current.source = some y → y ∈ db.rows current.entity.table := by
      rcases hcurrent' with rfl | ⟨path', hmem⟩
      · intro y hy
        rw [hroot] at hy
        exact Option.some.inj hy ▸ hx
      · exact hreadings _ hmem
    obtain ⟨g, hg, hfar, hkept⟩ :=
      before.joined.outer_join_eq_singleton hs he hone hcurrent' hr htoOne hpath hrow
    obtain rfl : g = f := by
      rw [joinFrames_snoc, hf', List.flatMap_singleton, hg] at hf
      exact List.singleton_inj.1 hf
    rcases hends with ⟨rfl, rfl⟩ | ⟨hne, hmem⟩
    · rw [hkept _ (by simp [Entity.reach]) (by simp [Entity.reach])]
      exact ih hf' (.inl ⟨rfl, rfl⟩) hplain
    · rcases List.mem_append.1 hmem with hmem | hmem
      · have hold := JoinCache.ne_of_get?_eq_none hpath hmem
        have hreading : r.source.reading = .joined (joinWith '.' names) :=
          congrArg Source.reading (before.joined.source_eq hmem)
        rw [hkept _ (by simpa [hreading] using hold) (by simp [hreading])]
        exact ih hf' (.inr ⟨hne, hmem⟩) hplain
      · -- the new path is the old one with a relation more
        obtain ⟨htext, rfl⟩ := Prod.mk.inj (List.mem_singleton.1 hmem)
        obtain rfl := joinWith_inj hne (by simp) hplain hplain' (htext.trans hname)
        rw [hfar, ih hf' hcurrent fun n hn => hplain n (List.mem_append_left _ hn),
          rowsAlong_append hleads.target?_eq]
        apply List.flatMap_congr
        intro y _
        rw [rowsAlong_cons hr]
        exact (List.flatMap_singleton' _).symm

end SortCompiler

/-! ## The steps of a subquery -/

/-- The frames that inner steps make of one frame. -/
def innerFrames (db : Database) (hops : List Hop) (f : Frame) : List Frame :=
  hops.foldl (fun frames h => frames.flatMap (h.inner db)) [f]

theorem innerFrames_cons (db : Database) (h : Hop) (hops : List Hop) (f : Frame) :
    innerFrames db (h :: hops) f = (h.inner db f).flatMap (innerFrames db hops) := by
  rw [innerFrames, List.foldl_cons, List.flatMap_singleton]
  exact foldl_flatMap (fun h => h.inner db) hops _

theorem exists_of_mem_inner {db : Database} {h : Hop} {f g : Frame} (hg : g ∈ h.inner db f) :
    ∃ p : Frame, g = p ++ f ∧ p.sources ⊆ h.sources := by
  obtain ⟨p, rfl, hp⟩ := exists_of_mem_extend (List.mem_of_mem_filter hg)
  exact ⟨p, rfl, fun s hs => by rwa [hp, List.mem_reverse] at hs⟩

/-- Inner steps put rows of their own sources in front of a frame. -/
theorem exists_of_mem_innerFrames {db : Database} {hops : List Hop} {f g : Frame}
    (hg : g ∈ innerFrames db hops f) :
    ∃ p : Frame, g = p ++ f ∧ p.sources ⊆ hops.flatMap (·.sources) := by
  have hsteps : ∀ (h : Hop) (f g : Frame), g ∈ h.inner db f →
      ∃ p : Frame, g = p ++ f ∧ p.sources ⊆ h.sources := fun _ _ _ => exists_of_mem_inner
  exact exists_of_mem_foldl hsteps hops hg

namespace SortCompiler

variable {k : SortCompiler}

/-- What the steps of a subquery are: one for every relation of the path, and behind the reading
that it starts from. -/
theorem hops?_cons_eq_ok {index depth : Nat} {current last : Reach} {name : String}
    {rest : List String} {hops : List Hop} :
    k.hops? index depth current (name :: rest) = .ok (hops, last) ↔
      ∃ r target more,
        k.schema.related? current.entity (k.naming.toStorage name) = some (r, target) ∧
        k.hops? index (depth + 1) (target.reachAs (.hop index (depth + 1))) rest =
          .ok (more, last) ∧
        hops = r.hop current (target.reachAs (.hop index (depth + 1)))
          (.hopLink index (depth + 1)) :: more := by
  simp only [hops?, bind_eq_ok, Reach.related?_eq_ok, Prod.exists, Except.ok.injEq,
    Prod.mk.injEq]
  constructor
  · rintro ⟨r, target, hr, more, last', hmore, rfl, rfl⟩
    exact ⟨r, target, more, hr, hmore, rfl⟩
  · rintro ⟨r, target, more, hr, hmore, rfl⟩
    exact ⟨r, target, hr, more, last, hmore, rfl, rfl⟩

theorem target?_of_hops? {names : List String} {index depth : Nat} {current last : Reach}
    {hops : List Hop} (h : k.hops? index depth current names = .ok (hops, last)) :
    k.target? current.entity names = some last.entity := by
  induction names generalizing depth current hops with
  | nil =>
    cases h
    rfl
  | cons name rest ih =>
    obtain ⟨r, target, more, hr, hmore, -⟩ := hops?_cons_eq_ok.1 h
    rw [target?_cons hr]
    exact ih hmore

/-- The reading at the end of a path is the last one that its steps bring in. -/
theorem source_mem_of_hops? {names : List String} {index depth : Nat} {current last : Reach}
    {hops : List Hop} (h : k.hops? index depth current names = .ok (hops, last)) :
    last.source ∈ current.source :: hops.flatMap (·.sources) := by
  induction names generalizing depth current hops with
  | nil =>
    cases h
    exact List.mem_cons_self ..
  | cons name rest ih =>
    obtain ⟨r, target, more, -, hmore, rfl⟩ := hops?_cons_eq_ok.1 h
    rw [List.flatMap_cons, Relationship.sources_hop]
    rcases List.mem_cons.1 (ih hmore) with hlast | hlast
    · rw [hlast]
      exact List.mem_cons_of_mem _ (List.mem_append_left _ (List.mem_cons_self ..))
    · exact List.mem_cons_of_mem _ (List.mem_append_right _ hlast)

/-- The steps of a subquery bring in readings of their own. -/
theorem reading_of_mem_hops? {names : List String} {index depth : Nat} {current last : Reach}
    {hops : List Hop} (h : k.hops? index depth current names = .ok (hops, last)) {t : Source}
    (ht : t ∈ hops.flatMap (·.sources)) :
    ∃ n > depth, t.reading = .hop index n ∨ t.reading = .hopLink index n := by
  induction names generalizing depth current hops with
  | nil =>
    cases h
    cases ht
  | cons name rest ih =>
    obtain ⟨r, target, more, -, hmore, rfl⟩ := hops?_cons_eq_ok.1 h
    rw [List.flatMap_cons, Relationship.sources_hop, List.mem_append, List.mem_cons] at ht
    rcases ht with (rfl | ht) | ht
    · exact ⟨depth + 1, by omega, .inl rfl⟩
    · cases hl : r.link with
      | direct pairs farFirst => simp [hl] at ht
      | through table fromNear fromFar =>
        obtain rfl : t = ⟨table, .hopLink index (depth + 1)⟩ := by simpa [hl] using ht
        exact ⟨depth + 1, by omega, .inr rfl⟩
    · obtain ⟨n, hn, hreading⟩ := ih hmore ht
      exact ⟨n, by omega, hreading⟩

/-- The steps of a subquery show the rows along its path. -/
theorem map_row?_innerFrames (db : Database) {names : List String} {index depth : Nat}
    {current last : Reach} {hops : List Hop}
    (h : k.hops? index depth current names = .ok (hops, last))
    (hcurrent : current.source.reading = .hop index depth) {f : Frame} {x : StoredRow}
    (hx : f.row? current.source = some x) :
    (innerFrames db hops f).map (·.row? last.source) =
      (k.rowsAlong db current.entity names x).map some := by
  induction names generalizing depth current hops f x with
  | nil =>
    cases h
    rw [innerFrames, List.foldl_nil, List.map_singleton, hx]
    rfl
  | cons name rest ih =>
    obtain ⟨r, target, more, hr, hmore, rfl⟩ := hops?_cons_eq_ok.1 h
    set far := target.reachAs (.hop index (depth + 1)) with hfar
    have apart : r.StepsApart current.source far.source (.hopLink index (depth + 1)) := by
      refine ⟨fun heq => ?_, fun table _ => ⟨fun heq => ?_, fun heq => ?_⟩⟩
      · rw [← heq, hfar] at hcurrent
        simp [Entity.reachAs] at hcurrent
      · rw [← heq] at hcurrent
        cases hcurrent
      · cases congrArg Source.reading heq
    have hstep : ((r.hop current far (.hopLink index (depth + 1))).inner db f).map
        (·.row? far.source) = (r.rowsFrom db target x).map some :=
      Relationship.map_row?_inner_hop db hx rfl apart
    have hrest : ∀ g ∈ (r.hop current far (.hopLink index (depth + 1))).inner db f,
        (innerFrames db more g).map (·.row? last.source) =
          ((g.row? far.source).toList.flatMap (k.rowsAlong db target rest)).map some := by
      intro g hg
      have hmem := List.mem_map_of_mem (f := (·.row? far.source)) hg
      rw [hstep] at hmem
      obtain ⟨y, -, hy⟩ := List.mem_map.1 hmem
      rw [ih hmore rfl hy.symm, ← hy, Option.toList_some, List.flatMap_singleton]
      rfl
    calc (innerFrames db (r.hop current far _ :: more) f).map (·.row? last.source)
      _ = ((r.hop current far _).inner db f).flatMap fun g =>
            ((g.row? far.source).toList.flatMap (k.rowsAlong db target rest)).map some := by
          rw [innerFrames_cons, List.map_flatMap, List.flatMap_congr hrest]
      _ = (((r.hop current far _).inner db f).map (·.row? far.source)).flatMap fun y? =>
            (y?.toList.flatMap (k.rowsAlong db target rest)).map some := by
          rw [List.flatMap_map]
      _ = (k.rowsAlong db current.entity (name :: rest) x).map some := by
          rw [hstep, rowsAlong_cons hr]
          simp only [List.flatMap_map, List.map_flatMap, Option.toList_some,
            List.flatMap_singleton]

end SortCompiler

end ResourceQuery
