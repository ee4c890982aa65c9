import ResourceQuery.Proofs.Filter.Mentions
import ResourceQuery.Proofs.Sort.Joins

/-!
# Frames with joins

What the outer joins of sort keys do to the frames of a statement: nothing is lost, and where
relations to one record lead to at most one row nothing is multiplied either.

* `Joined.chains_eq`: the joins are one chain from the entity on;
* `joinFrames`: the frames that joins make of one frame;
* `joinFrames_ne_nil`, `Joined.joinFrames_eq_singleton`: there is at least one of them, and there
  is just one when relations to one record lead to at most one row.
-/

namespace ResourceQuery

/-! ## Outer steps -/

theorem Relationship.mem_rows_of_mem_rowsFrom {db : Database} {r : Relationship} {target : Entity}
    {x y : StoredRow} (h : y ∈ r.rowsFrom db target x) : y ∈ db.rows target.table := by
  unfold Relationship.rowsFrom at h
  split at h
  · exact List.mem_of_mem_filter h
  · obtain ⟨z, hz, hy⟩ := List.mem_flatMap.1 h
    obtain ⟨l, -, rfl⟩ := List.mem_map.1 hy
    exact hz

theorem Hop.outer_ne_nil (db : Database) (h : Hop) (f : Frame) : h.outer db f ≠ [] := by
  unfold Hop.outer
  split
  · simp
  · next hne => exact hne

/-- An outer step by a relation that leads to at most one row makes one frame of one, with the row
that the relation leads to. -/
theorem Relationship.outer_hop_eq_singleton (db : Database) {r : Relationship} {near : Reach}
    (far : Reach) {link : Instance} (f : Frame) (hfar : far.source.table = far.entity.table)
    (apart : r.StepsApart near.source far.source link) (hlinked : r.link.IsLinked)
    (hone : ∀ x, f.row? near.source = some x → (r.rowsFrom db far.entity x).length ≤ 1) :
    ∃ g, (r.hop near far link).outer db f = [g] ∧ (Frame.row? g far.source).toList =
      (f.row? near.source).toList.flatMap (r.rowsFrom db far.entity) := by
  have hnone : ∀ f : Frame, Frame.row? (((r.hop near far link).sources.map (·, none)) ++ f)
      far.source = none := by
    intro f
    rw [sources_hop, List.map_cons, List.cons_append, Frame.row?_cons_self]
  cases hx : f.row? near.source with
  | none =>
    refine ⟨_, by rw [Hop.outer, inner_hop_of_no_row hx apart hlinked], ?_⟩
    rw [hnone]
    rfl
  | some x =>
    have hinner := map_row?_inner_hop db hx hfar apart
    rw [Option.toList_some, List.flatMap_singleton]
    have hone := hone x hx
    rcases hframes : (r.hop near far link).inner db f with _ | ⟨g, _ | ⟨g', rest⟩⟩
    · refine ⟨_, by rw [Hop.outer, hframes], ?_⟩
      rw [hframes, List.map_nil, eq_comm, List.map_eq_nil_iff] at hinner
      rw [hnone, hinner]
      rfl
    · refine ⟨g, by rw [Hop.outer, hframes], ?_⟩
      rw [hframes, List.map_singleton, eq_comm, List.map_eq_singleton_iff] at hinner
      obtain ⟨y, hy, hrow⟩ := hinner
      rw [← hrow, hy]
      rfl
    · have hlen := congrArg List.length hinner
      rw [hframes, List.length_map, List.length_map, List.length_cons, List.length_cons] at hlen
      omega

/-! ## Joins -/

/-- The frames that joins make of one frame. -/
def joinFrames (db : Database) (joins : List Join) (f : Frame) : List Frame :=
  joins.foldl (fun frames j => frames.flatMap (j.hop.outer db)) [f]

theorem joinFrames_snoc (db : Database) (joins : List Join) (j : Join) (f : Frame) :
    joinFrames db (joins ++ [j]) f = (joinFrames db joins f).flatMap (j.hop.outer db) := by
  simp [joinFrames]

/-- Joins take one frame after the other. -/
theorem foldl_outer_eq_flatMap (db : Database) (joins : List Join) (frames : List Frame) :
    (joins.map (·.hop)).foldl (fun frames h => frames.flatMap (h.outer db)) frames =
      frames.flatMap (joinFrames db joins) := by
  rw [List.foldl_map]
  exact foldl_flatMap (fun j => j.hop.outer db) joins frames

/-- Joins lose no frame. -/
theorem joinFrames_ne_nil (db : Database) (joins : List Join) (f : Frame) :
    joinFrames db joins f ≠ [] := by
  induction joins using List.reverseRecOn with
  | nil => simp [joinFrames]
  | append_singleton joins j ih =>
    obtain ⟨g, rest, hg⟩ := List.exists_cons_of_ne_nil ih
    rw [joinFrames_snoc, hg, List.flatMap_cons]
    simp [Hop.outer_ne_nil]

/-- Joins put rows of their own sources in front of a frame. -/
theorem exists_of_mem_joinFrames {db : Database} {joins : List Join} {f g : Frame}
    (hg : g ∈ joinFrames db joins f) :
    ∃ p : Frame, g = p ++ f ∧ p.sources ⊆ joins.flatMap (·.hop.sources) := by
  have hsteps : ∀ (j : Join) (f g : Frame), g ∈ j.hop.outer db f →
      ∃ p : Frame, g = p ++ f ∧ p.sources ⊆ j.hop.sources := fun _ _ _ => Hop.exists_of_mem_outer
  exact exists_of_mem_foldl hsteps joins hg

/-- The sources of a step to a joined reading are told by its path. -/
theorem Relationship.reading_of_mem_joined_hop {r : Relationship} {near : Reach}
    {target : Entity} {path : String} {t : Source}
    (ht : t ∈ (r.hop near (target.reachAs (.joined path)) (.joinedLink path)).sources) :
    t.reading = .joined path ∨ t.reading = .joinedLink path := by
  rw [sources_hop] at ht
  rcases List.mem_cons.1 ht with rfl | ht
  · exact .inl rfl
  · cases hl : r.link with
    | direct pairs farFirst => simp [hl] at ht
    | through table fromNear fromFar =>
      obtain rfl : t = ⟨table, .joinedLink path⟩ := by simpa [hl] using ht
      exact .inr rfl

namespace Joined

variable {s : Schema} {e : Entity} {c : JoinCache} {joins : List Join} {db : Database}

theorem source_eq (h : Joined s e c joins) {p : String × Reach} (hp : p ∈ c.readings) :
    p.2.source = ⟨p.2.entity.table, .joined p.1⟩ := by
  induction h with
  | none => cases hp
  | join before hcurrent hr hone hpath ih =>
    rcases List.mem_append.1 hp with hp | hp
    · exact ih hp
    · rw [List.mem_singleton.1 hp]
      rfl

theorem entity_mem (h : Joined s e c joins) {p : String × Reach}
    (hp : p ∈ c.readings) : p.2.entity ∈ s.entities := by
  induction h with
  | none => cases hp
  | join before hcurrent hr hone hpath ih =>
    rcases List.mem_append.1 hp with hp | hp
    · exact ih hp
    · rw [List.mem_singleton.1 hp]
      exact Schema.WellFormed.target_mem hr

theorem source_mem (h : Joined s e c joins) {p : String × Reach} (hp : p ∈ c.readings) :
    p.2.source ∈ joins.flatMap (·.hop.sources) := by
  induction h with
  | none => cases hp
  | join before hcurrent hr hone hpath ih =>
    rw [List.flatMap_append, List.mem_append]
    rcases List.mem_append.1 hp with hp | hp
    · exact .inl (ih hp)
    · rw [List.mem_singleton.1 hp, List.flatMap_singleton, Relationship.sources_hop]
      exact .inr (List.mem_cons_self ..)

/-- The joins are one chain from the entity on. -/
theorem chains_eq (h : Joined s e c joins) :
    joinedChains joins = if joins = [] then [] else [⟨e.reach.source, joins.map (·.hop)⟩] := by
  induction h with
  | none => rfl
  | @join c joins current name path r target before hcurrent hr hone hpath ih =>
    rw [joinedChains, List.foldl_append, ← joinedChains, ih]
    simp only [List.append_eq_nil_iff, List.cons_ne_nil, and_false, if_false, List.foldl_cons,
      List.foldl_nil]
    rcases hcurrent with rfl | ⟨path', hmem⟩
    · by_cases hjoins : joins = [] <;> simp [addJoin, Chain.sources, hjoins]
    · have hsource := before.source_mem hmem
      have hne : joins ≠ [] := by
        rintro rfl
        cases hsource
      have hsource' : current.source ∈
          Chain.sources ⟨e.reach.source, joins.map (·.hop)⟩ := by
        simp only [Chain.sources, List.flatMap_map]
        exact List.mem_cons_of_mem _ hsource
      simp [addJoin, hne, hsource']

theorem isUnjoined_eq_false (h : Joined s e c joins) {t : Source}
    (ht : t ∈ joins.flatMap (·.hop.sources)) : t.isUnjoined = false := by
  induction h with
  | none => cases ht
  | join before hcurrent hr hone hpath ih =>
    rw [List.flatMap_append, List.mem_append, List.flatMap_singleton] at ht
    rcases ht with ht | ht
    · exact ih ht
    · unfold Source.isUnjoined
      rcases Relationship.reading_of_mem_joined_hop ht with h | h <;> rw [h]

theorem stepsApart (h : Joined s e c joins) {current : Reach} {path : String}
    {r : Relationship} {target : Entity}
    (hcurrent : current = e.reach ∨ ∃ p, (p, current) ∈ c.readings)
    (hpath : c.get? path = Option.none) :
    r.StepsApart current.source (target.reachAs (.joined path)).source (.joinedLink path) := by
  have hreading : current.source.reading = .base ∨
      ∃ path', path' ≠ path ∧ current.source.reading = .joined path' := by
    rcases hcurrent with rfl | ⟨path', hmem⟩
    · exact .inl rfl
    · exact .inr ⟨path', JoinCache.ne_of_get?_eq_none hpath hmem, by rw [h.source_eq hmem]⟩
  refine ⟨fun hsource => ?_, fun table _ => ⟨fun hsource => ?_, fun hsource => ?_⟩⟩
  · rw [← hsource] at hreading
    rcases hreading with hbase | ⟨path', hne, hjoined⟩
    · cases hbase
    · cases hjoined
      exact hne rfl
  · rw [← hsource] at hreading
    rcases hreading with hbase | ⟨path', -, hjoined⟩
    · cases hbase
    · cases hjoined
  · cases congrArg Source.reading hsource

/-- What one more join does to the one frame of the joins before: it puts the row in front that the
relation leads to, and leaves the other ones. -/
theorem outer_join_eq_singleton (h : Joined s e c joins) (hs : s.WellFormed)
    (he : e ∈ s.entities) (hone : db.ToOne s) {current : Reach} {name path : String}
    {r : Relationship} {target : Entity}
    (hcurrent : current = e.reach ∨ ∃ path, (path, current) ∈ c.readings)
    (hr : s.related? current.entity name = some (r, target)) (htoOne : r.toMany = false)
    (hpath : c.get? path = Option.none) {f : Frame}
    (hrow : ∀ y, f.row? current.source = some y → y ∈ db.rows current.entity.table) :
    ∃ g, (r.hop current (target.reachAs (.joined path)) (.joinedLink path)).outer db f = [g] ∧
      (Frame.row? g (target.reachAs (.joined path)).source).toList =
        (f.row? current.source).toList.flatMap (r.rowsFrom db target) ∧
      ∀ t : Source, t.reading ≠ .joined path → t.reading ≠ .joinedLink path →
        Frame.row? g t = f.row? t := by
  have hmem : current.entity ∈ s.entities := by
    rcases hcurrent with rfl | ⟨path', hmem⟩
    · exact he
    · exact h.entity_mem hmem
  obtain ⟨g, hg, hfar⟩ := Relationship.outer_hop_eq_singleton db
    (target.reachAs (.joined path)) f rfl (h.stepsApart hcurrent hpath)
    (hs.relation hmem hr).isLinked fun y hy => by
      obtain ⟨hrel, htarget⟩ := Schema.related?_eq_some hr
      exact hone _ hmem r hrel htoOne target htarget y (hrow y hy)
  obtain ⟨p, rfl, hp⟩ := Hop.exists_of_mem_outer (hg ▸ List.mem_singleton_self g)
  refine ⟨_, hg, hfar, fun t ht ht' => Frame.row?_append_of_not_mem (fun hmem => ?_) f⟩
  exact (Relationship.reading_of_mem_joined_hop (hp hmem)).elim ht ht'

/-- Where relations to one record lead to at most one row, joins make one frame of every row of the
entity. -/
theorem joinFrames_eq_singleton (h : Joined s e c joins) (hs : s.WellFormed)
    (he : e ∈ s.entities) (hone : db.ToOne s) {x : StoredRow} (hx : x ∈ db.rows e.table) :
    ∃ f, joinFrames db joins [(e.reach.source, some x)] = [f] ∧
      f.row? e.reach.source = some x ∧
      ∀ p ∈ c.readings, ∀ y, f.row? p.2.source = some y → y ∈ db.rows p.2.entity.table := by
  induction h with
  | none => exact ⟨_, rfl, Frame.row?_cons_self .., fun p hp => nomatch hp⟩
  | @join c joins current name path r target before hcurrent hr htoOne hpath ih =>
    obtain ⟨f, hf, hroot, hreadings⟩ := ih
    have hrow : ∀ y, f.row? current.source = some y → y ∈ db.rows current.entity.table := by
      rcases hcurrent with rfl | ⟨path', hmem⟩
      · rintro y hy
        rw [hroot] at hy
        exact Option.some.inj hy ▸ hx
      · exact hreadings _ hmem
    obtain ⟨g, hg, hfar, hkept⟩ :=
      before.outer_join_eq_singleton hs he hone hcurrent hr htoOne hpath hrow
    refine ⟨g, by rw [joinFrames_snoc, hf, List.flatMap_singleton, hg], ?_, ?_⟩
    · rw [hkept _ (by simp [Entity.reach]) (by simp [Entity.reach]), hroot]
    · intro q hq y hy
      rcases List.mem_append.1 hq with hq | hq
      · have hne := JoinCache.ne_of_get?_eq_none hpath hq
        have hsource := before.source_eq hq
        rw [hkept _ (by simpa [hsource] using hne) (by simp [hsource])] at hy
        exact hreadings q hq y hy
      · rw [List.mem_singleton.1 hq] at hy ⊢
        have hmem := Option.mem_toList.2 hy
        rw [hfar] at hmem
        obtain ⟨z, -, hz⟩ := List.mem_flatMap.1 hmem
        exact Relationship.mem_rows_of_mem_rowsFrom hz

end Joined

/-- A statement that reads its entity shows a row of it in every frame, whatever is joined. -/
theorem Statement.exists_row?_root {schema : Schema} {c : JoinCache} {s : Statement}
    {db : Database} (h : Joined schema s.entity c s.joins) (hroot : s.root ∈ s.sources) {f : Frame}
    (hf : f ∈ s.frames db) : ∃ x ∈ db.rows s.entity.table, f.row? s.root = some x := by
  have hsteps : s.root ∉ s.joins.flatMap (·.hop.sources) := fun hmem => by
    cases h.isUnjoined_eq_false hmem
  have hchains : s.chains = (if s.joins = [] then []
      else [⟨s.root, s.joins.map (·.hop)⟩]) ++
        (unreadOf s.joinedSources s.mentioned).map (⟨·, []⟩) := by
    rw [chains_eq, h.chains_eq]
    rfl
  have hmem : s.root ∈ s.chains.map (·.root) := by
    rw [hchains]
    by_cases hjoins : s.joins = []
    · have hnone : s.joinedSources = [] := by rw [joinedSources, hjoins]; rfl
      rw [mem_sources, hnone] at hroot
      simpa [hjoins, mem_unreadOf, hnone] using hroot
    · simp [hjoins]
  refine exists_row?_of_mem_chainFrames (List.mem_of_mem_filter hf) hmem fun chain hchain => ?_
  rw [hchains, List.mem_append] at hchain
  rcases hchain with hchain | hchain
  · split at hchain
    · cases hchain
    · rw [List.mem_singleton.1 hchain, List.flatMap_map]
      exact hsteps
  · obtain ⟨t, -, rfl⟩ := List.mem_map.1 hchain
    exact List.not_mem_nil

end ResourceQuery
