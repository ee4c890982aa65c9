import ResourceQuery.Statement.Meaning
import ResourceQuery.Proofs.Statement.Related

/-!
# The frames of a statement

What changes about the frames of a statement when conditions are added to it, and what its rows are
when it has no order.

* `foldl_flatMap`, `exists_of_mem_foldl`: steps one after the other;
* `exists_of_mem_chainFrames`, `exists_row?_of_mem_chainFrames`: chains bring in rows of their own
  sources, and one of each of their roots;
* `Statement.mem_sources`: a statement reads what its joins and its mentions say;
* `Statement.frames_filtered`: conditions that mention nothing new only drop frames;
* `Statement.frames_all`: the frames of all records of an entity are its rows;
* `Frame.IsOf.of_mem_frames`: frames show rows of the tables that they read;
* `sortByKeys_nil`: without directions nothing is moved.
-/

namespace ResourceQuery

theorem mem_unreadOf {read mentioned : List Source} {s : Source} :
    s ∈ unreadOf read mentioned ↔ s ∈ mentioned ∧ s ∉ read := by
  simp [unreadOf]

theorem unreadOf_append {read mentioned more : List Source}
    (h : ∀ s ∈ more, s ∈ mentioned ∨ s ∈ read) :
    unreadOf read (mentioned ++ more) = unreadOf read mentioned := by
  have hmore : (more.removeAll mentioned).eraseDups.filter (· ∉ read) = [] := by
    rw [List.filter_eq_nil_iff]
    intro s hs
    simp only [List.mem_eraseDups, List.removeAll, List.mem_filter, List.elem_eq_mem,
      Bool.not_eq_true', decide_eq_false_iff_not] at hs
    simpa using (h s hs.1).resolve_left hs.2
  rw [unreadOf, List.eraseDups_append, List.filter_append, hmore, List.append_nil, unreadOf]

/-- One source mentioned over and over is read once. -/
theorem unreadOf_replicate {n : Nat} (hn : n ≠ 0) (s : Source) :
    unreadOf [] (List.replicate n s) = [s] := by
  obtain ⟨n, rfl⟩ := Nat.exists_eq_succ_of_ne_zero hn
  simp [unreadOf, List.replicate_succ, List.eraseDups_cons]

/-! ## Steps one after the other -/

/-- Steps to several elements each take one element after the other. -/
theorem foldl_flatMap {α β : Type} (step : β → α → List α) (bs : List β) (as : List α) :
    bs.foldl (fun acc b => acc.flatMap (step b)) as =
      as.flatMap fun a => bs.foldl (fun acc b => acc.flatMap (step b)) [a] := by
  induction bs generalizing as with
  | nil => simp
  | cons b bs ih =>
    rw [List.foldl_cons, ih, List.flatMap_assoc]
    refine congrArg (List.flatMap · as) (funext fun a => ?_)
    rw [List.foldl_cons, List.flatMap_singleton]
    exact (ih _).symm

/-- A condition that says the same of all that comes from one element drops elements. -/
theorem filter_flatMap_eq {α β : Type} {p : β → Bool} {q : α → Bool} {f : α → List β} {as : List α}
    (h : ∀ a ∈ as, ∀ b ∈ f a, p b = q a) : (as.flatMap f).filter p = (as.filter q).flatMap f := by
  induction as with
  | nil => rfl
  | cons a as ih =>
    rw [List.forall_mem_cons] at h
    rw [List.flatMap_cons, List.filter_append, ih h.2, List.filter_congr h.1]
    cases hq : q a <;> simp [hq]

/-- Steps that put rows of some sources in front of a frame do so together. -/
theorem exists_of_mem_foldl {α : Type} {step : α → Frame → List Frame} {sources : α → List Source}
    (hstep : ∀ a f g, g ∈ step a f → ∃ p : Frame, g = p ++ f ∧ p.sources ⊆ sources a)
    (as : List α) {f g : Frame}
    (hg : g ∈ as.foldl (fun frames a => frames.flatMap (step a)) [f]) :
    ∃ p : Frame, g = p ++ f ∧ p.sources ⊆ as.flatMap sources := by
  induction as generalizing f with
  | nil =>
    rw [List.foldl_nil, List.mem_singleton] at hg
    exact ⟨[], hg, by simp [Frame.sources]⟩
  | cons a as ih =>
    rw [List.foldl_cons, List.flatMap_singleton, foldl_flatMap] at hg
    obtain ⟨f', hf', hg⟩ := List.mem_flatMap.1 hg
    obtain ⟨p, rfl, hp⟩ := hstep a f f' hf'
    obtain ⟨p', rfl, hp'⟩ := ih hg
    refine ⟨p' ++ p, by simp, ?_⟩
    rw [Frame.sources_append, List.flatMap_cons]
    exact List.append_subset.2 ⟨fun t ht => List.mem_append_right _ (hp' ht),
      fun t ht => List.mem_append_left _ (hp ht)⟩

theorem Hop.exists_of_mem_outer {db : Database} {h : Hop} {f g : Frame} (hg : g ∈ h.outer db f) :
    ∃ p : Frame, g = p ++ f ∧ p.sources ⊆ h.sources := by
  unfold Hop.outer at hg
  split at hg
  · refine ⟨_, List.mem_singleton.1 hg, fun s hs => ?_⟩
    simpa [Frame.sources, List.map_map] using hs
  · obtain ⟨p, rfl, hp⟩ := exists_of_mem_extend (List.mem_of_mem_filter hg)
    exact ⟨p, rfl, fun s hs => by rwa [hp, List.mem_reverse] at hs⟩

/-- A chain puts a row of its root in front of a frame, and rows of its steps in front of that. -/
theorem Chain.exists_of_mem_frames {db : Database} {c : Chain} {f g : Frame}
    (hg : g ∈ c.frames db (fun h => h.outer db) f) :
    ∃ (p : Frame) (x : StoredRow), g = p ++ (c.root, some x) :: f ∧ x ∈ db.rows c.root.table ∧
      p.sources ⊆ c.hops.flatMap (·.sources) := by
  rw [Chain.frames, foldl_flatMap, extend_one, List.flatMap_map] at hg
  obtain ⟨x, hx, hg⟩ := List.mem_flatMap.1 hg
  have hsteps : ∀ (h : Hop) (f g : Frame), g ∈ h.outer db f →
      ∃ p : Frame, g = p ++ f ∧ p.sources ⊆ h.sources := fun _ _ _ => Hop.exists_of_mem_outer
  obtain ⟨p, rfl, hp⟩ := exists_of_mem_foldl hsteps c.hops hg
  exact ⟨p, x, rfl, hx, hp⟩

theorem Chain.sources_of_mem_frames {db : Database} {c : Chain} {f g : Frame}
    (hg : g ∈ c.frames db (fun h => h.outer db) f) :
    ∃ p : Frame, g = p ++ f ∧ p.sources ⊆ c.sources := by
  obtain ⟨p, x, rfl, -, hp⟩ := Chain.exists_of_mem_frames hg
  refine ⟨p ++ [(c.root, some x)], by simp, ?_⟩
  rw [Frame.sources_append]
  exact List.append_subset.2 ⟨fun s hs => List.mem_cons_of_mem _ (hp hs),
    fun s hs => List.mem_singleton.1 hs ▸ List.mem_cons_self ..⟩

/-- Chains put rows of their own sources in front of a frame. -/
theorem exists_of_mem_chainFrames {db : Database} {chains : List Chain} {f g : Frame}
    (hg : g ∈ chainFrames db (fun h => h.outer db) chains f) :
    ∃ p : Frame, g = p ++ f ∧ p.sources ⊆ chains.flatMap (·.sources) := by
  have hchains : ∀ (c : Chain) (f g : Frame), g ∈ c.frames db (fun h => h.outer db) f →
      ∃ p : Frame, g = p ++ f ∧ p.sources ⊆ c.sources := fun _ _ _ => Chain.sources_of_mem_frames
  exact exists_of_mem_foldl hchains chains hg

/-- Chains show a row of every one of their roots that no step of theirs brings in again. -/
theorem exists_row?_of_mem_chainFrames {db : Database} {chains : List Chain} {f g : Frame}
    (hg : g ∈ chainFrames db (fun h => h.outer db) chains f) {t : Source}
    (ht : t ∈ chains.map (·.root)) (hnot : ∀ c ∈ chains, t ∉ c.hops.flatMap (·.sources)) :
    ∃ x ∈ db.rows t.table, g.row? t = some x := by
  induction chains generalizing f with
  | nil => cases ht
  | cons c rest ih =>
    rw [List.forall_mem_cons] at hnot
    rw [chainFrames, List.foldl_cons, List.flatMap_singleton, foldl_flatMap] at hg
    obtain ⟨f', hf', hg⟩ := List.mem_flatMap.1 hg
    by_cases hrest : t ∈ rest.map (·.root)
    · exact ih hg hrest hnot.2
    · obtain rfl : t = c.root := (List.mem_cons.1 ht).resolve_right hrest
      obtain ⟨p, x, rfl, hx, hp⟩ := Chain.exists_of_mem_frames hf'
      obtain ⟨p', rfl, hp'⟩ := exists_of_mem_chainFrames hg
      refine ⟨x, hx, ?_⟩
      rw [Frame.row?_append_of_not_mem, Frame.row?_append_of_not_mem fun h => hnot.1 (hp h),
        Frame.row?_cons_self]
      intro hmem
      obtain ⟨c', hc', hmem⟩ := List.mem_flatMap.1 (hp' hmem)
      rcases List.mem_cons.1 hmem with heq | hmem
      · exact hrest (List.mem_map.2 ⟨c', hc', heq.symm⟩)
      · exact hnot.2 c' hc' hmem

/-! ## Frames -/

namespace Statement

variable {db : Database} {s : Statement}

/-- What the joins of a statement read. -/
def joinedSources (s : Statement) : List Source := (joinedChains s.joins).flatMap (·.sources)

/-- What the selection and the conditions of a statement mention. -/
def mentioned (s : Statement) : List Source :=
  s.selection.sources s.root ++ s.conditions.flatMap (·.sources)

theorem chains_eq (s : Statement) :
    s.chains = joinedChains s.joins ++ (unreadOf s.joinedSources s.mentioned).map (⟨·, []⟩) := rfl

theorem mem_sources {t : Source} : t ∈ s.sources ↔ t ∈ s.joinedSources ∨ t ∈ s.mentioned := by
  have hchains : s.sources = s.joinedSources ++ unreadOf s.joinedSources s.mentioned := by
    simp [sources, chains_eq, joinedSources, List.flatMap_map, Chain.sources]
  rw [hchains, List.mem_append, mem_unreadOf]
  tauto

theorem chains_filtered {ps : List Predicate} (h : ∀ p ∈ ps, p.sources ⊆ s.sources) :
    (s.filtered ps).chains = s.chains := by
  have hmentioned : (s.filtered ps).mentioned = s.mentioned ++ ps.flatMap (·.sources) := by
    simp [mentioned, filtered, root]
  have hunread : unreadOf s.joinedSources (s.filtered ps).mentioned =
      unreadOf s.joinedSources s.mentioned := by
    rw [hmentioned]
    refine unreadOf_append fun t ht => ?_
    obtain ⟨p, hp, ht⟩ := List.mem_flatMap.1 ht
    exact (mem_sources.1 (h p hp ht)).symm
  rw [chains_eq, chains_eq, ← hunread]
  rfl

/-- Conditions that mention nothing new drop the frames that they do not hold of. -/
theorem frames_filtered {ps : List Predicate} (h : ∀ p ∈ ps, p.sources ⊆ s.sources) :
    (s.filtered ps).frames db = (s.frames db).filter fun f => ps.all (·.holds db f) := by
  simp only [frames, chains_filtered h, List.filter_filter]
  simp [filtered, Bool.and_comm]

theorem chains_all {e : Entity} (he : e.columns ≠ []) :
    (Statement.all e).chains = [⟨e.reach.source, []⟩] := by
  have hmentioned : (Statement.all e).mentioned =
      List.replicate e.columns.length e.reach.source := by
    simp [mentioned, all, root, Selection.sources, Entity.reach, List.map_const']
  have hjoined : (Statement.all e).joinedSources = [] := rfl
  rw [chains_eq, hmentioned, hjoined, unreadOf_replicate (by simpa using he)]
  rfl

/-- The frames of all records of an entity are its rows. -/
theorem frames_all {e : Entity} (he : e.columns ≠ []) :
    (Statement.all e).frames db =
      (db.rows e.table).map fun x => [(e.reach.source, some x)] := by
  have hchains : chainFrames db (fun h => h.outer db) [⟨e.reach.source, []⟩] [] =
      (db.rows e.table).map fun x => [(e.reach.source, some x)] := by
    simp [chainFrames, Chain.frames, extend_one, Entity.reach]
  rw [frames, chains_all he, hchains]
  exact List.filter_eq_self.2 fun _ _ => rfl

end Statement

/-! ## Rows of the database -/

/-- Whether the rows of a frame are rows of the tables that they stand for. -/
def Frame.IsOf (db : Database) (f : Frame) : Prop :=
  ∀ p ∈ f, ∀ x, p.2 = some x → x ∈ db.rows p.1.table

namespace Frame.IsOf

variable {db : Database} {f g : Frame}

theorem row? (h : f.IsOf db) {t : Source} {x : StoredRow} (hx : f.row? t = some x) :
    x ∈ db.rows t.table := by
  obtain ⟨p, hp, hpx⟩ := Option.bind_eq_some_iff.1 hx
  have ht : p.1 = t := by simpa using List.find?_some hp
  exact ht ▸ h p (List.mem_of_find?_eq_some hp) x hpx

theorem of_mem_extend (h : f.IsOf db) {ss : List Source} (hg : g ∈ db.extend ss f) :
    g.IsOf db := by
  induction ss generalizing f with
  | nil => exact List.mem_singleton.1 hg ▸ h
  | cons s ss ih =>
    obtain ⟨x, hx, hg⟩ := List.mem_flatMap.1 hg
    refine ih (fun p hp y hy => ?_) hg
    rcases List.mem_cons.1 hp with rfl | hp
    · exact Option.some.inj hy ▸ hx
    · exact h p hp y hy

theorem of_mem_outer (h : f.IsOf db) {hop : Hop} (hg : g ∈ hop.outer db f) : g.IsOf db := by
  unfold Hop.outer at hg
  split at hg
  · rw [List.mem_singleton.1 hg]
    intro p hp y hy
    rcases List.mem_append.1 hp with hp | hp
    · obtain ⟨t, -, rfl⟩ := List.mem_map.1 hp
      cases hy
    · exact h p hp y hy
  · exact h.of_mem_extend (List.mem_of_mem_filter hg)

theorem of_mem_foldl {α : Type} {step : α → Frame → List Frame}
    (hstep : ∀ a f g, Frame.IsOf db f → g ∈ step a f → Frame.IsOf db g) (as : List α)
    (frames : List Frame) (h : ∀ f ∈ frames, Frame.IsOf db f)
    (hg : g ∈ as.foldl (fun frames a => frames.flatMap (step a)) frames) : g.IsOf db := by
  induction as generalizing frames with
  | nil => exact h g hg
  | cons a as ih =>
    refine ih _ (fun f hf => ?_) hg
    obtain ⟨f', hf', hf⟩ := List.mem_flatMap.1 hf
    exact hstep a f' f (h f' hf') hf

/-- The frames of a statement show rows of the database. -/
theorem of_mem_frames {s : Statement} (hf : f ∈ s.frames db) : f.IsOf db := by
  refine of_mem_foldl (fun c f g h hg => ?_) s.chains [[]]
    (by simp [Frame.IsOf]) (List.mem_of_mem_filter hf)
  exact of_mem_foldl (fun hop f g h hg => h.of_mem_outer hg) c.hops _
    (fun f' hf' => h.of_mem_extend hf') hg

end Frame.IsOf

/-! ## Rows without an order -/

theorem sortByKeys_nil {α : Type} (key : α → List Cell) (xs : List α) :
    sortByKeys [] key xs = xs := by
  have hsorted : (xs.map fun x => (key x, x)).Pairwise
      fun a b => keysOrder (([] : List Bool).zip (a.1.zip b.1)) != .gt :=
    List.pairwise_of_forall fun _ _ => rfl
  rw [sortByKeys, List.mergeSort_of_pairwise hsorted, List.map_map]
  exact List.map_id' _

theorem Statement.map_window {α β : Type} (limit offset : Option Int) (g : α → β) (xs : List α) :
    (Statement.window limit offset xs).map g = Statement.window limit offset (xs.map g) := by
  unfold Statement.window
  split
  · simp
  · split <;> simp

theorem Statement.window_sublist {α : Type} (limit offset : Option Int) (xs : List α) :
    (Statement.window limit offset xs).Sublist xs := by
  unfold Statement.window
  split
  · exact List.drop_sublist ..
  · split
    · exact List.drop_sublist ..
    · exact (List.take_sublist ..).trans (List.drop_sublist ..)

/-- Groups that are asked for in no order stay as they are formed. -/
theorem Statement.groups_of_order_nil {s : Statement} (db : Database) (horder : s.order = []) :
    s.groups db = s.unorderedGroups (s.frames db) := by
  have hback : s.readsBackwards = false := by
    simp [readsBackwards, horder]
  simp [groups, horder, sortByKeys_nil, hback]

/-- The rows of records that are asked for in no order are the frames in theirs. -/
theorem Statement.rows_records {db : Database} {s : Statement} {columns : List Column}
    (hselection : s.selection = .records columns) (hgroup : s.group = []) (horder : s.order = []) :
    s.rows db = Statement.window s.limit s.offset
      ((s.frames db).map fun f => .record (f.row? s.root)) := by
  have hgrouped : s.isGrouped = false := by
    simp [isGrouped, hgroup, selectedTerms, hselection]
  have hgroups : s.groups db = (s.frames db).map fun f => ⟨f, [f]⟩ := by
    simp [groups_of_order_nil db horder, unorderedGroups, hgrouped]
  rw [rows, hgroups, map_window, List.map_map]
  congr 1
  refine List.map_congr_left fun f _ => ?_
  simp [answerRow, hselection]

end ResourceQuery
