import ResourceQuery.Proofs.Sort.Frames

/-!
# Statements for records

The frames of a statement for records, row by row of the entity: every row has the frames that the
conditions leave of it, once for every frame that the joins make of it.

* `Statement.AsksRecords`: a statement for records with the joins of sort keys;
* `Statement.rowFrames`: what the conditions leave of a row, without joins;
* `Statement.AsksRecords.map_row?_frames`: how often every row is among the frames.

Conditions may read sources beside the entity, the strays; they then leave several frames of a row.
-/

namespace ResourceQuery

/-- A statement for records with the joins of sort keys. -/
structure Statement.AsksRecords (schema : Schema) (s : Statement) : Prop where
  selection : ∃ columns ≠ [], s.selection = .records columns
  joined : ∃ c, Joined schema s.entity c s.joins
  unjoined : ∀ p ∈ s.conditions, p.MentionsOnly Source.isUnjoined
  group : s.group = []

namespace Statement

variable {schema : Schema} {s : Statement} {db : Database}

/-- The sources that the conditions of a statement read beside the entity. -/
def strays (s : Statement) : List Source :=
  ((s.conditions.flatMap (·.sources)).filter (· ≠ s.root)).eraseDups

/-- The frames of a row of the entity without joins. -/
def rowFrames (db : Database) (s : Statement) (x : StoredRow) : List Frame :=
  (db.extend s.strays [(s.root, some x)]).filter fun f => s.conditions.all (·.holds db f)

theorem unreadOf_replicate_append {read more : List Source} {n : Nat} (hn : n ≠ 0) (t : Source) :
    unreadOf read (List.replicate n t ++ more) =
      unreadOf read [t] ++ ((more.filter (· ≠ t)).eraseDups).filter (· ∉ read) := by
  obtain ⟨n, rfl⟩ := Nat.exists_eq_succ_of_ne_zero hn
  have hreplicate : (List.replicate (n + 1) t).eraseDups = [t] := by
    simp [List.replicate_succ, List.eraseDups_cons]
  have hremove : more.removeAll (List.replicate (n + 1) t) = more.filter (· ≠ t) := by
    refine List.filter_congr fun x _ => ?_
    simp
  rw [unreadOf, List.eraseDups_append, List.filter_append, hreplicate, hremove]
  rfl

namespace AsksRecords

theorem root_mem_sources (h : s.AsksRecords schema) : s.root ∈ s.sources := by
  obtain ⟨columns, hcolumns, hselection⟩ := h.selection
  obtain ⟨column, rest, rfl⟩ := List.exists_cons_of_ne_nil hcolumns
  rw [mem_sources, mentioned, hselection]
  simp [Selection.sources]

theorem strays_unjoined (h : s.AsksRecords schema) {t : Source} (ht : t ∈ s.strays) :
    t.isUnjoined = true := by
  rw [strays, List.mem_eraseDups, List.mem_filter, List.mem_flatMap] at ht
  obtain ⟨⟨p, hp, ht⟩, -⟩ := ht
  exact (h.unjoined p hp).sources t ht

theorem root_not_mem_strays (s : Statement) : s.root ∉ s.strays := by
  simp [strays]

/-- What a statement for records reads: the entity with its joins, and then the strays. -/
theorem chains_eq (h : s.AsksRecords schema) :
    s.chains = ⟨s.root, s.joins.map (·.hop)⟩ :: s.strays.map (⟨·, []⟩) := by
  obtain ⟨columns, hcolumns, hselection⟩ := h.selection
  obtain ⟨c, hjoined⟩ := h.joined
  have hmentioned : s.mentioned =
      List.replicate columns.length s.root ++ s.conditions.flatMap (·.sources) := by
    simp [mentioned, hselection, Selection.sources, List.map_const']
  have hroot : s.entity.reach.source = s.root := rfl
  rw [Statement.chains_eq, hmentioned, unreadOf_replicate_append (by simpa using hcolumns),
    hjoined.chains_eq, hroot]
  by_cases hjoins : s.joins = []
  · have hsources : s.joinedSources = [] := by simp [joinedSources, hjoins, joinedChains]
    rw [hsources, if_pos hjoins, hjoins]
    simp [unreadOf, strays, List.eraseDups_cons]
  · have hsources : s.joinedSources = s.root :: s.joins.flatMap (·.hop.sources) := by
      simp [joinedSources, hjoined.chains_eq, hjoins, Chain.sources, List.flatMap_map, hroot]
    have hstrays : s.strays.filter (· ∉ s.joinedSources) = s.strays := by
      refine List.filter_eq_self.2 fun t ht => ?_
      have hunjoined := h.strays_unjoined ht
      have hne : t ≠ s.root := fun e => root_not_mem_strays s (e ▸ ht)
      have hnot : t ∉ s.joins.flatMap (·.hop.sources) := fun hmem => by
        simp [hjoined.isUnjoined_eq_false hmem] at hunjoined
      rw [hsources, decide_eq_true_eq, List.mem_cons, not_or]
      exact ⟨hne, hnot⟩
    have hread : unreadOf s.joinedSources [s.root] = [] := by
      simp [unreadOf, hsources, List.eraseDups_cons]
    rw [if_neg hjoins, hread, ← strays, hstrays]
    rfl

/-- A chain without steps reads all rows of its root. -/
theorem foldl_strays (db : Database) (strays : List Source) (frames : List Frame) :
    (strays.map (⟨·, []⟩ : Source → Chain)).foldl
        (fun frames c => frames.flatMap (c.frames db fun h => h.outer db)) frames =
      frames.flatMap (db.extend strays) := by
  induction strays generalizing frames with
  | nil =>
    have hnil : db.extend [] = fun f => [f] := rfl
    simp [hnil]
  | cons t strays ih =>
    have hcons : db.extend (t :: strays) =
        fun f => (db.extend [t] f).flatMap (db.extend strays) := by
      funext f
      simp [Database.extend, List.flatMap_assoc]
    rw [List.map_cons, List.foldl_cons, ih, hcons, ← List.flatMap_assoc]
    rfl

/-- The frames of a statement for records, row by row. -/
theorem frames_eq (h : s.AsksRecords schema) :
    s.frames db = (db.rows s.entity.table).flatMap fun x =>
      (joinFrames db s.joins [(s.root, some x)]).flatMap fun f =>
        (db.extend s.strays f).filter fun g => s.conditions.all (·.holds db g) := by
  have hroot : db.extend [s.root] [] = (db.rows s.entity.table).map fun x => [(s.root, some x)] :=
    extend_one ..
  rw [frames, h.chains_eq, chainFrames, List.foldl_cons, foldl_strays, List.flatMap_singleton,
    Chain.frames, hroot, foldl_outer_eq_flatMap]
  simp only [List.flatMap_map, List.flatMap_assoc, List.filter_flatMap]

theorem restrict_of_mem_joinFrames (h : s.AsksRecords schema) {x : StoredRow} {f : Frame}
    (hf : f ∈ joinFrames db s.joins [(s.root, some x)]) :
    f.restrict Source.isUnjoined = [(s.root, some x)] := by
  obtain ⟨c, hjoined⟩ := h.joined
  obtain ⟨p, rfl, hp⟩ := exists_of_mem_joinFrames hf
  rw [Frame.restrict_append, Frame.restrict_eq_nil fun t ht => hjoined.isUnjoined_eq_false (hp ht)]
  rfl

/-- Joins change nothing about how many frames the conditions leave of a row. -/
theorem length_rowFrames (h : s.AsksRecords schema) {x : StoredRow} {f : Frame}
    (hf : f ∈ joinFrames db s.joins [(s.root, some x)]) :
    ((db.extend s.strays f).filter fun g => s.conditions.all (·.holds db g)).length =
      (s.rowFrames db x).length := by
  have hholds : ∀ g : Frame, s.conditions.all (·.holds db (g.restrict Source.isUnjoined)) =
      s.conditions.all (·.holds db g) := by
    intro g
    rw [Bool.eq_iff_iff, List.all_eq_true, List.all_eq_true]
    refine forall₂_congr fun p hp => ?_
    rw [Predicate.holds, Predicate.holds, Predicate.truth_restrict db (h.unjoined p hp)]
  rw [rowFrames, ← h.restrict_of_mem_joinFrames hf,
    extend_restrict db fun t ht => h.strays_unjoined ht, List.filter_map, List.length_map]
  simp only [Function.comp_def, hholds]

theorem row?_root (h : s.AsksRecords schema) {x : StoredRow} {f g : Frame}
    (hf : f ∈ joinFrames db s.joins [(s.root, some x)]) (hg : g ∈ db.extend s.strays f) :
    g.row? s.root = some x := by
  obtain ⟨c, hjoined⟩ := h.joined
  obtain ⟨p, rfl, hp⟩ := exists_of_mem_joinFrames hf
  obtain ⟨p', rfl, hp'⟩ := exists_of_mem_extend hg
  rw [Frame.row?_append_of_not_mem, Frame.row?_append_of_not_mem]
  · exact Frame.row?_cons_self ..
  · intro hmem
    cases hjoined.isUnjoined_eq_false (hp hmem)
  · rw [hp', List.mem_reverse]
    exact root_not_mem_strays s

/-- Every row is among the frames as often as the conditions leave a frame of it, once for every
frame that the joins make of it. -/
theorem map_row?_frames (h : s.AsksRecords schema) :
    (s.frames db).map (·.row? s.root) = (db.rows s.entity.table).flatMap fun x =>
      List.replicate ((joinFrames db s.joins [(s.root, some x)]).length *
        (s.rowFrames db x).length) (some x) := by
  rw [h.frames_eq, List.map_flatMap]
  refine congrArg (List.flatMap · _) (funext fun x => ?_)
  rw [List.eq_replicate_iff]
  constructor
  · have hlen := List.map_congr_left (l := joinFrames db s.joins [(s.root, some x)])
      fun f hf => h.length_rowFrames hf
    rw [List.length_map, List.length_flatMap, hlen]
    simp
  · intro r hr
    obtain ⟨g, hg, rfl⟩ := List.mem_map.1 hr
    obtain ⟨f, hf, hg⟩ := List.mem_flatMap.1 hg
    exact h.row?_root hf (List.mem_of_mem_filter hg)

end AsksRecords

end Statement

end ResourceQuery
