import Mathlib.Data.Finset.Card
import ResourceQuery.Proofs.Query.Statement
import ResourceQuery.Proofs.Statement.Classes

/-!
# Records and rows of an answer

How many records and rows an answer has: records are told apart by their keys, and there is one row
for every group.

* `length_eraseDups`, `CompiledQuery.length_distinct`: lists without repetitions, counted;
* `Statement.length_groups`: the groups of a statement, whatever its order;
* `Statement.AsksRecords.shownRows`: the rows of the entity in the frames of a statement for
  records;
* `Statement.AsksRecords.rows_perm`, `Statement.AsksRecords.records_perm`: its answer shows these
  rows and their records, in some order.
-/

namespace ResourceQuery

/-! ## Lists without repetitions -/

theorem length_eraseDups {α : Type} [DecidableEq α] [BEq α] [LawfulBEq α] (xs : List α) :
    xs.eraseDups.length = xs.toFinset.card := by
  induction hn : xs.length using Nat.strong_induction_on generalizing xs with
  | _ n ih =>
    cases xs with
    | nil => rfl
    | cons x xs =>
      have hlen : (xs.filter fun y => !y == x).length < n := by
        have := List.length_filter_le (fun y => !y == x) xs
        rw [List.length_cons] at hn
        omega
      have hset : (x :: xs).toFinset = insert x (xs.filter fun y => !y == x).toFinset := by
        ext y
        by_cases hy : y = x <;> simp [hy]
      rw [List.eraseDups_cons, List.length_cons, ih _ hlen _ rfl, hset,
        Finset.card_insert_of_notMem (by simp)]

theorem exists_perm_of_perm_map_some {α : Type} {os : List (Option α)} {xs : List α}
    (h : os.Perm (xs.map some)) : ∃ ys : List α, ys.Perm xs ∧ os = ys.map some := by
  refine ⟨os.filterMap id, by simpa [List.filterMap_map] using h.filterMap id, ?_⟩
  have hsome : ∀ o ∈ os, ∃ x, o = some x := by
    intro o ho
    obtain ⟨x, -, rfl⟩ := List.mem_map.1 (h.mem_iff.1 ho)
    exact ⟨x, rfl⟩
  clear h
  induction os with
  | nil => rfl
  | cons o os ih =>
    rw [List.forall_mem_cons] at hsome
    obtain ⟨⟨x, rfl⟩, hsome⟩ := hsome
    have hcons : (some x :: os).filterMap id = x :: os.filterMap id := rfl
    rw [hcons, List.map_cons, ← ih hsome]

namespace CompiledQuery

theorem mem_of_mem_distinct {seen : List RecordId} {records : List AnswerRecord}
    {record : AnswerRecord} (h : record ∈ distinct seen records) : record ∈ records := by
  induction records generalizing seen with
  | nil => cases h
  | cons first rest ih =>
    cases first with
    | record id =>
      rw [distinct] at h
      split at h
      · exact List.mem_cons_of_mem _ (ih h)
      · exact List.mem_cons.2 ((List.mem_cons.1 h).imp_right ih)
    | values _ | value _ | nothing => exact List.mem_cons.2 ((List.mem_cons.1 h).imp_right ih)

/-- Records that differ stay as they are. -/
theorem distinct_of_nodup {ids seen : List RecordId} (hnodup : ids.Nodup)
    (hseen : ∀ id ∈ ids, id ∉ seen) :
    distinct seen (ids.map .record) = ids.map .record := by
  induction ids generalizing seen with
  | nil => rfl
  | cons id ids ih =>
    rw [List.nodup_cons] at hnodup
    rw [List.forall_mem_cons] at hseen
    rw [List.map_cons, distinct, if_neg hseen.1, ih hnodup.2]
    intro id' hid'
    rw [List.mem_cons, not_or]
    exact ⟨fun e => hnodup.1 (e ▸ hid'), hseen.2 id' hid'⟩

theorem length_distinct_seen (ids seen : List RecordId) :
    (distinct seen (ids.map .record)).length = (ids.toFinset \ seen.toFinset).card := by
  induction ids generalizing seen with
  | nil => simp [distinct]
  | cons id ids ih =>
    rw [List.map_cons, distinct]
    split
    · next h =>
      rw [ih, List.toFinset_cons, Finset.insert_sdiff_of_mem _ (List.mem_toFinset.2 h)]
    · next h =>
      have hinsert : (id :: ids).toFinset \ seen.toFinset =
          insert id (ids.toFinset \ (id :: seen).toFinset) := by
        ext id'
        by_cases hid : id' = id <;> simp [hid, h]
      rw [List.length_cons, ih, hinsert, Finset.card_insert_of_notMem (by simp)]

theorem length_distinct (ids : List RecordId) :
    (distinct [] (ids.map .record)).length = ids.toFinset.card := by
  simpa using length_distinct_seen ids []

end CompiledQuery

/-! ## Groups -/

namespace Statement

variable {s : Statement} {db : Database}

/-- The number of groups depends on the frames and on what they are grouped by, not on the order of
either. -/
theorem length_unorderedGroups_congr {s' : Statement} {frames frames' : List Frame}
    (hgroup : s'.group = s.group) (hselection : s'.selectedTerms = s.selectedTerms)
    (hperm : frames'.Perm frames)
    (hproper : ∀ f ∈ frames, ∀ x ∈ s.group, (x.cell f).IsProper) :
    (s'.unorderedGroups frames').length = (s.unorderedGroups frames).length := by
  have hgrouped : s'.isGrouped = s.isGrouped := by rw [isGrouped, isGrouped, hgroup, hselection]
  cases hg : s.isGrouped with
  | false => simp [unorderedGroups, hgrouped, hg, hperm.length_eq]
  | true =>
    by_cases hnil : s.group = []
    · simp [unorderedGroups, hgrouped, hg, hgroup, hnil]
    · have hcontent : s'.groupContent = s.groupContent := by
        funext f
        rw [groupContent, groupContent, hgroup]
      rw [length_unorderedGroups hnil hproper, length_unorderedGroups (hgroup ▸ hnil)
        (fun f hf x hx => hproper f (hperm.mem_iff.1 hf) x (hgroup ▸ hx)), hcontent]
      exact congrArg _ (List.toFinset_eq_of_perm _ _ (hperm.map _))

theorem length_groups (hproper : ∀ f ∈ s.frames db, ∀ x ∈ s.group, (x.cell f).IsProper) :
    (s.groups db).length = ({ s with order := [] }.unorderedGroups (s.frames db)).length := by
  rw [groups, (sortByKeys_perm _ _ _).length_eq]
  have hcongr : (s.unorderedGroups (s.frames db)).length =
      ({ s with order := [] }.unorderedGroups (s.frames db)).length :=
    length_unorderedGroups_congr rfl rfl (.refl _) hproper
  refine (length_unorderedGroups_congr rfl rfl ?_ hproper).trans hcongr
  split
  · exact List.reverse_perm _
  · exact .refl _

namespace AsksRecords

variable {schema : Schema}

theorem isGrouped_eq_false (h : s.AsksRecords schema) : s.isGrouped = false := by
  obtain ⟨columns, -, hselection⟩ := h.selection
  simp [isGrouped, h.group, selectedTerms, hselection]

theorem groups_perm (h : s.AsksRecords schema) (db : Database) :
    ((s.groups db).map (·.shown)).Perm (s.frames db) := by
  have hungrouped : ∀ frames, (s.unorderedGroups frames).map (·.shown) = frames := by
    intro frames
    simp [unorderedGroups, h.isGrouped_eq_false, Function.comp_def]
  have hperm := (sortByKeys_perm (s.order.map (·.descending))
    (fun g => s.order.map (·.key.cell db g))
    (s.unorderedGroups (if s.readsBackwards then (s.frames db).reverse else s.frames db))).map
      (·.shown)
  rw [hungrouped] at hperm
  refine hperm.trans ?_
  split
  · exact List.reverse_perm _
  · exact .refl _

/-- The rows of the entity that the frames of a statement show, as often as they show them. -/
def shownRows (db : Database) (s : Statement) : List StoredRow :=
  (db.rows s.entity.table).flatMap fun x =>
    List.replicate ((joinFrames db s.joins [(s.root, some x)]).length * (s.rowFrames db x).length) x

theorem map_row?_eq_shownRows (h : s.AsksRecords schema) (db : Database) :
    (s.frames db).map (·.row? s.root) = (shownRows db s).map some := by
  rw [h.map_row?_frames, shownRows, List.map_flatMap]
  simp only [List.map_replicate]

theorem exists_shownRow (h : s.AsksRecords schema) {f : Frame} (hf : f ∈ s.frames db) :
    ∃ x ∈ shownRows db s, f.row? s.root = some x := by
  have hrow := List.mem_map_of_mem (f := (·.row? s.root)) hf
  rw [h.map_row?_eq_shownRows] at hrow
  obtain ⟨x, hx, heq⟩ := List.mem_map.1 hrow
  exact ⟨x, hx, heq.symm⟩

theorem exists_frame_of_mem_shownRows (h : s.AsksRecords schema) {x : StoredRow}
    (hx : x ∈ shownRows db s) : ∃ f ∈ s.frames db, f.row? s.root = some x := by
  rw [← List.mem_map, h.map_row?_eq_shownRows]
  exact List.mem_map_of_mem hx

theorem mem_shownRows {x : StoredRow} :
    x ∈ shownRows db s ↔ x ∈ db.rows s.entity.table ∧ 0 < (s.rowFrames db x).length := by
  have hjoin : ∀ y : StoredRow, 0 < (joinFrames db s.joins [(s.root, some y)]).length :=
    fun y => List.length_pos_iff.2 (joinFrames_ne_nil db s.joins _)
  simp only [shownRows, List.mem_flatMap, List.mem_replicate]
  constructor
  · rintro ⟨y, hy, hne, rfl⟩
    exact ⟨hy, Nat.pos_of_ne_zero fun h0 => hne (by rw [h0, Nat.mul_zero])⟩
  · rintro ⟨hx, hpos⟩
    exact ⟨x, hx, (Nat.mul_pos (hjoin x) hpos).ne', rfl⟩

/-- The groups of the answer show the rows that the frames show, in some order. -/
theorem rows_perm (h : s.AsksRecords schema) (db : Database) :
    ∃ xs : List StoredRow, xs.Perm (shownRows db s) ∧
      (s.groups db).map (·.shown.row? s.root) = xs.map some := by
  have hperm := (h.groups_perm db).map (·.row? s.root)
  rw [h.map_row?_eq_shownRows, List.map_map] at hperm
  exact exists_perm_of_perm_map_some hperm

theorem answerRow_eq (h : s.AsksRecords schema) (g : FrameGroup) :
    s.answerRow g = .record (g.shown.row? s.root) := by
  obtain ⟨columns, -, hselection⟩ := h.selection
  rw [answerRow, hselection]

/-- The records of the answer are those of the rows that the frames show, in some order. -/
theorem records_perm (h : s.AsksRecords schema) (db : Database) :
    ∃ xs : List StoredRow, xs.Perm (shownRows db s) ∧
      (s.groups db).map (CompiledQuery.entityRecord s.entity ∘ s.answerRow) =
        (xs.map s.entity.recordId).map .record := by
  obtain ⟨xs, hxs, hrows⟩ := h.rows_perm db
  refine ⟨xs, hxs, ?_⟩
  have hmap := congrArg (List.map fun r => CompiledQuery.entityRecord s.entity (.record r)) hrows
  simpa [Function.comp_def, h.answerRow_eq, CompiledQuery.entityRecord] using hmap

end AsksRecords

end Statement

end ResourceQuery
