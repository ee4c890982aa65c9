import ResourceQuery.Proofs.Query.Count
import ResourceQuery.Proofs.Query.Records

/-!
# The rows behind rows of values

A statement for rows of values reads what a statement for records with the same joins and conditions
reads, as long as it mentions its entity and nothing else. So every row of the entity that the
conditions keep is behind its rows once, whatever is joined for the order.

* `Statement.forRecords`: the records that the rows of a statement are made from;
* `Statement.ReadsEntity`: statements that mention nothing but their entity;
* `Statement.ReadsEntity.frames_forRecords`: they have the frames of the statement for records;
* `Statement.ReadsEntity.map_row?_frames`: these show the kept rows of the entity, each once.

A statement that selects nothing but a count of all rows, and has no conditions on the entity
itself, does not read its entity at all.
-/

namespace ResourceQuery

/-- What is left to read where nothing but one source is mentioned. -/
theorem unreadOf_eq_ite {read mentioned : List Source} {t : Source}
    (hmentioned : ∀ u ∈ mentioned, u = t) (ht : t ∈ read ∨ t ∈ mentioned) :
    unreadOf read mentioned = if t ∈ read then [] else [t] := by
  split
  · next hread =>
    refine List.filter_eq_nil_iff.2 fun u hu => ?_
    rw [hmentioned u (List.mem_eraseDups.1 hu)]
    simpa using hread
  · next hread =>
    have hne : mentioned.length ≠ 0 := by
      rw [ne_eq, List.length_eq_zero_iff]
      exact List.ne_nil_of_mem (ht.resolve_left hread)
    have hreplicate : unreadOf read (List.replicate mentioned.length t ++ []) = _ :=
      Statement.unreadOf_replicate_append hne t
    rw [List.append_nil, ← List.eq_replicate_iff.2 ⟨rfl, hmentioned⟩] at hreplicate
    rw [hreplicate]
    simp [unreadOf, List.eraseDups_cons, hread]

namespace Statement

variable {schema : Schema} {s : Statement} {db : Database}

namespace AsksRecords

/-- The shown rows are the kept ones when the conditions read nothing beside the entity. -/
theorem shownRows_eq_keptRows (h : s.AsksRecords schema) (hs : schema.WellFormed)
    (he : s.entity ∈ schema.entities) (hone : db.ToOne schema)
    (hsources : ∀ p ∈ s.conditions, p.sources ⊆ [s.root]) :
    shownRows db s = keptRows db s.entity s.conditions := by
  have hmem : ∀ x, x ∈ keptRows db s.entity s.conditions ↔ x ∈ shownRows db s :=
    fun x => h.mem_keptRows (hs.entities _ he).columns_ne_nil
  rw [h.shownRows_eq_filter hs he hone hsources] at hmem ⊢
  refine List.filter_congr fun x hx => ?_
  have hx' := hmem x
  simp only [keptRows, List.mem_filter, hx, true_and] at hx'
  exact Bool.eq_iff_iff.2 hx'.symm

end AsksRecords

/-- The records that the rows of a statement are made from. -/
def forRecords (s : Statement) : Statement :=
  { s with selection := .records s.entity.columns, group := [], order := [] }

/-- A statement with the joins of sort keys that mentions its entity and nothing else. -/
structure ReadsEntity (schema : Schema) (s : Statement) : Prop where
  joined : ∃ c, Joined schema s.entity c s.joins
  unjoined : ∀ p ∈ s.conditions, p.MentionsOnly Source.isUnjoined
  mentioned : ∀ t ∈ s.mentioned, t = s.root
  read : s.root ∈ s.sources

namespace ReadsEntity

theorem sources_subset (h : s.ReadsEntity schema) : ∀ p ∈ s.conditions, p.sources ⊆ [s.root] :=
  fun p hp t ht => List.mem_singleton.2
    (h.mentioned t (List.mem_append_right _ (List.mem_flatMap.2 ⟨p, hp, ht⟩)))

theorem asksRecords (h : s.ReadsEntity schema) (he : s.entity.columns ≠ []) :
    s.forRecords.AsksRecords schema where
  selection := ⟨_, he, rfl⟩
  joined := h.joined
  unjoined := h.unjoined
  group := rfl

/-- Such a statement has the frames of the statement for records. -/
theorem frames_forRecords (h : s.ReadsEntity schema) (he : s.entity.columns ≠ []) :
    s.forRecords.frames db = s.frames db := by
  have hmentioned : ∀ t ∈ s.forRecords.mentioned, t = s.root := by
    intro t ht
    rcases List.mem_append.1 ht with ht | ht
    · obtain ⟨column, -, rfl⟩ := List.mem_map.1 ht
      rfl
    · exact h.mentioned t (List.mem_append_right _ ht)
  have hunread : unreadOf s.forRecords.joinedSources s.forRecords.mentioned =
      unreadOf s.joinedSources s.mentioned := by
    rw [unreadOf_eq_ite h.mentioned (mem_sources.1 h.read),
      unreadOf_eq_ite hmentioned (mem_sources.1 (h.asksRecords he).root_mem_sources)]
    rfl
  have hchains : s.forRecords.chains = s.chains := by
    rw [chains_eq, chains_eq, hunread]
    rfl
  rw [frames, frames, hchains]
  rfl

/-- Its frames show the rows of the entity that the conditions keep, each once. -/
theorem map_row?_frames (h : s.ReadsEntity schema) (hs : schema.WellFormed)
    (he : s.entity ∈ schema.entities) (hone : db.ToOne schema) :
    (s.frames db).map (·.row? s.root) = (keptRows db s.entity s.conditions).map some := by
  have hcolumns := (hs.entities _ he).columns_ne_nil
  have hasks := h.asksRecords hcolumns
  have hkept := hasks.shownRows_eq_keptRows hs he hone h.sources_subset
  rw [← h.frames_forRecords hcolumns]
  refine (hasks.map_row?_eq_shownRows db).trans (congrArg _ hkept)

end ReadsEntity

end Statement

end ResourceQuery
