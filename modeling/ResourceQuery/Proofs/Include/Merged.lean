import ResourceQuery.Proofs.Include.Storable
import ResourceQuery.Proofs.Routed

/-!
# Loads of one relation

Several loads of one relation are one load in the end: the last of them says which related records
there are, and what is behind any of them is behind it.

* `RelationLoad.loadsBehind`: the loads behind a path of relations;
* `RelationLoad.NoneTwice`: loads of which no two are of one relation, at any depth;
* `RelationLoad.mem_names_merged`, `RelationLoad.noneTwice_merged`: merged loads are such, and of
  the same relations;
* `RelationLoad.merged_of_noneTwice`: and such loads stay as they are;
* `RelationLoad.storable_merged`: the store takes the conditions of merged loads if it takes those
  of the loads.
-/

namespace ResourceQuery.RelationLoad

variable {name : String} {loads more : List RelationLoad} {load other : RelationLoad}

/-! ## Behind a path -/

/-- The loads behind a path of relations. -/
def loadsBehind : List String → List RelationLoad → List RelationLoad
  | [], loads => loads
  | name :: rest, loads =>
    (loads.filter (·.relationship.name = name)).flatMap fun load => loadsBehind rest load.children

/-- Behind the one load of a relation are its own loads. -/
theorem loadsBehind_cons_of_mem (honce : (loads.map (·.relationship.name)).Nodup)
    (hload : load ∈ loads) (rest : List String) :
    loadsBehind (load.relationship.name :: rest) loads = loadsBehind rest load.children := by
  rw [loadsBehind, filter_key_eq honce hload, List.flatMap_singleton]

theorem loadsBehind_cons_of_not_mem (hname : name ∉ loads.map (·.relationship.name))
    (rest : List String) : loadsBehind (name :: rest) loads = [] := by
  rw [loadsBehind, List.filter_eq_nil_iff.2, List.flatMap_nil]
  exact fun load hload h => hname (List.mem_map.2 ⟨load, hload, of_decide_eq_true h⟩)

/-- Whether no two loads behind one path are of one relation. -/
def NoneTwice (loads : List RelationLoad) : Prop :=
  ∀ path, ((loadsBehind path loads).map (·.relationship.name)).Nodup

/-- Loads are of different relations at every depth when they are here and behind each of them. -/
theorem noneTwice_iff : NoneTwice loads ↔
    (loads.map (·.relationship.name)).Nodup ∧ ∀ load ∈ loads, NoneTwice load.children := by
  constructor
  · intro h
    refine ⟨h [], fun load hload path => ?_⟩
    rw [← loadsBehind_cons_of_mem (h []) hload]
    exact h _
  · rintro ⟨hnodup, hchildren⟩ (_ | ⟨name, rest⟩)
    · exact hnodup
    · by_cases hname : name ∈ loads.map (·.relationship.name)
      · obtain ⟨load, hload, rfl⟩ := List.mem_map.1 hname
        rw [loadsBehind_cons_of_mem hnodup hload]
        exact hchildren load hload rest
      · rw [loadsBehind_cons_of_not_mem hname]
        exact List.nodup_nil

theorem noneTwice_nil : NoneTwice [] :=
  noneTwice_iff.2 ⟨List.nodup_nil, nofun⟩

/-! ## Replaced loads -/

theorem mem_replace (h : other ∈ replace load loads) : other = load ∨ other ∈ loads := by
  induction loads with
  | nil => exact .inl (List.mem_singleton.1 h)
  | cons first rest ih =>
    rw [replace] at h
    split at h
    · rcases List.mem_cons.1 h with rfl | h
      · exact .inl rfl
      · exact .inr (List.mem_cons_of_mem _ h)
    · rcases List.mem_cons.1 h with rfl | h
      · exact .inr (List.mem_cons_self ..)
      · exact (ih h).imp_right (List.mem_cons_of_mem _)

theorem replace_of_not_mem (h : load.relationship.name ∉ loads.map (·.relationship.name)) :
    replace load loads = loads ++ [load] := by
  induction loads with
  | nil => rfl
  | cons first rest ih =>
    rw [List.map_cons, List.mem_cons, not_or] at h
    rw [replace, if_neg (Ne.symm h.1), ih h.2, List.cons_append]

theorem names_replace_of_mem (h : load.relationship.name ∈ loads.map (·.relationship.name)) :
    (replace load loads).map (·.relationship.name) = loads.map (·.relationship.name) := by
  induction loads with
  | nil => cases h
  | cons first rest ih =>
    rw [replace]
    split
    · next hfirst => rw [List.map_cons, List.map_cons, hfirst]
    · next hfirst =>
      rw [List.map_cons, List.mem_cons] at h
      rw [List.map_cons, List.map_cons, ih (h.resolve_left (Ne.symm hfirst))]

theorem nodup_replace (h : (loads.map (·.relationship.name)).Nodup) :
    ((replace load loads).map (·.relationship.name)).Nodup := by
  by_cases hname : load.relationship.name ∈ loads.map (·.relationship.name)
  · rw [names_replace_of_mem hname]
    exact h
  · rw [replace_of_not_mem hname, List.map_append, List.map_singleton]
    exact h.append (List.nodup_singleton _) (List.disjoint_singleton.2 hname)

/-- What is behind the load that another one joins. -/
theorem noneTwice_children_of_find? (name : String) (h : NoneTwice loads) :
    NoneTwice (((loads.find? (·.relationship.name = name)).map (·.children)).getD []) := by
  cases hfound : loads.find? (·.relationship.name = name) with
  | none => exact noneTwice_nil
  | some load => exact (noneTwice_iff.1 h).2 load (List.mem_of_find?_eq_some hfound)

mutual

theorem noneTwice_insert (loads : List RelationLoad) (load : RelationLoad) (h : NoneTwice loads) :
    NoneTwice (insert loads load) := by
  cases load with
  | mk r owner target criteria restriction children =>
    have hchildren := noneTwice_insertAll _ children (noneTwice_children_of_find? r.name h)
    rw [insert]
    refine noneTwice_iff.2 ⟨nodup_replace (h []), fun other hother => ?_⟩
    rcases mem_replace hother with rfl | hother
    · exact hchildren
    · exact (noneTwice_iff.1 h).2 other hother

theorem noneTwice_insertAll (loads more : List RelationLoad) (h : NoneTwice loads) :
    NoneTwice (insertAll loads more) := by
  cases more with
  | nil => exact h
  | cons load rest => exact noneTwice_insertAll _ rest (noneTwice_insert loads load h)

end

/-- Merged loads are of different relations, at every depth. -/
theorem noneTwice_merged (loads : List RelationLoad) : NoneTwice (merged loads) :=
  noneTwice_insertAll [] loads noneTwice_nil

mutual

theorem insert_of_not_mem (loads : List RelationLoad) (load : RelationLoad)
    (hname : load.relationship.name ∉ loads.map (·.relationship.name))
    (hchildren : NoneTwice load.children) : insert loads load = loads ++ [load] := by
  cases load with
  | mk r owner target criteria restriction children =>
    have hfound : loads.find? (·.relationship.name = r.name) = none := by
      rw [List.find?_eq_none]
      exact fun other hother h => hname (List.mem_map.2 ⟨other, hother, of_decide_eq_true h⟩)
    have hinner : insertAll [] children = children :=
      insertAll_of_noneTwice [] children hchildren
    rw [insert, hfound]
    simp only [Option.bind_none, Option.merge_none_left, Option.map_none, Option.getD_none, hinner]
    exact replace_of_not_mem hname

theorem insertAll_of_noneTwice (loads more : List RelationLoad) (h : NoneTwice (loads ++ more)) :
    insertAll loads more = loads ++ more := by
  cases more with
  | nil => rw [insertAll, List.append_nil]
  | cons load rest =>
    obtain ⟨hnodup, hchildren⟩ := noneTwice_iff.1 h
    have hname : load.relationship.name ∉ loads.map (·.relationship.name) := by
      rw [List.map_append, List.map_cons] at hnodup
      exact fun hmem => List.disjoint_of_nodup_append hnodup hmem (List.mem_cons_self ..)
    rw [insertAll, insert_of_not_mem loads load hname (hchildren load (by simp)),
      insertAll_of_noneTwice (loads ++ [load]) rest (by simpa using h), List.append_assoc,
      List.singleton_append]

end

/-- Loads of different relations stay as they are. -/
theorem merged_of_noneTwice (h : NoneTwice loads) : merged loads = loads :=
  insertAll_of_noneTwice [] loads h

/-! ## The conditions of merged loads -/

theorem allCriteria_subset (h : load ∈ loads) : load.allCriteria ⊆ allCriteriaOf loads := by
  induction loads with
  | nil => cases h
  | cons first rest ih =>
    rw [allCriteriaOf]
    rcases List.mem_cons.1 h with rfl | h
    · exact List.subset_append_left ..
    · exact List.Subset.trans (ih h) (List.subset_append_right ..)

theorem allCriteriaOf_subset {ps : List Predicate} (h : ∀ load ∈ loads, load.allCriteria ⊆ ps) :
    allCriteriaOf loads ⊆ ps := by
  induction loads with
  | nil => exact List.nil_subset _
  | cons first rest ih =>
    rw [List.forall_mem_cons] at h
    rw [allCriteriaOf]
    exact List.append_subset.2 ⟨h.1, ih h.2⟩

theorem allCriteriaOf_children_subset (load : RelationLoad) :
    allCriteriaOf load.children ⊆ load.allCriteria := by
  cases load
  exact List.subset_append_right ..

theorem allCriteriaOf_children_of_find? : allCriteriaOf
    (((loads.find? (·.relationship.name = name)).map (·.children)).getD []) ⊆
      allCriteriaOf loads := by
  cases hfound : loads.find? (·.relationship.name = name) with
  | none => exact List.nil_subset _
  | some load =>
    exact List.Subset.trans (allCriteriaOf_children_subset load)
      (allCriteria_subset (List.mem_of_find?_eq_some hfound))

mutual

theorem allCriteriaOf_insert_subset (loads : List RelationLoad) (load : RelationLoad) :
    allCriteriaOf (insert loads load) ⊆ allCriteriaOf loads ++ load.allCriteria := by
  cases load with
  | mk r owner target criteria restriction children =>
    have hinner := allCriteriaOf_insertAll_subset
      (((loads.find? (·.relationship.name = r.name)).map (·.children)).getD []) children
    rw [insert]
    refine allCriteriaOf_subset fun other hother => ?_
    rcases mem_replace hother with rfl | hother
    · rw [allCriteria, allCriteria]
      refine List.append_subset.2 ⟨?_, List.Subset.trans hinner (List.append_subset.2 ⟨?_, ?_⟩)⟩
      · exact List.Subset.trans (List.subset_append_left ..) (List.subset_append_right ..)
      · exact List.Subset.trans allCriteriaOf_children_of_find? (List.subset_append_left ..)
      · exact List.Subset.trans (List.subset_append_right ..) (List.subset_append_right ..)
    · exact List.Subset.trans (allCriteria_subset hother) (List.subset_append_left ..)

theorem allCriteriaOf_insertAll_subset (loads more : List RelationLoad) :
    allCriteriaOf (insertAll loads more) ⊆ allCriteriaOf loads ++ allCriteriaOf more := by
  cases more with
  | nil => exact List.subset_append_left ..
  | cons load rest =>
    rw [insertAll, allCriteriaOf, ← List.append_assoc]
    refine List.Subset.trans (allCriteriaOf_insertAll_subset (insert loads load) rest) ?_
    exact List.append_subset.2 ⟨List.Subset.trans (allCriteriaOf_insert_subset loads load)
      (List.subset_append_left ..), List.subset_append_right ..⟩

end

/-- Merging loads brings no conditions, so what the store takes it takes again. -/
theorem storable_merged (h : Storable (allCriteriaOf loads)) :
    Storable (allCriteriaOf (merged loads)) :=
  h.subset (allCriteriaOf_insertAll_subset [] loads)

end ResourceQuery.RelationLoad
