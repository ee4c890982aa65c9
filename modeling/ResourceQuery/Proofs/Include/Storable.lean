import ResourceQuery.Include.Session
import ResourceQuery.Proofs.Outcome

/-!
# Loads that the store takes

A load is refused for the values of its conditions and for nothing else, and only when it looks for
records.

* `RelationLoad.allCriteria`: the conditions of a load and of those behind it;
* `Storable`: conditions whose values the store can hold;
* `RelationLoad.exists_runAll`: loads with such conditions load, whatever they start from.
-/

namespace ResourceQuery

/-- Whether the store can hold the values of some conditions. -/
def Storable (criteria : List Predicate) : Prop := criteriaFault? criteria = none

instance (criteria : List Predicate) : Decidable (Storable criteria) :=
  inferInstanceAs (Decidable (_ = none))

theorem storable_iff {criteria : List Predicate} : Storable criteria ↔
    ∀ p ∈ criteria, ∀ v ∈ Statement.values (p.pieces [] .alone), v.storeFault? = none := by
  rw [Storable, criteriaFault?, List.findSome?_eq_none_iff]
  simp only [List.mem_flatMap]
  exact ⟨fun h p hp v hv => h v ⟨p, hp, hv⟩, fun h v ⟨p, hp, hv⟩ => h p hp v hv⟩

theorem Storable.subset {criteria criteria' : List Predicate} (h : Storable criteria)
    (hsub : criteria' ⊆ criteria) : Storable criteria' :=
  storable_iff.2 fun p hp => storable_iff.1 h p (hsub hp)

theorem checkCriteria_eq_ok {asked : List Visit} {criteria : List Predicate}
    (h : Storable criteria) : checkCriteria asked criteria = .ok () := by
  unfold checkCriteria
  split
  · rfl
  · rw [h]

namespace RelationLoad

mutual

/-- The conditions of a load and of those behind it. -/
def allCriteria : RelationLoad → List Predicate
  | mk _ _ _ criteria _ children => criteria ++ allCriteriaOf children

/-- The conditions of some loads and of those behind them. -/
def allCriteriaOf : List RelationLoad → List Predicate
  | [] => []
  | load :: rest => allCriteria load ++ allCriteriaOf rest

end

mutual

theorem exists_run (db : Database) (inherited : List (String × Predicate)) (visits : List Visit)
    (s : Session) (load : RelationLoad)
    (h : Storable (inherited.map (·.2) ++ load.allCriteria)) :
    ∃ s', run db inherited visits s load = .ok s' := by
  cases load with
  | mk r owner target criteria restriction children =>
    rw [allCriteria] at h
    have hmap : (inherited ++ criteria.map fun p => (target.name, p)).map (·.2) =
        inherited.map (·.2) ++ criteria := by
      simp [Function.comp_def]
    rw [← List.append_assoc, ← hmap] at h
    have hactive : Storable (((inherited ++ criteria.map fun p => (target.name, p)).filter
        (·.1 == target.name)).map (·.2)) :=
      h.subset fun p hp => List.mem_append_left _ ((List.filter_sublist.map _).subset hp)
    obtain ⟨s', hs'⟩ := exists_runAll db _ _ _ children h
    rw [run]
    exact ⟨_, bind_eq_ok.2 ⟨(), checkCriteria_eq_ok hactive, bind_eq_ok.2 ⟨s', hs', rfl⟩⟩⟩

theorem exists_runAll (db : Database) (inherited : List (String × Predicate))
    (visits : List Visit) (s : Session) (loads : List RelationLoad)
    (h : Storable (inherited.map (·.2) ++ allCriteriaOf loads)) :
    ∃ s', runAll db inherited visits s loads = .ok s' := by
  cases loads with
  | nil => exact ⟨s, rfl⟩
  | cons load rest =>
    rw [allCriteriaOf] at h
    obtain ⟨s', hs'⟩ := exists_run db inherited visits s load
      (h.subset fun p hp => by simp only [List.mem_append] at hp ⊢; tauto)
    obtain ⟨s'', hs''⟩ := exists_runAll db inherited visits s' rest
      (h.subset fun p hp => by simp only [List.mem_append] at hp ⊢; tauto)
    exact ⟨s'', bind_eq_ok.2 ⟨s', hs', hs''⟩⟩

end

end RelationLoad

end ResourceQuery
