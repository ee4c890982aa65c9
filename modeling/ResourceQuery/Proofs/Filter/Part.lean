import Mathlib.Data.List.Forall2
import ResourceQuery.Filter.Condition
import ResourceQuery.Proofs.Routed

/-!
# Clauses by the relation they start with

How the clauses of a filter fall into those on the entity itself and those behind each relation.

* `Part.heads`: the relations that clauses start with;
* `Part.field_mem_ofEntries`, `Part.relation_mem_ofEntries`: the parts of a filter are its clauses
  on fields and the relations that clauses start with;
* `Part.depth_behind_lt`: behind a relation the paths are shorter;
* `Part.behind_perm`, `Part.depth_perm`: the order of the clauses does not matter;
* `Part.depth_eq_of_forall₂`, `Part.rel_localClauses`: filters with paths as long.
-/

namespace ResourceQuery.Part

/-- The relations that some clauses start with, as often as clauses do. -/
def heads (entries : List FilterEntry) : List String := entries.filterMap (·.1.head?)

/-- Clauses behind a relation are items behind a name. -/
theorem behind_eq (name : String) (entries : List FilterEntry) :
    behind name entries = Routed.behind name entries := by
  refine List.filterMap_congr fun e _ => ?_
  obtain ⟨_ | ⟨head, rest⟩, c⟩ := e <;> rfl

@[simp] theorem heads_local (c : FilterClause) (entries : List FilterEntry) :
    heads (([], c) :: entries) = heads entries := rfl

@[simp] theorem heads_behind (name : String) (rest : List String) (c : FilterClause)
    (entries : List FilterEntry) : heads ((name :: rest, c) :: entries) = name :: heads entries :=
  rfl

@[simp] theorem localClauses_local (c : FilterClause) (entries : List FilterEntry) :
    localClauses (([], c) :: entries) = c :: localClauses entries := rfl

@[simp] theorem localClauses_behind (name : String) (rest : List String) (c : FilterClause)
    (entries : List FilterEntry) :
    localClauses ((name :: rest, c) :: entries) = localClauses entries := rfl

theorem mem_localClauses {c : FilterClause} {entries : List FilterEntry} :
    c ∈ localClauses entries ↔ ([], c) ∈ entries := by
  simp only [localClauses, List.mem_filterMap]
  constructor
  · rintro ⟨⟨_ | ⟨head, rest⟩, d⟩, hd, h⟩
    · cases h
      exact hd
    · cases h
  · exact fun h => ⟨_, h, rfl⟩

theorem mem_heads {name : String} {entries : List FilterEntry} :
    name ∈ heads entries ↔ ∃ rest c, (name :: rest, c) ∈ entries :=
  Routed.mem_heads

theorem mem_behind {name : String} {e : FilterEntry} {entries : List FilterEntry} :
    e ∈ behind name entries ↔ (name :: e.1, e.2) ∈ entries := by
  rw [behind_eq]
  exact Routed.mem_behind

/-! ## The parts of a filter -/

theorem field_mem_ofEntries {c : FilterClause} {seen : List String} {entries : List FilterEntry} :
    field c ∈ ofEntries seen entries ↔ c ∈ localClauses entries := by
  induction entries generalizing seen with
  | nil => simp [ofEntries, localClauses]
  | cons e entries ih =>
    obtain ⟨_ | ⟨head, rest⟩, d⟩ := e
    · simp [ofEntries, ih]
    · rw [ofEntries, localClauses_behind]
      split <;> simp [ih]

theorem relation_mem_ofEntries {name : String} {seen : List String}
    {entries : List FilterEntry} :
    relation name ∈ ofEntries seen entries ↔ name ∈ heads entries ∧ name ∉ seen := by
  induction entries generalizing seen with
  | nil => simp [ofEntries, heads]
  | cons e entries ih =>
    obtain ⟨_ | ⟨head, rest⟩, d⟩ := e
    · simp [ofEntries, ih]
    · rw [ofEntries, heads_behind]
      split
      · next hseen =>
        rw [ih, List.mem_cons]
        constructor
        · exact fun ⟨h, hn⟩ => ⟨.inr h, hn⟩
        · rintro ⟨rfl | h, hn⟩
          · exact absurd hseen hn
          · exact ⟨h, hn⟩
      · next hseen =>
        simp only [List.mem_cons, ih, relation.injEq, not_or]
        constructor
        · rintro (rfl | ⟨h, -, hn⟩)
          · exact ⟨.inl rfl, hseen⟩
          · exact ⟨.inr h, hn⟩
        · rintro ⟨h, hn⟩
          by_cases hname : name = head
          · exact .inl hname
          · exact .inr ⟨h.resolve_left hname, hname, hn⟩

/-- What holds of the parts of a filter holds of its clauses on fields and of the relations that
clauses start with. -/
theorem forall_ofEntries {entries : List FilterEntry} {q : Part → Prop} :
    (∀ part ∈ ofEntries [] entries, q part) ↔
      (∀ c ∈ localClauses entries, q (field c)) ∧ ∀ name ∈ heads entries, q (relation name) := by
  constructor
  · intro h
    exact ⟨fun c hc => h _ (field_mem_ofEntries.2 hc),
      fun name hname => h _ (relation_mem_ofEntries.2 ⟨hname, List.not_mem_nil⟩)⟩
  · rintro ⟨hfield, hrelation⟩ (c | name) hpart
    · exact hfield c (field_mem_ofEntries.1 hpart)
    · exact hrelation name (relation_mem_ofEntries.1 hpart).1

theorem ofEntries_ne_nil {entries : List FilterEntry} (h : entries ≠ []) :
    ofEntries [] entries ≠ [] := by
  obtain ⟨⟨_ | ⟨name, path⟩, c⟩, rest, rfl⟩ := List.exists_cons_of_ne_nil h
  · exact List.cons_ne_nil _ _
  · rw [ofEntries, if_neg List.not_mem_nil]
    exact List.cons_ne_nil _ _

theorem behind_ne_nil {name : String} {entries : List FilterEntry} (h : name ∈ heads entries) :
    behind name entries ≠ [] := by
  obtain ⟨path, c, hc⟩ := mem_heads.1 h
  exact List.ne_nil_of_mem (a := (path, c)) (mem_behind.2 hc)

/-! ## Shorter paths -/

theorem length_lt_depth {e : FilterEntry} {entries : List FilterEntry} (h : e ∈ entries) :
    e.1.length < depth entries := by
  induction entries with
  | nil => cases h
  | cons d entries ih =>
    simp only [depth, List.foldr_cons] at ih ⊢
    rcases List.mem_cons.1 h with rfl | h
    · omega
    · have := ih h
      omega

theorem depth_le {n : Nat} {entries : List FilterEntry} (h : ∀ e ∈ entries, e.1.length < n)
    (hn : 0 < n) : depth entries ≤ n := by
  induction entries with
  | nil => exact hn
  | cons d entries ih =>
    have hd := h d (List.mem_cons_self ..)
    have := ih fun e he => h e (List.mem_cons_of_mem _ he)
    simp only [depth, List.foldr_cons] at this ⊢
    omega

theorem depth_behind_lt {name : String} {entries : List FilterEntry} (h : name ∈ heads entries) :
    depth (behind name entries) < depth entries := by
  obtain ⟨rest, c, hc⟩ := mem_heads.1 h
  have hpos := length_lt_depth hc
  simp only [List.length_cons] at hpos
  have hle : depth (behind name entries) ≤ depth entries - 1 := by
    refine depth_le (fun e he => ?_) (by omega)
    have := length_lt_depth (mem_behind.1 he)
    simp only [List.length_cons] at this
    omega
  omega

/-! ## The order of the clauses -/

theorem heads_perm {entries entries' : List FilterEntry} (h : entries.Perm entries') :
    (heads entries).Perm (heads entries') := h.filterMap _

theorem localClauses_perm {entries entries' : List FilterEntry} (h : entries.Perm entries') :
    (localClauses entries).Perm (localClauses entries') := h.filterMap _

theorem behind_perm {entries entries' : List FilterEntry} (name : String)
    (h : entries.Perm entries') : (behind name entries).Perm (behind name entries') :=
  h.filterMap _

theorem depth_perm {entries entries' : List FilterEntry} (h : entries.Perm entries') :
    depth entries = depth entries' := by
  refine Nat.le_antisymm ?_ ?_
  · exact depth_le (fun e he => length_lt_depth (h.mem_iff.1 he)) (by simp [depth])
  · exact depth_le (fun e he => length_lt_depth (h.mem_iff.2 he)) (by simp [depth])

/-! ## Two filters -/

theorem depth_eq_of_forall₂ {entries entries' : List FilterEntry}
    (h : List.Forall₂ (fun a b => a.1.length = b.1.length) entries entries') :
    depth entries = depth entries' := by
  refine congrArg (· + 1) ?_
  induction h with
  | nil => rfl
  | cons hab _ ih => rw [List.foldr_cons, List.foldr_cons, hab, ih]

theorem rel_localClauses {R : FilterClause → FilterClause → Prop}
    {entries entries' : List FilterEntry}
    (h : List.Forall₂ (fun a b => a.1.length = b.1.length ∧ (a.1 = [] → R a.2 b.2)) entries
      entries') : List.Forall₂ R (localClauses entries) (localClauses entries') := by
  refine List.rel_filterMap (fun a b hab => ?_) h
  obtain ⟨hlength, hclause⟩ := hab
  obtain ⟨_ | ⟨head, rest⟩, c⟩ := a <;> obtain ⟨_ | ⟨head', rest'⟩, c'⟩ := b
  · exact .some (hclause rfl)
  · cases hlength
  · cases hlength
  · exact .none

end ResourceQuery.Part
