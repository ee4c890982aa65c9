import ResourceQuery.Resolution
import Mathlib.Order.Basic

/-!
# What names stand for

A name in an entity stands for one thing: for its field, or else for its relation, or else for an
attribute of its class. Only fields and relations read anything.

* `Reach.StandsFor`, `Reach.field?_eq_ok`: what is looked up for a name;
* `Reach.classAttribute?_eq_of_shown`: class attributes do not depend on the source that the entity
  is read from, if messages show it under one name;
* `ResolvedField.argument?_eq_ok`, `ResolvedField.shown?_eq_ok`,
  `ResolvedField.groupOperands?_eq_ok`: what a statement has for it.
-/

namespace ResourceQuery

/-- What a name stands for in an entity that is read from a source. -/
inductive Reach.StandsFor (schema : Schema) (r : Reach) (name : String) : ResolvedField → Prop
  | column {column : Column} (hcolumn : r.entity.column? name = some column) :
    StandsFor schema r name (.column (column.at_ r.source))
  | relation {relationship : Relationship} {target : Entity}
    (hcolumn : r.entity.column? name = none)
    (hrelated : schema.related? r.entity name = some (relationship, target)) :
    StandsFor schema r name (.relation relationship
      (relationship.hop r target.reach (.linked relationship.name)).equalities)
  | ofClass {a : ClassAttribute} (hcolumn : r.entity.column? name = none)
    (hrelated : schema.related? r.entity name = none) (ha : r.classAttribute? name = some a) :
    StandsFor schema r name (.ofClass a)

namespace Reach

variable {schema : Schema} {r r' : Reach} {name : String} {field : ResolvedField}

theorem field?_eq_ok : r.field? schema name = .ok field ↔ r.StandsFor schema name field := by
  constructor
  · intro h
    unfold field? at h
    split at h
    · next hcolumn =>
      cases h
      exact .column hcolumn
    · next hcolumn =>
      split at h
      · next hrelated =>
        cases h
        exact .relation hcolumn hrelated
      · next hrelated =>
        split at h
        · next ha =>
          cases h
          exact .ofClass hcolumn hrelated ha
        · cases h
  · rintro (hcolumn | ⟨hcolumn, hrelated⟩ | ⟨hcolumn, hrelated, ha⟩)
    · rw [field?, hcolumn]
    · rw [field?, hcolumn, hrelated]
    · simp only [field?, hcolumn, hrelated, ha]

/-- The name of a field stands for its column. -/
theorem field?_of_column {column : Column} (h : r.entity.column? name = some column) :
    r.field? schema name = .ok (.column (column.at_ r.source)) :=
  field?_eq_ok.2 (.column h)

theorem classAttribute?_eq_of_shown (hentity : r.entity = r'.entity) (hshown : r.shown = r'.shown) :
    r.classAttribute? name = r'.classAttribute? name := by
  rw [classAttribute?, classAttribute?, hentity, hshown]

end Reach

namespace ResolvedField

variable {r : Reach} {field : ResolvedField} {x : Operand} {group : List Operand}

/-- A table is no argument; anything else is its own. -/
theorem argument?_eq_ok :
    field.argument? = .ok x ↔ field ≠ .ofClass .table ∧ x = field.operand := by
  cases field with
  | column c => simp [argument?, operand, eq_comm]
  | relation r equalities => simp [argument?, operand, eq_comm]
  | ofClass a => cases a <;> simp [argument?, operand, eq_comm]

/-- Fields and relations are shown, and class attributes are not. -/
theorem shown?_eq_ok :
    field.shown? = .ok x ↔ (∀ a, field ≠ .ofClass a) ∧ x = field.operand := by
  cases field <;> simp [shown?, operand, eq_comm]

/-- What rows are grouped by reads the source that the entity is read from and what stands for the
name, or it is a label. -/
theorem mem_groupOperands? (h : field.groupOperands? r = .ok group) (hx : x ∈ group) :
    (∃ s, field = .ofClass (.text s) ∧ x = .label s) ∨
      (∃ column ∈ r.entity.columns, field = .ofClass .table ∧ x = .column (column.at_ r.source)) ∨
      (∀ a, field ≠ .ofClass a) ∧ x = field.operand := by
  cases field with
  | column c =>
    cases h
    exact .inr (.inr ⟨fun a => ResolvedField.noConfusion, List.mem_singleton.1 hx⟩)
  | relation r equalities =>
    cases h
    exact .inr (.inr ⟨fun a => ResolvedField.noConfusion, List.mem_singleton.1 hx⟩)
  | ofClass a =>
    cases a with
    | text s =>
      cases h
      exact .inl ⟨s, rfl, List.mem_singleton.1 hx⟩
    | object kind => cases h
    | table =>
      cases h
      obtain ⟨column, hcolumn, rfl⟩ := List.mem_map.1 hx
      exact .inr (.inl ⟨column, hcolumn, rfl, rfl⟩)

/-- Rows of an entity that has columns are grouped by something under every name. -/
theorem groupOperands?_ne_nil (hcolumns : r.entity.columns ≠ [])
    (h : field.groupOperands? r = .ok group) : group ≠ [] := by
  unfold groupOperands? at h
  split at h <;> cases h <;> simp [hcolumns]

end ResolvedField

end ResourceQuery
