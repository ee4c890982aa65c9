import ResourceQuery.Statement.Frame

/-!
# Three-valued truth

A condition is true, false or unknown, and keeps a row only when it is true.

* `andTruth_eq_true_iff`, `orTruth_eq_true_iff`: when two truth values give a true one;
* `allTruth`, `anyTruth`: the truth of all of some and of one of some;
* `Predicate.truth_allOf`, `Predicate.truth_anyOf`: conditions on several things have these truths.
-/

namespace ResourceQuery

theorem andTruth_eq_true_iff {a b : Option Bool} :
    andTruth a b = some true ↔ a = some true ∧ b = some true := by
  rcases a with _ | _ | _ <;> rcases b with _ | _ | _ <;> simp [andTruth]

theorem orTruth_eq_true_iff {a b : Option Bool} :
    orTruth a b = some true ↔ a = some true ∨ b = some true := by
  rcases a with _ | _ | _ <;> rcases b with _ | _ | _ <;> simp [orTruth]

theorem andTruth_true (a : Option Bool) : andTruth a (some true) = a := by
  rcases a with _ | _ | _ <;> rfl

theorem orTruth_false (a : Option Bool) : orTruth a (some false) = a := by
  rcases a with _ | _ | _ <;> rfl

/-- The truth of all of some. -/
def allTruth (truths : List (Option Bool)) : Option Bool := truths.foldr andTruth (some true)

/-- The truth of one of some. -/
def anyTruth (truths : List (Option Bool)) : Option Bool := truths.foldr orTruth (some false)

theorem allTruth_eq_true_iff {truths : List (Option Bool)} :
    allTruth truths = some true ↔ ∀ t ∈ truths, t = some true := by
  induction truths with
  | nil => simp [allTruth]
  | cons t rest ih =>
    have h : allTruth (t :: rest) = andTruth t (allTruth rest) := rfl
    rw [h, andTruth_eq_true_iff, ih, List.forall_mem_cons]

theorem anyTruth_eq_true_iff {truths : List (Option Bool)} :
    anyTruth truths = some true ↔ ∃ t ∈ truths, t = some true := by
  induction truths with
  | nil => simp [anyTruth]
  | cons t rest ih =>
    have h : anyTruth (t :: rest) = orTruth t (anyTruth rest) := rfl
    rw [h, orTruth_eq_true_iff, ih]
    simp [eq_comm]

theorem allTruth_map_some {α : Type} {xs : List α} {p : α → Bool} :
    allTruth (xs.map fun x => some (p x)) = some (xs.all p) := by
  induction xs with
  | nil => rfl
  | cons x rest ih =>
    have h : allTruth ((x :: rest).map fun x => some (p x)) =
        andTruth (some (p x)) (allTruth (rest.map fun x => some (p x))) := rfl
    rw [h, ih, List.all_cons]
    cases p x <;> cases rest.all p <;> rfl

theorem anyTruth_map_some {α : Type} {xs : List α} {p : α → Bool} :
    anyTruth (xs.map fun x => some (p x)) = some (xs.any p) := by
  induction xs with
  | nil => rfl
  | cons x rest ih =>
    have h : anyTruth ((x :: rest).map fun x => some (p x)) =
        orTruth (some (p x)) (anyTruth (rest.map fun x => some (p x))) := rfl
    rw [h, ih, List.any_cons]
    cases p x <;> cases rest.any p <;> rfl

namespace Predicate

variable (db : Database) (f : Frame)

theorem truth_ofTruth (b : Bool) : (ofTruth b).truth db f = some b := by
  cases b <;> rfl

theorem truth_allOf (ps : List Predicate) :
    (allOf ps).truth db f = allTruth (ps.map (·.truth db f)) := by
  induction ps with
  | nil => rfl
  | cons p rest ih =>
    cases rest with
    | nil => exact (andTruth_true _).symm
    | cons q rest => exact congrArg (andTruth (p.truth db f)) ih

theorem truth_anyOf (ps : List Predicate) :
    (anyOf ps).truth db f = anyTruth (ps.map (·.truth db f)) := by
  induction ps with
  | nil => rfl
  | cons p rest ih =>
    cases rest with
    | nil => exact (orTruth_false _).symm
    | cons q rest => exact congrArg (orTruth (p.truth db f)) ih

theorem holds_iff {p : Predicate} : p.holds db f = true ↔ p.truth db f = some true := by
  simp [holds]

theorem holds_allOf (ps : List Predicate) :
    (allOf ps).holds db f = true ↔ ∀ p ∈ ps, p.holds db f = true := by
  simp [holds_iff, truth_allOf, allTruth_eq_true_iff]

end Predicate

end ResourceQuery
