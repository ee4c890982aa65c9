import ResourceQuery.Proofs.Statement.Truth

/-!
# Simplified conditions

Parts that hold or fail whatever the row is are not kept in a condition. What is left says the same,
and mentions nothing more.

* `Predicate.truth_bothOf`, `Predicate.truth_eitherOf`: what the two ways of simplifying say;
* `Predicate.KeepsAlternatives`: conditions whose alternatives lose nothing that they mention;
* `Predicate.simplified_eq_never_or`: such a condition loses what it mentions only when it fails;
* `Predicate.truth_simplified`: it says the same when it is simplified;
* `Predicate.allOf_induction`, `Predicate.anyOf_induction`: what is so of all of some conditions;
* `Predicate.IsOpen`, `Predicate.simplified_of_isOpen`: conditions that stay as they are.

A part that fails takes everything beside it away, and so do the sources that only those parts
mention. That does not matter for the truth of the whole, unless it stands in an alternative that is
kept: hence the condition on alternatives.
-/

namespace ResourceQuery.Predicate

variable {p q : Predicate} {db : Database} {f : Frame}

theorem isAlways_iff : p.isAlways = true ↔ p = always := by
  cases p <;> simp [isAlways]

theorem isNever_iff : p.isNever = true ↔ p = never := by
  cases p <;> simp [isNever]

theorem sources_ofTruth (b : Bool) : (ofTruth b).sources = [] := by
  cases b <;> rfl

/-! ## Two conditions -/

theorem bothOf_cases (p q : Predicate) :
    (p = never ∨ q = never) ∧ bothOf p q = never ∨ p = always ∧ bothOf p q = q ∨
      q = always ∧ bothOf p q = p ∨ bothOf p q = both p q := by
  unfold bothOf
  split
  · next h => exact .inl ⟨by simpa [isNever_iff] using h, rfl⟩
  · split
    · next h => exact .inr (.inl ⟨isAlways_iff.1 h, rfl⟩)
    · split
      · next h => exact .inr (.inr (.inl ⟨isAlways_iff.1 h, rfl⟩))
      · exact .inr (.inr (.inr rfl))

theorem eitherOf_cases (p q : Predicate) :
    (∃ a b, p = ofTruth a ∧ q = ofTruth b ∧ eitherOf p q = ofTruth (a || b)) ∨
      eitherOf p q = either p q := by
  unfold eitherOf
  split
  · next h =>
    have hconstant : ∀ p : Predicate, (p.isAlways || p.isNever) = true →
        p = ofTruth p.isAlways := by
      intro p hp
      cases p <;> first | rfl | cases hp
    rw [Bool.and_eq_true] at h
    exact .inl ⟨_, _, hconstant p h.1, hconstant q h.2, rfl⟩
  · exact .inr rfl

theorem truth_bothOf (p q : Predicate) :
    (bothOf p q).truth db f = andTruth (p.truth db f) (q.truth db f) := by
  rcases bothOf_cases p q with ⟨rfl | rfl, h⟩ | ⟨rfl, h⟩ | ⟨rfl, h⟩ | h <;> rw [h]
  · cases q.truth db f <;> rfl
  · rcases p.truth db f with _ | _ | _ <;> rfl
  · rcases hq : q.truth db f with _ | _ | _ <;> simp [truth, andTruth]
  · exact (andTruth_true _).symm
  · rfl

theorem truth_eitherOf (p q : Predicate) :
    (eitherOf p q).truth db f = orTruth (p.truth db f) (q.truth db f) := by
  rcases eitherOf_cases p q with ⟨a, b, rfl, rfl, h⟩ | h <;> rw [h]
  · cases a <;> cases b <;> rfl
  · rfl

theorem sources_bothOf (p q : Predicate) :
    bothOf p q = never ∨ (bothOf p q).sources = p.sources ++ q.sources := by
  rcases bothOf_cases p q with ⟨-, h⟩ | ⟨rfl, h⟩ | ⟨rfl, h⟩ | h
  · exact .inl h
  · exact .inr (by rw [h]; rfl)
  · exact .inr (by rw [h]; exact (List.append_nil _).symm)
  · exact .inr (by rw [h]; rfl)

theorem sources_eitherOf (p q : Predicate) :
    (eitherOf p q).sources = p.sources ++ q.sources := by
  rcases eitherOf_cases p q with ⟨a, b, rfl, rfl, h⟩ | h <;> rw [h]
  · simp only [sources_ofTruth, List.append_nil]
  · rfl

/-! ## Conditions of any depth -/

/-- A simplified condition mentions nothing new. -/
theorem sources_simplified_subset (p : Predicate) : p.simplified.sources ⊆ p.sources := by
  have hparts : ∀ {ss ss' ts ts' : List Source}, ss ⊆ ss' → ts ⊆ ts' → ss ++ ts ⊆ ss' ++ ts' := by
    intro ss ss' ts ts' hs ht
    exact List.append_subset.2 ⟨List.Subset.trans hs (List.subset_append_left ..),
      List.Subset.trans ht (List.subset_append_right ..)⟩
  induction p with
  | both p q ihp ihq =>
    rcases sources_bothOf p.simplified q.simplified with h | h
    · rw [simplified, h]
      exact List.nil_subset _
    · rw [simplified, h]
      exact hparts ihp ihq
  | either p q ihp ihq =>
    rw [simplified, sources_eitherOf]
    exact hparts ihp ihq
  | _ => exact List.Subset.refl _

/-- Whether no alternative in a condition, at any depth, mentions less when it is simplified. -/
def KeepsAlternatives : Predicate → Prop
  | both p q => p.KeepsAlternatives ∧ q.KeepsAlternatives
  | either p q => (p.KeepsAlternatives ∧ q.KeepsAlternatives) ∧
      p.simplified.sources = p.sources ∧ q.simplified.sources = q.sources
  | related _ criterion => criterion.KeepsAlternatives
  | _ => True

/-- A condition that mentions less when it is simplified never holds. -/
theorem simplified_eq_never_or (h : p.KeepsAlternatives) :
    p.simplified = never ∨ p.simplified.sources = p.sources := by
  induction p with
  | both p q ihp ihq =>
    rw [simplified]
    rcases ihp h.1 with hp | hp
    · rw [hp]
      exact .inl (by simp [bothOf, isNever])
    · rcases ihq h.2 with hq | hq
      · rw [hq]
        exact .inl (by simp [bothOf, isNever])
      · rw [sources, ← hp, ← hq]
        exact sources_bothOf _ _
  | either p q =>
    rw [simplified, sources_eitherOf, h.2.1, h.2.2]
    exact .inr rfl
  | _ => exact .inr rfl

/-- A simplified condition says the same. -/
theorem truth_simplified (h : p.KeepsAlternatives) (f : Frame) :
    p.simplified.truth db f = p.truth db f := by
  induction p generalizing f with
  | both p q ihp ihq => rw [simplified, truth_bothOf, ihp h.1, ihq h.2, truth]
  | either p q ihp ihq => rw [simplified, truth_eitherOf, ihp h.1.1, ihq h.1.2, truth]
  | related hop criterion ih =>
    rw [simplified]
    rcases simplified_eq_never_or (p := criterion) h with hnever | hsources
    · -- neither has a related row, whatever else is read beside it
      have hfalse : ∀ g, criterion.truth db g = some false := by
        intro g
        rw [← ih h g, hnever]
        rfl
      have hand : ∀ a, andTruth a (some false) = some false := by
        rintro (_ | _ | _) <;> rfl
      have hnone : ∀ frames : List Frame, (frames.any fun _ => false) = false := by
        intro frames
        rw [List.any_eq_false]
        exact fun _ _ => Bool.false_ne_true
      simp [truth, hnever, hfalse, hand, hnone]
    · simp only [truth, Hop.unread, hsources, ih h]
  | _ => rfl

/-! ## Several conditions -/

/-- What is so of some conditions, and of two together when it is of each, is so of all of them
together. -/
theorem allOf_induction {c : Predicate → Prop} {ps : List Predicate} (hnil : ps = [] → c always)
    (hboth : ∀ p q, c p → c q → c (both p q)) (h : ∀ p ∈ ps, c p) : c (allOf ps) := by
  induction ps with
  | nil => exact hnil rfl
  | cons p rest ih =>
    rw [List.forall_mem_cons] at h
    cases rest with
    | nil => exact h.1
    | cons q rest => exact hboth p _ h.1 (ih nofun h.2)

/-- What is so of some conditions, and of two alternatives when it is of each, is so of all of them
as alternatives. -/
theorem anyOf_induction {c : Predicate → Prop} {ps : List Predicate} (hnil : ps = [] → c never)
    (heither : ∀ p q, c p → c q → c (either p q)) (h : ∀ p ∈ ps, c p) : c (anyOf ps) := by
  induction ps with
  | nil => exact hnil rfl
  | cons p rest ih =>
    rw [List.forall_mem_cons] at h
    cases rest with
    | nil => exact h.1
    | cons q rest => exact heither p _ h.1 (ih nofun h.2)

theorem keepsAlternatives_allOf {ps : List Predicate} (h : ∀ p ∈ ps, p.KeepsAlternatives) :
    (allOf ps).KeepsAlternatives :=
  allOf_induction (fun _ => trivial) (fun _ _ => And.intro) h

theorem keepsAlternatives_anyOf {ps : List Predicate}
    (h : ∀ p ∈ ps, p.KeepsAlternatives ∧ p.simplified.sources = p.sources) :
    (anyOf ps).KeepsAlternatives := by
  refine (anyOf_induction (c := fun p => p.KeepsAlternatives ∧ p.simplified.sources = p.sources)
    (fun _ => ⟨trivial, rfl⟩) (fun p q hp hq => ⟨⟨⟨hp.1, hq.1⟩, hp.2, hq.2⟩, ?_⟩) h).1
  rw [simplified, sources_eitherOf, hp.2, hq.2]
  rfl

/-! ## Conditions without constant parts -/

/-- Whether no part of a condition, at any depth, holds or fails whatever the row is. -/
def IsOpen : Predicate → Prop
  | always | never => False
  | both p q | either p q => p.IsOpen ∧ q.IsOpen
  | related _ criterion => criterion.IsOpen
  | _ => True

/-- A condition without constant parts stays as it is. -/
theorem simplified_of_isOpen (h : p.IsOpen) : p.simplified = p := by
  have hconstant : ∀ p : Predicate, p.IsOpen → p.isAlways = false ∧ p.isNever = false := by
    intro p hp
    cases p <;> first | exact ⟨rfl, rfl⟩ | cases hp
  induction p with
  | both p q ihp ihq =>
    rw [simplified, ihp h.1, ihq h.2, bothOf, (hconstant p h.1).1, (hconstant p h.1).2,
      (hconstant q h.2).1, (hconstant q h.2).2]
    rfl
  | either p q ihp ihq =>
    rw [simplified, ihp h.1, ihq h.2, eitherOf, (hconstant p h.1).1, (hconstant p h.1).2]
    rfl
  | related hop criterion ih => rw [simplified, ih h]
  | _ => rfl

theorem isOpen_allOf {ps : List Predicate} (hne : ps ≠ []) (h : ∀ p ∈ ps, p.IsOpen) :
    (allOf ps).IsOpen :=
  allOf_induction (fun hnil => absurd hnil hne) (fun _ _ => And.intro) h

theorem isOpen_anyOf {ps : List Predicate} (hne : ps ≠ []) (h : ∀ p ∈ ps, p.IsOpen) :
    (anyOf ps).IsOpen :=
  anyOf_induction (fun hnil => absurd hnil hne) (fun _ _ => And.intro) h

theorem simplified_allOf {ps : List Predicate} (h : ∀ p ∈ ps, p.IsOpen) :
    (allOf ps).simplified = allOf ps := by
  cases ps with
  | nil => rfl
  | cons p rest => exact simplified_of_isOpen (isOpen_allOf (List.cons_ne_nil p rest) h)

end ResourceQuery.Predicate
