import Mathlib.Data.List.Forall2

/-!
# Computations that may fail

What the results of computations in several steps say about the results of the steps.

* `bind_eq_ok`, `map_eq_ok`, `mapError_eq_ok`: a computation succeeds when its steps do;
* `mapM_eq_ok`: a computation on the elements of a list succeeds element by element;
* `FirstFault`, `mapM_eq_error`: it fails with the first element that does not succeed;
* `Agree`: two computations that both fail, for whatever reason, or have related results;
* `FailsUnless`: a computation that fails for one reason, and exactly when something does not hold.
-/

namespace ResourceQuery

variable {ε ε' α β γ δ : Type}

theorem bind_eq_ok {x : Except ε α} {f : α → Except ε β} {b : β} :
    (x >>= f) = .ok b ↔ ∃ a, x = .ok a ∧ f a = .ok b := by
  cases x <;> simp [bind, Except.bind]

theorem map_eq_ok {x : Except ε α} {f : α → β} {b : β} :
    x.map f = .ok b ↔ ∃ a, x = .ok a ∧ f a = b := by
  cases x <;> simp [Except.map]

theorem bind_eq_error {x : Except ε α} {f : α → Except ε β} {e : ε} :
    (x >>= f) = .error e ↔ x = .error e ∨ ∃ a, x = .ok a ∧ f a = .error e := by
  cases x <;> simp [bind, Except.bind]

theorem map_eq_error {x : Except ε α} {f : α → β} {e : ε} :
    x.map f = .error e ↔ x = .error e := by
  cases x <;> simp [Except.map]

theorem mapError_eq_ok {x : Except ε α} {f : ε → ε'} {a : α} :
    x.mapError f = .ok a ↔ x = .ok a := by
  cases x <;> simp [Except.mapError]

theorem toOption_eq_some {x : Except ε α} {a : α} : x.toOption = some a ↔ x = .ok a := by
  cases x <;> simp [Except.toOption]

theorem mapM_eq_ok {f : α → Except ε β} {xs : List α} {ys : List β} :
    xs.mapM f = .ok ys ↔ List.Forall₂ (fun x y => f x = .ok y) xs ys := by
  induction xs generalizing ys with
  | nil => simp [pure, Except.pure, eq_comm]
  | cons x xs ih =>
    simp only [List.mapM_cons, bind_eq_ok, ih, List.forall₂_cons_left_iff]
    constructor
    · rintro ⟨y, hy, ys', hys, h⟩
      exact ⟨y, ys', hy, hys, (Except.ok.inj h).symm⟩
    · rintro ⟨y, ys', hy, hys, rfl⟩
      exact ⟨y, hy, ys', hys, rfl⟩

theorem exists_mapM_eq_ok {f : α → Except ε β} {xs : List α} :
    (∃ ys, xs.mapM f = .ok ys) ↔ ∀ x ∈ xs, ∃ y, f x = .ok y := by
  simp only [mapM_eq_ok]
  induction xs with
  | nil => simp
  | cons x xs ih =>
    simp only [List.forall₂_cons_left_iff, List.mem_cons, forall_eq_or_imp, ← ih]
    constructor
    · rintro ⟨_, y, ys, hy, hys, rfl⟩
      exact ⟨⟨y, hy⟩, ys, hys⟩
    · rintro ⟨⟨y, hy⟩, ys, hys⟩
      exact ⟨y :: ys, y, ys, hy, hys, rfl⟩

/-- What holds of all results of a computation on a list holds of the result for each element. -/
theorem forall_of_mapM_eq_ok {f : α → Except ε β} {xs : List α} {ys : List β}
    (h : xs.mapM f = .ok ys) (p : β → Prop) :
    (∀ y ∈ ys, p y) ↔ ∀ x ∈ xs, ∀ y, f x = .ok y → p y := by
  rw [mapM_eq_ok] at h
  induction h with
  | nil => simp
  | @cons x y xs ys hxy hys ih => simp [ih, hxy]

theorem exists_of_mapM_eq_ok {f : α → Except ε β} {xs : List α} {ys : List β}
    (h : xs.mapM f = .ok ys) {y : β} (hy : y ∈ ys) : ∃ x ∈ xs, f x = .ok y :=
  (forall_of_mapM_eq_ok h fun y => ∃ x ∈ xs, f x = .ok y).2 (fun x hx _ hy => ⟨x, hx, hy⟩) y hy

theorem exists_mem_of_forall₂ {R : α → β → Prop} {xs : List α} {ys : List β}
    (h : List.Forall₂ R xs ys) {x : α} (hx : x ∈ xs) : ∃ y ∈ ys, R x y := by
  induction h with
  | nil => cases hx
  | @cons x' y xs ys hxy _ ih =>
    rcases List.mem_cons.1 hx with rfl | hx
    · exact ⟨y, List.mem_cons_self .., hxy⟩
    · obtain ⟨y', hy', hxy'⟩ := ih hx
      exact ⟨y', List.mem_cons_of_mem _ hy', hxy'⟩

theorem exists_mem_of_mapM_eq_ok {f : α → Except ε β} {xs : List α} {ys : List β}
    (h : xs.mapM f = .ok ys) {x : α} (hx : x ∈ xs) : ∃ y ∈ ys, f x = .ok y :=
  exists_mem_of_forall₂ (mapM_eq_ok.1 h) hx

theorem ne_nil_of_mapM_eq_ok {f : α → Except ε β} {xs : List α} {ys : List β}
    (h : xs.mapM f = .ok ys) (hxs : xs ≠ []) : ys ≠ [] := by
  obtain ⟨x, hx⟩ := List.exists_mem_of_ne_nil xs hxs
  obtain ⟨y, hy, -⟩ := exists_mem_of_mapM_eq_ok h hx
  exact List.ne_nil_of_mem hy

theorem forall_iff_of_mapM_eq_ok {f : α → Except ε β} {xs : List α} {ys : List β}
    (h : xs.mapM f = .ok ys) {p : β → Prop} {q : α → Prop}
    (hpq : ∀ x ∈ xs, ∀ y, f x = .ok y → (p y ↔ q x)) : (∀ y ∈ ys, p y) ↔ ∀ x ∈ xs, q x := by
  rw [forall_of_mapM_eq_ok h]
  refine forall₂_congr fun x hx => ?_
  obtain ⟨y, hy⟩ := exists_mapM_eq_ok.1 ⟨ys, h⟩ x hx
  rw [← hpq x hx y hy]
  exact ⟨fun h => h y hy, fun h y' hy' => by rwa [← Except.ok.inj (hy.symm.trans hy')]⟩

theorem map_eq_of_mapM_eq_ok {f : α → Except ε β} {g : β → γ} {g' : α → γ} {xs : List α}
    {ys : List β} (h : xs.mapM f = .ok ys) (hg : ∀ x ∈ xs, ∀ y, f x = .ok y → g y = g' x) :
    ys.map g = xs.map g' := by
  rw [mapM_eq_ok] at h
  induction h with
  | nil => rfl
  | cons hxy _ ih =>
    rw [List.forall_mem_cons] at hg
    rw [List.map_cons, List.map_cons, hg.1 _ hxy, ih hg.2]

theorem any_eq_of_forall₂ {p : α → Bool} {q : β → Bool} {xs : List α} {ys : List β}
    (h : List.Forall₂ (fun x y => p x = q y) xs ys) : xs.any p = ys.any q := by
  induction h with
  | nil => rfl
  | cons hxy _ ih => rw [List.any_cons, List.any_cons, hxy, ih]

/-! ## The first fault of a list -/

/-- Whether some element of a list has a fault, and all elements before it are as they should be. -/
def FirstFault (p : α → Prop) (fault : α → ε → Prop) (xs : List α) (e : ε) : Prop :=
  ∃ before x after, xs = before ++ x :: after ∧ (∀ y ∈ before, p y) ∧ fault x e

section FirstFault

variable {p q : α → Prop} {fault fault' : α → ε → Prop} {x : α} {xs : List α} {e : ε}

theorem not_firstFault_nil : ¬FirstFault p fault [] e := by
  rintro ⟨before, x, after, h, -⟩
  simp at h

theorem firstFault_cons :
    FirstFault p fault (x :: xs) e ↔ fault x e ∨ p x ∧ FirstFault p fault xs e := by
  constructor
  · rintro ⟨before, y, after, h, hbefore, hy⟩
    cases before with
    | nil =>
      obtain ⟨rfl, rfl⟩ := List.cons.inj h
      exact .inl hy
    | cons z before =>
      obtain ⟨rfl, rfl⟩ := List.cons.inj h
      rw [List.forall_mem_cons] at hbefore
      exact .inr ⟨hbefore.1, before, y, after, rfl, hbefore.2, hy⟩
  · rintro (hx | ⟨hx, before, y, after, rfl, hbefore, hy⟩)
    · exact ⟨[], x, xs, rfl, by simp, hx⟩
    · exact ⟨x :: before, y, after, rfl, List.forall_mem_cons.2 ⟨hx, hbefore⟩, hy⟩

theorem FirstFault.congr (hp : ∀ x, p x ↔ q x) (hfault : ∀ x, fault x e ↔ fault' x e) :
    FirstFault p fault xs e ↔ FirstFault q fault' xs e := by
  simp only [FirstFault, hp, hfault]

/-- A computation on a list fails with the first element that it fails on. -/
theorem mapM_eq_error {f : α → Except ε β} :
    xs.mapM f = .error e ↔
      FirstFault (fun x => ∃ y, f x = .ok y) (fun x e => f x = .error e) xs e := by
  induction xs with
  | nil => simp [pure, Except.pure, not_firstFault_nil]
  | cons x xs ih =>
    rw [List.mapM_cons, firstFault_cons, ← ih, bind_eq_error]
    refine or_congr_right ⟨?_, ?_⟩
    · rintro ⟨y, hy, h⟩
      exact ⟨⟨y, hy⟩, (bind_eq_error.1 h).resolve_right nofun⟩
    · rintro ⟨⟨y, hy⟩, h⟩
      exact ⟨y, hy, bind_eq_error.2 (.inl h)⟩

end FirstFault

/-! ## Two computations -/

/-- Two computations that both fail, or both succeed with related results. -/
inductive Agree (R : α → β → Prop) : Except ε α → Except ε β → Prop
  | error (e e' : ε) : Agree R (.error e) (.error e')
  | ok {a : α} {b : β} (h : R a b) : Agree R (.ok a) (.ok b)

namespace Agree

variable {α' β' : Type} {R : α → α' → Prop} {S : β → β' → Prop} {x : Except ε α}
  {x' : Except ε α'}

theorem bind {f : α → Except ε β} {f' : α' → Except ε β'} (hx : Agree R x x')
    (hf : ∀ a a', R a a' → Agree S (f a) (f' a')) : Agree S (x >>= f) (x' >>= f') := by
  cases hx with
  | error e e' => exact .error e e'
  | ok h => exact hf _ _ h

/-- Two computations after the same one. -/
theorem bind_right {f : α → Except ε β} {f' : α → Except ε β'}
    (hf : ∀ a, x = .ok a → Agree S (f a) (f' a)) : Agree S (x >>= f) (x >>= f') := by
  cases x with
  | error e => exact .error e e
  | ok a => exact hf a rfl

theorem self {R : α → α → Prop} (h : ∀ a, R a a) : Agree R x x := by
  cases x with
  | error e => exact .error e e
  | ok a => exact .ok (h a)

theorem map {f : α → β} {f' : α' → β'} (hx : Agree R x x')
    (hf : ∀ a a', R a a' → S (f a) (f' a')) : Agree S (x.map f) (x'.map f') := by
  cases hx with
  | error e e' => exact .error e e'
  | ok h => exact .ok (hf _ _ h)

theorem mapError {g g' : ε → ε'} (hx : Agree R x x') : Agree R (x.mapError g) (x'.mapError g') := by
  cases hx with
  | error e e' => exact .error _ _
  | ok h => exact .ok h

theorem mapM {f : α → Except ε β} {f' : α' → Except ε β'} {xs : List α} {xs' : List α'}
    (h : List.Forall₂ (fun a a' => Agree S (f a) (f' a')) xs xs') :
    Agree (List.Forall₂ S) (xs.mapM f) (xs'.mapM f') := by
  induction h with
  | nil => exact .ok .nil
  | cons hfirst _ ih =>
    rw [List.mapM_cons, List.mapM_cons]
    exact hfirst.bind fun b b' hb => ih.bind fun bs bs' hbs => .ok (.cons hb hbs)

/-- What every step keeps related stays related. -/
theorem foldlM {f : α → γ → Except ε α} {f' : α' → γ → Except ε α'}
    (hstep : ∀ a a' c, R a a' → Agree R (f a c) (f' a' c)) {a : α} {a' : α'} (h : R a a')
    (cs : List γ) : Agree R (cs.foldlM f a) (cs.foldlM f' a') := by
  induction cs generalizing a a' with
  | nil => exact .ok h
  | cons c cs ih =>
    rw [List.foldlM_cons, List.foldlM_cons]
    exact (hstep a a' c h).bind fun b b' hb => ih hb

theorem of_eq_ok {a : α} {a' : α'} (h : Agree R x x') (ha : x = .ok a) (ha' : x' = .ok a') :
    R a a' := by
  cases h with
  | error => cases ha
  | ok h =>
    cases ha
    cases ha'
    exact h

end Agree

/-! ## One cause of failure -/

/-- A computation that has a result when something holds, and otherwise fails for one reason. -/
inductive FailsUnless (e : ε) (p : Prop) : Except ε α → Prop
  | ok (hp : p) (a : α) : FailsUnless e p (.ok a)
  | error (hp : ¬p) : FailsUnless e p (.error e)

namespace FailsUnless

variable {e : ε} {p q : Prop} {x : Except ε α}

theorem iff (h : FailsUnless e p x) (hpq : p ↔ q) : FailsUnless e q x := by
  rwa [← propext hpq]

theorem exists_eq_ok_iff (h : FailsUnless e p x) : (∃ a, x = .ok a) ↔ p := by
  cases h with
  | ok hp a => exact ⟨fun _ => hp, fun _ => ⟨a, rfl⟩⟩
  | error hp => exact ⟨nofun, fun h => absurd h hp⟩

theorem bind {f : α → Except ε β} (hx : FailsUnless e p x)
    (hf : ∀ a, x = .ok a → FailsUnless e q (f a)) : FailsUnless e (p ∧ q) (x >>= f) := by
  cases hx with
  | ok hp a => exact (hf a rfl).iff (and_iff_right hp).symm
  | error hp => exact .error fun h => hp h.1

theorem map {f : α → β} (hx : FailsUnless e p x) : FailsUnless e p (x.map f) := by
  cases hx with
  | ok hp a => exact .ok hp (f a)
  | error hp => exact .error hp

theorem mapM {p : α → Prop} {f : α → Except ε β} {xs : List α}
    (h : ∀ x ∈ xs, FailsUnless e (p x) (f x)) : FailsUnless e (∀ x ∈ xs, p x) (xs.mapM f) := by
  induction xs with
  | nil => exact .ok (by simp) []
  | cons x xs ih =>
    rw [List.forall_mem_cons] at h
    rw [List.mapM_cons]
    refine (h.1.bind fun y _ => (ih h.2).bind fun ys _ => .ok trivial (y :: ys)).iff ?_
    rw [and_true, List.forall_mem_cons]

end FailsUnless

end ResourceQuery
