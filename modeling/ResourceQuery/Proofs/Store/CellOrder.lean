import Mathlib.Algebra.Order.Field.Rat
import Mathlib.Order.WithBot
import Mathlib.Tactic.Positivity
import ResourceQuery.Statement.Group

/-!
# The order of cells

The order by which a store sorts, groups and compares cells is a total preorder, once cells that
are not numbers are left out, as a store leaves them out.

* `Cell.order_swap`: turning two cells around turns their order around, whatever they are;
* `Cell.IsProper`: a cell that a store holds;
* `Cell.order_trans`: the order is transitive on such cells.

Integers and floating-point numbers are compared by their exact values, `Cell.value`.
-/

namespace ResourceQuery

/-- Two comparisons one after the other are transitive when both are, the first one of them
strictly. -/
theorem then_ne_gt {o₁ o₂ o₃ p₁ p₂ p₃ : Ordering} (h₁ : o₁.then p₁ ≠ .gt) (h₂ : o₂.then p₂ ≠ .gt)
    (ho : o₁ ≠ .gt → o₂ ≠ .gt → o₃ ≠ .gt ∧ (o₃ = .eq → o₁ = .eq ∧ o₂ = .eq))
    (hp : p₁ ≠ .gt → p₂ ≠ .gt → p₃ ≠ .gt) : o₃.then p₃ ≠ .gt := by
  cases o₁ <;> cases o₂ <;> cases o₃ <;> simp_all

/-! ## Exact values -/

namespace Binary64

/-- The exact value of a number; the infinities are the least and the greatest one. -/
def value (x : Binary64) : WithBot (WithTop ℚ) :=
  match x with
  | .nan => ⊥
  | .infinite negative => if negative then ⊥ else ((⊤ : WithTop ℚ) : WithBot (WithTop ℚ))
  | .finite .. =>
    match x.ratio? with
    | some r => (((r.1 / r.2 : ℚ) : WithTop ℚ) : WithBot (WithTop ℚ))
    | none => ⊥

theorem scaled_den_pos (n : ℕ) (e : ℤ) : 0 < (scaled n e).2 := by
  unfold scaled
  split
  · exact Nat.one_pos
  · exact Nat.pow_pos Nat.two_pos

theorem ratio?_finite (negative : Bool) (m : ℕ) (e : ℤ) :
    ∃ r : ℤ × ℕ, (Binary64.finite negative m e).ratio? = some r ∧ 0 < r.2 :=
  ⟨_, rfl, scaled_den_pos m e⟩

theorem orderOfRatios_swap (a b : ℤ × ℕ) : orderOfRatios b a = (orderOfRatios a b).swap :=
  Std.OrientedOrd.eq_swap

theorem orderOfRatios_le_iff {a b : ℤ × ℕ} (ha : 0 < a.2) (hb : 0 < b.2) :
    orderOfRatios a b ≠ .gt ↔ (a.1 / a.2 : ℚ) ≤ b.1 / b.2 := by
  rw [orderOfRatios, compare_le_iff_le, div_le_div_iff₀ (by exact_mod_cast ha)
    (by exact_mod_cast hb)]
  exact_mod_cast Iff.rfl

theorem order?_swap (x y : Binary64) : y.order? x = (x.order? y).map Ordering.swap := by
  rcases x with _ | a | ⟨sx, mx, ex⟩ <;> rcases y with _ | b | ⟨sy, my, ey⟩ <;>
    simp only [order?, Option.map_none, Option.map_some]
  · exact congrArg some Std.OrientedOrd.eq_swap
  · cases a <;> rfl
  · cases b <;> rfl
  · obtain ⟨r, hr, -⟩ := ratio?_finite sx mx ex
    obtain ⟨s, hs, -⟩ := ratio?_finite sy my ey
    simp only [hr, hs, Option.map_some, orderOfRatios_swap r s]

/-- Of two numbers the lesser one has the lesser value. -/
theorem order?_le_iff {x y : Binary64} (hx : x ≠ .nan) (hy : y ≠ .nan) :
    (x.order? y).getD .eq ≠ .gt ↔ x.value ≤ y.value := by
  rcases x with _ | a | ⟨sx, mx, ex⟩
  · exact absurd rfl hx
  · rcases y with _ | b | ⟨sy, my, ey⟩
    · exact absurd rfl hy
    · cases a <;> cases b <;> simp [order?, value, compare, compareOfLessAndEq]
    · obtain ⟨s, hs, -⟩ := ratio?_finite sy my ey
      cases a <;> simp [order?, value, hs]
  · obtain ⟨r, hr, hr'⟩ := ratio?_finite sx mx ex
    rcases y with _ | b | ⟨sy, my, ey⟩
    · exact absurd rfl hy
    · cases b <;> simp [order?, value, hr]
    · obtain ⟨s, hs, hs'⟩ := ratio?_finite sy my ey
      simp only [order?, value, hr, hs, Option.getD_some, WithBot.coe_le_coe, WithTop.coe_le_coe]
      exact orderOfRatios_le_iff hr' hs'

/-- A number that is not above an integer has a value that is not above it. -/
theorem orderWithInt?_le_iff {x : Binary64} (hx : x ≠ .nan) (i : ℤ) :
    (x.orderWithInt? i).getD .eq ≠ .gt ↔ x.value ≤ (((i : ℚ) : WithTop ℚ) : WithBot _) := by
  rcases x with _ | a | ⟨s, m, e⟩
  · exact absurd rfl hx
  · cases a <;> simp [orderWithInt?, value]
  · obtain ⟨r, hr, hr'⟩ := ratio?_finite s m e
    simp only [orderWithInt?, value, hr, Option.map_some, Option.getD_some, WithBot.coe_le_coe,
      WithTop.coe_le_coe]
    rw [orderOfRatios_le_iff hr' Nat.one_pos]
    simp

/-- An integer that is not above a number is not above its value. -/
theorem orderWithInt?_ge_iff {x : Binary64} (hx : x ≠ .nan) (i : ℤ) :
    (x.orderWithInt? i).getD .eq ≠ .lt ↔ (((i : ℚ) : WithTop ℚ) : WithBot _) ≤ x.value := by
  rcases x with _ | a | ⟨s, m, e⟩
  · exact absurd rfl hx
  · cases a <;> simp [orderWithInt?, value]
  · obtain ⟨r, hr, hr'⟩ := ratio?_finite s m e
    simp only [orderWithInt?, value, hr, Option.map_some, Option.getD_some, WithBot.coe_le_coe,
      WithTop.coe_le_coe]
    have h := orderOfRatios_le_iff (a := (i, 1)) Nat.one_pos hr'
    rw [orderOfRatios_swap, Ne, ← Ordering.swap_lt, Ordering.swap_inj] at h
    rw [Ne, h]
    simp

end Binary64

namespace Cell

/-- The exact value of a number. -/
def value : Cell → WithBot (WithTop ℚ)
  | integer i => (((i : ℚ) : WithTop ℚ) : WithBot (WithTop ℚ))
  | real x => x.value
  | _ => ⊥

/-- Whether a cell is one that a store holds: it holds no number that is not a number. -/
def IsProper (c : Cell) : Prop := c ≠ real .nan

instance : DecidablePred IsProper := fun c => inferInstanceAs (Decidable (c ≠ real .nan))

/-! ## Turning cells around -/

theorem order_of_rank_ne {a b : Cell} (h : a.rank ≠ b.rank) :
    order a b = compare a.rank b.rank := by
  rcases a with _ | i | x | s | bs <;> rcases b with _ | j | y | t | cs <;>
    first | rfl | exact absurd rfl h

theorem order_of_numbers {a b : Cell} (ha : a.rank = 1) (hb : b.rank = 1) :
    order a b = numberOrder a b := by
  rcases a with _ | i | x | s | bs <;> rcases b with _ | j | y | t | cs <;>
    first | rfl | simp [rank] at ha hb

theorem numberOrder_swap (a b : Cell) : numberOrder b a = (numberOrder a b).swap := by
  rcases a with _ | i | x | s | bs <;> rcases b with _ | j | y | t | cs <;> try rfl
  · exact Std.OrientedOrd.eq_swap
  · simp only [numberOrder]
    cases y.orderWithInt? i <;> simp
  · simp only [numberOrder]
    cases x.orderWithInt? j <;> simp
  · simp only [numberOrder, Binary64.order?_swap x y]
    cases x.order? y <;> simp

theorem bytesOrder_swap (a b : List UInt8) : bytesOrder b a = (bytesOrder a b).swap := by
  induction a generalizing b with
  | nil => cases b <;> rfl
  | cons x xs ih =>
    cases b with
    | nil => rfl
    | cons y ys =>
      have h : compare y.toNat x.toNat = (compare x.toNat y.toNat).swap := Std.OrientedOrd.eq_swap
      simp only [bytesOrder, Ordering.swap_then, ih ys, h]

theorem stringOrder_swap (s t : String) : compare t s = (compare s t).swap :=
  Std.OrientedOrd.eq_swap

/-- Turning two cells around turns their order around. -/
theorem order_swap (a b : Cell) : order b a = (order a b).swap := by
  by_cases h : a.rank = b.rank
  · rcases a with _ | i | x | s | bs <;> rcases b with _ | j | y | t | cs <;>
      first
        | exact absurd h (by decide)
        | rfl
        | exact bytesOrder_swap _ _
        | exact stringOrder_swap _ _
        | exact (order_of_numbers rfl rfl).trans
            ((numberOrder_swap _ _).trans (congrArg Ordering.swap (order_of_numbers rfl rfl).symm))
  · rw [order_of_rank_ne h, order_of_rank_ne (Ne.symm h)]
    exact Std.OrientedOrd.eq_swap

/-! ## Transitivity -/

/-- Of two numbers that a store holds the lesser one has the lesser value. -/
theorem numberOrder_le_iff {a b : Cell} (ha : a.rank = 1) (hb : b.rank = 1) (ha' : a.IsProper)
    (hb' : b.IsProper) : numberOrder a b ≠ .gt ↔ a.value ≤ b.value := by
  have proper : ∀ {x : Binary64}, (real x).IsProper → x ≠ .nan := fun h e => h (e ▸ rfl)
  rcases a with _ | i | x | s | bs <;> try simp [rank] at ha
  · rcases b with _ | j | y | t | cs <;> try simp [rank] at hb
    · simp only [numberOrder, value, WithBot.coe_le_coe, WithTop.coe_le_coe, Int.cast_le]
      exact compare_le_iff_le
    · simp only [numberOrder, value]
      rw [← Binary64.orderWithInt?_ge_iff (proper hb')]
      cases h : y.orderWithInt? i with
      | none => simp
      | some o => cases o <;> simp
  · rcases b with _ | j | y | t | cs <;> try simp [rank] at hb
    · exact Binary64.orderWithInt?_le_iff (proper ha') j
    · exact Binary64.order?_le_iff (proper ha') (proper hb')

theorem bytesOrder_trans {a b c : List UInt8} (hab : bytesOrder a b ≠ .gt)
    (hbc : bytesOrder b c ≠ .gt) : bytesOrder a c ≠ .gt := by
  induction a generalizing b c with
  | nil => cases c <;> simp [bytesOrder]
  | cons x xs ih =>
    rcases b with _ | ⟨y, ys⟩
    · simp [bytesOrder] at hab
    · rcases c with _ | ⟨z, zs⟩
      · simp [bytesOrder] at hbc
      · refine then_ne_gt hab hbc (fun h h' => ?_) ih
        rw [compare_le_iff_le] at h h'
        rw [compare_le_iff_le, compare_eq_iff_eq, compare_eq_iff_eq, compare_eq_iff_eq]
        omega

/-- The order of cells that a store holds is transitive. -/
theorem order_trans {a b c : Cell} (ha : a.IsProper) (hb : b.IsProper) (hc : c.IsProper)
    (hab : order a b ≠ .gt) (hbc : order b c ≠ .gt) : order a c ≠ .gt := by
  have rank_le : ∀ {a b : Cell}, order a b ≠ .gt → a.rank ≤ b.rank := by
    intro a b h
    by_cases e : a.rank = b.rank
    · exact e.le
    · rwa [order_of_rank_ne e, compare_le_iff_le] at h
  have hab' := rank_le hab
  have hbc' := rank_le hbc
  by_cases e : a.rank = c.rank
  · by_cases n : a.rank = 1
    · have nb : b.rank = 1 := by omega
      have nc : c.rank = 1 := by omega
      rw [order_of_numbers n nb, numberOrder_le_iff n nb ha hb] at hab
      rw [order_of_numbers nb nc, numberOrder_le_iff nb nc hb hc] at hbc
      rw [order_of_numbers n nc, numberOrder_le_iff n nc ha hc]
      exact hab.trans hbc
    · have e' : b.rank = a.rank := by omega
      rcases a with _ | i | x | s | bs <;> try simp [rank] at n
      · rcases c with _ | j | y | t | cs <;> simp [rank] at e
        decide
      · rcases b with _ | j | y | t | cs <;> simp [rank] at e'
        rcases c with _ | j | y | u | cs <;> simp [rank] at e
        have hst : (compare s t).isLE := Ordering.isLE_iff_ne_gt.2 hab
        have htu : (compare t u).isLE := Ordering.isLE_iff_ne_gt.2 hbc
        exact Ordering.isLE_iff_ne_gt.1 (Std.TransOrd.isLE_trans hst htu)
      · rcases b with _ | j | y | t | cs <;> simp [rank] at e'
        rcases c with _ | j | y | u | ds <;> simp [rank] at e
        exact bytesOrder_trans hab hbc
  · rw [order_of_rank_ne e, compare_le_iff_le]
    omega

/-- Between cells of equal order all orders are equal. -/
theorem order_eq_of_trans {a b c : Cell} (ha : a.IsProper) (hb : b.IsProper) (hc : c.IsProper)
    (hab : order a b ≠ .gt) (hbc : order b c ≠ .gt) (hac : order a c = .eq) :
    order a b = .eq ∧ order b c = .eq := by
  have hca : order c a ≠ .gt := by simp [order_swap a c, hac]
  have hba := order_trans hb hc ha hbc hca
  have hcb := order_trans hc ha hb hca hab
  rw [order_swap a b] at hba
  rw [order_swap b c] at hcb
  constructor
  · cases h : order a b <;> simp_all
  · cases h : order b c <;> simp_all

end Cell

/-! ## Lists of cells -/

/-- Whether all cells of a list are proper. -/
def AllProper (cells : List Cell) : Prop := ∀ c ∈ cells, c.IsProper

/-- The order of two lists of cells in some directions. -/
theorem keysOrder_swap (directions : List Bool) (a b : List Cell) :
    keysOrder (directions.zip (b.zip a)) = (keysOrder (directions.zip (a.zip b))).swap := by
  induction directions generalizing a b with
  | nil => rfl
  | cons d ds ih =>
    rcases a with _ | ⟨x, xs⟩ <;> rcases b with _ | ⟨y, ys⟩ <;> try rfl
    simp only [List.zip_cons_cons, keysOrder, Ordering.swap_then, ih xs ys, Cell.order_swap x y]
    cases d <;> simp

theorem keysOrder_trans {directions : List Bool} {a b c : List Cell} (ha : AllProper a)
    (hb : AllProper b) (hc : AllProper c) (hlen : a.length = b.length) (hlen' : b.length = c.length)
    (hab : keysOrder (directions.zip (a.zip b)) ≠ .gt)
    (hbc : keysOrder (directions.zip (b.zip c)) ≠ .gt) :
    keysOrder (directions.zip (a.zip c)) ≠ .gt := by
  induction directions generalizing a b c with
  | nil => simp [keysOrder]
  | cons d ds ih =>
    rcases a with _ | ⟨x, xs⟩
    · simp [keysOrder]
    rcases b with _ | ⟨y, ys⟩
    · simp at hlen
    rcases c with _ | ⟨z, zs⟩
    · simp at hlen'
    simp only [AllProper, List.mem_cons, forall_eq_or_imp] at ha hb hc
    simp only [List.zip_cons_cons, keysOrder] at hab hbc ⊢
    refine then_ne_gt hab hbc (fun h h' => ?_)
      (ih ha.2 hb.2 hc.2 (by simpa using hlen) (by simpa using hlen'))
    cases d with
    | false =>
      exact ⟨Cell.order_trans ha.1 hb.1 hc.1 h h', Cell.order_eq_of_trans ha.1 hb.1 hc.1 h h'⟩
    | true =>
      simp only [if_true, ← Cell.order_swap] at h h' ⊢
      exact ⟨Cell.order_trans hc.1 hb.1 ha.1 h' h,
        fun e => (Cell.order_eq_of_trans hc.1 hb.1 ha.1 h' h e).symm⟩

end ResourceQuery
