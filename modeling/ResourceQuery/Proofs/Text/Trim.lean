import Mathlib.Data.List.TakeWhile
import ResourceQuery.Text.Blank

/-!
# Trimmed text

What is at the ends of a text, and what is left of it when characters of a class are dropped there.

* `Text.exists_trim`: a text as what is left of it, with what was dropped at both ends;
* `Text.trim_append`: a text whose ends are not of the class is left when such are dropped;
* `Text.trim_eq_self`: so is a text without any.
-/

namespace ResourceQuery.Text

variable {p : Char → Bool} {chars before core after : List Char}

theorem exists_trim (p : Char → Bool) (chars : List Char) : ∃ before after,
    chars = before ++ trim p chars ++ after ∧ (∀ c ∈ before, p c) ∧ ∀ c ∈ after, p c := by
  refine ⟨chars.takeWhile p, ((chars.dropWhile p).reverse.takeWhile p).reverse, ?_,
    fun c hc => List.mem_takeWhile_imp hc,
    fun c hc => List.mem_takeWhile_imp (List.mem_reverse.1 hc)⟩
  rw [trim, List.append_assoc, ← List.reverse_append, List.takeWhile_append_dropWhile,
    List.reverse_reverse, List.takeWhile_append_dropWhile]

theorem takeWhile_append (hbefore : ∀ c ∈ before, p c) (hcore : ∀ c ∈ chars.head?, ¬p c) :
    (before ++ chars).takeWhile p = before := by
  rw [List.takeWhile_append_of_pos hbefore]
  cases chars with
  | nil => rw [List.takeWhile_nil, List.append_nil]
  | cons c rest => rw [List.takeWhile_cons_of_neg (hcore c rfl), List.append_nil]

theorem dropWhile_append (hbefore : ∀ c ∈ before, p c) (hcore : ∀ c ∈ chars.head?, ¬p c) :
    (before ++ chars).dropWhile p = chars := by
  rw [List.dropWhile_append_of_pos hbefore]
  cases chars with
  | nil => rfl
  | cons c rest => rw [List.dropWhile_cons_of_neg (hcore c rfl)]

theorem trim_append (hbefore : ∀ c ∈ before, p c) (hhead : ∀ c ∈ core.head?, ¬p c)
    (hlast : ∀ c ∈ core.getLast?, ¬p c) (hafter : ∀ c ∈ after, p c) :
    trim p (before ++ core ++ after) = core := by
  rw [trim, List.append_assoc]
  cases core with
  | nil =>
    rw [List.dropWhile_append_of_pos hbefore, List.nil_append, List.dropWhile_eq_nil_iff.2 hafter]
    rfl
  | cons c core =>
    have hafter' : ∀ c ∈ after.reverse, p c := fun c hc => hafter c (List.mem_reverse.1 hc)
    have hhead' : ∀ d ∈ (c :: core ++ after).head?, ¬p d := hhead
    rw [dropWhile_append hbefore hhead', List.reverse_append,
      dropWhile_append hafter' (by rwa [List.head?_reverse]), List.reverse_reverse]

theorem trim_eq_self (h : ∀ c ∈ chars, ¬p c) : trim p chars = chars := by
  have htrim : trim p ([] ++ chars ++ []) = chars :=
    trim_append (by simp) (fun c hc => h c (List.mem_of_mem_head? hc))
      (fun c hc => h c (List.mem_of_mem_getLast? hc)) (by simp)
  simpa using htrim

end ResourceQuery.Text
