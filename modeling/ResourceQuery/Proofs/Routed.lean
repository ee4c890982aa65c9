import Mathlib.Data.List.Nodup
import Mathlib.Data.List.Perm.Basic

/-!
# Items at the ends of paths

The clauses of a filter and the entries of an include parameter are items at the ends of paths of
names. Both are taken apart by the first name of the path, level by level.

* `Routed`: items of any kind, each with a path;
* `Routed.heads`, `Routed.behind`: the names that paths start with, and the items behind a name;
* `Routed.behindAll`: the items behind a path of names;
* `Routed.given`: what is given at the end of a path;
* `Routed.OneSpelling`: whether a renaming tells the beginnings of the paths apart.

The names of a level are listed in the order of their first mention, by `List.eraseDups`.
-/

namespace ResourceQuery

/-! ## Lists in the order of first mention -/

theorem nodup_eraseDups {α : Type} [BEq α] [LawfulBEq α] (xs : List α) : xs.eraseDups.Nodup := by
  cases xs with
  | nil => simp
  | cons x xs =>
    rw [List.eraseDups_cons, List.nodup_cons]
    exact ⟨by simp, nodup_eraseDups _⟩
termination_by xs.length
decreasing_by
  exact Nat.lt_succ_of_le (List.length_filter_le _ _)

theorem eraseDups_concat {α : Type} [DecidableEq α] (xs : List α) (x : α) :
    (xs ++ [x]).eraseDups = if x ∈ xs then xs.eraseDups else xs.eraseDups ++ [x] := by
  rw [List.eraseDups_append]
  split
  · next h => simp [List.removeAll, h]
  · next h => simp [List.removeAll, h, List.eraseDups_cons]

theorem eraseDups_map {α β : Type} [BEq α] [LawfulBEq α] [BEq β] [LawfulBEq β] {f : α → β}
    (hf : Function.Injective f) : (xs : List α) → (xs.map f).eraseDups = xs.eraseDups.map f
  | [] => rfl
  | x :: xs => by
    have hfilter : (xs.map f).filter (fun y => !y == f x) = (xs.filter fun y => !y == x).map f := by
      rw [List.filter_map]
      congr 1
      exact List.filter_congr fun y _ => by simp [hf.eq_iff]
    rw [List.map_cons, List.eraseDups_cons, List.eraseDups_cons, hfilter, eraseDups_map hf,
      List.map_cons]
  termination_by xs => xs.length
  decreasing_by
  exact Nat.lt_succ_of_le (List.length_filter_le _ _)

theorem eraseDups_perm {α : Type} [BEq α] [LawfulBEq α] {xs ys : List α} (h : xs.Perm ys) :
    xs.eraseDups.Perm ys.eraseDups := by
  rw [List.perm_ext_iff_of_nodup (nodup_eraseDups xs) (nodup_eraseDups ys)]
  intro x
  rw [List.mem_eraseDups, List.mem_eraseDups, h.mem_iff]

theorem eq_of_perm_of_length_le_one {α : Type} {xs ys : List α} (h : xs.Perm ys)
    (hlength : xs.length ≤ 1) : xs = ys := by
  rcases xs with _ | ⟨x, _ | ⟨y, xs⟩⟩
  · exact h.nil_eq
  · exact List.singleton_perm.1 h
  · simp at hlength

/-- Of elements with different keys, one has the key of an element. -/
theorem filter_key_eq {α β : Type} [DecidableEq α] {key : β → α} {xs : List β}
    (hkeys : (xs.map key).Nodup) {x : β} (hx : x ∈ xs) : xs.filter (key · = key x) = [x] := by
  induction xs with
  | nil => cases hx
  | cons y xs ih =>
    obtain ⟨hy, hxs⟩ := List.nodup_cons.1 hkeys
    rcases List.mem_cons.1 hx with rfl | hx
    · rw [List.filter_cons_of_pos (by simp), List.filter_eq_nil_iff.2]
      exact fun z hz h => hy (List.mem_map.2 ⟨z, hz, of_decide_eq_true h⟩)
    · have hne : key y ≠ key x := fun h => hy (List.mem_map.2 ⟨x, hx, h.symm⟩)
      rw [List.filter_cons_of_neg (by simpa using hne), ih hxs hx]

/-- Of values with different keys there is one of each key. -/
theorem filter_key_map {α β : Type} [DecidableEq α] {key : β → α} {value : α → β} {keys : List α}
    (hkey : ∀ a, key (value a) = a) (hkeys : keys.Nodup) (a : α) :
    (keys.map value).filter (key · = a) = if a ∈ keys then [value a] else [] := by
  simp only [List.filter_map, Function.comp_def, hkey, List.filter_eq, hkeys.count]
  split <;> rfl

/-- Items of any kind, each at the end of a path of names. -/
abbrev Routed (α : Type) := List (List String × α)

namespace Routed

variable {α : Type}

/-- The names that the paths start with, as often as they do. -/
def heads (items : Routed α) : List String := items.filterMap (·.1.head?)

/-- The items behind a name, without it. -/
def behind (name : String) (items : Routed α) : Routed α :=
  items.filterMap fun
    | ([], _) => none
    | (head :: rest, a) => if head = name then some (rest, a) else none

/-- The items behind a path of names, without it. -/
def behindAll : List String → Routed α → Routed α
  | [], items => items
  | name :: rest, items => behindAll rest (behind name items)

/-- What is given at the end of a path. -/
def given (path : List String) (items : Routed (Option α)) : List α :=
  (items.filter (·.1 = path)).filterMap (·.2)

variable {name : String} {path : List String} {items items' : Routed α} {n : Nat}

theorem mem_heads : name ∈ heads items ↔ ∃ rest a, (name :: rest, a) ∈ items := by
  simp only [heads, List.mem_filterMap]
  constructor
  · rintro ⟨⟨_ | ⟨head, rest⟩, a⟩, ha, h⟩
    · cases h
    · cases h
      exact ⟨rest, a, ha⟩
  · exact fun ⟨rest, a, h⟩ => ⟨_, h, rfl⟩

theorem mem_behind {x : List String × α} : x ∈ behind name items ↔ (name :: x.1, x.2) ∈ items := by
  simp only [behind, List.mem_filterMap]
  constructor
  · rintro ⟨⟨_ | ⟨head, rest⟩, a⟩, ha, h⟩
    · cases h
    · obtain ⟨rfl, rfl⟩ : head = name ∧ (rest, a) = x := by simpa using h
      exact ha
  · exact fun h => ⟨_, h, by simp⟩

theorem mem_behindAll {x : List String × α} :
    x ∈ behindAll path items ↔ (path ++ x.1, x.2) ∈ items := by
  induction path generalizing items with
  | nil => rfl
  | cons name rest ih => rw [behindAll, ih, mem_behind, List.cons_append]

theorem mem_heads_behindAll :
    name ∈ heads (behindAll path items) ↔ ∃ x ∈ items, path ++ [name] <+: x.1 := by
  rw [mem_heads]
  constructor
  · rintro ⟨rest, a, h⟩
    exact ⟨_, mem_behindAll.1 h, rest, by simp⟩
  · rintro ⟨⟨_, a⟩, hx, rest, rfl⟩
    exact ⟨rest, a, mem_behindAll.2 (by simpa using hx)⟩

theorem behind_eq_nil (h : name ∉ heads items) : behind name items = [] := by
  rw [List.eq_nil_iff_forall_not_mem]
  exact fun x hx => h (mem_heads.2 ⟨_, _, mem_behind.1 hx⟩)

@[simp] theorem behindAll_nil (path : List String) : behindAll path ([] : Routed α) = [] := by
  induction path with
  | nil => rfl
  | cons name rest ih => exact ih

/-- What is chosen from the items behind a name is chosen from those whose paths start with it. -/
theorem filterMap_behind {β : Type} {f g : List String × α → Option β}
    (hbehind : ∀ rest a, g (name :: rest, a) = f (rest, a))
    (hother : ∀ x, x.1.head? ≠ some name → g x = none) :
    (behind name items).filterMap f = items.filterMap g := by
  rw [behind, List.filterMap_filterMap]
  refine List.filterMap_congr fun x _ => ?_
  obtain ⟨_ | ⟨head, rest⟩, a⟩ := x
  · exact (hother _ (by simp)).symm
  · by_cases h : head = name
    · simp [h, hbehind]
    · rw [hother _ (by simpa using h)]
      simp [h]

/-- The names behind a path are those in their place of the paths that begin with it. -/
theorem heads_behindAll (path : List String) (items : Routed α) :
    heads (behindAll path items) =
      (items.filter (path <+: ·.1)).filterMap (·.1[path.length]?) := by
  induction path generalizing items with
  | nil => simp [behindAll, heads, List.head?_eq_getElem?]
  | cons name rest ih =>
    rw [behindAll, ih, List.filterMap_filter, List.filterMap_filter]
    refine filterMap_behind (by simp) fun x hx => if_neg ?_
    obtain ⟨_ | ⟨head, tail⟩, a⟩ := x
    · simp
    · have hhead : name ≠ head := fun h => hx (by rw [h]; rfl)
      simp [hhead]

/-- What is given at the end of a path is given behind its first name. -/
theorem given_behind (name : String) (rest : List String) (items : Routed (Option α)) :
    given rest (behind name items) = given (name :: rest) items := by
  rw [given, given, List.filterMap_filter, List.filterMap_filter]
  refine filterMap_behind (by simp) fun x hx => if_neg fun h => hx ?_
  rw [of_decide_eq_true h]
  rfl

theorem given_behindAll (path : List String) (name : String) (items : Routed (Option α)) :
    given [name] (behindAll path items) = given (path ++ [name]) items := by
  induction path generalizing items with
  | nil => rfl
  | cons first rest ih => rw [behindAll, ih, given_behind, List.cons_append]

/-! ## One more item -/

theorem heads_concat_here (items : Routed α) (a : α) :
    heads (items ++ [([], a)]) = heads items := by
  simp [heads]

theorem heads_concat_behind (items : Routed α) (name : String) (rest : List String) (a : α) :
    heads (items ++ [(name :: rest, a)]) = heads items ++ [name] := by
  simp [heads]

theorem behind_concat_of_ne {x : List String × α} (h : x.1.head? ≠ some name) :
    behind name (items ++ [x]) = behind name items := by
  obtain ⟨_ | ⟨head, rest⟩, a⟩ := x
  · simp [behind]
  · have hne : head ≠ name := by simpa using h
    simp [behind, hne]

theorem behind_concat (rest : List String) (a : α) :
    behind name (items ++ [(name :: rest, a)]) = behind name items ++ [(rest, a)] := by
  simp [behind]

theorem given_concat_of_ne {items : Routed (Option α)} {x : List String × Option α}
    (h : x.1 ≠ path) : given path (items ++ [x]) = given path items := by
  simp [given, h]

theorem given_concat (items : Routed (Option α)) (path : List String) (a : Option α) :
    given path (items ++ [(path, a)]) = given path items ++ a.toList := by
  cases a <;> simp [given]

/-! ## Other names -/

/-- Items with other names on their paths. -/
def renamed (f : String → String) (items : Routed α) : Routed α :=
  items.map fun x => (x.1.map f, x.2)

/-- Whether paths that begin alike under other names begin alike. -/
def OneSpelling (f : String → String) (items : Routed α) : Prop :=
  ∀ x ∈ items, ∀ y ∈ items, ∀ n ≤ x.1.length,
    (x.1.take n).map f = (y.1.take n).map f → x.1.take n = y.1.take n

instance (f : String → String) (items : Routed α) : Decidable (OneSpelling f items) :=
  inferInstanceAs (Decidable (∀ _ ∈ _, ∀ _ ∈ _, ∀ _ ≤ _, _ → _))

variable {f : String → String} {other : String}

theorem heads_renamed (f : String → String) (items : Routed α) :
    heads (renamed f items) = (heads items).map f := by
  rw [heads, renamed, List.filterMap_map, heads, List.map_filterMap]
  exact List.filterMap_congr fun x _ => List.head?_map

/-- The items behind a name that no other one becomes. -/
theorem behind_renamed (h : ∀ other ∈ heads items, f other = f name → other = name) :
    behind (f name) (renamed f items) = renamed f (behind name items) := by
  rw [behind, renamed, List.filterMap_map, renamed, behind, List.map_filterMap]
  refine List.filterMap_congr fun x hx => ?_
  obtain ⟨_ | ⟨head, rest⟩, a⟩ := x
  · rfl
  · by_cases heq : head = name
    · simp [heq]
    · have hne : f head ≠ f name := fun hf => heq (h head (mem_heads.2 ⟨rest, a, hx⟩) hf)
      simp [heq, hne]

/-- What is given at the end of a name that no other one becomes. -/
theorem given_renamed {items : Routed (Option α)}
    (h : ∀ other ∈ heads items, f other = f name → other = name) :
    given [f name] (renamed f items) = given [name] items := by
  have hhere : ∀ items : Routed (Option α), given [] (renamed f items) = given [] items := by
    intro items
    rw [given, renamed, List.filter_map, List.filterMap_map, given]
    simp [Function.comp_def]
  rw [← given_behind, behind_renamed h, hhere, given_behind]

theorem OneSpelling.eq (h : OneSpelling f items) (hname : name ∈ heads items)
    (hother : other ∈ heads items) (heq : f other = f name) : other = name := by
  obtain ⟨rest, a, hx⟩ := mem_heads.1 hother
  obtain ⟨rest', a', hy⟩ := mem_heads.1 hname
  simpa using h _ hx _ hy 1 (by simp) (by simpa using heq)

theorem OneSpelling.behind (h : OneSpelling f items) (name : String) :
    OneSpelling f (behind name items) := by
  intro x hx y hy n hn heq
  simpa using h _ (mem_behind.1 hx) _ (mem_behind.1 hy) (n + 1) (by simpa using hn)
    (by simpa using heq)

/-- Paths begin alike when their first names are the same and they begin alike behind these. -/
theorem OneSpelling.of_behind
    (hheads : ∀ name ∈ heads items, ∀ other ∈ heads items, f other = f name → other = name)
    (hbehind : ∀ name ∈ heads items, OneSpelling f (Routed.behind name items)) :
    OneSpelling f items := by
  rintro ⟨p, a⟩ hx ⟨q, b⟩ hy n hn heq
  rcases n with _ | n
  · simp
  · rcases p with _ | ⟨name, p⟩
    · simp at hn
    rcases q with _ | ⟨other, q⟩
    · simp at heq
    simp only [List.take_succ_cons, List.map_cons, List.cons.injEq] at heq
    have hname := mem_heads.2 ⟨p, a, hx⟩
    obtain rfl := hheads other (mem_heads.2 ⟨q, b, hy⟩) name hname heq.1
    have hrest := hbehind name hname (p, a) (mem_behind.2 hx) (q, b) (mem_behind.2 hy) n
      (by simpa using hn) heq.2
    simpa using hrest

/-! ## Shorter paths -/

/-- The paths of some items have a common bound. -/
theorem exists_length_le (items : Routed α) : ∃ n, ∀ x ∈ items, x.1.length ≤ n := by
  induction items with
  | nil => exact ⟨0, by simp⟩
  | cons x items ih =>
    obtain ⟨n, hn⟩ := ih
    refine ⟨max x.1.length n, List.forall_mem_cons.2 ⟨by omega, fun y hy => ?_⟩⟩
    have := hn y hy
    omega

theorem heads_eq_nil (h : ∀ x ∈ items, x.1.length ≤ 0) : heads items = [] := by
  rw [List.eq_nil_iff_forall_not_mem]
  intro name hname
  obtain ⟨rest, a, hx⟩ := mem_heads.1 hname
  simpa using h _ hx

theorem length_behind_le (h : ∀ x ∈ items, x.1.length ≤ n + 1) :
    ∀ x ∈ behind name items, x.1.length ≤ n := by
  intro x hx
  simpa using h _ (mem_behind.1 hx)

/-! ## The order of the items -/

theorem heads_perm (h : items.Perm items') : (heads items).Perm (heads items') := h.filterMap _

theorem behind_perm (name : String) (h : items.Perm items') :
    (behind name items).Perm (behind name items') := h.filterMap _

theorem given_perm {items items' : Routed (Option α)} (path : List String)
    (h : items.Perm items') : (given path items).Perm (given path items') :=
  (h.filter _).filterMap _

end Routed

end ResourceQuery
