import ResourceQuery.Parameters
import ResourceQuery.Sort.Order
import ResourceQuery.Proofs.Sort.Path
import ResourceQuery.Proofs.WellFormed

/-!
# The joins of sort keys

Sort keys join relations to one record, each path of them once, and each relation from the entity
itself or from the end of a path that is joined already.

* `Joined`: the joins of some paths, one relation after the other;
* `SortCompiler.target?`, `SortCompiler.LeadsToOne`: where a path of relations leads;
* `SortCompiler.Traced`: such joins with the paths that they are of;
* `SortCompiler.traced_path?`: what joining one more path adds to them;
* `SortCompiler.Compiles`, `SortCompiler.CompilesAll`: what sort keys compile to;
* `SortCompiler.traced_order?`, `SortCompiler.joined_order?`: the joins of sort keys are such joins.

Paths are known by their text. That a path found in the cache leads to the entity that the sort key
means is what the absence of dots in its segments is needed for.
-/

namespace ResourceQuery

open Text

/-- Joins of relations to one record, from an entity on. -/
inductive Joined (s : Schema) (e : Entity) : JoinCache → List Join → Prop
  | none : Joined s e {} []
  /-- One more relation, from the entity itself or from the end of a path before. -/
  | join {c : JoinCache} {joins : List Join} {current : Reach} {name path : String}
      {r : Relationship} {target : Entity} (before : Joined s e c joins)
      (hcurrent : current = e.reach ∨ ∃ path, (path, current) ∈ c.readings)
      (hr : s.related? current.entity name = some (r, target)) (hone : r.toMany = false)
      (hpath : c.get? path = Option.none) :
      Joined s e (c.add path (target.reachAs (.joined path)))
        (joins ++ [⟨current.source,
          r.hop current (target.reachAs (.joined path)) (.joinedLink path)⟩])

namespace JoinCache

theorem mem_of_get? {c : JoinCache} {path : String} {r : Reach} (h : c.get? path = some r) :
    (path, r) ∈ c.readings := by
  obtain ⟨⟨p, r'⟩, hp, rfl⟩ := Option.map_eq_some_iff.1 h
  have hname : p = path := by simpa using List.find?_some hp
  exact hname ▸ List.mem_of_find?_eq_some hp

theorem ne_of_get?_eq_none {c : JoinCache} {path : String} (h : c.get? path = none)
    {p : String × Reach} (hp : p ∈ c.readings) : p.1 ≠ path := by
  simpa using List.find?_eq_none.1 (Option.map_eq_none_iff.1 h) p hp

/-- Whether a path of relations ends at a reading: the entity itself, or what the cache knows the
path by. -/
def EndsAt (c : JoinCache) (e : Entity) (names : List String) (r : Reach) : Prop :=
  names = [] ∧ r = e.reach ∨ names ≠ [] ∧ (joinWith '.' names, r) ∈ c.readings

theorem EndsAt.mono {c c' : JoinCache} {e : Entity} {names : List String} {r : Reach}
    (h : c.EndsAt e names r) (hsub : c.readings ⊆ c'.readings) : c'.EndsAt e names r :=
  h.imp_right fun ⟨hne, hmem⟩ => ⟨hne, hsub hmem⟩

end JoinCache

namespace SortCompiler

variable {k : SortCompiler} {e : Entity}

/-! ## Paths -/

/-- The entity that a path of relations leads to. -/
def target? (k : SortCompiler) (e : Entity) : List String → Option Entity
  | [] => some e
  | name :: rest =>
    (k.schema.related? e (k.naming.toStorage name)).bind fun (_, target) => k.target? target rest

theorem target?_cons {name : String} {rest : List String} {r : Relationship} {target : Entity}
    (hr : k.schema.related? e (k.naming.toStorage name) = some (r, target)) :
    k.target? e (name :: rest) = k.target? target rest := by
  rw [target?, hr]
  rfl

theorem target?_append {names rest : List String} {current : Entity}
    (h : k.target? e names = some current) :
    k.target? e (names ++ rest) = k.target? current rest := by
  induction names generalizing e with
  | nil =>
    cases h
    rfl
  | cons name names ih =>
    obtain ⟨⟨r, target⟩, hr, h⟩ := Option.bind_eq_some_iff.1 h
    rw [List.cons_append, target?_cons hr]
    exact ih h

/-- A path of relations to one record, from an entity to another one. -/
inductive LeadsToOne (k : SortCompiler) (e : Entity) : List String → Entity → Prop
  | nil : LeadsToOne k e [] e
  | snoc {names : List String} {name : String} {current target : Entity} {r : Relationship}
      (before : LeadsToOne k e names current)
      (hr : k.schema.related? current (k.naming.toStorage name) = some (r, target))
      (hone : r.toMany = false) : LeadsToOne k e (names ++ [name]) target

theorem LeadsToOne.target?_eq {names : List String} {target : Entity}
    (h : LeadsToOne k e names target) : k.target? e names = some target := by
  induction h with
  | nil => rfl
  | snoc before hr hone ih =>
    rw [target?_append ih, target?_cons hr]
    rfl

theorem related?_of_not_crosses {current : Entity} {name : String} {rest : List String}
    (h : k.crossesCollection? current (name :: rest) = .ok false) :
    ∃ r target, k.schema.related? current (k.naming.toStorage name) = some (r, target) ∧
      r.toMany = false ∧ k.crossesCollection? target rest = .ok false := by
  obtain ⟨⟨r, target⟩, hr, h⟩ := bind_eq_ok.1 h
  refine ⟨r, target, Reach.related?_eq_ok.1 hr, ?_⟩
  cases hmany : r.toMany with
  | false => simpa [hmany] using h
  | true => simp [hmany] at h

/-! ## Joins of paths -/

/-- Joins of paths of relations to one record, each path known by its text. -/
inductive Traced (k : SortCompiler) (e : Entity) : JoinCache → List Join → Prop
  | none : Traced k e {} []
  /-- One more relation after a path. -/
  | join {c : JoinCache} {joins : List Join} {current : Reach} {names : List String}
      {name path : String} {r : Relationship} {target : Entity} (before : Traced k e c joins)
      (hcurrent : c.EndsAt e names current) (hleads : LeadsToOne k e names current.entity)
      (hr : k.schema.related? current.entity (k.naming.toStorage name) = some (r, target))
      (hone : r.toMany = false) (hplain : ∀ n ∈ names ++ [name], IsPlain n)
      (hname : path = joinWith '.' (names ++ [name])) (hpath : c.get? path = Option.none) :
      Traced k e (c.add path (target.reachAs (.joined path)))
        (joins ++ [⟨current.source,
          r.hop current (target.reachAs (.joined path)) (.joinedLink path)⟩])

namespace Traced

variable {c : JoinCache} {joins : List Join}

theorem joined (h : Traced k e c joins) : Joined k.schema e c joins := by
  induction h with
  | none => exact .none
  | join before hcurrent hleads hr hone hplain hname hpath ih =>
    exact .join ih (hcurrent.imp And.right fun h => ⟨_, h.2⟩) hr hone hpath

/-- The readings of a cache are at the ends of the paths that they are known by. -/
theorem walked (h : Traced k e c joins) {p : String × Reach} (hp : p ∈ c.readings) :
    ∃ names ≠ [], (∀ name ∈ names, IsPlain name) ∧ p.1 = joinWith '.' names ∧
      LeadsToOne k e names p.2.entity := by
  induction h with
  | none => cases hp
  | join before hcurrent hleads hr hone hplain hname hpath ih =>
    rcases List.mem_append.1 hp with hp | hp
    · exact ih hp
    · rw [List.mem_singleton.1 hp]
      exact ⟨_, by simp, hplain, hname, hleads.snoc hr hone⟩

theorem entity_eq (h : Traced k e c joins) {names : List String} {r : Reach} {target : Entity}
    (hnames : names ≠ []) (hplain : ∀ name ∈ names, IsPlain name)
    (hget : c.get? (joinWith '.' names) = some r) (hleads : LeadsToOne k e names target) :
    r.entity = target := by
  obtain ⟨names', hne, hplain', hpath, hleads'⟩ := h.walked (JoinCache.mem_of_get? hget)
  obtain rfl := joinWith_inj hnames hne hplain hplain' hpath
  exact Option.some.inj (hleads'.target?_eq.symm.trans hleads.target?_eq)

end Traced

/-- The joins that a path still needs continue the joins before, and the path then ends at its
reading. -/
theorem traced_from? {c c' : JoinCache} {current last : Reach} {done rest : List String}
    {joins more : List Join} (htraced : Traced k e c joins) (hcurrent : c.EndsAt e done current)
    (hleads : LeadsToOne k e done current.entity)
    (hone : k.crossesCollection? current.entity rest = .ok false)
    (hplain : ∀ name ∈ done ++ rest, IsPlain name)
    (h : JoinCache.from? k.schema k.naming c current done rest = (c', .ok (more, last))) :
    Traced k e c' (joins ++ more) ∧ c.readings ⊆ c'.readings ∧ c'.EndsAt e (done ++ rest) last ∧
      LeadsToOne k e (done ++ rest) last.entity := by
  induction rest generalizing c current done joins more with
  | nil =>
    cases h
    simpa using ⟨htraced, hcurrent, hleads⟩
  | cons name rest ih =>
    obtain ⟨r, target, hr, hmany, hone⟩ := related?_of_not_crosses hone
    have hleads' := hleads.snoc hr hmany
    have hne : done ++ [name] ≠ [] := by simp
    have hplain' : ∀ name' ∈ done ++ [name], IsPlain name' := fun n hn =>
      hplain n (by simp at hn ⊢; tauto)
    rw [List.append_cons] at hplain ⊢
    rw [JoinCache.from?] at h
    split at h
    · next reading hget =>
      have htarget := htraced.entity_eq hne hplain' hget hleads'
      exact ih htraced (.inr ⟨hne, JoinCache.mem_of_get? hget⟩) (htarget ▸ hleads')
        (htarget ▸ hone) hplain h
    · next hget =>
      obtain ⟨c₂, result, hfrom⟩ : ∃ c₂ result, JoinCache.from? k.schema k.naming
          (c.add (joinWith '.' (done ++ [name]))
            (target.reachAs (.joined (joinWith '.' (done ++ [name])))))
          (target.reachAs (.joined (joinWith '.' (done ++ [name])))) (done ++ [name]) rest =
            (c₂, result) := ⟨_, _, rfl⟩
      simp only [JoinCache.step?, Reach.related?, hr, bind, Except.bind, hfrom,
        Prod.mk.injEq] at h
      obtain ⟨rfl, h⟩ := h
      obtain ⟨⟨more', last'⟩, rfl, h⟩ := map_eq_ok.1 h
      cases h
      obtain ⟨htraced', hsub, hlast⟩ := ih (htraced.join hcurrent hleads hr hmany hplain' rfl hget)
        (.inr ⟨hne, List.mem_append_right _ (List.mem_singleton_self _)⟩) hleads' hone hplain hfrom
      refine ⟨by simpa using htraced', fun p hp => hsub (List.mem_append_left _ hp), hlast⟩

/-- Joining one more path continues the joins before, and the path then ends at its reading. -/
theorem traced_path? {c c' : JoinCache} {last : Reach} {relations : List String}
    {joins more : List Join} (htraced : Traced k e c joins)
    (hone : k.crossesCollection? e relations = .ok false)
    (hplain : ∀ name ∈ relations, IsPlain name)
    (h : c.path? k.schema k.naming e relations = (c', .ok (more, last))) :
    Traced k e c' (joins ++ more) ∧ c.readings ⊆ c'.readings ∧ c'.EndsAt e relations last ∧
      LeadsToOne k e relations last.entity :=
  traced_from? htraced (.inl ⟨rfl, rfl⟩) .nil hone hplain h

/-! ## Joins of sort keys -/

/-- What a compiled key is: a field or an aggregate of the entity, an extreme value over the rows
that a path through a relation to many leads to, or the field at the end of a joined path. -/
theorem key?_cases {c c' : JoinCache} {key : SortKey} {index : Nat} {more : List Join}
    {o : OrderKey} (h : k.key? e index c key = .ok (c', more, o)) :
    (key.path.isLocal = true ∧ k.localKey? e key.path.field = .ok o ∧ c' = c ∧ more = []) ∨
    (key.path.isLocal = false ∧ k.crossesCollection? e key.path.relations = .ok true ∧
      k.collectionKey? e index key = .ok o ∧ c' = c ∧ more = []) ∨
    (key.path.isLocal = false ∧ k.crossesCollection? e key.path.relations = .ok false ∧
      ∃ last field, c.path? k.schema k.naming e key.path.relations = (c', .ok (more, last)) ∧
        last.field? k.schema (k.naming.toStorage key.path.field) = .ok field ∧
          fieldKey? field = .ok o) := by
  unfold key? at h
  split at h
  · next hlocal =>
    obtain ⟨_, ho, h⟩ := map_eq_ok.1 h
    cases h
    exact .inl ⟨hlocal, ho, rfl, rfl⟩
  · next hlocal =>
    obtain ⟨crosses, hcrosses, h⟩ := bind_eq_ok.1 h
    cases crosses with
    | true =>
      obtain ⟨_, ho, h⟩ := bind_eq_ok.1 h
      cases h
      exact .inr (.inl ⟨by simpa using hlocal, hcrosses, ho, rfl, rfl⟩)
    | false =>
      obtain ⟨c₂, result, hpath⟩ : ∃ c₂ result,
          c.path? k.schema k.naming e key.path.relations = (c₂, result) := ⟨_, _, rfl⟩
      simp only [hpath, Bool.false_eq_true, if_false] at h
      obtain ⟨⟨more', last⟩, hresult, h⟩ := bind_eq_ok.1 h
      obtain ⟨field, hfield, h⟩ := bind_eq_ok.1 h
      obtain ⟨_, ho, h⟩ := bind_eq_ok.1 h
      cases h
      exact .inr (.inr ⟨by simpa using hlocal, hcrosses, last, field, hresult ▸ hpath, hfield, ho⟩)

/-- What a sort key compiles to when the paths of a cache are joined. -/
inductive Compiles (k : SortCompiler) (e : Entity) (c : JoinCache) (key : SortKey) :
    OrderKey → Prop
  | onEntity {o : OrderKey} (hlocal : key.path.isLocal = true)
      (ho : k.localKey? e key.path.field = .ok o) : Compiles k e c key o
  /-- The extreme value over the rows behind a relation to many. -/
  | behindMany {o : OrderKey} {index : Nat}
      (hcrosses : k.crossesCollection? e key.path.relations = .ok true)
      (ho : k.collectionKey? e index key = .ok o) : Compiles k e c key o
  /-- The field at the end of a joined path. -/
  | behindOne {last : Reach} {field : ResolvedField} {o : OrderKey}
      (hone : k.crossesCollection? e key.path.relations = .ok false)
      (hends : c.EndsAt e key.path.relations last)
      (hleads : LeadsToOne k e key.path.relations last.entity)
      (hfield : last.field? k.schema (k.naming.toStorage key.path.field) = .ok field)
      (ho : fieldKey? field = .ok o) : Compiles k e c key o

theorem Compiles.mono {c c' : JoinCache} {key : SortKey} {o : OrderKey} (h : Compiles k e c key o)
    (hsub : c.readings ⊆ c'.readings) : Compiles k e c' key o := by
  cases h with
  | onEntity hlocal ho => exact .onEntity hlocal ho
  | behindMany hcrosses ho => exact .behindMany hcrosses ho
  | behindOne hone hends hleads hfield ho =>
    exact .behindOne hone (hends.mono hsub) hleads hfield ho

/-- Whether an order has one key for every sort key, in its direction. -/
def CompilesAll (k : SortCompiler) (e : Entity) (c : JoinCache) (keys : List SortKey)
    (order : List OrderTerm) : Prop :=
  List.Forall₂ (fun key t => t.descending = key.descending ∧ Compiles k e c key t.key) keys order

theorem traced_key? {c c' : JoinCache} {key : SortKey} {index : Nat} {joins more : List Join}
    {o : OrderKey} (htraced : Traced k e c joins)
    (hplain : ∀ name ∈ key.path.relations, IsPlain name)
    (h : k.key? e index c key = .ok (c', more, o)) :
    Traced k e c' (joins ++ more) ∧ c.readings ⊆ c'.readings ∧ Compiles k e c' key o := by
  obtain ⟨hlocal, ho, rfl, rfl⟩ | ⟨-, hcrosses, ho, rfl, rfl⟩ |
    ⟨-, hone, last, field, hpath, hfield, ho⟩ := key?_cases h
  · simpa using ⟨htraced, .onEntity hlocal ho⟩
  · simpa using ⟨htraced, .behindMany hcrosses ho⟩
  · obtain ⟨htraced', hsub, hends, hleads⟩ := traced_path? htraced hone hplain hpath
    exact ⟨htraced', hsub, .behindOne hone hends hleads hfield ho⟩

/-- Sort keys continue the joins before, and each of them compiles to a key of the order in its
direction. -/
theorem traced_keys? {c : JoinCache} {keys : List SortKey} {index : Nat} {joins more : List Join}
    {order : List OrderTerm} (htraced : Traced k e c joins)
    (hplain : ∀ key ∈ keys, ∀ name ∈ key.path.relations, IsPlain name)
    (h : k.keys? e index c keys = .ok (more, order)) :
    ∃ c', Traced k e c' (joins ++ more) ∧ c.readings ⊆ c'.readings ∧
      CompilesAll k e c' keys order := by
  induction keys generalizing c index joins more order with
  | nil =>
    cases h
    exact ⟨c, by simpa using htraced, List.Subset.refl _, .nil⟩
  | cons key rest ih =>
    rw [List.forall_mem_cons] at hplain
    obtain ⟨⟨c', more', o⟩, hkey, h⟩ := bind_eq_ok.1 h
    obtain ⟨⟨more'', terms⟩, hkeys, h⟩ := bind_eq_ok.1 h
    cases h
    obtain ⟨htraced', hsub, hcompiles⟩ := traced_key? htraced hplain.1 hkey
    obtain ⟨c'', htraced'', hsub', hterms⟩ := ih htraced' hplain.2 hkeys
    rw [← List.append_assoc]
    exact ⟨c'', htraced'', fun p hp => hsub' (hsub hp), .cons ⟨rfl, hcompiles.mono hsub'⟩ hterms⟩

/-- What sort keys compile to: joins of their paths, and one key of the order for each of them. -/
theorem traced_order? {keys : List SortKey} {joins : List Join} {order : List OrderTerm}
    (hplain : ∀ key ∈ keys, ∀ name ∈ key.path.relations, IsPlain name)
    (h : k.order? e keys = .ok (joins, order)) :
    ∃ c, Traced k e c joins ∧ CompilesAll k e c keys order := by
  obtain ⟨c, htraced, -, hterms⟩ := traced_keys? .none hplain h
  exact ⟨c, by simpa using htraced, hterms⟩

/-- The joins of sort keys are joins of relations to one record. -/
theorem joined_order? {keys : List SortKey} {joins : List Join} {order : List OrderTerm}
    (hplain : ∀ key ∈ keys, ∀ name ∈ key.path.relations, IsPlain name)
    (h : k.order? e keys = .ok (joins, order)) : ∃ c, Joined k.schema e c joins := by
  obtain ⟨c, htraced, -⟩ := traced_order? hplain h
  exact ⟨c, htraced.joined⟩

end SortCompiler

end ResourceQuery
