import ResourceQuery.Proofs.Routed
import ResourceQuery.Proofs.Sort.Frames

/-!
# Joins of overlapping paths

Paths of relations that are joined to one statement, one call after the other. Paths that begin
alike share the joins of what they have in common.

* `prefixesOf`: the paths on the way of some paths;
* `JoinCache.reading?`: what a cache knows a path by;
* `JoinCache.Called`: the cache and the statement after some calls, and what these returned;
* `JoinCache.JoinsLast`: the join of the last relation of a path, from the path before it;
* `JoinCache.Tracks`: a cache and joins that are those of some paths;
* `JoinCache.tracks_path?`: what one call keeps of that;
* `JoinCache.joins_of_called`: after any calls there is one join for each path on the way.

Paths are the same when their texts are. Where no name of a relation has a dot in it this says that
they are the same lists of names.
-/

namespace ResourceQuery

open Text

/-- The paths on the way of some paths, each of these with the names up to its first relation, then
up to its second one, and so on. -/
def prefixesOf (paths : List (List String)) : List (List String) := paths.flatMap (·.inits.tail)

theorem mem_prefixesOf {paths : List (List String)} {names : List String} :
    names ∈ prefixesOf paths ↔ names ≠ [] ∧ ∃ path ∈ paths, names <+: path := by
  have htail (path : List String) : names ∈ path.inits.tail ↔ names ≠ [] ∧ names <+: path := by
    cases path with
    | nil => simp
    | cons name rest =>
      rw [List.inits_cons, List.tail_cons, List.prefix_cons_iff]
      constructor
      · intro h
        obtain ⟨p, hp, rfl⟩ := List.mem_map.1 h
        exact ⟨by simp, .inr ⟨p, rfl, (List.mem_inits _ _).1 hp⟩⟩
      · rintro ⟨hne, rfl | ⟨p, rfl, hp⟩⟩
        · exact absurd rfl hne
        · exact List.mem_map_of_mem ((List.mem_inits _ _).2 hp)
  simp only [prefixesOf, List.mem_flatMap, htail]
  tauto

theorem prefixesOf_concat (paths : List (List String)) (path : List String) :
    prefixesOf (paths ++ [path]) = prefixesOf paths ++ path.inits.tail := by
  simp [prefixesOf]

/-- The paths on the way after some names, of which the next one is the first. -/
theorem prefixes_after_cons (done : List String) (name : String) (rest : List String) :
    (name :: rest).inits.tail.map (done ++ ·) =
      (done ++ [name]) :: rest.inits.tail.map (done ++ [name] ++ ·) := by
  cases rest <;> simp [Function.comp_def]

namespace JoinCache

variable {schema : Schema} {naming : Naming} {e : Entity} {c c' : JoinCache}

/-! ## Readings -/

/-- The reading at the end of a path of relations: that of the entity itself, or what the cache
knows the path by. -/
def reading? (c : JoinCache) (e : Entity) (names : List String) : Option Reach :=
  if names = [] then some e.reach else c.get? (joinWith '.' names)

/-- Whether a cache knows by the same readings what another one knows. -/
def Extends (c c' : JoinCache) : Prop := ∀ path r, c.get? path = some r → c'.get? path = some r

theorem reading?_of_ne_nil {names : List String} (h : names ≠ []) :
    c.reading? e names = c.get? (joinWith '.' names) := if_neg h

theorem get?_add_of_none {path : String} (r : Reach) (h : c.get? path = none) :
    (c.add path r).get? path = some r := by
  rw [get?, Option.map_eq_none_iff] at h
  simp [get?, add, List.find?_append, h]

theorem extends_add (c : JoinCache) (path : String) (r : Reach) : c.Extends (c.add path r) := by
  intro path' r' h
  obtain ⟨p, hp, rfl⟩ := Option.map_eq_some_iff.1 h
  simp [get?, add, List.find?_append, hp]

theorem Extends.refl (c : JoinCache) : c.Extends c := fun _ _ h => h

theorem Extends.trans {c'' : JoinCache} (h : c.Extends c') (h' : c'.Extends c'') : c.Extends c'' :=
  fun path r hget => h' path r (h path r hget)

theorem Extends.reading? {names : List String} {r : Reach} (h : c.Extends c')
    (hr : c.reading? e names = some r) : c'.reading? e names = some r := by
  by_cases hnames : names = []
  · simpa [JoinCache.reading?, hnames] using hr
  · rw [reading?_of_ne_nil hnames] at hr ⊢
    exact h _ _ hr

theorem mem_of_isSome_get? {path : String} :
    (c.get? path).isSome ↔ path ∈ c.readings.map (·.1) := by
  simp [get?]

/-! ## Calls -/

/-- What calls on a cache for an entity lead to, each of them for one path: the cache, the
statement, and the readings that they return. -/
inductive Called (schema : Schema) (naming : Naming) (e : Entity) (s : Statement) :
    List (List String) → JoinCache → Statement → List Reach → Prop
  | none : Called schema naming e s [] {} s []
  | call {paths : List (List String)} {path : List String} {c c' : JoinCache} {t : Statement}
      {readings : List Reach} {joins : List Join} {last : Reach}
      (before : Called schema naming e s paths c t readings)
      (hpath : c.path? schema naming e path = (c', .ok (joins, last))) :
      Called schema naming e s (paths ++ [path]) c' { t with joins := t.joins ++ joins }
        (readings ++ [last])

/-- Whether a join is that of the last relation of a path: from the reading of the names before it,
to a reading that the path is known by and no other one. -/
inductive JoinsLast (schema : Schema) (naming : Naming) (e : Entity) (c : JoinCache) :
    List String → Join → Prop
  | last {names : List String} {name path : String} {parent : Reach} {r : Relationship}
      {target : Entity} (hparent : c.reading? e names = some parent)
      (hr : schema.related? parent.entity (naming.toStorage name) = some (r, target))
      (hname : path = joinWith '.' (names ++ [name]))
      (hreading : c.get? path = some (target.reachAs (.joined path))) :
      JoinsLast schema naming e c (names ++ [name])
        ⟨parent.source, r.hop parent (target.reachAs (.joined path)) (.joinedLink path)⟩

theorem JoinsLast.mono {names : List String} {j : Join} (h : JoinsLast schema naming e c names j)
    (hc : c.Extends c') : JoinsLast schema naming e c' names j := by
  obtain ⟨hparent, hr, hname, hreading⟩ := h
  exact .last (hc.reading? hparent) hr hname (hc _ _ hreading)

namespace JoinsLast

variable {names : List String} {j : Join}

theorem reading_eq (h : JoinsLast schema naming e c names j) {t : Source}
    (ht : t ∈ j.hop.sources) :
    t.reading = .joined (joinWith '.' names) ∨ t.reading = .joinedLink (joinWith '.' names) := by
  obtain ⟨-, -, rfl, -⟩ := h
  exact Relationship.reading_of_mem_joined_hop ht

theorem nodup (h : JoinsLast schema naming e c names j) : j.hop.sources.Nodup := by
  obtain @⟨_, _, _, _, r, _, -, -, -, -⟩ := h
  rw [Relationship.sources_hop]
  cases r.link <;> simp [Entity.reachAs]

/-- Joins of different paths bring in different sources. -/
theorem nodup_sources {joined : List (List String)} {joins : List Join}
    (h : List.Forall₂ (JoinsLast schema naming e c) joined joins)
    (htexts : (joined.map (joinWith '.')).Nodup) :
    (joins.flatMap (·.hop.sources)).Nodup := by
  induction h with
  | nil => exact List.nodup_nil
  | @cons names j joined joins hj hrest ih =>
    obtain ⟨hnew, htexts⟩ := List.nodup_cons.1 htexts
    rw [List.flatMap_cons, List.nodup_append']
    refine ⟨hj.nodup, ih htexts, fun t ht ht' => hnew ?_⟩
    obtain ⟨j', hj', ht'⟩ := List.mem_flatMap.1 ht'
    obtain ⟨names', hnames', hlast⟩ := exists_mem_of_forall₂ hrest.flip hj'
    have htext : joinWith '.' names' = joinWith '.' names := by
      have := hj.reading_eq ht
      have := hlast.reading_eq ht'
      grind
    exact List.mem_map.2 ⟨names', hnames', htext⟩

end JoinsLast

/-- Whether a cache and joins are those of some paths, of which `joined` are the different ones. -/
structure Tracks (schema : Schema) (naming : Naming) (e : Entity) (c : JoinCache)
    (paths joined : List (List String)) (joins : List Join) : Prop where
  sublist : joined.Sublist paths
  texts : joined.map (joinWith '.') = (paths.map (joinWith '.')).eraseDups
  known : c.readings.map (·.1) = joined.map (joinWith '.')
  joins : List.Forall₂ (JoinsLast schema naming e c) joined joins

namespace Tracks

variable {paths joined : List (List String)} {joins : List Join}

theorem isSome_get?_iff (h : Tracks schema naming e c paths joined joins) {path : String} :
    (c.get? path).isSome ↔ path ∈ paths.map (joinWith '.') := by
  rw [mem_of_isSome_get?, h.known, h.texts, List.mem_eraseDups]

/-- A path that is known adds nothing. -/
theorem again (h : Tracks schema naming e c paths joined joins) {names : List String} {r : Reach}
    (hget : c.get? (joinWith '.' names) = some r) :
    Tracks schema naming e c (paths ++ [names]) joined joins := by
  have hmem : joinWith '.' names ∈ paths.map (joinWith '.') :=
    h.isSome_get?_iff.1 (Option.isSome_of_eq_some hget)
  refine ⟨h.sublist.trans (List.sublist_append_left _ _), ?_, h.known, h.joins⟩
  rw [List.map_append, List.map_singleton, eraseDups_concat, if_pos hmem, h.texts]

/-- One more relation after a path that is known. -/
theorem join (h : Tracks schema naming e c paths joined joins) {names : List String}
    {name path : String} {parent : Reach} {r : Relationship} {target : Entity}
    (hparent : c.reading? e names = some parent)
    (hr : schema.related? parent.entity (naming.toStorage name) = some (r, target))
    (hname : path = joinWith '.' (names ++ [name])) (hget : c.get? path = none) :
    Tracks schema naming e (c.add path (target.reachAs (.joined path)))
      (paths ++ [names ++ [name]]) (joined ++ [names ++ [name]])
      (joins ++ [⟨parent.source,
        r.hop parent (target.reachAs (.joined path)) (.joinedLink path)⟩]) := by
  have hnew : joinWith '.' (names ++ [name]) ∉ paths.map (joinWith '.') := by
    rw [← hname, ← h.isSome_get?_iff, hget]
    exact Bool.false_ne_true
  have hext := c.extends_add path (target.reachAs (.joined path))
  refine ⟨h.sublist.append (List.Sublist.refl _), ?_, ?_, ?_⟩
  · rw [List.map_append, List.map_append, List.map_singleton, eraseDups_concat, if_neg hnew,
      h.texts]
  · simp [add, h.known, hname]
  · exact List.rel_append (h.joins.imp fun _ _ hj => hj.mono hext)
      (.cons (.last (hext.reading? hparent) hr hname (get?_add_of_none _ hget)) .nil)

/-- Different paths have joins that bring in different sources. -/
theorem nodup_sources (h : Tracks schema naming e c paths joined joins) :
    (e.reach.source :: joins.flatMap (·.hop.sources)).Nodup := by
  refine List.nodup_cons.2 ⟨fun hmem => ?_, JoinsLast.nodup_sources h.joins ?_⟩
  · obtain ⟨j, hj, hmem⟩ := List.mem_flatMap.1 hmem
    obtain ⟨names, -, hlast⟩ := exists_mem_of_forall₂ h.joins.flip hj
    rcases hlast.reading_eq hmem with h | h <;> cases h
  · rw [h.texts]
    exact nodup_eraseDups _

/-- The joins that some names still need after a path continue the joins before. -/
theorem from? {done rest : List String} {current last : Reach} {more : List Join}
    (h : Tracks schema naming e c paths joined joins) (hcurrent : c.reading? e done = some current)
    (hfrom : JoinCache.from? schema naming c current done rest = (c', .ok (more, last))) :
    ∃ joined', Tracks schema naming e c' (paths ++ rest.inits.tail.map (done ++ ·)) joined'
        (joins ++ more) ∧
      c.Extends c' ∧ c'.reading? e (done ++ rest) = some last := by
  induction rest generalizing c current done paths joined joins more with
  | nil =>
    cases hfrom
    exact ⟨joined, by simpa using h, .refl _, by simpa using hcurrent⟩
  | cons name rest ih =>
    have hne : done ++ [name] ≠ [] := by simp
    rw [List.append_cons done name rest, prefixes_after_cons, List.append_cons paths]
    rw [JoinCache.from?] at hfrom
    split at hfrom
    · next reading hget =>
      exact ih (h.again hget) ((reading?_of_ne_nil hne).trans hget) hfrom
    · next hget =>
      cases hr : schema.related? current.entity (naming.toStorage name) with
      | none => simp [step?, Reach.related?, hr, bind, Except.bind] at hfrom
      | some found =>
        obtain ⟨r, target⟩ := found
        obtain ⟨c₂, result, hrest⟩ : ∃ c₂ result, JoinCache.from? schema naming
            (c.add (joinWith '.' (done ++ [name]))
              (target.reachAs (.joined (joinWith '.' (done ++ [name])))))
            (target.reachAs (.joined (joinWith '.' (done ++ [name])))) (done ++ [name]) rest =
              (c₂, result) := ⟨_, _, rfl⟩
        simp only [step?, Reach.related?, hr, bind, Except.bind, hrest, Prod.mk.injEq] at hfrom
        obtain ⟨rfl, hfrom⟩ := hfrom
        obtain ⟨⟨more', last'⟩, rfl, heq⟩ := map_eq_ok.1 hfrom
        cases heq
        obtain ⟨joined', htracks, hext, hlast⟩ := ih (h.join hcurrent hr rfl hget)
          ((reading?_of_ne_nil hne).trans (get?_add_of_none _ hget)) hrest
        exact ⟨joined', by simpa using htracks, (c.extends_add _ _).trans hext, hlast⟩

end Tracks

/-- The joins of one more path continue those before, and the path then ends at what is returned. -/
theorem tracks_path? {paths joined : List (List String)} {joins more : List Join}
    {path : List String} {last : Reach} (h : Tracks schema naming e c paths joined joins)
    (hpath : c.path? schema naming e path = (c', .ok (more, last))) :
    ∃ joined', Tracks schema naming e c' (paths ++ path.inits.tail) joined' (joins ++ more) ∧
      c.Extends c' ∧ c'.reading? e path = some last := by
  have hentity : c.reading? e [] = some e.reach := rfl
  simpa using h.from? hentity hpath

/-- Names that are known after a path need no more joins. -/
theorem from?_of_known {done rest : List String} {current : Reach}
    (hcurrent : c.reading? e done = some current)
    (h : ∀ names, names ≠ [] → names <+: rest →
      (c.get? (joinWith '.' (done ++ names))).isSome) :
    ∃ r, c.reading? e (done ++ rest) = some r ∧
      c.from? schema naming current done rest = (c, .ok ([], r)) := by
  induction rest generalizing current done with
  | nil => exact ⟨current, by simpa using hcurrent, rfl⟩
  | cons name rest ih =>
    obtain ⟨reading, hget⟩ := Option.isSome_iff_exists.1 (h [name] (by simp) (by simp))
    rw [List.append_cons done name rest, from?, hget]
    refine ih ((reading?_of_ne_nil (by simp)).trans hget) fun names hne hnames => ?_
    simpa using h (name :: names) (by simp) (by simpa using hnames)

/-! ## Any calls -/

variable {s t : Statement} {paths : List (List String)} {readings : List Reach}

/-- After any calls, cache and statement are those of all paths on the way. -/
theorem Called.tracks (hs : s.joins = []) (h : Called schema naming e s paths c t readings) :
    (∃ joined, Tracks schema naming e c (prefixesOf paths) joined t.joins) ∧
      t = { s with joins := t.joins } ∧
      List.Forall₂ (fun path r => c.reading? e path = some r) paths readings := by
  induction h with
  | none =>
    refine ⟨⟨[], ?_⟩, rfl, .nil⟩
    rw [hs]
    exact ⟨.slnil, rfl, rfl, .nil⟩
  | call before hpath ih =>
    obtain ⟨⟨joined, htracks⟩, heq, hreadings⟩ := ih
    obtain ⟨joined', htracks', hext, hlast⟩ := tracks_path? htracks hpath
    refine ⟨⟨joined', by rwa [prefixesOf_concat]⟩, by rw [heq], ?_⟩
    exact List.rel_append (hreadings.imp fun _ _ => hext.reading?) (.cons hlast .nil)

/-- **The joins of any calls.** Paths are joined one after the other to a statement without joins.
After any calls the statement has one join for each path on the way, in the order in which these are
first needed, and is otherwise as it was. Every one of these joins starts from the reading of the
path before it, the entity itself for a single relation, and no two sources are the same. What a
call has returned is the reading of its path, and a path on the way that is asked for again needs no
join and leads to the same reading. -/
theorem joins_of_called (hs : s.joins = [])
    (h : Called schema naming e s paths c t readings) :
    (∃ joined : List (List String), joined.Sublist (prefixesOf paths) ∧
        joined.map (joinWith '.') = ((prefixesOf paths).map (joinWith '.')).eraseDups ∧
        ((∀ path ∈ paths, ∀ name ∈ path, IsPlain name) → joined = (prefixesOf paths).eraseDups) ∧
        List.Forall₂ (JoinsLast schema naming e c) joined t.joins) ∧
      t = { s with joins := t.joins } ∧
      (e.reach.source :: t.joins.flatMap (·.hop.sources)).Nodup ∧
      List.Forall₂ (fun path r => c.reading? e path = some r) paths readings ∧
      ∀ names ∈ prefixesOf paths, ∃ r, c.reading? e names = some r ∧
        c.path? schema naming e names = (c, .ok ([], r)) := by
  obtain ⟨⟨joined, htracks⟩, heq, hreadings⟩ := h.tracks hs
  refine ⟨⟨joined, htracks.sublist, htracks.texts, fun hplain => ?_, htracks.joins⟩, heq,
    htracks.nodup_sources, hreadings, fun names hnames => ?_⟩
  · have hback : ∀ names ∈ prefixesOf paths, splitAt '.' (joinWith '.' names) = names := by
      intro names hnames
      obtain ⟨hne, path, hpath, hbegins⟩ := mem_prefixesOf.1 hnames
      exact splitAt_joinWith hne fun name hname => hplain path hpath name (hbegins.subset hname)
    have hmap {names : List (List String)} (hsub : names ⊆ prefixesOf paths) :
        (names.map (joinWith '.')).map (splitAt '.') = names := by
      rw [List.map_map]
      exact (List.map_congr_left fun n hn => hback n (hsub hn)).trans (List.map_id _)
    calc joined
      _ = (joined.map (joinWith '.')).map (splitAt '.') := (hmap htracks.sublist.subset).symm
      _ = (((prefixesOf paths).map (joinWith '.')).map (splitAt '.')).eraseDups := by
        rw [htracks.texts, eraseDups_map (splitAt_injective '.')]
      _ = (prefixesOf paths).eraseDups := by rw [hmap (List.Subset.refl _)]
  · obtain ⟨hne, path, hpath, hbegins⟩ := mem_prefixesOf.1 hnames
    have hentity : c.reading? e [] = some e.reach := rfl
    refine from?_of_known hentity fun names' hne' hbegins' => ?_
    exact htracks.isSome_get?_iff.2 (List.mem_map_of_mem
      (mem_prefixesOf.2 ⟨hne', path, hpath, hbegins'.trans hbegins⟩))

end JoinCache

namespace Sample

open JoinCache

/-- Paths from a pet that have the owner in common, and one of them asked for again. -/
def pathsOfPets : List (List String) :=
  [] ++ [["pet_owner", "pets"]] ++ [["toy"]] ++ [["pet_owner"]] ++ [["pet_owner", "pets", "toy"]]

theorem joins_of_pathsOfPets : ∃ c t readings,
    Called schema .identity pet (.all pet) pathsOfPets c t readings ∧
    (∃ joined, joined.map (joinWith '.') =
        ["pet_owner", "pet_owner.pets", "toy", "pet_owner.pets.toy"] ∧
      List.Forall₂ (JoinsLast schema .identity pet c) joined t.joins) ∧
    ∃ r, c.reading? pet ["pet_owner", "pets"] = some r ∧
      c.path? schema .identity pet ["pet_owner", "pets"] = (c, .ok ([], r)) := by
  obtain ⟨c, t, readings, h⟩ : ∃ c t readings,
      Called schema .identity pet (.all pet) pathsOfPets c t readings :=
    ⟨_, _, _, .call (.call (.call (.call .none rfl) rfl) rfl) rfl⟩
  obtain ⟨⟨joined, -, htexts, -, hjoins⟩, -, -, -, hagain⟩ := joins_of_called rfl h
  exact ⟨c, t, readings, h, ⟨joined, htexts.trans (by decide), hjoins⟩, hagain _ (by decide)⟩

end Sample

end ResourceQuery
