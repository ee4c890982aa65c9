import ResourceQuery.Proofs.Filter.Kept
import ResourceQuery.Proofs.Filter.Renamed
import ResourceQuery.Proofs.Filter.Shape

/-!
# Spellings of a filter

A naming policy may have several requested names for one stored name. Which of them a filter uses
does not matter to what its clauses compare, but clauses are about one related row when their paths
start with the same requested names.

* `Source.Beside`: which readings of related rows stand for which others behind two paths;
* `FilterClause.Respells`: clauses with other requested names for the same stored names;
* `SharedAlike`: filters whose clauses share their relations alike;
* `FilterCompiler.agree_conditions?_respelled`: the conditions of such filters differ in the names
  of sources alone;
* `FilterCompiler.kept_of_respelled`: they keep the same rows.

A spelling that tells clauses apart that had a relation in common, or the other way round, does
change what is kept.
-/

namespace ResourceQuery

/-! ## Readings of related rows -/

namespace Source

/-- Which sources stand for which others behind two paths of relations: those of related rows after
as many relations, and all other sources for themselves. -/
def Beside (path path' : List String) (s t : Source) : Prop :=
  s.table = t.table ∧ (s.isOutside = true ∧ s.reading = t.reading ∨
    ∃ q q', q <+: path ∧ q' <+: path' ∧ q.length = q'.length ∧
      s.reading = .related q ∧ t.reading = .related q')

variable {path path' : List String} {s t u : Source}

theorem beside_self (h : s.isOutside = true) : Beside path path' s s := ⟨rfl, .inl ⟨h, rfl⟩⟩

theorem Beside.symm (h : Beside path path' s t) : Beside path' path t s := by
  obtain ⟨htable, ⟨hs, hreading⟩ | ⟨q, q', hq, hq', hlength, hs, ht⟩⟩ := h
  · refine ⟨htable.symm, .inl ⟨?_, hreading.symm⟩⟩
    rwa [isOutside, ← hreading]
  · exact ⟨htable.symm, .inr ⟨q', q, hq', hq, hlength.symm, ht, hs⟩⟩

theorem Beside.snoc (h : Beside path path' s t) (name name' : String) :
    Beside (path ++ [name]) (path' ++ [name']) s t := by
  obtain ⟨htable, hreading | ⟨q, q', hq, hq', hreading⟩⟩ := h
  · exact ⟨htable, .inl hreading⟩
  · exact ⟨htable, .inr ⟨q, q', hq.trans (List.prefix_append ..),
      hq'.trans (List.prefix_append ..), hreading⟩⟩

theorem Beside.unique (h : Beside path path' s t) (h' : Beside path path' s u) : t = u := by
  obtain ⟨htable, hreading⟩ := h
  obtain ⟨htable', hreading'⟩ := h'
  have hsame : t.reading = u.reading := by
    rcases hreading with ⟨hs, hreading⟩ | ⟨q, q', -, hq', hlength, hs, ht⟩ <;>
      rcases hreading' with ⟨hs', hreading'⟩ | ⟨r, r', -, hr', hlength', hs', hu⟩
    · rw [← hreading, ← hreading']
    · simp [isOutside, hs'] at hs
    · simp [isOutside, hs] at hs'
    · obtain rfl : q = r := Instance.related.inj (hs.symm.trans hs')
      -- of one path there is one beginning of each length
      have hprefix := List.prefix_of_prefix_length_le hq' hr' (by omega)
      rw [ht, hu, hprefix.eq_of_length (by omega)]
  cases t
  cases u
  cases htable
  cases htable'
  cases hsame
  rfl

theorem renames_beside (path path' : List String) : Renames (Beside path path') where
  unique := ⟨fun _ _ _ h h' => h.symm.unique h'.symm, fun _ _ _ h h' => h.unique h'⟩
  table h := h.1

/-- In front of all relations every source stands for itself. -/
theorem Beside.eq (h : Beside [] [] s t) : s = t := by
  refine Beside.unique ?_ h
  obtain ⟨-, ⟨hs, -⟩ | ⟨q, q', hq, -, -, hs, -⟩⟩ := h
  · exact beside_self hs
  · exact ⟨rfl, .inr ⟨q, q, hq, hq, rfl, hs, hs⟩⟩

end Source

/-! ## Clauses -/

/-- Whether two clauses compare with the same values what has the same stored names, each by its
own policy. -/
structure FilterClause.Respells (naming naming' : Naming) (c c' : FilterClause) : Prop where
  operator : c.operator = c'.operator
  values : c.values = c'.values
  relations : c.path.relations.map naming.toStorage = c'.path.relations.map naming'.toStorage
  field : naming.toStorage c.path.field = naming'.toStorage c'.path.field

/-- Whether paths that some others stand for begin with the same relations when the others do. -/
def KeepsBeginnings (G : List String → List String → Prop) : Prop :=
  ∀ {p p' q q' : List String}, G p p' → G q q' →
    ∀ n ≤ p.length, p.take n = q.take n ↔ p'.take n = q'.take n

/-- Whether two entries have clauses with the same stored names, and paths of which one stands for
the other. -/
structure FilterEntry.Respells (naming naming' : Naming) (G : List String → List String → Prop)
    (a b : FilterEntry) : Prop where
  clause : a.2.Respells naming naming' b.2
  path : a.1.map naming.toStorage = b.1.map naming'.toStorage
  paired : G a.1 b.1

/-- Which relations begin paths that stand for each other. -/
def Begin (G : List String → List String → Prop) (name name' : String) : Prop :=
  ∃ rest rest', G (name :: rest) (name' :: rest')

/-- Whether two parts of a filter are clauses with the same stored names, or relations with one
stored name that begin paths that stand for each other. -/
inductive Part.Respells (naming naming' : Naming) (G : List String → List String → Prop) :
    Part → Part → Prop
  | field {c c' : FilterClause} (h : c.Respells naming naming' c') :
    Respells naming naming' G (.field c) (.field c')
  | relation {name name' : String} (hname : naming.toStorage name = naming'.toStorage name')
    (h : Begin G name name') : Respells naming naming' G (.relation name) (.relation name')

section Entries

variable {naming naming' : Naming} {G : List String → List String → Prop}
  {entries entries' : List FilterEntry} {name name' : String}

theorem KeepsBeginnings.behind (hG : KeepsBeginnings G) (name name' : String) :
    KeepsBeginnings fun p p' => G (name :: p) (name' :: p') := by
  intro p p' q q' hp hq n hn
  simpa using hG hp hq (n + 1) (by simpa using hn)

theorem KeepsBeginnings.begin (hG : KeepsBeginnings G) : Relator.BiUnique (Begin G) := by
  have hfirst : ∀ {a a' b b'}, Begin G a a' → Begin G b b' → (a = b ↔ a' = b') := by
    rintro a a' b b' ⟨p, p', hp⟩ ⟨q, q', hq⟩
    simpa using hG hp hq 1 (by simp)
  exact ⟨fun _ _ _ h h' => (hfirst h h').2 rfl, fun _ _ _ h h' => (hfirst h h').1 rfl⟩

theorem FilterEntry.Respells.length_eq {a b : FilterEntry}
    (h : FilterEntry.Respells naming naming' G a b) : a.1.length = b.1.length := by
  simpa using congrArg List.length h.path

theorem localClauses_respelled
    (h : List.Forall₂ (FilterEntry.Respells naming naming' G) entries entries') :
    List.Forall₂ (FilterClause.Respells naming naming') (Part.localClauses entries)
      (Part.localClauses entries') :=
  Part.rel_localClauses (h.imp fun _ _ hab => ⟨hab.length_eq, fun _ => hab.clause⟩)

theorem behind_respelled (hG : KeepsBeginnings G) (hname : Begin G name name')
    (h : List.Forall₂ (FilterEntry.Respells naming naming' G) entries entries') :
    List.Forall₂ (FilterEntry.Respells naming naming' fun p p' => G (name :: p) (name' :: p'))
      (Part.behind name entries) (Part.behind name' entries') := by
  refine List.rel_filterMap (fun a b hab => ?_) h
  obtain ⟨path, c⟩ := a
  obtain ⟨path', c'⟩ := b
  obtain ⟨hc, hpath, hpaired⟩ := hab
  rcases path with _ | ⟨head, rest⟩ <;> rcases path' with _ | ⟨head', rest'⟩
  · exact .none
  · cases hpath
  · cases hpath
  · have hhead : Begin G head head' := ⟨rest, rest', hpaired⟩
    by_cases heq : head = name
    · subst heq
      obtain rfl := hG.begin.2 hhead hname
      simp only [if_true]
      exact .some ⟨hc, (List.cons.inj hpath).2, hpaired⟩
    · have hne : head' ≠ name' := fun heq' => heq (hG.begin.1 hhead (heq' ▸ hname))
      simp only [if_neg heq, if_neg hne]
      exact .none

theorem ofEntries_respelled (hG : KeepsBeginnings G) {seen seen' : List String}
    (hseen : List.Forall₂ (Begin G) seen seen')
    (h : List.Forall₂ (FilterEntry.Respells naming naming' G) entries entries') :
    List.Forall₂ (Part.Respells naming naming' G) (Part.ofEntries seen entries)
      (Part.ofEntries seen' entries') := by
  induction h generalizing seen seen' with
  | nil => exact .nil
  | @cons a b entries entries' hab _ ih =>
    obtain ⟨path, c⟩ := a
    obtain ⟨path', c'⟩ := b
    obtain ⟨hc, hpath, hpaired⟩ := hab
    rcases path with _ | ⟨head, rest⟩ <;> rcases path' with _ | ⟨head', rest'⟩
    · exact .cons (.field hc) (ih hseen)
    · cases hpath
    · cases hpath
    · have hhead : Begin G head head' := ⟨rest, rest', hpaired⟩
      have hmem : head ∈ seen ↔ head' ∈ seen' := List.rel_mem hG.begin hhead hseen
      simp only [Part.ofEntries, hmem]
      split
      · exact ih hseen
      · exact .cons (.relation (List.cons.inj hpath).1 hhead) (ih (.cons hhead hseen))

theorem depth_respelled
    (h : List.Forall₂ (FilterEntry.Respells naming naming' G) entries entries') :
    Part.depth entries = Part.depth entries' :=
  Part.depth_eq_of_forall₂ (h.imp fun _ _ hab => hab.length_eq)

end Entries

/-! ## Filters -/

/-- Whether clauses have the first relations of their paths in common exactly when the clauses in
their places in another filter do. -/
def SharedAlike (clauses clauses' : List FilterClause) : Prop :=
  ∀ c ∈ clauses.zip clauses', ∀ d ∈ clauses.zip clauses', ∀ n ≤ c.1.path.relations.length,
    c.1.path.relations.take n = d.1.path.relations.take n ↔
      c.2.path.relations.take n = d.2.path.relations.take n

instance (clauses clauses' : List FilterClause) : Decidable (SharedAlike clauses clauses') :=
  inferInstanceAs (Decidable (∀ _ ∈ _, ∀ _ ∈ _, ∀ _ ≤ _, _ ↔ _))

/-- The paths of clauses in the same place of two filters. -/
def PathsPaired (clauses clauses' : List FilterClause) (p p' : List String) : Prop :=
  ∃ c ∈ clauses.zip clauses', c.1.path.relations = p ∧ c.2.path.relations = p'

theorem SharedAlike.keepsBeginnings {clauses clauses' : List FilterClause}
    (h : SharedAlike clauses clauses') : KeepsBeginnings (PathsPaired clauses clauses') := by
  rintro _ _ _ _ ⟨c, hc, rfl, rfl⟩ ⟨d, hd, rfl, rfl⟩
  exact h c hc d hd

/-! ## Compiled filters -/

namespace FilterCompiler

variable {k : FilterCompiler} {naming' : Naming} {e : Entity} {entries entries' : List FilterEntry}
  {path path' : List String} {r r' : Reach}

theorem agree_clause?_respelled {c c' : FilterClause}
    (hr : r.Renamed (Source.Beside path path') r') (h : c.Respells k.naming naming' c') :
    Agree (Predicate.Renamed (Source.Beside path path')) (k.clause? r c)
      ({ k with naming := naming' }.clause? r' c') := by
  unfold clause?
  rw [← h.operator, ← h.values, ← h.field]
  refine (Reach.agree_field? hr fun _ => Source.beside_self).bind fun field field' hfield => ?_
  rw [hfield.type_eq]
  exact agree_registry_condition? hfield.agree_condition?

/-- The related row of a filter is read as what stands at its place in the other path. -/
theorem relatedReach_renamed (h : path.length = path'.length) (owner target : Entity)
    (name name' : String) :
    (relatedReach owner target (path ++ [name])).Renamed
      (Source.Beside (path ++ [name]) (path' ++ [name']))
        (relatedReach owner target (path' ++ [name'])) := by
  refine ⟨by rw [relatedReach_entity, relatedReach_entity], ?_, ?_⟩ <;>
    unfold relatedReach <;> split
  · exact ⟨rfl, .inr ⟨_, _, List.prefix_rfl, List.prefix_rfl, by simpa using h, rfl, rfl⟩⟩
  · exact Source.beside_self rfl
  · rfl
  · rfl

/-- Filters with the same stored names whose clauses share their relations alike compile to
conditions that differ in sources alone, or are both refused. -/
theorem agree_conditions?_respelled (depth : Nat) (hlength : path.length = path'.length)
    (hr : r.Renamed (Source.Beside path path') r') {G : List String → List String → Prop}
    (hG : KeepsBeginnings G)
    (h : List.Forall₂ (FilterEntry.Respells k.naming naming' G) entries entries') :
    Agree (List.Forall₂ (Predicate.Renamed (Source.Beside path path')))
      (k.conditions? depth r path entries)
      ({ k with naming := naming' }.conditions? depth r' path' entries') := by
  induction depth generalizing r r' path path' G entries entries' with
  | zero => exact .ok .nil
  | succ depth ih =>
    rw [conditions?, conditions?]
    refine (Agree.mapM ((localClauses_respelled h).imp fun _ _ =>
      agree_clause?_respelled hr)).bind fun _ _ _ => ?_
    refine Agree.mapM ((ofEntries_respelled hG .nil h).imp fun part part' hpart => ?_)
    cases hpart with
    | field hc => exact agree_clause?_respelled hr hc
    | @relation name name' hname hbegin =>
      have hrelated : Agree Eq (r.related? k.schema (k.naming.toStorage name))
          (r'.related? k.schema (naming'.toStorage name')) := by
        unfold Reach.related?
        rw [← hr.entity, hname]
        split
        · exact .ok rfl
        · exact .error _ _
      refine hrelated.bind fun found found' hfound => ?_
      obtain ⟨relationship, target⟩ := found
      subst hfound
      have hinner := relatedReach_renamed hlength r.entity target name name'
      rw [← hr.entity]
      refine (ih (by simpa using hlength) hinner (hG.behind name name')
        (behind_respelled hG hbegin h)).bind fun _ _ hcriteria => ?_
      refine .ok (.related (Source.renames_beside ..) (·.snoc name name') ?_ (.allOf hcriteria))
      exact relationship.hop_renamed ⟨hr.entity, hr.source.snoc name name', hr.shown⟩ hinner
        fun _ => Source.beside_self rfl

theorem entriesOf_respelled {naming : Naming} {clauses clauses' : List FilterClause}
    (h : List.Forall₂ (FilterClause.Respells naming naming') clauses clauses') :
    List.Forall₂ (FilterEntry.Respells naming naming' (PathsPaired clauses clauses'))
      (entriesOf clauses) (entriesOf clauses') := by
  rw [entriesOf, entriesOf, List.forall₂_map_left_iff, List.forall₂_map_right_iff,
    List.forall₂_iff_zip]
  obtain ⟨hlength, hrespells⟩ := List.forall₂_iff_zip.1 h
  exact ⟨hlength, fun hc => ⟨hrespells hc, (hrespells hc).relations, _, hc, rfl, rfl⟩⟩

theorem agree_filter?_respelled {clauses clauses' : List FilterClause}
    (h : List.Forall₂ (FilterClause.Respells k.naming naming') clauses clauses')
    (hshared : SharedAlike clauses clauses') :
    Agree (List.Forall₂ (Predicate.Renamed (Source.Beside [] []))) (k.filter? e clauses)
      ({ k with naming := naming' }.filter? e clauses') := by
  have hempty : clauses.isEmpty = clauses'.isEmpty := by
    cases h <;> rfl
  have hentries := entriesOf_respelled h
  have hdepth := depth_respelled hentries
  unfold filter?
  rw [hempty]
  split
  · exact .ok .nil
  · rw [entriesOf, entriesOf] at hdepth hentries
    simp only [hdepth]
    exact (agree_conditions?_respelled _ rfl ⟨rfl, Source.beside_self rfl, rfl⟩
      hshared.keepsBeginnings hentries).bind fun _ _ hconditions =>
        .ok (.cons (Predicate.Renamed.allOf hconditions).simplified .nil)

end FilterCompiler

/-! ## The rows that are kept -/

/-- Whether some conditions keep what others do: the same records of an entity, and the same frames
of every statement that reads nothing as the related rows of a filter. -/
structure KeepAlike (e : Entity) (ps ps' : List Predicate) : Prop where
  rows (db : Database) : ((Statement.all e).filtered ps').rows db =
    ((Statement.all e).filtered ps).rows db
  frames (db : Database) (s : Statement) (hs : ∀ t ∈ s.sources, t.isOutside = true) :
    (s.filtered ps').frames db = (s.filtered ps).frames db

section KeepAlike

variable {ps ps' : List Predicate}

theorem flatMap_sources_eq (h : List.Forall₂ (Predicate.Renamed (Source.Beside [] [])) ps ps') :
    ps'.flatMap (·.sources) = ps.flatMap (·.sources) ∧
      ∀ t ∈ ps.flatMap (·.sources), Source.Beside [] [] t t := by
  have hsources : List.Forall₂ (Source.Beside [] []) (ps.flatMap (·.sources))
      (ps'.flatMap (·.sources)) := List.rel_flatMap h fun _ _ hp => hp.sources
  have heq : ps.flatMap (·.sources) = ps'.flatMap (·.sources) := by
    rw [← List.forall₂_eq_eq_eq]
    exact hsources.imp fun _ _ => Source.Beside.eq
  refine ⟨heq.symm, ?_⟩
  rwa [← heq, List.forall₂_same] at hsources

theorem frames_filtered_of_renamed
    (h : List.Forall₂ (Predicate.Renamed (Source.Beside [] [])) ps ps') (db : Database)
    {s : Statement} (hs : ∀ t ∈ s.sources, t.isOutside = true) :
    (s.filtered ps').frames db = (s.filtered ps).frames db := by
  obtain ⟨hsources, hself⟩ := flatMap_sources_eq h
  have hchains : (s.filtered ps').chains = (s.filtered ps).chains := by
    simp [Statement.chains, Statement.filtered, Statement.root, hsources]
  rw [Statement.frames, Statement.frames, hchains]
  refine List.filter_congr fun f hf => ?_
  obtain ⟨g, hg, hread⟩ := exists_of_mem_chainFrames hf
  obtain rfl : f = g := by simpa using hg
  have hrenamed : f.Renamed (Source.Beside [] []) f := by
    refine .refl fun t ht => ?_
    have hmentioned : t ∈ s.sources ∨ t ∈ ps.flatMap (·.sources) := by
      have := Statement.mem_sources.1 (hread ht)
      rw [Statement.mem_sources]
      simpa [Statement.mentioned, Statement.filtered, Statement.joinedSources, Statement.root,
        or_assoc] using this
    exact hmentioned.elim (fun ht => Source.beside_self (hs t ht)) (hself t)
  have hholds : ps.all (·.holds db f) = ps'.all (·.holds db f) := by
    rw [Bool.eq_iff_iff, List.all_eq_true, List.all_eq_true, ← Predicate.holds_allOf,
      ← Predicate.holds_allOf, Predicate.holds, Predicate.holds,
      (Predicate.Renamed.allOf h).truth_eq db (Source.renames_beside ..) hrenamed]
  simp [Statement.filtered, hholds]

theorem keepAlike_of_renamed {e : Entity}
    (h : List.Forall₂ (Predicate.Renamed (Source.Beside [] [])) ps ps') : KeepAlike e ps ps' where
  rows db := by
    have hall : ∀ t ∈ (Statement.all e).sources, t.isOutside = true := by
      intro t ht
      rcases Statement.mem_sources.1 ht with ht | ht
      · cases ht
      · rcases List.mem_append.1 ht with ht | ht
        · obtain ⟨_, -, rfl⟩ := List.mem_map.1 ht
          rfl
        · cases ht
    rw [Statement.rows_records rfl rfl rfl, Statement.rows_records rfl rfl rfl,
      frames_filtered_of_renamed h db hall]
    rfl
  frames db s hs := frames_filtered_of_renamed h db hs

end KeepAlike

namespace FilterClause

/-- A clause with stored names for requested ones. -/
def stored (naming : Naming) (c : FilterClause) : FilterClause :=
  { c with path := ⟨c.path.relations.map naming.toStorage, naming.toStorage c.path.field⟩ }

theorem respells_stored (naming : Naming) (c : FilterClause) :
    c.Respells naming .identity (c.stored naming) :=
  ⟨rfl, rfl, (List.map_id _).symm, rfl⟩

end FilterClause

/-- Whether clauses whose paths begin with relations of the same stored names spell these alike. -/
def SpelledOneWay (naming : Naming) (clauses : List FilterClause) : Prop :=
  ∀ c ∈ clauses, ∀ d ∈ clauses, ∀ n ≤ c.path.relations.length,
    (c.path.relations.take n).map naming.toStorage =
      (d.path.relations.take n).map naming.toStorage →
        c.path.relations.take n = d.path.relations.take n

instance (naming : Naming) (clauses : List FilterClause) :
    Decidable (SpelledOneWay naming clauses) :=
  inferInstanceAs (Decidable (∀ _ ∈ _, ∀ _ ∈ _, ∀ _ ≤ _, _ → _))

theorem SpelledOneWay.sharedAlike {naming : Naming} {clauses : List FilterClause}
    (h : SpelledOneWay naming clauses) : SharedAlike clauses (clauses.map (.stored naming)) := by
  have hzip : clauses.zip (clauses.map (.stored naming)) =
      clauses.map fun c => (c, c.stored naming) := by
    rw [List.zip, List.zipWith_map_right, List.zipWith_self]
  rw [SharedAlike, hzip, List.forall_mem_map]
  intro c hc
  rw [List.forall_mem_map]
  intro d hd n hn
  simp only [FilterClause.stored, ← List.map_take]
  exact ⟨fun heq => by rw [heq], h c hc d hd n hn⟩

/-- The compiler of filters by stored names. -/
def FilterCompiler.byStoredNames (k : FilterCompiler) : FilterCompiler :=
  { k with naming := .identity }

/-- **Spelling does not matter.** A filter that is spelled otherwise, with the same stored names and
such that clauses share their relations as before, compiles when the filter does and keeps the same
rows. When the names of the filter are spelled in one way throughout, it keeps what it does by its
stored names. So if every `like` ends in a column, it keeps the rows that satisfy its clauses by
stored names: clauses behind relations of the same stored names are about one related row. -/
theorem FilterCompiler.kept_of_respelled {k : FilterCompiler} {e : Entity}
    {clauses : List FilterClause} {ps : List Predicate} (h : k.filter? e clauses = .ok ps) :
    (∀ clauses', List.Forall₂ (FilterClause.Respells k.naming k.naming) clauses clauses' →
      SharedAlike clauses clauses' →
        ∃ ps', k.filter? e clauses' = .ok ps' ∧ KeepAlike e ps ps') ∧
    (SpelledOneWay k.naming clauses →
      (∃ ps', k.byStoredNames.filter? e (clauses.map (.stored k.naming)) = .ok ps' ∧
        KeepAlike e ps ps') ∧
      (k.schema.WellFormed → e ∈ k.schema.entities →
        k.byStoredNames.EndInColumns e (entriesOf (clauses.map (.stored k.naming))) →
          ∀ db : Database, ((Statement.all e).filtered ps).rows db =
            ((db.rows e.table).filter (k.byStoredNames.satisfies db e
              (entriesOf (clauses.map (.stored k.naming))))).map fun x => .record (some x))) := by
  have hagree : ∀ {naming' clauses'},
      List.Forall₂ (FilterClause.Respells k.naming naming') clauses clauses' →
      SharedAlike clauses clauses' →
        ∃ ps', { k with naming := naming' }.filter? e clauses' = .ok ps' ∧ KeepAlike e ps ps' := by
    intro naming' clauses' hrespells hshared
    have hfilters := agree_filter?_respelled (e := e) hrespells hshared
    rw [h] at hfilters
    generalize { k with naming := naming' }.filter? e clauses' = result at hfilters
    cases hfilters with
    | ok hrenamed => exact ⟨_, rfl, keepAlike_of_renamed hrenamed⟩
  refine ⟨fun clauses' => hagree, fun hspelled => ?_⟩
  have hrespells : List.Forall₂ (FilterClause.Respells k.naming .identity) clauses
      (clauses.map (.stored k.naming)) := by
    rw [List.forall₂_map_right_iff, List.forall₂_same]
    exact fun c _ => c.respells_stored k.naming
  obtain ⟨ps', hstored, hkept⟩ := hagree hrespells hspelled.sharedAlike
  refine ⟨⟨ps', hstored, hkept⟩, fun hs he hends db => ?_⟩
  rw [← hkept.rows db]
  exact rows_filtered db hs he hends hstored

namespace Sample

/-- The compiler of filters of the sample entities by names in camel case. -/
def snakeFilters : FilterCompiler := ⟨schema, .snake, .standard⟩

/-- Categories with `oo` in their name and a child of rank 5 that has a child named physics. -/
def grandparentClauses : List FilterClause := [
  ⟨.eq, ⟨["children", "children"], "name"⟩, [.text "physics"]⟩,
  ⟨.like, ⟨[], "name"⟩, [.text "oo"]⟩,
  ⟨.eq, ⟨["children"], "rank"⟩, [.text "5"]⟩]

/-- The same with other spellings. -/
def grandparentRespelled : List FilterClause := [
  ⟨.eq, ⟨["Children", "children"], "Name"⟩, [.text "physics"]⟩,
  ⟨.like, ⟨[], "Name"⟩, [.text "oo"]⟩,
  ⟨.eq, ⟨["Children"], "rank"⟩, [.text "5"]⟩]

theorem kept_grandparentRespelled : ∃ ps ps',
    snakeFilters.filter? category grandparentClauses = .ok ps ∧
    snakeFilters.filter? category grandparentRespelled = .ok ps' ∧ KeepAlike category ps ps' ∧
    ((Statement.all category).filtered ps).rows database =
      ((database.rows "category").filter (snakeFilters.byStoredNames.satisfies database category
        (FilterCompiler.entriesOf (grandparentClauses.map (.stored .snake))))).map
          fun x => .record (some x) := by
  have hrespells : List.Forall₂ (FilterClause.Respells .snake .snake) grandparentClauses
      grandparentRespelled :=
    .cons ⟨rfl, rfl, by decide, by decide⟩ (.cons ⟨rfl, rfl, by decide, by decide⟩
      (.cons ⟨rfl, rfl, by decide, by decide⟩ .nil))
  obtain ⟨ps, h⟩ : ∃ ps, snakeFilters.filter? category grandparentClauses = .ok ps := ⟨_, rfl⟩
  obtain ⟨hrespelled, hstored⟩ := FilterCompiler.kept_of_respelled h
  obtain ⟨ps', h', hkept⟩ := hrespelled grandparentRespelled hrespells (by decide)
  exact ⟨ps, ps', h, h', hkept,
    (hstored (by decide)).2 schema_wellFormed (by decide) (by decide) database⟩

/-- People with a pet of this name that has this number, by two spellings of the relation. -/
def petClausesOf (relation relation' : String) : List FilterClause := [
  ⟨.eq, ⟨[relation], "name"⟩, [.text "Big Bird"]⟩, ⟨.eq, ⟨[relation'], "id"⟩, [.text "4"]⟩]

theorem exists_kept_petClausesOf (relation relation' : String) (n : Nat)
    (h : ((snakeFilters.filter? person (petClausesOf relation relation')).toOption.map fun ps =>
      (((Statement.all person).filtered ps).frames database).length) = some n) :
    ∃ ps, snakeFilters.filter? person (petClausesOf relation relation') = .ok ps ∧
      (((Statement.all person).filtered ps).rows database).length = n := by
  cases hps : snakeFilters.filter? person (petClausesOf relation relation') with
  | error e =>
    rw [hps] at h
    cases h
  | ok ps =>
    rw [hps] at h
    refine ⟨ps, rfl, ?_⟩
    rw [Statement.rows_records rfl rfl rfl]
    exact (List.length_map _).trans (Option.some.inj h)

/-- Two spellings of one relation are two related rows: a person is kept that has a pet of the name
and another one with the number. -/
theorem mixed_spelling_keeps_more :
    ¬ ∀ clauses clauses' ps, snakeFilters.filter? person clauses = .ok ps →
      List.Forall₂ (FilterClause.Respells .snake .snake) clauses clauses' →
        ∃ ps', snakeFilters.filter? person clauses' = .ok ps' ∧
          ((Statement.all person).filtered ps').rows database =
            ((Statement.all person).filtered ps).rows database := by
  intro h
  obtain ⟨ps, hps, hnone⟩ := exists_kept_petClausesOf "pets" "pets" 0 (by decide +kernel)
  obtain ⟨ps', hps', hone⟩ := exists_kept_petClausesOf "pets" "Pets" 1 (by decide +kernel)
  obtain ⟨_, hsame, hrows⟩ := h _ (petClausesOf "pets" "Pets") _ hps
    (.cons ⟨rfl, rfl, rfl, rfl⟩ (.cons ⟨rfl, rfl, by decide, rfl⟩ .nil))
  obtain rfl := Except.ok.inj (hps'.symm.trans hsame)
  have hlength := congrArg List.length hrows
  rw [hnone, hone] at hlength
  exact absurd hlength (by decide)

end Sample

end ResourceQuery
