import ResourceQuery.Proofs.Number.PageCount
import ResourceQuery.Proofs.Query.Shape

/-!
# What a store is asked for

What a request is refused for is found before the store is asked for anything. Then the store is
asked for the count, when there is one, and for the rows, and for nothing else.

* `Asked`, `Asking`: what a store is asked for, and computations that keep a list of it;
* `Store.recorded`: a session that answers everything, and what it was asked for;
* `Asking.Asks`: what a computation asks for, whatever the answers are;
* `CompiledQuery.announced`: what a compiled request asks for;
* `BlamesNoParameter`: computations that do not fail because of a parameter of the request, and
  refinements and transforms that do not;
* `Query.asked`, `Query.asks_announced`: what a request asks for.
-/

namespace ResourceQuery

/-! ## Records of what is asked for -/

/-- What a store is asked for. The loads of related records belong to the rows before them. -/
inductive Asked
  | count (s : Statement)
  | rows (s : Statement)
  | related (loads : List RelationLoad)

/-- Computations that may fail, on a session with a state. They keep what they have asked it for,
also when they fail. -/
abbrev Asking (σ : Type) := ExceptT QueryError (StateM (σ × List Asked))

namespace Asking

variable {σ α β : Type} {x : Asking σ α} {f : α → Asking σ β} {asked asked' : List Asked}
  {p : Except QueryError α → Prop} {q : Except QueryError β → Prop}

/-- The result of a computation from a state, the state after it, and all that was asked for. -/
def outcome (x : Asking σ α) (state : σ × List Asked) : Except QueryError α × (σ × List Asked) :=
  (ExceptT.run x).run state

/-- One answer of a session. -/
def ask (a : Asked) (answer : StateM σ α) : Asking σ α :=
  ExceptT.mk fun (state, past) =>
    let (result, state) := answer.run state
    (.ok result, state, past ++ [a])

theorem outcome_bind (x : Asking σ α) (f : α → Asking σ β) (state : σ × List Asked) :
    (x >>= f).outcome state =
      match x.outcome state with
      | (.ok a, state) => (f a).outcome state
      | (.error e, state) => (.error e, state) := by
  unfold outcome ExceptT.run StateT.run
  simp only [bind, ExceptT.bind, ExceptT.mk, StateT.bind, ExceptT.bindCont]
  rcases x state with ⟨_ | _, _⟩ <;> rfl

theorem outcome_ofExcept (r : Except QueryError α) (state : σ × List Asked) :
    (MonadExcept.ofExcept r : Asking σ α).outcome state = (r, state) := by
  cases r <;> rfl

/-- Whether a computation asks for something, whatever the session answers, and ends in a result of
some kind. -/
def Asks (x : Asking σ α) (asked : List Asked) (p : Except QueryError α → Prop) : Prop :=
  ∀ state past, ∃ r state', x.outcome (state, past) = (r, state', past ++ asked) ∧ p r

theorem asks_ask (a : Asked) {answer : StateM σ α} {p : α → Prop}
    (h : ∀ state, p (answer.run state).1) :
    (ask a answer).Asks [a] fun r => ∃ b, r = .ok b ∧ p b :=
  fun state _ => ⟨_, _, rfl, _, rfl, h state⟩

theorem asks_ofExcept (r : Except QueryError α) :
    (MonadExcept.ofExcept r : Asking σ α).Asks [] (· = r) :=
  fun state past => ⟨r, state, by rw [outcome_ofExcept, List.append_nil], rfl⟩

theorem asks_pure (a : α) : (pure a : Asking σ α).Asks [] (· = .ok a) :=
  asks_ofExcept (.ok a)

theorem Asks.mono {p' : Except QueryError α → Prop} (h : x.Asks asked p) (hp : ∀ r, p r → p' r) :
    x.Asks asked p' := by
  intro state past
  obtain ⟨r, state', hx, hr⟩ := h state past
  exact ⟨r, state', hx, hp r hr⟩

/-- A computation after one that has a result. -/
theorem Asks.bind {p : α → Prop} (hx : x.Asks asked fun r => ∃ a, r = .ok a ∧ p a)
    (hf : ∀ a, p a → (f a).Asks asked' q) : (x >>= f).Asks (asked ++ asked') q := by
  intro state past
  obtain ⟨_, state', hx, a, rfl, ha⟩ := hx state past
  obtain ⟨r, state'', hf, hr⟩ := hf a ha state' (past ++ asked)
  exact ⟨r, state'', by rw [outcome_bind, hx, ← List.append_assoc]; exact hf, hr⟩

theorem Asks.bind_last {p : α → Prop} (hx : x.Asks asked fun r => ∃ a, r = .ok a ∧ p a)
    (hf : ∀ a, p a → (f a).Asks [] q) : (x >>= f).Asks asked q := by
  simpa using hx.bind hf

theorem asks_bind_ok {r : Except QueryError α} {a : α} (hr : r = .ok a)
    (hf : (f a).Asks asked q) : (MonadExcept.ofExcept r >>= f).Asks asked q := by
  subst hr
  exact hf

/-- Nothing comes after an error. -/
theorem asks_bind_error {r : Except QueryError α} {e : QueryError} (hr : r = .error e)
    (f : α → Asking σ β) : (MonadExcept.ofExcept r >>= f).Asks [] (· = .error e) := by
  subst hr
  exact fun state past => ⟨_, state, by rw [List.append_nil]; rfl, rfl⟩

end Asking

/-- A session that answers everything, and what it is asked for. -/
def Store.recorded {σ : Type} (session : Store (StateM σ)) : Store (Asking σ) where
  count s := Asking.ask (.count s) (session.count s)
  rows wantsRecords s := Asking.ask (.rows s) (session.rows wantsRecords s)
  load loads visits s := Asking.ask (.related loads) (session.load loads visits s)

/-- Whether the quotients of the counts of a session are floating-point numbers. The counts of a
store are below `2 ^ 63`. -/
def Store.Countable {σ : Type} (session : Store (StateM σ)) : Prop :=
  ∀ s state, ((session.count s).run state).1 < 2 ^ 1023

theorem Store.countable_of_lt {σ : Type} {session : Store (StateM σ)}
    (h : ∀ s state, ((session.count s).run state).1 < 2 ^ 63) : session.Countable := by
  have hpow : ∀ k, 63 ≤ k → 2 ^ 63 ≤ 2 ^ k := fun k => Nat.pow_le_pow_right (by decide)
  exact fun s state => (h s state).trans_le (hpow _ (by decide))

/-! ## What a compiled request asks for -/

theorem PageWindow.exists_paginate? (w : PageWindow) {count : ℕ} (h : count < 2 ^ 1023) :
    ∃ p, w.paginate? count = .ok p := by
  unfold PageWindow.paginate?
  split
  · exact ⟨_, rfl⟩
  · next limit _ =>
    obtain ⟨pages, hpages⟩ := Option.isSome_iff_exists.1 (isSome_pageCount? h limit.toNat)
    rw [hpages]
    split <;> exact ⟨_, rfl⟩

namespace CompiledQuery

variable {σ : Type} {c : CompiledQuery} {session : Store (StateM σ)}

/-- What a compiled request asks for: the count, if there is one, and the rows of the statement that
the refinement returns, with the related records when these are records. -/
def announced (c : CompiledQuery) (refinement : Option StatementRefinement) : List Asked :=
  c.counted.toList.map .count ++
    match StatementRefinement.refined? c.statement refinement with
    | .ok s => .rows s :: if s.selectsRecords then [.related c.loads] else []
    | .error _ => []

theorem asks_paginate (hcounts : session.Countable)
    (hwindow : c.counted.isSome → c.window.isSome) :
    (c.paginate session.recorded).Asks (c.counted.toList.map .count) fun r =>
      ∃ pagination, r = .ok pagination ∧ pagination.isSome = c.counted.isSome := by
  unfold paginate
  cases hcounted : c.counted with
  | none => exact (Asking.asks_pure none).mono fun r h => ⟨none, h, rfl⟩
  | some counted =>
    obtain ⟨window, hw⟩ := Option.isSome_iff_exists.1 (hwindow (by rw [hcounted]; rfl))
    rw [hw]
    refine (Asking.asks_ask (p := (· < 2 ^ 1023)) (.count counted) (hcounts counted)).bind
      fun count hcount => ?_
    obtain ⟨page, hpage⟩ := window.exists_paginate? hcount
    rw [hpage]
    exact (Asking.asks_pure (some page)).mono fun r h => ⟨some page, h, rfl⟩

theorem asks_materialize (naming : Naming) (s : Statement) (rows : List AnswerRow) :
    (c.materialize session.recorded naming s rows).Asks
      (if s.selectsRecords then [.related c.loads] else []) fun r =>
        ∃ a, r = .ok a ∧ True := by
  unfold materialize Statement.selectsRecords
  cases s.selection with
  | rows terms => exact (Asking.asks_pure _).mono fun r h => ⟨_, h, trivial⟩
  | records columns =>
    refine (Asking.asks_ask (p := fun _ => True) (.related c.loads) fun _ => trivial).bind
      fun loaded _ => ?_
    exact (Asking.asks_pure _).mono fun r h => ⟨_, h, trivial⟩

end CompiledQuery

/-! ## Failures that are not about a parameter -/

/-- Whether a computation does not fail because of a parameter of the request. -/
def BlamesNoParameter {α : Type} (x : Except QueryError α) : Prop :=
  ∀ e, x ≠ .error (.parameter e)

namespace BlamesNoParameter

variable {α β γ : Type} {x : Except QueryError α}

theorem ok (a : α) : BlamesNoParameter (.ok a) := fun _ h => nomatch h

theorem bind {f : α → Except QueryError β} (hx : BlamesNoParameter x)
    (hf : ∀ a, BlamesNoParameter (f a)) : BlamesNoParameter (x >>= f) := by
  cases x with
  | ok a => exact hf a
  | error e => exact fun e' h => hx e' (by cases h; rfl)

theorem map {f : α → β} (hx : BlamesNoParameter x) : BlamesNoParameter (x.map f) := by
  cases x with
  | ok a => exact ok (f a)
  | error e => exact fun e' h => hx e' (by cases h; rfl)

theorem mapM {f : α → Except QueryError β} (hf : ∀ a, BlamesNoParameter (f a)) (xs : List α) :
    BlamesNoParameter (xs.mapM f) := by
  induction xs with
  | nil => exact ok []
  | cons x xs ih =>
    rw [List.mapM_cons]
    exact (hf x).bind fun y => ih.bind fun ys => ok (y :: ys)

theorem foldlM {f : β → α → Except QueryError β} (hf : ∀ b a, BlamesNoParameter (f b a))
    (xs : List α) (b : β) : BlamesNoParameter (xs.foldlM f b) := by
  induction xs generalizing b with
  | nil => exact ok b
  | cons x xs ih =>
    rw [List.foldlM_cons]
    exact (hf b x).bind ih

theorem check? (refinement : Option StatementRefinement) :
    BlamesNoParameter (StatementRefinement.check? refinement) := by
  rcases refinement with _ | _ | _ <;> exact fun _ h => nomatch h

end BlamesNoParameter

/-- Whether the change of a refinement does not fail because of a parameter, whatever statement it
is given. -/
def StatementRefinement.BlamesNoParameter : StatementRefinement → Prop
  | changes _ change => ∀ s, ResourceQuery.BlamesNoParameter (change s)
  | other _ => True

/-- Whether a transform does not fail because of a parameter, whatever record it is given. -/
def Transform.BlamesNoParameter (t : Transform) : Prop :=
  ∀ session r, ResourceQuery.BlamesNoParameter (t session r)

namespace BlamesNoParameter

/-- A refinement that blames no parameter makes a statement, or fails for another reason. -/
theorem refined? (s : Statement) {refinement : Option StatementRefinement}
    (h : ∀ t ∈ refinement, t.BlamesNoParameter) :
    BlamesNoParameter (StatementRefinement.refined? s refinement) := by
  cases refinement with
  | none => exact ok s
  | some refinement =>
    cases refinement with
    | other kind => exact fun _ h => nomatch h
    | changes form change =>
      refine bind (h _ rfl s) fun changed => ?_
      cases changed with
      | some s => exact ok s
      | none => cases form <;> exact fun _ h => nomatch h

/-- And so does a transform that blames none. -/
theorem resultAll? (session : Session) {transform : Option Transform}
    (h : ∀ t ∈ transform, t.BlamesNoParameter) (records : List AnswerRecord) :
    BlamesNoParameter (Transform.resultAll? session transform records) := by
  cases transform with
  | none => exact ok records
  | some t => exact mapM (h t rfl session) records

end BlamesNoParameter

/-! ### Refinements that are made of steps -/

namespace BlamesNoParameter

variable (f : ResolvedField) (v : Value)

theorem isNull? : BlamesNoParameter f.isNull? := by
  cases f <;> exact fun _ h => nomatch h

theorem notNull? : BlamesNoParameter f.notNull? := by
  cases f <;> exact fun _ h => nomatch h

theorem equals? : BlamesNoParameter (f.equals? v) := by
  unfold ResolvedField.equals?
  split
  · exact isNull? f
  · cases f with
    | column c => exact ok _
    | relation r es => cases hmany : r.toMany <;> simp [hmany, BlamesNoParameter]
    | ofClass a => exact ok _

theorem differs? : BlamesNoParameter (f.differs? v) := by
  cases f with
  | column c => exact ok _
  | relation r es =>
    unfold ResolvedField.differs?
    cases hmany : r.toMany <;> simp [hmany, BlamesNoParameter]
  | ofClass a => exact ok _

theorem orders? (a : ClassAttribute) (comparison : Comparison) :
    BlamesNoParameter (a.orders? comparison v) := by
  unfold ClassAttribute.orders?
  split
  · exact ok _
  · exact fun _ h => nomatch h

theorem ordered? (comparison : Comparison) : BlamesNoParameter (f.ordered? comparison v) := by
  cases f with
  | column c => cases v <;> exact fun _ h => nomatch h
  | relation r es => exact fun _ h => nomatch h
  | ofClass a => exact (orders? v a comparison).map

theorem compare? (comparison : Comparison) : BlamesNoParameter (f.compare? comparison v) := by
  unfold ResolvedField.compare?
  split
  · unfold ClassAttribute.compare?
    split
    · exact ok _
    · exact ok _
    · exact fun _ h => nomatch h
    · exact (orders? v _ _).map
  · exact equals? f v
  · split
    · exact notNull? f
    · exact differs? f v
  · exact ordered? f v _

theorem argument? : BlamesNoParameter f.argument? := by
  unfold ResolvedField.argument?
  split <;> exact fun _ h => nomatch h

theorem shown? : BlamesNoParameter f.shown? := by
  unfold ResolvedField.shown?
  split <;> exact fun _ h => nomatch h

theorem groupOperands? (r : Reach) : BlamesNoParameter (f.groupOperands? r) := by
  unfold ResolvedField.groupOperands?
  split <;> exact fun _ h => nomatch h

theorem fieldKey? : BlamesNoParameter (SortCompiler.fieldKey? f) := by
  cases f <;> exact fun _ h => nomatch h

variable (schema : Schema) (s : Statement)

theorem field? (name : String) : BlamesNoParameter (StatementStep.field? schema s name) := by
  unfold StatementStep.field?
  cases s.entity.reach.field? schema name <;> exact fun _ h => nomatch h

theorem term? (function : Option AggregateFunction) (name : String) :
    BlamesNoParameter (StatementStep.term? schema s function name) := by
  unfold StatementStep.term?
  split
  · exact (field? schema s name).bind fun f => (shown? f).bind fun _ => ok _
  · split
    · exact ok _
    · exact (field? schema s name).bind fun f => (argument? f).bind fun _ => ok _

theorem change? (step : StatementStep) : BlamesNoParameter (step.change? schema s) := by
  cases step with
  | filter name comparison v =>
    exact (field? schema s name).bind fun f => (compare? f v comparison).bind fun p => ok _
  | limit count => exact ok _
  | select terms =>
    refine bind (mapM (fun t => ?_) terms) fun ts => ok _
    exact (term? schema s t.1 t.2.1).bind fun _ => ok _
  | groupBy names =>
    refine (mapM (field? schema s) names).bind fun fields => ?_
    exact (mapM (fun f => groupOperands? f s.entity.reach) fields).bind fun operands => ok _
  | orderBy names =>
    refine bind (mapM (fun name => ?_) names) fun keys => ok _
    exact (field? schema s name).bind fun f => (fieldKey? f).bind fun key => ok _

end BlamesNoParameter

/-- A change that is made of steps blames no parameter. -/
theorem StatementRefinement.blamesNoParameter_ofSteps (schema : Schema) (form : Refinement.Form)
    (returnsNothing : Bool) (steps : List StatementStep) :
    (ofSteps schema form returnsNothing steps).BlamesNoParameter := fun s =>
  (BlamesNoParameter.foldlM (BlamesNoParameter.change? schema) steps s).bind fun _ => .ok _

/-- A field of the records blames no parameter. -/
theorem Transform.blamesNoParameter_field (name : String) : (field name).BlamesNoParameter := by
  intro session r
  unfold field
  repeat' split
  all_goals exact fun _ h => nomatch h

/-! ## What a request asks for -/

/-- The page of an outcome that has one. -/
def Outcome.pagination : Outcome → Option Pagination
  | .single _ => none
  | .collection c => c.pagination

namespace Query

variable {σ : Type} {q : Query} {session : Store (StateM σ)} {request : Request}
  {transform : Option Transform} {refinement : Option StatementRefinement} {c : CompiledQuery}

/-- When rows are counted: for a collection with a limit. -/
theorem counted_isSome_iff (hc : q.compile? request = .ok c) : ∃ parameters,
    Parameters.parse request.params = .ok parameters ∧
      c.single = q.isSingle request.single request.criteria ∧
      (c.counted.isSome → c.window.isSome) ∧
      (c.counted.isSome ↔ q.isSingle request.single request.criteria = false ∧
        (q.limitOf parameters.page).isSome) := by
  obtain ⟨parameters, r, s, loads, isRestricted, hparse, hread, -, rfl⟩ := compile?_eq_ok.1 hc
  have hpage : r.page = parameters.page := Parameters.page_of_readRequest? hread
  refine ⟨parameters, hparse, rfl, ?_, ?_⟩
  · simp only [compiled]
    cases q.windowOf request r <;> simp
  · rw [← hpage, ← bind_limit_resolve?]
    cases hsingle : q.isSingle request.single request.criteria <;>
      simp [compiled, windowOf, hsingle]

/-- What is no refinement is refused before anything is asked for. -/
theorem asks_unchecked {e : QueryError} (he : StatementRefinement.check? refinement = .error e) :
    (fetchFrom session.recorded q request transform refinement).Asks [] (· = .error e) :=
  Asking.asks_bind_error he _

/-- And so is what does not compile. -/
theorem asks_uncompiled (hcheck : StatementRefinement.check? refinement = .ok ()) {e : QueryError}
    (he : q.compile? request = .error e) :
    (fetchFrom session.recorded q request transform refinement).Asks [] (· = .error e) :=
  Asking.asks_bind_ok hcheck (Asking.asks_bind_error he _)

/-- A compiled request asks for what it announces, whatever becomes of the answers. -/
theorem asks_compiled (hcounts : session.Countable)
    (hrefinement : ∀ t ∈ refinement, t.BlamesNoParameter)
    (htransform : ∀ t ∈ transform, t.BlamesNoParameter)
    (hcheck : StatementRefinement.check? refinement = .ok ()) (hc : q.compile? request = .ok c) :
    (fetchFrom session.recorded q request transform refinement).Asks
      (c.announced refinement) fun r => BlamesNoParameter r ∧
        (∀ e, StatementRefinement.refined? c.statement refinement = .error e →
          r = .error e) ∧
        ∀ a, r = .ok a → a.outcome.pagination.isSome = c.counted.isSome := by
  obtain ⟨parameters, -, hsingle, hwindow, hcounted⟩ := counted_isSome_iff hc
  refine Asking.asks_bind_ok hcheck (Asking.asks_bind_ok hc ?_)
  refine (c.asks_paginate hcounts hwindow).bind fun pagination hpagination => ?_
  cases hrefined : StatementRefinement.refined? c.statement refinement with
  | error e =>
    refine (Asking.asks_bind_error rfl _).mono ?_
    rintro _ rfl
    refine ⟨fun e' h => ?_, fun e' h => by rw [Except.error.inj h], nofun⟩
    cases h
    exact BlamesNoParameter.refined? c.statement hrefinement e' hrefined
  | ok s =>
    refine Asking.asks_bind_ok rfl ?_
    change Asking.Asks _ ([Asked.rows s] ++ if s.selectsRecords then [.related c.loads] else []) _
    refine (Asking.asks_ask (p := fun _ => True) (.rows s) fun _ => trivial).bind fun rows _ => ?_
    refine (c.asks_materialize q.naming s rows).bind_last fun (loaded, records) _ => ?_
    cases hmade : Transform.resultAll? loaded transform records with
    | error e =>
      refine (Asking.asks_bind_error hmade _).mono ?_
      rintro _ rfl
      refine ⟨fun e' h => ?_, nofun, nofun⟩
      cases h
      exact BlamesNoParameter.resultAll? loaded htransform records e' hmade
    | ok made =>
      refine Asking.asks_bind_ok hmade ((Asking.asks_pure _).mono ?_)
      rintro _ rfl
      refine ⟨.ok _, nofun, fun a h => ?_⟩
      cases h
      -- One record has no page, and then nothing was counted.
      cases hone : c.single with
      | false => exact hpagination
      | true =>
        have hnone : c.counted.isSome ≠ true := fun h => by
          rw [← hsingle, hone] at hcounted
          exact absurd (hcounted.1 h).1 (by simp)
        exact (Bool.eq_false_iff.2 hnone).symm

/-- The result of a request to a session in some state, and what the session was asked for. -/
def asked (q : Query) (session : Store (StateM σ)) (state : σ) (request : Request)
    (transform : Option Transform) (refinement : Option StatementRefinement) :
    Except QueryError Answer × List Asked :=
  let x : Asking σ Answer := fetchFrom session.recorded q request transform refinement
  ((x.outcome (state, [])).1, (x.outcome (state, [])).2.2)

theorem asked_of_asks {asked : List Asked} {p : Except QueryError Answer → Prop} (state : σ)
    (h : (fetchFrom session.recorded q request transform refinement).Asks asked p) :
    (q.asked session state request transform refinement).2 = asked ∧
      p (q.asked session state request transform refinement).1 := by
  obtain ⟨r, state', hx, hr⟩ := h state []
  simp only [Query.asked, hx]
  exact ⟨rfl, hr⟩

/-- **What a request asks for.** A request with a refinement that is none, or that does not compile,
fails with what is wrong, and nothing was asked for; every fault of a parameter is found there. A
request that compiles asks for what it announces: first for the count of the rows, for a collection
with a limit, and then, unless the refinement of the statement fails, for its rows. The answer has a
page when the rows were counted. The refinement and what is made of the records are any functions
that do not blame a parameter themselves. -/
theorem asks_announced (hcounts : session.Countable)
    (hrefinement : ∀ t ∈ refinement, t.BlamesNoParameter)
    (htransform : ∀ t ∈ transform, t.BlamesNoParameter) (state : σ) :
    let answer := q.asked session state request transform refinement
    (∀ e, (do StatementRefinement.check? refinement; q.compile? request) = .error e →
      answer = (.error e, [])) ∧
    (∀ e, answer.1 = .error (.parameter e) →
      q.compile? request = .error (.parameter e) ∧ answer.2 = []) ∧
    ∀ c, StatementRefinement.check? refinement = .ok () → q.compile? request = .ok c →
      answer.2 = c.announced refinement ∧
      (∃ parameters, Parameters.parse request.params = .ok parameters ∧
        (c.counted.isSome ↔ q.isSingle request.single request.criteria = false ∧
          (q.limitOf parameters.page).isSome)) ∧
      (∀ e, StatementRefinement.refined? c.statement refinement = .error e →
        answer.1 = .error e) ∧
      ∀ a, answer.1 = .ok a → a.outcome.pagination.isSome = c.counted.isSome := by
  intro answer
  have hrefused : ∀ e, (do StatementRefinement.check? refinement; q.compile? request) = .error e →
      answer.2 = [] ∧ answer.1 = .error e := by
    intro e he
    cases hcheck : StatementRefinement.check? refinement with
    | error e' =>
      rw [hcheck] at he
      cases he
      exact asked_of_asks state (asks_unchecked hcheck)
    | ok _ =>
      rw [hcheck] at he
      exact asked_of_asks state (asks_uncompiled hcheck he)
  have hcompiled : ∀ c, StatementRefinement.check? refinement = .ok () →
      q.compile? request = .ok c → answer.2 = c.announced refinement ∧
        BlamesNoParameter answer.1 ∧
        (∀ e, StatementRefinement.refined? c.statement refinement = .error e →
          answer.1 = .error e) ∧
        ∀ a, answer.1 = .ok a → a.outcome.pagination.isSome = c.counted.isSome :=
    fun c hcheck hc => asked_of_asks state (asks_compiled hcounts hrefinement htransform hcheck hc)
  clear_value answer
  refine ⟨fun e he => ?_, fun e he => ?_, fun c hcheck hc => ?_⟩
  · obtain ⟨hasked, hresult⟩ := hrefused e he
    exact Prod.ext hresult hasked
  · cases hcheck : StatementRefinement.check? refinement with
    | error e' =>
      obtain ⟨-, hresult⟩ := hrefused e' (by rw [hcheck]; rfl)
      obtain rfl := Except.error.inj (hresult.symm.trans he)
      exact absurd hcheck (BlamesNoParameter.check? refinement e)
    | ok _ =>
      cases hc : q.compile? request with
      | error e' =>
        obtain ⟨hasked, hresult⟩ := hrefused e' (by rw [hcheck, hc]; rfl)
        rw [hresult] at he
        cases he
        exact ⟨rfl, hasked⟩
      | ok c => exact absurd he ((hcompiled c hcheck hc).2.1 e)
  · obtain ⟨hasked, -, hrefined, hpage⟩ := hcompiled c hcheck hc
    obtain ⟨parameters, hparse, -, -, hcounted⟩ := counted_isSome_iff hc
    exact ⟨hasked, ⟨parameters, hparse, hcounted⟩, hrefined, hpage⟩

end Query

namespace Sample

/-- A session that counts three rows and has one post. -/
def onePost : Store (StateM Unit) where
  count _ := pure 3
  rows _ _ := pure [.record (some ⟨[("id", n 1), ("post_title", t "Light")]⟩)]
  load _ _ session := pure session

/-- A refinement that leaves one row, whatever the limit was. -/
def firstOnly : StatementRefinement :=
  .ofSteps schema (.function "function") false [.limit 1]

/-- The titles of posts instead of the posts. The limit of the refinement takes the place of the one
of the page, and the count is that of the statement before. -/
theorem asked_postsTagged : onePost.Countable ∧ firstOnly.BlamesNoParameter ∧
    (Transform.field "post_title").BlamesNoParameter ∧
    ∃ c counted, posts.compile? (postsTagged "true" "hot" 2 2) = .ok c ∧ c.counted = some counted ∧
      (posts.asked onePost () (postsTagged "true" "hot" 2 2) (some (.field "post_title"))
        (some firstOnly)).2 =
          [.count counted, .rows { c.statement with limit := some 1 }, .related c.loads] := by
  have hcounts : onePost.Countable := Store.countable_of_lt fun _ _ => (by decide : 3 < 2 ^ 63)
  have hrefinement : firstOnly.BlamesNoParameter :=
    StatementRefinement.blamesNoParameter_ofSteps schema (.function "function") false [.limit 1]
  have htransform := Transform.blamesNoParameter_field "post_title"
  obtain ⟨c, hc⟩ : ∃ c, posts.compile? (postsTagged "true" "hot" 2 2) = .ok c := ⟨_, rfl⟩
  have hannounced := @Query.asks_announced Unit posts onePost (postsTagged "true" "hot" 2 2)
    (some (.field "post_title")) (some firstOnly) hcounts (by rintro _ ⟨⟩; exact hrefinement)
    (by rintro _ ⟨⟩; exact htransform) ()
  obtain ⟨hasked, -⟩ := hannounced.2.2 c rfl hc
  cases hc
  exact ⟨hcounts, hrefinement, htransform, _, _, rfl, rfl, hasked⟩

end Sample

end ResourceQuery
