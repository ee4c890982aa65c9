import ResourceQuery.Configuration
import ResourceQuery.Proofs.Parameters.Normal
import ResourceQuery.Proofs.Query.Unpaged

/-!
# The window of a request

A bound of a page may come in several forms, or not at all, and a default page may stand behind it.
What the window of a collection is then, and what its statement keeps of it.

* `Value.Gives`: what a request gives for a bound of its page;
* `Parameters.gives_of_parse`: so much is read of it;
* `Configuration.bounds_of_ofValue?`: the bounds of a default page;
* `PageWindow.Resolves`, `PageWindow.resolves_resolve?`: the window is made of both, bound by bound;
* `Statement.KeepsTo`, `Statement.Limited`: a statement in a window, and one with a limit;
* `Query.window_of_parsed`: the window of a collection, and its statement.
-/

namespace ResourceQuery

open Input

/-! ## What a request gives -/

namespace Value

/-- Whether a request gives a bound of its page: no value, or one that stands for an integer that is
not negative. -/
structure Gives (params : Value) (key : String) (bound : Option ℤ) : Prop where
  denotes : Option.Rel Denotes ((params.given? "page").bind (given? key)) bound
  nonneg : ∀ i ∈ bound, 0 ≤ i

end Value

namespace Parameters

variable {params : Value} {p : Parameters}

/-- The bounds of the page of a request are those that it gives. -/
theorem gives_of_parse (h : parse params = .ok p) :
    params.Gives "limit" (p.page.bind (·.limit)) ∧
      params.Gives "offset" (p.page.bind (·.offset)) := by
  have hpage := (parse_eq_ok.1 h).page
  generalize hgiven : params.given? "page" = given at hpage
  generalize p.page = page at hpage
  cases hpage with
  | missing => exact ⟨⟨hgiven ▸ .none, nofun⟩, ⟨hgiven ▸ .none, nofun⟩⟩
  | given hwritten =>
    obtain ⟨request, rfl, hwritten⟩ := hwritten
    exact ⟨⟨hgiven ▸ hwritten.limit, hwritten.limit_nonneg⟩,
      ⟨hgiven ▸ hwritten.offset, hwritten.offset_nonneg⟩⟩

end Parameters

/-! ## The default page -/

namespace Configuration

theorem le_of_readBound {least : ℕ} {fallback : Option ℤ} {key : String}
    {entries : List (Value × Value)} {i : ℤ} (h : readBound least fallback key entries = .ok i)
    (hfallback : ∀ j ∈ fallback, least ≤ j) : least ≤ i := by
  unfold readBound at h
  split at h
  · exact (readAtLeast_eq_ok.1 (at_eq_ok.1 h)).2
  · cases h
    exact hfallback i rfl
  · cases h

theorem both_eq_ok {α β : Type} {a : Collected α} {b : Collected β} {x : α × β}
    (h : both a b = .ok x) : a = .ok x.1 ∧ b = .ok x.2 := by
  unfold both at h
  split at h
  all_goals cases h
  exact ⟨rfl, rfl⟩

/-- A default page has at least one record and skips no negative number. -/
theorem bounds_of_ofValue? {v : Value} {c : Configuration} (h : ofValue? v = .ok c) :
    ∀ d ∈ c.pagination, 1 ≤ d.limit ∧ 0 ≤ d.offset := by
  obtain ⟨entries, -, h⟩ := bind_eq_ok.1 h
  unfold read at h
  split at h
  · next pagination hread =>
    cases h
    intro d hd
    unfold readPagination at hread
    split at hread
    · cases hread
      cases hd
    · obtain ⟨⟨limit, offset⟩, hboth, rfl⟩ := map_eq_ok.1 hread
      cases hd
      obtain ⟨hlimit, hoffset⟩ := both_eq_ok hboth
      exact ⟨le_of_readBound (mapError_eq_ok.1 hlimit) nofun,
        le_of_readBound (mapError_eq_ok.1 hoffset) (by simp)⟩
    · cases hread
  · cases h

end Configuration

/-! ## The window -/

namespace PageWindow

/-- Whether a window is made of the bounds that a request gives and of the default page. Each bound
is the given one, or else the default one, or else no limit and the first record. Neither is
negative, and there is no window only when there is nothing to make it of. -/
structure Resolves (default? : Option PageDefault) (limit offset : Option ℤ)
    (window : Option PageWindow) : Prop where
  limit_eq : window.bind (·.limit) = limit.or (default?.map (·.limit))
  offset_eq : ∀ w ∈ window, w.offset = (offset.or (default?.map (·.offset))).getD 0
  absent_iff : window = none ↔ limit = none ∧ offset = none ∧ default? = none
  limit_nonneg : ∀ w ∈ window, ∀ i ∈ w.limit, 0 ≤ i
  offset_nonneg : ∀ w ∈ window, 0 ≤ w.offset

section Resolved

variable {default? : Option PageDefault} {page : Option PageRequest}

theorem resolve?_eq_none_iff : resolve? default? page = none ↔
    page.bind (·.limit) = none ∧ page.bind (·.offset) = none ∧ default? = none := by
  unfold resolve?
  cases page.bind (·.limit) <;> cases page.bind (·.offset) <;> cases default? <;> simp

theorem eq_of_resolve? {w : PageWindow} (h : resolve? default? page = some w) :
    w = ⟨(page.bind (·.limit)).or (default?.map (·.limit)),
      ((page.bind (·.offset)).or (default?.map (·.offset))).getD 0⟩ := by
  unfold resolve? at h
  dsimp only at h
  split at h
  · cases h
  · exact (Option.some.inj h).symm

theorem nonneg_or {a b : Option ℤ} (ha : ∀ i ∈ a, 0 ≤ i) (hb : ∀ i ∈ b, 0 ≤ i) :
    ∀ i ∈ a.or b, 0 ≤ i := by
  cases a with
  | none => exact hb
  | some i => exact ha

theorem resolves_resolve? (hlimit : ∀ i ∈ page.bind (·.limit), 0 ≤ i)
    (hoffset : ∀ i ∈ page.bind (·.offset), 0 ≤ i)
    (hdefault : ∀ d ∈ default?, 1 ≤ d.limit ∧ 0 ≤ d.offset) :
    Resolves default? (page.bind (·.limit)) (page.bind (·.offset)) (resolve? default? page) where
  limit_eq := by
    cases hw : resolve? default? page with
    | none =>
      obtain ⟨hnone, -, rfl⟩ := resolve?_eq_none_iff.1 hw
      rw [hnone]
      rfl
    | some w =>
      rw [eq_of_resolve? hw]
      rfl
  offset_eq w hw := by rw [eq_of_resolve? hw]
  absent_iff := resolve?_eq_none_iff
  limit_nonneg w hw := by
    rw [eq_of_resolve? hw]
    refine nonneg_or hlimit fun i hi => ?_
    obtain ⟨d, hd, rfl⟩ := Option.map_eq_some_iff.1 hi
    have := (hdefault d hd).1
    omega
  offset_nonneg w hw := by
    rw [eq_of_resolve? hw]
    have hbound := nonneg_or hoffset (b := default?.map (·.offset)) fun i hi => by
      obtain ⟨d, hd, rfl⟩ := Option.map_eq_some_iff.1 hi
      exact (hdefault d hd).2
    cases ho : (page.bind (·.offset)).or (default?.map (·.offset)) with
    | none => exact le_rfl
    | some o => exact hbound o ho

end Resolved

end PageWindow

/-! ## The statement -/

namespace Statement

variable {s : Statement} {window : Option PageWindow} {count : ℤ}

/-- Whether a statement has the limit and the offset of a window. An offset of zero may be left
out. -/
structure KeepsTo (s : Statement) (window : Option PageWindow) : Prop where
  limit : s.limit = window.bind (·.limit)
  offset : s.offset.getD 0 = (window.map (·.offset)).getD 0

/-- Whether a statement has a limit, in its text and in its rows. -/
structure Limited (s : Statement) (count : ℤ) : Prop where
  nonneg : 0 ≤ count
  limit : s.limit = some count
  pieces : [.word "\n LIMIT ", .value "param" (.int count)] <:+: s.pieces
  rows : ∀ db, (s.rows db).length ≤ count

theorem keepsTo_paged (hlimit : s.limit = none) (hoffset : s.offset = none) :
    (Query.paged s window).KeepsTo window := by
  cases window with
  | none => exact ⟨hlimit, by rw [Query.paged, hoffset]; rfl⟩
  | some w =>
    refine ⟨rfl, ?_⟩
    rw [Query.paged]
    split
    · next hzero => exact hzero.symm
    · rfl

theorem exists_windowPieces (count : ℤ) (offset : Option ℤ) :
    ∃ rest, windowPieces (some count) offset =
      [.word "\n LIMIT ", .value "param" (.int count)] ++ rest := by
  unfold windowPieces
  cases offset.filter (· ≠ 0) with
  | none => exact ⟨[], rfl⟩
  | some o => exact ⟨_, rfl⟩

theorem length_window_le {α : Type} (hcount : 0 ≤ count) (offset : Option ℤ) (xs : List α) :
    (Statement.window (some count) offset xs).length ≤ count := by
  have htake := List.length_take_le count.toNat (xs.drop ((offset.map Int.toNat).getD 0))
  simp only [Statement.window, if_neg (not_lt.2 hcount)]
  omega

theorem limited_of_limit (h : s.limit = some count) (hcount : 0 ≤ count) : s.Limited count where
  nonneg := hcount
  limit := h
  pieces := by
    obtain ⟨rest, hrest⟩ := exists_windowPieces count s.offset
    rw [pieces, h, hrest, ← List.append_assoc]
    exact List.infix_append ..
  rows db := by
    rw [rows, List.length_map, h]
    exact length_window_le hcount ..

end Statement

namespace Query

variable {q : Query} {request : Request} {p : Parameters} {k : CompiledQuery}

/-- The window of a collection is that of its parameters, and its statement has it. -/
theorem window_of_compile? (hparse : Parameters.parse request.params = .ok p)
    (hk : q.compile? request = .ok k) (hsingle : k.single = false) :
    k.window = PageWindow.resolve? q.pagination p.page ∧ k.statement.KeepsTo k.window := by
  obtain ⟨_, r, s, loads, isRestricted, hparse', hread, hstatement, rfl⟩ := compile?_eq_ok.1 hk
  obtain rfl := Except.ok.inj (hparse.symm.trans hparse')
  have hsingle : q.isSingle request.single request.criteria = false := hsingle
  obtain ⟨hlimit, hoffset⟩ := unpaged_statement? hstatement
  constructor
  · simp only [compiled, windowOf, hsingle, Parameters.page_of_readRequest? hread,
      Bool.false_eq_true, if_false]
  · simp only [compiled, hsingle, Bool.false_eq_true, if_false]
    exact Statement.keepsTo_paged hlimit hoffset

/-- **The window of a collection.** Whatever form the bounds of a page come in, the window has them,
and those of the default page where they are missing or null; it is never negative. With a default
page the statement of every collection has a limit. -/
theorem window_of_parsed {configuration : Value} {c : Configuration}
    (hconfiguration : Configuration.ofValue? configuration = .ok c)
    (hdefault : q.pagination = c.pagination) (hparse : Parameters.parse request.params = .ok p) :
    ∃ limit offset, request.params.Gives "limit" limit ∧ request.params.Gives "offset" offset ∧
      PageWindow.Resolves q.pagination limit offset (PageWindow.resolve? q.pagination p.page) ∧
      ∀ k, q.compile? request = .ok k → k.single = false →
        k.window = PageWindow.resolve? q.pagination p.page ∧ k.statement.KeepsTo k.window ∧
        (q.pagination.isSome → ∃ i, k.statement.Limited i) := by
  obtain ⟨hlimit, hoffset⟩ := Parameters.gives_of_parse hparse
  have hresolves := PageWindow.resolves_resolve? hlimit.nonneg hoffset.nonneg
    (hdefault ▸ Configuration.bounds_of_ofValue? hconfiguration)
  refine ⟨_, _, hlimit, hoffset, hresolves, fun k hk hsingle => ?_⟩
  obtain ⟨hwindow, hkeeps⟩ := window_of_compile? hparse hk hsingle
  refine ⟨hwindow, hkeeps, fun hsome => ?_⟩
  obtain ⟨d, hd⟩ := Option.isSome_iff_exists.1 hsome
  obtain ⟨w, hw⟩ : ∃ w, PageWindow.resolve? q.pagination p.page = some w := by
    refine Option.ne_none_iff_exists'.1 fun hnone => ?_
    rw [(hresolves.absent_iff.1 hnone).2.2] at hd
    cases hd
  have hlimit' : w.limit = (p.page.bind (·.limit)).or (some d.limit) := by
    have := hresolves.limit_eq
    rwa [hw, hd] at this
  obtain ⟨i, hi⟩ : ∃ i, w.limit = some i := by
    rw [hlimit']
    cases p.page.bind (·.limit) <;> exact ⟨_, rfl⟩
  refine ⟨i, Statement.limited_of_limit ?_ (hresolves.limit_nonneg w hw i hi)⟩
  rw [hkeeps.limit, hwindow, hw, Option.bind_some, hi]

end Query

namespace Sample

/-- A default page of five records from the third one, in other forms than integers. -/
def fiveFromThird : Value :=
  .ofFields [("pagination",
    .ofFields [("limit", .text " 5.0"), ("offset", .float (.finite false 1 1))])]

/-- A query for pets with this default page. -/
def pagedPets : Query :=
  { schema := schema, entity := pet, naming := .identity, pagination := some ⟨5, 2⟩ }

/-- A request for no records at all, which says nothing about their offset. -/
def noPets : Request where
  params := .ofFields [("page", .ofFields [("limit", .text "0"), ("offset", .null)])]

/-- A limit of zero is not a missing one, and a null offset is. -/
theorem window_noPets : ∃ k, pagedPets.compile? noPets = .ok k ∧ k.window = some ⟨some 0, 2⟩ ∧
    k.statement.Limited 0 := by
  obtain ⟨-, -, -, -, -, hcompiled⟩ := @Query.window_of_parsed pagedPets noPets _ fiveFromThird
    ⟨some ⟨5, 2⟩⟩ rfl rfl rfl
  obtain ⟨k, hk⟩ : ∃ k, pagedPets.compile? noPets = .ok k := ⟨_, rfl⟩
  have hsingle : k.single = false := by
    cases hk
    rfl
  obtain ⟨hwindow, hkeeps, hlimited⟩ := hcompiled k hk hsingle
  obtain ⟨i, hi⟩ := hlimited rfl
  have hzero : some i = some 0 := hi.limit.symm.trans (hkeeps.limit.trans (hwindow ▸ rfl))
  cases hzero
  exact ⟨k, hk, hwindow, hi⟩

end Sample

end ResourceQuery
