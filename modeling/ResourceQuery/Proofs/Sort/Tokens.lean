import Mathlib.Order.Bounds.Basic
import ResourceQuery.Proofs.Parameters.CommaText

/-!
# Sort keys as texts

A sort key is written as the path it sorts by, with a dash before it when it is descending. No text
is lost when it is read: what was read is written as it was.

* `SortKey.IsToken`: the texts that are sort keys;
* `readPaths_eq_ok`, `readPaths_eq_error`: paths read one after the other, up to the first piece
  that holds none;
* `SortKey.token_read`, `FieldPath.read?_dotted`: a key that was read is written as it was, and a
  path that is written is read as it was;
* `SortKeys.tokens_read_back`: lists of sort keys.
-/

namespace ResourceQuery

open Text

/-! ## Paths -/

section Pieces

variable {α : Type} {path : String → String} {make : String → List String → α}
  {place : ℕ → String} {index : ℕ} {pieces : List String}

/-- Pieces are read when all of them hold paths. -/
theorem readPaths_eq_ok {out : List α} :
    readPaths path make place index pieces = .ok out ↔
      (∀ piece ∈ pieces, IsPath (path piece)) ∧
        out = pieces.map fun piece => make piece (splitAt '.' (path piece)) := by
  induction pieces generalizing index out with
  | nil => simp [readPaths, eq_comm]
  | cons piece rest ih =>
    simp only [readPaths, bind_eq_ok, segments?_eq_ok, ih, List.forall_mem_cons]
    constructor
    · rintro ⟨_, ⟨hpiece, rfl⟩, _, ⟨hrest, rfl⟩, h⟩
      exact ⟨⟨hpiece, hrest⟩, (Except.ok.inj h).symm⟩
    · rintro ⟨⟨hpiece, hrest⟩, rfl⟩
      exact ⟨_, ⟨hpiece, rfl⟩, _, ⟨hrest, rfl⟩, rfl⟩

/-- Pieces are not read when one of them holds no path, and the fault is that of the first such
piece, at its place. -/
theorem readPaths_eq_error {e : ParameterError} :
    readPaths path make place index pieces = .error e ↔
      ∃ before piece after, pieces = before ++ piece :: after ∧
        (∀ earlier ∈ before, IsPath (path earlier)) ∧
        segments? (path piece) (some (place (index + before.length))) = .error e := by
  induction pieces generalizing index with
  | nil => simp [readPaths]
  | cons piece rest ih =>
    simp only [readPaths, bind_eq_error, ih]
    constructor
    · rintro (h | ⟨segments, hpiece, ⟨before, next, after, rfl, hbefore, h⟩ | ⟨_, -, h⟩⟩)
      · exact ⟨[], piece, rest, rfl, by simp, h⟩
      · refine ⟨piece :: before, next, after, rfl, ?_, ?_⟩
        · exact List.forall_mem_cons.2 ⟨(segments?_eq_ok.1 hpiece).1, hbefore⟩
        · rwa [List.length_cons, Nat.add_comm before.length, ← Nat.add_assoc]
      · cases h
    · rintro ⟨before, next, after, hpieces, hbefore, h⟩
      cases before with
      | nil =>
        obtain ⟨rfl, rfl⟩ := List.cons.inj hpieces
        exact .inl h
      | cons first before =>
        obtain ⟨rfl, rfl⟩ := List.cons.inj hpieces
        rw [List.forall_mem_cons] at hbefore
        refine .inr ⟨_, segments?_eq_ok.2 ⟨hbefore.1, rfl⟩, .inl ⟨before, next, after, rfl,
          hbefore.2, ?_⟩⟩
        rwa [List.length_cons, Nat.add_comm before.length, ← Nat.add_assoc] at h

end Pieces

namespace FieldPath

theorem ofSegments_append (relations : List String) (field : String) :
    ofSegments (relations ++ [field]) = ⟨relations, field⟩ := by
  have hne : relations ++ [field] ≠ [] := by simp
  have hsegments := segments_ofSegments hne
  obtain ⟨hrelations, hfield⟩ := List.append_inj' hsegments rfl
  exact congrArg₂ FieldPath.mk hrelations (List.singleton_inj.1 hfield)

/-- A path whose segments are not empty and have no dots is read as it is written. -/
theorem read?_dotted {p : FieldPath} {source : Option String}
    (h : ∀ segment ∈ p.relations ++ [p.field], segment ≠ "" ∧ IsPlain segment) :
    read? p.dotted source = .ok p := by
  have hsplit : splitAt '.' p.dotted = p.relations ++ [p.field] :=
    splitAt_joinWith (by simp) fun segment hsegment => (h segment hsegment).2
  have hempty : "" ∉ p.relations ++ [p.field] := fun hmem => (h "" hmem).1 rfl
  have hpath : IsPath p.dotted := by
    refine ⟨fun hdotted => hempty ?_, hsplit ▸ hempty⟩
    rw [← hsplit, hdotted]
    exact List.mem_singleton_self _
  rw [read?, segments?_eq_ok.2 ⟨hpath, rfl⟩, hsplit]
  exact congrArg Except.ok (ofSegments_append _ _)

end FieldPath

/-! ## Sort keys -/

namespace SortKey

/-- Whether a text is a sort key: a path, or a dash with a path behind it. -/
inductive IsToken : String → Prop
  | ascending {path : String} (hdash : path.toList.head? ≠ some '-') (h : IsPath path) :
    IsToken path
  | descending {path : String} (h : IsPath path) : IsToken ("-" ++ path)

theorem takeDash_dash (path : String) : takeDash ("-" ++ path) = (true, path) := by
  have hchars : ("-" ++ path).toList = '-' :: path.toList := by simp
  rw [takeDash, hchars]
  exact congrArg _ (String.ofList_toList)

theorem takeDash_of_ne {path : String} (hdash : path.toList.head? ≠ some '-') :
    takeDash path = (false, path) := by
  unfold takeDash
  split
  · next rest hrest => simp [hrest] at hdash
  · rfl

theorem exists_dash {text : String} (h : text.toList.head? = some '-') :
    ∃ path, text = "-" ++ path := by
  obtain ⟨rest, hrest⟩ := List.head?_eq_some_iff.1 h
  refine ⟨String.ofList rest, ?_⟩
  rw [← String.toList_inj, hrest]
  simp

/-- A text is a sort key when it is a path after the dash that is taken off its front. -/
theorem isToken_iff {text : String} : IsToken text ↔ IsPath (SortKeys.pathOf text) := by
  constructor
  · rintro (⟨hdash, h⟩ | ⟨h⟩)
    · rwa [SortKeys.pathOf, takeDash_of_ne hdash]
    · rwa [SortKeys.pathOf, takeDash_dash]
  · intro h
    by_cases hdash : text.toList.head? = some '-'
    · obtain ⟨path, rfl⟩ := exists_dash hdash
      rw [SortKeys.pathOf, takeDash_dash] at h
      exact .descending h
    · rw [SortKeys.pathOf, takeDash_of_ne hdash] at h
      exact .ascending hdash h

/-- The key that a text stands for is written as the text. -/
theorem token_takeDash (text : String) :
    token ⟨.ofSegments (splitAt '.' (SortKeys.pathOf text)), (takeDash text).1⟩ = text := by
  rw [token, FieldPath.dotted_ofSegments]
  by_cases hdash : text.toList.head? = some '-'
  · obtain ⟨path, rfl⟩ := exists_dash hdash
    rw [SortKeys.pathOf, takeDash_dash, if_pos rfl]
  · rw [SortKeys.pathOf, takeDash_of_ne hdash, if_neg Bool.false_ne_true, String.empty_append]

/-- A key that was read is written as it was. -/
theorem token_of_read? {source text : String} {key : SortKey} (h : read? source text = .ok key) :
    key.token = text := by
  obtain ⟨path, hpath, rfl⟩ := map_eq_ok.1 h
  obtain ⟨parts, hparts, rfl⟩ := map_eq_ok.1 hpath
  obtain ⟨-, rfl⟩ := segments?_eq_ok.1 hparts
  exact token_takeDash text

end SortKey

namespace SortKeys

variable {tokens : List String}

/-- A list of sort keys is read as the paths after their dashes. -/
theorem read?_tokens (tokens : List String) :
    read? (.list (tokens.map .text)) =
      readPaths pathOf (fun piece segments => ⟨.ofSegments segments, (SortKey.takeDash piece).1⟩)
        itemPath 0 tokens := by
  rw [← readItems?_texts]
  exact read?_textsValue tokens

theorem read?_eq_ok {keys : List SortKey} (h : read? (.list (tokens.map .text)) = .ok keys) :
    keys.map SortKey.token = tokens := by
  rw [read?_tokens, readPaths_eq_ok] at h
  obtain ⟨-, rfl⟩ := h
  rw [List.map_map]
  exact (List.map_congr_left fun text _ => SortKey.token_takeDash text).trans (List.map_id tokens)

theorem exists_read?_tokens :
    (∃ keys, read? (.list (tokens.map .text)) = .ok keys) ↔
      ∀ token ∈ tokens, SortKey.IsToken token := by
  simp only [read?_tokens, readPaths_eq_ok, SortKey.isToken_iff, exists_and_left, exists_eq,
    and_true]

/-- The place of a fault is that of the first text that is no sort key. -/
theorem isLeast_of_read?_eq_error {e : ParameterError}
    (h : read? (.list (tokens.map .text)) = .error e) :
    ∃ i, IsLeast {i : ℕ | ∃ token, tokens[i]? = some token ∧ ¬SortKey.IsToken token} i ∧
      e.path = some ("sort." ++ toString i) := by
  rw [read?_tokens, readPaths_eq_error] at h
  obtain ⟨before, token, after, rfl, hbefore, h⟩ := h
  have htoken : ¬SortKey.IsToken token := fun htoken => by
    cases h.symm.trans (segments?_eq_ok.2 ⟨SortKey.isToken_iff.1 htoken, rfl⟩)
  refine ⟨before.length, ⟨⟨token, by simp, htoken⟩, ?_⟩, ?_⟩
  · rintro i ⟨earlier, hearlier, hfault⟩
    by_contra! hlt
    rw [List.getElem?_append_left hlt] at hearlier
    exact hfault (SortKey.isToken_iff.2 (hbefore _ (List.mem_of_getElem? hearlier)))
  · rw [Nat.zero_add] at h
    obtain ⟨-, rfl⟩ | ⟨-, -, rfl⟩ := segments?_eq_error.1 h <;> rfl

/-- **Sort keys are read without loss.** A list of texts is accepted exactly when all of them are
sort keys, and then the keys, written with a dash before the paths of the descending ones, are the
texts. Otherwise the error is at the index of the first text that is none. A path whose segments are
not empty and have no dots is read as it is written, and no two texts are read as one key. -/
theorem tokens_read_back :
    (∀ tokens : List String,
      (∀ keys, read? (.list (tokens.map .text)) = .ok keys → keys.map SortKey.token = tokens) ∧
      ((∃ keys, read? (.list (tokens.map .text)) = .ok keys) ↔
        ∀ token ∈ tokens, SortKey.IsToken token) ∧
      ∀ e, read? (.list (tokens.map .text)) = .error e →
        ∃ i, IsLeast {i : ℕ | ∃ token, tokens[i]? = some token ∧ ¬SortKey.IsToken token} i ∧
          e.path = some ("sort." ++ toString i)) ∧
    (∀ (p : FieldPath) (source : Option String),
      (∀ segment ∈ p.relations ++ [p.field], segment ≠ "" ∧ IsPlain segment) →
        FieldPath.read? p.dotted source = .ok p) ∧
    ∀ (source source' text text' : String) (key : SortKey),
      SortKey.read? source text = .ok key → SortKey.read? source' text' = .ok key →
        text = text' := by
  refine ⟨fun tokens => ⟨fun keys => read?_eq_ok, exists_read?_tokens, fun e => ?_⟩,
    fun p source => FieldPath.read?_dotted, fun source source' text text' key h h' => ?_⟩
  · exact isLeast_of_read?_eq_error
  · rw [← SortKey.token_of_read? h, SortKey.token_of_read? h']

end SortKeys

namespace Sample

/-- Only the first dash of a text is a sign, a dash alone is no sort key, and a dash in a path is a
part of it. -/
theorem tokens_oddKeys :
    (∃ keys, SortKeys.read? (.list [.text "--pets.toy.type", .text "name"]) = .ok keys ∧
      keys.map SortKey.token = ["--pets.toy.type", "name"]) ∧
    IsLeast {i : ℕ | ∃ token, ["name", "-", "pets..name"][i]? = some token ∧
      ¬SortKey.IsToken token} 1 ∧
    FieldPath.read? (FieldPath.mk ["pets", "-toy"] "type").dotted none =
      .ok ⟨["pets", "-toy"], "type"⟩ := by
  obtain ⟨hlists, hpaths, -⟩ := SortKeys.tokens_read_back
  refine ⟨⟨_, rfl, (hlists ["--pets.toy.type", "name"]).1 _ rfl⟩, ?_, hpaths _ _ (by decide)⟩
  obtain ⟨i, hi, hplace⟩ := (hlists ["name", "-", "pets..name"]).2.2 _ rfl
  have hindex : i = 1 := SortKeys.injective_itemPath (Option.some.inj hplace).symm
  rwa [hindex] at hi

end Sample

end ResourceQuery
