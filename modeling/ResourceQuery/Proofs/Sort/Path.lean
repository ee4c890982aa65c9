import ResourceQuery.Sort
import ResourceQuery.Proofs.Outcome

/-!
# Paths as text

A path is its segments with dots between them, and no segment of a path that was read holds a dot.
So paths that look alike are alike.

* `Text.splitAt_joinWith`: texts with a separator between them give the texts back;
* `IsPlain`: a segment without a dot;
* `IsPath`, `FieldPath.readValue?_eq_ok`, `FieldPath.readValue?_eq_error`: the texts that are paths,
  and what is wrong with the others;
* `FieldPath.dotted_ofSegments`: a path that was read is written as it was;
* `SortKeys.plain_of_read?`: the relations of sort keys that were read.
-/

namespace ResourceQuery

namespace Text

theorem sep_not_mem_of_mem_pieces {sep : Char} {text piece : List Char}
    (h : piece ∈ pieces sep text) : sep ∉ piece := by
  induction text generalizing piece with
  | nil =>
    rw [List.mem_singleton.1 h]
    exact List.not_mem_nil
  | cons c rest ih =>
    rw [pieces] at h
    split at h
    · rcases List.mem_cons.1 h with rfl | h
      · exact List.not_mem_nil
      · exact ih h
    · next hc =>
      split at h
      · rw [List.mem_singleton.1 h]
        simpa using Ne.symm hc
      · next first others hrest =>
        rw [hrest] at ih
        rcases List.mem_cons.1 h with rfl | h
        · simpa using ⟨Ne.symm hc, ih (List.mem_cons_self ..)⟩
        · exact ih (List.mem_cons_of_mem _ h)

theorem splitAt_joinWith {sep : Char} {parts : List String} (hne : parts ≠ [])
    (hfree : ∀ s ∈ parts, sep ∉ s.toList) : splitAt sep (joinWith sep parts) = parts := by
  rw [splitAt, joinWith, String.toList_ofList,
    pieces_joined sep _ (by simpa using hne) (by simpa using hfree)]
  simp [Function.comp_def]

theorem joinWith_inj {sep : Char} {a b : List String} (ha : a ≠ []) (hb : b ≠ [])
    (hfree : ∀ s ∈ a, sep ∉ s.toList) (hfree' : ∀ s ∈ b, sep ∉ s.toList)
    (h : joinWith sep a = joinWith sep b) : a = b := by
  rw [← splitAt_joinWith ha hfree, h, splitAt_joinWith hb hfree']

theorem joinWith_splitAt (sep : Char) (text : String) :
    joinWith sep (splitAt sep text) = text := by
  have hmap : ((pieces sep text.toList).map String.ofList).map String.toList =
      pieces sep text.toList := by
    simp [Function.comp_def]
  rw [joinWith, splitAt, hmap, joined_pieces, String.ofList_toList]

theorem splitAt_injective (sep : Char) : Function.Injective (splitAt sep) :=
  Function.LeftInverse.injective (joinWith_splitAt sep)

theorem splitAt_ne_nil (sep : Char) (text : String) : splitAt sep text ≠ [] := by
  simpa [splitAt] using pieces_ne_nil sep text.toList

end Text

/-- Whether a segment of a path has no dot. -/
def IsPlain (segment : String) : Prop := '.' ∉ segment.toList

instance : DecidablePred IsPlain := fun _ => inferInstanceAs (Decidable (_ ∉ _))

/-- Whether a text is a path: it is not empty, and neither is a segment of it. -/
@[mk_iff] structure IsPath (key : String) : Prop where
  ne_empty : key ≠ ""
  segments : "" ∉ Text.splitAt '.' key

instance : DecidablePred IsPath := fun key => decidable_of_iff _ (isPath_iff key).symm

theorem plain_of_splitAt {key segment : String} (h : segment ∈ Text.splitAt '.' key) :
    IsPlain segment := by
  obtain ⟨piece, hpiece, rfl⟩ := List.mem_map.1 h
  rw [IsPlain, String.toList_ofList]
  exact Text.sep_not_mem_of_mem_pieces hpiece

theorem segments?_eq_ok {key : String} {source : Option String} {parts : List String} :
    segments? key source = .ok parts ↔ IsPath key ∧ parts = Text.splitAt '.' key := by
  unfold segments?
  split
  · next hkey => simp [isPath_iff, hkey, failAt]
  · next hkey =>
    simp only
    split
    · next hempty => simp [isPath_iff, hempty, failAt]
    · next hsegments => simp [isPath_iff, hkey, hsegments, eq_comm]

/-- A text that is no path is empty, or a segment of it is. -/
theorem segments?_eq_error {key : String} {source : Option String} {e : ParameterError} :
    segments? key source = .error e ↔
      key = "" ∧ e = ⟨.noName (Text.quoted key), source⟩ ∨
        key ≠ "" ∧ "" ∈ Text.splitAt '.' key ∧ e = ⟨.emptySegment key, source⟩ := by
  unfold segments?
  split
  · next hkey => simp [hkey, failAt, eq_comm]
  · next hkey =>
    simp only
    split
    · next hempty => simp [hkey, hempty, failAt, eq_comm]
    · next hsegments => simp [hkey, hsegments]

theorem plain_of_segments? {key : String} {source : Option String} {parts : List String}
    (h : segments? key source = .ok parts) : ∀ part ∈ parts, IsPlain part := by
  obtain ⟨-, rfl⟩ := segments?_eq_ok.1 h
  exact fun part => plain_of_splitAt

theorem FieldPath.relations_ofSegments (parts : List String) :
    (FieldPath.ofSegments parts).relations ⊆ parts := by
  induction parts with
  | nil => exact List.Subset.refl _
  | cons part rest ih =>
    cases rest with
    | nil => simp [ofSegments]
    | cons next rest => exact List.cons_subset_cons _ ih

namespace FieldPath

/-- The segments of a path are its relations and its field. -/
theorem segments_ofSegments {parts : List String} (h : parts ≠ []) :
    (ofSegments parts).relations ++ [(ofSegments parts).field] = parts := by
  induction parts with
  | nil => exact absurd rfl h
  | cons part rest ih =>
    cases rest with
    | nil => rfl
    | cons next rest => exact congrArg (part :: ·) (ih (by simp))

/-- A path that was read is written as it was. -/
theorem dotted_ofSegments (key : String) : (ofSegments (Text.splitAt '.' key)).dotted = key := by
  rw [dotted, segments_ofSegments (Text.splitAt_ne_nil _ _), Text.joinWith_splitAt]

theorem readValue?_eq_ok {key : Value} {source : Option String} {path : FieldPath} :
    readValue? key source = .ok path ↔
      ∃ s, key = .text s ∧ IsPath s ∧ path = ofSegments (Text.splitAt '.' s) := by
  cases key with
  | text s =>
    simp only [readValue?, segmentsOf?, map_eq_ok, segments?_eq_ok, Value.text.injEq,
      exists_eq_left']
    constructor
    · rintro ⟨_, ⟨hs, rfl⟩, rfl⟩
      exact ⟨hs, rfl⟩
    · rintro ⟨hs, rfl⟩
      exact ⟨_, ⟨hs, rfl⟩, rfl⟩
  | _ => simp [readValue?, segmentsOf?, failAt, Except.map]

/-- A value that is no path is no text or an empty one, or a segment of it is empty. -/
theorem readValue?_eq_error {key : Value} {source : Option String} {e : ParameterError} :
    readValue? key source = .error e ↔
      (∀ s, key = .text s → s = "") ∧ e = ⟨.noName key.shown, source⟩ ∨
        ∃ s, key = .text s ∧ s ≠ "" ∧ "" ∈ Text.splitAt '.' s ∧ e = ⟨.emptySegment s, source⟩ := by
  cases key with
  | text s =>
    simp only [readValue?, segmentsOf?, map_eq_error, segments?_eq_error, Value.text.injEq,
      forall_eq', exists_eq_left', Value.shown]
  | _ => simp [readValue?, segmentsOf?, failAt, Except.map, eq_comm]

end FieldPath

namespace SortKeys

theorem plain_of_readItem? {source : String} {v : Value} {key : SortKey}
    (h : SortKey.readItem? source v = .ok key) : ∀ name ∈ key.path.relations, IsPlain name := by
  cases v with
  | text s =>
    obtain ⟨path, hpath, rfl⟩ := map_eq_ok.1 h
    obtain ⟨parts, hparts, rfl⟩ := map_eq_ok.1 hpath
    exact fun name hname => plain_of_segments? hparts name (FieldPath.relations_ofSegments _ hname)
  | _ => cases h

theorem plain_of_readItems? {index : Nat} {items : List Value} {keys : List SortKey}
    (h : readItems? index items = .ok keys) :
    ∀ key ∈ keys, ∀ name ∈ key.path.relations, IsPlain name := by
  induction items generalizing index keys with
  | nil =>
    cases h
    simp
  | cons item rest ih =>
    obtain ⟨key, hkey, h⟩ := bind_eq_ok.1 h
    obtain ⟨more, hmore, h⟩ := bind_eq_ok.1 h
    cases h
    rw [List.forall_mem_cons]
    exact ⟨plain_of_readItem? hkey, ih hmore⟩

/-- The relations of sort keys that were read have no dots in them. -/
theorem plain_of_read? {spec : Value} {keys : List SortKey} (h : read? spec = .ok keys) :
    ∀ key ∈ keys, ∀ name ∈ key.path.relations, IsPlain name := by
  unfold read? at h
  split at h
  · cases h
    simp
  · split at h
    · exact plain_of_readItems? h
    · split at h
      · exact plain_of_readItems? h
      · cases h

end SortKeys

end ResourceQuery
