import ResourceQuery.Parameters
import ResourceQuery.Proofs.Number.Forms

/-!
# Values in several forms

A client may send a text as bytes, a list as a tuple, and names as one text with commas. What a
value stands for is said here form by form, without the order in which it is read.

* `Value.given?`: what a mapping gives for a key, where null counts as nothing;
* `Input.Spells`, `Input.Holds`: the text and the elements that a value stands for;
* `Input.Maps`: the entries of a mapping with texts as keys;
* `Input.IfGiven`: what a value stands for that may be missing;
* `Input.nodup_ofEntries`, `Input.ofEntries_eq_self`: entries by their keys.
-/

namespace ResourceQuery

open Text Input

/-! ## What a mapping gives -/

namespace Value

/-- The value at a key of a mapping, unless it is null. -/
def given? (key : String) : Value → Option Value
  | .map entries => (lookup? (.text key) entries).filter (!·.isNull)
  | _ => none

theorem isNull_eq_false {v : Value} (h : v ≠ .null) : v.isNull = false := by
  cases v <;> first | rfl | exact absurd rfl h

theorem given?_map {key : String} {entries : List (Value × Value)} {v : Value} (h : v ≠ .null)
    (hv : lookup? (.text key) entries = some v) : (Value.map entries).given? key = some v := by
  rw [given?, hv, Option.filter_some, if_pos (by simp [isNull_eq_false h])]

/-- Whether a value is a mapping with no other keys than some texts. -/
def HasKeys (names : List String) (v : Value) : Prop :=
  ∃ entries, v = .map entries ∧ ∀ e ∈ entries, ∃ name ∈ names, e.1 = .text name

end Value

namespace Input

/-! ## Texts and their lists -/

/-- Whether a value is a text, or the bytes of one. -/
inductive Spells : Value → String → Prop
  | text (s : String) : Spells (.text s) s
  | bytes {bs : List UInt8} {s : String} (h : textOfBytes? bs = some s) : Spells (.bytes bs) s

/-- Whether a value is a list, a tuple or a set of some elements. -/
inductive Holds : Value → List Value → Prop
  | list (xs : List Value) : Holds (.list xs) xs
  | tuple (xs : List Value) : Holds (.tuple xs) xs
  | set (xs : List Value) : Holds (.set xs) xs

section Readings

variable {α : Type} {v : Value} {s : String} {vs : List Value} {texts : List String}

theorem at_eq_ok {location : List String} {reading : Reading α} {a : α} :
    at_ location reading = .ok a ↔ reading = .ok a :=
  mapError_eq_ok

theorem under_eq_ok {key : String} {reading : Located α} {a : α} :
    under key reading = .ok a ↔ reading = .ok a :=
  mapError_eq_ok

theorem readAtLeast_eq_ok {least : ℕ} {i : ℤ} :
    readAtLeast least v = .ok i ↔ Denotes v i ∧ least ≤ i := by
  simp only [readAtLeast, bind_eq_ok, readInteger_eq_ok]
  constructor
  · rintro ⟨j, hj, h⟩
    split at h
    · cases h
    · next hleast =>
      cases h
      exact ⟨hj, not_lt.1 hleast⟩
  · rintro ⟨hi, hleast⟩
    exact ⟨i, hi, if_neg (not_lt.2 hleast)⟩

theorem readText_eq_ok : readText v = .ok s ↔ Spells v s := by
  constructor
  · intro h
    cases v with
    | text =>
      cases h
      exact .text s
    | bytes bs =>
      simp only [readText] at h
      split at h
      · next hs =>
        cases h
        exact .bytes hs
      · cases h
    | _ => cases h
  · rintro (_ | h)
    · rfl
    · rw [readText, h]

theorem readKey_eq_ok : readKey v = .ok s ↔ Spells v s :=
  at_eq_ok.trans readText_eq_ok

theorem readList_eq_ok : readList v = .ok vs ↔ Holds v vs := by
  constructor
  · intro h
    cases v with
    | list | tuple | set =>
      cases h
      constructor
    | _ => cases h
  · rintro (_ | _ | _) <;> rfl

theorem readTexts_eq_ok {index : ℕ} :
    readTexts index vs = .ok texts ↔ List.Forall₂ Spells vs texts := by
  induction vs generalizing index texts with
  | nil => simp [readTexts, eq_comm]
  | cons v rest ih =>
    simp only [readTexts, bind_eq_ok, at_eq_ok, readText_eq_ok, ih, List.forall₂_cons_left_iff]
    constructor
    · rintro ⟨s, hs, more, hmore, h⟩
      exact ⟨s, more, hs, hmore, (Except.ok.inj h).symm⟩
    · rintro ⟨s, more, hs, hmore, rfl⟩
      exact ⟨s, hs, more, hmore, rfl⟩

theorem readTextList_eq_ok :
    readTextList v = .ok texts ↔ ∃ vs, Holds v vs ∧ List.Forall₂ Spells vs texts := by
  simp only [readTextList, bind_eq_ok, at_eq_ok, readList_eq_ok, readTexts_eq_ok]

theorem spells_texts (texts : List String) : List.Forall₂ Spells (texts.map .text) texts := by
  rw [List.forall₂_map_left_iff, List.forall₂_same]
  exact fun s _ => .text s

end Readings

/-! ## Entries by their keys -/

section Entries

variable {α : Type} {entries : List (String × α)} {key : String}

theorem putText_of_not_mem (value : α) (h : key ∉ entries.map (·.1)) :
    putText entries key value = entries ++ [(key, value)] := by
  refine if_neg fun hany => h ?_
  obtain ⟨e, he, hkey⟩ := List.any_eq_true.1 hany
  exact List.mem_map.2 ⟨e, he, by simpa using hkey⟩

/-- An entry takes the place of the one with its key, or comes last. -/
theorem keys_putText (entries : List (String × α)) (key : String) (value : α) :
    (putText entries key value).map (·.1) =
      if key ∈ entries.map (·.1) then entries.map (·.1) else entries.map (·.1) ++ [key] := by
  split
  · next hkey =>
    obtain ⟨e, he, rfl⟩ := List.mem_map.1 hkey
    rw [putText, if_pos (List.any_eq_true.2 ⟨e, he, by simp⟩), List.map_map]
    refine List.map_congr_left fun e' _ => ?_
    rw [Function.comp_apply]
    split
    · next heq => exact (beq_iff_eq.1 heq).symm
    · rfl
  · next hkey => rw [putText_of_not_mem value hkey, List.map_append, List.map_singleton]

theorem ofEntries_concat (entries : List (String × α)) (e : String × α) :
    ofEntries (entries ++ [e]) = putText (ofEntries entries) e.1 e.2 := by
  rw [ofEntries, List.foldl_append, List.foldl_cons, List.foldl_nil, ofEntries]

/-- No two entries have the same key. -/
theorem nodup_ofEntries (entries : List (String × α)) :
    ((ofEntries entries).map (·.1)).Nodup := by
  induction entries using List.reverseRecOn with
  | nil => exact List.nodup_nil
  | append_singleton entries e ih =>
    rw [ofEntries_concat, keys_putText]
    split
    · exact ih
    · next hkey => exact List.nodup_append_comm.1 (List.nodup_cons.2 ⟨hkey, ih⟩)

/-- The keys of the mapping are those of the entries. -/
theorem mem_keys_ofEntries : key ∈ (ofEntries entries).map (·.1) ↔ key ∈ entries.map (·.1) := by
  induction entries using List.reverseRecOn with
  | nil => rfl
  | append_singleton entries e ih =>
    rw [ofEntries_concat, keys_putText, List.map_append, List.mem_append, ← ih,
      List.map_singleton, List.mem_singleton]
    split
    · next hkey => exact ⟨.inl, fun h => h.elim id fun h => h ▸ hkey⟩
    · rw [List.mem_append, List.mem_singleton]

/-- Entries whose keys differ are all kept. -/
theorem ofEntries_eq_self (h : (entries.map (·.1)).Nodup) : ofEntries entries = entries := by
  induction entries using List.reverseRecOn with
  | nil => rfl
  | append_singleton entries e ih =>
    rw [List.map_append, List.map_singleton, ← List.concat_eq_append, List.nodup_concat] at h
    rw [ofEntries_concat, ih h.2, putText_of_not_mem _ h.1]

end Entries

/-! ## Mappings -/

/-- Whether a value is a mapping whose keys are texts, and whose values stand for others. Of two
entries with the same text the last one counts, in the place of the first. -/
inductive Maps {α : Type} (standsFor : Value → α → Prop) : Value → List (String × α) → Prop
  | entries {es : List (Value × Value)} {out : List (String × α)}
      (h : List.Forall₂ (fun e o => Spells e.1 o.1 ∧ standsFor e.2 o.2) es out) :
      Maps standsFor (.map es) (ofEntries out)

/-- What a value stands for when there is one, and what stands in its place. -/
inductive IfGiven {α : Type} (standsFor : Value → α → Prop) (missing : α) :
    Option Value → α → Prop
  | missing : IfGiven standsFor missing none missing
  | given {v : Value} {a : α} (h : standsFor v a) : IfGiven standsFor missing (some v) a

section Mappings

variable {α : Type} {standsFor : Value → α → Prop} {missing a : α} {given : Option Value}

theorem ifGiven_none : IfGiven standsFor missing none a ↔ a = missing := by
  constructor
  · rintro ⟨⟩
    rfl
  · rintro rfl
    exact .missing

theorem ifGiven_some {v : Value} : IfGiven standsFor missing (some v) a ↔ standsFor v a := by
  constructor
  · rintro ⟨⟩
    assumption
  · exact .given

theorem Maps.nodup {v : Value} {out : List (String × α)} (h : Maps standsFor v out) :
    (out.map (·.1)).Nodup := by
  cases h
  exact nodup_ofEntries _

theorem IfGiven.nodup {out : List (String × α)} (h : IfGiven (Maps standsFor) [] given out) :
    (out.map (·.1)).Nodup := by
  cases h with
  | missing => exact List.nodup_nil
  | given h => exact h.nodup

/-- Entries whose keys differ, written as a mapping. -/
theorem maps_ofFields {entries : List (String × α)} {write : α → Value}
    (hnodup : (entries.map (·.1)).Nodup) (h : ∀ e ∈ entries, standsFor (write e.2) e.2) :
    Maps standsFor (.ofFields (entries.map fun e => (e.1, write e.2))) entries := by
  have hentries : List.Forall₂ (fun e o => Spells e.1 o.1 ∧ standsFor e.2 o.2)
      ((entries.map fun e => (e.1, write e.2)).map fun e => (.text e.1, e.2)) entries := by
    rw [List.map_map, List.forall₂_map_left_iff, List.forall₂_same]
    exact fun e he => ⟨.text e.1, h e he⟩
  have hmaps := Maps.entries hentries
  rwa [ofEntries_eq_self hnodup] at hmaps

end Mappings

end Input

end ResourceQuery
