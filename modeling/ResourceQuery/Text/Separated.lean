/-!
# Separated text

Text cut at a separator character, and pieces joined with one.

* `pieces`: the pieces between the occurrences of a separator; there is always at least one;
* `joined`: the pieces written one after the other with the separator between them;
* `joined_pieces`: joining the pieces gives the text back;
* `pieces_joined`: cutting a joined list gives the list back when no piece holds the separator.
-/

namespace ResourceQuery.Text

/-- The pieces of a text between the occurrences of `sep`. -/
def pieces (sep : Char) : List Char → List (List Char)
  | [] => [[]]
  | c :: rest =>
    if c = sep then [] :: pieces sep rest
    else
      match pieces sep rest with
      | [] => [[c]]
      | first :: others => (c :: first) :: others

/-- The pieces written one after the other, with `sep` between them. -/
def joined (sep : Char) : List (List Char) → List Char
  | [] => []
  | [last] => last
  | first :: second :: rest => first ++ sep :: joined sep (second :: rest)

theorem pieces_ne_nil (sep : Char) (text : List Char) : pieces sep text ≠ [] := by
  cases text with
  | nil => simp [pieces]
  | cons c rest =>
    simp only [pieces]
    split
    · simp
    · split <;> simp

/-- A separator between two texts: the cut happens exactly there. -/
theorem pieces_append (sep : Char) (text rest : List Char) :
    pieces sep (text ++ sep :: rest) = pieces sep text ++ pieces sep rest := by
  induction text with
  | nil => exact if_pos rfl
  | cons c text ih =>
    rw [List.cons_append, pieces, pieces, ih]
    split
    · rfl
    · obtain ⟨first, others, hfirst⟩ := List.exists_cons_of_ne_nil (pieces_ne_nil sep text)
      rw [hfirst]
      rfl

theorem pieces_of_not_mem (sep : Char) (text : List Char) (h : sep ∉ text) :
    pieces sep text = [text] := by
  induction text with
  | nil => rfl
  | cons c rest ih =>
    have hc : c ≠ sep := fun e => h (by simp [e])
    simp [pieces, hc, ih (fun e => h (List.mem_cons_of_mem _ e))]

theorem joined_cons_cons (sep c : Char) (first : List Char) (rest : List (List Char)) :
    joined sep ((c :: first) :: rest) = c :: joined sep (first :: rest) := by
  cases rest <;> rfl

theorem joined_cons (sep : Char) (first : List Char) (others : List (List Char)) :
    joined sep (first :: others) = first ++ others.flatMap (sep :: ·) := by
  induction others generalizing first with
  | nil => simp [joined]
  | cons second rest ih =>
    rw [joined, ih, List.flatMap_cons]
    rfl

/-- Joining the pieces of a text gives the text back. -/
theorem joined_pieces (sep : Char) (text : List Char) : joined sep (pieces sep text) = text := by
  induction text with
  | nil => rfl
  | cons c rest ih =>
    simp only [pieces]
    split
    · next h =>
      cases hp : pieces sep rest with
      | nil => exact absurd hp (pieces_ne_nil sep rest)
      | cons first others => simp [joined, ← hp, ih, h]
    · cases hp : pieces sep rest with
      | nil => exact absurd hp (pieces_ne_nil sep rest)
      | cons first others => rw [joined_cons_cons, ← hp, ih]

/-- Cutting a joined list gives the list back when no piece holds the separator. -/
theorem pieces_joined (sep : Char) (list : List (List Char)) (nonempty : list ≠ [])
    (free : ∀ piece ∈ list, sep ∉ piece) : pieces sep (joined sep list) = list := by
  induction list with
  | nil => exact absurd rfl nonempty
  | cons first rest ih =>
    have hf : sep ∉ first := free first (by simp)
    cases rest with
    | nil => exact pieces_of_not_mem sep first hf
    | cons second rest =>
      rw [joined, pieces_append, pieces_of_not_mem sep first hf, List.singleton_append,
        ih (by simp) (fun piece h => free piece (List.mem_cons_of_mem _ h))]

/-- The pieces of a string between the occurrences of `sep`. -/
def splitAt (sep : Char) (text : String) : List String :=
  (pieces sep text.toList).map String.ofList

/-- The pieces of a string that are not empty. -/
def splitNonempty (sep : Char) (text : String) : List String :=
  (splitAt sep text).filter (· ≠ "")

/-- Strings written one after the other, with `sep` between them. -/
def joinWith (sep : Char) (texts : List String) : String :=
  String.ofList (joined sep (texts.map String.toList))

end ResourceQuery.Text
