import ResourceQuery.Coercion
import ResourceQuery.Proofs.Calendar.Reading
import ResourceQuery.Proofs.Number.Decimals
import ResourceQuery.Proofs.Number.Range

/-!
# Values of columns and their texts

A text that is compared with a column becomes a value of the column's type, or it stays a text. The
values of most types survive being written: what their text becomes is the same value.

* `ColumnType.Holds`: whether a value is one of a type;
* `ColumnType.Writes`: how the values of a type are written;
* `ColumnType.read?_of_writes`, `ColumnType.holds_of_read?`: a written value is read, and what is
  read is a value of the type;
* `Value.coerceTo_text`: both, said of the value that a text becomes.
-/

namespace ResourceQuery

/-- Whether a value is one of a column's type. A number is within the limits of its kind, and a day
or a time exists. -/
def ColumnType.Holds : ColumnType → Value → Prop
  | .integer, .int _ => True
  | .boolean, .bool _ => True
  | .float, .float x => x.IsValid
  | .decimal _, .decimal d => d.IsValid
  | .dateTime, .dateTime d => d.IsValid
  | .date, .date d => d.IsValid
  | .time, .time t => t.IsValid
  | _, _ => False

/-- The texts of the values of a column's type. Integers have no more digits than are read, decimal
numbers are finite, and times have no distance from universal time. Between a day and a time any
character may stand, a letter or a blank among them. -/
inductive ColumnType.Writes : ColumnType → Value → String → Prop
  | integer {i : ℤ} (h : i.natAbs < 10 ^ digitLimit) : Writes integer (.int i) (Value.int i).plain
  | boolean (b : Bool) : Writes boolean (.bool b) (Value.bool b).plain
  | decimal (places : ℕ) (negative : Bool) {coefficient : ℕ} {exponent : ℤ}
      (h : Decimal.inRange coefficient exponent) :
      Writes (decimal places) (.decimal (.finite negative coefficient exponent))
        (Value.decimal (.finite negative coefficient exponent)).plain
  | date {d : Date} (h : d.IsValid) : Writes date (.date d) (Value.date d).plain
  | time {t : TimeOfDay} (h : t.IsValid) (hnaive : t.offset = none) :
      Writes time (.time t) (Value.time t).plain
  | dateTime {d : DateTime} (h : d.IsValid) (hnaive : d.time.offset = none) (mark : Char) :
      Writes dateTime (.dateTime d) (String.ofList (d.date.chars ++ mark :: d.time.chars))

section Coercion

variable {type : ColumnType} {v : Value} {text : String}

theorem readBool?_plain (b : Bool) : readBool? (Value.bool b).plain = some b := by
  cases b <;> decide

/-- A value of a type is read as it is written. -/
theorem ColumnType.read?_of_writes (h : type.Writes v text) : type.read? text = some v := by
  cases h with
  | integer h =>
    simp only [read?, Value.plain, Value.shown, readInteger?_toString h, Option.map_some]
  | boolean b => simp only [read?, readBool?_plain b, Option.map_some]
  | decimal places negative h =>
    simp only [read?, Value.plain, Decimal.read?_text negative h, Option.map_some]
  | date h =>
    simp only [read?, Value.plain, Value.shown, Calendar.readDate?_text h, Option.map_some]
  | time h hnaive =>
    simp only [read?, Value.plain, Value.shown, Calendar.readTime?_text h hnaive, Option.map_some]
  | dateTime h hnaive mark =>
    simp only [read?, Calendar.readDateTime?_chars h hnaive mark, Option.map_some]

/-- What a text stands for is a value of the type. -/
theorem ColumnType.holds_of_read? (h : type.read? text = some v) : type.Holds v := by
  cases type with
  | integer =>
    obtain ⟨i, -, rfl⟩ := Option.map_eq_some_iff.1 h
    trivial
  | boolean =>
    obtain ⟨b, -, rfl⟩ := Option.map_eq_some_iff.1 h
    trivial
  | float =>
    obtain ⟨x, hx, rfl⟩ := Option.map_eq_some_iff.1 h
    exact Binary64.isValid_of_readBinary64? hx
  | decimal places =>
    obtain ⟨d, hd, rfl⟩ := Option.map_eq_some_iff.1 h
    exact Decimal.isValid_of_read? hd
  | dateTime =>
    obtain ⟨d, hd, rfl⟩ := Option.map_eq_some_iff.1 h
    exact Calendar.isValid_of_readDateTime? hd
  | date =>
    obtain ⟨d, hd, rfl⟩ := Option.map_eq_some_iff.1 h
    exact Calendar.isValid_of_readDate? hd
  | time =>
    obtain ⟨t, ht, rfl⟩ := Option.map_eq_some_iff.1 h
    exact Calendar.isValid_of_readTime? ht
  | text => cases h
  | interval => cases h
  | binary => cases h
  | untyped => cases h

/-- A value of a type is no text, and stays as it is. -/
theorem Value.coerceTo_of_holds (h : type.Holds v) (other : ColumnType) : v.coerceTo other = v := by
  cases v with
  | text s => cases type <;> cases h
  | _ => rfl

/-- **Values survive their text.** On a column of any type, the text of a value of the type becomes
that value, every text stays as it is or becomes a value of the type, and nothing changes when this
is done again. -/
theorem Value.coerceTo_text (type : ColumnType) (text : String) :
    (∀ v, type.Writes v text → (Value.text text).coerceTo type = v) ∧
      ((Value.text text).coerceTo type = .text text ∨
        type.Holds ((Value.text text).coerceTo type)) ∧
      ((Value.text text).coerceTo type).coerceTo type = (Value.text text).coerceTo type := by
  have hread : ∀ v, type.read? text = some v → (Value.text text).coerceTo type = v := by
    intro v hv
    rw [Value.coerceTo, hv, Option.getD_some]
  refine ⟨fun v hv => hread v (ColumnType.read?_of_writes hv), ?_⟩
  cases h : type.read? text with
  | none =>
    have hsame : (Value.text text).coerceTo type = .text text := by
      rw [Value.coerceTo, h, Option.getD_none]
    rw [hsame]
    exact ⟨.inl rfl, hsame⟩
  | some v =>
    rw [hread v h]
    have hv := ColumnType.holds_of_read? h
    exact ⟨.inr hv, Value.coerceTo_of_holds hv type⟩

end Coercion

/-- A day that does not exist stays a text. -/
example : (Value.text "2023-02-29").coerceTo .date = .text "2023-02-29" := rfl

namespace Sample

/-- A zero with a sign and an exponent, and the last but one moment of a leap day. -/
theorem coerceTo_zero_leapDay :
    (Value.text "-0E-7").coerceTo (.decimal 10) = .decimal (.finite true 0 (-7)) ∧
      (Value.text "2024-02-29 23:59:59.999998").coerceTo .dateTime =
        .dateTime ⟨⟨2024, 2, 29⟩, ⟨23, 59, 59, 999998, none⟩⟩ :=
  ⟨(Value.coerceTo_text (.decimal 10) "-0E-7").1 _ (.decimal 10 true (by decide)),
    (Value.coerceTo_text .dateTime "2024-02-29 23:59:59.999998").1 _
      (.dateTime (by decide) rfl ' ')⟩

end Sample

end ResourceQuery
