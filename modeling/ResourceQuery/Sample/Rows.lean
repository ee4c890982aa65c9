import ResourceQuery.Sample.Entities
import ResourceQuery.Store

/-!
# Sample rows

Some rows for every sample table but that of items.
-/

namespace ResourceQuery.Sample

/-- An integer in a row. -/
def n (i : Int) : Cell := .integer i

/-- A text in a row. -/
def t (s : String) : Cell := .text s

/-- A truth value in a row. -/
def b (x : Bool) : Cell := .integer (if x then 1 else 0)

/-- Rows from the names of their columns and the cells of each. -/
def tableOf (columns : List String) (rows : List (List Cell)) : List StoredRow :=
  rows.map fun cells => ⟨columns.zip cells⟩

/-- The names of the columns of an entity. -/
def columnNames (e : Entity) : List String := e.columns.map (·.name)

/-- The rows of people. -/
def personRows : List StoredRow := tableOf (columnNames person) [
  [n 1, t "Barney", n 12, t "m", t "t-rex"],
  [n 2, t "Baby Bop", n 25, t "f", t "triceratops"],
  [n 3, t "Cookie Monster", n 70, t "m", t "monster"],
  [n 4, t "Boo", n 28, t "f", t "nothing, here"],
  [n 5, t "Elmo", n 3, t "m", .null]]

/-- The rows of pets. -/
def petRows : List StoredRow := tableOf (columnNames pet) [
  [n 1, t "Big Bird", n 1],
  [n 2, t "Godzilla", n 2],
  [n 3, t "Patches", n 3],
  [n 4, t "Grover", n 1],
  [n 5, t "Benny \"The Terror\" Terrier", n 2]]

/-- The rows of toys. -/
def toyRows : List StoredRow := tableOf (columnNames toy) [
  [n 1, t "skate", n 1],
  [n 2, t "car", n 2]]

/-- The rows of categories. -/
def categoryRows : List StoredRow := tableOf (columnNames category) [
  [n 1, t "root", n 1, .null],
  [n 2, t "science", n 5, n 1],
  [n 3, t "arts", .null, n 1],
  [n 4, t "physics", n 2, n 2],
  [n 5, t "optics", n 9, n 4],
  [n 6, t "orphan", n 5, .null]]

/-- The rows of posts. -/
def postRows : List StoredRow := tableOf (columnNames post) [
  [n 1, t "Light", n 100, b false, n 5],
  [n 2, t "Atoms", n 40, b true, n 4],
  [n 3, t "50% off_sale", .null, b false, .null],
  [n 4, t "Painting", n 40, .null, n 3],
  [n 5, t "a/b \\ c", n 0, b true, n 2],
  [n 6, t "light again", n (-7), b false, n 5],
  [n 7, t "null", n 1000000, b true, n 2]]

/-- The rows of tags. -/
def tagRows : List StoredRow := tableOf (columnNames tag) [
  [n 1, t "hot"], [n 2, t "new"], [n 3, t "Ünï"], [n 4, t "unused"]]

/-- The rows between posts and tags. -/
def postTagRows : List StoredRow := tableOf ["post_id", "tag_id"] [
  [n 1, n 1], [n 1, n 2], [n 2, n 2], [n 4, n 3], [n 6, n 1], [n 6, n 3], [n 7, n 2]]

/-- The rows of seats. -/
def seatRows : List StoredRow := tableOf (columnNames seat) [
  [t "A", n 1, t "vip"], [t "A", n 2, .null], [t "B", n 1, t "std"], [t "B", n 2, t "std"]]

/-- The rows of bookings. -/
def bookingRows : List StoredRow := tableOf (columnNames booking) [
  [n 1, t "Ann", t "A", n 1],
  [n 2, t "Bob", t "B", n 1],
  [n 3, t "Ann", t "B", n 1],
  [n 4, .null, .null, .null],
  [n 5, t "Cid", t "A", n 2]]

/-- The tables by their names. -/
def tables : List (String × List StoredRow) := [
  ("person", personRows), ("pet", petRows), ("toy", toyRows), ("category", categoryRows),
  ("post", postRows), ("tag", tagRows), ("post_tag", postTagRows), ("seat", seatRows),
  ("booking", bookingRows)]

/-- All sample rows. -/
def database : Database :=
  ⟨fun table => ((tables.find? (·.1 == table)).map (·.2)).getD []⟩

end ResourceQuery.Sample
