import ResourceQuery.Schema

/-!
# Sample entities

A schema to try queries on: people with their pets and toys, a tree of categories with posts and
tags, seats with bookings, and an item with a column of every type.
-/

namespace ResourceQuery.Sample

/-- A field and a column of the same name. -/
def column (name : String) (type : ColumnType) : Column := ⟨name, name, type⟩

/-- The one pair of equal columns of a link. -/
def linkedBy (near far : String) (farFirst : Bool) : Link := .direct [⟨near, far⟩] farFirst

/-- The attributes of the class of every entity. -/
def classAttributes : List (String × ClassAttribute) :=
  [("metadata", .object "MetaData"), ("registry", .object "registry"), ("__table__", .table),
    ("__mapper__", .table)]

/-- The attributes of the class of an entity that names its table. -/
def namedAttributes (table : String) : List (String × ClassAttribute) :=
  ("__tablename__", .text table) :: classAttributes

/-- People. -/
def person : Entity where
  name := "Person"
  table := "person"
  columns := [column "id" .integer, column "first_name" .text, column "age" .integer,
    column "gender" .text, column "type" .text]
  key := ["id"]
  relationships := [⟨"pets", "Pet", true, linkedBy "id" "pet_owner_id" false, ["id"]⟩]
  attributes := namedAttributes "person"

/-- Pets, each with at most one toy. -/
def pet : Entity where
  name := "Pet"
  table := "pet"
  columns := [column "id" .integer, column "name" .text, column "pet_owner_id" .integer]
  key := ["id"]
  relationships := [
    ⟨"pet_owner", "Person", false, linkedBy "pet_owner_id" "id" true, []⟩,
    ⟨"toy", "Toy", false, linkedBy "id" "pet_id" false, []⟩]
  attributes := namedAttributes "pet"

/-- Toys of pets. -/
def toy : Entity where
  name := "Toy"
  table := "toy"
  columns := [column "id" .integer, column "type" .text, column "pet_id" .integer]
  key := ["id"]
  relationships := [⟨"pet", "Pet", false, linkedBy "pet_id" "id" true, []⟩]
  attributes := namedAttributes "toy"

/-- Categories, each below at most one other. -/
def category : Entity where
  name := "Category"
  table := "category"
  columns := [column "id" .integer, column "name" .text, column "rank" .integer,
    column "parent_id" .integer]
  key := ["id"]
  relationships := [
    ⟨"parent", "Category", false, linkedBy "parent_id" "id" true, []⟩,
    ⟨"children", "Category", true, linkedBy "id" "parent_id" false, ["id"]⟩,
    ⟨"posts", "Post", true, linkedBy "id" "category_id" false, ["id"]⟩]
  attributes := namedAttributes "category"

/-- Posts. -/
def post : Entity where
  name := "Post"
  table := "post"
  columns := [column "id" .integer, column "post_title" .text, column "view_count" .integer,
    column "is_draft" .boolean, column "category_id" .integer]
  key := ["id"]
  relationships := [
    ⟨"category", "Category", false, linkedBy "category_id" "id" true, []⟩,
    ⟨"tags", "Tag", true, .through "post_tag" [⟨"id", "post_id"⟩] [⟨"id", "tag_id"⟩], ["id"]⟩]
  attributes := namedAttributes "post"

/-- Tags of posts. -/
def tag : Entity where
  name := "Tag"
  table := "tag"
  columns := [column "id" .integer, column "label" .text]
  key := ["id"]
  relationships := [
    ⟨"posts", "Post", true, .through "post_tag" [⟨"id", "tag_id"⟩] [⟨"id", "post_id"⟩], ["id"]⟩]
  attributes := namedAttributes "tag"

/-- Seats, told apart by hall and number. -/
def seat : Entity where
  name := "Seat"
  table := "seat"
  columns := [column "hall" .text, column "number" .integer, column "grade" .text]
  key := ["hall", "number"]
  relationships := [
    ⟨"bookings", "Booking", true,
      .direct [⟨"hall", "seat_hall"⟩, ⟨"number", "seat_number"⟩] true, ["id"]⟩]
  attributes := namedAttributes "seat"

/-- Bookings of seats. -/
def booking : Entity where
  name := "Booking"
  table := "booking"
  tableIsType := false
  columns := [column "id" .integer, column "guest" .text, column "seat_hall" .text,
    column "seat_number" .integer]
  key := ["id"]
  relationships := [
    ⟨"seat", "Seat", false,
      .direct [⟨"seat_hall", "hall"⟩, ⟨"seat_number", "number"⟩] false, []⟩]
  attributes := classAttributes

/-- Items, with a column of every type. -/
def item : Entity where
  name := "Item"
  table := "item"
  columns := [⟨"key", "item_key", .integer⟩, ⟨"code", "item_code", .text⟩, column "notes" .text,
    column "big" .integer, column "price" (.decimal 10), column "weight" .float,
    column "active" .boolean, column "created_at" .dateTime, column "on_day" .date,
    column "at_time" .time, column "span" .interval, column "blob" .binary,
    column "raw" .untyped]
  key := ["key"]
  attributes := namedAttributes "item"

/-- All sample entities. -/
def schema : Schema := ⟨[person, pet, toy, category, post, tag, seat, booking, item]⟩

end ResourceQuery.Sample
