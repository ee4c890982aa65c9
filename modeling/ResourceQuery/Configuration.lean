import ResourceQuery.Page

/-!
# Configuration

What is fixed before any request comes: the page of requests that do not ask for one.

* `Configuration`: the default page, if there is one;
* `Configuration.read`: a configuration from a mapping, or every fault in it;
* `Configuration.ofValue?`: the same for a mapping that may come as a list of pairs.
-/

namespace ResourceQuery

open Input

/-- What is fixed before any request comes. -/
structure Configuration where
  pagination : Option PageDefault
deriving DecidableEq, Repr, Inhabited

namespace Configuration

/-- A reading that keeps every fault. -/
abbrev Collected (α : Type) := Except (List InputError) α

/-- Two readings: the faults of both are kept. -/
def both {α β : Type} (a : Collected α) (b : Collected β) : Collected (α × β) :=
  match a, b with
  | .ok x, .ok y => .ok (x, y)
  | .error e, .ok _ => .error e
  | .ok _, .error e => .error e
  | .error e, .error f => .error (e ++ f)

/-- A located reading as one that keeps every fault. -/
def collect {α : Type} (reading : Located α) : Collected α := reading.mapError ([·])

/-- A bound of the default page. -/
def readBound (least : Nat) (fallback : Option Int) (key : String)
    (entries : List (Value × Value)) : Located Int :=
  match Value.lookup? (.text key) entries, fallback with
  | some v, _ => at_ ["pagination", key] (readAtLeast least v)
  | none, some i => .ok i
  | none, none => at_ ["pagination", key] (.error .missing)

/-- The default page: at least one record, and nothing skipped unless it says so. -/
def readPagination : Value → Collected (Option PageDefault)
  | .null => .ok none
  | .map entries =>
    (both (collect (readBound 1 none "limit" entries))
      (collect (readBound 0 (some 0) "offset" entries))).map fun (limit, offset) =>
        some ⟨limit, offset⟩
  | _ => collect (at_ ["pagination"] (.error (.notMappingOr "PaginationConfig")))

/-- The configuration of a mapping. Keys that are not known are left alone. -/
def read (entries : List (Value × Value)) : Except QueryError Configuration :=
  match readPagination ((Value.lookup? (.text "pagination") entries).getD .null) with
  | .ok pagination => .ok ⟨pagination⟩
  | .error errors => .error (.configuration errors)

/-- The two elements of a pair. -/
def pair? : Value → Except QueryError (Value × Value)
  | .list [k, v] | .tuple [k, v] => .ok (k, v)
  | .map [(k, _), (v, _)] => .ok (k, v)
  | .text s =>
    match s.toList with
    | [k, v] => .ok (.text (String.singleton k), .text (String.singleton v))
    | _ => .error .unevenPairs
  | .bytes [k, v] => .ok (.int k.toNat, .int v.toNat)
  | .list _ | .tuple _ | .set _ | .map _ | .bytes _ => .error .unevenPairs
  | _ => .error .notPairs

/-- The entries of a list of pairs. -/
def pairs? : List Value → Except QueryError (List (Value × Value))
  | [] => .ok []
  | v :: rest => do
    let entry ← pair? v
    if entry.1.canBeKey then
      let more ← pairs? rest
      .ok (entry :: more)
    else .error .notPairs

/-- The entries of a value that is a mapping or a list of pairs; a value that counts as not given
has none. -/
def entries? (v : Value) : Except QueryError (List (Value × Value)) :=
  if v.isEmpty then .ok []
  else
    match v with
    | .map entries => .ok entries
    | .set elements => do
      .ok ((← pairs? elements).foldl (fun m (k, v) => Value.putEntry m k v) [])
    | v =>
      match v.elements? with
      | some elements => do
        .ok ((← pairs? elements).foldl (fun m (k, v) => Value.putEntry m k v) [])
      | none => .error .notPairs

/-- The configuration of a value. -/
def ofValue? (v : Value) : Except QueryError Configuration := do
  read (← entries? v)

end Configuration

end ResourceQuery
