import ResourceQuery.Service
import ResourceQuery.Proofs.Filter.Accepted
import ResourceQuery.Proofs.Query.RowKeys
import ResourceQuery.Proofs.Query.Bare
import ResourceQuery.Proofs.Query.Names
import ResourceQuery.Proofs.Filter.Spelling
import ResourceQuery.Proofs.Query.Shape
import ResourceQuery.Proofs.Query.Sorted
import ResourceQuery.Proofs.Filter.Fragment
import ResourceQuery.Proofs.Query.Asked
import ResourceQuery.Proofs.Query.Single
import ResourceQuery.Proofs.Include.Tree
import ResourceQuery.Proofs.Include.Loads
import ResourceQuery.Proofs.Query.JoinColumns
import ResourceQuery.Proofs.Filter.Tree
import ResourceQuery.Proofs.Filter.Grammar
import ResourceQuery.Proofs.Sort.Prefixes
import ResourceQuery.Proofs.Query.Pinned
import ResourceQuery.Proofs.Query.RelationFields
import ResourceQuery.Proofs.Filter.ValueText
import ResourceQuery.Proofs.Number.Rounding
import ResourceQuery.Proofs.Number.Forms
import ResourceQuery.Proofs.Query.Window
import ResourceQuery.Proofs.Parameters.CommaText
import ResourceQuery.Proofs.Query.SnakeKeys
import ResourceQuery.Proofs.Sort.Tokens
import ResourceQuery.Proofs.Field.Calls
import ResourceQuery.Proofs.Coercion
