import Tabulary.Value

/-!
Plans of queries.
-/

namespace Tabulary

inductive Plan where
  | scan (table : String) (qualify : Bool)
  | lookup (table : String) (id : Value)
  | filter (child : Plan) (column : String) (value : Value)
  | join (left right : Plan) (leftColumn rightColumn : String)
deriving DecidableEq, Repr, Inhabited

end Tabulary
