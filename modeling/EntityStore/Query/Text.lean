import EntityStore.Query.Basic
import EntityStore.Text.Quoted

set_option autoImplicit false

namespace EntityStore

open Text

/-- A projection with its fields by name. -/
def Projection.text (p : Projection) : String :=
  let aggregation := if p.first then "<Aggregation.FIRST: " ++ quoted "FIRST" ++ ">" else "None"
  "Projection(property=" ++ quoted p.property ++ ", aggregation=" ++ aggregation ++ ")"

end EntityStore
