import EntityStore.Value.Same

set_option autoImplicit false

namespace EntityStore

/-- The name under which queries refer to the key of an entity. -/
def keyProperty : String := "__key__"

/-- What the rows of a query are. -/
inductive ResultType where
  | unknown | full | keyOnly | projection
deriving DecidableEq

namespace ResultType

def name : ResultType → String
  | unknown => "unknown"
  | full => "full"
  | keyOnly => "key_only"
  | projection => "projection"

def all : List ResultType := [unknown, full, keyOnly, projection]

def ofName? (s : String) : Option ResultType := all.find? (·.name = s)

/-- The name of the type of the rows. -/
def rowType? : ResultType → Option String
  | unknown => none
  | full => some "Entity"
  | keyOnly => some "Key"
  | projection => some "ProjectionEntity"

end ResultType

inductive Comparison where
  | less | lessOrEqual | greater | greaterOrEqual | equal
deriving DecidableEq

def Comparison.symbol : Comparison → String
  | less => "<"
  | lessOrEqual => "<="
  | greater => ">"
  | greaterOrEqual => ">="
  | equal => "="

inductive Direction where
  | ascending | descending
deriving DecidableEq

def Direction.name : Direction → String
  | ascending => "ASC"
  | descending => "DESC"

def Direction.ofName? (s : String) : Option Direction := [ascending, descending].find? (·.name = s)

/-- One test on an entity. -/
inductive Condition where
  /-- The property has an index entry that stands in a relation to the value. -/
  | compare (property : String) (relation : Comparison) (value : Value)
  /-- The entity's key is the given one or lies below it. -/
  | hasAncestor (key : Key)

namespace Condition

def property : Condition → String
  | compare p _ _ => p
  | hasAncestor _ => keyProperty

def symbol : Condition → String
  | compare _ r _ => r.symbol
  | hasAncestor _ => "HAS ANCESTOR"

def value : Condition → Value
  | compare _ _ v => v
  | hasAncestor k => .ofScalar (.key k)

/-- Equality of conditions, up to equality of their values. -/
def same (a b : Condition) : Bool :=
  a.property = b.property && a.symbol = b.symbol && a.value.same b.value

end Condition

/-- A test on an entity: a condition, or the conjunction of some tests. -/
inductive Filter where
  | condition (c : Condition)
  | all (parts : List Filter)

namespace Filter

mutual

/-- The conditions of a filter from left to right. -/
def conditions : Filter → List Condition
  | .condition c => [c]
  | .all parts => conditionsOf parts
termination_by structural f => f

def conditionsOf : List Filter → List Condition
  | [] => []
  | f :: rest => conditions f ++ conditionsOf rest
termination_by structural fs => fs

end

mutual

/-- Equality of filters, up to equality of the values in them. -/
def same : Filter → Filter → Bool
  | .condition a, .condition b => a.same b
  | .all a, .all b => sameParts a b
  | _, _ => false
termination_by structural f => f

def sameParts : List Filter → List Filter → Bool
  | [], [] => true
  | a :: as, b :: bs => same a b && sameParts as bs
  | _, _ => false
termination_by structural fs => fs

end

def typeName : Filter → String
  | .condition _ => "PropertyFilter"
  | .all _ => "CompositeFilter"

end Filter

/-- One key of the order of the rows. -/
structure Order where
  property : String
  direction : Direction
deriving DecidableEq

/-- A projected property, marked if a group shows the first value of it. -/
structure Projection where
  property : String
  first : Bool
deriving DecidableEq

/-- A query written field by field. -/
structure StructuredQuery where
  resultType : ResultType
  namespaceName : Option String
  kind : Option String
  filter : Option Filter
  orders : List Order
  projections : List Projection
  groupBy : List String
  limit : Option Nat
  offset : Nat

namespace StructuredQuery

/-- The conditions of the query from left to right. -/
def conditions (q : StructuredQuery) : List Condition := (q.filter.map Filter.conditions).getD []

/-- The names of the projected properties. -/
def projected (q : StructuredQuery) : List String := q.projections.map Projection.property

end StructuredQuery

/-- A query written in the query language, with the values that stand for its references. -/
structure GqlQuery where
  resultType : ResultType
  namespaceName : Option String
  text : String
  allowLiteral : Bool
  named : Bindings String Value
  positional : List Value

/-- A query.  A bare one has a result type and a namespace and nothing that could be run. -/
inductive Query where
  | structured (q : StructuredQuery)
  | gql (q : GqlQuery)
  | bare (resultType : ResultType) (namespaceName : Option String)

namespace Query

def typeName : Query → String
  | structured _ => "StructuredQuery"
  | gql _ => "GqlQuery"
  | bare _ _ => "Query"

def resultType : Query → ResultType
  | structured q => q.resultType
  | gql q => q.resultType
  | bare t _ => t

def sameFilter : Option Filter → Option Filter → Bool
  | none, none => true
  | some f, some g => f.same g
  | _, _ => false

def sameValues : List Value → List Value → Bool
  | [], [] => true
  | v :: vs, w :: ws => v.same w && sameValues vs ws
  | _, _ => false

/-- Equality of queries, up to equality of the values in them. -/
def same : Query → Query → Bool
  | structured q, structured r =>
    q.resultType = r.resultType && q.namespaceName = r.namespaceName && q.kind = r.kind &&
    sameFilter q.filter r.filter && q.orders = r.orders && q.projections = r.projections &&
    q.groupBy = r.groupBy && q.limit = r.limit && q.offset = r.offset
  | gql q, gql r =>
    q.resultType = r.resultType && q.namespaceName = r.namespaceName && q.text = r.text &&
    q.allowLiteral = r.allowLiteral && q.named.names = r.named.names &&
    sameValues (q.named.map Prod.snd) (r.named.map Prod.snd) && sameValues q.positional r.positional
  | bare t n, bare u m => t = u && n = m
  | _, _ => false

end Query

end EntityStore
