import EntityStore.Gql.Clauses
import EntityStore.Gql.Operand

set_option autoImplicit false

namespace EntityStore.Gql

open Text

/-- The comparison signs, each before those it starts with. -/
def comparisons : List (List Char × Comparison) :=
  [(['<', '='], .lessOrEqual), (['>', '='], .greaterOrEqual), (['<'], .less), (['>'], .greater),
    (['='], .equal)]

/-- An operand is a text on one line. -/
def operandText? (cs : List Char) : Option (List Char) :=
  if (trimStart cs).isEmpty || (trimStart cs).contains '\n' then none else some (trimStart cs)

/-- A comparison sign and the operand after it. -/
def comparison? (cs : List Char) : Option (Comparison × List Char) :=
  comparisons.findSome? fun sign =>
    if sign.1.isPrefixOf cs then (operandText? (cs.drop sign.1.length)).map (sign.2, ·) else none

/-- The operand of a condition on the ancestors. -/
def ancestorOperand? (cs : List Char) : Option (List Char) := do
  let rest ← keyword? keyProperty.toList cs
  let rest ← skipKeyword? "ancestor" (← skipKeyword? "has" rest)
  operandText? (← skipBlanks? rest)

/-- The condition that a text states. -/
def condition (q : GqlQuery) (cs : List Char) : Except Error Condition :=
  match ancestorOperand? cs with
  | some text => do
    match ← operand q text with
    | .single ⟨.key k, _⟩ => return .hasAncestor k
    | _ => throw GqlFault.ancestorValue.error
  | none =>
    let parsed := do
      let (property, rest) ← run? isWord cs
      let (relation, text) ← comparison? (trimStart rest)
      return (property, relation, text)
    match parsed with
    | some (property, relation, text) =>
      .compare (String.ofList property) relation <$> operand q text
    | none => .error (GqlFault.condition (String.ofList cs)).error

/-- The direction after a property, ascending if nothing is said. -/
def direction? (cs : List Char) : Option Direction :=
  if cs.isEmpty then some .ascending
  else
    (skipBlanks? cs).bind fun word =>
      if isKeyword "asc" word then some .ascending
      else if isKeyword "desc" word then some .descending
      else none

/-- The order that a text states. -/
def order (cs : List Char) : Except Error Order :=
  let parsed := do
    let (property, rest) ← run? isWord cs
    return Order.mk (String.ofList property) (← direction? rest)
  match parsed with
  | some o => .ok o
  | none => .error (GqlFault.order (String.ofList cs)).error

/-- What the rows are for a selection, and the projections. -/
def selection (requested : ResultType) (cs : List Char) : ResultType × List Projection :=
  if trim cs = ['*'] then (.full, [])
  else if trim cs = keyProperty.toList then
    (if requested = .projection then .projection else .keyOnly, [⟨keyProperty, false⟩])
  else (.projection, (itemTexts (trim cs)).map fun name => ⟨String.ofList name, false⟩)

/-- One condition alone is the filter, several are conjoined. -/
def filter? : List Condition → Option Filter
  | [] => none
  | [c] => some (.condition c)
  | cs => some (.all (cs.map .condition))

/-- The structured query that a text denotes.  The rows it selects have to be of the requested type,
if one is requested. -/
def structured (q : GqlQuery) : Except Error StructuredQuery := do
  match Clauses.ofText? q.text.toList with
  | none => throw (GqlFault.unsupported q.text).error
  | some clauses =>
    let (resultType, projections) := selection q.resultType clauses.selected
    if q.resultType ≠ .unknown ∧ q.resultType ≠ resultType then
      throw (GqlFault.resultType resultType.name q.resultType.name).error
    let conditions ← match clauses.conditions? with
      | none => pure []
      | some text => (conditionTexts text).mapM (condition q)
    let orders ← match clauses.orders? with
      | none => pure []
      | some text => (itemTexts text).mapM order
    let limit ← clauses.limit?.mapM digits
    let offset ← clauses.offset?.mapM digits
    return {
      resultType, namespaceName := q.namespaceName, kind := some (String.ofList clauses.kind),
      filter := filter? conditions, orders, projections, groupBy := [], limit,
      offset := offset.getD 0 }

end EntityStore.Gql
