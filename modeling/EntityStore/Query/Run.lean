import EntityStore.Gql.Query
import EntityStore.Index.Visible
import EntityStore.Sort.Keyed

set_option autoImplicit false

namespace EntityStore

/-- A row of a query. -/
inductive Row where
  | entity (e : Entity)
  | key (k : Key)

namespace Condition

def holds (c : Condition) (e : Entity) : Bool :=
  match c with
  | hasAncestor k => e.key.isWithin k
  | compare property relation value =>
    match value.target? with
    | none => false
    | some target =>
      (e.entries property).any fun entry => entry.rank == target.rank && relation.holds entry target

/-- Lists and nested entities cannot be compared with. -/
def check (c : Condition) : Except Error Unit :=
  match c with
  | hasAncestor _ => .ok ()
  | compare property _ value =>
    if value.variant = .list ∨ value.variant = .entity then
      .error (QueryFault.filterValue property value.variant).error
    else .ok ()

end Condition

/-- A place that holds one of the visible elements of a property of an entity. -/
structure Place where
  key : Key
  name : String
  position : Nat
deriving DecidableEq

/-- One way to show a property in a projected row: which of the visible elements it is, and what is
shown of it. -/
structure Choice where
  name : String
  position : Nat
  element : Element

/-- A projected row while it still says where its values come from. -/
structure ProjectedRow where
  key : Key
  choices : List Choice

namespace ProjectedRow

/-- The row as an entity. -/
def entity (r : ProjectedRow) : Entity :=
  ⟨.projected, r.key, Bindings.ofPairs (r.choices.map fun c => (c.name, .single c.element))⟩

/-- What the row shows of a property. -/
def shown? (r : ProjectedRow) (name : String) : Option Choice :=
  (r.choices.filter (·.name = name)).getLast?

/-- The place from which the row took what it chose. -/
def source (r : ProjectedRow) (c : Choice) : Place := ⟨r.key, c.name, c.position⟩

-- Places that hold one object are given the same place.
variable (objects : Place → Place)

/-- Whether what two rows chose is one object that is a not-a-number.  Any other object equals itself. -/
def sharesNaN (r s : ProjectedRow) (c d : Choice) : Bool :=
  c.element.isNaN && d.element.isNaN && objects (r.source c) = objects (s.source d)

/-- Whether two rows agree on a property: both lack it, or they show equal values or one object under
its name.  The key is not among the properties. -/
def agreesOn (r s : ProjectedRow) (name : String) : Bool :=
  match r.shown? name, s.shown? name with
  | none, none => true
  | some c, some d => c.element.same d.element || r.sharesNaN objects s c d
  | _, _ => false

/-- The first row of each group. -/
def firstPerGroup (groupBy : List String) (rows : List ProjectedRow) : List ProjectedRow :=
  (rows.foldl (fun kept row =>
    if kept.any fun earlier => groupBy.all (earlier.agreesOn objects row) then kept else row :: kept)
    []).reverse

/-- The row as it is answered. -/
def row (r : ProjectedRow) : Row := .entity r.entity

end ProjectedRow

/-- All ways to take one item of each list, in the order of the lists, where the last list varies
fastest. -/
def combinations {α : Type} : List (List α) → List (List α)
  | [] => [[]]
  | items :: rest => items.flatMap fun item => (combinations rest).map (item :: ·)

namespace Entity

/-- The choices that an entity leaves for a projected property. -/
def choices (e : Entity) (name : String) : List Choice :=
  (((e.property? name).map Value.projected).getD []).zipIdx.map fun found =>
    ⟨name, found.2, found.1⟩

/-- One row for each way to choose a value for every projected property other than the key. -/
def project (e : Entity) (names : List String) : List ProjectedRow :=
  (combinations ((names.filter (· ≠ keyProperty)).map e.choices)).map (⟨e.key, ·⟩)

/-- The entity together with the entry that an order looks at. -/
def keyedBy (o : Order) (e : Entity) : Option (IndexEntry × Entity) :=
  match e.entries o.property with
  | [] => none
  | first :: more =>
    some (match o.direction with
      | .ascending => first.smallest more
      | .descending => first.largest more, e)

end Entity

/-- The rows of a projection of some entities. -/
def ProjectedRow.ofEntities (entities : List Entity) (names : List String) : List ProjectedRow :=
  entities.flatMap (·.project names)

/-- Entities in an order; ties stay as they were. -/
def Order.sort (o : Order) (entities : List Entity) : List Entity :=
  let keyed := entities.filterMap (Entity.keyedBy o)
  match o.direction with
  | .ascending => Sort.ascending IndexEntry.below IndexEntry.isComparable keyed
  | .descending => Sort.descending IndexEntry.below IndexEntry.isComparable keyed

namespace StructuredQuery

/-- Whether an entity has the kind and lies in the namespace of the query. -/
def inScope (q : StructuredQuery) (e : Entity) : Bool :=
  e.key.namespaceName.map Label.text = q.namespaceName.filter (· ≠ "") &&
  q.kind.all (· = e.key.kind.text)

/-- Whether the query selects an entity. -/
def selects (q : StructuredQuery) (e : Entity) : Bool :=
  q.inScope e && q.conditions.all (·.holds e) && q.orders.all fun o => !(e.entries o.property).isEmpty

/-- The selected entities in order; ties are broken by key. -/
def select (q : StructuredQuery) (entities : List Entity) : List Entity :=
  let byKey := entities.mergeSort fun a b => (KeyPlace.cmp a.key.place b.key.place).isLE
  q.orders.foldr Order.sort (byKey.filter q.selects)

/-- All rows for the selected entities.  Unless `objects` says otherwise, no two places hold one object. -/
def rows (q : StructuredQuery) (selected : List Entity) (objects : Place → Place := id) : List Row :=
  match q.resultType with
  | .keyOnly => selected.map fun e => .key e.key
  | .projection =>
    let rows := ProjectedRow.ofEntities selected q.projected
    let rows := if q.groupBy.isEmpty then rows else ProjectedRow.firstPerGroup objects q.groupBy rows
    rows.map ProjectedRow.row
  | _ => selected.map .entity

/-- The rows that offset and limit leave. -/
def window (q : StructuredQuery) (rows : List Row) : List Row :=
  match q.limit with
  | none => rows.drop q.offset
  | some limit => (rows.drop q.offset).take limit

/-- Conditions compare with plain values, and only projected properties of projected rows can be
grouped by. -/
def check (q : StructuredQuery) : Except Error Unit := do
  q.conditions.forM Condition.check
  if !q.groupBy.isEmpty && q.resultType ≠ .projection then
    throw QueryFault.groupByResult.error
  match q.groupBy.find? fun name => !q.projected.contains name with
  | some name => throw (QueryFault.groupByProperty name).error
  | none => return ()

/-- The keys below which a query looks for entities. -/
def scopes (q : StructuredQuery) : List Key :=
  q.conditions.filterMap fun
    | .hasAncestor k => some k
    | .compare _ _ _ => none

end StructuredQuery

/-- The query in structured form. -/
def Query.toStructured : Query → Except Error StructuredQuery
  | .structured q => .ok q
  | .gql q => Gql.structured q
  | .bare t n => .error (QueryFault.unsupportedType (bare t n).typeName).error

end EntityStore
