import EntityStore.Drafting
import EntityStore.Text.Blank
import EntityStore.Value.Draft

set_option autoImplicit false

namespace EntityStore

/-- The fault as an error. -/
def QueryFault.error (fault : QueryFault) : Error := .invalid (.query fault)

namespace Condition

/-- A comparison of a property with the value for a datum. -/
def create (relation : Comparison) (property value : Datum) : Except Error Condition :=
  match property with
  | .text s =>
    if s = "" then .error QueryFault.filterProperty.error
    else compare s relation <$> Value.ofDatum value
  | _ => .error QueryFault.filterProperty.error

/-- The condition that a property holds the empty value. -/
def isNull (property : Datum) : Except Error Condition := create .equal property .none

/-- The condition that an entity lies at or below a key, which has to be complete. -/
def below (key : Datum) : Except Error Condition :=
  match key with
  | .key (.complete k) => .ok (hasAncestor k)
  | _ => .error QueryFault.ancestorKey.error

end Condition

/-- A structured query that is being put together. -/
structure QueryDraft where
  fields : StructuredQuery

/-- A call on a query that is being put together. -/
inductive QueryCall where
  | inNamespace (namespaceName : Option String)
  | kind (kind : Option String)
  | filter (filter : Filter)
  | orders (orders : List Order)
  | projections (projections : List Projection)
  | groupBy (properties : List String)
  | limit (limit : Option Int)
  | offset (offset : Int)
  | build

namespace QueryDraft

open Drafting

/-- A draft for rows of a type that says nothing else. -/
def blank (resultType : ResultType) : QueryDraft :=
  ⟨{ resultType, namespaceName := none, kind := none, filter := none, orders := [], projections := [],
     groupBy := [], limit := none, offset := 0 }⟩

/-- The draft with everything that a query has. -/
def ofQuery (q : StructuredQuery) : QueryDraft := ⟨q⟩

def setNamespace (namespaceName : Option String) : Drafting QueryDraft Unit :=
  change fun d => ⟨{ d.fields with namespaceName }⟩

def setKind (kind : Option String) : Drafting QueryDraft Unit := change fun d => ⟨{ d.fields with kind }⟩

def setFilter (filter : Filter) : Drafting QueryDraft Unit :=
  change fun d => ⟨{ d.fields with filter := some filter }⟩

/-- Adds orders, which break the ties that the ones before them leave. -/
def addOrders (orders : List Order) : Drafting QueryDraft Unit :=
  change fun d => ⟨{ d.fields with orders := d.fields.orders ++ orders }⟩

/-- A query for keys that has its one projection takes no more. -/
def checkProjecting (d : QueryDraft) : Except Error Unit :=
  if d.fields.resultType = .keyOnly ∧ d.fields.projections ≠ [] then .error QueryFault.keyOnlyProjection.error
  else .ok ()

def addProjections (projections : List Projection) : Drafting QueryDraft Unit := do
  let d ← current
  checked d.checkProjecting
  change fun d => ⟨{ d.fields with projections := d.fields.projections ++ projections }⟩

def addGroupBy (properties : List String) : Drafting QueryDraft Unit :=
  change fun d => ⟨{ d.fields with groupBy := d.fields.groupBy ++ properties }⟩

/-- A number of rows is not negative. -/
def rowCount (fault : QueryFault) (n : Int) : Except Error Nat :=
  if n < 0 then .error fault.error else .ok n.toNat

/-- Limits the number of rows, or lifts the limit. -/
def setLimit (limit : Option Int) : Drafting QueryDraft Unit := do
  let limit ← checked (limit.mapM (rowCount .negativeLimit))
  change fun d => ⟨{ d.fields with limit }⟩

/-- Skips a number of rows. -/
def setOffset (offset : Int) : Drafting QueryDraft Unit := do
  let offset ← checked (rowCount .negativeOffset offset)
  change fun d => ⟨{ d.fields with offset }⟩

/-- The query; one for projected rows needs a projection. -/
def build (d : QueryDraft) : Except Error StructuredQuery :=
  if d.fields.resultType = .projection ∧ d.fields.projections = [] then
    .error QueryFault.noProjection.error
  else .ok d.fields

/-- A draft for rows of a type.  One for keys projects the key from the start. -/
def start (resultType : ResultType) : QueryDraft :=
  if resultType = .keyOnly then ((addProjections [⟨keyProperty, false⟩]).perform (blank resultType)).2
  else blank resultType

/-- What a call does.  Only building has a query as its result. -/
def call : QueryCall → Drafting QueryDraft (Option StructuredQuery)
  | .inNamespace namespaceName => quiet (setNamespace namespaceName)
  | .kind kind => quiet (setKind kind)
  | .filter filter => quiet (setFilter filter)
  | .orders orders => quiet (addOrders orders)
  | .projections projections => quiet (addProjections projections)
  | .groupBy properties => quiet (addGroupBy properties)
  | .limit limit => quiet (setLimit limit)
  | .offset offset => quiet (setOffset offset)
  | .build => making build

end QueryDraft

/-- A query in the query language that is being put together. -/
structure GqlDraft where
  fields : GqlQuery

namespace GqlDraft

/-- A draft from a text that is not blank, for rows of a type. -/
def start (resultType : ResultType) (text : Datum) : Except Error GqlDraft :=
  match text with
  | .text s =>
    if s.toList.all Text.isBlank then .error QueryFault.textEmpty.error
    else .ok ⟨⟨resultType, none, s, true, [], []⟩⟩
  | _ => .error QueryFault.textEmpty.error

/-- A draft for rows of a type that is said beforehand. -/
def startTyped (resultType : ResultType) (text : Datum) : Except Error GqlDraft :=
  match text with
  | .none => .error QueryFault.textMissing.error
  | text => start resultType text

def withNamespace (d : GqlDraft) (namespaceName : Option String) : GqlDraft :=
  ⟨{ d.fields with namespaceName }⟩

/-- Replaces the text; the new one is not looked at before the query is run. -/
def withText (d : GqlDraft) (text : String) : GqlDraft := ⟨{ d.fields with text }⟩

/-- Says whether values may stand in the text itself. -/
def allowingLiterals (d : GqlDraft) (allow : Bool) : GqlDraft :=
  ⟨{ d.fields with allowLiteral := allow }⟩

/-- Binds a name to the value for a datum. -/
def bindName (d : GqlDraft) (name : String) (value : Datum) : Except Error GqlDraft := do
  let v ← Value.ofDatum value
  return ⟨{ d.fields with named := d.fields.named.put name v }⟩

/-- Binds the next positions to the values for some data.  If a datum has no value, the ones before it
are bound nevertheless. -/
def bindNext (d : GqlDraft) : List Datum → GqlDraft × Except Error Unit
  | [] => (d, .ok ())
  | value :: rest =>
    match Value.ofDatum value with
    | .ok v => bindNext ⟨{ d.fields with positional := d.fields.positional ++ [v] }⟩ rest
    | .error e => (d, .error e)

def clearBindings (d : GqlDraft) : GqlDraft := ⟨{ d.fields with named := [], positional := [] }⟩

def build (d : GqlDraft) : GqlQuery := d.fields

end GqlDraft

end EntityStore
