import EntityStore.Key.Text
import EntityStore.Value.Basic

set_option autoImplicit false

namespace EntityStore

open Text

/-- What can be wrong with a key or with the parts it is built from. -/
inductive KeyFault where
  | idType (got : String)
  | idRange (n : Int)
  | nameType (got : String)
  | nameEmpty
  | kind
  | idAndName (kind : String)
  | dataset
  | namespaceType
  | ancestorType (position : Nat) (got : String)
  | ancestorIncomplete (position : Nat) (kind : String)
  | datasetUnset
  | kindUnset
  | identifierUnset
  | kindMissing
  | arguments (types : List String)
deriving DecidableEq

def KeyFault.message : KeyFault → String
  | .idType got => "Key id must be an integer, got " ++ got
  | .idRange n => "Key id must be 1-" ++ toString maxId ++ ", got " ++ toString n
  | .nameType got => "Key name must be a string, got " ++ got
  | .nameEmpty => "Key name cannot be empty"
  | .kind => "Key kind must be a non-empty string"
  | .idAndName of => "Path element of kind '" ++ of ++ "' cannot have both id and name"
  | .dataset => "Key dataset must be a non-empty string"
  | .namespaceType => "Key namespace must be a string"
  | .ancestorType position got =>
    "Ancestor " ++ toString position ++ " must be a PathElement, got " ++ got
  | .ancestorIncomplete position of =>
    "Ancestor " ++ toString position ++ " of kind '" ++ of ++ "' has no id or name"
  | .datasetUnset => "Key dataset is not set"
  | .kindUnset => "Key kind is not set"
  | .identifierUnset => "Key requires an id or a name"
  | .kindMissing => "PartialKey.builder requires a kind"
  | .arguments types => "Unsupported Key.builder arguments: " ++ parenthesized (types.map quoted)

/-- What can be wrong with a value. -/
inductive ValueFault where
  | indexed
  | meaning
  | payload (expected : Variant) (got : String)
  | longRange (n : Int)
  | item (position : Nat) (got : String)
  | nestedList
  | merge (got : String) (target : Variant)
  | payloadUnset (variant : Variant)
  | unsupported (got : String)
deriving DecidableEq

/-- What the payload of a value of each sort has to be; nothing is said for the empty value. -/
def Variant.payloadName : Variant → String
  | .null => "None"
  | .key => "a complete Key"
  | .blob => "bytes"
  | .boolean => "bool"
  | .dateTime => "datetime"
  | .double => "float"
  | .entity => "an entity"
  | .list => "a sequence of values"
  | .long => "int"
  | .raw => "bytes"
  | .string => "str"

def ValueFault.message : ValueFault → String
  | .indexed => "indexed must be a bool"
  | .meaning => "meaning must be an int"
  | .payload .null _ => "NullValue payload must be None"
  | .payload expected got =>
    expected.typeName ++ " payload must be " ++ expected.payloadName ++ ", got " ++ got
  | .longRange n => "LongValue payload " ++ toString n ++ " is out of int64 range"
  | .item position got => "ListValue item " ++ toString position ++ " must be a Value, got " ++ got
  | .nestedList => "ListValue cannot directly contain a ListValue"
  | .merge got target => "Cannot merge " ++ got ++ " into a " ++ target.typeName ++ " builder"
  | .payloadUnset variant => variant.typeName ++ " payload is not set"
  | .unsupported got => "Cannot convert " ++ got ++ " to a Value"

/-- What can be wrong with an entity. -/
inductive EntityFault where
  | incompleteKey (got : String)
  | source (got : String)
  | keyType (got : String)
  | propertyName
deriving DecidableEq

def EntityFault.message : EntityFault → String
  | .incompleteKey got => "Entity requires a complete Key, got " ++ got
  | .source got => "Entity builder needs a key or an entity, got " ++ got
  | .keyType got => "Expected a key, got " ++ got
  | .propertyName => "Property name must be a non-empty string"

/-- What can be wrong with a query that is built or run. -/
inductive QueryFault where
  | filterProperty
  | ancestorKey
  | keyOnlyProjection
  | negativeLimit
  | negativeOffset
  | noProjection
  | textMissing
  | textEmpty
  | unsupportedType (got : String)
  | filterValue (property : String) (variant : Variant)
  | groupByResult
  | groupByProperty (property : String)
deriving DecidableEq

def QueryFault.message : QueryFault → String
  | .filterProperty => "Filter property must be a non-empty string"
  | .ancestorKey => "has_ancestor requires a complete Key"
  | .keyOnlyProjection => "Key-only queries always project __key__"
  | .negativeLimit => "limit cannot be negative"
  | .negativeOffset => "offset cannot be negative"
  | .noProjection => "Projection queries need at least one projection"
  | .textMissing => "GqlQuery.builder requires a query string"
  | .textEmpty => "GQL query string cannot be empty"
  | .unsupportedType got => "Unsupported query type " ++ got
  | .filterValue property variant =>
    "Cannot filter '" ++ property ++ "' on a " ++ variant.name ++ " value"
  | .groupByResult => "group_by requires a projection query"
  | .groupByProperty property => "group_by property '" ++ property ++ "' is not projected"

/-- What can be wrong with a text in the query language. -/
inductive GqlFault where
  | unsupported (text : String)
  | resultType (selected requested : String)
  | order (text : String)
  | ancestorValue
  | condition (text : String)
  | unbound (reference : String)
  | literal (text : String)
  | unrecognized (text : String)
deriving DecidableEq

def GqlFault.message : GqlFault → String
  | .unsupported text => "Unsupported GQL: " ++ quoted text
  | .resultType selected requested =>
    "GQL selects " ++ selected ++ " rows but " ++ requested ++ " were requested"
  | .order text => "Bad ORDER BY clause: " ++ quoted text
  | .ancestorValue => "HAS ANCESTOR needs a key value"
  | .condition text => "Bad WHERE condition: " ++ quoted text
  | .unbound reference => "No value bound to @" ++ reference
  | .literal text => "Literal " ++ text ++ " not allowed, use a binding"
  | .unrecognized text => "Unrecognized literal: " ++ text

/-- What can be wrong with a call to a store or a client. -/
inductive CallFault where
  | pageSize
  | maxCursors
  | lookupKey (got : String)
  | allocateKey (got : String)
  | pageToken (got : String)
  | entityExpected (operation got : String)
  | keyIncomplete (operation : String) (key : AnyKey)
  | keyExpected (operation got : String)
  | factoryKind
  | negativeCount
deriving DecidableEq

def CallFault.message : CallFault → String
  | .pageSize => "page_size must be positive"
  | .maxCursors => "max_cursors must be positive"
  | .lookupKey got => "lookup() expects complete keys, got " ++ got
  | .allocateKey got => "allocate_ids() expects incomplete keys, got " ++ got
  | .pageToken got => "Unknown page token " ++ got
  | .entityExpected operation got => operation ++ "() expects entities, got " ++ got
  | .keyIncomplete operation key => operation ++ "() requires a complete key, got " ++ key.text
  | .keyExpected operation got => operation ++ "() expects complete keys, got " ++ got
  | .factoryKind => "KeyFactory kind is not set"
  | .negativeCount => "count cannot be negative"

/-- A malformed argument. -/
inductive Invalid where
  | key (fault : KeyFault)
  | value (fault : ValueFault)
  | entity (fault : EntityFault)
  | query (fault : QueryFault)
  | gql (fault : GqlFault)
  | call (fault : CallFault)
deriving DecidableEq

def Invalid.message : Invalid → String
  | .key fault => fault.message
  | .value fault => fault.message
  | .entity fault => fault.message
  | .query fault => fault.message
  | .gql fault => fault.message
  | .call fault => fault.message

end EntityStore
