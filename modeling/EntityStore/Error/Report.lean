import EntityStore.Error.Basic
import EntityStore.Error.Suggestion

set_option autoImplicit false

namespace EntityStore

/-- What a caller sees of an error.  The message is a text and the details are a dictionary, unless the
report was made from something else. -/
structure Report where
  kind : ErrorKind
  code : ErrorCode
  message : Datum
  details : Datum

namespace Report

/-- Details by name. -/
def detailsOf (entries : List (String × Datum)) : Datum :=
  .dict (entries.map fun e => (.text e.1, e.2))

/-- A report of a kind with the code that goes with it. -/
def ofKind (kind : ErrorKind) (message : String) (details : List (String × Datum)) : Report :=
  ⟨kind, kind.code, .text message, detailsOf details⟩

/-- The report for a failure that a store announced by a code. -/
def ofCode (code : ErrorCode) (message : String) (details : Datum) : Report :=
  ⟨.ofCode code, code, .text message, details⟩

/-- The report of a property that holds something else. -/
def propertyType (property expected actual : Datum) : Report :=
  ofKind .propertyType
    ("Property '" ++ property.inSentence ++ "' is " ++ actual.inSentence ++ ", not " ++
      expected.inSentence)
    [("property_name", property), ("expected", expected), ("actual", actual)]

/-- The report of a missing property, with the names most like it. -/
def propertyMissing (property : Datum) (suggestions : List String) : Report :=
  let hint := if suggestions.isEmpty then "" else
    ". Did you mean: " ++ ", ".intercalate suggestions ++ "?"
  ofKind .propertyNotFound ("No such property '" ++ property.inSentence ++ "'" ++ hint)
    [("property_name", property), ("suggestions", .list (suggestions.map .text))]

/-- The report of a property that is missing among known ones. -/
def missingAmong (property known : Datum) : Except Failure Report :=
  propertyMissing property <$> property.suggestions known

/-- Details as given; what counts as false stands for none. -/
def givenDetails (details : Datum) : Datum := if details.truth then details else .dict []

/-- A general report from a message and, if they are given, the name of a code and details. -/
def general (message code : Datum) (more : List Datum) : Except Failure Report :=
  match code.text?.bind ErrorCode.ofName?, more with
  | none, _ => .error .codeName
  | some code, [] => .ok ⟨.general, code, message, .dict []⟩
  | some code, [details] => .ok ⟨.general, code, message, givenDetails details⟩
  | some _, _ => .error .argumentType

/-- The report of a kind from unchecked data: the names and types of a property error, the message, code
and details of a general error, and the message and details of any other. -/
def create (kind : ErrorKind) (arguments : List Datum) : Except Failure Report :=
  match kind, arguments with
  | .propertyType, [property, expected, actual] => .ok (propertyType property expected actual)
  | .propertyType, _ => .error .argumentType
  | .propertyNotFound, [property] => missingAmong property (.tuple [])
  | .propertyNotFound, [property, known] => missingAmong property known
  | .propertyNotFound, _ => .error .argumentType
  | .general, [message] => .ok ⟨.general, ErrorKind.general.code, message, .dict []⟩
  | .general, message :: code :: more => general message code more
  | kind, [message] => .ok ⟨kind, kind.code, message, .dict []⟩
  | kind, [message, details] => .ok ⟨kind, kind.code, message, givenDetails details⟩
  | _, _ => .error .argumentType

end Report

/-- The report of an error; failures have none. -/
def Error.report? : Error → Option Report
  | .invalid fault => some (.ofKind .invalidArgument fault.message [])
  | .propertyType property expected actual =>
    some (.propertyType (.text property) (.text expected.name) (.text actual.name))
  | .propertyMissing property known =>
    some (.propertyMissing (.text property) (Similar.closeTo property known))
  | .inactive label => some (.ofKind .failedPrecondition (label ++ " is no longer active") [])
  | .finished state =>
    some (.ofKind .failedPrecondition ("Transaction is not usable: " ++ state.name)
      [("state", .text state.name)])
  | .unknownTransaction handle =>
    some (.ofKind .failedPrecondition "Unknown or finished transaction" [("handle", .text handle)])
  | .rejected code message mutations =>
    some (.ofCode code message (.dict [(.text "mutations", .list (mutations.map .text))]))
  | .keyCount assigned expected =>
    some (.ofKind .general ("Store assigned " ++ toString assigned ++ " keys for " ++
      toString expected ++ " incomplete adds") [])
  | .remote code message => some ⟨.general, code, .text message, .dict []⟩
  | .failure _ => none

end EntityStore
