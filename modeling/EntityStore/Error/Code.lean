set_option autoImplicit false

namespace EntityStore

inductive ErrorCode where
  | invalidArgument | notFound | alreadyExists | aborted | failedPrecondition | unavailable
  | deadlineExceeded | unknown
deriving DecidableEq

namespace ErrorCode

def name : ErrorCode → String
  | invalidArgument => "INVALID_ARGUMENT"
  | notFound => "NOT_FOUND"
  | alreadyExists => "ALREADY_EXISTS"
  | aborted => "ABORTED"
  | failedPrecondition => "FAILED_PRECONDITION"
  | unavailable => "UNAVAILABLE"
  | deadlineExceeded => "DEADLINE_EXCEEDED"
  | unknown => "UNKNOWN"

def all : List ErrorCode :=
  [invalidArgument, notFound, alreadyExists, aborted, failedPrecondition, unavailable,
    deadlineExceeded, unknown]

def ofName? (s : String) : Option ErrorCode := all.find? (·.name = s)

/-- Whether an operation that failed with the code may succeed if it is tried again. -/
def retryable : ErrorCode → Bool
  | aborted => true
  | unavailable => true
  | deadlineExceeded => true
  | _ => false

end ErrorCode

/-- The kinds of errors that the library reports. -/
inductive ErrorKind where
  | general | invalidArgument | propertyType | propertyNotFound | entityNotFound | alreadyExists
  | aborted | failedPrecondition
deriving DecidableEq

namespace ErrorKind

def name : ErrorKind → String
  | general => "DatastoreError"
  | invalidArgument => "InvalidArgumentError"
  | propertyType => "PropertyTypeError"
  | propertyNotFound => "PropertyNotFoundError"
  | entityNotFound => "EntityNotFoundError"
  | alreadyExists => "AlreadyExistsError"
  | aborted => "AbortedError"
  | failedPrecondition => "FailedPreconditionError"

def all : List ErrorKind :=
  [general, invalidArgument, propertyType, propertyNotFound, entityNotFound, alreadyExists, aborted,
    failedPrecondition]

def ofName? (s : String) : Option ErrorKind := all.find? (·.name = s)

/-- The code that errors of a kind carry if nothing else is said. -/
def code : ErrorKind → ErrorCode
  | general => .unknown
  | invalidArgument => .invalidArgument
  | propertyType => .invalidArgument
  | propertyNotFound => .notFound
  | entityNotFound => .notFound
  | alreadyExists => .alreadyExists
  | aborted => .aborted
  | failedPrecondition => .failedPrecondition

/-- The kind of error that stands for a failure reported by a store. -/
def ofCode : ErrorCode → ErrorKind
  | .invalidArgument => invalidArgument
  | .notFound => entityNotFound
  | .alreadyExists => alreadyExists
  | .aborted => aborted
  | .failedPrecondition => failedPrecondition
  | _ => general

end ErrorKind

end EntityStore
