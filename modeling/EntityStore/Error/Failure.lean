set_option autoImplicit false

namespace EntityStore

/-- Why an operation gives up without a report. -/
inductive Failure where
  /-- An integer is too large for a double. -/
  | doubleRange
  /-- A moment lies outside the calendar. -/
  | calendarRange
  /-- A moment without an offset has no place in universal time. -/
  | unknownOffset
  /-- A numeral has digits without a place value, or more digits than are read. -/
  | numeral
  /-- There is no further row, or no further key for an entity without. -/
  | exhausted
  /-- A key without an id or name is to be deleted. -/
  | incompleteDelete
  /-- The user of a transaction gave up. -/
  | abandoned
  /-- An argument has a type that the operation has no use for. -/
  | argumentType
  /-- A name that is to stand for a log level stands for something else. -/
  | levelName
  /-- A name that is to stand for an error code stands for none. -/
  | codeName
  /-- A dictionary has nothing under a number that is looked up in it. -/
  | entryMissing
  /-- Something is asked of an object that it does not have. -/
  | unsupported
deriving DecidableEq

end EntityStore
