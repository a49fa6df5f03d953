import EntityStore.Options.Json
import EntityStore.Options.Numeral

set_option autoImplicit false

namespace EntityStore

/-- How often and at which delays a store may try again. -/
structure RetryOptions where
  maxAttempts : Int
  initialDelay : Int
  maxDelay : Int
  delayMultiplier : Double

structure Options where
  dataset : String
  namespaceName : Option String
  host : String
  credentialsFile : Option String
  retry : RetryOptions
  logLevel : String
  logFormat : String

/-- What is wrong with an option. -/
inductive OptionFault where
  | missing
  | notText
  | emptyDataset
  | unknownFormat (got : String)
  | notRecord
  | notInteger
  | integerText
  | integerSize
  | fraction
  | notFinite
  | notNumber
  | numberText
  | tooSmall
  | unknownName
  | frozen
deriving DecidableEq

namespace OptionFault

def name : OptionFault → String
  | missing => "missing"
  | notText => "string_type"
  | emptyDataset => "value_error"
  | unknownFormat _ => "value_error"
  | notRecord => "model_type"
  | notInteger => "int_type"
  | integerText => "int_parsing"
  | integerSize => "int_parsing_size"
  | fraction => "int_from_float"
  | notFinite => "finite_number"
  | notNumber => "float_type"
  | numberText => "float_parsing"
  | tooSmall => "greater_than_equal"
  | unknownName => "extra_forbidden"
  | frozen => "frozen_instance"

/-- The message of a fault that the name alone does not explain. -/
def message? : OptionFault → Option String
  | emptyDataset => some "Value error, dataset cannot be empty"
  | unknownFormat got =>
    some ("Value error, log_format must be 'text' or 'json', got " ++ Text.quoted got)
  | _ => none

end OptionFault

/-- A fault and the names that lead to the option. -/
structure OptionIssue where
  location : List String
  fault : OptionFault
deriving DecidableEq

/-- Why there are no options. -/
inductive OptionError where
  /-- A structured setting in the environment cannot be read. -/
  | malformed
  | invalid (issues : List OptionIssue)

/-- A checked option, or everything that is wrong with it. -/
abbrev Checked (α : Type) := Except (List OptionIssue) α

namespace Checked

/-- The issues of an option that is not as it should be. -/
def issues {α : Type} : Checked α → List OptionIssue
  | .ok _ => []
  | .error found => found

def fail {α : Type} (location : List String) (fault : OptionFault) : Checked α :=
  .error [⟨location, fault⟩]

/-- A text. -/
def text (location : List String) : Datum → Checked String
  | .text s => .ok s
  | _ => fail location .notText

/-- A text or nothing. -/
def textOrNone (location : List String) : Datum → Checked (Option String)
  | .none => .ok none
  | d => some <$> text location d

/-- The integer that a double is. -/
def integerOfDouble (location : List String) (x : Double) : Checked Int :=
  if Double.infiniteMagnitude ≤ x.magnitude then fail location .notFinite
  else
    match x.toInt? with
    | none => fail location .fraction
    | some n =>
      if -9223372036854775808 < n ∧ n < 9223372036854775808 then .ok n else fail location .integerSize

/-- The integer that a text denotes. -/
def integerOfText (location : List String) (s : String) : Checked Int :=
  match Options.Numeral.integer s.toList with
  | .ok n => .ok n
  | .error .malformed => fail location .integerText
  | .error .oversized => fail location .integerSize

/-- An integer, or a double or a text that stands for one. -/
def integer (location : List String) : Datum → Checked Int
  | .int n => .ok n
  | .bool b => .ok (if b then 1 else 0)
  | .double x => integerOfDouble location x
  | .text s => integerOfText location s
  | _ => fail location .notInteger

/-- A double, or an integer or a text that stands for one. -/
def double (location : List String) : Datum → Checked Double
  | .double x => .ok x
  | .bool b => .ok ((Double.ofInt? (if b then 1 else 0)).getD Double.nan)
  | .int n =>
    match Double.ofInt? n with
    | some x => .ok x
    | none => fail location .notNumber
  | .text s =>
    match Options.Numeral.double? s.toList with
    | some x => .ok x
    | none => fail location .numberText
  | _ => fail location .notNumber

/-- An integer that is not below a bound. -/
def integerFrom (location : List String) (bound : Int) (d : Datum) : Checked Int := do
  let n ← integer location d
  if n < bound then fail location .tooSmall else return n

/-- A double that is at least one, which a not-a-number is not. -/
def doubleFromOne (location : List String) (d : Datum) : Checked Double := do
  let x ← double location d
  let one := Double.ofQuotient false 1 1
  if one.below x || one.same x then return x else fail location .tooSmall

end Checked

/-- The entry of a record under a name. -/
def entry? (entries : List (Datum × Datum)) (name : String) : Option Datum :=
  (entries.find? fun e => e.1.same (.text name)).map Prod.snd

namespace RetryOptions

def standard : RetryOptions := ⟨3, 250, 32000, Double.ofQuotient false 2 1⟩

/-- The options for retries from a record; names without a meaning do not matter. -/
def create (location : List String) (d : Datum) : Checked RetryOptions :=
  match d with
  | .dict entries =>
    let given {α : Type} (name : String) (check : List String → Datum → Checked α) (otherwise : α) :
        Checked α :=
      match entry? entries name with
      | none => .ok otherwise
      | some d => check (location ++ [name]) d
    let maxAttempts := given "max_attempts" (Checked.integerFrom · 1) standard.maxAttempts
    let initialDelay := given "initial_delay_ms" (Checked.integerFrom · 0) standard.initialDelay
    let maxDelay := given "max_delay_ms" (Checked.integerFrom · 0) standard.maxDelay
    let multiplier := given "delay_multiplier" Checked.doubleFromOne standard.delayMultiplier
    match maxAttempts, initialDelay, maxDelay, multiplier with
    | .ok maxAttempts, .ok initialDelay, .ok maxDelay, .ok multiplier =>
      .ok ⟨maxAttempts, initialDelay, maxDelay, multiplier⟩
    | _, _, _, _ =>
      .error (maxAttempts.issues ++ initialDelay.issues ++ maxDelay.issues ++ multiplier.issues)
  | _ => Checked.fail location .notRecord

def names : List String := ["max_attempts", "initial_delay_ms", "max_delay_ms", "delay_multiplier"]

def text (r : RetryOptions) : String :=
  "RetryParams(max_attempts=" ++ toString r.maxAttempts ++ ", initial_delay_ms=" ++
    toString r.initialDelay ++ ", max_delay_ms=" ++ toString r.maxDelay ++ ", delay_multiplier=" ++
    r.delayMultiplier.text ++ ")"

end RetryOptions

namespace Options

def names : List String :=
  ["dataset", "namespace", "host", "credentials_file", "retry", "log_level", "log_format"]

/-- The address of the store if nothing is said. -/
def defaultHost : String := "https://www.googleapis.com"

/-- The dataset is a text that is not empty. -/
def checkDataset : Option Datum → Checked String
  | none => Checked.fail ["dataset"] .missing
  | some d => do
    let s ← Checked.text ["dataset"] d
    if s = "" then Checked.fail ["dataset"] .emptyDataset else return s

/-- The format of log lines is one of two. -/
def checkFormat (d : Datum) : Checked String := do
  let s ← Checked.text ["log_format"] d
  if s = "text" ∨ s = "json" then return s else Checked.fail ["log_format"] (.unknownFormat s)

/-- The options from a record of settings. -/
def create (settings : List (String × Datum)) : Checked Options :=
  let setting (name : String) (otherwise : Datum) : Datum :=
    (Bindings.at? settings name).getD otherwise
  let dataset := checkDataset (Bindings.at? settings "dataset")
  let namespaceName := Checked.textOrNone ["namespace"] (setting "namespace" .none)
  let host := Checked.text ["host"] (setting "host" (.text defaultHost))
  let credentials := Checked.textOrNone ["credentials_file"] (setting "credentials_file" .none)
  let retry := RetryOptions.create ["retry"] (setting "retry" (.dict []))
  let level := Checked.text ["log_level"] (setting "log_level" (.text "INFO"))
  let format := checkFormat (setting "log_format" (.text "text"))
  let unknown := ((settings.map Prod.fst).filter (!names.contains ·)).map fun name =>
    OptionIssue.mk [name] .unknownName
  match dataset, namespaceName, host, credentials, retry, level, format, unknown with
  | .ok dataset, .ok namespaceName, .ok host, .ok credentialsFile, .ok retry, .ok logLevel,
    .ok logFormat, [] =>
    .ok { dataset, namespaceName, host, credentialsFile, retry, logLevel, logFormat }
  | _, _, _, _, _, _, _, _ =>
    .error (dataset.issues ++ namespaceName.issues ++ host.issues ++ credentials.issues ++
      retry.issues ++ level.issues ++ format.issues ++ unknown)

end Options

end EntityStore
