import EntityStore.Error.Failure
import EntityStore.Options.Basic

/-!
Options from the environment.  The names of variables are read in letters of any case.  The options for
retries are a structured setting, and each of them can also stand in a variable of its own, which wins.
-/

set_option autoImplicit false

namespace EntityStore

namespace Options

/-- What the names of all variables for options start with. -/
def variableStart : String := "datastore_"

/-- The variables with their names in small letters; of two with one name the later one counts. -/
def namedVariables (environment : List (String × String)) : Bindings String String :=
  Bindings.ofPairs (environment.map fun v => (v.1.map Char.toLower, v.2))

/-- The settings for retries that have variables of their own. -/
def retryVariables (environment : Bindings String String) : Bindings String Datum :=
  let start := (variableStart ++ "retry__").toList
  environment.foldl (fun found v =>
    if start.isPrefixOf v.1.toList then
      match (String.ofList (v.1.toList.drop start.length)).splitOn "__" with
      | [name] => Bindings.put found name (.text v.2)
      | name :: _ => if Bindings.binds found name then found else Bindings.put found name (.dict [])
      | [] => found
    else found) []

/-- The name of an option for retries that a name in letters of any case stands for. -/
def retryName (name : String) : String :=
  (RetryOptions.names.find? (· = name.map Char.toLower)).getD name

/-- A record that takes in the entries of another one, which win. -/
def merged (entries : List (String × Datum)) (others : List (String × Datum)) :
    List (String × Datum) :=
  others.foldl (fun made e => Bindings.put made e.1 e.2) entries

/-- The entries of a record that have texts as names. -/
def namedEntries (entries : List (Datum × Datum)) : List (String × Datum) :=
  entries.filterMap fun
    | (.text name, d) => some (name, d)
    | _ => none

/-- A record with texts as names. -/
def record (entries : List (String × Datum)) : Datum := .dict (entries.map fun e => (.text e.1, e.2))

/-- The setting for retries in the environment, if there is one. -/
def retrySetting? (environment : Bindings String String) :
    Except OptionError (Option Datum) :=
  let own := retryVariables environment
  let renamed (entries : List (String × Datum)) : Datum :=
    record (Bindings.ofPairs (entries.map fun e => (retryName e.1, e.2)))
  match environment.at? (variableStart ++ "retry") with
  | none => .ok (if own.isEmpty then none else some (renamed own))
  | some s =>
    match Json.read? s with
    | none => .error .malformed
    | some .none => .ok none
    | some (.dict entries) => .ok (some (renamed (merged (namedEntries entries) own)))
    | some d => .ok (some d)

/-- The settings in the environment. -/
def environmentSettings (environment : List (String × String)) :
    Except OptionError (List (String × Datum)) := do
  let vars := namedVariables environment
  let retry? ← retrySetting? vars
  return names.filterMap fun name =>
    if name = "retry" then retry?.map (name, ·)
    else (vars.at? (variableStart ++ name)).map fun s => (name, .text s)

/-- A setting that takes in an argument: records are merged, other settings replaced. -/
def override (settings : Bindings String Datum) (name : String) (argument : Datum) :
    Bindings String Datum :=
  match settings.at? name, argument with
  | some (.dict old), .dict new =>
    settings.put name (record (merged (namedEntries old) (namedEntries new)))
  | _, argument => settings.put name argument

/-- The options for some arguments and variables. -/
def ofSources (arguments : List (String × Datum)) (environment : List (String × String)) :
    Except OptionError Options := do
  let settings ← environmentSettings environment
  match create (arguments.foldl (fun made a => override made a.1 a.2) settings) with
  | .ok options => return options
  | .error issues => throw (.invalid issues)

/-- An option as it is shown: plain, or the options for retries. -/
inductive Setting where
  | plain (d : Datum)
  | retry (r : RetryOptions)

/-- A text or nothing as a datum. -/
def textOrNone : Option String → Datum
  | none => .none
  | some s => .text s

/-- The options by name. -/
def settings (o : Options) : Bindings String Setting :=
  [("dataset", .plain (.text o.dataset)), ("namespace", .plain (textOrNone o.namespaceName)),
    ("host", .plain (.text o.host)), ("credentials_file", .plain (textOrNone o.credentialsFile)),
    ("retry", .retry o.retry), ("log_level", .plain (.text o.logLevel)),
    ("log_format", .plain (.text o.logFormat))]

/-- Options with some of them replaced, without any checks. -/
def replaced (settings : Bindings String Setting) (changes : List (String × Datum)) :
    Bindings String Setting :=
  changes.foldl (fun made c => made.put c.1 (.plain c.2)) settings

/-- The issue of an assignment to one of the options, or of the options for retries.  Those are fixed;
names that start with an underscore are none of them and can be assigned.  If the options for retries
were replaced, there is nothing to assign to. -/
def assignment (settings : Bindings String Setting) (toRetry : Bool) (name : String) :
    Except Failure (Option OptionIssue) :=
  match toRetry, settings.at? "retry" with
  | true, some (.plain _) => .error .unsupported
  | _, _ => .ok (if name.startsWith "_" then none else some ⟨[name], .frozen⟩)

def Setting.text : Setting → String
  | .plain d => d.describe
  | .retry r => r.text

/-- The options in a text, which leaves the credentials out. -/
def text (settings : Bindings String Setting) : String :=
  let shown := settings.filter fun s => names.contains s.1 && s.1 ≠ "credentials_file"
  "DatastoreOptions(" ++ ", ".intercalate (shown.map fun s => s.1 ++ "=" ++ s.2.text) ++ ")"

end Options

end EntityStore
