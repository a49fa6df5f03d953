import EntityStore.Error.Basic
import EntityStore.Options.Basic
import EntityStore.Text.Caseless

set_option autoImplicit false

namespace EntityStore

/-- How log lines are laid out. -/
inductive LogLayout where
  | lines (pattern : String)
  | records
deriving DecidableEq

structure Logging where
  level : Nat
  layout : LogLayout
deriving DecidableEq

namespace Logging

/-- The levels by name. -/
def levels : List (String × Nat) :=
  [("DEBUG", 10), ("INFO", 20), ("WARNING", 30), ("WARN", 30), ("ERROR", 40), ("CRITICAL", 50),
    ("FATAL", 50), ("NOTSET", 0)]

/-- The level that a name in letters of any case stands for; most other names stand for the level of
information, but two that belong to something else are refused. -/
def levelOf (name : String) : Except Error Nat :=
  let capitals := String.ofList (name.toList.flatMap Text.capital)
  match Bindings.at? levels capitals with
  | some n => .ok n
  | none =>
    if capitals = "BASIC_FORMAT" then .error (.failure .levelName)
    else if capitals = "_STYLES" then .error (.failure .argumentType)
    else .ok 20

/-- A line of text: when, by whom, at which level, and what. -/
def linePattern : String := "%(asctime)s - %(name)s - %(levelname)s - %(message)s"

def ofOptions (o : Options) : Except Error Logging := do
  let layout := if o.logFormat = "json" then LogLayout.records else .lines linePattern
  return ⟨← levelOf o.logLevel, layout⟩

end Logging

end EntityStore
