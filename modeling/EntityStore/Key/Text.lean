import EntityStore.Key.Basic
import EntityStore.Text.Quoted

set_option autoImplicit false

namespace EntityStore

open Text

/-- An id in digits, a name in quotes. -/
def Identifier.text : Identifier → String
  | .id n => toString n.value
  | .name l => quoted l.text

/-- A path step with all its fields. -/
def PathElement.text (e : PathElement) : String :=
  let id := match e.identifier? with
    | some (.id n) => toString n.value
    | _ => "None"
  let name := match e.identifier? with
    | some (.name l) => quoted l.text
    | _ => "None"
  "PathElement(kind=" ++ quoted e.kind.text ++ ", id=" ++ id ++ ", name=" ++ name ++ ")"

/-- A path step inside a key. -/
def PathElement.brief (e : PathElement) : String :=
  match e.identifier? with
  | none => e.kind.text
  | some identifier => e.kind.text ++ ":" ++ identifier.text

/-- A key with the parts it has; a missing namespace is left out. -/
def AnyKey.text (k : AnyKey) : String :=
  let label := if k.isComplete then "Key" else "PartialKey"
  let space := match k.toPartialKey.namespaceName with
    | none => ""
    | some l => ", namespace=" ++ quoted l.text
  label ++ "(dataset=" ++ quoted k.toPartialKey.dataset.text ++ space ++ ", path=" ++
    bracketed "[" "]" (k.path.map PathElement.brief) ++ ")"

def Key.text (k : Key) : String := (AnyKey.complete k).text

def PartialKey.text (k : PartialKey) : String := (AnyKey.incomplete k).text

end EntityStore
