import EntityStore.Key.Text
import EntityStore.Number.Shortest
import EntityStore.Value.Basic

set_option autoImplicit false

namespace EntityStore

open Text

/-- The marks that differ from what a sort of values has if nothing is said. -/
def Marks.text (variant : Variant) (m : Marks) : String :=
  let indexed := match m.indexed with
    | none => ""
    | some b =>
      if some b = variant.defaultIndexed then "" else ", indexed=" ++ (if b then "True" else "False")
  let meaning := match m.meaning with
    | none => ""
    | some n => ", meaning=" ++ toString n
  indexed ++ meaning

/-- The name of the type of an entity with a complete key. -/
def Shape.typeName : Shape → String
  | .stored => "Entity"
  | .projected => "ProjectionEntity"

mutual

def Scalar.text : Scalar → String
  | .null => "None"
  | .boolean b => if b then "True" else "False"
  | .long n => toString n.value
  | .double x => x.text
  | .string s => quoted s
  | .blob b => quotedBytes b
  | .raw b => quotedBytes b
  | .dateTime t => (OffsetTime.mk t (some 0)).text
  | .key k => k.text
  | .entity e => AnyEntity.text e
termination_by structural a => a

def Element.text : Element → String
  | ⟨s, m⟩ => s.variant.typeName ++ "(" ++ Scalar.text s ++ m.text s.variant ++ ")"
termination_by structural a => a

def itemTexts : List Element → List String
  | [] => []
  | e :: rest => Element.text e :: itemTexts rest
termination_by structural a => a

/-- A value with its payload and the marks that say something. -/
def Value.text : Value → String
  | .single e => Element.text e
  | .list items m =>
    Variant.list.typeName ++ "(" ++ parenthesized (itemTexts items) ++ m.text .list ++ ")"
termination_by structural a => a

def propertyTexts : List (String × Value) → List String
  | [] => []
  | (name, v) :: rest => (quoted name ++ ": " ++ Value.text v) :: propertyTexts rest
termination_by structural a => a

def Entity.text : Entity → String
  | ⟨shape, k, p⟩ =>
    shape.typeName ++ "(key=" ++ k.text ++ ", properties=" ++
      bracketed "\x7b" "\x7d" (propertyTexts p) ++ ")"
termination_by structural a => a

/-- An entity with its key and its properties in order. -/
def AnyEntity.text : AnyEntity → String
  | .draft k p =>
    "PartialEntity(key=" ++ k.text ++ ", properties=" ++
      bracketed "\x7b" "\x7d" (propertyTexts p) ++ ")"
  | .keyed e => Entity.text e
termination_by structural a => a

end

/-- The name of the type of an entity. -/
def AnyEntity.typeName : AnyEntity → String
  | .draft _ _ => "PartialEntity"
  | .keyed e => e.shape.typeName

end EntityStore
