import EntityStore.Key.Order
import EntityStore.Value.Basic

set_option autoImplicit false

namespace EntityStore

/-! Equality of values and entities.  Doubles are equal as numbers, so a not-a-number equals nothing.  Items of lists
and values of properties are equal also if they are one object; `identical` tells where they are, and unless it is
given, nothing in one value is an object of the other. -/

mutual

def Scalar.same (a b : Scalar) (identical : Value → Value → Bool := fun _ _ => false) : Bool :=
  match a, b with
  | .null, .null => true
  | .boolean a, .boolean b => a = b
  | .long a, .long b => a = b
  | .double a, .double b => a.same b
  | .string a, .string b => a = b
  | .blob a, .blob b => a = b
  | .raw a, .raw b => a = b
  | .dateTime a, .dateTime b => a = b
  | .key a, .key b => a = b
  | .entity a, .entity b => AnyEntity.same a b identical
  | _, _ => false
termination_by structural a

def Element.same (a b : Element) (identical : Value → Value → Bool := fun _ _ => false) : Bool :=
  match a, b with
  | ⟨a, m⟩, ⟨b, n⟩ => m = n && Scalar.same a b identical
termination_by structural a

def sameItems (items others : List Element) (identical : Value → Value → Bool := fun _ _ => false) : Bool :=
  match items, others with
  | [], [] => true
  | a :: as, b :: bs =>
    (identical (.single a) (.single b) || Element.same a b identical) && sameItems as bs identical
  | _, _ => false
termination_by structural items

/-- Equality of values: the same sort, equal payloads and equal marks. -/
def Value.same (v w : Value) (identical : Value → Value → Bool := fun _ _ => false) : Bool :=
  match v, w with
  | .single a, .single b => Element.same a b identical
  | .list a m, .list b n => m = n && sameItems a b identical
  | _, _ => false
termination_by structural v

/-- Every name not yet seen is bound to an equal value in the other properties. -/
def propertiesWithin (properties : List (String × Value)) (seen : List String) (others : Properties)
    (identical : Value → Value → Bool := fun _ _ => false) : Bool :=
  match properties with
  | [] => true
  | (name, v) :: rest =>
    (seen.contains name ||
      (match others.at? name with
       | some w => identical v w || Value.same v w identical
       | none => false)) && propertiesWithin rest (name :: seen) others identical
termination_by structural properties

def Entity.same (e f : Entity) (identical : Value → Value → Bool := fun _ _ => false) : Bool :=
  match e, f with
  | ⟨_, k, p⟩, ⟨_, l, q⟩ =>
    k = l && propertiesWithin p [] q identical && q.all fun e => Bindings.binds p e.1
termination_by structural e

/-- Equality of entities: equal keys, and equal values under the same names.  Neither the order of the names nor the
shape of an entity matters. -/
def AnyEntity.same (e f : AnyEntity) (identical : Value → Value → Bool := fun _ _ => false) : Bool :=
  match e, f with
  | .draft k p, .draft l q =>
    k = l && propertiesWithin p [] q identical && q.all fun e => Bindings.binds p e.1
  | .draft k p, .keyed ⟨_, l, q⟩ =>
    k = .complete l && propertiesWithin p [] q identical && q.all fun e => Bindings.binds p e.1
  | .keyed ⟨_, k, p⟩, .draft l q =>
    .complete k = l && propertiesWithin p [] q identical && q.all fun e => Bindings.binds p e.1
  | .keyed a, .keyed b => Entity.same a b identical
termination_by structural e

end

/-- How to number the parts of objects, and numbers of parts taken together.  Equal parts have one number; that of a
collection does not tell in which order its members came. -/
structure Hashing where
  nothing : UInt64
  variant : Variant → UInt64
  truth : Bool → UInt64
  integer : Int → UInt64
  double : Double → UInt64
  text : String → UInt64
  bytes : List UInt8 → UInt64
  moment : CivilTime → UInt64
  sequence : List UInt64 → UInt64
  collection : List UInt64 → UInt64
  double_same : ∀ x y : Double, x.same y = true → double x = double y
  collection_perm : ∀ members others : List UInt64, members.Perm others → collection members = collection others

namespace Hashing

/-- The number of a part that may be absent. -/
def optional {α : Type} (h : Hashing) (number : α → UInt64) (part? : Option α) : UInt64 :=
  (part?.map number).getD h.nothing

/-- The numbering that is used. -/
def standard : Hashing where
  nothing := 1
  variant v := hash v.name
  truth b := hash b
  integer n := hash n
  double x := hash x.place
  text s := hash s
  bytes b := hash b
  moment t := hash t.toMicros
  sequence parts := parts.foldr mixHash 11
  collection members := members.foldr (· + ·) 0
  double_same x y same := by
    simp only [Double.same, Bool.and_eq_true, beq_iff_eq] at same
    rw [same.2]
  collection_perm members others reordered := by
    induction reordered with
    | nil => rfl
    | cons first _ ih => rw [List.foldr_cons, List.foldr_cons, ih]
    | swap first second rest =>
      rw [List.foldr_cons, List.foldr_cons, List.foldr_cons, List.foldr_cons, ← UInt64.add_assoc,
        UInt64.add_comm second, UInt64.add_assoc]
    | trans _ _ ih ih' => exact ih.trans ih'

end Hashing

variable (h : Hashing)

/-- A number that equal path steps share. -/
def PathElement.fingerprint (e : PathElement) : UInt64 :=
  h.sequence [h.text e.kind.text,
    h.optional (fun n : EntityId => h.integer n.value) (e.identifier?.bind Identifier.id?),
    h.optional (fun l : Label => h.text l.text) (e.identifier?.bind Identifier.name?)]

/-- A number that equal keys share. -/
def AnyKey.fingerprint (k : AnyKey) : UInt64 :=
  let space := k.toPartialKey
  h.sequence [h.text space.dataset.text, h.optional (fun l : Label => h.text l.text) space.namespaceName,
    h.sequence (space.ancestors.map fun a => a.element.fingerprint h), h.text space.kind.text,
    h.optional (fun n : EntityId => h.integer n.value) (k.identifier?.bind Identifier.id?),
    h.optional (fun l : Label => h.text l.text) (k.identifier?.bind Identifier.name?)]

/-- The number of a value, given that of its payload. -/
def Marks.fingerprint (m : Marks) (variant : Variant) (payload : UInt64) : UInt64 :=
  h.sequence [h.variant variant, payload, h.optional h.truth m.indexed, h.optional h.integer m.meaning]

mutual

def Scalar.fingerprint : Scalar → UInt64
  | .null => h.nothing
  | .boolean b => h.truth b
  | .long n => h.integer n.value
  | .double x => h.double x
  | .string s => h.text s
  | .blob b => h.bytes b
  | .raw b => h.bytes b
  | .dateTime t => h.moment t
  | .key k => (AnyKey.complete k).fingerprint h
  | .entity e => AnyEntity.fingerprint e
termination_by structural a => a

def Element.fingerprint : Element → UInt64
  | ⟨s, m⟩ => m.fingerprint h s.variant (Scalar.fingerprint s)
termination_by structural a => a

def itemFingerprints : List Element → List UInt64
  | [] => []
  | e :: rest => Element.fingerprint e :: itemFingerprints rest
termination_by structural a => a

/-- A number that equal values share. -/
def Value.fingerprint : Value → UInt64
  | .single e => Element.fingerprint e
  | .list items m => m.fingerprint h .list (h.sequence (itemFingerprints items))
termination_by structural a => a

/-- The names not yet seen, with the numbers of their values. -/
def propertyFingerprints : List (String × Value) → List String → List (String × UInt64)
  | [], _ => []
  | (name, v) :: rest, seen =>
    if seen.contains name then propertyFingerprints rest seen
    else (name, Value.fingerprint v) :: propertyFingerprints rest (name :: seen)
termination_by structural a => a

def Entity.fingerprint : Entity → UInt64
  | ⟨_, k, p⟩ =>
    h.sequence [(AnyKey.complete k).fingerprint h,
      h.collection ((propertyFingerprints p []).map fun e => h.sequence [h.text e.1, e.2])]
termination_by structural a => a

/-- A number that equal entities share. -/
def AnyEntity.fingerprint : AnyEntity → UInt64
  | .draft k p =>
    h.sequence [k.fingerprint h,
      h.collection ((propertyFingerprints p []).map fun e => h.sequence [h.text e.1, e.2])]
  | .keyed e => Entity.fingerprint e
termination_by structural a => a

end

end EntityStore
