import EntityStore.Store.Remote

set_option autoImplicit false

namespace EntityStore

/-- The fault as an error. -/
private def callError (fault : CallFault) : Error := .invalid (.call fault)

/-- The keys among some data, all of which have to be complete keys. -/
def completeKeys (operation : String) : List Datum → Except Error (List Key)
  | [] => .ok []
  | .key (.complete k) :: rest => (k :: ·) <$> completeKeys operation rest
  | d :: _ => .error (callError (.keyExpected operation d.typeName))

/-- The entities among some data, all of which have to be entities. -/
def anyEntities (operation : String) : List Datum → Except Error (List AnyEntity)
  | [] => .ok []
  | .entity e :: rest => (e :: ·) <$> anyEntities operation rest
  | d :: _ => .error (callError (.entityExpected operation d.typeName))

/-- The entity with a complete key, if it has one. -/
def AnyEntity.keyed? : AnyEntity → Option Entity
  | .keyed e => some e
  | .draft (.complete k) properties => some ⟨.stored, k, properties⟩
  | .draft (.incomplete _) _ => none

/-- The entities among some data, all of which have to be entities with complete keys. -/
def keyedEntities (operation : String) : List Datum → Except Error (List Entity)
  | [] => .ok []
  | .entity e :: rest =>
    match e.keyed? with
    | some keyed => (keyed :: ·) <$> keyedEntities operation rest
    | none => .error (callError (.keyIncomplete operation e.key))
  | d :: _ => .error (callError (.entityExpected operation d.typeName))

namespace Mutation

def adds (arguments : List Datum) : Except Error (List Mutation) :=
  (List.map fun e => ⟨.add, .entity e⟩) <$> anyEntities "add" arguments

def puts (arguments : List Datum) : Except Error (List Mutation) :=
  (List.map fun e => ⟨.put, .entity (.keyed e)⟩) <$> keyedEntities "put" arguments

def updates (arguments : List Datum) : Except Error (List Mutation) :=
  (List.map fun e => ⟨.update, .entity (.keyed e)⟩) <$> keyedEntities "update" arguments

def deletes (arguments : List Datum) : Except Error (List Mutation) :=
  (List.map fun k => ⟨.delete, .key (.complete k)⟩) <$> completeKeys "delete" arguments

/-- The mutations of a kind for some data. -/
def stage : MutationKind → List Datum → Except Error (List Mutation)
  | .add => adds
  | .put => puts
  | .update => updates
  | .delete => deletes

end Mutation

/-- What a commit that succeeded has made: the keys of the entities that came without, in order. -/
structure CommitResult where
  generated : List Key

/-- The result that a response stands for.  A store has to assign one key to each entity without. -/
def CommitResponse.result (response : CommitResponse) (mutations : List Mutation) :
    Except Error CommitResult :=
  match response.rejection? with
  | some rejection =>
    let message := if rejection.message = "" then "Commit failed" else rejection.message
    .error (.rejected rejection.code message (mutations.map Mutation.text))
  | none =>
    let expected := mutations.countP Mutation.needsId
    if response.assigned.length = expected then .ok ⟨response.assigned⟩
    else .error (.keyCount response.assigned.length expected)

/-- Commits mutations in one call. -/
def Remote.submit {σ : Type} (remote : Remote σ) (mutations : List Mutation)
    (handle? : Option Handle) : StateM σ (Except Error CommitResult) := do
  match ← remote.commit mutations handle? with
  | .error e => return .error e
  | .ok response => return response.result mutations

end EntityStore
