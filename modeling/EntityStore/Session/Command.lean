import EntityStore.Client.Ambient
import EntityStore.Client.Basic

set_option autoImplicit false

namespace EntityStore

/-- What is asked of the store itself. -/
inductive StoreOperation where
  | commit | query | lookup | begin | rollback | allocate | count | calls
deriving DecidableEq

/-- What is asked of the client. -/
inductive ClientOperation where
  | get | getMany
  | write (kind : MutationKind)
  | allocateId | allocateIds | run | newBatch | newTransaction | newKeyFactory
deriving DecidableEq

/-- What is asked of a batch or a transaction. -/
inductive WriterOperation where
  | stage (kind : MutationKind)
  | submit | commit | rollback | get | getMany | run | state | during
deriving DecidableEq

/-- What is asked of a key factory. -/
inductive FactoryOperation where
  | dataset | space | kind | ancestors | addAncestors | newKey | allocateId | allocateIds
deriving DecidableEq

/-- What is asked of the rows of a query. -/
inductive ResultsOperation where
  | hasNext | next | drain | type
deriving DecidableEq

/-- What is asked about coordination from outside. -/
inductive AmbientOperation where
  | current | install | reset | attach | offered | take | synchronize | before | after | result | isStore
deriving DecidableEq

inductive Operation where
  | store (o : StoreOperation)
  | client (o : ClientOperation)
  | writer (o : WriterOperation)
  | factory (o : FactoryOperation)
  | results (o : ResultsOperation)
  | ambient (o : AmbientOperation)
deriving DecidableEq

namespace Operation

/-- The operations by name. -/
def named : List (String × Operation) :=
  [("store.commit", store .commit), ("store.query", store .query), ("store.lookup", store .lookup),
    ("store.begin", store .begin), ("store.rollback", store .rollback),
    ("store.allocate", store .allocate), ("store.count", store .count),
    ("store.calls", store .calls),
    ("client.get", client .get), ("client.get_many", client .getMany),
    ("client.add", client (.write .add)), ("client.put", client (.write .put)),
    ("client.update", client (.write .update)), ("client.delete", client (.write .delete)),
    ("client.allocate_id", client .allocateId), ("client.allocate_ids", client .allocateIds),
    ("client.run", client .run), ("client.new_batch", client .newBatch),
    ("client.new_transaction", client .newTransaction),
    ("client.new_key_factory", client .newKeyFactory),
    ("writer.add", writer (.stage .add)), ("writer.put", writer (.stage .put)),
    ("writer.update", writer (.stage .update)), ("writer.delete", writer (.stage .delete)),
    ("writer.submit", writer .submit), ("writer.commit", writer .commit),
    ("writer.rollback", writer .rollback), ("writer.get", writer .get),
    ("writer.get_many", writer .getMany), ("writer.run", writer .run),
    ("writer.state", writer .state), ("writer.with", writer .during),
    ("factory.dataset", factory .dataset), ("factory.namespace", factory .space),
    ("factory.kind", factory .kind), ("factory.ancestors", factory .ancestors),
    ("factory.add_ancestor", factory .addAncestors), ("factory.new_key", factory .newKey),
    ("factory.allocate_id", factory .allocateId), ("factory.allocate_ids", factory .allocateIds),
    ("results.has_next", results .hasNext), ("results.next", results .next),
    ("results.drain", results .drain), ("results.type", results .type),
    ("ambient.current", ambient .current), ("ambient.install", ambient .install),
    ("ambient.reset", ambient .reset), ("ambient.attach", ambient .attach),
    ("ambient.offered", ambient .offered), ("ambient.take", ambient .take),
    ("ambient.sync", ambient .synchronize), ("ambient.before", ambient .before),
    ("ambient.after", ambient .after), ("ambient.result", ambient .result),
    ("ambient.is_store", ambient .isStore)]

def ofName? (name : String) : Option Operation := Bindings.at? named name

end Operation

/-- A step of a session. -/
structure Command where
  operation : Operation
  /-- The name of the object that the operation is about. -/
  target? : Option String
  arguments : List Datum
  /-- The query of the step, or why there is none. -/
  query : Except Error Query
  mutations : List Mutation
  /-- The name of a transaction, or the text of its handle. -/
  transaction? : Option String
  /-- Whether the work with a transaction commits it. -/
  commits : Bool
  /-- Whether the work with a transaction fails in the end. -/
  gives : Bool
  /-- The name under which the result is kept. -/
  keepAs? : Option String

/-- What a step answers. -/
inductive Reply where
  /-- There is no object of the name that is needed. -/
  | unset
  | failed (e : Error)
  | nothing
  | done
  | truth (b : Bool)
  | number (n : Nat)
  | handle (h : Handle)
  | key (k : AnyKey)
  | keys (keys : List Key)
  | found (e? : Option Entity)
  | allFound (entities : List (Option Entity))
  | rows (rows : List Datum)
  | row (row : Datum)
  | response (r : CommitResponse)
  | page (p : QueryPage)
  | calls (calls : List StoreCall)
  | batch (b : Batch)
  | transaction (t : Transaction)
  | results (resultType : ResultType)
  | result (r : CommitResult)
  | coordinated (b : Bool)
  | handles (handles : List Handle)

end EntityStore
