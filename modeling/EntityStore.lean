import EntityStore.Bindings
import EntityStore.Number.Numeral
import EntityStore.Number.Shortest
import EntityStore.Text.Caseless
import EntityStore.Text.Label
import EntityStore.Text.Quoted
import EntityStore.Time.Calendar
import EntityStore.Key.Order
import EntityStore.Key.Text
import EntityStore.Value.Same
import EntityStore.Value.Text
import EntityStore.Datum
import EntityStore.Error.Basic
import EntityStore.Key.Draft
import EntityStore.Value.Create
import EntityStore.Entity.Draft
import EntityStore.Entity.Read
import EntityStore.Value.Draft
import EntityStore.Query.Draft
import EntityStore.Gql.Query
import EntityStore.Query.Run
import EntityStore.Store.Memory
import EntityStore.Store.Script
import EntityStore.Client.Ambient
import EntityStore.Client.Basic
import EntityStore.Options.Environment
import EntityStore.Options.Logging
import EntityStore.Session.Run
import EntityStore.Proofs.Freshness
import EntityStore.Proofs.Generation
import EntityStore.Proofs.Isolation
import EntityStore.Proofs.Semantics
import EntityStore.Proofs.Paging
import EntityStore.Proofs.Composition
import EntityStore.Proofs.Handles
import EntityStore.Proofs.Eviction
import EntityStore.Proofs.Lifecycle
import EntityStore.Proofs.Independence
import EntityStore.Proofs.Grouping
import EntityStore.Proofs.Invisibility
import EntityStore.Proofs.Layout
import EntityStore.Proofs.Phrases
import EntityStore.Proofs.Parsing
import EntityStore.Proofs.Grammar
import EntityStore.Proofs.Dissection
import EntityStore.Proofs.Derivation
import EntityStore.Proofs.Refusal
import EntityStore.Proofs.Quotation
import EntityStore.Proofs.Provenance
import EntityStore.Proofs.Acceptance
import EntityStore.Proofs.Timestamps
import EntityStore.Proofs.Equivalence
import EntityStore.Proofs.Interruption
import EntityStore.Proofs.Rejection
import EntityStore.Proofs.Projection
import EntityStore.Proofs.Comparison
import EntityStore.Proofs.Addition
import EntityStore.Proofs.Submission
import EntityStore.Proofs.KeyComparison
import EntityStore.Proofs.Readers
import EntityStore.Proofs.Ancestry
import EntityStore.Proofs.Draining
import EntityStore.Proofs.Conjunction
import EntityStore.Proofs.Rebuilding
import EntityStore.Proofs.Overwriting
import EntityStore.Proofs.InsertionOrder
import EntityStore.Proofs.ValueDrafts
import EntityStore.Proofs.QueryDrafts
import EntityStore.Proofs.Representation
import EntityStore.Proofs.IndexRows
import EntityStore.Proofs.FilterOrder
