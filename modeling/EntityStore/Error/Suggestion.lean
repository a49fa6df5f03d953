import EntityStore.Datum
import EntityStore.Error.Failure
import EntityStore.Similar

set_option autoImplicit false

namespace EntityStore

namespace Datum

/-- The items under the numbers from zero on: the parts of a sequence, the values of a dictionary. -/
def numbered? : Datum → Option (List Datum)
  | dict entries => (List.range entries.length).mapM fun i =>
    (entries.find? fun e => e.1.same (.int i)).map Prod.snd
  | d => d.parts?

/-- Parts that can be looked up. -/
def lookupParts (parts : List Datum) : Except Failure (List Datum) :=
  if parts.all (·.fingerprint?.isSome) then .ok parts else .error .argumentType

/-- The parts of a datum, which has to fall into some. -/
def partsOf (d : Datum) : Except Failure (List Datum) :=
  match d.parts? with
  | some parts => .ok parts
  | Option.none => .error .argumentType

/-- How well a candidate resembles a name with some parts, if it may be close.  Its parts are looked at
only if its length allows that, and their order only if the parts do.  In a dictionary the items next to
a run would have to be found by number. -/
def resemblance? (name : Datum) (parts : List Datum) (candidate : Datum) :
    Except Failure (Option Similar.Resemblance) := do
  let items ← partsOf candidate
  if !(Similar.Resemblance.ofSizes parts.length items.length).isClose then return Option.none
  let items ← lookupParts items
  if !(Similar.Resemblance.ofItems parts items).isClose then return Option.none
  match candidate.numbered? with
  | Option.none => throw .entryMissing
  | some items =>
    let items ← lookupParts items
    if name.numbered?.isNone && Similar.goesOn items (Similar.indexed parts) then
      throw .entryMissing
    return some (Similar.Resemblance.of parts items)

/-- The close candidates that fewer than three others exceed. -/
def foremost (rated : List (Similar.Resemblance × Datum)) :
    List (Similar.Resemblance × Datum) :=
  let close := rated.filter (·.1.isClose)
  close.filter fun r => (close.filter fun s => r.1.below s.1).length < 3

/-- The known names most like a given one, which have to be texts. -/
def suggestions (name known : Datum) : Except Failure (List String) := do
  let candidates ← partsOf known
  let parts ← lookupParts (← partsOf name)
  let rated ← candidates.filterMapM fun candidate => do
    return (← resemblance? name parts candidate).map fun r => (r, candidate)
  match (foremost rated).mapM fun r => r.2.text?.map fun s => (r.1, s) with
  | some texts => return Similar.best texts
  | Option.none => throw .argumentType

end Datum

end EntityStore
