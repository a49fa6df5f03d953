import EntityStore.Sort.Adaptive

set_option autoImplicit false

namespace EntityStore.Sort

variable {α κ : Type} (below : κ → κ → Bool) (comparable : κ → Bool)

/-- Items sorted by a key, the lowest first; of items with equal keys the earlier one stays first. -/
def ascending (keyed : List (κ × α)) : List α :=
  let sorted :=
    if keyed.all (comparable ·.1) then keyed.mergeSort fun a b => !below b.1 a.1
    else adaptive (fun a b => below a.1 b.1) keyed
  sorted.map Prod.snd

/-- Items sorted by a key, the highest first; of items with equal keys the earlier one stays first. -/
def descending (keyed : List (κ × α)) : List α :=
  let sorted :=
    if keyed.all (comparable ·.1) then keyed.mergeSort fun a b => !below a.1 b.1
    else (adaptive (fun a b => below a.1 b.1) keyed.reverse).reverse
  sorted.map Prod.snd

end EntityStore.Sort
