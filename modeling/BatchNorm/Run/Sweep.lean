import BatchNorm.Failure

/-!
# Working through the channels

The channels of a run are independent of each other. They may be shared among
threads, and the results come in the order of the channels all the same, so the
number of threads never shows.
-/

set_option autoImplicit false

namespace BatchNorm

/-- The results of a task for the channels `0` to `channels - 1`, in that order,
or the failure of the first channel that fails. One channel, or one thread, needs
no pool; a pool needs a thread. -/
def sweep {α : Type} (task : Nat → Except Failure α) (channels : Int) (threads : Option Int) :
    Except Failure (List α) :=
  if channels ≤ 0 then .ok []
  else if threads = some 1 ∨ channels = 1 ∨ ∀ n ∈ threads, 1 ≤ n then
    (List.range channels.toNat).mapM task
  else misuse .emptyPool

end BatchNorm
