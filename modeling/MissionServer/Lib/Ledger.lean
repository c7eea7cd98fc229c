import Mathlib.Data.List.Basic

/-!
# A ledger

Resources are acquired and released. A ledger is in order where nothing is acquired that is held already and only
what is held is released; what is held at its end is then known, and each release has had its own acquisition.
-/

namespace Ledger

variable {ρ : Type*}

variable [DecidableEq ρ]

end Ledger
