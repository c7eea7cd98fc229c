/-!
# config.c: the RC channels

The table `rc_channels` and its accessors.
-/

namespace MissionServer

/-- `config_rc_t`. -/
structure ConfigRc where
  min : Int := 0
  mid : Int := 0
  max : Int := 0
  reverse : Bool := false
  deriving DecidableEq, Repr

/-- `get_rc_config`, which ends the program for a number outside 1..18. -/
def getRcConfig? (rcChannels : Fin 18 → ConfigRc) (rcChannel : Int) : Option ConfigRc :=
  if h : rcChannel < 1 ∨ rcChannel > 18 then none
  else some (rcChannels ⟨(rcChannel - 1).toNat, by omega⟩)

/-- `get_rc_config` of a number in range, as every caller passes one. -/
def getRcConfig (rcChannels : Fin 18 → ConfigRc) (rcChannel : Int)
    (h : 1 ≤ rcChannel ∧ rcChannel ≤ 18 := by decide) : ConfigRc :=
  rcChannels ⟨(rcChannel - 1).toNat, by omega⟩

theorem getRcConfig?_eq_some {rcChannels : Fin 18 → ConfigRc} {rcChannel : Int}
    (h : 1 ≤ rcChannel ∧ rcChannel ≤ 18) :
    getRcConfig? rcChannels rcChannel = some (getRcConfig rcChannels rcChannel h) := by
  rw [getRcConfig?, dif_neg (by omega)]
  rfl

end MissionServer
