import MissionServer.Config.Devices
import MissionServer.Config.Rc

/-!
# config.c: the file of the RC channels

`load_rc_configs`, which reads `rc.yaml` into the table `rc_channels`.
-/

namespace MissionServer

def updateRc (n : Fin 18) (f : ConfigRc → ConfigRc) (rcChannels : Fin 18 → ConfigRc) : Fin 18 → ConfigRc :=
  Function.update rcChannels n (f (rcChannels n))

/-- `READ_RC_CONFIG`. Channels are numbered from 1. -/
def readRcConfig (n : Fin 18) : List (Param (Fin 18 → ConfigRc)) :=
  let ch := "ch" ++ toString (n.val + 1)
  [readInt (ch ++ "_min") fun value => updateRc n ({ · with min := value }),
   readInt (ch ++ "_mid") fun value => updateRc n ({ · with mid := value }),
   readInt (ch ++ "_max") fun value => updateRc n ({ · with max := value }),
   readBool (ch ++ "_reverse") fun value => updateRc n ({ · with reverse := value })]

def rcParams : List (Param (Fin 18 → ConfigRc)) := (List.finRange 18).flatMap readRcConfig

def loadRcConfigs (files : YamlFiles) (yamlPath : String) (rcChannels : Fin 18 → ConfigRc) :
    Load (Fin 18 → ConfigRc) :=
  loadFile rcParams files yamlPath rcChannels

end MissionServer
