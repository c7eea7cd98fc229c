import MissionServer.Proof.Recorder
import MissionServer.Proof.ServerActions

/-!
# What does not depend on the recorders

The clock and the end-of-stream events reach the recorders' data and the lines they print, and nothing else. With its
recorders put back to what `rtsp_open` made of them, the receiver makes the same frames of the same bytes, whatever
happens around its handlers.
-/

namespace MissionServer

variable {ψ : Type}

/-! ### Recorders put back -/

def GstData.opened (data : GstData) : GstData := rtspOpen data.cameraId data.rtspConfig

def Priv.map {α : Type} (f : α → α) : Priv α → Priv α
  | .null => .null
  | .live value => .live (f value)
  | .freed => .freed

def CameraDev.unrecorded (cam : CameraDev) : CameraDev := { cam with cameraPriv := cam.cameraPriv.map GstData.opened }

def Mav.unrecorded (m : Mav) : Mav := { m with devs := fun id => (m.devs id).unrecorded }

def Receiver.unrecorded (r : Receiver ψ) : Receiver ψ := { r with mav := r.mav.unrecorded }

/-- `g` does on a state with its recorders put back what `f` does on the state itself: the results agree but for the
recorders, and the outputs in what `read` makes of them. -/
def Blind {σ ο : Type} (put : σ → σ) (read : List ο → List ServerAction) (f g : σ → σ × List ο) : Prop :=
  ∀ s, (g (put s)).1 = put (f s).1 ∧ read (g (put s)).2 = read (f s).2

def CameraDevs.unrecorded (devs : CameraDevs) : CameraDevs := fun id => (devs id).unrecorded

abbrev MavStep.BlindAs : MavStep → MavStep → Prop := Blind Mav.unrecorded fun out => out.filterMap outputAction

theorem MavStep.BlindAs.andThen {f f' g g' : MavStep} (hf : f.BlindAs f') (hg : g.BlindAs g') :
    (f.andThen g).BlindAs (f'.andThen g') := by
  intro m
  obtain ⟨hstate, hout⟩ := hf m
  obtain ⟨hstate', hout'⟩ := hg (f m).1
  simp only [MavStep.andThen, List.filterMap_append, hstate, hstate', hout, hout', and_self]

variable (lib : MavlinkLib ψ)

end MissionServer
