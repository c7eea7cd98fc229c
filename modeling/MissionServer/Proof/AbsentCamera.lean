import MissionServer.Proof.Handlers

/-!
# An absent camera

Without a device in slot 0 no handler reaches a driver: it leaves the camera table as it is, and all
that comes out of it are messages.
-/

namespace MissionServer

theorem dispatch_absent {op : CameraOperations → Option DeviceCall} {id : Fin cameraNumMax} {devs : CameraDevs}
    (h : devicePresent (devs id) = false) : dispatch op id devs = (devs, []) := by
  rw [dispatch, if_pos (by simp [h])]

/-- Steps that touch no device where camera 0 is absent. -/
def MavStep.Inert (f : MavStep) : Prop :=
  ∀ m, devicePresent (m.devs 0) = false → (f m).1.devs = m.devs ∧ ∀ output, .device output ∉ (f m).2

theorem MavStep.Inert.andThen {f g : MavStep} (hf : f.Inert) (hg : g.Inert) : (f.andThen g).Inert := by
  intro m h
  obtain ⟨hdevs, hout⟩ := hf m h
  obtain ⟨hdevs', hout'⟩ := hg (f m).1 (hdevs ▸ h)
  refine ⟨hdevs'.trans hdevs, fun output hmem => ?_⟩
  obtain hmem | hmem := List.mem_append.mp hmem
  · exact hout output hmem
  · exact hout' output hmem

theorem dispatch_inert (op : CameraOperations → Option DeviceCall) : (onDevs (dispatch op 0)).Inert := by
  intro m h
  simp only [onDevs, dispatch_absent h, List.map_nil, List.not_mem_nil, not_false_eq_true, implies_true, and_self]

theorem quiet_inert {f : Mav → Mav} (hf : ∀ m, (f m).devs = m.devs) : MavStep.Inert fun m => (f m, []) :=
  fun m _ => ⟨hf m, fun _ => List.not_mem_nil⟩

theorem sendFrames_inert (frames : Mav → List MavlinkFrame) : (sendFrames frames).Inert := by
  refine fun m _ => ⟨rfl, fun output hmem => ?_⟩
  obtain ⟨frame, -, heq⟩ := List.mem_map.mp hmem
  cases heq

theorem inert_rules : MavStep.Rules MavStep.Inert where
  andThen := MavStep.Inert.andThen
  branch c _ hf hg := by
    intro m h
    dsimp only
    split
    · exact hf m h
    · exact hg m h
  quiet := quiet_inert
  saveImage := dispatch_inert _
  changeRecordState env := dispatch_inert _
  zoom args m h := dispatch_inert _ m h
  rotate args m h := dispatch_inert _ m h

theorem mavCommandLong_inert (env : GstEnv) (command : UInt16) (sysid compid : UInt8) :
    (mavCommandLong env command sysid compid).Inert :=
  inert_rules.mavCommandLong sendFrames_inert env command sysid compid

section Receiver

variable {ψ : Type} (lib : MavlinkLib ψ)

theorem parseMavlinkMsg_inert (env : GstEnv) (msg : MavlinkMessage) : (parseMavlinkMsg lib env msg).Inert := by
  have hall : ∀ entry ∈ fcuCmds lib env, (entry.2 msg).Inert := by
    simp only [fcuCmds, List.forall_mem_cons]
    refine ⟨?_, ?_, inert_rules.mavFcuRcChannels env _, mavCommandLong_inert env _ _ _, ?_, by simp⟩
    all_goals exact quiet_inert fun _ => rfl
  intro m h
  rw [parseMavlinkMsg]
  split
  · rename_i handler hlookup
    obtain ⟨before, after, hsplit, -⟩ := List.lookup_eq_some_iff.mp hlookup
    exact hall (msg.msgid, handler) (by simp [hsplit]) m h
  · exact ⟨rfl, fun _ => List.not_mem_nil⟩

theorem readMavlinkMsg_inert (bytes : Bytes) :
    ∀ (envs : Nat → GstEnv) (r : Receiver ψ), devicePresent (r.mav.devs 0) = false →
      (readMavlinkMsg lib envs bytes r).1.mav.devs = r.mav.devs ∧
        ∀ output, .device output ∉ (readMavlinkMsg lib envs bytes r).2 := by
  induction bytes with
  | nil => exact fun _ _ _ => ⟨rfl, fun _ => List.not_mem_nil⟩
  | cons byte bytes ih =>
      intro envs r h
      have hchar : (readMavlinkChar lib (envs 0) byte r).1.mav.devs = r.mav.devs ∧
          ∀ output, .device output ∉ (readMavlinkChar lib (envs 0) byte r).2 := by
        rw [readMavlinkChar]
        split
        · exact parseMavlinkMsg_inert lib (envs 0) _ r.mav h
        · exact ⟨rfl, fun _ => List.not_mem_nil⟩
      obtain ⟨hdevs, hout⟩ := hchar
      obtain ⟨hdevs', hout'⟩ :=
        ih (fun i => envs (i + 1)) (readMavlinkChar lib (envs 0) byte r).1 (hdevs ▸ h)
      refine ⟨hdevs'.trans hdevs, fun output hmem => ?_⟩
      obtain hmem | hmem := List.mem_append.mp hmem
      · exact hout output hmem
      · exact hout' output hmem

end Receiver

end MissionServer
