import MissionServer.Lib.History
import MissionServer.Lib.Machine
import MissionServer.RtspStream

/-!
# The recorder as a state machine

Toggle requests, readiness of the camera and end-of-stream events reach one recorder in any order. Its
flags, the active pad of its selector and the name of its file are related by one invariant,
`RecorderRun.Inv`, from which the run-level result is read off.
-/

namespace MissionServer

/-- What can happen to a recorder. The end-of-stream events of `eos` come outside a toggle request;
those inside one are counted by its environment. -/
inductive RecorderEvent
  | change (env : GstEnv)
  | ready
  | eos
  deriving DecidableEq, Repr

/-- The recorder's reports that concern a video file, each with the name of the file. -/
inductive Mark
  | started (file : String)
  | stopRequested
  | saved (file : String)
  deriving DecidableEq, Repr

/-- A start is marked with the name that the recorder then holds. -/
def Report.mark (gst : GstData) : Report → Option Mark
  | .pleaseWait _ => none
  | .stopRecording _ => some .stopRequested
  | .startRecording _ => some (.started gst.mp4FileName)
  | .saved _ file => some (.saved file)
  | .imageSaved _ _ => none

/-- A recorder and the marks of the run that led to it. -/
structure RecorderRun where
  gst : GstData
  marks : List Mark := []
  deriving DecidableEq, Repr

def recorderStep (gst : GstData) : RecorderEvent → GstData × List Report
  | .change env => rtspChangeRecordState gst.cameraId env gst
  | .ready => (rtspSaver gst, [])
  | .eos => eosHandler true gst

def RecorderRun.step (r : RecorderRun) (e : RecorderEvent) : RecorderRun :=
  let next := recorderStep r.gst e
  { gst := next.1, marks := r.marks ++ next.2.filterMap (Report.mark next.1) }

/-- A saved file was started under that name and stopped, with no start, stop or save in between; in
particular every save has a stop request of its own. -/
def SavedOnce (marks : List Mark) : Mark → Prop
  | .saved file => ∃ earlier, marks = earlier ++ [.started file, .stopRequested]
  | _ => True

structure RecorderRun.Inv (r : RecorderRun) : Prop where
  exclusive : ¬ (r.gst.recording ∧ r.gst.busy)
  ready : r.gst.recording ∨ r.gst.busy → r.gst.cameraReady
  pad : r.gst.activePad =
    if ¬ r.gst.cameraReady then none
    else if r.gst.recording ∨ r.gst.busy then some .oselSrc1 else some .oselSrc2
  started : r.gst.recording → ∃ earlier, r.marks = earlier ++ [.started r.gst.mp4FileName]
  stopped : r.gst.busy → ∃ earlier, r.marks = earlier ++ [.started r.gst.mp4FileName, .stopRequested]
  permitted : History.Permitted SavedOnce r.marks

theorem RecorderRun.Inv.not_busy {r : RecorderRun} (h : r.Inv) (hrec : r.gst.recording = true) :
    r.gst.busy = false := by
  by_contra hbusy
  exact h.exclusive ⟨hrec, by simpa using hbusy⟩

theorem RecorderRun.Inv.not_recording {r : RecorderRun} (h : r.Inv) (hbusy : r.gst.busy = true) :
    r.gst.recording = false := by
  by_contra hrec
  exact h.exclusive ⟨by simpa using hrec, hbusy⟩

theorem RecorderRun.Inv.idle {r : RecorderRun} (h : r.Inv) (hready : ¬ r.gst.cameraReady) :
    ¬ r.gst.recording ∧ ¬ r.gst.busy :=
  ⟨fun hrec => hready (h.ready (.inl hrec)), fun hbusy => hready (h.ready (.inr hbusy))⟩

/-! ### One step -/

/-- End-of-stream events after the first find nothing left to save. -/
theorem deliverEos_of_not_busy {data : GstData} (h : data.busy = false) (n : Nat) :
    deliverEos n data = (data, []) := by
  induction n with
  | zero => rfl
  | succ n ih => simp [deliverEos, eosHandler, h, ih]

theorem deliverEos_of_busy {data : GstData} (h : data.busy = true) (n : Nat) :
    deliverEos n data =
      if n = 0 then (data, [])
      else ({ data with busy := false, activePad := some .oselSrc2 }, [.saved data.cameraId data.mp4FileName]) := by
  cases n with
  | zero => rfl
  | succ n => simp [deliverEos, eosHandler, h, deliverEos_of_not_busy]

/-- Everything a toggle request can do: it is refused, or it ends a recording, whose file is saved at
once where an end-of-stream event arrives during the call, or it starts one. -/
theorem rtspChangeRecordState_cases (camId : Int) (env : GstEnv) (data : GstData) :
    (data.cameraReady = false ∧ rtspChangeRecordState camId env data = (data, [])) ∨
    (data.cameraReady = true ∧ data.busy = true ∧
      rtspChangeRecordState camId env data = (data, [.pleaseWait camId])) ∨
    (data.cameraReady = true ∧ data.busy = false ∧ data.recording = true ∧ env.eosDuring = 0 ∧
      rtspChangeRecordState camId env data =
        ({ data with busy := true, recording := false }, [.stopRecording camId])) ∨
    (data.cameraReady = true ∧ data.busy = false ∧ data.recording = true ∧ env.eosDuring ≠ 0 ∧
      rtspChangeRecordState camId env data =
        ({ data with activePad := some .oselSrc2, recording := false },
          [.stopRecording camId, .saved data.cameraId data.mp4FileName])) ∨
    (data.cameraReady = true ∧ data.busy = false ∧ data.recording = false ∧
      rtspChangeRecordState camId env data =
        ({ data with
            mp4FileName := data.rtspConfig.savePath ++ "/" ++ generateTimestamp env.timeinfo ++ ".mp4"
            activePad := some .oselSrc1, recording := true }, [.startRecording camId])) := by
  obtain ⟨config, cameraId, recording, busy, snapshot, ready, name, pad⟩ := data
  cases ready <;> cases busy <;> cases recording <;> simp [rtspChangeRecordState]
  by_cases heos : env.eosDuring = 0 <;> simp [heos, deliverEos_of_busy]

theorem RecorderRun.Inv.step_change {r : RecorderRun} (h : r.Inv) (env : GstEnv) : (r.step (.change env)).Inv := by
  obtain ⟨gst, marks⟩ := r
  rcases rtspChangeRecordState_cases gst.cameraId env gst with
    ⟨-, heq⟩ | ⟨-, -, heq⟩ | ⟨hready, hbusy, hrec, -, heq⟩ | ⟨hready, hbusy, hrec, -, heq⟩ |
      ⟨hready, hbusy, hrec, heq⟩
  all_goals simp only [RecorderRun.step, recorderStep, heq, List.filterMap_cons, List.filterMap_nil, Report.mark,
    List.append_nil]
  · exact h
  · exact h
  · obtain ⟨earlier, hmarks⟩ := h.started hrec
    refine ⟨by simp, by simp [hready], ?_, by simp, fun _ => ⟨earlier, ?_⟩, ?_⟩
    · have hpad := h.pad
      simp only [hready, hrec, hbusy] at hpad
      simpa [hready] using hpad
    · simp only at hmarks ⊢
      rw [hmarks, List.append_assoc]
      rfl
    · exact History.permitted_concat.mpr ⟨h.permitted, trivial⟩
  · obtain ⟨earlier, hmarks⟩ := h.started hrec
    refine ⟨by simp [hbusy], by simp [hbusy], by simp [hready, hbusy], by simp, by simp [hbusy], ?_⟩
    have hstop : History.Permitted SavedOnce (marks ++ [.stopRequested]) :=
      History.permitted_concat.mpr ⟨h.permitted, trivial⟩
    have hsaved := History.permitted_concat (e := Mark.saved gst.mp4FileName).mpr ⟨hstop, earlier, ?_⟩
    · simpa only [List.append_assoc, List.cons_append, List.nil_append] using hsaved
    · simp only at hmarks
      rw [hmarks, List.append_assoc]
      rfl
  · refine ⟨by simp [hbusy], by simp [hready], by simp [hready], fun _ => ⟨marks, rfl⟩, by simp [hbusy], ?_⟩
    exact History.permitted_concat.mpr ⟨h.permitted, trivial⟩

theorem RecorderRun.Inv.step_ready {r : RecorderRun} (h : r.Inv) : (r.step .ready).Inv := by
  by_cases hready : r.gst.cameraReady
  · simpa [RecorderRun.step, recorderStep, rtspSaver, hready] using h
  · obtain ⟨hrec, hbusy⟩ := h.idle hready
    simp only [RecorderRun.step, recorderStep, rtspSaver, hready, List.filterMap_nil, List.append_nil]
    exact ⟨by simp [hbusy], by simp, by simp [hrec, hbusy], by simp [hrec], by simp [hbusy], h.permitted⟩

theorem RecorderRun.Inv.step_eos {r : RecorderRun} (h : r.Inv) : (r.step .eos).Inv := by
  by_cases hbusy : r.gst.busy
  · have hrec : r.gst.recording = false := h.not_recording hbusy
    have hready := h.ready (.inr hbusy)
    obtain ⟨earlier, hmarks⟩ := h.stopped hbusy
    simp only [RecorderRun.step, recorderStep, eosHandler, hbusy, not_true_eq_false, if_false, if_true,
      List.filterMap_cons, List.filterMap_nil, Report.mark]
    refine ⟨by simp, by simp [hrec], by simp [hready, hrec], by simp [hrec], by simp, ?_⟩
    exact History.permitted_concat.mpr ⟨h.permitted, earlier, hmarks⟩
  · simpa [RecorderRun.step, recorderStep, eosHandler, hbusy] using h

theorem RecorderRun.Inv.step {r : RecorderRun} (h : r.Inv) (e : RecorderEvent) : (r.step e).Inv := by
  cases e with
  | change env => exact h.step_change env
  | ready => exact h.step_ready
  | eos => exact h.step_eos

/-! ### Whole runs -/

/-- A recorder as `rtsp_open` leaves it. -/
def RecorderRun.opened (camId : Int) (config : RtspConfig) : RecorderRun := { gst := rtspOpen camId config }

theorem RecorderRun.inv_opened (camId : Int) (config : RtspConfig) : (RecorderRun.opened camId config).Inv := by
  refine ⟨?_, ?_, ?_, ?_, ?_, ?_⟩ <;> simp [RecorderRun.opened, rtspOpen]

theorem RecorderRun.inv_run (camId : Int) (config : RtspConfig) (es : List RecorderEvent) :
    (Machine.run RecorderRun.step (RecorderRun.opened camId config) es).Inv :=
  Machine.run_invariant (fun _ e h => h.step e) (RecorderRun.inv_opened camId config) es

/-- A file name is only ever given to an idle recorder. -/
theorem RecorderRun.idle_of_mp4FileName_ne {r : RecorderRun} {e : RecorderEvent}
    (h : (r.step e).gst.mp4FileName ≠ r.gst.mp4FileName) : r.gst.recording = false ∧ r.gst.busy = false := by
  cases e with
  | change env =>
      rcases rtspChangeRecordState_cases r.gst.cameraId env r.gst with
        ⟨-, heq⟩ | ⟨-, -, heq⟩ | ⟨-, -, -, -, heq⟩ | ⟨-, -, -, -, heq⟩ | ⟨-, hbusy, hrec, -⟩
      case inr.inr.inr.inr => exact ⟨hrec, hbusy⟩
      all_goals simp [RecorderRun.step, recorderStep, heq] at h
  | ready =>
      simp only [RecorderRun.step, recorderStep, rtspSaver] at h
      split at h <;> simp at h
  | eos =>
      simp only [RecorderRun.step, recorderStep, eosHandler] at h
      split_ifs at h <;> simp at h

/-- For every order of toggle requests, readiness and end-of-stream events: the two flags are never
both set, the selector leads to the file exactly while one of them is, a file name is assigned only by
an idle recorder, and every file reported as saved was started under that name and then stopped once. -/
theorem recorder_stateMachine (camId : Int) (config : RtspConfig) (es : List RecorderEvent) :
    let r := Machine.run RecorderRun.step (RecorderRun.opened camId config) es
    ¬ (r.gst.recording ∧ r.gst.busy) ∧
    r.gst.activePad =
      (if ¬ r.gst.cameraReady then none
       else if r.gst.recording ∨ r.gst.busy then some .oselSrc1 else some .oselSrc2) ∧
    (¬ r.gst.cameraReady → ¬ r.gst.recording ∧ ¬ r.gst.busy) ∧
    (∀ e, (r.step e).gst.mp4FileName ≠ r.gst.mp4FileName → ¬ r.gst.recording ∧ ¬ r.gst.busy) ∧
    History.Permitted SavedOnce r.marks := by
  intro r
  have h : r.Inv := RecorderRun.inv_run camId config es
  refine ⟨h.exclusive, h.pad, h.idle, fun e hne => ?_, h.permitted⟩
  have hidle := RecorderRun.idle_of_mp4FileName_ne hne
  simp [hidle]

end MissionServer
