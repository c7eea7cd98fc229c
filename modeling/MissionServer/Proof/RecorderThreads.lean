import MissionServer.Lib.Linearization
import MissionServer.Proof.Recorder
import MissionServer.RtspStream.RecorderThreads

/-!
# The recorder, statement by statement

No lock keeps the two functions apart, and still their calls are as good as atomic: `busy` keeps a request out while a
file is being saved, and what the end-of-stream handler does once it has taken `busy` back is over before the pipeline
has stopped, so before a new recording has its name. Where the pipeline would not wait for its callbacks, it fails.
-/

namespace MissionServer

open Linearization

/-! ### The calls -/

inductive RecorderThread
  | change
  | eos
  | saver
  deriving DecidableEq

/-- The recorder of whole calls, with what they print. -/
structure RecorderTalk where
  run : RecorderRun
  changeReports : List Report := []
  eosReports : List Report := []

def RecorderTalk.step (t : RecorderTalk) (e : RecorderEvent) : RecorderTalk :=
  let reports := (recorderStep t.run.gst e).2
  match e with
  | .change _ => { t with run := t.run.step e, changeReports := t.changeReports ++ reports }
  | .eos => { t with run := t.run.step e, eosReports := t.eosReports ++ reports }
  | .ready => { t with run := t.run.step e }

theorem run_recorderTalk (t : RecorderTalk) (es : List RecorderEvent) :
    (Machine.run RecorderTalk.step t es).run = Machine.run RecorderRun.step t.run es := by
  induction es generalizing t with
  | nil => rfl
  | cons e es ih =>
      have hone : (t.step e).run = t.run.step e := by
        cases e <;> rfl
      rw [Machine.run_cons, Machine.run_cons, ih, hone]

/-- A request during which no event arrives: the events have calls of their own. -/
def changeAt (timeinfo : Tm) : RecorderEvent := .change { timeinfo, eosDuring := 0 }

def changeMarks (timeinfo : Tm) (s : RecorderThreads) : List (CallMark RecorderThread RecorderEvent) :=
  match s.change with
  | .outside =>
      if s.data.cameraReady then [.begins .change]
      else [.begins .change, .effect .change (changeAt timeinfo), .returns .change]
  | .testsBusy => if s.data.busy then [.effect .change (changeAt timeinfo), .returns .change] else []
  | .testsRecording => []
  | .setsBusy => [.effect .change (changeAt timeinfo)]
  | .stopsPipeline => []
  | .namesFile => [.effect .change (changeAt timeinfo)]
  | .redirects => []
  | .toggles => [.returns .change]

def eosMarks (eos : Bool) (s : RecorderThreads) : List (CallMark RecorderThread RecorderEvent) :=
  match s.eos with
  | .outside => if eos then [.begins .eos] else []
  | .testsBusy => if s.data.busy then [] else [.effect .eos .eos, .returns .eos]
  | .clearsBusy => [.effect .eos .eos]
  | .reports => []
  | .redirects => [.returns .eos]

def recorderMarks (s : RecorderThreads) : RecorderThreadEvent → List (CallMark RecorderThread RecorderEvent)
  | .change timeinfo => changeMarks timeinfo s
  | .eos eos => eosMarks eos s
  | .saver => [.begins .saver, .effect .saver .ready, .returns .saver]

def ChangePc.phase : ChangePc → Phase
  | .outside => .outside
  | .redirects => .effective
  | .toggles => .effective
  | _ => .called

def EosPc.phase : EosPc → Phase
  | .outside => .outside
  | .testsBusy => .called
  | .clearsBusy => .called
  | .reports => .effective
  | .redirects => .effective

def recorderPhase (change : ChangePc) (eos : EosPc) : RecorderThread → Phase
  | .change => change.phase
  | .eos => eos.phase
  | .saver => .outside

theorem recorderPhase_change (change pc : ChangePc) (eos : EosPc) :
    Function.update (recorderPhase change eos) .change pc.phase = recorderPhase pc eos := by
  funext thread
  cases thread <;> rfl

theorem recorderPhase_eos (change : ChangePc) (eos pc : EosPc) :
    Function.update (recorderPhase change eos) .eos pc.phase = recorderPhase change pc := by
  funext thread
  cases thread <;> rfl

def RecorderThreads.phase (s : RecorderThreads) : RecorderThread → Phase := recorderPhase s.change s.eos

theorem phases_change (waits : Bool) (timeinfo : Tm) (s : RecorderThreads) :
    phases s.phase (changeMarks timeinfo s) = some (changeStep waits timeinfo s).phase := by
  have hphase : s.phase .change = s.change.phase := rfl
  have hgoto (pc : ChangePc) := congrArg some (recorderPhase_change s.change pc s.eos)
  have hstay : Function.update s.phase .change s.change.phase = s.phase := Function.update_eq_self _ _
  rw [changeMarks, changeStep]
  cases hpc : s.change with
  | outside =>
      rw [hpc] at hphase
      dsimp only
      by_cases hready : s.data.cameraReady = true
      · rw [if_pos hready, if_pos hready]
        exact (phases_begins hphase).trans (hgoto .testsBusy)
      · rw [if_neg hready, if_neg hready]
        exact phases_whole hphase _
  | testsBusy =>
      rw [hpc] at hphase hstay
      dsimp only
      by_cases hbusy : s.data.busy = true
      · rw [if_pos hbusy, if_pos hbusy]
        exact (phases_last hphase _).trans (hgoto .outside)
      · rw [if_neg hbusy, if_neg hbusy]
        exact (congrArg some hstay.symm).trans (hgoto .testsRecording)
  | testsRecording =>
      rw [hpc] at hstay
      dsimp only
      split
      · exact (congrArg some hstay.symm).trans (hgoto .setsBusy)
      · exact (congrArg some hstay.symm).trans (hgoto .stopsPipeline)
  | setsBusy =>
      rw [hpc] at hphase
      exact (phases_effect hphase _).trans (hgoto .toggles)
  | stopsPipeline =>
      rw [hpc] at hstay
      dsimp only
      split
      · rfl
      · exact (congrArg some hstay.symm).trans (hgoto .namesFile)
  | namesFile =>
      rw [hpc] at hphase
      exact (phases_effect hphase _).trans (hgoto .redirects)
  | redirects =>
      rw [hpc] at hstay
      exact (congrArg some hstay.symm).trans (hgoto .toggles)
  | toggles =>
      rw [hpc] at hphase
      exact (phases_returns hphase).trans (hgoto .outside)

theorem phases_eos (eos : Bool) (s : RecorderThreads) :
    phases s.phase (eosMarks eos s) = some (eosStep eos s).phase := by
  have hphase : s.phase .eos = s.eos.phase := rfl
  have hgoto (pc : EosPc) := congrArg some (recorderPhase_eos s.change s.eos pc)
  have hstay : Function.update s.phase .eos s.eos.phase = s.phase := Function.update_eq_self _ _
  rw [eosMarks, eosStep]
  cases hpc : s.eos with
  | outside =>
      rw [hpc] at hphase hstay
      cases eos with
      | false => rfl
      | true => exact (phases_begins hphase).trans (hgoto .testsBusy)
  | testsBusy =>
      rw [hpc] at hphase hstay
      dsimp only
      by_cases hbusy : s.data.busy = true
      · rw [if_pos hbusy, if_pos hbusy]
        exact (congrArg some hstay.symm).trans (hgoto .clearsBusy)
      · rw [if_neg hbusy, if_neg hbusy]
        exact (phases_last hphase _).trans (hgoto .outside)
  | clearsBusy =>
      rw [hpc] at hphase
      exact (phases_effect hphase _).trans (hgoto .reports)
  | reports =>
      rw [hpc] at hstay
      exact (congrArg some hstay.symm).trans (hgoto .redirects)
  | redirects =>
      rw [hpc] at hphase
      exact (phases_returns hphase).trans (hgoto .outside)

/-! ### The threads follow the calls -/

/-- The assignments that a request still has before it when it has taken effect. -/
def ChangePc.finish (data : GstData) : ChangePc → GstData
  | .redirects => { data with activePad := some .oselSrc1, recording := !data.recording }
  | .toggles => { data with recording := !data.recording }
  | _ => data

def EosPc.finish (data : GstData) : EosPc → GstData
  | .reports => { data with activePad := some .oselSrc2 }
  | .redirects => { data with activePad := some .oselSrc2 }
  | _ => data

/-- What a request has printed before it takes effect. -/
def ChangePc.early (camId : Int) : ChangePc → List Report
  | .setsBusy => [.stopRecording camId]
  | .stopsPipeline => [.startRecording camId]
  | .namesFile => [.startRecording camId]
  | _ => []

/-- What the handler is still to print. -/
def EosPc.late (data : GstData) : EosPc → List Report
  | .reports => [.saved data.cameraId data.mp4FileName]
  | _ => []

/-- Between a test that has found `busy` false and the last assignment that relies on it. -/
def ChangePc.idle : ChangePc → Bool
  | .outside => false
  | .testsBusy => false
  | .toggles => false
  | _ => true

def ChangePc.starts : ChangePc → Bool
  | .stopsPipeline => true
  | .namesFile => true
  | .redirects => true
  | _ => false

/-- Once the pipeline has stopped. -/
def ChangePc.stopped : ChangePc → Bool
  | .namesFile => true
  | .redirects => true
  | _ => false

theorem ChangePc.starts_of_stopped {pc : ChangePc} (h : pc.stopped = true) : pc.starts = true := by
  cases pc <;> first | rfl | exact absurd h Bool.false_ne_true

theorem ChangePc.idle_of_starts {pc : ChangePc} (h : pc.starts = true) : pc.idle = true := by
  cases pc <;> first | rfl | exact absurd h Bool.false_ne_true

/-- What each thread relies on while it is between its steps. -/
structure RecorderThreads.Inv (s : RecorderThreads) : Prop where
  ready : s.change ≠ .outside → s.data.cameraReady = true
  /-- No one else sets `busy`. -/
  idle : s.change.idle = true → s.data.busy = false
  stopping : s.change = .setsBusy → s.data.recording = true
  starting : s.change.starts = true → s.data.recording = false
  /-- The handler is not past its test of `busy` once the pipeline has stopped. -/
  waited : s.change.stopped = true → s.eos = .outside ∨ s.eos = .testsBusy
  saving : s.eos = .clearsBusy → s.data.busy = true

theorem RecorderThreads.inv_of_not_idle {s : RecorderThreads} (hidle : s.change.idle = false)
    (hready : s.change ≠ .outside → s.data.cameraReady = true) (hsaving : s.eos = .clearsBusy → s.data.busy = true) :
    s.Inv := by
  have hnot {p : Prop} (h : s.change.idle = true) : p := absurd h (Bool.eq_false_iff.mp hidle)
  refine ⟨hready, hnot, fun hstop => hnot ?_, fun hstart => hnot ?_, fun hstopped => hnot ?_, hsaving⟩
  · rw [hstop, ChangePc.idle]
    all_goals simp
  · exact ChangePc.idle_of_starts hstart
  · exact ChangePc.idle_of_starts (ChangePc.starts_of_stopped hstopped)

theorem RecorderThreads.Inv.change {s : RecorderThreads} (h : s.Inv) (timeinfo : Tm) :
    (changeStep true timeinfo s).Inv := by
  have ⟨hready, hidle, hstopping, hstarting, hwaited, hsaving⟩ := h
  rw [changeStep]
  cases hpc : s.change with
  | outside =>
      dsimp only
      split
      case isTrue hcam => exact inv_of_not_idle rfl (fun _ => hcam) hsaving
      case isFalse => exact h
  | testsBusy =>
      rw [hpc] at hready
      dsimp only
      split
      case isTrue => exact inv_of_not_idle rfl (fun hout => absurd rfl hout) hsaving
      case isFalse hbusy =>
          refine ⟨fun _ => hready nofun, fun _ => Bool.eq_false_iff.mpr hbusy, ?_, ?_, ?_, hsaving⟩
          all_goals simp [ChangePc.starts, ChangePc.stopped]
  | testsRecording =>
      rw [hpc] at hready hidle
      dsimp only
      split
      case isTrue hrec =>
          refine ⟨fun _ => hready nofun, fun _ => hidle rfl, fun _ => hrec, ?_, ?_, hsaving⟩
          all_goals simp [ChangePc.starts, ChangePc.stopped]
      case isFalse hrec =>
          refine ⟨fun _ => hready nofun, fun _ => hidle rfl, ?_, fun _ => Bool.eq_false_iff.mpr hrec, ?_, hsaving⟩
          all_goals simp [ChangePc.stopped]
  | setsBusy =>
      rw [hpc] at hready
      exact inv_of_not_idle rfl (fun _ => hready nofun) fun _ => rfl
  | stopsPipeline =>
      rw [hpc] at hready hidle hstarting
      dsimp only
      split
      case isTrue => exact h
      case isFalse hwaits =>
          have heos : s.eos = .outside := by
            by_contra heos
            exact hwaits ⟨rfl, heos⟩
          exact ⟨fun _ => hready nofun, fun _ => hidle rfl, by simp, fun _ => hstarting rfl, fun _ => .inl heos,
            hsaving⟩
  | namesFile =>
      rw [hpc] at hready hidle hstarting hwaited
      exact ⟨fun _ => hready nofun, fun _ => hidle rfl, by simp, fun _ => hstarting rfl, fun _ => hwaited rfl, hsaving⟩
  | redirects =>
      rw [hpc] at hready
      exact inv_of_not_idle rfl (fun _ => hready nofun) hsaving
  | toggles => exact inv_of_not_idle rfl (fun hout => absurd rfl hout) hsaving

/-- The handler leaves the request's flags alone; `busy` it only takes back. -/
theorem RecorderThreads.Inv.eos {s : RecorderThreads} (h : s.Inv) (eos : Bool) : (eosStep eos s).Inv := by
  have ⟨hready, hidle, hstopping, hstarting, hwaited, hsaving⟩ := h
  rw [eosStep]
  cases hpc : s.eos with
  | outside =>
      dsimp only
      split
      case isTrue => exact ⟨hready, hidle, hstopping, hstarting, fun _ => .inr rfl, nofun⟩
      case isFalse => exact h
  | testsBusy =>
      dsimp only
      split
      case isTrue hbusy =>
          refine ⟨hready, hidle, hstopping, hstarting, fun hstopped => ?_, fun _ => hbusy⟩
          rw [hidle (ChangePc.idle_of_starts (ChangePc.starts_of_stopped hstopped))] at hbusy
          cases hbusy
      case isFalse => exact ⟨hready, hidle, hstopping, hstarting, fun _ => .inl rfl, nofun⟩
  | clearsBusy =>
      refine ⟨hready, fun _ => rfl, hstopping, hstarting, fun hstopped => ?_, nofun⟩
      obtain heos | heos := hwaited hstopped
      all_goals rw [hpc] at heos; cases heos
  | reports =>
      refine ⟨hready, hidle, hstopping, hstarting, fun hstopped => ?_, nofun⟩
      obtain heos | heos := hwaited hstopped
      all_goals rw [hpc] at heos; cases heos
  | redirects => exact ⟨hready, hidle, hstopping, hstarting, fun _ => .inl rfl, nofun⟩

theorem RecorderThreads.Inv.saver {s : RecorderThreads} (h : s.Inv) :
    RecorderThreads.Inv { s with data := rtspSaver s.data } := by
  obtain ⟨hready, hidle, hstopping, hstarting, hwaited, hsaving⟩ := h
  rw [rtspSaver]
  split
  case isTrue => exact ⟨hready, hidle, hstopping, hstarting, hwaited, hsaving⟩
  case isFalse => exact ⟨fun _ => rfl, hidle, hstopping, hstarting, hwaited, hsaving⟩

/-! ### Requests -/

section Request

variable {data : GstData} (timeinfo : Tm)

theorem change_unready (h : data.cameraReady = false) :
    recorderStep data (changeAt timeinfo) = (data, []) := by
  simp [recorderStep, changeAt, rtspChangeRecordState, h]

theorem change_busy (hready : data.cameraReady = true) (hbusy : data.busy = true) :
    recorderStep data (changeAt timeinfo) = (data, [.pleaseWait data.cameraId]) := by
  simp [recorderStep, changeAt, rtspChangeRecordState, hready, hbusy]

theorem change_stop (hready : data.cameraReady = true) (hbusy : data.busy = false) (hrec : data.recording = true) :
    recorderStep data (changeAt timeinfo) =
      ({ data with busy := true, recording := false }, [.stopRecording data.cameraId]) := by
  simp [recorderStep, changeAt, rtspChangeRecordState, hready, hbusy, hrec, deliverEos]

theorem change_start (hready : data.cameraReady = true) (hbusy : data.busy = false) (hrec : data.recording = false) :
    recorderStep data (changeAt timeinfo) =
      ({ data with
          mp4FileName := data.rtspConfig.savePath ++ "/" ++ generateTimestamp timeinfo ++ ".mp4"
          activePad := some .oselSrc1, recording := true }, [.startRecording data.cameraId]) := by
  simp [recorderStep, changeAt, rtspChangeRecordState, hready, hbusy, hrec]

end Request

structure FollowsTalk (s : RecorderThreads) (t : RecorderTalk) : Prop where
  data : t.run.gst = s.change.finish (s.eos.finish s.data)
  changeReports : t.changeReports ++ s.change.early s.data.cameraId = s.changeReports
  eosReports : t.eosReports = s.eosReports ++ s.eos.late s.data

/-- The assignments still to come are to the active pad and to `recording`. -/
theorem finish_spec (data : GstData) (change : ChangePc) (eos : EosPc) :
    (change.finish (eos.finish data)).cameraReady = data.cameraReady ∧
      (change.finish (eos.finish data)).busy = data.busy ∧
      (change.finish (eos.finish data)).cameraId = data.cameraId ∧
      (change.finish (eos.finish data)).mp4FileName = data.mp4FileName := by
  cases change <;> cases eos <;> exact ⟨rfl, rfl, rfl, rfl⟩

theorem EosPc.finish_recording (data : GstData) (pc : EosPc) : (pc.finish data).recording = data.recording := by
  cases pc <;> rfl

theorem EosPc.finish_of_waited (data : GstData) {pc : EosPc} (h : pc = .outside ∨ pc = .testsBusy) :
    pc.finish data = data := by
  obtain rfl | rfl := h <;> rfl

section Follows

variable {s s' : RecorderThreads} {t : RecorderTalk}

theorem FollowsTalk.cameraReady (h : FollowsTalk s t) : t.run.gst.cameraReady = s.data.cameraReady :=
  h.data ▸ (finish_spec s.data s.change s.eos).1

theorem FollowsTalk.busy (h : FollowsTalk s t) : t.run.gst.busy = s.data.busy :=
  h.data ▸ (finish_spec s.data s.change s.eos).2.1

theorem FollowsTalk.cameraId (h : FollowsTalk s t) : t.run.gst.cameraId = s.data.cameraId :=
  h.data ▸ (finish_spec s.data s.change s.eos).2.2.1

theorem FollowsTalk.mp4FileName (h : FollowsTalk s t) : t.run.gst.mp4FileName = s.data.mp4FileName :=
  h.data ▸ (finish_spec s.data s.change s.eos).2.2.2

theorem FollowsTalk.of_change {timeinfo : Tm} {gst : GstData} {reports : List Report}
    (hstep : recorderStep t.run.gst (changeAt timeinfo) = (gst, reports))
    (hdata : gst = s'.change.finish (s'.eos.finish s'.data))
    (hreports : t.changeReports ++ reports ++ s'.change.early s'.data.cameraId = s'.changeReports)
    (heos : t.eosReports = s'.eosReports ++ s'.eos.late s'.data) : FollowsTalk s' (t.step (changeAt timeinfo)) where
  data := (congrArg Prod.fst hstep).trans hdata
  changeReports := by
    show t.changeReports ++ (recorderStep t.run.gst (changeAt timeinfo)).2 ++ _ = _
    rw [hstep]
    exact hreports
  eosReports := heos

theorem FollowsTalk.of_eos {gst : GstData} {reports : List Report}
    (hstep : recorderStep t.run.gst .eos = (gst, reports)) (hdata : gst = s'.change.finish (s'.eos.finish s'.data))
    (hreports : t.changeReports ++ s'.change.early s'.data.cameraId = s'.changeReports)
    (heos : t.eosReports ++ reports = s'.eosReports ++ s'.eos.late s'.data) : FollowsTalk s' (t.step .eos) where
  data := (congrArg Prod.fst hstep).trans hdata
  changeReports := hreports
  eosReports := by
    show t.eosReports ++ (recorderStep t.run.gst .eos).2 = _
    rw [hstep]
    exact heos

theorem follows_change (hinv : s.Inv) (h : FollowsTalk s t) (timeinfo : Tm) :
    FollowsTalk (changeStep true timeinfo s)
      (Machine.run RecorderTalk.step t (effects (changeMarks timeinfo s))) := by
  have hdata := h.data
  have hreports := h.changeReports
  rw [changeMarks, changeStep]
  cases hpc : s.change with
  | outside =>
      rw [hpc] at hdata hreports
      dsimp only
      by_cases hready : s.data.cameraReady = true
      · rw [if_pos hready, if_pos hready]
        exact ⟨hdata, hreports, h.eosReports⟩
      · rw [if_neg hready, if_neg hready]
        have hunready : t.run.gst.cameraReady = false := h.cameraReady.trans (Bool.eq_false_iff.mpr hready)
        apply FollowsTalk.of_change (change_unready timeinfo hunready) h.data _ h.eosReports
        rw [List.append_nil]
        exact h.changeReports
  | testsBusy =>
      rw [hpc] at hdata hreports
      have hready : t.run.gst.cameraReady = true := h.cameraReady.trans (hinv.ready (by simp [hpc]))
      dsimp only
      by_cases hbusy : s.data.busy = true
      · rw [if_pos hbusy, if_pos hbusy]
        refine .of_change (change_busy timeinfo hready (h.busy.trans hbusy)) hdata ?_ h.eosReports
        rw [h.cameraId, ← hreports]
        simp [ChangePc.early]
      · rw [if_neg hbusy, if_neg hbusy]
        exact ⟨hdata, hreports, h.eosReports⟩
  | testsRecording =>
      rw [hpc] at hdata hreports
      have hprinted (report : Report) : t.changeReports ++ [report] = s.changeReports ++ [report] := by
        rw [← hreports]
        simp [ChangePc.early]
      dsimp only
      split
      · exact ⟨hdata, hprinted _, h.eosReports⟩
      · exact ⟨hdata, hprinted _, h.eosReports⟩
  | setsBusy =>
      rw [hpc] at hdata hreports
      have hready : t.run.gst.cameraReady = true := h.cameraReady.trans (hinv.ready (by simp [hpc]))
      have hbusy : t.run.gst.busy = false := h.busy.trans (hinv.idle (by simp [hpc, ChangePc.idle]))
      have hrec : t.run.gst.recording = true := by
        rw [hdata]
        exact (EosPc.finish_recording s.data s.eos).trans (hinv.stopping hpc)
      refine .of_change (change_stop timeinfo hready hbusy hrec) ?_ ?_ h.eosReports
      · rw [hdata]
        cases heos : s.eos <;> simp [ChangePc.finish, EosPc.finish, hinv.stopping hpc]
      · rw [h.cameraId, ← hreports]
        simp [ChangePc.early]
  | stopsPipeline =>
      rw [hpc] at hdata hreports
      dsimp only
      split
      · exact h
      · exact ⟨hdata, hreports, h.eosReports⟩
  | namesFile =>
      rw [hpc] at hdata hreports
      have hready : t.run.gst.cameraReady = true := h.cameraReady.trans (hinv.ready (by simp [hpc]))
      have hbusy : t.run.gst.busy = false := h.busy.trans (hinv.idle (by simp [hpc, ChangePc.idle]))
      have hrec : s.data.recording = false := hinv.starting (by simp [hpc, ChangePc.starts])
      have hwaited := hinv.waited (by simp [hpc, ChangePc.stopped])
      have hgst : t.run.gst = s.data := hdata.trans (EosPc.finish_of_waited s.data hwaited)
      have hlate : s.eos.late s.data = [] := by
        obtain heos | heos := hwaited <;> rw [heos] <;> rfl
      refine .of_change (change_start timeinfo hready hbusy (hgst ▸ hrec)) ?_ ?_ ?_
      · rw [hgst]
        dsimp only
        rw [EosPc.finish_of_waited _ hwaited]
        simp [ChangePc.finish, hrec]
      · rw [h.cameraId, ← hreports]
        simp [ChangePc.early]
      · rw [h.eosReports, hlate]
        obtain heos | heos := hwaited <;> simp [heos, EosPc.late]
  | redirects =>
      rw [hpc] at hdata hreports
      have hwaited := hinv.waited (by simp [hpc, ChangePc.stopped])
      refine ⟨?_, hreports, ?_⟩
      · show t.run.gst = _
        rw [hdata, EosPc.finish_of_waited _ hwaited]
        dsimp only
        rw [EosPc.finish_of_waited _ hwaited]
        rfl
      · show t.eosReports = s.eosReports ++ _
        rw [h.eosReports]
        obtain heos | heos := hwaited <;> simp only [heos, EosPc.late]
  | toggles =>
      rw [hpc] at hdata hreports
      refine ⟨?_, hreports, ?_⟩
      · show t.run.gst = _
        rw [hdata]
        cases s.eos <;> rfl
      · show t.eosReports = s.eosReports ++ _
        rw [h.eosReports]
        cases s.eos <;> rfl

/-! ### The end of the stream -/

theorem eos_idle {data : GstData} (hbusy : data.busy = false) : recorderStep data .eos = (data, []) := by
  simp [recorderStep, eosHandler, hbusy]

theorem eos_saves {data : GstData} (hbusy : data.busy = true) :
    recorderStep data .eos =
      ({ data with busy := false, activePad := some .oselSrc2 }, [.saved data.cameraId data.mp4FileName]) := by
  simp [recorderStep, eosHandler, hbusy]

theorem follows_eos (hinv : s.Inv) (h : FollowsTalk s t) (eos : Bool) :
    FollowsTalk (eosStep eos s) (Machine.run RecorderTalk.step t (effects (eosMarks eos s))) := by
  have hdata := h.data
  have hreports := h.eosReports
  rw [eosMarks, eosStep]
  cases hpc : s.eos with
  | outside =>
      rw [hpc] at hdata hreports
      cases eos with
      | false => exact h
      | true => exact ⟨hdata, h.changeReports, hreports⟩
  | testsBusy =>
      rw [hpc] at hdata hreports
      dsimp only
      by_cases hbusy : s.data.busy = true
      · rw [if_pos hbusy, if_pos hbusy]
        exact ⟨hdata, h.changeReports, hreports⟩
      · rw [if_neg hbusy, if_neg hbusy]
        have hidle : t.run.gst.busy = false := h.busy.trans (Bool.eq_false_iff.mpr hbusy)
        refine .of_eos (eos_idle hidle) hdata h.changeReports ?_
        rw [List.append_nil]
        exact hreports
  | clearsBusy =>
      rw [hpc] at hdata hreports
      have hbusy := hinv.saving hpc
      have hredirects : s.change ≠ .redirects := by
        intro hredirects
        rw [hinv.idle (by simp [hredirects, ChangePc.idle])] at hbusy
        cases hbusy
      refine .of_eos (eos_saves (h.busy.trans hbusy)) ?_ h.changeReports ?_
      · rw [hdata]
        cases hchange : s.change with
        | redirects => exact absurd hchange hredirects
        | _ => rfl
      · rw [h.cameraId, h.mp4FileName, hreports, List.append_assoc]
        rfl
  | reports =>
      rw [hpc] at hdata hreports
      refine ⟨hdata, h.changeReports, ?_⟩
      show t.eosReports = (s.eosReports ++ [_]) ++ []
      rw [hreports, List.append_nil]
      rfl
  | redirects =>
      rw [hpc] at hdata hreports
      have hredirects : s.change ≠ .redirects := by
        intro hredirects
        obtain heos | heos := hinv.waited (by simp [hredirects, ChangePc.stopped])
        all_goals rw [hpc] at heos; cases heos
      refine ⟨?_, h.changeReports, hreports⟩
      show t.run.gst = _
      rw [hdata]
      cases hchange : s.change with
      | redirects => exact absurd hchange hredirects
      | _ => rfl

end Follows

theorem followsTalk_saver {s : RecorderThreads} {t : RecorderTalk} (h : FollowsTalk s t)
    (hinv : s.Inv) : FollowsTalk { s with data := rtspSaver s.data } (t.step .ready) := by
  have hconfig : (rtspSaver s.data).cameraId = s.data.cameraId ∧
      (rtspSaver s.data).mp4FileName = s.data.mp4FileName := by
    rw [rtspSaver]
    split <;> exact ⟨rfl, rfl⟩
  refine ⟨?_, ?_, ?_⟩
  · show rtspSaver t.run.gst = _
    by_cases hready : s.data.cameraReady = true
    · rw [rtspSaver, rtspSaver, if_pos (h.cameraReady.trans hready), if_pos hready]
      exact h.data
    · have hchange : s.change = .outside := by
        by_contra hchange
        exact hready (hinv.ready hchange)
      have hunready : ¬ t.run.gst.cameraReady = true := by
        rw [h.cameraReady]
        exact hready
      rw [rtspSaver, rtspSaver, if_neg hunready, if_neg hready, h.data, hchange]
      cases s.eos <;> rfl
  · show t.changeReports ++ s.change.early (rtspSaver s.data).cameraId = s.changeReports
    rw [hconfig.1]
    exact h.changeReports
  · show t.eosReports = s.eosReports ++ s.eos.late (rtspSaver s.data)
    rw [h.eosReports]
    cases s.eos with
    | reports => simp only [EosPc.late, hconfig]
    | _ => rfl

/-! ### Every schedule -/

theorem recorder_linearizes :
    Linearizes (recorderThreadStep true) recorderMarks RecorderTalk.step RecorderThreads.phase
      fun s t => s.Inv ∧ FollowsTalk s t where
  simulates s t e h := by
    obtain ⟨hinv, hfollows⟩ := h
    cases e with
    | change timeinfo => exact ⟨hinv.change timeinfo, follows_change hinv hfollows timeinfo⟩
    | eos eos => exact ⟨hinv.eos eos, follows_eos hinv hfollows eos⟩
    | saver => exact ⟨hinv.saver, followsTalk_saver hfollows hinv⟩
  phased s t e _ := by
    cases e with
    | change timeinfo => exact phases_change true timeinfo s
    | eos eos => exact phases_eos eos s
    | saver => exact phases_whole rfl _

/-- What the threads are to be, whatever the scheduler does. -/
structure RecorderAtomic (waits : Bool) (s₀ : RecorderThreads) : Prop where
  /-- Data and reports are those of the calls made one after the other, each where it takes effect. -/
  follows : ∀ es, FollowsTalk (Machine.run (recorderThreadStep waits) s₀ es)
    (Machine.run RecorderTalk.step { run := { gst := s₀.data } }
      (effects (trace (recorderThreadStep waits) recorderMarks s₀ es)))
  /-- A call takes effect once, after its begin and before its return. -/
  once : ∀ es, (phases (fun _ => .outside) (trace (recorderThreadStep waits) recorderMarks s₀ es)).isSome
  /-- Between the calls the flags exclude each other, and the selector leads to the file while one of them is set. -/
  between : ∀ es s, Machine.run (recorderThreadStep waits) s₀ es = s → s.change = .outside → s.eos = .outside →
    ¬ (s.data.recording ∧ s.data.busy) ∧ (s.data.cameraReady → s.data.activePad =
      if s.data.recording ∨ s.data.busy then some .oselSrc1 else some .oselSrc2)

/-! ### A pipeline that does not wait -/

section HeldUp

variable {s : RecorderThreads} (timeinfo : Tm) (hchange : s.change = .outside) (hready : s.data.cameraReady = true)
  (hbusy : s.data.busy = false)

include hchange hready hbusy

/-- A request that starts a recording, whatever the handler is doing. -/
theorem run_start (hrec : s.data.recording = false) :
    Machine.run (recorderThreadStep false) s (List.replicate 7 (.change timeinfo)) =
      { s with
        data := { s.data with
          mp4FileName := s.data.rtspConfig.savePath ++ "/" ++ generateTimestamp timeinfo ++ ".mp4"
          activePad := some .oselSrc1, recording := true }
        changeReports := s.changeReports ++ [.startRecording s.data.cameraId] } := by
  simp [List.replicate, recorderThreadStep, changeStep, hchange, hready, hbusy, hrec]

theorem run_stop (hrec : s.data.recording = true) :
    Machine.run (recorderThreadStep false) s (List.replicate 5 (.change timeinfo)) =
      { s with
        data := { s.data with busy := true, recording := false }
        changeReports := s.changeReports ++ [.stopRecording s.data.cameraId] } := by
  simp [List.replicate, recorderThreadStep, changeStep, hchange, hready, hbusy, hrec]

end HeldUp

/-- The handler up to the point where it has taken `busy` back. -/
theorem run_eos_heldUp {s : RecorderThreads} (heos : s.eos = .outside) (hbusy : s.data.busy = true) :
    Machine.run (recorderThreadStep false) s (List.replicate 3 (.eos true)) =
      { s with data := { s.data with busy := false }, eos := .reports } := by
  simp [List.replicate, recorderThreadStep, eosStep, heos, hbusy]

theorem run_eos_rest {s : RecorderThreads} (heos : s.eos = .reports) :
    Machine.run (recorderThreadStep false) s (List.replicate 2 (.eos true)) =
      { s with
        data := { s.data with activePad := some .oselSrc2 }, eos := .outside
        eosReports := s.eosReports ++ [.saved s.data.cameraId s.data.mp4FileName] } := by
  simp [List.replicate, recorderThreadStep, eosStep, heos]

/-- A start, a stop and another start, with the handler of the stop's event held up: the recorder takes itself to
be recording, and the selector leads to the fake sink. -/
theorem run_heldUp {s : RecorderThreads} (hchange : s.change = .outside) (heos : s.eos = .outside)
    (hready : s.data.cameraReady = true) (hbusy : s.data.busy = false) (hrec : s.data.recording = false) :
    ∃ es s', Machine.run (recorderThreadStep false) s es = s' ∧ s'.change = .outside ∧ s'.eos = .outside ∧
      s'.data.cameraReady = true ∧ s'.data.recording = true ∧ s'.data.activePad = some .oselSrc2 := by
  let timeinfo : Tm := ⟨0, 0, 0, 0, 0, 0⟩
  refine ⟨List.replicate 7 (.change timeinfo) ++ List.replicate 5 (.change timeinfo) ++ List.replicate 3 (.eos true) ++
    List.replicate 7 (.change timeinfo) ++ List.replicate 2 (.eos true), _, rfl, ?_⟩
  simp only [Machine.run_append, run_start, run_stop, run_eos_heldUp, run_eos_rest, hchange, heos, hready, hbusy, hrec,
    and_self]

/-- The calls are atomic in every schedule exactly where stopping the pipeline waits for its callbacks. -/
theorem recorder_atomic_iff (waits : Bool) (camId : Int) (config : RtspConfig) :
    RecorderAtomic waits { data := rtspOpen camId config } ↔ waits = true := by
  constructor
  · intro h
    cases waits with
    | true => rfl
    | false =>
        obtain ⟨es, s, hrun, hchange, heos, hready, hrec, hwrong⟩ :=
          run_heldUp (s := { data := rtspSaver (rtspOpen camId config) }) rfl rfl rfl rfl rfl
        obtain ⟨-, hpad⟩ := h.between (.saver :: es) s hrun hchange heos
        rw [hwrong, if_pos (.inl hrec)] at hpad
        cases hpad hready
  · intro hwaits
    subst hwaits
    have hinv : RecorderThreads.Inv { data := rtspOpen camId config } :=
      ⟨nofun, nofun, nofun, nofun, nofun, nofun⟩
    have hstart : FollowsTalk { data := rtspOpen camId config } { run := .opened camId config } := ⟨rfl, rfl, rfl⟩
    have hphase : RecorderThreads.phase { data := rtspOpen camId config } = fun _ => .outside := by
      funext thread
      cases thread <;> rfl
    refine ⟨fun es => (recorder_linearizes.run ⟨hinv, hstart⟩ es).1.2, fun es => ?_, fun es s hs hchange heos => ?_⟩
    · rw [← hphase, (recorder_linearizes.run ⟨hinv, hstart⟩ es).2]
      rfl
    · have hfollows := (recorder_linearizes.run ⟨hinv, hstart⟩ es).1.2
      rw [hs] at hfollows
      have hrun := RecorderRun.inv_run camId config
        (effects (trace (recorderThreadStep true) recorderMarks { data := rtspOpen camId config } es))
      rw [← run_recorderTalk { run := .opened camId config }] at hrun
      have hdata : (Machine.run RecorderTalk.step { run := .opened camId config } (effects (trace
          (recorderThreadStep true) recorderMarks { data := rtspOpen camId config } es))).run.gst = s.data := by
        rw [hfollows.data, hchange, heos]
        rfl
      have hexclusive := hrun.exclusive
      have hpad := hrun.pad
      rw [hdata] at hexclusive hpad
      refine ⟨hexclusive, fun hready => ?_⟩
      rw [if_neg (not_not.mpr hready)] at hpad
      exact hpad

end MissionServer
