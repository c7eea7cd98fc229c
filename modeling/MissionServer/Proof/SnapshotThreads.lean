import MissionServer.Lib.Linearization
import MissionServer.Proof.Snapshots
import MissionServer.RtspStream.Threads

/-!
# Snapshots, statement by statement

The callback takes no lock, and still each of its calls is as good as atomic: it takes effect where it takes the flag
back, or where it finds it down. Only the streaming thread takes the flag back, so what it has found set stays set.
-/

namespace MissionServer

open Linearization

variable {ι : Type}

/-! ### The calls -/

inductive RtspThread (ι : Type)
  | saveImage (i : ι)
  | newSample
  | saver
  deriving DecidableEq

inductive RtspCall
  | snapshot (step : SnapshotStep)
  | saver

/-- The calls one after the other. -/
def rtspCallStep (s : SnapshotRun) : RtspCall → SnapshotRun
  | .snapshot step => snapshotStep s step
  | .saver => { s with data := rtspSaver s.data }

def saveImageMarks (i : ι) (s : RtspThreads ι) : List (CallMark (RtspThread ι) RtspCall) :=
  match s.saveImage i with
  | .outside =>
      if s.data.cameraReady then [.begins (.saveImage i)]
      else [.begins (.saveImage i), .effect (.saveImage i) (.snapshot .request), .returns (.saveImage i)]
  | .locks => []
  | .assigns => [.effect (.saveImage i) (.snapshot .request)]
  | .unlocks => [.returns (.saveImage i)]

theorem thread_saveImageMarks {i : ι} {s : RtspThreads ι} {mark : CallMark (RtspThread ι) RtspCall}
    (h : mark ∈ saveImageMarks i s) : mark.thread = .saveImage i := by
  have hall : ∀ mark ∈ saveImageMarks i s, mark.thread = .saveImage i := by
    rw [saveImageMarks]
    cases s.saveImage i with
    | outside => dsimp only; split <;> simp [CallMark.thread]
    | locks => simp
    | assigns => simp [CallMark.thread]
    | unlocks => simp [CallMark.thread]
  exact hall mark h

def newSampleMarks (sample : Bool) (timeinfo : Tm) (s : RtspThreads ι) : List (CallMark (RtspThread ι) RtspCall) :=
  match s.newSample with
  | .outside => if sample then [.begins .newSample] else []
  | .tests =>
      if s.data.snapshotRequest then []
      else [.effect .newSample (.snapshot (.sample timeinfo)), .returns .newSample]
  | .clears => [.effect .newSample (.snapshot (.sample timeinfo))]
  | .saves _ => []
  | .releases => [.returns .newSample]

/-- Where the calls begin, take effect and return. -/
def rtspMarks (s : RtspThreads ι) : RtspEvent ι → List (CallMark (RtspThread ι) RtspCall)
  | .saveImage i => saveImageMarks i s
  | .newSample sample timeinfo => newSampleMarks sample timeinfo s
  | .saver => [.begins .saver, .effect .saver .saver, .returns .saver]

def SaveImagePc.phase : SaveImagePc → Phase
  | .outside => .outside
  | .locks => .called
  | .assigns => .called
  | .unlocks => .effective

def NewSamplePc.phase : NewSamplePc → Phase
  | .outside => .outside
  | .tests => .called
  | .clears => .called
  | .saves _ => .effective
  | .releases => .effective

/-- How far each thread is with its call. -/
def rtspPhase (saveImage : ι → SaveImagePc) (newSample : NewSamplePc) : RtspThread ι → Phase
  | .saveImage i => (saveImage i).phase
  | .newSample => newSample.phase
  | .saver => .outside

def RtspThreads.phase (s : RtspThreads ι) : RtspThread ι → Phase := rtspPhase s.saveImage s.newSample

/-! ### The threads follow the calls -/

/-- What a callback has done before it takes effect. -/
def NewSamplePc.early : NewSamplePc → List SampleCall
  | .tests => [.pull]
  | .clears => [.pull]
  | _ => []

/-- What it is still to do when it has taken effect. -/
def NewSamplePc.late (savePath : String) : NewSamplePc → List SampleCall
  | .saves timestamp => [.save (savePath ++ "/" ++ timestamp ++ ".jpg"), .unref]
  | .releases => [.unref]
  | _ => []

structure FollowsCalls (s : RtspThreads ι) (t : SnapshotRun) : Prop where
  data : t.data = s.data
  calls : t.calls ++ s.newSample.early = s.calls ++ s.newSample.late s.data.rtspConfig.savePath
  ready : ∀ i, (s.saveImage i).phase = .called → s.data.cameraReady = true
  flag : s.newSample = .clears → s.data.snapshotRequest = true

/-- The callback's step, where the calls it has made and those it is still to make add up. -/
theorem FollowsCalls.newSample {s s' : RtspThreads ι} {t t' : SnapshotRun} (h : FollowsCalls s t)
    (hdata : t'.data = s'.data) (hready : s'.data.cameraReady = s.data.cameraReady) (hsave : s'.saveImage = s.saveImage)
    (hcalls : t'.calls ++ s'.newSample.early = s'.calls ++ s'.newSample.late s'.data.rtspConfig.savePath)
    (hflag : s'.newSample = .clears → s'.data.snapshotRequest = true) : FollowsCalls s' t' where
  data := hdata
  calls := hcalls
  ready i hcalled := hready.trans (h.ready i (hsave ▸ hcalled))
  flag := hflag

theorem follows_newSample {s : RtspThreads ι} {t : SnapshotRun} (h : FollowsCalls s t) (sample : Bool) (timeinfo : Tm) :
    FollowsCalls (newSampleStep sample timeinfo s)
      (Machine.run rtspCallStep t (effects (newSampleMarks sample timeinfo s))) := by
  have hcalls := h.calls
  have hflag := h.flag
  rw [newSampleMarks, newSampleStep, newSampleCalls]
  cases hpc : s.newSample with
  | outside =>
      rw [hpc] at hcalls
      simp only [NewSamplePc.early, NewSamplePc.late, List.append_nil] at hcalls
      cases sample with
      | false =>
          refine h.newSample h.data rfl rfl ?_ fun hpc => NewSamplePc.noConfusion hpc
          show t.calls ++ [] = (s.calls ++ []) ++ []
          simp only [hcalls, List.append_nil]
      | true =>
          refine h.newSample h.data rfl rfl ?_ fun hpc => NewSamplePc.noConfusion hpc
          show t.calls ++ [.pull] = (s.calls ++ [.pull]) ++ []
          rw [hcalls, List.append_nil]
  | tests =>
      rw [hpc] at hcalls
      simp only [NewSamplePc.early, NewSamplePc.late, List.append_nil] at hcalls
      dsimp only
      by_cases hflag : s.data.snapshotRequest = true
      · rw [if_pos hflag, if_pos hflag]
        refine h.newSample h.data rfl rfl ?_ fun _ => hflag
        show t.calls ++ [.pull] = (s.calls ++ []) ++ []
        rw [hcalls, List.append_nil, List.append_nil]
      · rw [if_neg hflag, if_neg hflag]
        have hcall : onNewSampleCalls true timeinfo t.data = (t.data, [.pull]) := by
          rw [h.data, onNewSampleCalls, Bool.true_and, if_neg hflag]
          rfl
        refine h.newSample ?_ rfl rfl ?_ fun hpc => NewSamplePc.noConfusion hpc
        · show (onNewSampleCalls true timeinfo t.data).1 = s.data
          rw [hcall, h.data]
        · show (t.calls ++ (onNewSampleCalls true timeinfo t.data).2) ++ [] = (s.calls ++ []) ++ []
          simp only [hcall, hcalls, List.append_nil]
  | clears =>
      rw [hpc] at hcalls
      simp only [NewSamplePc.early, NewSamplePc.late, List.append_nil] at hcalls
      have hcall : onNewSampleCalls true timeinfo t.data = ({ s.data with snapshotRequest := false },
          [.pull, .save (s.data.rtspConfig.savePath ++ "/" ++ generateTimestamp timeinfo ++ ".jpg"), .unref]) := by
        rw [h.data, onNewSampleCalls, Bool.true_and, if_pos (hflag hpc)]
        rfl
      refine h.newSample ?_ rfl rfl ?_ fun hpc => NewSamplePc.noConfusion hpc
      · show (onNewSampleCalls true timeinfo t.data).1 = _
        rw [hcall]
      · show (t.calls ++ (onNewSampleCalls true timeinfo t.data).2) ++ [] = (s.calls ++ []) ++ [_, .unref]
        rw [hcall, ← hcalls, List.append_nil, List.append_nil, List.append_assoc]
        rfl
  | saves timestamp =>
      rw [hpc] at hcalls
      simp only [NewSamplePc.early, NewSamplePc.late, List.append_nil] at hcalls
      refine h.newSample h.data rfl rfl ?_ fun hpc => NewSamplePc.noConfusion hpc
      show t.calls ++ [] = (s.calls ++ [_]) ++ [.unref]
      rw [hcalls, List.append_nil, List.append_assoc]
      rfl
  | releases =>
      rw [hpc] at hcalls
      simp only [NewSamplePc.early, NewSamplePc.late, List.append_nil] at hcalls
      refine h.newSample h.data rfl rfl ?_ fun hpc => NewSamplePc.noConfusion hpc
      show t.calls ++ [] = (s.calls ++ [.unref]) ++ []
      simp only [hcalls, List.append_nil]

/-! ### rtsp_saver -/

theorem snapshotRequest_rtspSaver (data : GstData) :
    (rtspSaver data).snapshotRequest = data.snapshotRequest := by
  rw [rtspSaver]
  split <;> rfl

theorem follows_saver {s : RtspThreads ι} {t : SnapshotRun} (h : FollowsCalls s t) :
    FollowsCalls { s with data := rtspSaver s.data } { t with data := rtspSaver t.data } := by
  have hconfig : (rtspSaver s.data).rtspConfig = s.data.rtspConfig := by
    rw [rtspSaver]
    split <;> rfl
  have hready : (rtspSaver s.data).cameraReady = true := by
    rw [rtspSaver]
    split
    case isTrue hready => exact hready
    case isFalse => rfl
  refine ⟨congrArg rtspSaver h.data, ?_, fun _ _ => hready, fun hpc => ?_⟩
  · rw [hconfig]
    exact h.calls
  · exact (snapshotRequest_rtspSaver s.data).trans (h.flag hpc)

/-! ### Images and requests -/

/-- The calls that ask for an image. -/
def RtspCall.isRequest : RtspCall → Bool
  | .snapshot step => step.isRequest
  | .saver => false

/-- One image for each request at most, and one of them yet to come where the flag is set. -/
theorem images_le_requests (data : GstData) (hidle : data.snapshotRequest = false) (calls : List RtspCall) :
    (Machine.run rtspCallStep { data } calls).calls.countP (·.isSave) +
        (Machine.run rtspCallStep { data } calls).data.snapshotRequest.toNat ≤ calls.countP (·.isRequest) := by
  induction calls using List.reverseRecOn with
  | nil => simp [hidle]
  | append_singleton calls call ih =>
      rw [Machine.run_concat, List.countP_append]
      generalize Machine.run rtspCallStep { data } calls = t at ih ⊢
      cases call with
      | saver =>
          rw [rtspCallStep, snapshotRequest_rtspSaver]
          exact ih
      | snapshot step =>
          cases step with
          | request =>
              have hflag : (rtspSaveImage t.data).snapshotRequest.toNat ≤ 1 := Bool.toNat_le _
              show t.calls.countP (·.isSave) + (rtspSaveImage t.data).snapshotRequest.toNat ≤
                calls.countP (·.isRequest) + 1
              omega
          | sample timeinfo =>
              show (t.calls ++ (onNewSampleCalls true timeinfo t.data).2).countP (·.isSave) +
                (onNewSampleCalls true timeinfo t.data).1.snapshotRequest.toNat ≤ calls.countP (·.isRequest) + 0
              rw [List.countP_append, onNewSampleCalls, Bool.true_and]
              cases hflag : t.data.snapshotRequest with
              | true => simpa [hflag, SampleCall.isSave] using ih
              | false => simpa [hflag, SampleCall.isSave] using ih

/-! ### Requests still to be answered -/

/-- An image is still to be written. -/
def Pending (s : RtspThreads ι) : Prop := s.data.snapshotRequest = true ∨ ∃ timestamp, s.newSample = .saves timestamp

/-- The streaming thread is in the callback that writes it. -/
def Engaged (s : RtspThreads ι) : Prop := Pending s ∧ s.newSample ≠ .outside ∧ s.newSample ≠ .releases

theorem pending_saver {s : RtspThreads ι} (h : Pending s) : Pending { s with data := rtspSaver s.data } :=
  h.imp_left (snapshotRequest_rtspSaver s.data).trans

theorem pending_newSample (sample : Bool) (timeinfo : Tm) {s : RtspThreads ι} (h : Pending s) :
    Pending (newSampleStep sample timeinfo s) ∨ ∃ file, .save file ∈ newSampleCalls sample s := by
  rw [newSampleStep, newSampleCalls]
  cases hpc : s.newSample with
  | saves timestamp => exact .inr ⟨_, List.mem_singleton_self _⟩
  | clears => exact .inl (.inr ⟨_, rfl⟩)
  | outside =>
      have hflag := h.resolve_right (by simp [hpc])
      dsimp only
      split <;> exact .inl (.inl hflag)
  | tests => exact .inl (.inl (h.resolve_right (by simp [hpc])))
  | releases => exact .inl (.inl (h.resolve_right (by simp [hpc])))

theorem begins_mem_newSampleMarks {sample : Bool} {timeinfo : Tm} {s : RtspThreads ι}
    (h : .begins .newSample ∈ newSampleMarks sample timeinfo s) : s.newSample = .outside ∧ sample = true := by
  rw [newSampleMarks] at h
  cases hpc : s.newSample with
  | outside =>
      cases sample with
      | false => simp [hpc] at h
      | true => exact ⟨rfl, rfl⟩
  | tests =>
      simp only [hpc] at h
      split at h <;> simp at h
  | clears => simp [hpc] at h
  | saves timestamp => simp [hpc] at h
  | releases => simp [hpc] at h

theorem engaged_newSample (sample : Bool) (timeinfo : Tm) {s : RtspThreads ι} (h : Engaged s) :
    (Engaged (newSampleStep sample timeinfo s) ∧ .returns .newSample ∉ newSampleMarks sample timeinfo s) ∨
      ∃ file, .save file ∈ newSampleCalls sample s := by
  obtain ⟨hpending, houtside, hreleases⟩ := h
  rw [newSampleStep, newSampleMarks, newSampleCalls]
  cases hpc : s.newSample with
  | outside => exact absurd hpc houtside
  | tests =>
      have hflag : s.data.snapshotRequest = true := hpending.resolve_right (by simp [hpc])
      dsimp only
      rw [if_pos hflag, if_pos hflag]
      exact .inl ⟨⟨.inl hflag, nofun, nofun⟩, List.not_mem_nil⟩
  | clears => exact .inl ⟨⟨.inr ⟨_, rfl⟩, nofun, nofun⟩, by simp⟩
  | saves timestamp => exact .inr ⟨_, List.mem_singleton_self _⟩
  | releases => exact absurd hpc hreleases

variable [DecidableEq ι]

theorem rtspPhase_saveImage (saveImage : ι → SaveImagePc) (newSample : NewSamplePc) (i : ι) (pc : SaveImagePc) :
    Function.update (rtspPhase saveImage newSample) (.saveImage i) pc.phase =
      rtspPhase (Function.update saveImage i pc) newSample := by
  funext thread
  cases thread with
  | saveImage j =>
      by_cases hj : j = i
      · rw [hj, Function.update_self, rtspPhase, Function.update_self]
      · rw [Function.update_of_ne (by simpa using hj), rtspPhase, rtspPhase, Function.update_of_ne hj]
  | newSample => rfl
  | saver => rfl

theorem rtspPhase_newSample (saveImage : ι → SaveImagePc) (newSample pc : NewSamplePc) :
    Function.update (rtspPhase saveImage newSample) .newSample pc.phase = rtspPhase saveImage pc := by
  funext thread
  cases thread with
  | saveImage j => rfl
  | newSample => rw [Function.update_self, rtspPhase]
  | saver => rfl

/-! ### rtsp_save_image -/

theorem phases_saveImage (i : ι) (s : RtspThreads ι) :
    phases s.phase (saveImageMarks i s) = some (saveImageStep i s).phase := by
  have hphase : s.phase (.saveImage i) = (s.saveImage i).phase := rfl
  have hgoto (pc : SaveImagePc) := congrArg some (rtspPhase_saveImage s.saveImage s.newSample i pc)
  rw [saveImageMarks, saveImageStep]
  cases hpc : s.saveImage i with
  | outside =>
      rw [hpc] at hphase
      by_cases hready : s.data.cameraReady = true
      · dsimp only
        rw [if_pos hready, if_pos hready]
        exact (phases_begins hphase).trans (hgoto .locks)
      · dsimp only
        rw [if_neg hready, if_neg hready]
        exact phases_whole hphase _
  | locks =>
      have hstay : Function.update s.phase (.saveImage i) .called = s.phase := by
        rw [hpc] at hphase
        exact Function.update_eq_self_iff.mpr hphase.symm
      dsimp only
      split
      · exact (congrArg some hstay.symm).trans (hgoto .assigns)
      · rfl
  | assigns =>
      rw [hpc] at hphase
      exact (phases_effect hphase _).trans (hgoto .unlocks)
  | unlocks =>
      rw [hpc] at hphase
      exact (phases_returns hphase).trans (hgoto .outside)

theorem follows_saveImage {s : RtspThreads ι} {t : SnapshotRun} (h : FollowsCalls s t) (i : ι) :
    FollowsCalls (saveImageStep i s) (Machine.run rtspCallStep t (effects (saveImageMarks i s))) := by
  have hothers (pc : SaveImagePc) (hpc : pc.phase = .called → s.data.cameraReady = true) (j : ι)
      (hj : (Function.update s.saveImage i pc j).phase = .called) : s.data.cameraReady = true := by
    by_cases hji : j = i
    · rw [hji, Function.update_self] at hj
      exact hpc hj
    · rw [Function.update_of_ne hji] at hj
      exact h.ready j hj
  have hready (hpc : (s.saveImage i).phase = .called) : s.data.cameraReady = true := h.ready i hpc
  rw [saveImageMarks, saveImageStep]
  cases hpc : s.saveImage i with
  | outside =>
      dsimp only
      split
      case isTrue hready => exact ⟨h.data, h.calls, hothers .locks fun _ => hready, h.flag⟩
      case isFalse hready =>
          have hcall : snapshotStep t .request = t := by
            rw [snapshotStep, h.data, rtspSaveImage, if_pos hready, ← h.data]
          exact (congrArg (FollowsCalls s) hcall).mpr h
  | locks =>
      rw [hpc] at hready
      dsimp only
      split
      · exact ⟨h.data, h.calls, hothers .assigns fun _ => hready rfl, h.flag⟩
      · exact h
  | assigns =>
      rw [hpc] at hready
      refine ⟨?_, h.calls, hothers .unlocks (fun _ => hready rfl), fun _ => rfl⟩
      show rtspSaveImage t.data = _
      rw [h.data, rtspSaveImage, if_neg (not_not.mpr (hready rfl))]
  | unlocks => exact ⟨h.data, h.calls, hothers .outside (fun hcalled => Phase.noConfusion hcalled), h.flag⟩

/-! ### on_new_sample_handler -/

theorem phases_newSample (sample : Bool) (timeinfo : Tm) (s : RtspThreads ι) :
    phases s.phase (newSampleMarks sample timeinfo s) = some (newSampleStep sample timeinfo s).phase := by
  have hphase : s.phase .newSample = s.newSample.phase := rfl
  have hgoto (pc : NewSamplePc) := congrArg some (rtspPhase_newSample s.saveImage s.newSample pc)
  have hstay : Function.update s.phase .newSample s.newSample.phase = s.phase := Function.update_eq_self _ _
  rw [newSampleMarks, newSampleStep]
  cases hpc : s.newSample with
  | outside =>
      rw [hpc] at hphase hstay
      cases sample with
      | false => exact (congrArg some hstay.symm).trans (hgoto .outside)
      | true => exact (phases_begins hphase).trans (hgoto .tests)
  | tests =>
      rw [hpc] at hphase hstay
      dsimp only
      by_cases hflag : s.data.snapshotRequest = true
      · rw [if_pos hflag, if_pos hflag]
        exact (congrArg some hstay.symm).trans (hgoto .clears)
      · rw [if_neg hflag, if_neg hflag]
        exact (phases_last hphase _).trans (hgoto .outside)
  | clears =>
      rw [hpc] at hphase
      exact (phases_effect hphase _).trans (hgoto (.saves _))
  | saves timestamp =>
      rw [hpc] at hstay
      exact (congrArg some hstay.symm).trans (hgoto .releases)
  | releases =>
      rw [hpc] at hphase
      exact (phases_returns hphase).trans (hgoto .outside)

/-! ### Every schedule -/

theorem rtsp_linearizes : Linearizes (rtspStep (ι := ι)) rtspMarks rtspCallStep RtspThreads.phase FollowsCalls where
  simulates s t e h := by
    cases e with
    | saveImage i => exact follows_saveImage h i
    | newSample sample timeinfo => exact follows_newSample h sample timeinfo
    | saver => exact follows_saver h
  phased s t e h := by
    cases e with
    | saveImage i => exact phases_saveImage i s
    | newSample sample timeinfo => exact phases_newSample sample timeinfo s
    | saver => exact phases_whole rfl _

/-! ### A request is answered -/

/-- The calls of the callback's step. -/
def rtspCalls (s : RtspThreads ι) : RtspEvent ι → List SampleCall
  | .newSample sample _ => newSampleCalls sample s
  | _ => []

theorem saveImageStep_spec (i : ι) (s : RtspThreads ι) :
    (saveImageStep i s).newSample = s.newSample ∧
      ((saveImageStep i s).data = s.data ∨ (saveImageStep i s).data = { s.data with snapshotRequest := true }) := by
  rw [saveImageStep]
  cases s.saveImage i with
  | outside => dsimp only; split <;> exact ⟨rfl, .inl rfl⟩
  | locks => dsimp only; split <;> exact ⟨rfl, .inl rfl⟩
  | assigns => exact ⟨rfl, .inr rfl⟩
  | unlocks => exact ⟨rfl, .inl rfl⟩

theorem pending_saveImage (i : ι) {s : RtspThreads ι} (h : Pending s) : Pending (saveImageStep i s) := by
  obtain ⟨hpc, hdata⟩ := saveImageStep_spec i s
  obtain hflag | hsaves := h
  · obtain hdata | hdata := hdata
    · exact .inl (hdata ▸ hflag)
    · exact .inl (hdata ▸ rfl)
  · exact .inr (hpc ▸ hsaves)

theorem pending_step {s : RtspThreads ι} (h : Pending s) (e : RtspEvent ι) :
    Pending (rtspStep s e) ∨ ∃ file, .save file ∈ rtspCalls s e := by
  cases e with
  | saveImage i => exact .inl (pending_saveImage i h)
  | newSample sample timeinfo => exact pending_newSample sample timeinfo h
  | saver => exact .inl (pending_saver h)

/-- The callback does not return before it has written its image. -/
theorem engaged_step {s : RtspThreads ι} (h : Engaged s) (e : RtspEvent ι) :
    (Engaged (rtspStep s e) ∧ .returns .newSample ∉ rtspMarks s e) ∨ ∃ file, .save file ∈ rtspCalls s e := by
  have ⟨hpending, hcalled⟩ := h
  cases e with
  | saveImage i =>
      refine .inl ⟨⟨pending_saveImage i hpending, ?_⟩, fun hreturns => nomatch thread_saveImageMarks hreturns⟩
      rw [rtspStep, (saveImageStep_spec i s).1]
      exact hcalled
  | newSample sample timeinfo => exact engaged_newSample sample timeinfo h
  | saver => exact .inl ⟨⟨pending_saver hpending, hcalled⟩, by simp [rtspMarks]⟩

theorem engaged_run {s : RtspThreads ι} (h : Engaged s) {es : List (RtspEvent ι)}
    (hreturns : .returns .newSample ∈ trace rtspStep rtspMarks s es) :
    ∃ file, .save file ∈ trace rtspStep rtspCalls s es := by
  induction es generalizing s with
  | nil => exact absurd hreturns List.not_mem_nil
  | cons e es ih =>
      obtain ⟨hnext, hinside⟩ | ⟨file, hsaved⟩ := engaged_step h e
      · obtain hreturns | hreturns := List.mem_append.mp hreturns
        · exact absurd hreturns hinside
        · obtain ⟨file, hsaved⟩ := ih hnext hreturns
          exact ⟨file, List.mem_append_right _ hsaved⟩
      · exact ⟨file, List.mem_append_left _ hsaved⟩

theorem pending_run {s : RtspThreads ι} (h : Pending s) (es : List (RtspEvent ι)) :
    Pending (Machine.run rtspStep s es) ∨ ∃ file, .save file ∈ trace rtspStep rtspCalls s es := by
  induction es generalizing s with
  | nil => exact .inl h
  | cons e es ih =>
      obtain hnext | ⟨file, hsaved⟩ := pending_step h e
      · exact (ih hnext).imp_right fun ⟨file, hsaved⟩ => ⟨file, List.mem_append_right _ hsaved⟩
      · exact .inr ⟨file, List.mem_append_left _ hsaved⟩

/-- Where a callback begins with an image to write, the streaming thread is in it. -/
theorem engaged_of_begins {s : RtspThreads ι} (h : Pending s) {e : RtspEvent ι}
    (hbegins : .begins .newSample ∈ rtspMarks s e) : Engaged (rtspStep s e) := by
  cases e with
  | saveImage i => exact nomatch thread_saveImageMarks hbegins
  | newSample sample timeinfo =>
      obtain ⟨hpc, rfl⟩ := begins_mem_newSampleMarks hbegins
      have hflag : s.data.snapshotRequest = true := h.resolve_right (by simp [hpc])
      rw [rtspStep, newSampleStep, hpc]
      exact ⟨.inl hflag, nofun, nofun⟩
  | saver => simp [rtspMarks] at hbegins

/-- From here on, where a callback begins and returns an image has been written. -/
def Answered (s : RtspThreads ι) : Prop :=
  ∀ mid e back, .begins .newSample ∈ rtspMarks (Machine.run rtspStep s mid) e →
    .returns .newSample ∈ trace rtspStep rtspMarks (rtspStep (Machine.run rtspStep s mid) e) back →
    ∃ file, .save file ∈ trace rtspStep rtspCalls s (mid ++ e :: back)

theorem answered_of_pending {s : RtspThreads ι} (h : Pending s) : Answered s := by
  intro mid e back hbegins hreturns
  rw [trace_append, trace]
  obtain hpending | ⟨file, hsaved⟩ := pending_run h mid
  · obtain ⟨file, hsaved⟩ := engaged_run (engaged_of_begins hpending hbegins) hreturns
    exact ⟨file, List.mem_append_right _ (List.mem_append_right _ hsaved)⟩
  · exact ⟨file, List.mem_append_left _ hsaved⟩

/-! ### The threads -/

/-- What the threads are to be, whatever the scheduler does. -/
structure SnapshotsAtomic (s₀ : RtspThreads ι) : Prop where
  /-- Data and files are those of the calls made one after the other, each where it takes effect. -/
  follows : ∀ es, FollowsCalls (Machine.run rtspStep s₀ es)
    (Machine.run rtspCallStep { data := s₀.data } (effects (trace rtspStep rtspMarks s₀ es)))
  /-- A call takes effect once, after its begin and before its return. -/
  once : ∀ es, (phases (fun _ => .outside) (trace rtspStep rtspMarks s₀ es)).isSome
  images : ∀ es, (Machine.run rtspStep s₀ es).calls.countP (·.isSave) ≤
    (effects (trace rtspStep rtspMarks s₀ es)).countP (·.isRequest)
  answered : ∀ i front, (Machine.run rtspStep s₀ front).saveImage i = .assigns →
    Answered (Machine.run rtspStep s₀ (front ++ [.saveImage i]))

theorem snapshots_atomic (camId : Int) (args : RtspConfig) :
    SnapshotsAtomic ({ data := rtspOpen camId args } : RtspThreads ι) := by
  have hstart : FollowsCalls ({ data := rtspOpen camId args } : RtspThreads ι) { data := rtspOpen camId args } :=
    ⟨rfl, rfl, nofun, nofun⟩
  have hphase : ({ data := rtspOpen camId args } : RtspThreads ι).phase = fun _ => .outside := by
    funext thread
    cases thread <;> rfl
  refine ⟨fun es => (rtsp_linearizes.run hstart es).1, fun es => ?_, fun es => ?_, ?_⟩
  · rw [← hphase, (rtsp_linearizes.run hstart es).2]
    rfl
  · have hfollows := (rtsp_linearizes.run hstart es).1
    have hbound := images_le_requests (rtspOpen camId args) rfl
      (effects (trace rtspStep rtspMarks ({ data := rtspOpen camId args } : RtspThreads ι) es))
    have hcount := congrArg (List.countP (·.isSave)) hfollows.calls
    rw [List.countP_append, List.countP_append] at hcount
    have hearly (pc : NewSamplePc) : pc.early.countP (·.isSave) = 0 := by
      cases pc <;> rfl
    rw [hearly] at hcount
    omega
  · intro i front hassigns
    apply answered_of_pending
    rw [Machine.run_concat, rtspStep, saveImageStep, hassigns]
    exact .inl rfl

end MissionServer
