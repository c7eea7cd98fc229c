import MissionServer.Lib.Machine
import MissionServer.RtspStream

/-!
# Snapshots and the samples they are taken from

Requests and callbacks in any order. A request is answered by the next callback, which writes one image for
all that came since the last; but a callback releases its sample only where it writes an image.
-/

namespace MissionServer

inductive SnapshotStep
  | request
  | sample (timeinfo : Tm)
  deriving DecidableEq, Repr

def SnapshotStep.isRequest : SnapshotStep → Bool
  | .request => true
  | .sample _ => false

/-- A camera with all that its callbacks have done. -/
structure SnapshotRun where
  data : GstData
  calls : List SampleCall := []
  deriving DecidableEq, Repr

def snapshotStep (s : SnapshotRun) : SnapshotStep → SnapshotRun
  | .request => { s with data := rtspSaveImage s.data }
  | .sample timeinfo =>
      let (data, calls) := onNewSampleCalls true timeinfo s.data
      { data, calls := s.calls ++ calls }

/-- What the callback does that comes after `steps`. -/
def callbackAfter (s : SnapshotRun) (steps : List SnapshotStep) (timeinfo : Tm) : List SampleCall :=
  (onNewSampleCalls true timeinfo (Machine.run snapshotStep s steps).data).2

/-- The requests since the last callback. -/
def requestsSince (steps : List SnapshotStep) : Nat := (steps.reverse.takeWhile (·.isRequest)).length

def SampleCall.isSave : SampleCall → Bool
  | .save _ => true
  | _ => false

def unreleased (calls : List SampleCall) : Int := calls.count .pull - calls.count .unref

theorem onNewSampleHandler_eq_calls (sample : Bool) (timeinfo : Tm) (data : GstData) :
    onNewSampleHandler sample timeinfo data =
      ((onNewSampleCalls sample timeinfo data).1, (onNewSampleCalls sample timeinfo data).2.filterMap fun
        | .save file => some (.imageSaved data.cameraId file)
        | _ => none) := by
  rw [onNewSampleHandler, onNewSampleCalls]
  cases sample <;> cases data.snapshotRequest <;> rfl

theorem requestsSince_request (steps : List SnapshotStep) :
    requestsSince (steps ++ [.request]) = requestsSince steps + 1 := by
  rw [requestsSince, List.reverse_append, List.reverse_singleton, List.singleton_append,
    List.takeWhile_cons_of_pos rfl, List.length_cons, requestsSince]

theorem requestsSince_sample (steps : List SnapshotStep) (timeinfo : Tm) :
    requestsSince (steps ++ [.sample timeinfo]) = 0 := by
  rw [requestsSince, List.reverse_append, List.reverse_singleton, List.singleton_append,
    List.takeWhile_cons_of_neg Bool.false_ne_true, List.length_nil]

/-- The flag stands for the requests since the last callback, and nothing else changes. -/
theorem snapshotRun_data {data : GstData} (hready : data.cameraReady = true) (hidle : data.snapshotRequest = false)
    (calls : List SampleCall) (steps : List SnapshotStep) :
    (Machine.run snapshotStep { data, calls } steps).data =
      { data with snapshotRequest := decide (0 < requestsSince steps) } := by
  induction steps using List.reverseRecOn with
  | nil =>
      rw [Machine.run_nil]
      show data = { data with snapshotRequest := false }
      rw [← hidle]
  | append_singleton steps step ih =>
      rw [Machine.run_concat]
      cases step with
      | request =>
          have hnext : decide (0 < requestsSince steps + 1) = true := by
            simp
          simp only [snapshotStep, ih, rtspSaveImage, hready, requestsSince_request, hnext]
          rfl
      | sample timeinfo =>
          rw [requestsSince_sample]
          simp only [snapshotStep, ih, onNewSampleCalls]
          by_cases hpending : 0 < requestsSince steps
          · simp [hpending]
          · simp [hpending]

theorem callbackAfter_eq {data : GstData} (hready : data.cameraReady = true) (hidle : data.snapshotRequest = false)
    (calls : List SampleCall) (steps : List SnapshotStep) (timeinfo : Tm) :
    callbackAfter { data, calls } steps timeinfo =
      .pull :: if 0 < requestsSince steps then
        [.save (data.rtspConfig.savePath ++ "/" ++ generateTimestamp timeinfo ++ ".jpg"), .unref] else [] := by
  rw [callbackAfter, snapshotRun_data hready hidle, onNewSampleCalls]
  by_cases hpending : 0 < requestsSince steps
  · simp [hpending]
  · simp [hpending]

/-- What snapshots are to be: a callback writes one image where there has been a request since the last one, and
none elsewhere, it releases the sample it pulls once, and between callbacks no sample is held. -/
structure SnapshotsRight (s : SnapshotRun) (steps : List SnapshotStep) : Prop where
  images : ∀ front timeinfo, front ++ [.sample timeinfo] <+: steps →
    (callbackAfter s front timeinfo).countP (·.isSave) = if 0 < requestsSince front then 1 else 0
  released : ∀ front timeinfo, front ++ [.sample timeinfo] <+: steps →
    (callbackAfter s front timeinfo).count .pull = 1 ∧ (callbackAfter s front timeinfo).count .unref = 1
  balanced : Machine.Always snapshotStep (fun s => unreleased s.calls = 0) s steps

section Run

variable {data : GstData} (hready : data.cameraReady = true) (hidle : data.snapshotRequest = false)

include hready hidle

theorem countP_isSave_callbackAfter (front : List SnapshotStep) (timeinfo : Tm) :
    (callbackAfter { data } front timeinfo).countP (·.isSave) = if 0 < requestsSince front then 1 else 0 := by
  rw [callbackAfter_eq hready hidle]
  split <;> rfl

theorem count_unref_callbackAfter (front : List SnapshotStep) (timeinfo : Tm) :
    (callbackAfter { data } front timeinfo).count .unref = if 0 < requestsSince front then 1 else 0 := by
  rw [callbackAfter_eq hready hidle]
  split <;> simp

theorem count_pull_callbackAfter (front : List SnapshotStep) (timeinfo : Tm) :
    (callbackAfter { data } front timeinfo).count .pull = 1 := by
  rw [callbackAfter_eq hready hidle]
  split <;> simp

end Run

/-- A step from a state that holds no sample holds none again, unless it is a callback with no request. -/
theorem unreleased_step_iff (s : SnapshotRun) (step : SnapshotStep) (h : unreleased s.calls = 0) :
    unreleased (snapshotStep s step).calls = 0 ↔ step.isRequest = true ∨ s.data.snapshotRequest = true := by
  cases step with
  | request => exact iff_of_true h (.inl rfl)
  | sample timeinfo =>
      rw [unreleased] at h
      cases hpending : s.data.snapshotRequest with
      | true =>
          simp [snapshotStep, onNewSampleCalls, hpending, unreleased, SnapshotStep.isRequest]
          omega
      | false =>
          simp [snapshotStep, onNewSampleCalls, hpending, unreleased, SnapshotStep.isRequest]
          omega

section Run

variable {data : GstData} (hready : data.cameraReady = true) (hidle : data.snapshotRequest = false)

include hready hidle

theorem balanced_iff (steps : List SnapshotStep) :
    Machine.Always snapshotStep (fun s => unreleased s.calls = 0) { data } steps ↔
      ∀ front timeinfo, front ++ [.sample timeinfo] <+: steps → 0 < requestsSince front := by
  have hflag : ∀ front, (Machine.run snapshotStep { data } front).data.snapshotRequest = true ↔
      0 < requestsSince front := by
    intro front
    rw [snapshotRun_data hready hidle, decide_eq_true_iff]
  rw [Machine.always_iff_eachStep snapshotStep (I := fun _ => True) (fun _ _ _ => trivial)
    (fun s step _ => unreleased_step_iff s step) trivial rfl]
  constructor
  · intro h front timeinfo hfront
    obtain hrequest | hpending := h front (.sample timeinfo) hfront
    · cases hrequest
    · exact (hflag front).mp hpending
  · intro h front step hfront
    cases step with
    | request => exact .inl rfl
    | sample timeinfo => exact .inr ((hflag front).mpr (h front timeinfo hfront))

/-- The images are right in every run. The samples are released in exactly the runs whose callbacks all come
with a request since the one before. -/
theorem snapshots_right_iff (steps : List SnapshotStep) :
    (∀ front timeinfo, (callbackAfter { data } front timeinfo).countP (·.isSave) =
      if 0 < requestsSince front then 1 else 0) ∧
    (SnapshotsRight { data } steps ↔
      ∀ front timeinfo, front ++ [.sample timeinfo] <+: steps → 0 < requestsSince front) := by
  refine ⟨countP_isSave_callbackAfter hready hidle, ?_⟩
  constructor
  · intro h
    exact (balanced_iff hready hidle steps).mp h.balanced
  · intro hrequested
    refine ⟨?_, ?_, (balanced_iff hready hidle steps).mpr hrequested⟩
    · intro front timeinfo _
      exact countP_isSave_callbackAfter hready hidle front timeinfo
    · intro front timeinfo hfront
      refine ⟨count_pull_callbackAfter hready hidle front timeinfo, ?_⟩
      rw [count_unref_callbackAfter hready hidle, if_pos (hrequested front timeinfo hfront)]

end Run

/-! A camera as `rtsp_saver` leaves it. -/

def readyCamera : GstData :=
  rtspSaver (rtspOpen 0
    { savePath := "/home", codec := "h265", boardName := "rb5", rtspStreamUrl := "rtsp://127.0.0.1:8900/live",
      videoFormat := "video/x-raw", imageWidth := 1280, imageHeight := 720 })

def noon : Tm := { tmYear := 123, tmMon := 0, tmMday := 1, tmHour := 12, tmMin := 0, tmSec := 0 }

/-- Two requests and one callback: one image, and the sample is released. -/
theorem snapshots_right_merged : SnapshotsRight { data := readyCamera } [.request, .request, .sample noon] := by
  refine (snapshots_right_iff rfl rfl _).2.mpr ?_
  intro front timeinfo hfront
  obtain ⟨back, hsteps⟩ := hfront
  cases front with
  | nil => simp at hsteps
  | cons first front =>
      cases front with
      | nil => simp at hsteps
      | cons second front =>
          have hfirst : first = .request := (List.cons.inj hsteps).1
          have hsecond : second = .request := (List.cons.inj (List.cons.inj hsteps).2).1
          have hlen := congrArg List.length hsteps
          simp only [List.length_append, List.length_cons, List.length_nil] at hlen
          have hnil : front = [] := List.eq_nil_of_length_eq_zero (by omega)
          rw [hfirst, hsecond, hnil]
          decide

/-- One frame that nobody has asked for. -/
theorem snapshots_not_right_idle :
    unreleased (Machine.run snapshotStep { data := readyCamera } [.sample noon]).calls = 1 ∧
    ¬ SnapshotsRight { data := readyCamera } [.sample noon] := by
  have hheld : unreleased (Machine.run snapshotStep { data := readyCamera } [.sample noon]).calls = 1 := by decide
  refine ⟨hheld, ?_⟩
  intro h
  have hbalance : unreleased (Machine.run snapshotStep { data := readyCamera } [.sample noon]).calls = 0 :=
    h.balanced [.sample noon] List.prefix_rfl
  rw [hheld] at hbalance
  exact absurd hbalance (by decide)

end MissionServer
