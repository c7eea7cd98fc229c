import Mathlib.Logic.Function.Basic
import MissionServer.RtspStream

/-!
# rtsp_stream.c: the threads around snapshot_request

`rtsp_save_image` sets the flag under `snapshot_mtx`; `on_new_sample_handler` reads it and takes it back without the
lock, and `rtsp_saver` makes the camera ready meanwhile. Each access to what the threads share is a step of its own.
-/

namespace MissionServer

variable {ι : Type}

/-- Where a thread is in `rtsp_save_image`: before the test of `camera_ready`, the lock, the assignment and the
unlock. -/
inductive SaveImagePc
  | outside
  | locks
  | assigns
  | unlocks
  deriving DecidableEq, Repr

/-- Where the streaming thread is in `on_new_sample_handler`: before it pulls a sample, tests the flag, takes it
back, writes the file and releases the sample. -/
inductive NewSamplePc
  | outside
  | tests
  | clears
  | saves (timestamp : String)
  | releases
  deriving DecidableEq, Repr

structure RtspThreads (ι : Type) where
  data : GstData
  snapshotMtx : Option ι := none
  saveImage : ι → SaveImagePc := fun _ => .outside
  newSample : NewSamplePc := .outside
  calls : List SampleCall := []

/-- A thread takes its next step. The streaming thread finds a sample or a null pointer, and the clock. -/
inductive RtspEvent (ι : Type)
  | saveImage (i : ι)
  | newSample (sample : Bool) (timeinfo : Tm)
  | saver

def saveImageStep [DecidableEq ι] (i : ι) (s : RtspThreads ι) : RtspThreads ι :=
  let goto (pc : SaveImagePc) := Function.update s.saveImage i pc
  match s.saveImage i with
  | .outside => if s.data.cameraReady then { s with saveImage := goto .locks } else s
  | .locks => if s.snapshotMtx.isNone then { s with snapshotMtx := some i, saveImage := goto .assigns } else s
  | .assigns => { s with data := { s.data with snapshotRequest := true }, saveImage := goto .unlocks }
  | .unlocks => { s with snapshotMtx := none, saveImage := goto .outside }

/-- What the callback's next step does with the sample and the file. -/
def newSampleCalls (sample : Bool) (s : RtspThreads ι) : List SampleCall :=
  match s.newSample with
  | .outside => if sample then [.pull] else []
  | .tests => []
  | .clears => []
  | .saves timestamp => [.save (s.data.rtspConfig.savePath ++ "/" ++ timestamp ++ ".jpg")]
  | .releases => [.unref]

/-- The time stamp is a local variable of the callback. -/
def newSampleStep (sample : Bool) (timeinfo : Tm) (s : RtspThreads ι) : RtspThreads ι :=
  let s' := { s with calls := s.calls ++ newSampleCalls sample s }
  match s.newSample with
  | .outside => if sample then { s' with newSample := .tests } else s'
  | .tests => { s' with newSample := if s.data.snapshotRequest then .clears else .outside }
  | .clears =>
      { s' with data := { s.data with snapshotRequest := false }, newSample := .saves (generateTimestamp timeinfo) }
  | .saves _ => { s' with newSample := .releases }
  | .releases => { s' with newSample := .outside }

def rtspStep [DecidableEq ι] (s : RtspThreads ι) : RtspEvent ι → RtspThreads ι
  | .saveImage i => saveImageStep i s
  | .newSample sample timeinfo => newSampleStep sample timeinfo s
  | .saver => { s with data := rtspSaver s.data }

end MissionServer
