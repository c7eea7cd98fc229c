import Mathlib.Data.List.Defs

/-!
# rtsp_stream.c

The recorder of one camera: a GStreamer pipeline whose output selector feeds either a file or a fake
sink, with the flags that its callbacks keep. GStreamer elements that no modelled function reads are
left out; of the output selector only the active pad is kept.
-/

namespace MissionServer

structure RtspConfig where
  savePath : String
  codec : String
  boardName : String
  rtspStreamUrl : String
  videoFormat : String
  imageWidth : Int
  imageHeight : Int
  deriving DecidableEq, Repr

/-- The request pads of the output selector: `osel_src1` leads to the file, `osel_src2` to the fake
sink. -/
inductive OselPad
  | oselSrc1
  | oselSrc2
  deriving DecidableEq, Repr

/-- `gst_data_t`. The selector has no active pad before `rtsp_saver` has built the pipeline. -/
structure GstData where
  rtspConfig : RtspConfig
  cameraId : Int
  recording : Bool := false
  busy : Bool := false
  snapshotRequest : Bool := false
  cameraReady : Bool := false
  mp4FileName : String := ""
  activePad : Option OselPad := none
  deriving DecidableEq, Repr

/-- What the recorder prints. -/
inductive Report
  | pleaseWait (camera : Int)
  | stopRecording (camera : Int)
  | startRecording (camera : Int)
  | saved (camera : Int) (file : String)
  | imageSaved (camera : Int) (file : String)
  deriving DecidableEq, Repr

/-! ### Time stamps -/

/-- The fields of `struct tm` that `generate_timestamp` reads. -/
structure Tm where
  tmYear : Int
  tmMon : Int
  tmMday : Int
  tmHour : Int
  tmMin : Int
  tmSec : Int
  deriving DecidableEq, Repr

/-- `printf`'s `%0<width>d`. -/
def padInt (width : Nat) (n : Int) : String :=
  let digits := (toString n.natAbs).toList
  if n < 0 then String.ofList ('-' :: digits.leftpad (width - 1) '0')
  else String.ofList (digits.leftpad width '0')

def generateTimestamp (timeinfo : Tm) : String :=
  padInt 4 (1900 + timeinfo.tmYear) ++ padInt 2 (1 + timeinfo.tmMon) ++ padInt 2 timeinfo.tmMday ++
    padInt 2 timeinfo.tmHour ++ padInt 2 timeinfo.tmMin ++ padInt 2 timeinfo.tmSec

/-! ### Callbacks -/

/-- What GStreamer and the clock do around one call into the recorder: the local time, and how many
end-of-stream events the pipeline delivers while `gst_element_send_event` runs. -/
structure GstEnv where
  timeinfo : Tm
  eosDuring : Nat
  deriving DecidableEq, Repr

/-- The probe on the muxer's source pad. `eos` tells whether the event is an end-of-stream. -/
def eosHandler (eos : Bool) (data : GstData) : GstData × List Report :=
  if ¬ eos then (data, [])
  else if data.busy then
    ({ data with busy := false, activePad := some .oselSrc2 }, [.saved data.cameraId data.mp4FileName])
  else (data, [])

/-- The handler runs once for each end-of-stream event delivered. -/
def deliverEos : Nat → GstData → GstData × List Report
  | 0, data => (data, [])
  | n + 1, data =>
      let (data', reports) := eosHandler true data
      let (data'', reports') := deliverEos n data'
      (data'', reports ++ reports')

/-- The JPEG branch has a frame. A requested snapshot is written to a file. -/
def onNewSampleHandler (sample : Bool) (timeinfo : Tm) (data : GstData) : GstData × List Report :=
  if sample && data.snapshotRequest then
    ({ data with snapshotRequest := false },
      [.imageSaved data.cameraId (data.rtspConfig.savePath ++ "/" ++ generateTimestamp timeinfo ++ ".jpg")])
  else (data, [])

/-- What the same callback does with the sample it pulls and with the file. -/
inductive SampleCall
  | pull
  | save (file : String)
  | unref
  deriving DecidableEq, Repr

/-- `on_new_sample_handler` with these calls; a null sample is nothing that could be released. -/
def onNewSampleCalls (sample : Bool) (timeinfo : Tm) (data : GstData) : GstData × List SampleCall :=
  let pulled := if sample then [.pull] else []
  if sample && data.snapshotRequest then
    ({ data with snapshotRequest := false },
      pulled ++ [.save (data.rtspConfig.savePath ++ "/" ++ generateTimestamp timeinfo ++ ".jpg"), .unref])
  else (data, pulled)

def rtspSaveImage (data : GstData) : GstData :=
  if ¬ data.cameraReady then data else { data with snapshotRequest := true }

/-- `rtsp_change_record_state` on the camera with number `camId`. -/
def rtspChangeRecordState (camId : Int) (env : GstEnv) (data : GstData) : GstData × List Report :=
  if ¬ data.cameraReady then (data, [])
  else if data.busy then (data, [.pleaseWait camId])
  else
    let (data, reports) :=
      if data.recording then
        let (data, reports) := deliverEos env.eosDuring { data with busy := true }
        (data, .stopRecording camId :: reports)
      else
        let timestamp := generateTimestamp env.timeinfo
        let data := { data with mp4FileName := data.rtspConfig.savePath ++ "/" ++ timestamp ++ ".mp4" }
        ({ data with activePad := some .oselSrc1 }, [.startRecording camId])
    ({ data with recording := !data.recording }, reports)

/-- `rtsp_saver` has started the pipeline: the selector was pointed at the fake sink, and the camera
becomes ready. The thread passes this point once, so on a ready camera nothing is left to do. -/
def rtspSaver (data : GstData) : GstData :=
  if data.cameraReady then data
  else { data with activePad := some .oselSrc2, cameraReady := true }

/-- `rtsp_open`: zeroed data with a copy of the configuration. -/
def rtspOpen (camId : Int) (args : RtspConfig) : GstData :=
  { rtspConfig := args, cameraId := camId }

end MissionServer
