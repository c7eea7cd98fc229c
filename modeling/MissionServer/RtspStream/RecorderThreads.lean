import MissionServer.RtspStream

/-!
# rtsp_stream.c: the threads around busy

`rtsp_change_record_state` runs on the thread that handles messages and `eos_handler` on one of the pipeline's. They
share the flags, the file name and the selector's active pad without a lock. Each access to these is a step of its own.
-/

namespace MissionServer

/-- Where a thread is in `rtsp_change_record_state`: before its tests, and on its two branches before each assignment.
Of `recording` both branches toggle what they have read. -/
inductive ChangePc
  | outside
  | testsBusy
  | testsRecording
  | setsBusy
  | stopsPipeline
  | namesFile
  | redirects
  | toggles
  deriving DecidableEq, Repr

/-- Where the pipeline's thread is in `eos_handler`. -/
inductive EosPc
  | outside
  | testsBusy
  | clearsBusy
  | reports
  | redirects
  deriving DecidableEq, Repr

/-- What the two functions print is kept apart. -/
structure RecorderThreads where
  data : GstData
  change : ChangePc := .outside
  eos : EosPc := .outside
  changeReports : List Report := []
  eosReports : List Report := []
  deriving DecidableEq, Repr

/-- A thread takes its next step. A probe is called for every event; the end of the stream is one of them. -/
inductive RecorderThreadEvent
  | change (timeinfo : Tm)
  | eos (eos : Bool)
  | saver
  deriving DecidableEq, Repr

/-- `waits` tells whether setting the pipeline to `GST_STATE_NULL` waits for its callbacks to return. -/
def changeStep (waits : Bool) (timeinfo : Tm) (s : RecorderThreads) : RecorderThreads :=
  match s.change with
  | .outside => if s.data.cameraReady then { s with change := .testsBusy } else s
  | .testsBusy =>
      if s.data.busy then
        { s with change := .outside, changeReports := s.changeReports ++ [.pleaseWait s.data.cameraId] }
      else { s with change := .testsRecording }
  | .testsRecording =>
      if s.data.recording then
        { s with change := .setsBusy, changeReports := s.changeReports ++ [.stopRecording s.data.cameraId] }
      else { s with change := .stopsPipeline, changeReports := s.changeReports ++ [.startRecording s.data.cameraId] }
  | .setsBusy => { s with data := { s.data with busy := true }, change := .toggles }
  | .stopsPipeline => if waits ∧ s.eos ≠ .outside then s else { s with change := .namesFile }
  | .namesFile =>
      let timestamp := generateTimestamp timeinfo
      let mp4FileName := s.data.rtspConfig.savePath ++ "/" ++ timestamp ++ ".mp4"
      { s with data := { s.data with mp4FileName }, change := .redirects }
  | .redirects => { s with data := { s.data with activePad := some .oselSrc1 }, change := .toggles }
  | .toggles => { s with data := { s.data with recording := !s.data.recording }, change := .outside }

def eosStep (eos : Bool) (s : RecorderThreads) : RecorderThreads :=
  match s.eos with
  | .outside => if eos then { s with eos := .testsBusy } else s
  | .testsBusy => { s with eos := if s.data.busy then .clearsBusy else .outside }
  | .clearsBusy => { s with data := { s.data with busy := false }, eos := .reports }
  | .reports =>
      { s with eos := .redirects, eosReports := s.eosReports ++ [.saved s.data.cameraId s.data.mp4FileName] }
  | .redirects => { s with data := { s.data with activePad := some .oselSrc2 }, eos := .outside }

def recorderThreadStep (waits : Bool) (s : RecorderThreads) : RecorderThreadEvent → RecorderThreads
  | .change timeinfo => changeStep waits timeinfo s
  | .eos eos => eosStep eos s
  | .saver => { s with data := rtspSaver s.data }

end MissionServer
