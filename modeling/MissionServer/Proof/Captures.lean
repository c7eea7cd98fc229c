import MissionServer.Config.Devices
import MissionServer.Proof.Recorder

/-!
# The names of captures

Up to six cameras write to one directory. A name is made of the local time, to the second, and of the kind
of the capture; neither the camera nor a count goes into it. A time stamp is printed into 15 bytes and a path into
`PATH_MAX`, and no length is checked.
-/

namespace MissionServer

/-- What can happen to one of the cameras. -/
inductive CameraAction
  | ready
  | saveImage
  | newSample (sample : Bool)
  | changeRecordState (eosDuring : Nat)
  | eos (eos : Bool)
  deriving DecidableEq, Repr

structure CameraEvent where
  id : Fin cameraNumMax
  rawtime : Int
  action : CameraAction
  deriving DecidableEq, Repr

inductive CaptureKind
  | image
  | video
  deriving DecidableEq, Repr

/-- A file that a camera has opened for an image, or has given a recording. -/
structure Capture where
  kind : CaptureKind
  rawtime : Int
  path : String
  deriving DecidableEq, Repr

def Report.capture (rawtime : Int) (data : GstData) : Report → Option Capture
  | .imageSaved _ file => some ⟨.image, rawtime, file⟩
  | .startRecording _ => some ⟨.video, rawtime, data.mp4FileName⟩
  | .pleaseWait _ => none
  | .stopRecording _ => none
  | .saved _ _ => none

/-- The cameras, with the captures made so far. -/
structure Cameras where
  cams : Fin cameraNumMax → GstData
  captures : List Capture := []

section Clock

variable (localtime : Int → Tm)

def cameraAct (rawtime : Int) (action : CameraAction) (data : GstData) : GstData × List Report :=
  match action with
  | .ready => (rtspSaver data, [])
  | .saveImage => (rtspSaveImage data, [])
  | .newSample sample => onNewSampleHandler sample (localtime rawtime) data
  | .changeRecordState eosDuring => rtspChangeRecordState data.cameraId ⟨localtime rawtime, eosDuring⟩ data
  | .eos eos => eosHandler eos data

def Cameras.next (s : Cameras) (e : CameraEvent) : Cameras :=
  let acted := cameraAct localtime e.rawtime e.action (s.cams e.id)
  { cams := Function.update s.cams e.id acted.1
    captures := s.captures ++ acted.2.filterMap (Report.capture e.rawtime acted.1) }

/-- Cameras opened with one `save_path`. -/
def Cameras.start (savePath : String) (configs : Fin cameraNumMax → RtspConfig) : Cameras where
  cams id := rtspOpen id { configs id with savePath }

/-- No capture has been given the path of an earlier one. -/
def Cameras.Distinct (s : Cameras) : Prop := (s.captures.map (·.path)).Nodup

/-- `timestamp[15]` of the two callers of `generate_timestamp`. -/
def timestampSize : Nat := 15

/-- The time stamp and the path of a capture were printed within their buffers, each with its terminating byte. -/
structure Capture.InBuffers (c : Capture) : Prop where
  timestamp : (generateTimestamp (localtime c.rawtime)).utf8ByteSize < timestampSize
  path : c.path.utf8ByteSize < pathMax

def Cameras.InBuffers (s : Cameras) : Prop := ∀ c ∈ s.captures, c.InBuffers localtime

/-! ### What one event captures -/

/-- The capture that an action makes of a camera. -/
def GstData.takes (data : GstData) : CameraAction → Option CaptureKind
  | .newSample sample => if sample && data.snapshotRequest then some .image else none
  | .changeRecordState _ => if data.cameraReady && !data.busy && !data.recording then some .video else none
  | .ready => none
  | .saveImage => none
  | .eos _ => none

/-- A capture comes in another second of the local time than every earlier one of its kind. -/
def Cameras.Fresh (s : Cameras) (e : CameraEvent) : Prop :=
  ∀ kind, (s.cams e.id).takes e.action = some kind → ∀ c ∈ s.captures, c.kind = kind →
    generateTimestamp (localtime c.rawtime) ≠ generateTimestamp (localtime e.rawtime)

def CaptureKind.extension : CaptureKind → String
  | .image => ".jpg"
  | .video => ".mp4"

def capturePath (savePath : String) (kind : CaptureKind) (timeinfo : Tm) : String :=
  savePath ++ "/" ++ generateTimestamp timeinfo ++ kind.extension

/-- What a capture will print fits. -/
structure Cameras.Fits (s : Cameras) (e : CameraEvent) : Prop where
  timestamp : ∀ kind, (s.cams e.id).takes e.action = some kind →
    (generateTimestamp (localtime e.rawtime)).utf8ByteSize < timestampSize
  path : ∀ kind, (s.cams e.id).takes e.action = some kind →
    (capturePath (s.cams e.id).rtspConfig.savePath kind (localtime e.rawtime)).utf8ByteSize < pathMax

theorem capturePath_inj {savePath : String} {kind kind' : CaptureKind} {timeinfo timeinfo' : Tm} :
    capturePath savePath kind timeinfo = capturePath savePath kind' timeinfo' ↔
      kind = kind' ∧ generateTimestamp timeinfo = generateTimestamp timeinfo' := by
  constructor
  · intro heq
    have hlists := congrArg String.toList heq
    simp only [capturePath, String.toList_append] at hlists
    have hlength : kind.extension.toList.length = kind'.extension.toList.length := by
      cases kind <;> cases kind' <;> simp [CaptureKind.extension]
    obtain ⟨hstem, hextension⟩ := List.append_inj' hlists hlength
    refine ⟨?_, String.toList_injective (List.append_cancel_left hstem)⟩
    cases kind <;> cases kind' <;> simp [CaptureKind.extension] at hextension ⊢
  · intro hboth
    obtain ⟨rfl, hstamp⟩ := hboth
    rw [capturePath, capturePath, hstamp]

theorem onNewSampleHandler_spec (sample : Bool) (rawtime : Int) (data : GstData) :
    (onNewSampleHandler sample (localtime rawtime) data).2.filterMap
        (Report.capture rawtime (onNewSampleHandler sample (localtime rawtime) data).1) =
      ((data.takes (.newSample sample)).map fun kind =>
        ⟨kind, rawtime, capturePath data.rtspConfig.savePath kind (localtime rawtime)⟩).toList ∧
    (onNewSampleHandler sample (localtime rawtime) data).1.rtspConfig = data.rtspConfig := by
  cases htaken : sample && data.snapshotRequest with
  | false => simp [onNewSampleHandler, GstData.takes, htaken]
  | true => simp [onNewSampleHandler, GstData.takes, htaken, Report.capture, capturePath, CaptureKind.extension]

theorem rtspChangeRecordState_spec (eosDuring : Nat) (rawtime : Int) (data : GstData) :
    (rtspChangeRecordState data.cameraId ⟨localtime rawtime, eosDuring⟩ data).2.filterMap
        (Report.capture rawtime (rtspChangeRecordState data.cameraId ⟨localtime rawtime, eosDuring⟩ data).1) =
      ((data.takes (.changeRecordState eosDuring)).map fun kind =>
        ⟨kind, rawtime, capturePath data.rtspConfig.savePath kind (localtime rawtime)⟩).toList ∧
    (rtspChangeRecordState data.cameraId ⟨localtime rawtime, eosDuring⟩ data).1.rtspConfig = data.rtspConfig := by
  obtain ⟨hready, heq⟩ | ⟨-, hbusy, heq⟩ | ⟨-, -, hrec, -, heq⟩ | ⟨-, -, hrec, -, heq⟩ | ⟨hready, hbusy, hrec, heq⟩ :=
    rtspChangeRecordState_cases data.cameraId ⟨localtime rawtime, eosDuring⟩ data
  all_goals rw [heq]
  · simp [GstData.takes, hready]
  · simp [GstData.takes, hbusy, Report.capture]
  · simp [GstData.takes, hrec, Report.capture]
  · simp [GstData.takes, hrec, Report.capture]
  · simp [GstData.takes, hready, hbusy, hrec, Report.capture, capturePath, CaptureKind.extension]

/-- An action makes the capture that `takes` tells, under the name of its second. -/
theorem cameraAct_spec (rawtime : Int) (action : CameraAction) (data : GstData) :
    (cameraAct localtime rawtime action data).2.filterMap
        (Report.capture rawtime (cameraAct localtime rawtime action data).1) =
      ((data.takes action).map fun kind =>
        ⟨kind, rawtime, capturePath data.rtspConfig.savePath kind (localtime rawtime)⟩).toList ∧
    (cameraAct localtime rawtime action data).1.rtspConfig = data.rtspConfig := by
  cases action with
  | ready =>
      refine ⟨rfl, ?_⟩
      show (rtspSaver data).rtspConfig = _
      rw [rtspSaver]
      split <;> rfl
  | saveImage =>
      refine ⟨rfl, ?_⟩
      show (rtspSaveImage data).rtspConfig = _
      rw [rtspSaveImage]
      split <;> rfl
  | newSample sample => exact onNewSampleHandler_spec localtime sample rawtime data
  | changeRecordState eosDuring => exact rtspChangeRecordState_spec localtime eosDuring rawtime data
  | eos eos =>
      show (eosHandler eos data).2.filterMap _ = [] ∧ (eosHandler eos data).1.rtspConfig = _
      rw [eosHandler]
      split_ifs <;> exact ⟨rfl, rfl⟩

/-! ### Runs -/

/-- Every camera keeps the path it was opened with, and every capture is named after it. -/
structure Cameras.Named (savePath : String) (s : Cameras) : Prop where
  cams : ∀ id, (s.cams id).rtspConfig.savePath = savePath
  path : ∀ c ∈ s.captures, c.path = capturePath savePath c.kind (localtime c.rawtime)

variable {localtime} {savePath : String} {s : Cameras}

theorem Cameras.Named.captures_next (h : s.Named localtime savePath) (e : CameraEvent) :
    (s.next localtime e).captures = s.captures ++
      (((s.cams e.id).takes e.action).map fun kind =>
        ⟨kind, e.rawtime, capturePath savePath kind (localtime e.rawtime)⟩).toList := by
  obtain ⟨hcaptures, -⟩ := cameraAct_spec localtime e.rawtime e.action (s.cams e.id)
  rw [h.cams e.id] at hcaptures
  exact congrArg (s.captures ++ ·) hcaptures

theorem Cameras.Named.next (h : s.Named localtime savePath) (e : CameraEvent) :
    (s.next localtime e).Named localtime savePath := by
  constructor
  · intro id
    show (Function.update s.cams e.id _ id).rtspConfig.savePath = savePath
    by_cases hid : id = e.id
    · rw [hid, Function.update_self, (cameraAct_spec localtime e.rawtime e.action (s.cams e.id)).2]
      exact h.cams e.id
    · rw [Function.update_of_ne hid]
      exact h.cams id
  · intro c hc
    rw [h.captures_next e] at hc
    obtain hc | hc := List.mem_append.mp hc
    · exact h.path c hc
    · obtain ⟨kind, -, rfl⟩ := Option.map_eq_some_iff.mp (Option.mem_toList.mp hc)
      rfl

theorem Cameras.Named.distinct_next_iff (h : s.Named localtime savePath) (hdistinct : s.Distinct) (e : CameraEvent) :
    (s.next localtime e).Distinct ↔ s.Fresh localtime e := by
  rw [Cameras.Distinct, h.captures_next e]
  cases htakes : (s.cams e.id).takes e.action with
  | none =>
      rw [Option.map_none, Option.toList_none, List.append_nil]
      exact ⟨fun _ kind hkind => (Option.some_ne_none kind (hkind.symm.trans htakes)).elim, fun _ => hdistinct⟩
  | some kind =>
      rw [Option.map_some, Option.toList_some, List.map_append, List.map_singleton, List.nodup_append]
      have hnew : (∀ path ∈ s.captures.map (·.path), ∀ path' ∈ [capturePath savePath kind (localtime e.rawtime)],
          path ≠ path') ↔ s.Fresh localtime e := by
        constructor
        · intro hne kind' hkind c hc hck hstamp
          obtain rfl := Option.some.inj (htakes.symm.trans hkind)
          refine hne c.path (List.mem_map_of_mem hc) _ (List.mem_singleton_self _) ?_
          rw [h.path c hc]
          exact capturePath_inj.mpr ⟨hck, hstamp⟩
        · intro hfresh path hpath path' hpath' heq
          obtain ⟨c, hc, rfl⟩ := List.mem_map.mp hpath
          rw [List.mem_singleton.mp hpath', h.path c hc] at heq
          obtain ⟨hkind, hstamp⟩ := capturePath_inj.mp heq
          exact hfresh kind htakes c hc hkind hstamp
      exact ⟨fun hall => hnew.mp hall.2.2, fun hfresh => ⟨hdistinct, List.pairwise_singleton _ _, hnew.mpr hfresh⟩⟩

theorem Cameras.Named.inBuffers_next_iff (h : s.Named localtime savePath) (hbuffers : s.InBuffers localtime)
    (e : CameraEvent) : (s.next localtime e).InBuffers localtime ↔ s.Fits localtime e := by
  rw [Cameras.InBuffers, h.captures_next e]
  constructor
  · intro hall
    have hnew (kind : CaptureKind) (hkind : (s.cams e.id).takes e.action = some kind) :
        (⟨kind, e.rawtime, capturePath savePath kind (localtime e.rawtime)⟩ : Capture).InBuffers localtime := by
      refine hall _ (List.mem_append_right _ ?_)
      rw [hkind, Option.map_some]
      exact List.mem_singleton_self _
    refine ⟨fun kind hkind => (hnew kind hkind).timestamp, fun kind hkind => ?_⟩
    rw [h.cams e.id]
    exact (hnew kind hkind).path
  · intro hfits c hc
    obtain hc | hc := List.mem_append.mp hc
    · exact hbuffers c hc
    · obtain ⟨kind, hkind, rfl⟩ := Option.map_eq_some_iff.mp (Option.mem_toList.mp hc)
      have hpath := hfits.path kind hkind
      rw [h.cams e.id] at hpath
      exact ⟨hfits.timestamp kind hkind, hpath⟩

theorem Cameras.named_start (savePath : String) (configs : Fin cameraNumMax → RtspConfig) :
    (Cameras.start savePath configs).Named localtime savePath :=
  ⟨fun _ => rfl, fun _ hc => absurd hc List.not_mem_nil⟩

end Clock

/-- Whatever happens to the cameras, at whatever times: every capture's name is printed within its buffers and no
capture is given the path of an earlier one, exactly when what each capture prints fits and no two captures of one kind
come in the same second of the local time. The seconds alone decide whether the paths differ. -/
theorem captures_distinct_iff_fresh (localtime : Int → Tm) (savePath : String) (configs : Fin cameraNumMax → RtspConfig)
    (es : List CameraEvent) :
    (Machine.Always (Cameras.next localtime) (fun s => s.InBuffers localtime ∧ s.Distinct)
        (Cameras.start savePath configs) es ↔
      Machine.EachStep (Cameras.next localtime) (fun s e => s.Fits localtime e ∧ s.Fresh localtime e)
        (Cameras.start savePath configs) es) ∧
    (Machine.Always (Cameras.next localtime) Cameras.Distinct (Cameras.start savePath configs) es ↔
      Machine.EachStep (Cameras.next localtime) (Cameras.Fresh localtime) (Cameras.start savePath configs) es) := by
  have hnamed := @Cameras.named_start localtime savePath configs
  have hdistinct := Machine.always_iff_eachStep (Cameras.next localtime) (fun _ e h => h.next e)
    (fun _ e h hdistinct => h.distinct_next_iff hdistinct e) hnamed List.nodup_nil es
  have hbuffers := Machine.always_iff_eachStep (Cameras.next localtime) (fun _ e h => h.next e)
    (fun _ e h hbuffers => h.inBuffers_next_iff hbuffers e) hnamed (fun _ hc => absurd hc List.not_mem_nil) es
  refine ⟨?_, hdistinct⟩
  rw [Machine.always_and, Machine.eachStep_and]
  exact and_congr hbuffers hdistinct

/-- Two cameras start to record in one second, and one camera takes two snapshots in one second. -/
theorem captures_overwrite_within_a_second :
    let noon : Int → Tm := fun _ => ⟨124, 5, 1, 12, 0, 0⟩
    let configs : Fin cameraNumMax → RtspConfig := fun _ => ⟨"", "h264", "rb5", "rtsp://camera", "NV12", 1280, 720⟩
    ¬ Machine.Always (Cameras.next noon) Cameras.Distinct (Cameras.start "/home" configs)
        [⟨0, 0, .ready⟩, ⟨1, 0, .ready⟩, ⟨0, 0, .changeRecordState 0⟩, ⟨1, 0, .changeRecordState 0⟩] ∧
      ¬ Machine.Always (Cameras.next noon) Cameras.Distinct (Cameras.start "/home" configs)
        [⟨0, 0, .ready⟩, ⟨0, 0, .saveImage⟩, ⟨0, 0, .newSample true⟩, ⟨0, 0, .saveImage⟩, ⟨0, 0, .newSample true⟩] := by
  intro noon configs
  constructor
  · intro h
    have hdistinct := h _ (List.prefix_refl _)
    exact absurd hdistinct (by unfold Cameras.Distinct; decide +kernel)
  · intro h
    have hdistinct := h _ (List.prefix_refl _)
    exact absurd hdistinct (by unfold Cameras.Distinct; decide +kernel)

end MissionServer
