import MissionServer.Lib.History
import MissionServer.Proof.LoadParams

/-!
# Settings that are used before they are loaded

The loaders check which keys there are and not which ones are missing. The devices are set up in order until
one of them ends the program, so a missing setting does harm where the set-up gets to its device.
-/

namespace MissionServer

/-! ### What a complete set-up is -/

/-- The settings a camera is opened with are the ones its device file states last. -/
structure SettingsFrom (pairs : List (String × String)) (rtspConfig : RtspConfig) (siyiCamConfig : SiyiCamConfig) :
    Prop where
  savePath : lastValue "save_path" pairs = some rtspConfig.savePath
  boardName : lastValue "board" pairs = some rtspConfig.boardName
  rtspStreamUrl : lastValue "rtsp_stream_url" pairs = some rtspConfig.rtspStreamUrl
  videoFormat : lastValue "video_format" pairs = some rtspConfig.videoFormat
  codec : lastValue "codec" pairs = some rtspConfig.codec
  imageWidth : (lastValue "image_width" pairs).map atoi = some rtspConfig.imageWidth
  imageHeight : (lastValue "image_height" pairs).map atoi = some rtspConfig.imageHeight
  ip : lastValue "siyi_camera_ip" pairs = some siyiCamConfig.ip
  port : (lastValue "siyi_camera_port" pairs).map atoi = some siyiCamConfig.port

def StatesSiyi (files : YamlFiles) (yaml : String) (pairs : List (String × String)) : Prop :=
  States (·.1 ∈ siyiKeys) files ("configs/" ++ yaml) pairs

/-- A camera whose two halves have been opened. -/
def openedDev (id : Fin cameraNumMax) (rtspConfig : RtspConfig) (siyi : SiyiCamDev) : CameraDev where
  id := id.val
  cameraOps := some .siyi
  cameraPriv := .live (rtspOpen id.val rtspConfig)
  gimbalPriv := .live siyi

def DeviceConfig.isSiyi (config : DeviceConfig) : Bool := config.enabled && config.type = some "siyi"

/-- Of some devices just the enabled ones of type `siyi` have been registered and opened, with settings from
their files. -/
structure Setup.Complete (files : YamlFiles) (devs : DeviceConfigs) (ids : List (Fin cameraNumMax)) (setup : Setup) :
    Prop where
  ids : setup.opened.map (·.1) = ids.filter fun id => (devs id).isSiyi
  settings : ∀ id rtspConfig siyiCamConfig, (id, rtspConfig, siyiCamConfig) ∈ setup.opened →
    ∃ yaml pairs, (devs id).yaml = some yaml ∧ StatesSiyi files yaml pairs ∧ SettingsFrom pairs rtspConfig siyiCamConfig
  cameras : ∀ id rtspConfig siyiCamConfig, (id, rtspConfig, siyiCamConfig) ∈ setup.opened →
    ∃ siyi, setup.cameras id = openedDev id rtspConfig siyi
  others : ∀ id, id ∉ setup.opened.map (·.1) → setup.cameras id = {}

/-- The program has ended with a message, or the set-up is complete. -/
def Configured (files : YamlFiles) (yamlPath : String) (result : Load Setup) : Prop :=
  (∃ code message, result = .error (.exit code message)) ∨
  ∃ pairs setup, States LegalDevicePair files yamlPath pairs ∧ result = .ok setup ∧
    setup.Complete files (statedDevices pairs) (List.finRange cameraNumMax)

/-! ### What has to be stated -/

/-- The set-up of an enabled device goes on to the next one, as far as its files decide it. -/
def DeviceConfig.Passes (files : YamlFiles) (config : DeviceConfig) : Prop :=
  config.type = some "none" ∨
  config.type = some "siyi" ∧ ∃ yaml pairs, config.yaml = some yaml ∧ StatesSiyi files yaml pairs

/-- What the set-up of an enabled device uses is stated. An unknown type is reported with the type of
device 0. -/
structure DeviceStated (files : YamlFiles) (devs : DeviceConfigs) (id : Fin cameraNumMax) : Prop where
  type : (devs id).type ≠ none
  siyi : (devs id).type = some "siyi" → ∃ yaml, (devs id).yaml = some yaml ∧
    ("configs/" ++ yaml).utf8ByteSize < pathMax ∧
    ∀ pairs, StatesSiyi files yaml pairs → ∀ key ∈ siyiKeys, lastValue key pairs ≠ none
  unknown : (devs id).type ≠ some "siyi" → (devs id).type ≠ some "none" → (devs 0).type ≠ none

/-- Every enabled device that the set-up gets to has what it uses stated. -/
def SettingsStated (files : YamlFiles) (yamlPath : String) : Prop :=
  ∀ pairs, States LegalDevicePair files yamlPath pairs → ∀ id, (statedDevices pairs id).enabled = true →
    (∀ earlier < id, (statedDevices pairs earlier).enabled = true → (statedDevices pairs earlier).Passes files) →
    DeviceStated files (statedDevices pairs) id

/-- The same for the devices from one on, in the order of the loop. -/
def StatedFrom (files : YamlFiles) (devs : DeviceConfigs) : List (Fin cameraNumMax) → Prop
  | [] => True
  | id :: ids =>
      ((devs id).enabled = true → DeviceStated files devs id) ∧
        (((devs id).enabled = true → (devs id).Passes files) → StatedFrom files devs ids)

theorem statedFrom_iff {files : YamlFiles} {devs : DeviceConfigs} {ids : List (Fin cameraNumMax)} :
    StatedFrom files devs ids ↔ History.Permitted (fun before id => (devs id).enabled = true →
      (∀ earlier ∈ before, (devs earlier).enabled = true → (devs earlier).Passes files) →
      DeviceStated files devs id) ids := by
  induction ids with
  | nil => exact ⟨fun _ => History.permitted_nil, fun _ => trivial⟩
  | cons id ids ih =>
      rw [StatedFrom, ih, History.permitted_cons]
      refine and_congr ⟨fun h henabled _ => h henabled, fun h henabled => h henabled (by simp)⟩ ?_
      constructor
      · intro h pre id' post heq henabled hpasses
        obtain ⟨hpass, hrest⟩ := List.forall_mem_cons.mp hpasses
        exact h hpass pre id' post heq henabled hrest
      · intro h hpass pre id' post heq henabled hrest
        exact h pre id' post heq henabled (List.forall_mem_cons.mpr ⟨hpass, hrest⟩)

/-- In the loop the devices before one are those with a smaller number. -/
theorem settingsStated_iff {files : YamlFiles} {yamlPath : String} :
    SettingsStated files yamlPath ↔ ∀ pairs, States LegalDevicePair files yamlPath pairs →
      StatedFrom files (statedDevices pairs) (List.finRange cameraNumMax) := by
  have hbefore (pre : List (Fin cameraNumMax)) (id : Fin cameraNumMax) (post : List (Fin cameraNumMax))
      (heq : List.finRange cameraNumMax = pre ++ id :: post) (earlier : Fin cameraNumMax) :
      earlier ∈ pre ↔ earlier < id := by
    have hsorted : (pre ++ id :: post).Pairwise (· < ·) := heq ▸ List.pairwise_lt_finRange cameraNumMax
    obtain ⟨-, hafter, hacross⟩ := List.pairwise_append.mp hsorted
    refine ⟨fun hmem => hacross earlier hmem id List.mem_cons_self, fun hlt => ?_⟩
    have hmem : earlier ∈ pre ++ id :: post := heq ▸ List.mem_finRange earlier
    obtain hmem | hmem := List.mem_append.mp hmem
    · exact hmem
    · obtain rfl | hmem := List.mem_cons.mp hmem
      · exact absurd hlt (lt_irrefl _)
      · exact absurd hlt (lt_asymm ((List.pairwise_cons.mp hafter).1 earlier hmem))
  rw [SettingsStated]
  refine forall₂_congr fun pairs _ => ?_
  rw [statedFrom_iff]
  constructor
  · intro h pre id post heq henabled hpasses
    exact h id henabled fun earlier hlt => hpasses earlier ((hbefore pre id post heq earlier).mpr hlt)
  · intro h id henabled hpasses
    obtain ⟨pre, post, heq⟩ := List.append_of_mem (List.mem_finRange id)
    exact h pre id post heq henabled fun earlier hmem => hpasses earlier ((hbefore pre id post heq earlier).mp hmem)

/-! ### One camera -/

theorem settingsFrom_of {pairs : List (String × String)} {rtspConfig : RtspConfig} {siyiCamConfig : SiyiCamConfig}
    (hrtsp : (statedSiyi pairs).rtspConfig? = some rtspConfig)
    (hsiyi : (statedSiyi pairs).siyiCamConfig? = some siyiCamConfig) : SettingsFrom pairs rtspConfig siyiCamConfig := by
  simp only [SiyiLocals.rtspConfig?, SiyiLocals.siyiCamConfig?, statedSiyi, Option.bind_eq_bind,
    Option.bind_eq_some_iff, Option.some.injEq] at hrtsp hsiyi
  obtain ⟨savePath, hsavePath, codec, hcodec, boardName, hboardName, url, hurl, format, hformat, width, hwidth, height,
    hheight, rfl⟩ := hrtsp
  obtain ⟨ip, hip, port, hport, rfl⟩ := hsiyi
  exact ⟨hsavePath, hboardName, hurl, hformat, hcodec, hwidth, hheight, hip, hport⟩

theorem configs_isSome_iff (pairs : List (String × String)) :
    ((statedSiyi pairs).rtspConfig? ≠ none ∧ (statedSiyi pairs).siyiCamConfig? ≠ none) ↔
      ∀ key ∈ siyiKeys, lastValue key pairs ≠ none := by
  have hkeys : (∀ key ∈ siyiKeys, lastValue key pairs ≠ none) ↔
      (((lastValue "save_path" pairs ≠ none ∧ lastValue "codec" pairs ≠ none ∧ lastValue "board" pairs ≠ none ∧
        lastValue "rtsp_stream_url" pairs ≠ none ∧ lastValue "video_format" pairs ≠ none ∧
        lastValue "image_width" pairs ≠ none ∧ lastValue "image_height" pairs ≠ none) ∧
      lastValue "siyi_camera_ip" pairs ≠ none ∧ lastValue "siyi_camera_port" pairs ≠ none)) := by
    simp only [siyiKeys, siyiParams, readString, readInt, List.map_cons, List.map_nil, List.forall_mem_cons,
      List.not_mem_nil]
    tauto
  rw [hkeys]
  simp only [SiyiLocals.rtspConfig?, SiyiLocals.siyiCamConfig?, statedSiyi, Option.ne_none_iff_exists',
    Option.bind_eq_bind, Option.bind_eq_some_iff, Option.map_eq_some_iff]
  constructor
  · intro hboth
    obtain ⟨⟨-, savePath, hsavePath, codec, hcodec, boardName, hboardName, url, hurl, format, hformat, -,
      ⟨width, hwidth, -⟩, -, ⟨height, hheight, -⟩, -⟩, ⟨-, ip, hip, -, ⟨port, hport, -⟩, -⟩⟩ := hboth
    exact ⟨⟨⟨savePath, hsavePath⟩, ⟨codec, hcodec⟩, ⟨boardName, hboardName⟩, ⟨url, hurl⟩, ⟨format, hformat⟩,
      ⟨width, hwidth⟩, ⟨height, hheight⟩⟩, ⟨ip, hip⟩, ⟨port, hport⟩⟩
  · intro hboth
    obtain ⟨⟨⟨savePath, hsavePath⟩, ⟨codec, hcodec⟩, ⟨boardName, hboardName⟩, ⟨url, hurl⟩, ⟨format, hformat⟩,
      ⟨width, hwidth⟩, ⟨height, hheight⟩⟩, ⟨ip, hip⟩, ⟨port, hport⟩⟩ := hboth
    exact ⟨⟨_, savePath, hsavePath, codec, hcodec, boardName, hboardName, url, hurl, format, hformat, _,
      ⟨width, hwidth, rfl⟩, _, ⟨height, hheight, rfl⟩, rfl⟩, ⟨_, ip, hip, _, ⟨port, hport, rfl⟩, rfl⟩⟩

/-! ### Setting up one camera -/

/-- Sockets that are opened and connected, and threads that go on. -/
def quietEnv : InitEnv where
  socket _ := ⟨3, true⟩
  saverExits _ := none

/-- The set-up of a camera from the moment its file has been read. -/
def openSiyi (env : InitEnv) (id : Fin cameraNumMax) (setup : Setup) (rtspConfig? : Option RtspConfig)
    (siyiCamConfig? : Option SiyiCamConfig) : Load Setup :=
  match rtspConfig? with
  | none => .error .undefined
  | some rtspConfig =>
      match env.saverExits id with
      | some (code, message) => .error (.exit code message)
      | none =>
          match siyiCamConfig? with
          | none => .error .undefined
          | some siyiCamConfig =>
              match siyiCamOpen siyiCamConfig (env.socket id) with
              | none => .error (.exit 1 (siyiCamOpenError (env.socket id)))
              | some siyi =>
                  .ok
                    { cameras := Function.update setup.cameras id (openedDev id rtspConfig siyi)
                      outputs := setup.outputs ++
                        [.send siyi.fd (siyiCamManualZoom siyiInitZoom.1 siyiInitZoom.2),
                         .send siyi.fd siyiCamGimbalCentering]
                      opened := setup.opened ++ [(id, rtspConfig, siyiCamConfig)] }

variable {files : YamlFiles} {devs : DeviceConfigs} {id : Fin cameraNumMax} {setup : Setup}

theorem call_eq_ok {message : String} {call : CameraDevs → CameraDevs × List DeviceOutput} {cameras : CameraDevs}
    {outputs : List DeviceOutput} (hcall : call setup.cameras = (cameras, outputs)) (hfault : .fault ∉ outputs)
    (hexit : .exit ∉ outputs) :
    setup.call message call = .ok { setup with cameras, outputs := setup.outputs ++ outputs } := by
  simp only [Setup.call, hcall, if_neg hfault, if_neg hexit]

theorem opens_eq (cameras : CameraDevs) (hfresh : cameras id = {}) (rtspConfig : RtspConfig)
    (siyiCamConfig : SiyiCamConfig) (os : SocketOutcome) :
    let registered : CameraDev := { id := id.val, cameraOps := some .siyi }
    let camera : CameraDev := { registered with cameraPriv := .live (rtspOpen id.val rtspConfig) }
    registerSiyiCamera id cameras = Function.update cameras id registered ∧
      cameraOpen id (Function.update cameras id registered) rtspConfig = (Function.update cameras id camera, []) ∧
      gimbalOpen id (Function.update cameras id camera) siyiCamConfig os =
        match siyiCamOpen siyiCamConfig os with
        | some siyi => (Function.update cameras id (openedDev id rtspConfig siyi), [])
        | none => (Function.update cameras id camera, [.exit]) := by
  intro registered camera
  refine ⟨by rw [registerSiyiCamera, registerCamera, hfresh], ?_, ?_⟩
  · simp [cameraOpen, callDriver, OpsTable.operations, siyiCamOps, registered, camera]
  · cases hopen : siyiCamOpen siyiCamConfig os with
    | none => simp [gimbalOpen, callDriver, OpsTable.operations, siyiCamOps, hopen, registered, camera]
    | some siyi => simp [gimbalOpen, callDriver, OpsTable.operations, siyiCamOps, hopen, registered, camera, openedDev]

theorem packets_eq (id : Fin cameraNumMax) (cameras : CameraDevs) (rtspConfig : RtspConfig) (siyi : SiyiCamDev)
    (zoomInteger zoomDecimal : UInt8) :
    let opened := Function.update cameras id (openedDev id rtspConfig siyi)
    cameraZoom id opened zoomInteger zoomDecimal =
        (opened, [.send siyi.fd (siyiCamManualZoom zoomInteger zoomDecimal)]) ∧
      gimbalCentering id opened = (opened, [.send siyi.fd siyiCamGimbalCentering]) := by
  intro opened
  constructor
  · simp [cameraZoom, dispatch, callDriver, devicePresent, Priv.isSet, OpsTable.operations, siyiCamOps,
      sendSiyiCam, opened, openedDev]
  · simp [gimbalCentering, dispatch, callDriver, devicePresent, Priv.isSet, OpsTable.operations, siyiCamOps,
      sendSiyiCam, opened, openedDev]

theorem siyiCameraInit_eq (env : InitEnv) (hfresh : setup.cameras id = {}) :
    siyiCameraInit env files devs id setup =
      match (devs id).yaml with
      | none => .error .undefined
      | some yaml =>
          if pathMax ≤ ("configs/" ++ yaml).utf8ByteSize then .error .undefined
          else
            match loadSiyiConfigs files ("configs/" ++ yaml) with
            | .error stop => .error stop
            | .ok locals => openSiyi env id setup locals.rtspConfig? locals.siyiCamConfig? := by
  rw [siyiCameraInit]
  cases (devs id).yaml with
  | none => rfl
  | some yaml =>
      simp only [used, Load.ok_bind, Load.throw_eq, Load.error_bind]
      split_ifs
      · rfl
      · cases loadSiyiConfigs files ("configs/" ++ yaml) with
        | error stop => rfl
        | ok locals =>
            simp only [Load.ok_bind, openSiyi]
            cases locals.rtspConfig? with
            | none => rfl
            | some rtspConfig =>
                dsimp only
                have hcamera (siyiCamConfig : SiyiCamConfig) :=
                  opens_eq setup.cameras hfresh rtspConfig siyiCamConfig (env.socket id)
                obtain ⟨hregister, hopen, -⟩ := hcamera ⟨"", 0⟩
                rw [Load.ok_bind, hregister, call_eq_ok hopen (by simp) (by simp), Load.ok_bind]
                cases env.saverExits id with
                | some exits => rfl
                | none =>
                    cases locals.siyiCamConfig? with
                    | none => rfl
                    | some siyiCamConfig =>
                        dsimp only
                        obtain ⟨-, -, hgimbal⟩ := hcamera siyiCamConfig
                        cases hsocket : siyiCamOpen siyiCamConfig (env.socket id) with
                        | none =>
                            rw [hsocket] at hgimbal
                            simp only [Load.ok_bind, Setup.call, hgimbal]
                            rfl
                        | some siyi =>
                            rw [hsocket] at hgimbal
                            obtain ⟨hzoom, hcenter⟩ := packets_eq id setup.cameras rtspConfig siyi
                              siyiInitZoom.1 siyiInitZoom.2
                            rw [Load.ok_bind, call_eq_ok hgimbal (by simp) (by simp), Load.ok_bind,
                              call_eq_ok hzoom (by simp) (by simp), Load.ok_bind,
                              call_eq_ok hcenter (by simp) (by simp), Load.ok_bind]
                            simp only [List.append_nil, List.append_assoc, List.singleton_append]
                            rfl

theorem States.unique {legal : String × String → Prop} {path : String} {pairs pairs' : List (String × String)}
    (h : States legal files path pairs) (h' : States legal files path pairs') : pairs = pairs' :=
  Option.some.inj (h.1.symm.trans h'.1)

theorem deviceStated_siyi_iff {yaml : String} (htype : (devs id).type = some "siyi")
    (hyaml : (devs id).yaml = some yaml) :
    DeviceStated files devs id ↔ ("configs/" ++ yaml).utf8ByteSize < pathMax ∧
      ∀ pairs, StatesSiyi files yaml pairs → ∀ key ∈ siyiKeys, lastValue key pairs ≠ none := by
  constructor
  · intro hdevice
    obtain ⟨yaml', heq, hneeds⟩ := hdevice.siyi htype
    obtain rfl := Option.some.inj (hyaml.symm.trans heq)
    exact hneeds
  · intro hneeds
    exact ⟨by simp [htype], fun _ => ⟨yaml, hyaml, hneeds⟩, fun hne => absurd htype hne⟩

theorem passes_siyi_iff {yaml : String} (htype : (devs id).type = some "siyi") (hyaml : (devs id).yaml = some yaml) :
    (devs id).Passes files ↔ ∃ pairs, StatesSiyi files yaml pairs := by
  constructor
  · intro hpasses
    obtain hnone | ⟨-, yaml', pairs, heq, hstates⟩ := hpasses
    · exact absurd (htype.symm.trans hnone) (by decide)
    · obtain rfl := Option.some.inj (hyaml.symm.trans heq)
      exact ⟨pairs, hstates⟩
  · intro hstates
    obtain ⟨pairs, hstates⟩ := hstates
    exact .inr ⟨htype, yaml, pairs, hyaml, hstates⟩

/-- Where a camera's file name is missing or too long the program has gone wrong, and where its file does not
load the program has ended. Otherwise the camera is opened with what the file states. -/
theorem siyiCameraInit_cases (files : YamlFiles) (env : InitEnv) (hfresh : setup.cameras id = {})
    (htype : (devs id).type = some "siyi") :
    (¬ DeviceStated files devs id ∧ siyiCameraInit env files devs id setup = .error .undefined) ∨
    (DeviceStated files devs id ∧ ¬ (devs id).Passes files ∧ (siyiCameraInit env files devs id setup).Exits) ∨
    ∃ yaml pairs, (devs id).yaml = some yaml ∧ StatesSiyi files yaml pairs ∧
      (DeviceStated files devs id ↔
        (statedSiyi pairs).rtspConfig? ≠ none ∧ (statedSiyi pairs).siyiCamConfig? ≠ none) ∧
      siyiCameraInit env files devs id setup =
        openSiyi env id setup (statedSiyi pairs).rtspConfig? (statedSiyi pairs).siyiCamConfig? := by
  rw [siyiCameraInit_eq env hfresh]
  cases hyaml : (devs id).yaml with
  | none =>
      refine .inl ⟨fun hdevice => ?_, rfl⟩
      obtain ⟨yaml, heq, -⟩ := hdevice.siyi htype
      exact absurd (hyaml.symm.trans heq) (Option.some_ne_none yaml).symm
  | some yaml =>
      rw [deviceStated_siyi_iff htype hyaml, passes_siyi_iff htype hyaml]
      dsimp only
      by_cases hpath : pathMax ≤ ("configs/" ++ yaml).utf8ByteSize
      · rw [if_pos hpath]
        exact .inl ⟨fun hneeds => absurd hneeds.1 (not_lt.mpr hpath), rfl⟩
      · rw [if_neg hpath]
        obtain ⟨pairs, hstates, hload⟩ | ⟨hnone, message, hload⟩ :=
          siyiParams_loads.loadFile_cases files ("configs/" ++ yaml)
        · refine .inr (.inr ⟨yaml, pairs, rfl, hstates, ?_, ?_⟩)
          · rw [configs_isSome_iff]
            constructor
            · intro hneeds
              exact hneeds.2 pairs hstates
            · intro hkeys
              refine ⟨not_le.mp hpath, fun pairs' hstates' => ?_⟩
              rw [hstates'.unique hstates]
              exact hkeys
          · rw [show loadSiyiConfigs files ("configs/" ++ yaml) = .ok (statedSiyi pairs) from hload]
        · refine .inr (.inl ⟨?_, fun hpasses => ?_, message, ?_⟩)
          · exact ⟨not_le.mp hpath, fun pairs hstates => absurd hstates (hnone pairs)⟩
          · obtain ⟨pairs, hstates⟩ := hpasses
            exact hnone pairs hstates
          · rw [show loadSiyiConfigs files ("configs/" ++ yaml) = .error (.exit 1 message) from hload]

/-! ### The loop over the devices -/

variable {done ids : List (Fin cameraNumMax)}

theorem isSiyi_iff (config : DeviceConfig) :
    config.isSiyi = true ↔ config.enabled = true ∧ config.type = some "siyi" := by
  simp [DeviceConfig.isSiyi]

/-- A device that is not to be opened. -/
theorem Setup.Complete.skip (h : setup.Complete files devs done) (hskip : (devs id).isSiyi = false) :
    setup.Complete files devs (done ++ [id]) where
  ids := by
    rw [h.ids, List.filter_append, List.filter_cons_of_neg (by simp [hskip]), List.filter_nil, List.append_nil]
  settings := h.settings
  cameras := h.cameras
  others := h.others

theorem Setup.Complete.fresh (h : setup.Complete files devs done) (hnew : id ∉ done) : setup.cameras id = {} := by
  apply h.others
  rw [h.ids]
  intro hmem
  exact hnew (List.mem_of_mem_filter hmem)

theorem Setup.Complete.add {setup' : Setup} {rtspConfig : RtspConfig} {siyiCamConfig : SiyiCamConfig}
    {siyi : SiyiCamDev}
    (h : setup.Complete files devs done) (hsiyi : (devs id).isSiyi = true) (hnew : id ∉ done)
    (hsettings : ∃ yaml pairs, (devs id).yaml = some yaml ∧ StatesSiyi files yaml pairs ∧
      SettingsFrom pairs rtspConfig siyiCamConfig)
    (hopened : setup'.opened = setup.opened ++ [(id, rtspConfig, siyiCamConfig)])
    (hcameras : setup'.cameras = Function.update setup.cameras id (openedDev id rtspConfig siyi)) :
    setup'.Complete files devs (done ++ [id]) where
  ids := by
    rw [hopened, List.map_append, h.ids, List.filter_append]
    simp [hsiyi]
  settings id' rtspConfig' siyiCamConfig' hmem := by
    rw [hopened] at hmem
    obtain hmem | hmem := List.mem_append.mp hmem
    · exact h.settings id' rtspConfig' siyiCamConfig' hmem
    · simp only [List.mem_singleton, Prod.mk.injEq] at hmem
      obtain ⟨rfl, rfl, rfl⟩ := hmem
      exact hsettings
  cameras id' rtspConfig' siyiCamConfig' hmem := by
    rw [hopened] at hmem
    rw [hcameras]
    obtain hmem | hmem := List.mem_append.mp hmem
    · have hdone : id' ∈ setup.opened.map (·.1) := List.mem_map_of_mem (f := (·.1)) hmem
      rw [h.ids] at hdone
      have hne : id' ≠ id := fun heq => hnew (heq ▸ List.mem_of_mem_filter hdone)
      obtain ⟨siyi', heq⟩ := h.cameras id' rtspConfig' siyiCamConfig' hmem
      exact ⟨siyi', by rw [Function.update_of_ne hne, heq]⟩
    · simp only [List.mem_singleton, Prod.mk.injEq] at hmem
      obtain ⟨rfl, rfl, rfl⟩ := hmem
      exact ⟨siyi, Function.update_self ..⟩
  others id' hmem := by
    rw [hopened, List.map_append, List.mem_append, not_or] at hmem
    obtain ⟨hold, hne⟩ := hmem
    rw [hcameras, Function.update_of_ne (by simpa using hne)]
    exact h.others id' hold

/-- Setting up a camera that has what it uses stated. -/
theorem siyiCameraInit_complete (env : InitEnv) (hdevice : DeviceStated files devs id)
    (hsiyi : (devs id).isSiyi = true) (hnew : id ∉ done) (hcomplete : setup.Complete files devs done) :
    (∃ code message, siyiCameraInit env files devs id setup = .error (.exit code message)) ∨
    (devs id).Passes files ∧ ∃ setup', siyiCameraInit env files devs id setup = .ok setup' ∧
      setup'.Complete files devs (done ++ [id]) := by
  obtain ⟨-, htype⟩ := (isSiyi_iff _).mp hsiyi
  obtain ⟨hnot, -⟩ | ⟨-, -, message, hexit⟩ | ⟨yaml, pairs, hyaml, hstates, hiff, hopen⟩ :=
    siyiCameraInit_cases files env (hcomplete.fresh hnew) htype
  · exact absurd hdevice hnot
  · exact .inl ⟨1, message, hexit⟩
  · obtain ⟨hrtsp, hcam⟩ := hiff.mp hdevice
    obtain ⟨rtspConfig, hrtsp⟩ := Option.ne_none_iff_exists'.mp hrtsp
    obtain ⟨siyiCamConfig, hcam⟩ := Option.ne_none_iff_exists'.mp hcam
    rw [hopen, hrtsp, hcam]
    cases hsaver : env.saverExits id with
    | some exits => exact .inl ⟨exits.1, exits.2, by rw [openSiyi, hsaver]⟩
    | none =>
        cases hsocket : siyiCamOpen siyiCamConfig (env.socket id) with
        | none => exact .inl ⟨1, siyiCamOpenError (env.socket id), by rw [openSiyi, hsaver, hsocket]⟩
        | some siyi =>
            refine .inr ⟨.inr ⟨htype, yaml, pairs, hyaml, hstates⟩, _, by rw [openSiyi, hsaver, hsocket], ?_⟩
            exact hcomplete.add hsiyi hnew ⟨yaml, pairs, hyaml, hstates, settingsFrom_of hrtsp hcam⟩ rfl rfl

/-- Setting up a camera when nothing from outside ends the program. -/
theorem siyiCameraInit_quiet (files : YamlFiles) (hfresh : setup.cameras id = {})
    (htype : (devs id).type = some "siyi") :
    (¬ DeviceStated files devs id ∧ siyiCameraInit quietEnv files devs id setup = .error .undefined) ∨
    (DeviceStated files devs id ∧ ¬ (devs id).Passes files) ∨
    DeviceStated files devs id ∧ ∃ setup', siyiCameraInit quietEnv files devs id setup = .ok setup' ∧
      ∀ other ≠ id, setup'.cameras other = setup.cameras other := by
  obtain ⟨hnot, hundefined⟩ | ⟨hdevice, hpasses, -⟩ | ⟨yaml, pairs, -, -, hiff, hopen⟩ :=
    siyiCameraInit_cases files quietEnv hfresh htype
  · exact .inl ⟨hnot, hundefined⟩
  · exact .inr (.inl ⟨hdevice, hpasses⟩)
  · rw [hiff, hopen]
    cases (statedSiyi pairs).rtspConfig? with
    | none => exact .inl ⟨fun hboth => hboth.1 rfl, rfl⟩
    | some rtspConfig =>
        cases (statedSiyi pairs).siyiCamConfig? with
        | none => exact .inl ⟨fun hboth => hboth.2 rfl, rfl⟩
        | some siyiCamConfig =>
            refine .inr (.inr ⟨⟨Option.some_ne_none _, Option.some_ne_none _⟩, _, rfl, fun other hne => ?_⟩)
            exact Function.update_of_ne hne _ _

theorem initDevices_cons (env : InitEnv) (id : Fin cameraNumMax) (ids : List (Fin cameraNumMax)) (setup : Setup) :
    initDevices env files devs (id :: ids) setup =
      if (devs id).enabled then
        match (devs id).type with
        | none => .error .undefined
        | some type =>
            if type = "siyi" then
              match siyiCameraInit env files devs id setup with
              | .ok setup => initDevices env files devs ids setup
              | .error stop => .error stop
            else if type = "none" then initDevices env files devs ids setup
            else
              match (devs 0).type with
              | none => .error .undefined
              | some type => .error (.exit 0 ("Unknown device `" ++ type ++ "'\n"))
      else initDevices env files devs ids setup := by
  rw [initDevices]
  split_ifs with henabled
  · cases (devs id).type with
    | none => rfl
    | some type =>
        rw [used, Load.ok_bind]
        dsimp only
        split_ifs
        · cases siyiCameraInit env files devs id setup <;> rfl
        · rfl
        · cases (devs 0).type <;> rfl
  · rfl

/-- The loop skips a device, opens it as a camera, uses a type that is missing, or ends the program over an
unknown type. -/
theorem initDevices_cases (files : YamlFiles) (devs : DeviceConfigs) (env : InitEnv) (id : Fin cameraNumMax)
    (ids : List (Fin cameraNumMax)) (setup : Setup) :
    ((devs id).isSiyi = false ∧ ((devs id).enabled = true → DeviceStated files devs id ∧ (devs id).Passes files) ∧
      initDevices env files devs (id :: ids) setup = initDevices env files devs ids setup) ∨
    ((devs id).isSiyi = true ∧
      initDevices env files devs (id :: ids) setup =
        siyiCameraInit env files devs id setup >>= initDevices env files devs ids) ∨
    ((devs id).enabled = true ∧ ¬ DeviceStated files devs id ∧
      initDevices env files devs (id :: ids) setup = .error .undefined) ∨
    ((devs id).enabled = true ∧ DeviceStated files devs id ∧ ¬ (devs id).Passes files ∧
      ∃ message, initDevices env files devs (id :: ids) setup = .error (.exit 0 message)) := by
  rw [initDevices_cons, DeviceConfig.isSiyi]
  cases (devs id).enabled with
  | false => exact .inl ⟨rfl, nofun, rfl⟩
  | true =>
      cases htype : (devs id).type with
      | none => exact .inr (.inr (.inl ⟨rfl, fun hdevice => hdevice.type htype, rfl⟩))
      | some type =>
          rw [if_pos rfl, Bool.true_and]
          dsimp only
          split_ifs with hsiyi hnone
          · subst hsiyi
            refine .inr (.inl ⟨by decide, ?_⟩)
            cases siyiCameraInit env files devs id setup <;> rfl
          · subst hnone
            have hdevice : DeviceStated files devs id :=
              ⟨by simp [htype], fun h => absurd (htype.symm.trans h) (by decide), fun _ h => absurd htype h⟩
            exact .inl ⟨by decide, fun _ => ⟨hdevice, .inl htype⟩, rfl⟩
          · have hother (name : String) (hne : type ≠ name) : (devs id).type ≠ some name := fun h =>
              hne (Option.some.inj (htype.symm.trans h))
            cases hzero : (devs 0).type with
            | none =>
                refine .inr (.inr (.inl ⟨rfl, fun hdevice => ?_, rfl⟩))
                exact hdevice.unknown (hother _ hsiyi) (hother _ hnone) hzero
            | some type' =>
                refine .inr (.inr (.inr ⟨rfl, ?_, fun hpasses => ?_, _, rfl⟩))
                · exact ⟨by simp [htype], fun h => absurd h (hother _ hsiyi), fun _ _ => by simp [hzero]⟩
                · obtain h | ⟨h, -⟩ := hpasses
                  · exact hother _ hnone h
                  · exact hother _ hsiyi h

/-- The loop over devices that have what they use stated, as far as it gets. -/
theorem initDevices_complete (env : InitEnv) (hstated : StatedFrom files devs ids) (hnodup : (done ++ ids).Nodup)
    (hcomplete : setup.Complete files devs done) :
    (∃ code message, initDevices env files devs ids setup = .error (.exit code message)) ∨
    ∃ setup', initDevices env files devs ids setup = .ok setup' ∧ setup'.Complete files devs (done ++ ids) := by
  induction ids generalizing done setup with
  | nil => exact .inr ⟨setup, rfl, by rwa [List.append_nil]⟩
  | cons id ids ih =>
      obtain ⟨hdevice, hrest⟩ := hstated
      have hnew : id ∉ done := fun hmem =>
        (List.nodup_append.mp hnodup).2.2 id hmem id List.mem_cons_self rfl
      rw [List.append_cons] at hnodup ⊢
      obtain ⟨hskip, hpasses, heq⟩ | ⟨hsiyi, heq⟩ | ⟨henabled, hnot, -⟩ | ⟨-, -, -, message, heq⟩ :=
        initDevices_cases files devs env id ids setup
      · rw [heq]
        exact ih (hrest fun henabled => (hpasses henabled).2) hnodup (hcomplete.skip hskip)
      · obtain ⟨henabled, -⟩ := (isSiyi_iff _).mp hsiyi
        rw [heq]
        obtain ⟨code, message, hexit⟩ | ⟨hpasses, setup', hok, hcomplete'⟩ :=
          siyiCameraInit_complete env (hdevice henabled) hsiyi hnew hcomplete
        · rw [hexit, Load.error_bind]
          exact .inl ⟨code, message, rfl⟩
        · rw [hok, Load.ok_bind]
          exact ih (hrest fun _ => hpasses) hnodup hcomplete'
      · exact absurd (hdevice henabled) hnot
      · exact .inl ⟨0, message, heq⟩

/-- Where something that the loop gets to is not stated, it is used all the same. -/
theorem initDevices_undefined (setup : Setup) (hstated : ¬ StatedFrom files devs ids) (hnodup : ids.Nodup)
    (hfresh : ∀ id ∈ ids, setup.cameras id = {}) : initDevices quietEnv files devs ids setup = .error .undefined := by
  induction ids generalizing setup with
  | nil => exact absurd trivial hstated
  | cons id ids ih =>
      obtain ⟨hnew, hnodup⟩ := List.nodup_cons.mp hnodup
      obtain ⟨hfreshId, hfresh⟩ := List.forall_mem_cons.mp hfresh
      have hrest (hdevice : (devs id).enabled = true → DeviceStated files devs id) : ¬ StatedFrom files devs ids :=
        fun hids => hstated ⟨hdevice, fun _ => hids⟩
      have hpasses (henabled : (devs id).enabled = true) (hdevice : DeviceStated files devs id) :
          (devs id).Passes files := by
        by_contra hnot
        exact hstated ⟨fun _ => hdevice, fun h => absurd (h henabled) hnot⟩
      obtain ⟨-, hskip, heq⟩ | ⟨hsiyi, heq⟩ | ⟨-, -, heq⟩ | ⟨henabled, hdevice, hnot, -⟩ :=
        initDevices_cases files devs quietEnv id ids setup
      · rw [heq]
        exact ih setup (hrest fun henabled => (hskip henabled).1) hnodup hfresh
      · obtain ⟨henabled, htype⟩ := (isSiyi_iff _).mp hsiyi
        rw [heq]
        obtain ⟨-, hundefined⟩ | ⟨hdevice, hnot⟩ | ⟨hdevice, setup', hok, hothers⟩ :=
          siyiCameraInit_quiet files hfreshId htype
        · rw [hundefined, Load.error_bind]
        · exact absurd (hpasses henabled hdevice) hnot
        · rw [hok, Load.ok_bind]
          refine ih setup' (hrest fun _ => hdevice) hnodup fun other hmem => ?_
          rw [hothers other fun heq => hnew (heq ▸ hmem)]
          exact hfresh other hmem
      · exact heq
      · exact absurd (hpasses henabled hdevice) hnot

theorem not_configured_of_undefined {yamlPath : String} {result : Load Setup} (h : result = .error .undefined) :
    ¬ Configured files yamlPath result := by
  subst h
  intro hconfigured
  obtain ⟨code, message, hexit⟩ | ⟨-, setup, -, hok, -⟩ := hconfigured
  · cases hexit
  · cases hok

theorem loadDevicesConfigs_eq {yamlPath : String} {pairs : List (String × String)}
    (hstates : States LegalDevicePair files yamlPath pairs) (env : InitEnv) :
    loadDevicesConfigs env files yamlPath =
      initDevices env files (statedDevices pairs) (List.finRange cameraNumMax) {} := by
  obtain ⟨pairs', hstates', hload⟩ | ⟨hnone, -⟩ := devicesParams_loads.loadFile_cases files yamlPath
  · obtain rfl := hstates.unique hstates'
    rw [loadDevicesConfigs,
      show loadFile devicesParams files yamlPath (fun _ => {}) = .ok (statedDevices pairs) from hload, Load.ok_bind]
  · exact absurd hstates (hnone pairs)

/-- Whatever the system does, the program ends with a message or all devices are set up, exactly when the files
state what the devices that the set-up gets to use. -/
theorem devices_configured_iff_stated (files : YamlFiles) (yamlPath : String) :
    (∀ env, Configured files yamlPath (loadDevicesConfigs env files yamlPath)) ↔ SettingsStated files yamlPath := by
  rw [settingsStated_iff]
  obtain ⟨pairs, hstates, -⟩ | ⟨hnone, message, hexit⟩ := devicesParams_loads.loadFile_cases files yamlPath
  · constructor
    · intro hconfigured pairs' hstates'
      by_contra hstated
      have hundefined := initDevices_undefined {} hstated (List.nodup_finRange _) fun _ _ => rfl
      rw [← loadDevicesConfigs_eq hstates'] at hundefined
      exact not_configured_of_undefined hundefined (hconfigured quietEnv)
    · intro hstated env
      have hempty : Setup.Complete files (statedDevices pairs) [] {} :=
        ⟨rfl, by simp, by simp, fun _ _ => rfl⟩
      obtain hexit | ⟨setup, hok, hcomplete⟩ :=
        initDevices_complete env (hstated pairs hstates) (List.nodup_finRange _) hempty
      · rw [loadDevicesConfigs_eq hstates]
        exact .inl hexit
      · exact .inr ⟨pairs, setup, hstates, by rw [loadDevicesConfigs_eq hstates, hok], hcomplete⟩
  · constructor
    · intro _ pairs hstates
      exact absurd hstates (hnone pairs)
    · intro _ env
      refine .inl ⟨1, message, ?_⟩
      rw [loadDevicesConfigs,
        show loadFile devicesParams files yamlPath (fun _ => {}) = .error (.exit 1 message) from hexit, Load.error_bind]

/-- Device 0 is enabled and has no type. -/
theorem enabled_without_type :
    let files : YamlFiles := fun path =>
      if path = "configs/devices.yaml" then some [.other, .scalar "device0_enabled", .scalar "true", .streamEnd]
      else none
    ¬ ∀ env, Configured files "configs/devices.yaml" (loadDevicesConfigs env files "configs/devices.yaml") := by
  intro files hconfigured
  have hstates : States LegalDevicePair files "configs/devices.yaml" [("device0_enabled", "true")] := by
    refine ⟨rfl, fun pair hmem => ⟨0, .inr (.inr ?_)⟩⟩
    rw [List.mem_singleton.mp hmem]
    exact ⟨by decide +kernel, .inl rfl⟩
  refine not_configured_of_undefined ?_ (hconfigured quietEnv)
  have hdevice : statedDevices [("device0_enabled", "true")] 0 = { enabled := true } := by decide +kernel
  rw [loadDevicesConfigs_eq hstates, List.finRange_succ, initDevices_cons, hdevice]
  rfl

end MissionServer
