import MissionServer.Config.Devices
import MissionServer.Proof.SerialConfig

/-!
# What a chain of READ_PARAMs loads

A loader that reads a file to its end has read the keys and values that the file states, one pair after the
other. Where every pair is a legal one, what it has then is what the pairs state; otherwise it ends the program.
-/

namespace MissionServer

section Load

variable {α β : Type}

theorem Load.ok_bind (a : α) (f : α → Load β) : ((Except.ok a : Load α) >>= f) = f a := rfl
theorem Load.error_bind (stop : Stop) (f : α → Load β) : ((Except.error stop : Load α) >>= f) = .error stop := rfl
theorem Load.throw_eq (stop : Stop) : (throw stop : Load α) = .error stop := rfl

end Load

section Loader

variable {σ : Type}

/-- What one `READ_PARAM` does with a pair. -/
def applyPair (params : List (Param σ)) (s : σ) (pair : String × String) : Load σ :=
  match params.find? (·.key = pair.1) with
  | none => .error (.exit 1 "Unknown parameter\n")
  | some param => param.read pair.2 s

/-- An error exit. -/
def Load.Exits {α : Type} (result : Load α) : Prop := ∃ message, result = .error (.exit 1 message)

/-- A loader for pairs that are `legal`, which leaves what they state. -/
structure Loads (params : List (Param σ)) (legal : String × String → Prop) (stated : List (String × String) → σ) :
    Prop where
  next : ∀ pairs pair, legal pair → applyPair params (stated pairs) pair = .ok (stated (pairs ++ [pair]))
  exits : ∀ s pair, ¬ legal pair → (applyPair params s pair).Exits

variable {params : List (Param σ)} {legal : String × String → Prop} {stated : List (String × String) → σ}

theorem loadParams_pair (params : List (Param σ)) (key value : String) (events : List YamlEvent) (s : σ) :
    loadParams params (.scalar key :: .scalar value :: events) s =
      applyPair params s (key, value) >>= loadParams params events := by
  rw [loadParams, applyPair]
  cases params.find? (·.key = key) with
  | none => rfl
  | some param =>
      cases hread : param.read value s with
      | ok s' => simp only [hread, Load.ok_bind]
      | error stop => simp only [hread, Load.error_bind]

theorem loadParams_key_exits (params : List (Param σ)) (key : String) {events : List YamlEvent} (s : σ)
    (hne : ∀ value rest, events = .scalar value :: rest → False) :
    (loadParams params (.scalar key :: events) s).Exits ∧ statedPairs (.scalar key :: events) = none := by
  constructor
  · rw [loadParams]
    cases params.find? (·.key = key) with
    | none => exact ⟨_, rfl⟩
    | some param =>
        match events with
        | [] => exact ⟨_, rfl⟩
        | .streamEnd :: _ => exact ⟨_, rfl⟩
        | .other :: _ => exact ⟨_, rfl⟩
        | .scalar value :: rest => exact (hne value rest rfl).elim
  · match events with
    | [] => rfl
    | .streamEnd :: _ => rfl
    | .other :: _ => rfl
    | .scalar value :: rest => exact (hne value rest rfl).elim

/-- After some pairs, the loop goes on with what they have left. -/
theorem Loads.loadParams_cases (h : Loads params legal stated) (events : List YamlEvent)
    (before : List (String × String)) :
    (∃ pairs, statedPairs events = some pairs ∧ (∀ pair ∈ pairs, legal pair) ∧
      loadParams params events (stated before) = .ok (stated (before ++ pairs))) ∨
    ((∀ pairs, statedPairs events = some pairs → ∃ pair ∈ pairs, ¬ legal pair) ∧
      (loadParams params events (stated before)).Exits) := by
  induction events using statedPairs.induct generalizing before with
  | case1 => exact .inr ⟨nofun, _, rfl⟩
  | case2 events => exact .inl ⟨[], rfl, by simp, by rw [List.append_nil]; rfl⟩
  | case3 events ih => exact ih before
  | case4 key value events ih =>
      have hstated : statedPairs (.scalar key :: .scalar value :: events) =
          (statedPairs events).map ((key, value) :: ·) := rfl
      rw [hstated, loadParams_pair]
      by_cases hlegal : legal (key, value)
      · rw [h.next before (key, value) hlegal]
        obtain ⟨pairs, hpairs, hall, heq⟩ | ⟨hillegal, hexits⟩ := ih (before ++ [(key, value)])
        · refine .inl ⟨(key, value) :: pairs, by rw [hpairs]; rfl, List.forall_mem_cons.mpr ⟨hlegal, hall⟩, ?_⟩
          rw [Load.ok_bind, heq, ← List.append_cons]
        · refine .inr ⟨fun pairs hpairs => ?_, hexits⟩
          obtain ⟨pairs', hpairs', rfl⟩ := Option.map_eq_some_iff.mp hpairs
          obtain ⟨pair, hmem, hnot⟩ := hillegal pairs' hpairs'
          exact ⟨pair, List.mem_cons_of_mem _ hmem, hnot⟩
      · refine .inr ⟨fun pairs hpairs => ?_, ?_⟩
        · obtain ⟨pairs', -, rfl⟩ := Option.map_eq_some_iff.mp hpairs
          exact ⟨_, List.mem_cons_self, hlegal⟩
        · obtain ⟨message, heq⟩ := h.exits (stated before) (key, value) hlegal
          exact ⟨message, by rw [heq, Load.error_bind]⟩
  | case5 key events hne =>
      obtain ⟨hexits, hnone⟩ := loadParams_key_exits params key (stated before) hne
      refine .inr ⟨fun pairs hpairs => ?_, hexits⟩
      exact absurd (hnone.symm.trans hpairs) (Option.some_ne_none pairs).symm

/-- A file that can be opened and read to its end, and whose pairs are all legal, with these pairs. -/
def States (legal : String × String → Prop) (files : YamlFiles) (path : String) (pairs : List (String × String)) :
    Prop :=
  (files path).bind statedPairs = some pairs ∧ ∀ pair ∈ pairs, legal pair

/-- The loader returns what the file states, or ends the program. -/
theorem Loads.loadFile_cases (h : Loads params legal stated) (files : YamlFiles) (path : String) :
    (∃ pairs, States legal files path pairs ∧ loadFile params files path (stated []) = .ok (stated pairs)) ∨
    ((∀ pairs, ¬ States legal files path pairs) ∧ (loadFile params files path (stated [])).Exits) := by
  unfold loadFile States
  cases files path with
  | none => exact .inr ⟨fun pairs hstates => (Option.some_ne_none pairs hstates.1.symm).elim, _, rfl⟩
  | some events =>
      obtain ⟨pairs, hpairs, hall, heq⟩ | ⟨hillegal, hexits⟩ := h.loadParams_cases events []
      · exact .inl ⟨pairs, ⟨hpairs, hall⟩, heq⟩
      · refine .inr ⟨fun pairs hstates => ?_, hexits⟩
        obtain ⟨pair, hmem, hnot⟩ := hillegal pairs hstates.1
        exact hnot (hstates.2 pair hmem)

end Loader

/-! ### The file of a SIYI camera -/

def siyiKeys : List String := siyiParams.map (·.key)

/-- What the pairs of a device file state. -/
def statedSiyi (pairs : List (String × String)) : SiyiLocals where
  savePath := lastValue "save_path" pairs
  boardName := lastValue "board" pairs
  rtspStreamUrl := lastValue "rtsp_stream_url" pairs
  videoFormat := lastValue "video_format" pairs
  codec := lastValue "codec" pairs
  imageWidth := (lastValue "image_width" pairs).map atoi
  imageHeight := (lastValue "image_height" pairs).map atoi
  ip := lastValue "siyi_camera_ip" pairs
  port := (lastValue "siyi_camera_port" pairs).map atoi

theorem siyiParams_loads : Loads siyiParams (fun pair => pair.1 ∈ siyiKeys) statedSiyi where
  next pairs pair hlegal := by
    obtain ⟨key, value⟩ := pair
    simp only [siyiKeys, siyiParams, readString, readInt, List.map_cons, List.map_nil, List.mem_cons, List.not_mem_nil,
      or_false] at hlegal
    rcases hlegal with rfl | rfl | rfl | rfl | rfl | rfl | rfl | rfl | rfl
    all_goals simp [applyPair, siyiParams, readString, readInt, statedSiyi, lastValue_concat]
  exits s pair hnot := by
    have hfind : siyiParams.find? (·.key = pair.1) = none := by
      apply List.find?_eq_none.mpr
      intro param hparam heq
      exact hnot (List.mem_map.mpr ⟨param, hparam, of_decide_eq_true heq⟩)
    exact ⟨_, by rw [applyPair, hfind]⟩

/-! ### devices.yaml -/

def deviceKey (id : Fin cameraNumMax) (setting : String) : String := "device" ++ toString id.val ++ setting

/-- A key of a device, with a value that its `READ_PARAM` takes. -/
def LegalDevicePair (pair : String × String) : Prop :=
  ∃ id, pair.1 = deviceKey id "_config" ∨ pair.1 = deviceKey id "_type" ∨
    pair.1 = deviceKey id "_enabled" ∧ (pair.2 = "true" ∨ pair.2 = "false")

def statedDevices (pairs : List (String × String)) : DeviceConfigs := fun id =>
  { yaml := lastValue (deviceKey id "_config") pairs
    type := lastValue (deviceKey id "_type") pairs
    enabled := lastValue (deviceKey id "_enabled") pairs = some "true" }

theorem devicesParams_keys_nodup : (devicesParams.map (·.key)).Nodup := by decide +kernel

theorem find_of_mem {σ : Type} {params : List (Param σ)} (hnodup : (params.map (·.key)).Nodup) {param : Param σ}
    (hmem : param ∈ params) : params.find? (·.key = param.key) = some param := by
  induction params with
  | nil => cases hmem
  | cons head params ih =>
      rw [List.map_cons, List.nodup_cons] at hnodup
      obtain rfl | hmem := List.mem_cons.mp hmem
      · exact List.find?_cons_of_pos (decide_eq_true rfl)
      · have hne : head.key ≠ param.key := fun heq => hnodup.1 (heq ▸ List.mem_map_of_mem hmem)
        rw [List.find?_cons_of_neg (by simpa using hne)]
        exact ih hnodup.2 hmem

def deviceSettings : List String := ["_config", "_type", "_enabled"]

theorem deviceKey_inj : ∀ id id' : Fin cameraNumMax, ∀ setting ∈ deviceSettings, ∀ setting' ∈ deviceSettings,
    deviceKey id setting = deviceKey id' setting' → id = id' ∧ setting = setting' := by
  decide +kernel

theorem lastValue_deviceKey (pairs : List (String × String)) (id id' : Fin cameraNumMax) {setting setting' : String}
    (hsetting : setting ∈ deviceSettings) (hsetting' : setting' ∈ deviceSettings) (value : String) :
    lastValue (deviceKey id setting) (pairs ++ [(deviceKey id' setting', value)]) =
      if id = id' ∧ setting = setting' then some value else lastValue (deviceKey id setting) pairs := by
  rw [lastValue_concat]
  refine if_congr ⟨deviceKey_inj id id' setting hsetting setting' hsetting', fun hboth => ?_⟩ rfl rfl
  rw [hboth.1, hboth.2]

/-- What a device's setting is changed to. -/
def DeviceConfig.set (setting value : String) (config : DeviceConfig) : DeviceConfig where
  yaml := if setting = "_config" then some value else config.yaml
  type := if setting = "_type" then some value else config.type
  enabled := if setting = "_enabled" then value = "true" else config.enabled

theorem statedDevices_concat (pairs : List (String × String)) (id : Fin cameraNumMax) {setting : String}
    (hsetting : setting ∈ deviceSettings) (value : String) :
    statedDevices (pairs ++ [(deviceKey id setting, value)]) =
      updateDevice id (DeviceConfig.set setting value) (statedDevices pairs) := by
  funext id'
  simp only [statedDevices, updateDevice]
  rw [lastValue_deviceKey pairs id' id (by decide) hsetting, lastValue_deviceKey pairs id' id (by decide) hsetting,
    lastValue_deviceKey pairs id' id (by decide) hsetting]
  by_cases hid : id' = id
  · rw [hid, Function.update_self]
    simp only [DeviceConfig.set, true_and, DeviceConfig.mk.injEq]
    refine ⟨by simp only [eq_comm], by simp only [eq_comm], ?_⟩
    by_cases henabled : setting = "_enabled"
    · simp [henabled]
    · simp [henabled, Ne.symm henabled]
  · simp [hid, statedDevices]

theorem applyPair_of_mem {s : DeviceConfigs} {param : Param DeviceConfigs} (id : Fin cameraNumMax)
    (hmem : param ∈ readDeviceConfig id) (value : String) :
    applyPair devicesParams s (param.key, value) = param.read value s := by
  have hparam : param ∈ devicesParams := List.mem_flatMap.mpr ⟨id, List.mem_finRange id, hmem⟩
  rw [applyPair, find_of_mem devicesParams_keys_nodup hparam]

theorem devicesParams_loads : Loads devicesParams LegalDevicePair statedDevices where
  next pairs pair hlegal := by
    obtain ⟨key, value⟩ := pair
    obtain ⟨id, rfl | rfl | ⟨rfl, hvalue⟩⟩ := hlegal
    · refine (applyPair_of_mem id List.mem_cons_self value).trans (congrArg Except.ok ?_)
      rw [statedDevices_concat pairs id (by decide)]
      rfl
    · refine (applyPair_of_mem id (List.mem_cons_of_mem _ List.mem_cons_self) value).trans
        (congrArg Except.ok ?_)
      rw [statedDevices_concat pairs id (by decide)]
      rfl
    · refine (applyPair_of_mem id (List.mem_cons_of_mem _ (List.mem_cons_of_mem _ List.mem_cons_self))
        value).trans ?_
      rw [statedDevices_concat pairs id (by decide)]
      obtain rfl | rfl := hvalue
      · rfl
      · rfl
  exits s pair hnot := by
    obtain ⟨key, value⟩ := pair
    rw [applyPair]
    cases hfind : devicesParams.find? (·.key = key) with
    | none => exact ⟨_, rfl⟩
    | some param =>
        have hkey : param.key = key := by simpa using List.find?_some hfind
        obtain ⟨id, -, hmem⟩ := List.mem_flatMap.mp (List.mem_of_find?_eq_some hfind)
        simp only [readDeviceConfig, List.mem_cons, List.not_mem_nil, or_false] at hmem
        obtain rfl | rfl | rfl := hmem
        · exact absurd ⟨id, .inl hkey.symm⟩ hnot
        · exact absurd ⟨id, .inr (.inl hkey.symm)⟩ hnot
        · have hvalue : ¬ (value = "true" ∨ value = "false") := fun hvalue =>
            hnot ⟨id, .inr (.inr ⟨hkey.symm, hvalue⟩)⟩
          obtain ⟨htrue, hfalse⟩ := not_or.mp hvalue
          exact ⟨"Illegal boolean value", by simp [readBool, htrue, hfalse]⟩

end MissionServer
