import Mathlib.Data.List.Induction
import MissionServer.Config.Serial

/-!
# From serial.yaml to the port

What the file states last for each key is compared with what the open port is set to. The loader
validates parity and a range of data bits; the text of the stop bits, and what follows the digits of a
number, pass unchecked.
-/

namespace MissionServer

/-! ### What a file states -/

/-- The keys and values of a complete stream of events. -/
def statedPairs : List YamlEvent → Option (List (String × String))
  | [] => none
  | .streamEnd :: _ => some []
  | .other :: events => statedPairs events
  | .scalar key :: .scalar value :: events => (statedPairs events).map ((key, value) :: ·)
  | .scalar _ :: _ => none

def serialKeys : List String := ["port", "baudrate", "parity", "data-bits", "stop-bits"]

/-- The value that the last pair with a key gives it. -/
def lastValue (key : String) (pairs : List (String × String)) : Option String :=
  (pairs.reverse.lookup key)

/-! ### What a port is set to -/

def SerialParity.letter : SerialParity → String
  | .none => "N"
  | .odd => "O"
  | .even => "E"
  | .mark => "M"
  | .space => "S"

def parityText (cflag : BitVec 32) : String :=
  if cflag &&& parenb = 0 then "N" else if cflag &&& parodd = 0 then "E" else "O"

def dataBitsText (cflag : BitVec 32) : String :=
  if cflag &&& csize = cs5 then "5"
  else if cflag &&& csize = cs6 then "6"
  else if cflag &&& csize = cs7 then "7"
  else "8"

def stopBitsText (cflag : BitVec 32) : String :=
  if cflag &&& cstopb = 0 then "1" else "2"

/-- The settings of a port are the ones the file states. -/
structure Denotes (tio : Termios) (pairs : List (String × String)) : Prop where
  baudrate : ∃ rate speed, (rate, speed) ∈ baudTable ∧ lastValue "baudrate" pairs = some (toString rate) ∧
    tio.ispeed = speed ∧ tio.ospeed = speed
  parity : lastValue "parity" pairs = some (parityText tio.cflag)
  dataBits : lastValue "data-bits" pairs = some (dataBitsText tio.cflag)
  stopBits : lastValue "stop-bits" pairs = some (stopBitsText tio.cflag)

/-- A port that was not opened for use: what was opened is closed, and no attributes took effect. -/
structure Refused (result : Int × List PortCall) : Prop where
  fd : result.1 = serialInvalidFd
  closed : ∀ fd, .opened fd ∈ result.2 → .closed fd ∈ result.2
  attributes : ∀ fd tio, .attributes fd tio true ∉ result.2

/-- Honoured or refused, whatever the system calls answer. -/
def HonouredOrRefused (events : List YamlEvent) : Prop :=
  ∀ os result, openConfiguredPort events os = some result →
    Refused result ∨
    ∃ tio pairs, result.2 = [.opened result.1, .attributes result.1 tio true] ∧ statedPairs events = some pairs ∧
      Denotes tio pairs

/-- Nothing but the stop bits and the spelling of the two numbers stands between the file and an open
port. -/
structure Openable (pairs : List (String × String)) : Prop where
  keys : ∀ pair ∈ pairs, pair.1 ∈ serialKeys
  port : lastValue "port" pairs ≠ none
  parity : lastValue "parity" pairs ∈ [some "N", some "O", some "E"]
  dataBits : ∃ text, lastValue "data-bits" pairs = some text ∧ 5 ≤ atoi text ∧ atoi text ≤ 8
  baudrate : ∃ text, lastValue "baudrate" pairs = some text ∧ convertBaudrate (atoi text) ≠ b0
  stopBits : lastValue "stop-bits" pairs ≠ some "1.5"

/-- The documented spellings of what the loader does not check. -/
structure Spelled (pairs : List (String × String)) : Prop where
  stopBits : lastValue "stop-bits" pairs ∈ [some "1", some "2"]
  dataBits : lastValue "data-bits" pairs ∈ [some "5", some "6", some "7", some "8"]
  baudrate : ∃ rate ∈ baudTable.map Prod.fst, lastValue "baudrate" pairs = some (toString rate)

/-! ### The loader, in terms of what is stated -/

theorem readParams_eq (events : List YamlEvent) (load : SerialLoad) :
    readParams events load =
      (statedPairs events).bind fun pairs => pairs.foldlM (fun load pair => readParam load pair.1 pair.2) load := by
  fun_induction readParams events load with
  | case1 => rfl
  | case2 => rfl
  | case3 events load ih => simpa only [statedPairs] using ih
  | case4 key value events load load' hparam ih =>
      simp only [statedPairs, Option.bind_map, Function.comp_def, List.foldlM_cons, hparam, ih]
      rfl
  | case5 key value events load hparam =>
      simp only [statedPairs, Option.bind_map, Function.comp_def, List.foldlM_cons, hparam]
      cases statedPairs events <;> rfl
  | case6 key events load hne =>
      have hstated : statedPairs (.scalar key :: events) = none := by
        cases events with
        | nil => rfl
        | cons event events =>
            cases event with
            | scalar value => exact absurd rfl (hne value events)
            | streamEnd => rfl
            | other => rfl
      rw [hstated]
      rfl

/-- What the loader has after reading all pairs. -/
def loaded (start : SerialCfg) (pairs : List (String × String)) : SerialLoad where
  serialCfg :=
    { start with
      port := (lastValue "port" pairs).or start.port
      baudrate := ((lastValue "baudrate" pairs).map atoi).getD start.baudrate
      dataBits := ((lastValue "data-bits" pairs).map atoi).getD start.dataBits }
  parity := (lastValue "parity" pairs).getD ""
  stopBits := (lastValue "stop-bits" pairs).getD ""

theorem lastValue_concat (key : String) (pairs : List (String × String)) (pair : String × String) :
    lastValue key (pairs ++ [pair]) = if key = pair.1 then some pair.2 else lastValue key pairs := by
  obtain ⟨key', value⟩ := pair
  rw [lastValue, List.reverse_append, List.reverse_singleton, List.singleton_append, List.lookup_cons]
  by_cases h : key = key'
  · simp [h]
  · simp [h, lastValue, beq_eq_false_iff_ne.mpr h]

theorem readParam_loaded (start : SerialCfg) (pairs : List (String × String)) (pair : String × String) :
    readParam (loaded start pairs) pair.1 pair.2 =
      if pair.1 ∈ serialKeys then some (loaded start (pairs ++ [pair])) else none := by
  obtain ⟨key, value⟩ := pair
  by_cases hmem : key ∈ serialKeys
  · rw [if_pos hmem]
    simp only [serialKeys, List.mem_cons, List.not_mem_nil, or_false] at hmem
    rcases hmem with rfl | rfl | rfl | rfl | rfl
    all_goals simp [readParam, loaded, lastValue_concat]
  · rw [if_neg hmem]
    simp only [serialKeys, List.mem_cons, List.not_mem_nil, or_false, not_or] at hmem
    simp [readParam, hmem]

theorem foldlM_readParam (start : SerialCfg) (pairs : List (String × String)) :
    pairs.foldlM (fun load pair => readParam load pair.1 pair.2) { serialCfg := start } =
      if ∀ pair ∈ pairs, pair.1 ∈ serialKeys then some (loaded start pairs) else none := by
  induction pairs using List.reverseRecOn with
  | nil => rfl
  | append_singleton pairs pair ih =>
      rw [List.foldlM_append, ih]
      by_cases hpairs : ∀ pair ∈ pairs, pair.1 ∈ serialKeys
      · rw [if_pos hpairs]
        simp only [Option.bind_eq_bind, Option.bind_some, List.foldlM_cons, List.foldlM_nil, readParam_loaded]
        by_cases hpair : pair.1 ∈ serialKeys
        · rw [if_pos hpair, if_pos]
          · rfl
          · simpa [or_imp, forall_and, hpair] using hpairs
        · rw [if_neg hpair, if_neg]
          · rfl
          · intro hall
            exact hpair (hall pair (by simp))
      · rw [if_neg hpairs, if_neg]
        · rfl
        · intro hall
          exact hpairs fun pair hpair => hall pair (List.mem_append_left _ hpair)

theorem openConfiguredPort_eq_some {events : List YamlEvent} {os : OpenOutcome} {result : Int × List PortCall} :
    openConfiguredPort events os = some result ↔
      ∃ pairs serialCfg, statedPairs events = some pairs ∧ (∀ pair ∈ pairs, pair.1 ∈ serialKeys) ∧
        checkParams (loaded {} pairs) = some serialCfg ∧
        serialOpen (getSerialPortConfig serialCfg).1 (getSerialPortConfig serialCfg).2 serialTimeout os = result := by
  simp only [openConfiguredPort, loadSerialConfigs, readParams_eq, foldlM_readParam, Option.map_eq_some_iff,
    Option.bind_eq_some_iff]
  constructor
  · intro h
    obtain ⟨serialCfg, ⟨load, ⟨pairs, hpairs, hload⟩, hcheck⟩, hopen⟩ := h
    split at hload
    · cases hload
      exact ⟨pairs, serialCfg, hpairs, ‹_›, hcheck, hopen⟩
    · cases hload
  · intro h
    obtain ⟨pairs, serialCfg, hpairs, hkeys, hcheck, hopen⟩ := h
    exact ⟨serialCfg, ⟨_, ⟨pairs, hpairs, if_pos hkeys⟩, hcheck⟩, hopen⟩

/-! ### Opening the port -/

/-- Everything `serial_open` can do: refuse, or open the port with the attributes it has built. -/
theorem serialOpen_cases (port : Option String) (cfg : SerialConfig) (timeout : Int) (os : OpenOutcome) :
    Refused (serialOpen port cfg timeout os) ∨
    ∃ tio, port ≠ none ∧ convertBaudrate cfg.baudrate.toInt32.toInt ≠ b0 ∧
      portAttributes cfg (convertBaudrate cfg.baudrate.toInt32.toInt) timeout = some tio ∧
      serialOpen port cfg timeout os = (os.fd, [.opened os.fd, .attributes os.fd tio true]) := by
  unfold serialOpen
  by_cases hbr : convertBaudrate cfg.baudrate.toInt32.toInt = b0
  · exact .inl (by constructor <;> simp [hbr])
  cases port with
  | none => exact .inl (by constructor <;> simp [hbr])
  | some port =>
      by_cases hfd : os.fd = serialInvalidFd
      · exact .inl (by constructor <;> simp [hbr, hfd])
      have hclose : serialClose os.fd = [.closed os.fd] := if_pos hfd
      simp only [hbr, if_false, ne_eq, hfd, not_false_eq_true, if_true, hclose]
      by_cases hspeed : ¬ os.cfsetispeed ∨ ¬ os.cfsetospeed
      · rw [if_pos hspeed]
        exact .inl (by constructor <;> simp)
      rw [if_neg hspeed]
      cases hattr : portAttributes cfg (convertBaudrate cfg.baudrate.toInt32.toInt) timeout with
      | none => exact .inl (by constructor <;> simp)
      | some tio =>
          dsimp only
          by_cases htcset : ¬ os.tcsetattr
          · rw [if_pos htcset]
            exact .inl (by constructor <;> simp)
          · rw [if_neg htcset]
            exact .inr ⟨tio, by simp, by simp, rfl, rfl⟩

/-- Where no system call fails, only the configuration can be a reason to refuse. -/
theorem serialOpen_of_success {port : String} {cfg : SerialConfig} {timeout : Int} {tio : Termios}
    (hbr : convertBaudrate cfg.baudrate.toInt32.toInt ≠ b0)
    (hattr : portAttributes cfg (convertBaudrate cfg.baudrate.toInt32.toInt) timeout = some tio) :
    serialOpen (some port) cfg timeout ⟨3, true, true, true⟩ = (3, [.opened 3, .attributes 3 tio true]) := by
  simp [serialOpen, hbr, hattr, serialInvalidFd]

/-- The attributes say what the configuration says. -/
theorem portAttributes_spec {cfg : SerialConfig} {br : Nat} {timeout : Int} {tio : Termios}
    (h : portAttributes cfg br timeout = some tio) :
    (tio.ispeed = br ∧ tio.ospeed = br) ∧ parityOfText (parityText tio.cflag) = some cfg.parity ∧
      dataBitsText tio.cflag = toString cfg.dataBits ∧ stopBitsOfText (stopBitsText tio.cflag) = some cfg.stopBits := by
  obtain ⟨baudrate, parity, dataBits, stopBits⟩ := cfg
  simp only [portAttributes, Option.bind_eq_bind, Option.bind_eq_some_iff, Option.pure_def, Option.some.injEq] at h
  obtain ⟨cflag₁, hstop, cflag₂, hparity, cflag₃, hdata, rfl⟩ := h
  refine ⟨⟨rfl, rfl⟩, ?_⟩
  unfold dataBitsFlags at hdata
  split at hdata
  case h_5 => cases hdata
  all_goals
    cases hdata
    cases stopBits <;> cases hstop
    all_goals
      cases parity <;> cases hparity
      all_goals
        dsimp only
        decide

theorem portAttributes_exists {cfg : SerialConfig} (br : Nat) (timeout : Int) (hstop : cfg.stopBits ≠ .oneHalf)
    (hparity : cfg.parity ∈ [.none, .odd, .even]) (hlo : 5 ≤ cfg.dataBits) (hhi : cfg.dataBits ≤ 8) :
    ∃ tio, portAttributes cfg br timeout = some tio := by
  obtain ⟨baudrate, parity, dataBits, stopBits⟩ := cfg
  have hdata : dataBits = 5 ∨ dataBits = 6 ∨ dataBits = 7 ∨ dataBits = 8 := by
    simp only at hlo hhi
    omega
  rcases hdata with rfl | rfl | rfl | rfl
  all_goals
    cases stopBits
    case oneHalf => exact absurd rfl hstop
    all_goals
      cases parity
      case mark => simp at hparity
      case space => simp at hparity
      all_goals exact ⟨_, rfl⟩

/-! ### Texts and values -/

theorem atoi_bmod (text : String) : (atoi text).bmod (2 ^ 32) = atoi text := Int.bmod_bmod

theorem toInt_toInt32_ofInt (n : Int) : (UInt32.ofInt n).toInt32.toInt = n.bmod (2 ^ 32) := by
  have hnonneg : 0 ≤ n % 2 ^ 32 := Int.emod_nonneg n (by decide)
  rw [UInt32.ofInt, UInt32.toInt32_ofNat', Int32.toInt_ofNat', Int.toNat_of_nonneg hnonneg]
  exact Int.emod_bmod n (2 ^ 32)

theorem port_loaded (pairs : List (String × String)) : (loaded {} pairs).serialCfg.port = lastValue "port" pairs :=
  Option.or_none

/-- The rate reaches `convert_baudrate` as `atoi` left it, through an unsigned field. -/
theorem baudrate_loaded (pairs : List (String × String)) :
    (UInt32.ofInt (loaded {} pairs).serialCfg.baudrate).toInt32.toInt =
      ((lastValue "baudrate" pairs).map atoi).getD 0 := by
  rw [toInt_toInt32_ofInt]
  simp only [loaded]
  cases lastValue "baudrate" pairs with
  | none => rfl
  | some text => exact atoi_bmod text

theorem atoi_rate : ∀ entry ∈ baudTable, atoi (toString entry.1) = entry.1 := by decide +kernel

theorem convertBaudrate_rate : ∀ entry ∈ baudTable, convertBaudrate entry.1 = entry.2 ∧ entry.2 ≠ b0 := by
  decide +kernel

theorem parityOfText_empty : parityOfText "" = none := by decide

theorem eq_letter_of_parityOfText {text : String} {parity : SerialParity} (h : parityOfText text = some parity) :
    text = parity.letter := by
  unfold parityOfText at h
  split_ifs at h
  all_goals
    cases h
    assumption

/-- A text that the loader takes for a parity is the only one that stands for it. -/
theorem lastValue_parity {pairs : List (String × String)} {text : String} {parity : SerialParity}
    (hloaded : parityOfText (loaded {} pairs).parity = some parity) (htext : parityOfText text = some parity) :
    lastValue "parity" pairs = some text := by
  have heq := (eq_letter_of_parityOfText hloaded).trans (eq_letter_of_parityOfText htext).symm
  cases hlast : lastValue "parity" pairs with
  | none => simp [loaded, hlast, parityOfText_empty] at hloaded
  | some value => rw [← heq, loaded, hlast, Option.getD_some]

theorem checkParams_eq_some {load : SerialLoad} {serialCfg : SerialCfg} :
    checkParams load = some serialCfg ↔
      ∃ parity, parityOfText load.parity = some parity ∧ (5 ≤ load.serialCfg.dataBits ∧ load.serialCfg.dataBits ≤ 8) ∧
        serialCfg = { load.serialCfg with
          parity, stopBits := (stopBitsOfText load.stopBits).getD load.serialCfg.stopBits } := by
  simp only [checkParams, Option.bind_eq_bind, Option.bind_eq_some_iff]
  constructor
  · intro hchecked
    obtain ⟨parity, hparity, h⟩ := hchecked
    split_ifs at h with hrange
    cases h
    exact ⟨parity, hparity, by omega, rfl⟩
  · intro h
    obtain ⟨parity, hparity, hrange, rfl⟩ := h
    exact ⟨parity, hparity, if_neg (by omega)⟩

/-! ### The result -/

theorem openable_of_opened {pairs : List (String × String)} {serialCfg : SerialCfg} {tio : Termios}
    (hkeys : ∀ pair ∈ pairs, pair.1 ∈ serialKeys) (hcheck : checkParams (loaded {} pairs) = some serialCfg)
    (hport : (getSerialPortConfig serialCfg).1 ≠ none)
    (hbr : convertBaudrate (getSerialPortConfig serialCfg).2.baudrate.toInt32.toInt ≠ b0)
    (hattr : portAttributes (getSerialPortConfig serialCfg).2
      (convertBaudrate (getSerialPortConfig serialCfg).2.baudrate.toInt32.toInt) serialTimeout = some tio) :
    Openable pairs := by
  obtain ⟨-, hparity, -, hstop⟩ := portAttributes_spec hattr
  obtain ⟨parity, hparityText, hrange, rfl⟩ := checkParams_eq_some.mp hcheck
  simp only [getSerialPortConfig] at hport hbr hparity hstop
  rw [baudrate_loaded] at hbr
  rw [port_loaded] at hport
  refine ⟨hkeys, hport, ?_, ?_, ?_, ?_⟩
  · rw [lastValue_parity hparityText hparity, parityText]
    split_ifs <;> simp
  · cases hlast : lastValue "data-bits" pairs with
    | none => simp [loaded, hlast] at hrange
    | some text => exact ⟨text, rfl, by simpa [loaded, hlast] using hrange⟩
  · cases hlast : lastValue "baudrate" pairs with
    | none =>
        rw [hlast] at hbr
        exact absurd (by decide) hbr
    | some text => exact ⟨text, rfl, by simpa [hlast] using hbr⟩
  · intro hlast
    have hhalf : stopBitsOfText (loaded {} pairs).stopBits = some .oneHalf := by simp [loaded, hlast, stopBitsOfText]
    rw [hhalf, Option.getD_some] at hstop
    unfold stopBitsText at hstop
    split_ifs at hstop <;> simp [stopBitsOfText] at hstop

/-- The settings of an open port are the stated ones where the texts are spelled as documented. -/
theorem denotes_of_spelled {pairs : List (String × String)} {serialCfg : SerialCfg} {tio : Termios}
    (hcheck : checkParams (loaded {} pairs) = some serialCfg)
    (hattr : portAttributes (getSerialPortConfig serialCfg).2
      (convertBaudrate (getSerialPortConfig serialCfg).2.baudrate.toInt32.toInt) serialTimeout = some tio)
    (hspelled : Spelled pairs) : Denotes tio pairs := by
  obtain ⟨⟨hispeed, hospeed⟩, hparity, hdata, hstop⟩ := portAttributes_spec hattr
  obtain ⟨parity, hparityText, hrange, rfl⟩ := checkParams_eq_some.mp hcheck
  simp only [getSerialPortConfig] at hparity hdata hstop hispeed hospeed
  rw [baudrate_loaded] at hispeed hospeed
  refine ⟨?_, lastValue_parity hparityText hparity, ?_, ?_⟩
  · obtain ⟨rate, hrate, hlast⟩ := hspelled.baudrate
    obtain ⟨⟨rate, speed⟩, hentry, rfl⟩ := List.mem_map.mp hrate
    refine ⟨rate, speed, hentry, hlast, ?_⟩
    have hspeed : convertBaudrate (atoi (toString rate)) = speed := by
      rw [atoi_rate _ hentry]
      exact (convertBaudrate_rate _ hentry).1
    rw [hlast, Option.map_some, Option.getD_some, hspeed] at hispeed hospeed
    exact ⟨hispeed, hospeed⟩
  · have hmem := hspelled.dataBits
    rw [hdata]
    simp only [List.mem_cons, List.not_mem_nil, or_false] at hmem
    rcases hmem with hlast | hlast | hlast | hlast
    all_goals
      simp only [loaded, hlast, Option.map_some, Option.getD_some]
      decide
  · have hmem := hspelled.stopBits
    simp only [List.mem_cons, List.not_mem_nil, or_false] at hmem
    rcases hmem with hlast | hlast
    all_goals
      simp only [loaded, hlast, Option.getD_some] at hstop ⊢
      unfold stopBitsText at hstop ⊢
      split_ifs at hstop ⊢ <;> revert hstop <;> decide

theorem stopBits_oneHalf {pairs : List (String × String)}
    (h : (stopBitsOfText (loaded {} pairs).stopBits).getD (loaded {} pairs).serialCfg.stopBits = .oneHalf) :
    lastValue "stop-bits" pairs = some "1.5" := by
  have htext : (loaded {} pairs).stopBits = "1.5" := by
    unfold stopBitsOfText at h
    split_ifs at h with hhalf
    case pos => exact hhalf
    all_goals cases h
  cases hlast : lastValue "stop-bits" pairs with
  | none => simp [loaded, hlast] at htext
  | some text => rw [← htext, loaded, hlast, Option.getD_some]

theorem openConfiguredPort_of_openable {events : List YamlEvent} {pairs : List (String × String)}
    (hpairs : statedPairs events = some pairs) (h : Openable pairs) :
    ∃ tio, openConfiguredPort events ⟨3, true, true, true⟩ = some (3, [.opened 3, .attributes 3 tio true]) := by
  obtain ⟨port, hport⟩ := Option.ne_none_iff_exists'.mp h.port
  obtain ⟨data, hdata, hlo, hhi⟩ := h.dataBits
  obtain ⟨baud, hbaud, hbr⟩ := h.baudrate
  obtain ⟨parity, hparity, hmem⟩ : ∃ parity, parityOfText (loaded {} pairs).parity = some parity ∧
      parity ∈ [SerialParity.none, .odd, .even] := by
    have hletter := h.parity
    simp only [List.mem_cons, List.not_mem_nil, or_false] at hletter
    rcases hletter with hlast | hlast | hlast
    all_goals
      simp only [loaded, hlast, Option.getD_some]
      exact ⟨_, rfl, by decide⟩
  set serialCfg : SerialCfg := { (loaded {} pairs).serialCfg with
    parity
    stopBits := (stopBitsOfText (loaded {} pairs).stopBits).getD (loaded {} pairs).serialCfg.stopBits } with hcfg
  have hcheck : checkParams (loaded {} pairs) = some serialCfg :=
    checkParams_eq_some.mpr ⟨parity, hparity, by simpa [loaded, hdata] using ⟨hlo, hhi⟩, rfl⟩
  have hstop : (getSerialPortConfig serialCfg).2.stopBits ≠ .oneHalf := by
    intro hhalf
    apply h.stopBits
    exact stopBits_oneHalf hhalf
  obtain ⟨tio, hattr⟩ := portAttributes_exists
    (convertBaudrate (getSerialPortConfig serialCfg).2.baudrate.toInt32.toInt) serialTimeout hstop hmem
    (by simpa [getSerialPortConfig, hcfg, loaded, hdata] using hlo)
    (by simpa [getSerialPortConfig, hcfg, loaded, hdata] using hhi)
  refine ⟨tio, openConfiguredPort_eq_some.mpr ⟨pairs, serialCfg, hpairs, h.keys, hcheck, ?_⟩⟩
  have hname : (getSerialPortConfig serialCfg).1 = some port := (port_loaded pairs).trans hport
  rw [hname]
  refine serialOpen_of_success ?_ hattr
  have hrate : (getSerialPortConfig serialCfg).2.baudrate.toInt32.toInt = atoi baud := by
    have hloaded := baudrate_loaded pairs
    rw [hbaud] at hloaded
    exact hloaded
  rw [hrate]
  exact hbr

/-- A file leads to an open port only with the settings it states exactly when the texts that nothing
checks are spelled as documented, in every file that would otherwise open the port. -/
theorem honouredOrRefused_iff (events : List YamlEvent) :
    HonouredOrRefused events ↔
      ∀ pairs, statedPairs events = some pairs → Openable pairs → Spelled pairs := by
  constructor
  · intro h pairs hpairs hopenable
    obtain ⟨tio, hopen⟩ := openConfiguredPort_of_openable hpairs hopenable
    obtain hrefused | ⟨tio', pairs', -, hpairs', hdenotes⟩ := h _ _ hopen
    · have hfd : (3 : Int) = serialInvalidFd := hrefused.fd
      exact absurd hfd (by decide)
    obtain rfl : pairs = pairs' := Option.some.inj (hpairs.symm.trans hpairs')
    refine ⟨?_, ?_, ?_⟩
    · rw [hdenotes.stopBits, stopBitsText]
      split_ifs <;> simp
    · rw [hdenotes.dataBits, dataBitsText]
      split_ifs <;> simp
    · obtain ⟨rate, speed, hentry, hlast, -⟩ := hdenotes.baudrate
      exact ⟨rate, List.mem_map.mpr ⟨_, hentry, rfl⟩, hlast⟩
  · intro h os result hopen
    obtain ⟨pairs, serialCfg, hpairs, hkeys, hcheck, rfl⟩ := openConfiguredPort_eq_some.mp hopen
    obtain hrefused | ⟨tio, hport, hbr, hattr, hresult⟩ :=
      serialOpen_cases (getSerialPortConfig serialCfg).1 (getSerialPortConfig serialCfg).2 serialTimeout os
    · exact .inl hrefused
    · refine .inr ⟨tio, pairs, by rw [hresult], hpairs, denotes_of_spelled hcheck hattr ?_⟩
      exact h pairs hpairs (openable_of_opened hkeys hcheck hport hbr hattr)

/-- With stop bits "3" the loader prints its message and goes on, and the port opens with one stop bit. -/
theorem stopBits_unchecked :
    ¬ HonouredOrRefused [.other, .scalar "port", .scalar "/dev/ttyUSB0", .scalar "baudrate", .scalar "57600",
      .scalar "parity", .scalar "N", .scalar "data-bits", .scalar "8", .scalar "stop-bits", .scalar "3", .other,
      .streamEnd] := by
  intro h
  obtain hrefused | ⟨tio, pairs, -, hpairs, hdenotes⟩ := h ⟨3, true, true, true⟩ _ rfl
  · have hfd := hrefused.fd
    revert hfd
    decide
  · cases hpairs
    have hstop : some "3" = some (stopBitsText tio.cflag) := hdenotes.stopBits
    unfold stopBitsText at hstop
    split_ifs at hstop <;> revert hstop <;> decide

end MissionServer
