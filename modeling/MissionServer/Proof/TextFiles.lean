import MissionServer.Lib.Decimal
import MissionServer.Lib.History
import MissionServer.Lib.Machine
import MissionServer.Proof.RcConfig
import MissionServer.System

/-!
# Files with numbers

Every `int` that is printed is read back. So the file with the process number names the server that started last,
as long as no signal handler has run since, and every table of RC channels can be kept in a file.
-/

namespace MissionServer

/-! ### Numbers in texts -/

theorem leadingNat_toDigits (n : Nat) : leadingNat (Nat.toDigits 10 n) = n := by
  have hall : (Nat.toDigits 10 n).takeWhile Char.isDigit = Nat.toDigits 10 n := by
    have hend : ∀ c ∈ ([] : List Char).head?, c.isDigit = false := nofun
    have hscan := Decimal.takeWhile_toDigits n hend
    rwa [List.append_nil] at hscan
  rw [leadingNat, hall]
  exact Nat.ofDigitChars_ten_toDigits

/-- A digit begins a number without a sign. -/
theorem isDigit_cases {c : Char} (hc : c.isDigit) : isSpace c = false ∧ c ≠ '-' ∧ c ≠ '+' := by
  obtain ⟨hlow, hhigh⟩ := Decimal.toNat_digit hc
  have hnot : ∀ d : Char, d.toNat < '0'.toNat → c ≠ d := by
    intro d hd heq
    rw [heq] at hlow
    omega
  refine ⟨?_, hnot '-' (by decide), hnot '+' (by decide)⟩
  have hspace : c ≠ ' ' := hnot ' ' (by decide)
  have hreturn : ¬ c ≤ '\r' := by
    intro hle
    have hle' : c.toNat ≤ '\r'.toNat := UInt32.le_iff_toNat_le.mp hle
    have hreturnNat : '\r'.toNat = 13 := rfl
    have hzeroNat : '0'.toNat = 48 := rfl
    omega
  rw [isSpace, decide_eq_false hspace, decide_eq_false hreturn, Bool.and_false, Bool.or_false]

theorem strtol_nat (n : Nat) (hn : n < 2 ^ 63) : strtol (toString n) = n := by
  have htext : (toString n).toList = Nat.toDigits 10 n := by
    rw [Nat.toString_eq_repr, Nat.toList_repr]
  have hvalue := leadingNat_toDigits n
  have hdigits : ∀ c ∈ Nat.toDigits 10 n, c.isDigit := fun c hc => Decimal.isDigit_toDigits hc
  rw [strtol, htext]
  obtain ⟨c, cs, hcons⟩ := List.exists_cons_of_ne_nil (Nat.toDigits_ne_nil (n := n) (b := 10))
  rw [hcons] at hvalue hdigits ⊢
  obtain ⟨hspace, hminus, hplus⟩ := isDigit_cases (hdigits c List.mem_cons_self)
  rw [List.dropWhile_cons_of_neg (by rw [hspace]; simp)]
  split
  · rename_i heq
    exact absurd (List.cons.inj heq).1 hminus
  · rename_i heq
    exact absurd (List.cons.inj heq).1 hplus
  · rw [hvalue]
    omega

theorem strtol_neg (n : Nat) (hn : n ≤ 2 ^ 63) : strtol ("-" ++ toString n) = -n := by
  have htext : ("-" ++ toString n).toList = '-' :: Nat.toDigits 10 n := by
    rw [String.toList_append, Nat.toString_eq_repr, Nat.toList_repr]
    rfl
  rw [strtol, htext, List.dropWhile_cons_of_neg (by decide)]
  show max (-2 ^ 63) (min (2 ^ 63 - 1) (-(leadingNat (Nat.toDigits 10 n) : Int))) = -n
  rw [leadingNat_toDigits]
  omega

theorem atoi_toString {n : Int} (hmin : -2 ^ 31 ≤ n) (hmax : n < 2 ^ 31) : atoi (toString n) = n := by
  have hlong : strtol (toString n) = n := by
    cases n with
    | ofNat m =>
        have hm : (Int.ofNat m : Int) = m := rfl
        exact strtol_nat m (by omega)
    | negSucc m => exact strtol_neg (m + 1) (by omega)
  rw [atoi, hlong, Int.bmod_eq_of_le (by omega) (by omega)]

/-! ### The process number -/

theorem toString_line {n : Int} (hmin : -2 ^ 31 ≤ n) (hmax : n < 2 ^ 31) :
    '\n' ∉ (toString n).toList ∧ (toString n).toList ≠ [] ∧ (toString n).toList.length ≤ 11 := by
  have hdigits : ∀ m < 10 ^ 10, '\n' ∉ Nat.toDigits 10 m ∧ (Nat.toDigits 10 m).length ≤ 10 := by
    intro m hm
    refine ⟨fun hmem => ?_, (Nat.length_toDigits_le_iff (by decide) (by decide)).mpr hm⟩
    exact absurd (Decimal.isDigit_toDigits hmem) (by decide)
  cases n with
  | ofNat m =>
      have hm : (Int.ofNat m : Int) = m := rfl
      obtain ⟨hline, hlen⟩ := hdigits m (by omega)
      have htext : (toString (Int.ofNat m)).toList = Nat.toDigits 10 m := Nat.toList_repr
      rw [htext]
      exact ⟨hline, Nat.toDigits_ne_nil, hlen.trans (by decide)⟩
  | negSucc m =>
      obtain ⟨hline, hlen⟩ := hdigits (m + 1) (by omega)
      have htext : (toString (Int.negSucc m)).toList = '-' :: Nat.toDigits 10 (m + 1) := by
        show ("-" ++ Nat.repr (m + 1)).toList = _
        rw [String.toList_append, Nat.toList_repr]
        rfl
      rw [htext, List.mem_cons, not_or, List.length_cons]
      exact ⟨⟨by decide, hline⟩, List.cons_ne_nil _ _, by omega⟩

theorem fgets_line {size : Nat} {text : List Char} (hline : '\n' ∉ text) (hne : text ≠ []) (hlen : text.length < size) :
    fgets size text = some text := by
  have hall : ∀ c ∈ text, decide (c ≠ '\n') = true := by
    intro c hc
    exact decide_eq_true fun heq => hline (heq ▸ hc)
  rw [fgets, if_neg hne, List.takeWhile_eq_self_iff.mpr hall, List.dropWhile_eq_nil_iff.mpr hall]
  show some ((text ++ []).take (size - 1)) = some text
  rw [List.append_nil, List.take_of_length_le (by omega)]

theorem readPidfile_createPidfile (pid : Int32) (file : Option String) :
    (createPidfile true pid file).bind readPidfile = some pid.toInt := by
  have hmin := pid.le_toInt
  have hmax := pid.toInt_lt
  obtain ⟨hline, hne, hlen⟩ := toString_line hmin hmax
  have hread : fgets (32 - 1) (toString pid.toInt).toList = some (toString pid.toInt).toList :=
    fgets_line hline hne (by omega)
  show (fgets (32 - 1) (toString pid.toInt).toList).map (fun buff => atoi (String.ofList buff)) = some pid.toInt
  rw [hread, Option.map_some, String.ofList_toList, atoi_toString hmin hmax]

/-- What happens to the servers of a machine: one starts, and can open the file or not, one handles a signal, or one
ends in another way. -/
inductive PidEvent
  | starts (opens : Bool) (pid : Int32)
  | handlesSignal
  | ends
  deriving DecidableEq, Repr

def pidStep (file : Option String) : PidEvent → Option String
  | .starts opens pid => (createPidfile opens pid file).getD file
  | .handlesSignal => deletePidfile file
  | .ends => file

/-- The events that touch the file. -/
def PidEvent.Touches (e : PidEvent) : Prop := e = .handlesSignal ∨ ∃ pid, e = .starts true pid

theorem pidStep_eq_self {e : PidEvent} (h : ¬ e.Touches) (file : Option String) : pidStep file e = file := by
  cases e with
  | starts opens pid =>
      cases opens with
      | false => rfl
      | true => exact absurd (.inr ⟨pid, rfl⟩) h
  | handlesSignal => exact absurd (.inl rfl) h
  | ends => rfl

/-- A signal is sent to the server that started last of those that could open the file, and to no process once a
signal handler has run after that. -/
theorem sendSignal_last_server (events : List PidEvent) (signo : Int) (call : Int × Int) :
    sendSignal signo (Machine.run pidStep none events) = some call ↔
      ∃ pid, History.Latest PidEvent.Touches events (.starts true pid) ∧ call = (pid.toInt, signo) := by
  induction events using List.reverseRecOn with
  | nil =>
      refine iff_of_false nofun ?_
      rintro ⟨pid, hlatest, -⟩
      exact History.not_latest_nil hlatest
  | append_singleton events e ih =>
      have hstart : ∀ pid, PidEvent.Touches (.starts true pid) := fun pid => .inr ⟨pid, rfl⟩
      simp only [Machine.run_concat, History.latest_concat (hstart _)]
      by_cases htouches : e.Touches
      · simp only [htouches, true_and, not_true, false_and, or_false]
        obtain rfl | ⟨pid, rfl⟩ := htouches
        · refine iff_of_false nofun ?_
          rintro ⟨pid, heq, -⟩
          cases heq
        · have hread : readPidfile (some (toString pid.toInt)) = some pid.toInt :=
            readPidfile_createPidfile pid (Machine.run pidStep none events)
          show (readPidfile (some (toString pid.toInt))).map (·, signo) = some call ↔ _
          rw [hread, Option.map_some, Option.some.injEq]
          constructor
          · intro hcall
            exact ⟨pid, rfl, hcall.symm⟩
          · rintro ⟨pid', heq, hcall⟩
            cases heq
            exact hcall.symm
      · simp only [htouches, false_and, not_false_iff, true_and, false_or]
        rw [pidStep_eq_self htouches, ih]

/-! ### The table of RC channels -/

/-- The numbers are `int`s. -/
structure ConfigRc.Fits (config : ConfigRc) : Prop where
  min : -2 ^ 31 ≤ config.min ∧ config.min < 2 ^ 31
  mid : -2 ^ 31 ≤ config.mid ∧ config.mid < 2 ^ 31
  max : -2 ^ 31 ≤ config.max ∧ config.max < 2 ^ 31

def RcField.text (config : ConfigRc) : RcField → String
  | .min => toString config.min
  | .mid => toString config.mid
  | .max => toString config.max
  | .reverse => if config.reverse then "true" else "false"

/-- A table as the entries of a file. -/
def rcPairs (rcChannels : Fin 18 → ConfigRc) : List (String × String) :=
  rcFields.map fun entry => (rcKey entry.1 entry.2, entry.2.text (rcChannels entry.1))

theorem RcField.takes_text (field : RcField) (config : ConfigRc) : field.Takes (field.text config) := by
  rintro rfl
  cases hreverse : config.reverse <;> simp [RcField.text, hreverse]

theorem rcPairs_nodup (rcChannels : Fin 18 → ConfigRc) : ((rcPairs rcChannels).map (·.1)).Nodup := by
  rw [rcPairs, List.map_map]
  exact rcKeys_nodup

theorem lastValue_rcPairs {rcChannels : Fin 18 → ConfigRc} {pairs : List (String × String)}
    (hpairs : pairs.Perm (rcPairs rcChannels)) (n : Fin 18) (field : RcField) :
    lastValue (rcKey n field) pairs = some (field.text (rcChannels n)) := by
  rw [lastValue_eq_some_iff ((hpairs.map _).nodup_iff.mpr (rcPairs_nodup rcChannels)), hpairs.mem_iff]
  exact List.mem_map.mpr ⟨(n, field), mem_rcFields n field, rfl⟩

theorem statedRc_rcPairs {rcChannels : Fin 18 → ConfigRc} (hfits : ∀ n, (rcChannels n).Fits)
    {pairs : List (String × String)} (hpairs : pairs.Perm (rcPairs rcChannels)) (start : Fin 18 → ConfigRc) :
    statedRc start pairs = rcChannels := by
  funext n
  obtain ⟨hmin, hmid, hmax⟩ := hfits n
  have hreverse : decide (RcField.text (rcChannels n) .reverse = "true") = (rcChannels n).reverse := by
    cases hconfig : (rcChannels n).reverse <;> simp [RcField.text, hconfig]
  simp only [statedRc, lastValue_rcPairs hpairs, Option.map_some, Option.getD_some, hreverse]
  simp only [RcField.text, atoi_toString hmin.1 hmin.2, atoi_toString hmid.1 hmid.2, atoi_toString hmax.1 hmax.2]

theorem loadRcConfigs_rcPairs {rcChannels : Fin 18 → ConfigRc} (hfits : ∀ n, (rcChannels n).Fits)
    {files : YamlFiles} {yamlPath : String} {pairs : List (String × String)} (hpairs : pairs.Perm (rcPairs rcChannels))
    (hfile : files yamlPath = some (mappingEvents (flatEntries pairs))) (start : Fin 18 → ConfigRc) :
    loadRcConfigs files yamlPath start = .ok rcChannels := by
  have hlegal : ∀ pair ∈ pairs, LegalRcPair pair := by
    intro pair hpair
    obtain ⟨entry, -, rfl⟩ := List.mem_map.mp (hpairs.mem_iff.mp hpair)
    exact ⟨entry.1, entry.2, rfl, entry.2.takes_text _⟩
  rw [(loadRcConfigs_eq hfile start).1 hlegal, statedRc_rcPairs hfits hpairs]

theorem atoi_fits (text : String) : -2 ^ 31 ≤ atoi text ∧ atoi text < 2 ^ 31 :=
  ⟨Int.le_bmod (by decide), Int.bmod_lt (by decide)⟩

/-- Where a number was an `int` before, it is one after its last value has been read. -/
theorem getD_atoi_fits {n : Int} (hn : -2 ^ 31 ≤ n ∧ n < 2 ^ 31) (text : Option String) :
    -2 ^ 31 ≤ (text.map atoi).getD n ∧ (text.map atoi).getD n < 2 ^ 31 := by
  cases text with
  | none => exact hn
  | some text => exact atoi_fits text

theorem fits_of_loadRcConfigs {files : YamlFiles} {yamlPath : String} {start rcChannels : Fin 18 → ConfigRc}
    (hstart : ∀ n, (start n).Fits) (hload : loadRcConfigs files yamlPath start = .ok rcChannels) (n : Fin 18) :
    (rcChannels n).Fits := by
  obtain ⟨pairs, -, hok⟩ | ⟨-, message, hexits⟩ := (rcParams_loads start).loadFile_cases files yamlPath
  · obtain rfl : statedRc start pairs = rcChannels := Except.ok.inj (hok.symm.trans hload)
    obtain ⟨hmin, hmid, hmax⟩ := hstart n
    exact ⟨getD_atoi_fits hmin _, getD_atoi_fits hmid _, getD_atoi_fits hmax _⟩
  · exact absurd (hexits.symm.trans hload) nofun

/-! ### The serial port -/

/-- The baud rate is an `int`, and the data bits are a number of them that a port can have. -/
structure SerialCfg.Fits (cfg : SerialCfg) : Prop where
  baudrate : -2 ^ 31 ≤ cfg.baudrate ∧ cfg.baudrate < 2 ^ 31
  dataBits : 5 ≤ cfg.dataBits ∧ cfg.dataBits ≤ 8

def SerialStopBits.text : SerialStopBits → String
  | .one => "1"
  | .oneHalf => "1.5"
  | .two => "2"

/-- A configuration as the entries of a file. -/
def serialPairs (cfg : SerialCfg) : List (String × String) :=
  cfg.port.toList.map ("port", ·) ++
    [("baudrate", toString cfg.baudrate), ("parity", cfg.parity.letter), ("data-bits", toString cfg.dataBits),
      ("stop-bits", cfg.stopBits.text)]

theorem serialPairs_nodup (cfg : SerialCfg) : ((serialPairs cfg).map (·.1)).Nodup := by
  cases hport : cfg.port <;> simp [serialPairs, hport]

theorem parityOfText_letter (parity : SerialParity) : parityOfText parity.letter = some parity := by
  cases parity <;> decide

theorem stopBitsOfText_text (stopBits : SerialStopBits) : stopBitsOfText stopBits.text = some stopBits := by
  cases stopBits <;> decide

theorem loadSerialConfigs_eq {events : List YamlEvent} {pairs : List (String × String)}
    (hpairs : statedPairs events = some pairs) (hkeys : ∀ pair ∈ pairs, pair.1 ∈ serialKeys) (start : SerialCfg) :
    loadSerialConfigs events start = checkParams (loaded start pairs) := by
  rw [loadSerialConfigs, readParams_eq, hpairs, Option.bind_some, foldlM_readParam, if_pos hkeys, Option.bind_some]

theorem loaded_serialPairs {cfg : SerialCfg} (hfits : cfg.Fits) {pairs : List (String × String)}
    (hpairs : pairs.Perm (serialPairs cfg)) (start : SerialCfg) :
    loaded start pairs =
      { serialCfg :=
          { start with port := cfg.port.or start.port, baudrate := cfg.baudrate, dataBits := cfg.dataBits }
        parity := cfg.parity.letter
        stopBits := cfg.stopBits.text } := by
  have hlast : ∀ key value, (key, value) ∈ serialPairs cfg → lastValue key pairs = some value := by
    intro key value hmem
    rw [lastValue_eq_some_iff ((hpairs.map _).nodup_iff.mpr (serialPairs_nodup cfg)), hpairs.mem_iff]
    exact hmem
  have hport : lastValue "port" pairs = cfg.port := by
    apply Option.ext
    intro value
    rw [lastValue_eq_some_iff ((hpairs.map _).nodup_iff.mpr (serialPairs_nodup cfg)), hpairs.mem_iff]
    simp [serialPairs]
  have hbaudrate := hlast "baudrate" (toString cfg.baudrate) (by simp [serialPairs])
  have hparity := hlast "parity" cfg.parity.letter (by simp [serialPairs])
  have hdataBits := hlast "data-bits" (toString cfg.dataBits) (by simp [serialPairs])
  have hstopBits := hlast "stop-bits" cfg.stopBits.text (by simp [serialPairs])
  obtain ⟨⟨hmin, hmax⟩, hlow, hhigh⟩ := hfits
  simp only [loaded, hport, hbaudrate, hparity, hdataBits, hstopBits, Option.map_some, Option.getD_some,
    atoi_toString hmin hmax, atoi_toString (by omega : -2 ^ 31 ≤ cfg.dataBits) (by omega)]

theorem loadSerialConfigs_serialPairs {cfg : SerialCfg} (hfits : cfg.Fits) {pairs : List (String × String)}
    (hpairs : pairs.Perm (serialPairs cfg)) (start : SerialCfg) :
    loadSerialConfigs (mappingEvents (flatEntries pairs)) start = some { cfg with port := cfg.port.or start.port } := by
  have hkeys : ∀ pair ∈ pairs, pair.1 ∈ serialKeys := by
    intro pair hpair
    have hmem := hpairs.mem_iff.mp hpair
    simp only [serialPairs, List.mem_append, List.mem_map, List.mem_cons, List.not_mem_nil, or_false] at hmem
    rcases hmem with ⟨port, -, rfl⟩ | rfl | rfl | rfl | rfl
    all_goals simp [serialKeys]
  rw [loadSerialConfigs_eq (statedPairs_flat pairs) hkeys, loaded_serialPairs hfits hpairs, checkParams_eq_some]
  refine ⟨cfg.parity, parityOfText_letter cfg.parity, hfits.dataBits, ?_⟩
  rw [stopBitsOfText_text, Option.getD_some]

theorem fits_of_loadSerialConfigs {events : List YamlEvent} {start cfg : SerialCfg}
    (hstart : -2 ^ 31 ≤ start.baudrate ∧ start.baudrate < 2 ^ 31) (hload : loadSerialConfigs events start = some cfg) :
    cfg.Fits := by
  obtain ⟨load, hread, hcheck⟩ := Option.bind_eq_some_iff.mp hload
  obtain ⟨parity, -, hdataBits, rfl⟩ := checkParams_eq_some.mp hcheck
  rw [readParams_eq] at hread
  obtain ⟨pairs, -, hfold⟩ := Option.bind_eq_some_iff.mp hread
  rw [foldlM_readParam] at hfold
  split at hfold
  · obtain rfl := Option.some.inj hfold
    exact ⟨getD_atoi_fits hstart _, hdataBits⟩
  · cases hfold

/-- The files can keep exactly the configurations that the loaders return. Written into a file in any order, such a
configuration is loaded again, whatever was loaded before, but that a serial configuration without a port leaves the
port of before; and what any file is loaded as can be written so. -/
theorem configurations_kept :
    (∀ (rcChannels : Fin 18 → ConfigRc) (files : YamlFiles) (yamlPath : String) (pairs : List (String × String)),
      (∀ n, (rcChannels n).Fits) → pairs.Perm (rcPairs rcChannels) →
      files yamlPath = some (mappingEvents (flatEntries pairs)) →
        ∀ start, loadRcConfigs files yamlPath start = .ok rcChannels) ∧
    (∀ (files : YamlFiles) (yamlPath : String) (start rcChannels : Fin 18 → ConfigRc), (∀ n, (start n).Fits) →
      loadRcConfigs files yamlPath start = .ok rcChannels → ∀ n, (rcChannels n).Fits) ∧
    (∀ (cfg : SerialCfg) (pairs : List (String × String)), cfg.Fits → pairs.Perm (serialPairs cfg) →
      ∀ start, loadSerialConfigs (mappingEvents (flatEntries pairs)) start =
        some { cfg with port := cfg.port.or start.port }) ∧
    ∀ (events : List YamlEvent) (start cfg : SerialCfg), -2 ^ 31 ≤ start.baudrate ∧ start.baudrate < 2 ^ 31 →
      loadSerialConfigs events start = some cfg → cfg.Fits := by
  refine ⟨?_, ?_, ?_, ?_⟩
  · intro rcChannels files yamlPath pairs hfits hpairs hfile start
    exact loadRcConfigs_rcPairs hfits hpairs hfile start
  · intro files yamlPath start rcChannels hstart hload n
    exact fits_of_loadRcConfigs hstart hload n
  · intro cfg pairs hfits hpairs start
    exact loadSerialConfigs_serialPairs hfits hpairs start
  · intro events start cfg hstart hload
    exact fits_of_loadSerialConfigs hstart hload

end MissionServer
