import Mathlib.Data.List.Nodup
import MissionServer.Config.RcFile
import MissionServer.Proof.LoadParams

/-!
# What rc.yaml loads

The 72 keys are pairwise different, and each is read into the field of its channel that it names. So the file
is read like any other: what a field has in the end is the last value that the file gives to its key.
-/

namespace MissionServer

/-! ### Keys -/

/-- The fields of a channel. -/
inductive RcField
  | min
  | mid
  | max
  | reverse
  deriving DecidableEq, Repr

def RcField.all : List RcField := [.min, .mid, .max, .reverse]

theorem RcField.mem_all (field : RcField) : field ∈ RcField.all := by
  cases field <;> decide

def RcField.suffix : RcField → String
  | .min => "_min"
  | .mid => "_mid"
  | .max => "_max"
  | .reverse => "_reverse"

def rcKey (n : Fin 18) (field : RcField) : String := "ch" ++ toString (n.val + 1) ++ field.suffix

/-- The values that the key of a field takes. -/
def RcField.Takes (field : RcField) (value : String) : Prop := field = .reverse → value = "true" ∨ value = "false"

/-- A field with the value that a text stands for. -/
def ConfigRc.set (config : ConfigRc) (value : String) : RcField → ConfigRc
  | .min => { config with min := atoi value }
  | .mid => { config with mid := atoi value }
  | .max => { config with max := atoi value }
  | .reverse => { config with reverse := value = "true" }

def rcFields : List (Fin 18 × RcField) := (List.finRange 18).flatMap fun n => RcField.all.map (n, ·)

theorem mem_rcFields (n : Fin 18) (field : RcField) : (n, field) ∈ rcFields := by
  rw [rcFields, List.mem_flatMap]
  exact ⟨n, List.mem_finRange n, List.mem_map_of_mem field.mem_all⟩

theorem rcParams_keys : rcParams.map (·.key) = rcFields.map fun entry => rcKey entry.1 entry.2 := by
  rw [rcParams, rcFields, List.map_flatMap, List.map_flatMap]
  rfl

theorem rcKeys_nodup : (rcFields.map fun entry => rcKey entry.1 entry.2).Nodup := by decide +kernel

theorem rcKey_inj {n n' : Fin 18} {field field' : RcField} (h : rcKey n field = rcKey n' field') :
    n = n' ∧ field = field' := by
  have hentry := List.inj_on_of_nodup_map rcKeys_nodup (mem_rcFields n field) (mem_rcFields n' field') h
  exact Prod.mk.inj hentry

/-- The `READ_PARAM` of a field. -/
def rcParam (n : Fin 18) (field : RcField) : Param (Fin 18 → ConfigRc) :=
  match field with
  | .min => readInt (rcKey n .min) fun value => updateRc n ({ · with min := value })
  | .mid => readInt (rcKey n .mid) fun value => updateRc n ({ · with mid := value })
  | .max => readInt (rcKey n .max) fun value => updateRc n ({ · with max := value })
  | .reverse => readBool (rcKey n .reverse) fun value => updateRc n ({ · with reverse := value })

theorem readRcConfig_eq (n : Fin 18) : readRcConfig n = RcField.all.map (rcParam n) := rfl

theorem rcParam_key (n : Fin 18) (field : RcField) : (rcParam n field).key = rcKey n field := by
  cases field <;> rfl

theorem mem_rcParams (param : Param (Fin 18 → ConfigRc)) : param ∈ rcParams ↔ ∃ n field, rcParam n field = param := by
  simp only [rcParams, readRcConfig_eq, List.mem_flatMap, List.mem_map, List.mem_finRange, RcField.mem_all, true_and]

theorem rcParam_read {n : Fin 18} {field : RcField} {value : String} (h : field.Takes value)
    (rcChannels : Fin 18 → ConfigRc) :
    (rcParam n field).read value rcChannels = .ok (updateRc n (·.set value field) rcChannels) := by
  cases field with
  | min => rfl
  | mid => rfl
  | max => rfl
  | reverse =>
      obtain rfl | rfl := h rfl
      · rfl
      · rfl

theorem rcParam_read_exits {n : Fin 18} {field : RcField} {value : String} (h : ¬ field.Takes value)
    (rcChannels : Fin 18 → ConfigRc) : ((rcParam n field).read value rcChannels).Exits := by
  cases field with
  | min => exact absurd nofun h
  | mid => exact absurd nofun h
  | max => exact absurd nofun h
  | reverse =>
      have hvalue : ¬ (value = "true" ∨ value = "false") := fun hvalue => h (fun _ => hvalue)
      obtain ⟨htrue, hfalse⟩ := not_or.mp hvalue
      exact ⟨"Illegal boolean value", by simp [rcParam, readBool, htrue, hfalse]⟩

theorem applyPair_rcKey (n : Fin 18) (field : RcField) (value : String) (rcChannels : Fin 18 → ConfigRc) :
    applyPair rcParams rcChannels (rcKey n field, value) = (rcParam n field).read value rcChannels := by
  have hnodup : (rcParams.map (·.key)).Nodup := by
    rw [rcParams_keys]
    exact rcKeys_nodup
  have hfind := find_of_mem hnodup ((mem_rcParams _).mpr ⟨n, field, rfl⟩)
  rw [rcParam_key] at hfind
  rw [applyPair, hfind]

/-! ### What the file states -/

/-- A key of a field, with a value that it takes. -/
def LegalRcPair (pair : String × String) : Prop := ∃ n field, pair.1 = rcKey n field ∧ RcField.Takes field pair.2

/-- The table that pairs leave of a table: each field has the last value that is given to its key. -/
def statedRc (rcChannels : Fin 18 → ConfigRc) (pairs : List (String × String)) : Fin 18 → ConfigRc := fun n =>
  { min := ((lastValue (rcKey n .min) pairs).map atoi).getD (rcChannels n).min
    mid := ((lastValue (rcKey n .mid) pairs).map atoi).getD (rcChannels n).mid
    max := ((lastValue (rcKey n .max) pairs).map atoi).getD (rcChannels n).max
    reverse :=
      ((lastValue (rcKey n .reverse) pairs).map fun text => decide (text = "true")).getD (rcChannels n).reverse }

theorem lastValue_rcKey (pairs : List (String × String)) (n n' : Fin 18) (field field' : RcField) (value : String) :
    lastValue (rcKey n field) (pairs ++ [(rcKey n' field', value)]) =
      if n = n' ∧ field = field' then some value else lastValue (rcKey n field) pairs := by
  rw [lastValue_concat]
  refine if_congr ⟨rcKey_inj, fun hboth => ?_⟩ rfl rfl
  rw [hboth.1, hboth.2]

theorem statedRc_concat (rcChannels : Fin 18 → ConfigRc) (pairs : List (String × String)) (n : Fin 18)
    (field : RcField) (value : String) :
    statedRc rcChannels (pairs ++ [(rcKey n field, value)]) =
      updateRc n (·.set value field) (statedRc rcChannels pairs) := by
  funext n'
  simp only [statedRc, updateRc, lastValue_rcKey]
  by_cases hn : n' = n
  · rw [hn, Function.update_self]
    cases field <;> simp [ConfigRc.set]
  · rw [Function.update_of_ne hn]
    simp only [hn, false_and, if_false, statedRc]

theorem rcParams_loads (rcChannels : Fin 18 → ConfigRc) : Loads rcParams LegalRcPair (statedRc rcChannels) where
  next pairs pair hlegal := by
    obtain ⟨key, value⟩ := pair
    obtain ⟨n, field, hkey, htakes⟩ := hlegal
    simp only at hkey htakes
    rw [hkey, applyPair_rcKey, rcParam_read htakes, statedRc_concat]
  exits s pair hnot := by
    obtain ⟨key, value⟩ := pair
    by_cases hkey : ∃ n field, key = rcKey n field
    · obtain ⟨n, field, hkey⟩ := hkey
      rw [hkey, applyPair_rcKey]
      exact rcParam_read_exits (fun htakes => hnot ⟨n, field, hkey, htakes⟩) s
    · have hfind : rcParams.find? (·.key = key) = none := by
        apply List.find?_eq_none.mpr
        intro param hparam heq
        obtain ⟨n, field, rfl⟩ := (mem_rcParams param).mp hparam
        exact hkey ⟨n, field, by rw [← rcParam_key, of_decide_eq_true heq]⟩
      exact ⟨_, by rw [applyPair, hfind]⟩

/-! ### Flat mappings -/

/-- A value of a mapping. Anything but a scalar begins with another event. -/
inductive YamlValue
  | scalar (text : String)
  | compound (rest : List YamlEvent)
  deriving DecidableEq, Repr

def YamlValue.events : YamlValue → List YamlEvent
  | .scalar text => [.scalar text]
  | .compound rest => .other :: rest

def entryEvents (entry : String × YamlValue) : List YamlEvent := .scalar entry.1 :: entry.2.events

/-- The stream of a document that is one mapping with scalar keys. -/
def mappingEvents (entries : List (String × YamlValue)) : List YamlEvent :=
  [.other, .other, .other] ++ entries.flatMap entryEvents ++ [.other, .other, .streamEnd]

/-- A mapping from scalars to scalars. -/
def flatEntries (pairs : List (String × String)) : List (String × YamlValue) :=
  pairs.map fun pair => (pair.1, .scalar pair.2)

theorem statedPairs_flat (pairs : List (String × String)) :
    statedPairs (mappingEvents (flatEntries pairs)) = some pairs := by
  show statedPairs ((flatEntries pairs).flatMap entryEvents ++ [.other, .other, .streamEnd]) = some pairs
  induction pairs with
  | nil => rfl
  | cons pair pairs ih =>
      show (statedPairs ((flatEntries pairs).flatMap entryEvents ++ [.other, .other, .streamEnd])).map
        (pair :: ·) = some (pair :: pairs)
      rw [ih, Option.map_some]

theorem flat_of_statedPairs {entries : List (String × YamlValue)} {pairs : List (String × String)}
    (h : statedPairs (mappingEvents entries) = some pairs) : entries = flatEntries pairs := by
  change statedPairs (entries.flatMap entryEvents ++ [.other, .other, .streamEnd]) = some pairs at h
  induction entries generalizing pairs with
  | nil =>
      cases h
      rfl
  | cons entry entries ih =>
      obtain ⟨key, value⟩ := entry
      cases value with
      | scalar text =>
          change (statedPairs (entries.flatMap entryEvents ++ [.other, .other, .streamEnd])).map ((key, text) :: ·) =
            some pairs at h
          obtain ⟨pairs', hpairs, rfl⟩ := Option.map_eq_some_iff.mp h
          rw [ih hpairs]
          rfl
      | compound rest => cases h

/-! ### Order -/

theorem lastValue_eq_some_iff {pairs : List (String × String)} (hnodup : (pairs.map (·.1)).Nodup) (key value : String) :
    lastValue key pairs = some value ↔ (key, value) ∈ pairs := by
  induction pairs using List.reverseRecOn with
  | nil => exact iff_of_false nofun List.not_mem_nil
  | append_singleton pairs pair ih =>
      rw [List.map_append, List.map_singleton, List.nodup_append] at hnodup
      obtain ⟨hfront, -, hlast⟩ := hnodup
      rw [lastValue_concat, List.mem_append, List.mem_singleton]
      by_cases hkey : key = pair.1
      · have hnew : (key, value) ∉ pairs := fun hmem =>
          hlast key (List.mem_map_of_mem hmem) pair.1 List.mem_cons_self hkey
        rw [if_pos hkey, Option.some.injEq, or_iff_right hnew, Prod.ext_iff]
        exact ⟨fun hvalue => ⟨hkey, hvalue.symm⟩, fun hboth => hboth.2.symm⟩
      · rw [if_neg hkey, ih hfront, or_iff_left (fun heq => hkey (Prod.ext_iff.mp heq).1)]

theorem lastValue_perm {pairs pairs' : List (String × String)} (hperm : pairs.Perm pairs')
    (hnodup : (pairs.map (·.1)).Nodup) (key : String) : lastValue key pairs = lastValue key pairs' := by
  have hnodup' : (pairs'.map (·.1)).Nodup := (hperm.map _).nodup_iff.mp hnodup
  apply Option.ext
  intro value
  rw [lastValue_eq_some_iff hnodup, lastValue_eq_some_iff hnodup', hperm.mem_iff]

theorem statedRc_perm (rcChannels : Fin 18 → ConfigRc) {pairs pairs' : List (String × String)}
    (hperm : pairs.Perm pairs') (hnodup : (pairs.map (·.1)).Nodup) :
    statedRc rcChannels pairs = statedRc rcChannels pairs' := by
  funext n
  simp only [statedRc, lastValue_perm hperm hnodup]

/-! ### The loader -/

/-- An entry that the loader does not take: its value is no scalar, its key is unknown, or it reverses a channel
with a text that is no boolean. -/
def IllegalRcEntry (entry : String × YamlValue) : Prop :=
  (∃ rest, entry.2 = .compound rest) ∨ (∀ n field, entry.1 ≠ rcKey n field) ∨
    ∃ n text, entry.1 = rcKey n .reverse ∧ entry.2 = .scalar text ∧ text ≠ "true" ∧ text ≠ "false"

theorem IllegalRcEntry.not_legal {key text : String} (h : IllegalRcEntry (key, .scalar text)) :
    ¬ LegalRcPair (key, text) := by
  intro hlegal
  obtain ⟨n, field, hkey, htakes⟩ := hlegal
  obtain hcompound | hunknown | hreverse := h
  · obtain ⟨rest, hvalue⟩ := hcompound
    cases hvalue
  · exact hunknown n field hkey
  · obtain ⟨n', text', hkey', hvalue, htrue, hfalse⟩ := hreverse
    cases hvalue
    have hfield : field = .reverse := (rcKey_inj (hkey.symm.trans hkey')).2
    obtain heq | heq := htakes hfield
    · exact htrue heq
    · exact hfalse heq

theorem loadRcConfigs_eq {files : YamlFiles} {yamlPath : String} {pairs : List (String × String)}
    (hfile : files yamlPath = some (mappingEvents (flatEntries pairs))) (rcChannels : Fin 18 → ConfigRc) :
    ((∀ pair ∈ pairs, LegalRcPair pair) → loadRcConfigs files yamlPath rcChannels = .ok (statedRc rcChannels pairs)) ∧
    (¬ (∀ pair ∈ pairs, LegalRcPair pair) → (loadRcConfigs files yamlPath rcChannels).Exits) := by
  have hstated : (files yamlPath).bind statedPairs = some pairs := by
    rw [hfile, Option.bind_some, statedPairs_flat]
  obtain ⟨pairs', hstates, hok⟩ | ⟨hnone, hexits⟩ := (rcParams_loads rcChannels).loadFile_cases files yamlPath
  · have hsame : pairs' = pairs := Option.some.inj (hstates.1.symm.trans hstated)
    rw [hsame] at hstates hok
    exact ⟨fun _ => hok, fun hnot => absurd hstates.2 hnot⟩
  · exact ⟨fun hlegal => absurd ⟨hstated, hlegal⟩ (hnone pairs), fun _ => hexits⟩

/-- What the loader makes of one mapping with scalar keys. Where all its entries are legal it returns, and every
field has the last value given to its key, or the one it had. The order of different keys does not matter. An
illegal entry ends the program. -/
theorem loadRcConfigs_reads {files : YamlFiles} {yamlPath : String} {entries : List (String × YamlValue)}
    (hfile : files yamlPath = some (mappingEvents entries)) (rcChannels : Fin 18 → ConfigRc) :
    (∀ pairs, entries = flatEntries pairs → (∀ pair ∈ pairs, LegalRcPair pair) →
      ∃ loaded, loadRcConfigs files yamlPath rcChannels = .ok loaded ∧
        ∀ n : Fin 18, getRcConfig? loaded (n.val + 1) = some (statedRc rcChannels pairs n)) ∧
    (∀ pairs pairs' files' yamlPath', entries = flatEntries pairs →
      files' yamlPath' = some (mappingEvents (flatEntries pairs')) → pairs.Perm pairs' → (pairs.map (·.1)).Nodup →
      ∀ loaded, loadRcConfigs files yamlPath rcChannels = .ok loaded ↔
        loadRcConfigs files' yamlPath' rcChannels = .ok loaded) ∧
    ((∃ entry ∈ entries, IllegalRcEntry entry) → (loadRcConfigs files yamlPath rcChannels).Exits) := by
  refine ⟨?_, ?_, ?_⟩
  · intro pairs hentries hlegal
    rw [hentries] at hfile
    refine ⟨_, (loadRcConfigs_eq hfile rcChannels).1 hlegal, ?_⟩
    intro n
    have hrange : 1 ≤ (n.val : Int) + 1 ∧ (n.val : Int) + 1 ≤ 18 := by
      omega
    rw [getRcConfig?_eq_some hrange, getRcConfig]
    congr
    omega
  · intro pairs pairs' files' yamlPath' hentries hfile' hperm hnodup loaded
    rw [hentries] at hfile
    obtain ⟨hok, hexits⟩ := loadRcConfigs_eq hfile rcChannels
    obtain ⟨hok', hexits'⟩ := loadRcConfigs_eq hfile' rcChannels
    have hall : (∀ pair ∈ pairs, LegalRcPair pair) ↔ ∀ pair ∈ pairs', LegalRcPair pair := by
      simp only [hperm.mem_iff]
    by_cases hlegal : ∀ pair ∈ pairs, LegalRcPair pair
    · rw [hok hlegal, hok' (hall.mp hlegal), statedRc_perm rcChannels hperm hnodup]
    · obtain ⟨message, heq⟩ := hexits hlegal
      obtain ⟨message', heq'⟩ := hexits' (fun hlegal' => hlegal (hall.mpr hlegal'))
      rw [heq, heq']
      exact iff_of_false nofun nofun
  · intro hillegal
    obtain ⟨entry, hmem, hentry⟩ := hillegal
    obtain ⟨pairs, hstates, -⟩ | ⟨-, hexits⟩ := (rcParams_loads rcChannels).loadFile_cases files yamlPath
    · have hstated : statedPairs (mappingEvents entries) = some pairs := by
        have := hstates.1
        rwa [hfile, Option.bind_some] at this
      rw [flat_of_statedPairs hstated] at hmem
      obtain ⟨pair, hpair, rfl⟩ := List.mem_map.mp hmem
      exact absurd (hstates.2 pair hpair) hentry.not_legal
    · exact hexits

/-- A value that is spelled like a key, and a key given twice. -/
def rcExample : List (String × String) :=
  [("ch1_max", "ch2_min"), ("ch18_mid", "7"), ("ch18_reverse", "true"), ("ch18_mid", "1500")]

def rcExampleFiles : YamlFiles := fun _ => some (mappingEvents (flatEntries rcExample))

theorem loadRcConfigs_reads_example :
    ∃ loaded, loadRcConfigs rcExampleFiles "configs/rc.yaml" (fun _ => {}) = .ok loaded ∧
      getRcConfig? loaded 18 = some { mid := 1500, reverse := true } := by
  have hfile : rcExampleFiles "configs/rc.yaml" = some (mappingEvents (flatEntries rcExample)) := rfl
  have hlegal : ∀ pair ∈ rcExample, LegalRcPair pair := by
    intro pair hpair
    simp only [rcExample, List.mem_cons, List.not_mem_nil, or_false] at hpair
    obtain rfl | rfl | rfl | rfl := hpair
    · exact ⟨0, .max, by decide, nofun⟩
    · exact ⟨17, .mid, by decide, nofun⟩
    · exact ⟨17, .reverse, by decide, fun _ => .inl rfl⟩
    · exact ⟨17, .mid, by decide, nofun⟩
  obtain ⟨loaded, hload, hconfig⟩ := (loadRcConfigs_reads hfile (fun _ => {})).1 rcExample rfl hlegal
  exact ⟨loaded, hload, (hconfig 17).trans (by decide +kernel)⟩

end MissionServer
