import Mathlib.Data.List.Chain
import MissionServer.Proof.RcControl

/-!
# The switches of the remote control

Channels 5, 13 and 14 are meant to act once for every change of their value. The static that remembers
the last value also says, by the value 0, that there is none yet: a change away from 0 is taken for a first
value and lost. A switch acts on exactly its changes as long as it never leaves the value 0.
-/

namespace MissionServer

/-- The channels that act on a change. -/
inductive RcSwitch
  | buttonA
  | snapshot
  | record
  deriving DecidableEq, Repr

namespace RcSwitch

def value : RcSwitch → RcChannels → UInt16
  | buttonA, rc => rc.chan5Raw
  | snapshot, rc => rc.chan13Raw
  | record, rc => rc.chan14Raw

def action : RcSwitch → RcAction
  | buttonA => .recentre
  | snapshot => .saveImage
  | record => .changeRecordState

def last : RcSwitch → RcStatics → UInt16
  | buttonA, s => s.buttonALast
  | snapshot, s => s.buttonSnapshotLast
  | record, s => s.recordLast

theorem last_rcHandle (switch : RcSwitch) (rc : RcChannels) (table : RcTable) (s : RcStatics) :
    switch.last (rcHandle rc table s).1 = switch.value rc := by
  rw [rcHandle_eq]
  cases switch <;> rfl

theorem count_zoom (switch : RcSwitch) (rc : RcChannels) (table : RcTable) (s : RcStatics) :
    (RcPart.zoom rc table s).2.count switch.action = 0 := by
  rw [RcPart.zoom]
  split_ifs <;> cases switch <;> simp [action]

theorem count_rcHandle (switch : RcSwitch) (rc : RcChannels) (table : RcTable) (s : RcStatics) :
    (rcHandle rc table s).2.count switch.action = if rcChanged (switch.last s) (switch.value rc) then 1 else 0 := by
  rw [rcHandle_eq]
  simp only [List.count_append, count_zoom]
  generalize hbutton : rcChanged s.buttonALast rc.chan5Raw = button
  generalize hsnapshot : rcChanged s.buttonSnapshotLast rc.chan13Raw = snapshot
  generalize hrecord : rcChanged s.recordLast rc.chan14Raw = record
  cases switch
  case buttonA => cases button <;> cases snapshot <;> cases record <;> simp [action, last, value, hbutton]
  case snapshot => cases button <;> cases snapshot <;> cases record <;> simp [action, last, value, hsnapshot]
  case record => cases button <;> cases snapshot <;> cases record <;> simp [action, last, value, hrecord]

end RcSwitch

/-- How often a switch should act on each value: once on every value that differs from the one before it. -/
def expectedActions (previous : Option UInt16) : List UInt16 → List Nat
  | [] => []
  | value :: values => (if previous.all (· = value) then 0 else 1) :: expectedActions (some value) values

/-- The switch never leaves the value 0. -/
def StaysZero : List UInt16 → Prop := List.IsChain fun previous next => previous = 0 → next = 0

instance : DecidablePred StaysZero := fun values => inferInstanceAs (Decidable (List.IsChain _ values))

theorem rcChanged_exact_iff (last value : UInt16) :
    (if rcChanged last value then 1 else 0) = (if last = value then 0 else 1) ↔ (last = 0 → value = 0) := by
  by_cases hlast : last = 0
  · subst hlast
    by_cases hvalue : value = 0
    · simp [rcChanged, hvalue]
    · simp [rcChanged, hvalue, Ne.symm hvalue]
  · by_cases hsame : last = value
    · subst hsame
      simp [rcChanged]
    · simp [rcChanged, hlast, hsame, Ne.symm hsame]

/-- From the second message on. -/
theorem counts_eq_iff (switch : RcSwitch) (table : RcTable) (s : RcStatics) (rcs : List RcChannels) :
    (Transducer.outputs (fun s rc => rcHandle rc table s) s rcs).map (·.count switch.action) =
        expectedActions (some (switch.last s)) (rcs.map switch.value) ↔
      StaysZero (switch.last s :: rcs.map switch.value) := by
  induction rcs generalizing s with
  | nil => simp [expectedActions, StaysZero]
  | cons rc rcs ih =>
      have hrest := ih (rcHandle rc table s).1
      rw [switch.last_rcHandle rc table s] at hrest
      rw [Transducer.outputs_cons, List.map_cons, List.map_cons, expectedActions, List.cons_eq_cons, hrest,
        switch.count_rcHandle rc table s, StaysZero, List.isChain_cons_cons, ← rcChanged_exact_iff]
      simp only [Option.all_some, decide_eq_true_eq]

/-- A switch acts once on exactly its changes, in every run whose messages never change it away from 0, and
in no other run. The handler performs the actions. -/
theorem switch_fires_iff (devs : CameraDevs) (rcChannels : RcTable) (switch : RcSwitch) (events : List MavEvent) :
    let m : Mav := { devs, rcChannels }
    ((m.rcTrace events).map (·.count switch.action) =
        expectedActions none ((rcMessages events).map switch.value) ↔
      StaysZero ((rcMessages events).map switch.value)) ∧
    m.rcOutputs events = m.performTrace events (m.rcTrace events) := by
  intro m
  refine ⟨?_, m.rcOutputs_eq events⟩
  rw [Mav.rcTrace_eq]
  cases rcMessages events with
  | nil => simp [expectedActions, StaysZero]
  | cons rc rcs =>
      have hzero : switch.last m.rcStatics = 0 := by cases switch <;> rfl
      have hrest := counts_eq_iff switch m.rcChannels (rcHandle rc m.rcChannels m.rcStatics).1 rcs
      rw [switch.last_rcHandle rc m.rcChannels m.rcStatics] at hrest
      rw [Transducer.outputs_cons, List.map_cons, List.map_cons, expectedActions, List.cons_eq_cons, hrest,
        switch.count_rcHandle rc m.rcChannels m.rcStatics, hzero]
      simp [rcChanged]

/-- A record switch that rests at 0 is moved and moved back: the first change is lost. -/
theorem change_from_zero_is_lost :
    let m : Mav := { devs := fun _ => {}, rcChannels := fun _ => {} }
    let env : GstEnv := ⟨⟨126, 0, 1, 12, 0, 0⟩, 0⟩
    let events : List MavEvent := [.rcChannels env ⟨1500, 1500, 1000, 1500, 1000, 0⟩,
      .rcChannels env ⟨1500, 1500, 1000, 1500, 1000, 2000⟩, .rcChannels env ⟨1500, 1500, 1000, 1500, 1000, 0⟩]
    (m.rcTrace events).map (·.count RcSwitch.record.action) = [0, 0, 1] ∧
      expectedActions none ((rcMessages events).map RcSwitch.record.value) = [0, 1, 1] := by
  decide +kernel

end MissionServer
