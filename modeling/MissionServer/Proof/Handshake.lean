import MissionServer.Proof.EarlyAnswers
import MissionServer.Proof.Sequence

/-!
# Frames before and after the handshake

A frame of the camera carries the system number that its sender read. It may be written before any
AUTOPILOT_VERSION has been handled, and a heartbeat also after a later one has been. When that happens is told
from the messages that come and from the order in which the two threads take their turns.
-/

namespace MissionServer

namespace Threads

/-- What a thread writes is right at that moment: as the camera only under the system number of the last
AUTOPILOT_VERSION, and before the first one only a request for it. -/
structure SoundFrame (s : Threads) (frame : MavlinkFrame) : Prop where
  sysId : frame.componentId = mavCompIdCamera → frame.sysId ≠ 0 ∧ s.handled = some frame.sysId
  before : s.handled = none → ∃ fcuSysid, frame ∈ mavlinkSendRequestAutopilotCapabilities fcuSysid

/-- A message that gets to the wire is right. -/
def SoundAt (s : Threads) (step : ThreadStep) : Prop :=
  s.ended = false → step.written = true → ∀ p, s.packed step.thread = some p → s.SoundFrame p.frame

/-- The server answers as the camera only after the first AUTOPILOT_VERSION. -/
def AnswersLate (s : Threads) (step : ThreadStep) : Prop :=
  s.ended = false → step.written = true → step.thread = .server →
    ∀ p, s.packed .server = some p → p.frame.componentId = mavCompIdCamera → s.handled ≠ none

/-- A heartbeat is written under the system number that was the last one when `mavlink_tx_thread` read it, and
still is. -/
def BeatsCurrently (s : Threads) (step : ThreadStep) : Prop :=
  s.ended = false → step.written = true → step.thread = .txThread →
    s.packed .txThread ≠ none → s.handled ≠ none ∧ s.handled = s.seen

/-- What runs keep of the threads. -/
structure Coherent (s : Threads) : Prop where
  todo : ∃ v, Follows s.handled s.todo v
  fcuSysid : s.fcuSysid = s.handled.getD 0
  handled : s.handled ≠ some 0
  server : ∀ p, s.packed .server = some p → Speaks s.handled p.frame
  txThread : ∀ p, s.packed .txThread = some p → p.frame ∈ mavlinkTxThread (s.seen.getD 0)
  txTodo : ∀ frame ∈ s.txTodo, frame ∈ mavlinkTxThread (s.seen.getD 0)

theorem coherent_start (txSeq : UInt8) {todo : List ServerAction} (h : ∃ v, Follows none todo v) :
    (start txSeq todo).Coherent where
  todo := h
  fcuSysid := rfl
  handled := (Option.some_ne_none 0).symm
  server p hp := absurd hp (Option.some_ne_none p).symm
  txThread p hp := absurd hp (Option.some_ne_none p).symm
  txTodo _ hframe := absurd hframe List.not_mem_nil

theorem Coherent.write {s : Threads} (h : s.Coherent) (thread : Thread) (p : Packed) (written : Bool) :
    (s.write thread p written).Coherent := by
  have hpacked (thread' : Thread) (q : Packed) (hq : (s.write thread p written).packed thread' = some q) :
      s.packed thread' = some q := by
    by_cases heq : thread' = thread
    · subst heq
      simp [Threads.write] at hq
    · simpa [Threads.write, Function.update_of_ne heq] using hq
  exact ⟨h.todo, h.fcuSysid, h.handled, fun q hq => h.server q (hpacked _ q hq),
    fun q hq => h.txThread q (hpacked _ q hq), h.txTodo⟩

theorem Coherent.act {s : Threads} (h : s.Coherent) (written : Bool) (hpacked : s.packed .server = none) :
    (s.act written).Coherent := by
  have hserver (v : Option UInt8) (p : Packed) (hp : s.packed .server = some p) : Speaks v p.frame := by
    rw [hpacked] at hp
    cases hp
  obtain ⟨v, hfollows⟩ := h.todo
  rw [Threads.act]
  split
  · exact h
  · rename_i todo htodo
    rw [htodo] at hfollows
    obtain _ | hrest := hfollows
    exact ⟨⟨v, hrest⟩, h.fcuSysid, h.handled, h.server, h.txThread, h.txTodo⟩
  · rename_i id todo htodo
    rw [htodo] at hfollows
    cases hfollows with
    | sysid hid hrest =>
        exact ⟨⟨v, hrest⟩, rfl, fun heq => hid (Option.some.inj heq), hserver _, h.txThread, h.txTodo⟩
  · rename_i frame todo htodo
    rw [htodo] at hfollows
    cases hfollows with
    | send hframe hrest =>
        refine ⟨⟨v, hrest⟩, h.fcuSysid, h.handled, fun p hp => ?_, fun p hp => ?_, h.txTodo⟩
        · obtain rfl : (⟨s.txSeq, s.packedCount, frame⟩ : Packed) = p := by simpa [pack] using hp
          exact hframe
        · exact h.txThread p (by simpa [pack] using hp)
  · rename_i data todo htodo
    rw [htodo] at hfollows
    cases hfollows with
    | forward hrest => exact ⟨⟨v, hrest⟩, h.fcuSysid, h.handled, h.server, h.txThread, h.txTodo⟩
  · rename_i todo htodo
    rw [htodo] at hfollows
    cases hfollows with
    | ends hrest => exact ⟨⟨v, hrest⟩, h.fcuSysid, h.handled, h.server, h.txThread, h.txTodo⟩

theorem Coherent.txThread_step {s : Threads} (h : s.Coherent) (hpacked : s.packed .txThread = none) :
    s.txThread.Coherent := by
  rw [Threads.txThread]
  split
  · split
    · refine ⟨h.todo, h.fcuSysid, h.handled, h.server, fun p hp => ?_, fun frame hframe => ?_⟩
      · rw [show s.packed .txThread = some p from hp] at hpacked
        cases hpacked
      · rwa [h.fcuSysid] at hframe
    · rename_i frame frames htodo
      obtain ⟨hframe, hframes⟩ := List.forall_mem_cons.mp (htodo ▸ h.txTodo)
      refine ⟨h.todo, h.fcuSysid, h.handled, fun p hp => h.server p (by simpa [pack] using hp), fun p hp => ?_, hframes⟩
      obtain rfl : (⟨s.txSeq, s.packedCount, frame⟩ : Packed) = p := by simpa [pack] using hp
      exact hframe
  · exact ⟨h.todo, h.fcuSysid, h.handled, h.server, h.txThread, h.txTodo⟩

theorem Coherent.next {s : Threads} (h : s.Coherent) (step : ThreadStep) : (s.next step).Coherent := by
  obtain ⟨thread, written⟩ := step
  unfold Threads.next
  split
  · exact h
  · split
    · exact h.write _ _ _
    · rename_i hpacked
      cases thread with
      | server => exact h.act written hpacked
      | txThread => exact h.txThread_step hpacked

/-- A frame of the server's thread is right once the first AUTOPILOT_VERSION has been handled, and a request is
before. -/
theorem Coherent.soundFrame_server_iff {s : Threads} (h : s.Coherent) {p : Packed} (hp : s.packed .server = some p) :
    s.SoundFrame p.frame ↔ (p.frame.componentId = mavCompIdCamera → s.handled ≠ none) := by
  constructor
  · intro hsound hcamera hnone
    obtain ⟨-, hhandled⟩ := hsound.sysId hcamera
    rw [hnone] at hhandled
    cases hhandled
  · intro hlate
    have hspeaks := h.server p hp
    refine ⟨fun hcamera => ?_, fun hnone => ?_⟩
    · obtain ⟨id, hid⟩ := Option.ne_none_iff_exists'.mp (hlate hcamera)
      have hsysid := hspeaks.asCamera hcamera
      rw [hid, Option.getD_some] at hsysid
      exact ⟨fun hzero => h.handled (by rw [hid, ← hsysid, hzero]), by rw [hid, hsysid]⟩
    · obtain hcamera | hrequest := hspeaks.before hnone
      · exact absurd hnone (hlate hcamera)
      · exact ⟨0, hrequest⟩

theorem Coherent.soundFrame_txThread_iff {s : Threads} (h : s.Coherent) {p : Packed}
    (hp : s.packed .txThread = some p) : s.SoundFrame p.frame ↔ s.handled ≠ none ∧ s.handled = s.seen := by
  obtain ⟨hcamera, hsysid⟩ : p.frame.componentId = mavCompIdCamera ∧ p.frame.sysId = s.seen.getD 0 := by
    rw [List.mem_singleton.mp (h.txThread p hp)]
    exact ⟨rfl, rfl⟩
  constructor
  · intro hsound
    obtain ⟨hnonzero, hhandled⟩ := hsound.sysId hcamera
    rw [hsysid] at hnonzero hhandled
    rw [hhandled]
    cases hseen : s.seen with
    | none => exact absurd (by rw [hseen]; rfl) hnonzero
    | some id => exact ⟨Option.some_ne_none _, rfl⟩
  · intro hboth
    obtain ⟨hsome, hsame⟩ := hboth
    obtain ⟨id, hid⟩ := Option.ne_none_iff_exists'.mp hsome
    rw [← hsame, hid, Option.getD_some] at hsysid
    exact ⟨fun _ => ⟨fun hzero => h.handled (by rw [hid, ← hsysid, hzero]), by rw [hid, hsysid]⟩,
      fun hnone => absurd hnone hsome⟩

theorem Coherent.soundAt_iff {s : Threads} (h : s.Coherent) (step : ThreadStep) :
    s.SoundAt step ↔ s.AnswersLate step ∧ s.BeatsCurrently step := by
  obtain ⟨thread, written⟩ := step
  cases thread with
  | server =>
      have hlate : s.SoundAt ⟨.server, written⟩ ↔ s.AnswersLate ⟨.server, written⟩ := by
        constructor
        · exact fun hsound hlive hwritten _ p hp => (h.soundFrame_server_iff hp).mp (hsound hlive hwritten p hp)
        · exact fun hlate hlive hwritten p hp => (h.soundFrame_server_iff hp).mpr (hlate hlive hwritten rfl p hp)
      exact hlate.trans (and_iff_left fun _ _ hthread => by cases hthread).symm
  | txThread =>
      have hcurrent : s.SoundAt ⟨.txThread, written⟩ ↔ s.BeatsCurrently ⟨.txThread, written⟩ := by
        constructor
        · intro hsound hlive hwritten _ hpacked
          obtain ⟨p, hp⟩ := Option.ne_none_iff_exists'.mp hpacked
          exact (h.soundFrame_txThread_iff hp).mp (hsound hlive hwritten p hp)
        · intro hcurrent hlive hwritten p hp
          have hpacked : s.packed .txThread ≠ none := by
            rw [show s.packed .txThread = some p from hp]
            exact Option.some_ne_none p
          exact (h.soundFrame_txThread_iff hp).mpr (hcurrent hlive hwritten rfl hpacked)
      exact hcurrent.trans (and_iff_right fun _ _ hthread => by cases hthread).symm

/-- A frame of the camera that is about to be written as system 0. -/
theorem not_soundAt_of_zero {s : Threads} {thread : Thread} (hlive : s.ended = false)
    (hzero : (s.packed thread).any fun p => p.frame.componentId = mavCompIdCamera ∧ p.frame.sysId = 0) :
    ¬ s.SoundAt ⟨thread, true⟩ := by
  obtain ⟨p, hp, hboth⟩ := (Option.any_eq_true _ _).mp hzero
  obtain ⟨hcamera, hsysid⟩ := of_decide_eq_true hboth
  intro hsound
  exact ((hsound hlive rfl p hp).sysId hcamera).1 hsysid

end Threads

/-! ### The server's turns -/

/-- A message takes two turns of its thread: it is packed, and then written. -/
def ServerAction.turns : ServerAction → Nat
  | .send _ => 2
  | _ => 1

/-- A message as the camera gets to the wire before any system number has been assigned. `results` are what
`serial_write` returns in the turns of the server's thread, as far as it writes in them. -/
def EarlyAnswer (todo : List ServerAction) (results : List Bool) : Prop :=
  ∃ before frame after, todo = before ++ .send frame :: after ∧ (∀ id, .assign (.sysid id) ∉ before) ∧
    .ends ∉ before ∧ frame.componentId = mavCompIdCamera ∧
    results[(before.map ServerAction.turns).sum + 1]? = some true

def serverResults (schedule : List ThreadStep) : List Bool :=
  (schedule.filter (·.thread = .server)).map (·.written)

theorem not_earlyAnswer_nil (results : List Bool) : ¬ EarlyAnswer [] results := by
  intro h
  obtain ⟨before, frame, after, hsplit, -⟩ := h
  simp at hsplit

theorem comes_eq_answer_iff (action : ServerAction) :
    action.comes = some .answer ↔ ∃ frame, action = .send frame ∧ frame.componentId = mavCompIdCamera := by
  rcases action with ⟨_ | _⟩ | frame | _ | _
  case send => simp [ServerAction.comes]
  all_goals simp [ServerAction.comes]

theorem comes_ne_version_iff (action : ServerAction) :
    action.comes ≠ some .version ↔ ∀ id, action ≠ .assign (.sysid id) := by
  rcases action with ⟨_ | _⟩ | frame | _ | _
  case send =>
    rw [ServerAction.comes]
    split <;> simp
  all_goals simp [ServerAction.comes]

theorem EarlyAnswer.comes {todo : List ServerAction} {results : List Bool} (h : EarlyAnswer todo results) :
    todo.findSome? ServerAction.comes = some .answer := by
  obtain ⟨before, frame, after, hsplit, hunassigned, -, hcamera, -⟩ := h
  refine (findSome?_answer_iff _ _).mpr ⟨before, .send frame, after, hsplit, fun action haction => ?_, ?_⟩
  · exact (comes_ne_version_iff action).mpr fun id hid => hunassigned id (hid ▸ haction)
  · exact (comes_eq_answer_iff _).mpr ⟨frame, rfl, hcamera⟩

/-- An answer that comes first is early as soon as it is written in its turn. -/
theorem exists_earlyAnswer {todo : List ServerAction} (hlive : .ends ∉ todo)
    (h : todo.findSome? ServerAction.comes = some .answer) :
    ∃ turn : Nat, ∀ results, results[turn]? = some true → EarlyAnswer todo results := by
  obtain ⟨before, action, after, rfl, hbefore, haction⟩ := (findSome?_answer_iff _ _).mp h
  obtain ⟨frame, rfl, hcamera⟩ := (comes_eq_answer_iff action).mp haction
  refine ⟨_, fun results hwritten => ⟨before, frame, after, rfl, fun id hmem => ?_, fun hmem => ?_, hcamera, hwritten⟩⟩
  · exact (comes_ne_version_iff _).mp (hbefore _ hmem) id rfl
  · exact hlive (List.mem_append_left _ hmem)

theorem earlyAnswer_cons_iff (action : ServerAction) (todo : List ServerAction) (results : List Bool) :
    EarlyAnswer (action :: todo) results ↔
      (∃ frame, action = .send frame ∧ frame.componentId = mavCompIdCamera ∧ results[1]? = some true) ∨
      ((∀ id, action ≠ .assign (.sysid id)) ∧ action ≠ .ends ∧ EarlyAnswer todo (results.drop action.turns)) := by
  constructor
  · intro h
    obtain ⟨before, frame, after, hsplit, hunassigned, hlive, hcamera, hwritten⟩ := h
    cases before with
    | nil =>
        obtain ⟨rfl, rfl⟩ := List.cons.inj hsplit
        exact .inl ⟨frame, rfl, hcamera, hwritten⟩
    | cons action' before =>
        obtain ⟨rfl, rfl⟩ := List.cons.inj hsplit
        refine .inr ⟨fun id hid => ?_, fun hends => ?_, before, frame, after, rfl,
          fun id hmem => hunassigned id (List.mem_cons_of_mem _ hmem),
          fun hmem => hlive (List.mem_cons_of_mem _ hmem), hcamera, ?_⟩
        · exact hunassigned id (hid ▸ List.mem_cons_self)
        · exact hlive (hends ▸ List.mem_cons_self)
        · rwa [List.getElem?_drop, ← Nat.add_assoc]
  · intro h
    obtain ⟨frame, rfl, hcamera, hwritten⟩ | ⟨haction, hends, before, frame, after, rfl, hunassigned, hlive, hcamera,
      hwritten⟩ := h
    · exact ⟨[], frame, todo, rfl, fun _ => List.not_mem_nil, List.not_mem_nil, hcamera, hwritten⟩
    · refine ⟨action :: before, frame, after, rfl, fun id hmem => ?_, fun hmem => ?_, hcamera, ?_⟩
      · obtain heq | hmem := List.mem_cons.mp hmem
        · exact haction id heq.symm
        · exact hunassigned id hmem
      · obtain heq | hmem := List.mem_cons.mp hmem
        · exact hends heq.symm
        · exact hlive hmem
      · rwa [List.getElem?_drop, ← Nat.add_assoc] at hwritten

namespace Threads

/-- What is left of an early answer: it may be packed already. -/
def EarlyFrom (s : Threads) (results : List Bool) : Prop :=
  match s.packed .server with
  | some p => (p.frame.componentId = mavCompIdCamera ∧ results[0]? = some true) ∨ EarlyAnswer s.todo (results.drop 1)
  | none => EarlyAnswer s.todo results

theorem not_answersLate_iff {s : Threads} (hlive : s.ended = false) (hnone : s.handled = none) {p : Packed}
    (hpacked : s.packed .server = some p) {written : Bool} :
    ¬ s.AnswersLate ⟨.server, written⟩ ↔ p.frame.componentId = mavCompIdCamera ∧ written = true := by
  refine ⟨fun hnot => ⟨?_, ?_⟩, fun hboth hlate => hlate hlive hboth.2 rfl p hpacked hboth.1 hnone⟩
  · by_contra hcamera
    apply hnot
    intro _ _ _ q hq hq'
    rw [Option.some.inj (hpacked.symm.trans hq)] at hcamera
    exact absurd hq' hcamera
  · by_contra hwritten
    exact hnot fun _ htrue => absurd htrue hwritten

/-- A turn of the server's thread: it writes an early answer, or leaves one for later. -/
theorem earlyFrom_cons_iff {s : Threads} (hlive : s.ended = false) (hnone : s.handled = none) (written : Bool)
    (results : List Bool) :
    s.EarlyFrom (written :: results) ↔ ¬ s.AnswersLate ⟨.server, written⟩ ∨
      ((s.next ⟨.server, written⟩).ended = false ∧ (s.next ⟨.server, written⟩).handled = none ∧
        (s.next ⟨.server, written⟩).EarlyFrom results) := by
  have hnext : s.next ⟨.server, written⟩ =
      match s.packed .server with
      | some p => s.write .server p written
      | none => s.act written := by
    rw [next]
    exact if_neg (ne_true_of_eq_false hlive)
  rw [EarlyFrom]
  cases hpacked : s.packed .server with
  | some p =>
      rw [hpacked] at hnext
      have hearly : (s.next ⟨.server, written⟩).EarlyFrom results ↔ EarlyAnswer s.todo results := by
        rw [hnext, EarlyFrom]
        simp [Threads.write]
      rw [hearly, not_answersLate_iff hlive hnone hpacked]
      have hended : (s.next ⟨.server, written⟩).ended = false := by rw [hnext]; exact hlive
      have hhandled : (s.next ⟨.server, written⟩).handled = none := by rw [hnext]; exact hnone
      simp [hended, hhandled]
  | none =>
      rw [hpacked] at hnext
      have hlate : s.AnswersLate ⟨.server, written⟩ := by
        intro _ _ _ p hp
        rw [hpacked] at hp
        cases hp
      rw [or_iff_right (not_not_intro hlate), hnext, act]
      dsimp only
      cases htodo : s.todo with
      | nil =>
          refine iff_of_false (not_earlyAnswer_nil _) fun hboth => ?_
          rw [EarlyFrom, hpacked, htodo] at hboth
          exact not_earlyAnswer_nil _ hboth.2.2
      | cons action todo =>
          rw [earlyAnswer_cons_iff]
          cases action with
          | assign write =>
              cases write with
              | ready => simp [EarlyFrom, hpacked, hlive, hnone, ServerAction.turns]
              | sysid id => simp
          | send frame => simp [EarlyFrom, pack, hlive, hnone, ServerAction.turns]
          | forward data => simp [EarlyFrom, hpacked, hlive, hnone, ServerAction.turns]
          | ends => simp

theorem earlyFrom_txThread (s : Threads) (written : Bool) (results : List Bool) :
    (s.next ⟨.txThread, written⟩).EarlyFrom results ↔ s.EarlyFrom results := by
  have hpacked : (s.next ⟨.txThread, written⟩).packed .server = s.packed .server :=
    s.packed_next_other (show Thread.server ≠ Thread.txThread by decide)
  rw [EarlyFrom, EarlyFrom, hpacked, s.todo_next_txThread]

theorem handled_next_txThread (s : Threads) (written : Bool) :
    (s.next ⟨.txThread, written⟩).handled = s.handled ∧ (s.next ⟨.txThread, written⟩).ended = s.ended := by
  rw [next]
  split
  · exact ⟨rfl, rfl⟩
  · split
    · exact ⟨rfl, rfl⟩
    · dsimp only [txThread]
      split
      · split <;> exact ⟨rfl, rfl⟩
      · exact ⟨rfl, rfl⟩

/-- The answers are late exactly when the server's thread gets none of the early ones to the wire in its turns. -/
theorem eachStep_answersLate_iff (schedule : List ThreadStep) (s : Threads) :
    Machine.EachStep Threads.next AnswersLate s schedule ↔
      (s.ended = false → s.handled = none → ¬ s.EarlyFrom (serverResults schedule)) := by
  induction schedule generalizing s with
  | nil =>
      refine iff_of_true Machine.eachStep_nil fun _ _ hearly => ?_
      rw [EarlyFrom] at hearly
      split at hearly
      · obtain ⟨-, hwritten⟩ | ⟨before, frame, after, -, -, -, -, hwritten⟩ := hearly
        · cases hwritten
        · cases hwritten
      · obtain ⟨before, frame, after, -, -, -, -, hwritten⟩ := hearly
        cases hwritten
  | cons step schedule ih =>
      obtain ⟨thread, written⟩ := step
      rw [Machine.eachStep_cons, ih]
      cases thread with
      | txThread =>
          obtain ⟨hhandled, hended⟩ := s.handled_next_txThread written
          have hresults : serverResults (⟨.txThread, written⟩ :: schedule) = serverResults schedule := rfl
          rw [earlyFrom_txThread, hhandled, hended, hresults]
          exact and_iff_right fun _ _ hthread => by cases hthread
      | server =>
          have hresults : serverResults (⟨.server, written⟩ :: schedule) = written :: serverResults schedule := rfl
          rw [hresults]
          by_cases hlive : s.ended = false
          case neg =>
            have hended : s.ended = true := eq_true_of_ne_false hlive
            have hsame : s.next ⟨.server, written⟩ = s := by rw [next, if_pos hended]
            rw [hsame]
            exact iff_of_true ⟨fun h => absurd h hlive, fun h => absurd h hlive⟩ fun h => absurd h hlive
          by_cases hnone : s.handled = none
          case neg =>
            have hkept : (s.next ⟨.server, written⟩).handled ≠ none := by
              rw [next, if_neg (ne_true_of_eq_false hlive)]
              split
              · exact hnone
              · dsimp only
                rw [act]
                split
                all_goals first | exact hnone | exact Option.some_ne_none _
            exact iff_of_true ⟨fun _ _ _ _ _ _ => hnone, fun _ h => absurd h hkept⟩ fun _ h => absurd h hnone
          rw [earlyFrom_cons_iff hlive hnone, not_or, not_not, not_and, not_and]
          exact ⟨fun h _ _ => h, fun h => h hlive hnone⟩

end Threads

/-! ### The order of the threads -/

/-- What the threads do to `fcu_sysid`, and when `mavlink_tx_thread` gets a heartbeat to the wire. -/
inductive HandshakeEvent
  | assigns (id : UInt8)
  | reads
  | writes
  deriving DecidableEq, Repr

/-- The system number that was assigned last. -/
def lastAssigned (events : List HandshakeEvent) : Option UInt8 :=
  (events.filterMap fun
    | .assigns id => some id
    | _ => none).getLast?

/-- A system number had been assigned when `mavlink_tx_thread` last read it, and no other is the last one since. -/
def CurrentAfter (events : List HandshakeEvent) : Prop :=
  ∃ early late id, events = early ++ .reads :: late ∧ .reads ∉ late ∧ lastAssigned early = some id ∧
    ∀ id' ∈ lastAssigned late, id' = id

def HeartbeatsCurrent (events : List HandshakeEvent) : Prop :=
  ∀ before after, events = before ++ .writes :: after → CurrentAfter before

namespace Threads

def handshakeEvent (s : Threads) (step : ThreadStep) : Option HandshakeEvent :=
  if s.ended then none
  else
    match step.thread, s.packed step.thread, s.todo with
    | .server, none, .assign (.sysid id) :: _ => some (.assigns id)
    | .txThread, none, _ => if s.txConnected && s.txTodo.isEmpty then some .reads else none
    | .txThread, some _, _ => if step.written then some .writes else none
    | _, _, _ => none

/-- The events of a schedule. -/
def handshakeEvents : Threads → List ThreadStep → List HandshakeEvent
  | _, [] => []
  | s, step :: schedule => (s.handshakeEvent step).toList ++ handshakeEvents (s.next step) schedule

/-- The events so far, and what they have left in the two variables that no code holds. -/
structure Traced (events : List HandshakeEvent) (s : Threads) : Prop where
  handled : s.handled = lastAssigned events
  seen : (.reads ∉ events ∧ s.seen = none) ∨
    ∃ early late, events = early ++ .reads :: late ∧ .reads ∉ late ∧ s.seen = lastAssigned early

end Threads

theorem lastAssigned_append (events events' : List HandshakeEvent) :
    lastAssigned (events ++ events') = (lastAssigned events').or (lastAssigned events) := by
  rw [lastAssigned, List.filterMap_append, List.getLast?_append]
  rfl

theorem lastAssigned_reads (late : List HandshakeEvent) : lastAssigned (.reads :: late) = lastAssigned late := rfl

theorem reads_split_unique {early late early' late' : List HandshakeEvent}
    (heq : early ++ .reads :: late = early' ++ .reads :: late') (hlate : .reads ∉ late) (hlate' : .reads ∉ late') :
    early = early' ∧ late = late' := by
  obtain ⟨more, rfl, hmore⟩ | ⟨more, rfl, hmore⟩ := List.append_eq_append_iff.mp heq
  · cases more with
    | nil => simpa using hmore
    | cons event more =>
        obtain ⟨-, rfl⟩ := List.cons.inj hmore
        exact absurd (List.mem_append_right more List.mem_cons_self) hlate
  · cases more with
    | nil => simpa using hmore.symm
    | cons event more =>
        obtain ⟨-, rfl⟩ := List.cons.inj hmore
        exact absurd (List.mem_append_right more List.mem_cons_self) hlate'

namespace Threads

theorem Traced.current_iff {events : List HandshakeEvent} {s : Threads} (h : s.Traced events) :
    CurrentAfter events ↔ s.handled ≠ none ∧ s.handled = s.seen := by
  obtain ⟨hnever, hseen⟩ | ⟨early, late, rfl, hlate, hseen⟩ := h.seen
  · rw [hseen]
    refine iff_of_false (fun hcurrent => ?_) fun hboth => hboth.1 hboth.2
    obtain ⟨early, late, id, rfl, -⟩ := hcurrent
    exact hnever (by simp)
  · have hhandled := h.handled
    rw [lastAssigned_append, lastAssigned_reads, ← hseen] at hhandled
    have hcurrent : CurrentAfter (early ++ .reads :: late) ↔
        ∃ id, s.seen = some id ∧ ∀ id' ∈ lastAssigned late, id' = id := by
      constructor
      · intro hcurrent
        obtain ⟨early', late', id, heq, hlate', hearly, hid⟩ := hcurrent
        obtain ⟨rfl, rfl⟩ := reads_split_unique heq hlate hlate'
        exact ⟨id, hseen.trans hearly, hid⟩
      · intro hcurrent
        obtain ⟨id, hid, hsame⟩ := hcurrent
        exact ⟨early, late, id, rfl, hlate, hseen.symm.trans hid, hsame⟩
    rw [hcurrent, hhandled]
    cases hassigned : lastAssigned late with
    | none =>
        cases s.seen with
        | none => simp
        | some id => simp
    | some id =>
        cases s.seen with
        | none => simp
        | some id' => simp

theorem handshakeEvent_spec (s : Threads) (step : ThreadStep) :
    (∃ id, s.handshakeEvent step = some (.assigns id) ∧ (s.next step).handled = some id ∧
      (s.next step).seen = s.seen) ∨
    (s.handshakeEvent step = some .reads ∧ (s.next step).handled = s.handled ∧ (s.next step).seen = s.handled) ∨
    ((s.handshakeEvent step = some .writes ∨ s.handshakeEvent step = none) ∧ (s.next step).handled = s.handled ∧
      (s.next step).seen = s.seen) := by
  obtain ⟨thread, written⟩ := step
  rw [next, handshakeEvent]
  by_cases hended : s.ended = true
  · rw [if_pos hended, if_pos hended]
    exact .inr (.inr ⟨.inr rfl, rfl, rfl⟩)
  rw [if_neg hended, if_neg hended]
  dsimp only
  cases thread with
  | server =>
      cases s.packed .server with
      | some p => exact .inr (.inr ⟨.inr rfl, rfl, rfl⟩)
      | none =>
          dsimp only
          rw [act]
          rcases s.todo with _ | ⟨⟨_ | id⟩ | frame | data | _, todo⟩
          case cons.assign.sysid => exact .inl ⟨id, rfl, rfl, rfl⟩
          all_goals exact .inr (.inr ⟨.inr rfl, rfl, rfl⟩)
  | txThread =>
      cases s.packed .txThread with
      | some p =>
          refine .inr (.inr ⟨?_, rfl, rfl⟩)
          cases written with
          | true => exact .inl rfl
          | false => exact .inr rfl
      | none =>
          dsimp only
          rw [txThread]
          cases s.txConnected with
          | false => exact .inr (.inr ⟨.inr rfl, rfl, rfl⟩)
          | true =>
              cases s.txTodo with
              | nil => exact .inr (.inl ⟨rfl, rfl, rfl⟩)
              | cons frame frames => exact .inr (.inr ⟨.inr rfl, rfl, rfl⟩)

theorem Traced.next {events : List HandshakeEvent} {s : Threads} (h : s.Traced events) (step : ThreadStep) :
    (s.next step).Traced (events ++ (s.handshakeEvent step).toList) := by
  -- what is no read goes behind the last read
  have hbehind (event : HandshakeEvent) (hevent : event ≠ .reads) :
      (.reads ∉ events ++ [event] ∧ s.seen = none) ∨
        ∃ early late, events ++ [event] = early ++ .reads :: late ∧ .reads ∉ late ∧ s.seen = lastAssigned early := by
    obtain ⟨hnever, hseen⟩ | ⟨early, late, rfl, hlate, hseen⟩ := h.seen
    · exact .inl ⟨by simp [hnever, hevent.symm], hseen⟩
    · exact .inr ⟨early, late ++ [event], by simp, by simp [hlate, hevent.symm], hseen⟩
  obtain ⟨id, hevent, hhandled, hseen⟩ | ⟨hevent, hhandled, hseen⟩ | ⟨hevent | hevent, hhandled, hseen⟩ :=
    s.handshakeEvent_spec step
  · rw [hevent, Option.toList_some]
    refine ⟨by rw [hhandled, lastAssigned_append]; rfl, ?_⟩
    rw [hseen]
    exact hbehind _ (by simp)
  · rw [hevent, Option.toList_some]
    refine ⟨by rw [hhandled, lastAssigned_append, h.handled]; rfl, .inr ⟨events, [], rfl, List.not_mem_nil, ?_⟩⟩
    rw [hseen, h.handled]
  · rw [hevent, Option.toList_some]
    refine ⟨by rw [hhandled, lastAssigned_append, h.handled]; rfl, ?_⟩
    rw [hseen]
    exact hbehind _ (by simp)
  · rw [hevent, Option.toList_none, List.append_nil]
    exact ⟨hhandled.trans h.handled, hseen ▸ h.seen⟩

theorem beatsCurrently_iff {events : List HandshakeEvent} {s : Threads} (h : s.Traced events) (step : ThreadStep) :
    s.BeatsCurrently step ↔ (s.handshakeEvent step = some .writes → CurrentAfter events) := by
  obtain ⟨thread, written⟩ := step
  rw [h.current_iff, BeatsCurrently, handshakeEvent]
  cases s.ended with
  | true => simp
  | false =>
      cases thread with
      | server =>
          refine iff_of_true (fun _ _ hthread => by cases hthread) fun hevent => ?_
          cases hpacked : s.packed .server with
          | some p => simp [hpacked] at hevent
          | none =>
              simp only [hpacked, Bool.false_eq_true, if_false] at hevent
              split at hevent <;> simp_all
      | txThread =>
          cases s.packed .txThread with
          | none =>
              refine iff_of_true (fun _ _ _ hpacked => absurd rfl hpacked) fun hevent => ?_
              cases hreads : s.txConnected && s.txTodo.isEmpty <;> simp [hreads] at hevent
          | some p => cases written <;> simp

/-- The heartbeats are current exactly when the events of the schedule say so. -/
theorem eachStep_beatsCurrently_iff (schedule : List ThreadStep) {events : List HandshakeEvent} {s : Threads}
    (h : s.Traced events) :
    Machine.EachStep Threads.next BeatsCurrently s schedule ↔
      ∀ before after, s.handshakeEvents schedule = before ++ .writes :: after → CurrentAfter (events ++ before) := by
  induction schedule generalizing events s with
  | nil =>
      refine iff_of_true Machine.eachStep_nil fun before after hsplit => ?_
      simp [handshakeEvents] at hsplit
  | cons step schedule ih =>
      rw [Machine.eachStep_cons, beatsCurrently_iff h, ih (h.next step), handshakeEvents]
      cases s.handshakeEvent step with
      | none => simp
      | some event =>
          constructor
          · intro hboth before after hsplit
            cases before with
            | nil =>
                obtain ⟨rfl, -⟩ := List.cons.inj hsplit
                rw [List.append_nil]
                exact hboth.1 rfl
            | cons event' before =>
                obtain ⟨rfl, hrest⟩ := List.cons.inj hsplit
                have hlater := hboth.2 before after hrest
                rwa [Option.toList_some, List.append_assoc, List.singleton_append] at hlater
          · intro hall
            refine ⟨fun hevent => ?_, fun before after hsplit => ?_⟩
            · have hnow := hall [] _ (by rw [Option.some.inj hevent]; rfl)
              rwa [List.append_nil] at hnow
            · have hlater := hall (event :: before) after (by rw [hsplit]; rfl)
              rwa [Option.toList_some, List.append_assoc, List.singleton_append]

end Threads

/-- The server's start, with whatever devices and channels have been configured. -/
def Receiver.atStart {ψ : Type} (fcuStatus : ψ) (devs : CameraDevs) (rcChannels : RcTable) : Receiver ψ where
  fcuStatus
  mav := { devs, rcChannels }

/-- Every message that gets to the wire is right exactly when the server's thread, in its turns, gets no early answer
there and no heartbeat is written that is not current. -/
theorem eachStep_soundAt_iff (txSeq : UInt8) {todo : List ServerAction} (h : ∃ v, Follows none todo v)
    (schedule : List ThreadStep) :
    Machine.EachStep Threads.next Threads.SoundAt (Threads.start txSeq todo) schedule ↔
      ¬ EarlyAnswer todo (serverResults schedule) ∧
        HeartbeatsCurrent ((Threads.start txSeq todo).handshakeEvents schedule) := by
  have hparts : Machine.EachStep Threads.next Threads.SoundAt (Threads.start txSeq todo) schedule ↔
      Machine.EachStep Threads.next (fun s step => s.AnswersLate step ∧ s.BeatsCurrently step)
        (Threads.start txSeq todo) schedule := by
    apply Machine.eachStep_iff Threads.next (R := fun s t => s = t ∧ s.Coherent)
    · intro s t step hrel
      obtain ⟨rfl, hcoherent⟩ := hrel
      exact hcoherent.soundAt_iff step
    · intro s t step hrel _
      obtain ⟨rfl, hcoherent⟩ := hrel
      exact ⟨rfl, hcoherent.next step⟩
    · exact ⟨rfl, Threads.coherent_start txSeq h⟩
  have htraced : (Threads.start txSeq todo).Traced [] := ⟨rfl, .inl ⟨List.not_mem_nil, rfl⟩⟩
  rw [hparts, Machine.eachStep_and, Threads.eachStep_answersLate_iff, Threads.eachStep_beatsCurrently_iff _ htraced]
  exact and_congr_left fun _ => ⟨fun hlate => hlate rfl rfl, fun hlate _ _ => hlate⟩

/-- Whatever comes through the serial port, before and in the main loop, and however the threads are scheduled: every
message on the wire is right exactly when the server's thread has not got an answer there in the turns before the
version's, and each heartbeat is under the system number that was the last one when it was read and still is. There is
no such answer where no acknowledged command comes before the first AUTOPILOT_VERSION; where one does, and the process
does not end, it is early in every schedule that writes it in its turn. -/
theorem frames_sound_iff_scheduled {ψ : Type} (sigpipeIgnored : Bool) (lib : MavlinkLib ψ) (hlib : lib.FromSystems)
    (fcuStatus : ψ) (devs : CameraDevs) (rcChannels : RcTable) (inputs : List SerialInput) (ticks : List Tick)
    (txSeq : UInt8) (schedule : List ThreadStep) :
    let todo := serverActions sigpipeIgnored lib inputs ticks (.atStart fcuStatus devs rcChannels)
    let start := Threads.start txSeq todo
    (Machine.EachStep Threads.next Threads.SoundAt start schedule ↔
      ¬ EarlyAnswer todo (serverResults schedule) ∧ HeartbeatsCurrent (start.handshakeEvents schedule)) ∧
    (¬ CommandBeforeVersion lib fcuStatus (connectionBytes inputs) → ∀ results, ¬ EarlyAnswer todo results) ∧
    (.ends ∉ todo → CommandBeforeVersion lib fcuStatus (connectionBytes inputs) →
      ∃ turn : Nat, ∀ results, results[turn]? = some true → EarlyAnswer todo results) := by
  intro todo start
  have hcomes : todo.findSome? ServerAction.comes = some .answer ↔
      CommandBeforeVersion lib fcuStatus (connectionBytes inputs) := by
    rw [commandBeforeVersion_iff]
    exact (comes_serverActions sigpipeIgnored hlib inputs ticks (r := .atStart fcuStatus devs rcChannels)
      ⟨rfl, rfl⟩).congr_left
  refine ⟨eachStep_soundAt_iff txSeq (serverActions_follows sigpipeIgnored hlib inputs ticks ⟨rfl, rfl⟩) schedule,
    fun hnot results hearly => hnot (hcomes.mp hearly.comes), fun hlive hcommand => ?_⟩
  exact exists_earlyAnswer hlive (hcomes.mpr hcommand)

/-- The version, a command behind it, and a heartbeat before the answer is written. -/
theorem frames_sound_iff_scheduled_answer :
    let todo := serverActions false byteLib [⟨some [148, 76], idleTick.envs⟩] [] (.atStart () (fun _ => {}) fun _ => {})
    let start := Threads.start 0 todo
    let server : ThreadStep := ⟨.server, true⟩
    let txThread : ThreadStep := ⟨.txThread, true⟩
    let schedule := [server, server, server, server, server, txThread, txThread, txThread, txThread, server]
    (Machine.EachStep Threads.next Threads.SoundAt start schedule ↔
      ¬ EarlyAnswer todo (serverResults schedule) ∧ HeartbeatsCurrent (start.handshakeEvents schedule)) ∧
    (¬ CommandBeforeVersion byteLib () (connectionBytes [⟨some [148, 76], idleTick.envs⟩]) →
      ∀ results, ¬ EarlyAnswer todo results) ∧
    (.ends ∉ todo → CommandBeforeVersion byteLib () (connectionBytes [⟨some [148, 76], idleTick.envs⟩]) →
      ∃ turn : Nat, ∀ results, results[turn]? = some true → EarlyAnswer todo results) := by
  have hlib : byteLib.FromSystems := by
    intro status byte msg hmsg
    obtain rfl := Option.some.inj hmsg
    show (1 : UInt8) ≠ 0
    decide
  exact frames_sound_iff_scheduled false byteLib hlib () (fun _ => {}) (fun _ => {}) _ [] 0 _

/-- A command that comes before the version is answered as system 0, and so is a heartbeat that reads
`fcu_sysid` between the two assignments of the version's handler. -/
theorem answered_as_system_zero :
    let start := Receiver.atStart () (fun _ => {}) fun _ => {}
    let server : ThreadStep := ⟨.server, true⟩
    let txThread : ThreadStep := ⟨.txThread, true⟩
    ¬ Machine.EachStep Threads.next Threads.SoundAt
        (Threads.start 0 (serverActions false byteLib [⟨some [76], idleTick.envs⟩] [] start))
        [server, server, server, server] ∧
      ¬ Machine.EachStep Threads.next Threads.SoundAt
        (Threads.start 0 (serverActions false byteLib [⟨some [148], idleTick.envs⟩] [] start))
        [server, server, server, txThread, txThread, txThread, server, txThread] := by
  intro start server txThread
  constructor
  · intro h
    have hsound := h [server, server, server] server (List.prefix_refl _)
    exact Threads.not_soundAt_of_zero (by decide +kernel) (by decide +kernel) hsound
  · intro h
    have hsound := h [server, server, server, txThread, txThread, txThread, server] txThread (List.prefix_refl _)
    exact Threads.not_soundAt_of_zero (by decide +kernel) (by decide +kernel) hsound

end MissionServer
