import MissionServer.Lib.Periodic
import MissionServer.MavlinkPublisher.TxThread
import MissionServer.Proof.Sequence
import MissionServer.Proof.ServerActions

/-!
# The camera's heartbeats

`mavlink_tx_thread` sends them, a second apart, and nothing else does.
-/

namespace MissionServer

def MavlinkFrame.isHeartbeat (frame : MavlinkFrame) : Bool :=
  match frame.body with
  | .heartbeat _ => true
  | _ => false

/-! ### The server sends none -/

section Server

variable {ψ : Type} (lib : MavlinkLib ψ)

def NoHeartbeat (frames : List MavlinkFrame) : Prop := ∀ frame ∈ frames, frame.isHeartbeat = false

theorem noHeartbeat_nil : NoHeartbeat [] := fun _ hframe => absurd hframe List.not_mem_nil

theorem NoHeartbeat.append {frames frames' : List MavlinkFrame} (h : NoHeartbeat frames) (h' : NoHeartbeat frames') :
    NoHeartbeat (frames ++ frames') :=
  List.forall_mem_append.mpr ⟨h, h'⟩

theorem mavCommandLong_noHeartbeat (env : GstEnv) (command : UInt16) (sysid compid : UInt8) (m : Mav) :
    NoHeartbeat (sentFrames (mavCommandLong env command sysid compid m).2) := by
  have hmessages := mavCommandLong_messages env command sysid compid m
  split_ifs at hmessages
  · obtain ⟨replies, hbodies, hreplies⟩ := hmessages
    have hall : ∀ body ∈ acceptedAck command sysid compid :: replies, ∀ beat, body ≠ .heartbeat beat := by
      unfold Mav.Replies at hreplies
      split_ifs at hreplies
      · obtain ⟨info, rfl⟩ := hreplies
        simp [acceptedAck]
      · obtain ⟨settings, rfl⟩ := hreplies
        simp [acceptedAck]
      · obtain ⟨status, rfl, -⟩ := hreplies
        simp [acceptedAck]
      · obtain ⟨status, rfl, -⟩ := hreplies
        simp [acceptedAck]
      · rw [hreplies]
        simp [acceptedAck]
    intro frame hframe
    have hbody : ∀ beat, frame.body ≠ .heartbeat beat :=
      hall _ (hbodies ▸ List.mem_map_of_mem hframe)
    rw [MavlinkFrame.isHeartbeat]
    split
    · exact absurd ‹_› (hbody _)
    · rfl
  · rw [hmessages]
    exact noHeartbeat_nil

theorem parseMavlinkMsg_noHeartbeat (env : GstEnv) (msg : MavlinkMessage) (m : Mav) :
    NoHeartbeat (sentFrames (parseMavlinkMsg lib env msg m).2) := by
  have hall : ∀ entry ∈ fcuCmds lib env, NoHeartbeat (sentFrames (entry.2 msg m).2) := by
    simp only [fcuCmds, List.forall_mem_cons]
    refine ⟨noHeartbeat_nil, noHeartbeat_nil, ?_, mavCommandLong_noHeartbeat env _ _ _ m, noHeartbeat_nil, by simp⟩
    rw [(silent_rules.mavFcuRcChannels env _).sentFrames_eq_nil]
    exact noHeartbeat_nil
  rw [parseMavlinkMsg]
  split
  · rename_i handler hlookup
    obtain ⟨before, after, hsplit, -⟩ := List.lookup_eq_some_iff.mp hlookup
    exact hall (msg.msgid, handler) (by simp [hsplit])
  · exact noHeartbeat_nil

theorem readMavlinkMsg_noHeartbeat (envs : Nat → GstEnv) (data : Bytes) (r : Receiver ψ) :
    NoHeartbeat (sentFrames (readMavlinkMsg lib envs data r).2) :=
  forall_sentFrames_readMavlinkMsg (parseMavlinkMsg_noHeartbeat lib) envs data r

theorem connectionLoop_noHeartbeat (inputs : List SerialInput) (r : Receiver ψ) :
    NoHeartbeat (sends (connectionLoop lib inputs r).2) := by
  induction inputs generalizing r with
  | nil => exact noHeartbeat_nil
  | cons input inputs ih =>
      rw [connectionLoop]
      split_ifs
      · exact noHeartbeat_nil
      · have hrequest : NoHeartbeat (mavlinkSendRequestAutopilotCapabilities r.mav.fcuSysid) := by
          intro frame hframe
          obtain rfl := List.mem_singleton.mp hframe
          rfl
        cases serialRead gCacheSize input.data with
        | none =>
            dsimp only
            rw [sends_append, sends_send]
            exact hrequest.append (ih r)
        | some data =>
            dsimp only
            rw [sends_append, sends_append, sends_send, sends_chunkActions]
            exact (hrequest.append (readMavlinkMsg_noHeartbeat lib input.envs data r)).append (ih _)

theorem serialActions_noHeartbeat (tick : Tick) (s : Server ψ) : NoHeartbeat (sends (serialActions lib tick s)) := by
  rw [serialActions]
  split_ifs
  · exact noHeartbeat_nil
  · cases serialRead gCacheSize tick.serialData with
    | none => exact noHeartbeat_nil
    | some data =>
        dsimp only
        rw [sends_chunkActions]
        exact readMavlinkMsg_noHeartbeat lib tick.envs data s.receiver

theorem userCmdActions_noHeartbeat (tick : Tick) (s : Server ψ) : NoHeartbeat (sends (userCmdActions tick s)) := by
  rw [userCmdActions]
  split_ifs
  · exact noHeartbeat_nil
  · dsimp only
    rw [sends_send]
    intro frame hframe
    obtain ⟨userCmd, -, hsent⟩ := List.mem_flatMap.mp hframe
    unfold selectAction mavlinkSendPlayTune at hsent
    split_ifs at hsent
    · exact absurd hsent List.not_mem_nil
    · obtain rfl := List.mem_singleton.mp hsent
      rfl
    · exact absurd hsent List.not_mem_nil

variable (sigpipeIgnored : Bool)

theorem mainLoopActions_noHeartbeat (ticks : List Tick) (s : Server ψ) :
    NoHeartbeat (sends (mainLoopActions sigpipeIgnored lib ticks s)) := by
  induction ticks generalizing s with
  | nil => exact noHeartbeat_nil
  | cons tick ticks ih =>
      have htick : NoHeartbeat (sends (tickActions sigpipeIgnored lib s tick)) := by
        rw [tickActions]
        split_ifs
        · exact noHeartbeat_nil
        · exact noHeartbeat_nil
        · dsimp only
          rw [sends_append, sends_append, sends_append, sends_clientActions, (haltActions_quiet _).1, List.nil_append,
            List.append_nil]
          exact (serialActions_noHeartbeat lib tick _).append (userCmdActions_noHeartbeat tick _)
      rw [mainLoopActions, sends_append]
      exact htick.append (ih _)

theorem serverActions_noHeartbeat (inputs : List SerialInput) (ticks : List Tick) (r : Receiver ψ) :
    NoHeartbeat (sends (serverActions sigpipeIgnored lib inputs ticks r)) := by
  unfold serverActions
  dsimp only
  rw [sends_append]
  refine (connectionLoop_noHeartbeat lib inputs r).append ?_
  split_ifs
  · exact mainLoopActions_noHeartbeat lib sigpipeIgnored ticks _
  · exact noHeartbeat_nil

end Server

/-! ### What became of them -/

namespace Threads

/-- The heartbeats on the wire, and those of which the write has failed. -/
def heartbeats (s : Threads) : Nat :=
  s.wire.countP (·.frame.isHeartbeat) + s.lost.countP (·.frame.isHeartbeat)

theorem heartbeats_write (s : Threads) (thread : Thread) (p : Packed) (written : Bool) :
    (s.write thread p written).heartbeats = s.heartbeats + if p.frame.isHeartbeat then 1 else 0 := by
  rw [heartbeats, heartbeats, wire_write, lost_write]
  cases written with
  | true => simp [List.countP_append, List.countP_singleton, add_right_comm]
  | false => simp [List.countP_append, List.countP_singleton, add_assoc]

theorem packed_write (s : Threads) (thread : Thread) (p : Packed) (written : Bool) :
    (s.write thread p written).packed thread = none :=
  Function.update_self ..

theorem packed_write_of_ne (s : Threads) {thread thread' : Thread} (hne : thread' ≠ thread) (p : Packed)
    (written : Bool) : (s.write thread p written).packed thread' = s.packed thread' :=
  Function.update_of_ne hne ..

theorem packed_pack (s : Threads) (thread : Thread) (frame : MavlinkFrame) :
    (s.pack thread frame).packed thread = some ⟨s.txSeq, s.packedCount, frame⟩ :=
  Function.update_self ..

theorem packed_pack_of_ne (s : Threads) {thread thread' : Thread} (hne : thread' ≠ thread) (frame : MavlinkFrame) :
    (s.pack thread frame).packed thread' = s.packed thread' :=
  Function.update_of_ne hne ..

/-- Of `n` heartbeats that were due, the last one may still be on its way to the wire. -/
structure Beats (n : Nat) (s : Threads) : Prop where
  count : s.heartbeats + s.txTodo.length + (s.packed .txThread).toList.length = n
  onItsWay : s.txTodo.length + (s.packed .txThread).toList.length ≤ 1
  txTodo : ∀ frame ∈ s.txTodo, frame.isHeartbeat = true
  txPacked : ∀ p, s.packed .txThread = some p → p.frame.isHeartbeat = true
  serverPacked : ∀ p, s.packed .server = some p → p.frame.isHeartbeat = false
  todo : NoHeartbeat (sends s.todo)

variable {n : Nat} {s : Threads}

theorem beats_start (txSeq : UInt8) {todo : List ServerAction} (htodo : NoHeartbeat (sends todo)) :
    (start txSeq todo).Beats 0 where
  count := rfl
  onItsWay := Nat.zero_le 1
  txTodo _ hframe := absurd hframe List.not_mem_nil
  txPacked _ hp := (Option.some_ne_none _ hp.symm).elim
  serverPacked _ hp := (Option.some_ne_none _ hp.symm).elim
  todo := htodo

theorem Beats.pack_server (h : s.Beats n) {frame : MavlinkFrame} (hframe : frame.isHeartbeat = false) :
    (s.pack .server frame).Beats n := by
  have hother : (s.pack .server frame).packed .txThread = s.packed .txThread := packed_pack_of_ne s (by decide) frame
  refine ⟨?_, ?_, h.txTodo, ?_, ?_, h.todo⟩
  · rw [hother]
    exact h.count
  · rw [hother]
    exact h.onItsWay
  · rw [hother]
    exact h.txPacked
  · intro p hp
    rw [packed_pack] at hp
    obtain rfl := Option.some.inj hp
    exact hframe

theorem Beats.write_server (h : s.Beats n) {p : Packed} (hp : s.packed .server = some p) (written : Bool) :
    (s.write .server p written).Beats n := by
  have hother : (s.write .server p written).packed .txThread = s.packed .txThread :=
    packed_write_of_ne s (by decide) p written
  refine ⟨?_, ?_, h.txTodo, ?_, ?_, h.todo⟩
  · rw [hother, heartbeats_write, if_neg (ne_true_of_eq_false (h.serverPacked p hp)), Nat.add_zero]
    exact h.count
  · rw [hother]
    exact h.onItsWay
  · rw [hother]
    exact h.txPacked
  · intro q hq
    rw [packed_write] at hq
    cases hq

theorem Beats.act (h : s.Beats n) (written : Bool) : (s.act written).Beats n := by
  have htodo := h.todo
  rw [Threads.act]
  split <;> rename_i heq
  all_goals rw [heq] at htodo
  · exact h
  · exact { h with todo := htodo }
  · exact { h with todo := htodo }
  · rename_i frame todo
    have hsent : NoHeartbeat (frame :: sends todo) := htodo
    obtain ⟨hframe, hrest⟩ := List.forall_mem_cons.mp hsent
    have hkept : Beats n { s with todo } := { h with todo := hrest }
    exact hkept.pack_server hframe
  · rename_i data todo
    have hsame : heartbeats { s with todo, port := s.port ++ [(.bytes data, written)] } = s.heartbeats := by
      simp [heartbeats, wire, lost]
    refine { h with todo := htodo, count := ?_ }
    rw [hsame]
    exact h.count
  · exact { h with todo := htodo }

theorem Beats.next_server (h : s.Beats n) (written : Bool) : (s.next ⟨.server, written⟩).Beats n := by
  rw [next]
  split_ifs
  · exact h
  · split
    · exact h.write_server ‹_› written
    · exact h.act written

theorem Beats.pack_txThread (h : s.Beats n) {frame : MavlinkFrame} {frames : List MavlinkFrame}
    (htodo : s.txTodo = frame :: frames) (hpacked : s.packed .txThread = none) :
    ({ s with txTodo := frames }.pack .txThread frame).Beats n := by
  have hother : ({ s with txTodo := frames }.pack .txThread frame).packed .server = s.packed .server :=
    packed_pack_of_ne { s with txTodo := frames } (by decide) frame
  have hcount := h.count
  have honItsWay := h.onItsWay
  have htxTodo := h.txTodo
  rw [htodo, hpacked] at hcount honItsWay
  rw [htodo] at htxTodo
  obtain ⟨hframe, hframes⟩ := List.forall_mem_cons.mp htxTodo
  refine ⟨?_, ?_, hframes, ?_, ?_, h.todo⟩
  · have hsame : ({ s with txTodo := frames }.pack .txThread frame).heartbeats = s.heartbeats := rfl
    rw [packed_pack, hsame, ← hcount]
    simp +arith [pack]
  · rw [packed_pack]
    exact honItsWay
  · intro p hp
    rw [packed_pack] at hp
    obtain rfl := Option.some.inj hp
    exact hframe
  · rw [hother]
    exact h.serverPacked

theorem Beats.write_txThread (h : s.Beats n) {p : Packed} (hp : s.packed .txThread = some p) (written : Bool) :
    (s.write .txThread p written).Beats n := by
  have hother : (s.write .txThread p written).packed .server = s.packed .server :=
    packed_write_of_ne s (by decide) p written
  have hcount := h.count
  have honItsWay := h.onItsWay
  rw [hp] at hcount honItsWay
  refine ⟨?_, ?_, h.txTodo, ?_, ?_, h.todo⟩
  · rw [packed_write, heartbeats_write, if_pos (h.txPacked p hp), ← hcount]
    simp +arith [write]
  · rw [packed_write]
    exact Nat.le_of_succ_le honItsWay
  · intro q hq
    rw [packed_write] at hq
    cases hq
  · rw [hother]
    exact h.serverPacked

theorem Beats.next_txThread (h : s.Beats n) (written : Bool) (hround : s.betweenRounds = false) :
    (s.next ⟨.txThread, written⟩).Beats n := by
  cases hended : s.ended with
  | true =>
      rw [next, if_pos hended]
      exact h
  | false =>
      cases hpacked : s.packed .txThread with
      | some p =>
          rw [next, if_neg (by simp [hended]), hpacked]
          exact h.write_txThread hpacked written
      | none =>
          rw [next, if_neg (by simp [hended]), hpacked]
          dsimp only
          rw [txThread]
          split_ifs with hconnected
          · split
            · rename_i htodo
              simp [betweenRounds, hended, hconnected, htodo, hpacked] at hround
            · exact h.pack_txThread ‹_› hpacked
          · exact { h with }

theorem Beats.next_due (h : s.Beats n) (written : Bool) (hround : s.betweenRounds = true) :
    (s.next ⟨.txThread, written⟩).Beats (n + 1) := by
  simp only [betweenRounds, Bool.and_eq_true, Bool.not_eq_true', List.isEmpty_iff, Option.isNone_iff_eq_none] at hround
  obtain ⟨⟨⟨hended, hconnected⟩, htodo⟩, hpacked⟩ := hround
  have hcount := h.count
  rw [htodo, hpacked] at hcount
  have hnext : s.next ⟨.txThread, written⟩ =
      { s with txTodo := mavlinkTxThread s.fcuSysid, seen := s.handled } := by
    rw [next, if_neg (by simp [hended]), hpacked]
    dsimp only
    rw [txThread, if_pos hconnected, htodo]
  rw [hnext]
  refine ⟨?_, ?_, ?_, h.txPacked, h.serverPacked, h.todo⟩
  · rw [hpacked, ← hcount]
    rfl
  · rw [hpacked]
    exact le_refl 1
  · intro frame hframe
    obtain rfl := List.mem_singleton.mp hframe
    rfl

end Threads

/-! ### The clock -/

/-- The shortest time that `MSG_SEND_HZ` takes for a second, as it is rounded up to one. -/
def shortestSecond : Rat := 1 - 1 / 2 ^ 54

theorem shortestSecond_pos : 0 < shortestSecond := by
  norm_num [shortestSecond]

theorem msgSendHz_second (tv : Timeval) (timer : Rat) :
    msgSendHz tv { timer, period := double (1 / double (1 : Nat)) } =
      if shortestSecond ≤ getTimeSec tv - timer then
        ({ timer := getTimeSec tv, period := double (1 / double (1 : Nat)) }, true)
      else ({ timer, period := double (1 / double (1 : Nat)) }, false) := by
  have hone : double (1 / double (1 : Nat)) = 1 := by
    rw [double, double, Nat.cast_one, Rounding.round_one (by decide), div_one, Rounding.round_one (by decide)]
  have hdue : (double (getTimeSec tv - timer) ≥ double (1 / double (1 : Nat))) =
      (shortestSecond ≤ getTimeSec tv - timer) := by
    rw [hone]
    exact propext (Rounding.one_le_round_iff (by decide))
  simp only [msgSendHz, hdue]

namespace TimedThreads

/-- The scheduler acts on the readings as a periodic action does. -/
def Scheduled (s : TimedThreads) : Prop :=
  match s.readings with
  | [] => s.scheduler = none ∧ s.beats = []
  | start :: readings =>
      s.scheduler = some ⟨s.beats.getLastD start, double (1 / double (1 : Nat))⟩ ∧
        s.beats = Periodic.fires shortestSecond start readings

structure Keeps (s : TimedThreads) : Prop where
  beats : s.threads.Beats s.beats.length
  scheduled : s.Scheduled

variable {s : TimedThreads}

theorem keeps_start (txSeq : UInt8) {todo : List ServerAction} (htodo : NoHeartbeat (sends todo)) :
    (start txSeq todo).Keeps where
  beats := Threads.beats_start txSeq htodo
  scheduled := ⟨rfl, rfl⟩

theorem Keeps.readClock (h : s.Keeps) (hround : s.threads.betweenRounds = true) (written : Bool) (tv : Timeval) :
    (s.readClock written tv).Keeps := by
  have hscheduled := h.scheduled
  rw [Scheduled] at hscheduled
  rw [TimedThreads.readClock]
  cases hreadings : s.readings with
  | nil =>
      rw [hreadings] at hscheduled
      obtain ⟨hnone, hbeats⟩ := hscheduled
      rw [hnone]
      refine ⟨h.beats, ?_⟩
      simp [Scheduled, msgSchedulerInit, hbeats, Periodic.fires]
  | cons start readings =>
      rw [hreadings] at hscheduled
      obtain ⟨hsome, hbeats⟩ := hscheduled
      rw [hsome]
      have hfires : Periodic.fires shortestSecond start (readings ++ [getTimeSec tv]) = _ :=
        Periodic.fires_concat readings _
      rw [← hbeats] at hfires
      dsimp only
      rw [msgSendHz_second]
      by_cases hdue : shortestSecond ≤ getTimeSec tv - s.beats.getLastD start
      · rw [if_pos hdue] at hfires ⊢
        refine ⟨?_, ?_⟩
        · have hnext := h.beats.next_due written hround
          simpa [step] using hnext
        · simp [Scheduled, step, hfires]
      · rw [if_neg hdue] at hfires ⊢
        refine ⟨h.beats, ?_⟩
        simp [Scheduled, hfires]

theorem Keeps.next (h : s.Keeps) (e : TimedEvent) : (s.next e).Keeps := by
  cases e with
  | server written => exact ⟨h.beats.next_server written, h.scheduled⟩
  | txThread written tv =>
      rw [TimedThreads.next]
      split_ifs with hround
      · exact h.readClock hround written tv
      · exact ⟨h.beats.next_txThread written (Bool.eq_false_of_not_eq_true hround), h.scheduled⟩

/-- Looking at the clock without sending anything is no step of the threads. -/
theorem next_threads (s : TimedThreads) (e : TimedEvent) :
    (s.next e).threads = s.threads ∨ (s.next e).threads = s.threads.next e.step := by
  cases e with
  | server written => exact .inr rfl
  | txThread written tv =>
      rw [next]
      split_ifs
      · rw [readClock]
        split
        · exact .inl rfl
        · split
          · exact .inr rfl
          · exact .inl rfl
      · exact .inr rfl

/-- A run on a clock is a run of the two threads. -/
theorem run_threads (s : TimedThreads) (events : List TimedEvent) :
    ∃ schedule, schedule.Sublist (events.map TimedEvent.step) ∧
      (Machine.run next s events).threads = Machine.run Threads.next s.threads schedule := by
  induction events generalizing s with
  | nil => exact ⟨[], .slnil, rfl⟩
  | cons e events ih =>
      obtain ⟨schedule, hsublist, hrun⟩ := ih (s.next e)
      rw [Machine.run_cons, hrun]
      obtain hsame | hstep := next_threads s e
      · exact ⟨schedule, hsublist.cons _, by rw [hsame]⟩
      · exact ⟨e.step :: schedule, hsublist.cons_cons _, by rw [hstep, Machine.run_cons]⟩

end TimedThreads

/-- For every run of the server, every order in which the threads take their steps, whichever writes fail, and every
clock: heartbeats come a second apart or more, as `double` has it, and all that were due are on the wire or lost in a
failed write but at most the last one. Where the clock goes ahead by at most `gap` between two looks at it, they come
less than a second and `gap` apart, and their number keeps up. -/
theorem heartbeats_paced {ψ : Type} (sigpipeIgnored : Bool) (lib : MavlinkLib ψ) (inputs : List SerialInput)
    (ticks : List Tick) (r : Receiver ψ) (txSeq : UInt8) (events : List TimedEvent) :
    let todo := serverActions sigpipeIgnored lib inputs ticks r
    let s := Machine.run TimedThreads.next (TimedThreads.start txSeq todo) events
    (∃ schedule, schedule.Sublist (events.map TimedEvent.step) ∧
      s.threads = Machine.run Threads.next (Threads.start txSeq todo) schedule) ∧
    (s.beats.length = s.threads.heartbeats ∨ s.beats.length = s.threads.heartbeats + 1) ∧
    ((∀ e ∈ events, e.step.written = true) → s.threads.lost = []) ∧
    ∀ start readings, s.readings = start :: readings →
      s.beats.Sublist readings ∧
      (start :: s.beats).IsChain (fun earlier later => 1 ≤ double (later - earlier)) ∧
      s.beats.length * shortestSecond ≤ s.beats.getLastD start - start ∧
      ∀ gap, s.readings.IsChain (fun earlier later => later - earlier ≤ gap) →
        (start :: s.beats).IsChain (fun earlier later => later - earlier < 1 + gap) ∧
        readings.getLastD start - start < s.beats.length * (1 + gap) + 1 := by
  intro todo s
  have hkeeps : s.Keeps :=
    Machine.run_invariant (fun _ e h => h.next e)
      (TimedThreads.keeps_start txSeq (serverActions_noHeartbeat lib sigpipeIgnored inputs ticks r)) events
  obtain ⟨schedule, hsublist, hthreads⟩ := TimedThreads.run_threads (TimedThreads.start txSeq todo) events
  refine ⟨⟨schedule, hsublist, hthreads⟩, ?_, fun hwritten => ?_, fun start readings hreadings => ?_⟩
  · have hcount := hkeeps.beats.count
    have honItsWay := hkeeps.beats.onItsWay
    omega
  · rw [show s.threads = _ from hthreads]
    refine Threads.lost_run_of_written schedule (fun step hstep => ?_) rfl
    obtain ⟨e, he, rfl⟩ := List.mem_map.mp (hsublist.mem hstep)
    exact hwritten e he
  · have hscheduled := hkeeps.scheduled
    rw [TimedThreads.Scheduled, hreadings] at hscheduled
    obtain ⟨-, hbeats⟩ := hscheduled
    rw [hreadings, hbeats]
    have hspaced : (start :: Periodic.fires shortestSecond start readings).IsChain
        fun earlier later => shortestSecond ≤ later - earlier := Periodic.isChain_fires readings
    have hshort : shortestSecond ≤ 1 := by norm_num [shortestSecond]
    refine ⟨Periodic.fires_sublist readings, ?_, ?_, fun gap hgap => ⟨?_, ?_⟩⟩
    · exact hspaced.imp fun _ _ h => (Rounding.one_le_round_iff (by decide)).mpr h
    · have hfew := Periodic.length_nsmul_le hspaced
      rwa [nsmul_eq_mul] at hfew
    · exact (Periodic.isChain_fires_lt shortestSecond_pos hgap).imp fun _ _ h => h.trans_le (by gcongr)
    · have hmany := Periodic.getLastD_sub_lt shortestSecond_pos hgap
      rw [nsmul_eq_mul] at hmany
      exact hmany.trans_le (by gcongr)

end MissionServer
