import Mathlib.Data.Rat.Floor
import MissionServer.Lib.Rounding
import MissionServer.UartServer.Threads

/-!
# mavlink_publisher.c: the clock of mavlink_tx_thread

`MSG_SEND_HZ` in the loop of `mavlink_tx_thread`. The other steps of the two threads are those of `Threads`. How long
`sleep`, `usleep` and the locked writes take is for the clock to tell.
-/

namespace MissionServer

/-- `struct timeval`. -/
structure Timeval where
  tvSec : Int
  tvUsec : Int
  deriving DecidableEq, Repr

/-- A result as a `double`. The bounds of its exponent are left out, which are far from any time in seconds. -/
def double (q : Rat) : Rat := Rounding.round 53 q

def getTimeSec (tv : Timeval) : Rat := double (double tv.tvSec + double (double tv.tvUsec * double (1 / 1000000)))

/-- The variables that `MSG_SCHEDULER_INIT` declares. -/
structure MsgScheduler where
  timer : Rat
  period : Rat
  deriving DecidableEq, Repr

def msgSchedulerInit (freq : Nat) (tv : Timeval) : MsgScheduler :=
  { timer := getTimeSec tv, period := double (1 / double freq) }

/-- `MSG_SEND_HZ`, and whether it runs its expressions. -/
def msgSendHz (tv : Timeval) (scheduler : MsgScheduler) : MsgScheduler × Bool :=
  let now := getTimeSec tv
  let elapsed := double (now - scheduler.timer)
  if elapsed ≥ scheduler.period then ({ scheduler with timer := now }, true) else (scheduler, false)

/-- Both threads, with the scheduler once `mavlink_tx_thread` has one. `readings` are the times it has read, and
`beats` those of them at which a heartbeat was due. -/
structure TimedThreads where
  threads : Threads
  scheduler : Option MsgScheduler := none
  readings : List Rat := []
  beats : List Rat := []

/-- A thread takes a step; the clock stands at `tv` where it is looked at. -/
inductive TimedEvent
  | server (written : Bool)
  | txThread (written : Bool) (tv : Timeval)
  deriving DecidableEq, Repr

def TimedEvent.step : TimedEvent → ThreadStep
  | .server written => ⟨.server, written⟩
  | .txThread written _ => ⟨.txThread, written⟩

/-- `mavlink_tx_thread` is connected, and between two rounds of its loop. -/
def Threads.betweenRounds (s : Threads) : Bool :=
  !s.ended && s.txConnected && s.txTodo.isEmpty && (s.packed .txThread).isNone

namespace TimedThreads

def start (txSeq : UInt8) (todo : List ServerAction) : TimedThreads := { threads := Threads.start txSeq todo }

/-- A step that does not look at the clock. -/
def step (step : ThreadStep) (s : TimedThreads) : TimedThreads := { s with threads := s.threads.next step }

/-- The clock is read: for `MSG_SCHEDULER_INIT` at first, and then once a round. -/
def readClock (written : Bool) (tv : Timeval) (s : TimedThreads) : TimedThreads :=
  let s' := { s with readings := s.readings ++ [getTimeSec tv] }
  match s.scheduler with
  | none => { s' with scheduler := some (msgSchedulerInit 1 tv) }
  | some scheduler =>
      match msgSendHz tv scheduler with
      | (scheduler, true) =>
          { s' with scheduler := some scheduler, beats := s.beats ++ [getTimeSec tv] }.step ⟨.txThread, written⟩
      | (_, false) => s'

def next (s : TimedThreads) : TimedEvent → TimedThreads
  | .server written => s.step ⟨.server, written⟩
  | .txThread written tv => if s.threads.betweenRounds then s.readClock written tv else s.step ⟨.txThread, written⟩

end TimedThreads

end MissionServer
