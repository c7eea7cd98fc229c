import Mathlib.Algebra.Order.Ring.Int
import MissionServer.Lib.PushLoop

/-!
# serial.c

The wrapper over the serial port: baud rates, opening a port with its termios settings, reading and
writing. What the operating system answers is an argument of each function; what the function asked of
it is part of the result.
-/

namespace MissionServer

abbrev Bytes := List UInt8

/-! ### serial.h -/

def serialInvalidFd : Int := -1

inductive SerialParity
  | none
  | odd
  | even
  | mark
  | space
  deriving DecidableEq, Repr

inductive SerialStopBits
  | one
  | oneHalf
  | two
  deriving DecidableEq, Repr

structure SerialConfig where
  baudrate : UInt32
  parity : SerialParity
  dataBits : Int
  stopBits : SerialStopBits
  deriving DecidableEq, Repr

/-! ### termios.h

The speeds are fields of their own. Linux also keeps the output speed in the `CBAUD` bits of
`c_cflag`, which none of the masks below meets. -/

structure Termios where
  ispeed : Nat := 0
  ospeed : Nat := 0
  iflag : BitVec 32 := 0
  oflag : BitVec 32 := 0
  cflag : BitVec 32 := 0
  lflag : BitVec 32 := 0
  vmin : UInt8 := 0
  vtime : UInt8 := 0
  deriving DecidableEq, Repr

def ixon : BitVec 32 := 0x400
def ixoff : BitVec 32 := 0x1000
def csize : BitVec 32 := 0x30
def cs5 : BitVec 32 := 0x00
def cs6 : BitVec 32 := 0x10
def cs7 : BitVec 32 := 0x20
def cs8 : BitVec 32 := 0x30
def cstopb : BitVec 32 := 0x40
def cread : BitVec 32 := 0x80
def parenb : BitVec 32 := 0x100
def parodd : BitVec 32 := 0x200
def clocal : BitVec 32 := 0x800
def crtscts : BitVec 32 := 0x80000000

/-- `B0`, the speed that stands for no rate. -/
def b0 : Nat := 0

/-- The rates `convert_baudrate` knows, each with its `B` constant. -/
def baudTable : List (Int × Nat) :=
  [(50, 0o1), (75, 0o2), (110, 0o3), (134, 0o4), (150, 0o5), (200, 0o6), (300, 0o7), (600, 0o10),
   (1200, 0o11), (1800, 0o12), (2400, 0o13), (4800, 0o14), (9600, 0o15), (19200, 0o16),
   (38400, 0o17), (57600, 0o10001), (115200, 0o10002), (230400, 0o10003), (460800, 0o10004),
   (500000, 0o10005), (576000, 0o10006), (921600, 0o10007), (1000000, 0o10010),
   (1152000, 0o10011), (1500000, 0o10012), (2000000, 0o10013), (2500000, 0o10014),
   (3000000, 0o10015), (3500000, 0o10016), (4000000, 0o10017)]

def convertBaudrate (baudrate : Int) : Nat :=
  (baudTable.lookup baudrate).getD b0

/-! ### Opening a port -/

/-- What the system calls of one `serial_open` answer. -/
structure OpenOutcome where
  fd : Int
  cfsetispeed : Bool
  cfsetospeed : Bool
  tcsetattr : Bool
  deriving DecidableEq, Repr

/-- A system call of `serial_open` that acts on the port. -/
inductive PortCall
  | opened (fd : Int)
  | attributes (fd : Int) (tio : Termios) (ok : Bool)
  | closed (fd : Int)
  deriving DecidableEq, Repr

/-- `close` on a valid descriptor; a wrapper that ignores the invalid one. -/
def serialClose (fd : Int) : List PortCall :=
  if fd ≠ serialInvalidFd then [.closed fd] else []

/-- The stop bits of `serial_open`; one and a half have no termios flag. -/
def stopBitsFlags (stopBits : SerialStopBits) (cflag : BitVec 32) : Option (BitVec 32) :=
  match stopBits with
  | .one => some (cflag &&& ~~~cstopb)
  | .two => some (cflag ||| cstopb)
  | .oneHalf => none

/-- The parity of `serial_open`; termios has no mark or space parity. -/
def parityFlags (parity : SerialParity) (cflag : BitVec 32) : Option (BitVec 32) :=
  match parity with
  | .none => some (cflag &&& ~~~parenb)
  | .odd => some ((cflag ||| parenb) ||| parodd)
  | .even => some ((cflag ||| parenb) &&& ~~~parodd)
  | .mark => none
  | .space => none

def dataBitsFlags (dataBits : Int) (cflag : BitVec 32) : Option (BitVec 32) :=
  match dataBits with
  | 5 => some (cflag ||| cs5)
  | 6 => some (cflag ||| cs6)
  | 7 => some (cflag ||| cs7)
  | 8 => some (cflag ||| cs8)
  | _ => none

/-- The attributes `serial_open` builds, or nothing where one of its three switches gives up. -/
def portAttributes (cfg : SerialConfig) (br : Nat) (timeout : Int) : Option Termios := do
  let iflag : BitVec 32 := 0 &&& ~~~(ixon ||| ixoff)
  let cflag ← stopBitsFlags cfg.stopBits (0 ||| (clocal ||| cread))
  let cflag ← parityFlags cfg.parity cflag
  let cflag ← dataBitsFlags cfg.dataBits ((cflag &&& ~~~crtscts) &&& ~~~csize)
  return { ispeed := br, ospeed := br, iflag, cflag, vmin := 1,
           vtime := UInt8.ofNat (if timeout < 0 then 0 else ((timeout + 99) / 100).toNat) }

def serialOpen (port : Option String) (cfg : SerialConfig) (timeout : Int) (os : OpenOutcome) :
    Int × List PortCall :=
  let br := convertBaudrate cfg.baudrate.toInt32.toInt
  if br = b0 then (serialInvalidFd, [])
  else match port with
  | none => (serialInvalidFd, [])
  | some _ =>
      let fd := os.fd
      if fd ≠ serialInvalidFd then
        if ¬ os.cfsetispeed ∨ ¬ os.cfsetospeed then (serialInvalidFd, .opened fd :: serialClose fd)
        else match portAttributes cfg br timeout with
        | none => (serialInvalidFd, .opened fd :: serialClose fd)
        | some tio =>
            if ¬ os.tcsetattr then
              (serialInvalidFd, .opened fd :: .attributes fd tio false :: serialClose fd)
            else (fd, [.opened fd, .attributes fd tio true])
      else (fd, [])

/-! ### Reading and writing -/

/-- `read` fills at most `size` bytes; a negative result is reported as -1, here `none`. -/
def serialRead (size : Nat) (data : Option Bytes) : Option Bytes :=
  data.map (·.take size)

/-- One `write` on the port: a negative result, or the bytes the driver takes of those asked for. -/
def writeCall (buf : Bytes) (written : Nat) (w : Int) (port : Bytes) : Bytes × Int :=
  if w < 0 then (port, -1)
  else
    let n := min w.toNat (buf.length - written)
    (port ++ (buf.drop written).take n, n)

/-- The bytes `serial_write` puts on the port, and how it ended: `done` is its `true`, `failed` its
`false`. The list holds what the successive `write` calls answer. -/
def serialWrite (buf : Bytes) (writes : List Int) : Bytes × PushLoop.Status :=
  PushLoop.push (writeCall buf) buf.length 0 writes []

end MissionServer
