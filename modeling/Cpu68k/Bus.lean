import Cpu68k.Text.Hex

/-!
# Bus cycles

Every access drives an address, a kind of access and a function code, which
tells user from supervisor and program from data.
-/

namespace Cpu68k

/-- The function code of a bus cycle, three bits. -/
inductive FunctionCode
  | reserved0
  | userData
  | userProgram
  | reserved3
  | reserved4
  | supervisorData
  | supervisorProgram
  | cpuSpace
  deriving DecidableEq, Inhabited

namespace FunctionCode

/-- The code for a mode and a kind of contents. -/
def ofFlags (supervisor program : Bool) : FunctionCode :=
  match supervisor, program with
  | false, false => userData
  | false, true => userProgram
  | true, false => supervisorData
  | true, true => supervisorProgram

/-- The code with the low three bits of `bits`. -/
def ofBits (bits : UInt8) : FunctionCode :=
  match (bits &&& 7).toNat with
  | 0 => reserved0
  | 1 => userData
  | 2 => userProgram
  | 3 => reserved3
  | 4 => reserved4
  | 5 => supervisorData
  | 6 => supervisorProgram
  | _ => cpuSpace

/-- The three bits of the code. -/
def bits : FunctionCode → UInt8
  | reserved0 => 0
  | userData => 1
  | userProgram => 2
  | reserved3 => 3
  | reserved4 => 4
  | supervisorData => 5
  | supervisorProgram => 6
  | cpuSpace => 7

/-- Whether protected memory treats the code as user mode: the two user codes
and the reserved one below them. -/
def isUser (fc : FunctionCode) : Bool :=
  fc.bits ≤ 2

/-- The name used in messages. -/
def name : FunctionCode → String
  | reserved0 => "Reserved0"
  | userData => "UserData"
  | userProgram => "UserProgram"
  | reserved3 => "Reserved3"
  | reserved4 => "Reserved4"
  | supervisorData => "SupervisorData"
  | supervisorProgram => "SupervisorProgram"
  | cpuSpace => "CpuSpace"

end FunctionCode

/-- The kind of an access. -/
inductive Access
  | read
  | write
  | fetch
  deriving DecidableEq, Inhabited

/-- The verb used in messages. -/
def Access.verb : Access → String
  | read => "read"
  | write => "write"
  | fetch => "fetch"

/-- One access as the bus sees it. -/
structure BusCycle where
  /-- The address driven. -/
  addr : UInt32
  /-- The kind of access. -/
  access : Access
  /-- The function code driven. -/
  fc : FunctionCode
  deriving DecidableEq, Inhabited

namespace BusCycle

/-- The word that describes the cycle in a long exception frame: bit 4 for a
read, bit 3 for anything but an instruction fetch, and the function code. -/
def accessWord (cycle : BusCycle) : UInt16 :=
  let kind : UInt16 := match cycle.access with
    | .read => 0x18
    | .write => 0x08
    | .fetch => 0x10
  kind ||| cycle.fc.bits.toUInt16

/-- The cycle as messages show it. -/
def text (cycle : BusCycle) : String :=
  cycle.access.verb ++ " at " ++ hex 8 cycle.addr.toNat ++ " (" ++ cycle.fc.name ++ ")"

end BusCycle

end Cpu68k
