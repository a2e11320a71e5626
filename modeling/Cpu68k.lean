import Cpu68k.Main
import Cpu68k.Operation.Slots
import Cpu68k.RunState.Json
import Cpu68k.Proofs.Computation
import Cpu68k.Proofs.Registers
import Cpu68k.Proofs.Regions
import Cpu68k.Proofs.Memory
import Cpu68k.Proofs.Footprint
import Cpu68k.Proofs.Decoding
import Cpu68k.Proofs.Fetching
import Cpu68k.Proofs.Resolution
import Cpu68k.Proofs.Alterations
import Cpu68k.Proofs.ResolvedOperation
import Cpu68k.Proofs.Cycle
import Cpu68k.Proofs.Stacking
import Cpu68k.Proofs.ExceptionReturn
import Cpu68k.Proofs.Stepping
import Cpu68k.Proofs.Containment
import Cpu68k.Proofs.HostCalls
import Cpu68k.Proofs.Transitions
import Cpu68k.Proofs.Runs
import Cpu68k.Proofs.Architecture
import Cpu68k.Proofs.Likeness
import Cpu68k.Proofs.VectorTable
import Cpu68k.Proofs.Precision
import Cpu68k.Proofs.Privilege
import Cpu68k.Proofs.ProgramCounter
import Cpu68k.Proofs.Bytes
import Cpu68k.Proofs.FrameLayout
import Cpu68k.Proofs.Microcode
import Cpu68k.Proofs.SlotAccess
import Cpu68k.Proofs.ListedOperation
import Cpu68k.Proofs.Legality
import Cpu68k.Proofs.MoveSource
import Cpu68k.Proofs.StatusEffects
import Cpu68k.Proofs.Careful
import Cpu68k.Proofs.Residue
import Cpu68k.Proofs.Lifetime
import Cpu68k.Proofs.Stores
import Cpu68k.Proofs.HostLikeness
import Cpu68k.Proofs.Interchange
import Cpu68k.Proofs.SupervisorRegisters
import Cpu68k.Proofs.Encodings
import Cpu68k.Proofs.ExactArithmetic
import Cpu68k.Proofs.EffectiveAddress
import Cpu68k.Proofs.TwoOperands
import Cpu68k.Proofs.ExtensionWords
import Cpu68k.Proofs.Synonyms
import Cpu68k.Proofs.Lookup
import Cpu68k.Proofs.Placement
import Cpu68k.Proofs.Comparisons
import Cpu68k.Proofs.Translation
import Cpu68k.Proofs.DataAccess
import Cpu68k.Proofs.ActiveStack
import Cpu68k.Proofs.NestedFrames
import Cpu68k.Proofs.AlternateBytes
import Cpu68k.Proofs.CountedLoops
import Cpu68k.Proofs.Paths
import Cpu68k.Proofs.Booting
