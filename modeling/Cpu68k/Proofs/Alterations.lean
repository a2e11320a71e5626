import Cpu68k.Proofs.Footprint
import Cpu68k.Proofs.Registers
import Mathlib.Logic.Relation

/-!
# The parts of a machine that an operation alters

Every effect of an operation is a chain of elementary alterations, each of which
belongs to one part of the machine: the data registers, the address registers, the
program counter, the condition codes, the whole status word, one control register,
the memory or the run state. `Operation.parts` lists the parts of an operation, and
`acts` shows that its chain stays within them wherever it ends. So a law that the
alterations of these parts keep holds of the operation.
-/

namespace Cpu68k

open Relation (ReflTransGen)

/-- The parts of a machine. -/
inductive Part
  /-- The data registers. -/
  | data
  /-- The address registers, with the active stack pointer. -/
  | address
  /-- The program counter. -/
  | pc
  /-- The condition codes. -/
  | codes
  /-- The whole status word. -/
  | status
  /-- A control register. -/
  | control (c : ControlRegister)
  /-- The memory. -/
  | memory
  /-- The run state. -/
  | state
  deriving DecidableEq

/-- Whether only the instructions of the supervisor alter the part. -/
def Part.isSystem : Part → Bool
  | status | control _ => true
  | _ => false

/-- An elementary alteration of a part. Memory is written where the current mode may
write. -/
inductive Machine.Alters (m : Machine) : Part → Machine → Prop
  | data (n : Fin 8) (value : UInt32) :
    Alters m .data { m with registers := m.registers.setDataReg n value }
  | addr (n : Fin 8) (value : UInt32) :
    Alters m .address { m with registers := m.registers.setAddrReg n value }
  | pc (pc : UInt32) : Alters m .pc { m with registers := { m.registers with pc := pc } }
  | codes {sr : Status} (h : m.registers.sr.Recoded sr) :
    Alters m .codes { m with registers := { m.registers with sr := sr } }
  | status (value : UInt16) :
    Alters m .status { m with registers := m.registers.setStatus value m.chip.statusMask }
  | control (c : ControlRegister) (value : UInt32) :
    Alters m (.control c) { m with registers := c.write m.registers value }
  | store {addr : UInt32} {size : Size} {spot : Spot} (value : UInt32)
    (h : m.space.locate addr size.bytes m.dataSpace .write = .ok spot) :
    Alters m .memory { m with space := m.space.setNumberAt spot size.bytes.toNat value }
  | stop : Alters m .state { m with state := .stopped }
  | breakpoint (n : Fin 8) : Alters m .state { m with state := .breakpoint n.val.toUInt8 }

/-- An alteration of one of the parts. -/
def Machine.AltersOne (parts : Part → Prop) (m m' : Machine) : Prop :=
  ∃ part, parts part ∧ m.Alters part m'

/-- A chain of alterations of some parts. -/
abbrev Machine.AltersBy (parts : Part → Prop) : Machine → Machine → Prop :=
  ReflTransGen (Machine.AltersOne parts)

/-! ### The parts of an operation -/

/-- The part to which a register belongs. -/
def Register.part : Register → Part
  | data _ => .data
  | addr _ => .address

/-- The part to which a place belongs. -/
def Place.part : Place → Part
  | dataReg _ => .data
  | addrReg _ => .address
  | memory _ => .memory

/-- The parts of the machine that an operation may alter. -/
def Operation.parts (chip : Chip) : Operation → List Part
  | nop | illegal | reset | trapV | trap _ => []
  | rte => [.address, .status, .pc]
  | rts | rtd _ => [.address, .pc]
  | rtr => [.address, .codes, .pc]
  | stop _ => [.status, .state]
  | breakpoint _ => [.state]
  | moveQuick _ _ | swap _ | extend _ _ => [.data, .codes]
  | exchange x y => [x.part, y.part]
  | link _ _ | pushAddress _ => [.memory, .address]
  | unlink _ | moveFromUsp _ | loadAddress _ _ | moveAddress _ _ _ | arithAddress _ _ _ _ =>
    [.address]
  | moveToUsp _ => [.control .usp]
  | movepToMemory _ _ _ => [.memory]
  | movepFromMemory _ _ _ => [.data]
  | branch _ _ | jump _ => [.pc]
  | decrementBranch _ _ _ => [.data, .pc]
  | call _ => [.memory, .address, .pc]
  | setOnTest _ dst | moveFromSr dst | moveFromCcr dst => [dst.part]
  | move _ _ dst | clear _ dst | negate _ dst | complement _ dst | binary _ _ _ dst =>
    [dst.part, .codes]
  | test _ _ | compare _ _ _ | compareAddress _ _ _ | moveToCcr _ | logicToCcr _ _ => [.codes]
  | moveToSr _ | logicToSr _ _ => [.status]
  | moveFromControl _ dst => [dst.part]
  | moveToControl code _ => (ControlRegister.ofCode? chip code).toList.map .control

/-- The operations that alter parts of the supervisor. -/
def Operation.isSystem : Operation → Bool
  | rte | stop _ | moveToUsp _ | moveToSr _ | logicToSr _ _ | moveToControl _ _ => true
  | _ => false

/-- No numbered register is part of the supervisor's state. -/
theorem Register.isSystem_part (x : Register) : x.part.isSystem = false := by
  cases x <;> rfl

/-- No place is part of the supervisor's state. -/
theorem Place.isSystem_part (p : Place) : p.part.isSystem = false := by
  cases p <;> rfl

/-- Only the operations of the supervisor have a part of the supervisor. -/
theorem Operation.isSystem_of_mem_parts {op : Operation} {chip : Chip} {part : Part}
    (hpart : part ∈ op.parts chip) (hsystem : part.isSystem = true) : op.isSystem = true := by
  have huser {part' : Part} (h : part'.isSystem = false) (heq : part = part') : False := by
    rw [heq, h] at hsystem
    cases hsystem
  cases op with
  | rte | stop | moveToUsp | moveToSr | logicToSr | moveToControl => rfl
  | nop | illegal | reset | trapV | trap => cases hpart
  | exchange x y =>
    simp only [parts, List.mem_cons, List.not_mem_nil, or_false] at hpart
    exact (hpart.elim (huser x.isSystem_part) (huser y.isSystem_part)).elim
  | moveFromControl code dst =>
    exact (huser dst.isSystem_part (List.mem_singleton.1 hpart)).elim
  | setOnTest _ dst | moveFromSr dst | moveFromCcr dst =>
    exact (huser dst.isSystem_part (List.mem_singleton.1 hpart)).elim
  | move _ _ dst | clear _ dst | negate _ dst | complement _ dst | binary _ _ _ dst =>
    simp only [parts, List.mem_cons, List.not_mem_nil, or_false] at hpart
    exact (hpart.elim (huser dst.isSystem_part) (huser rfl)).elim
  | _ =>
    simp only [parts, List.mem_cons, List.not_mem_nil, or_false] at hpart
    grind [Part.isSystem]

/-! ### Chains -/

variable {parts parts' : Part → Prop} {m m' m'' : Machine} {part : Part}

namespace Machine

/-- One alteration is a chain. -/
theorem AltersBy.of (hpart : parts part) (h : m.Alters part m') : AltersBy parts m m' :=
  .single ⟨part, hpart, h⟩

/-- Another link of a chain. -/
theorem AltersBy.link (hchain : AltersBy parts m m') (hpart : parts part)
    (h : m'.Alters part m'') : AltersBy parts m m'' :=
  hchain.tail ⟨part, hpart, h⟩

/-- A chain of some parts is one of more parts. -/
theorem AltersBy.mono (hparts : ∀ part, parts part → parts' part) (h : AltersBy parts m m') :
    AltersBy parts' m m' :=
  h.lift id fun _ _ ⟨part, hpart, halters⟩ => ⟨part, hparts part hpart, halters⟩

/-- A property that every alteration of the parts keeps is one of the whole chain. -/
theorem AltersBy.keeps {P : Machine → Prop}
    (hkeeps : ∀ {part m m'}, parts part → m.Alters part m' → P m → P m')
    (h : AltersBy parts m m') (hm : P m) : P m' := by
  induction h with
  | refl => exact hm
  | tail _ hlast ih =>
    obtain ⟨part, hpart, halters⟩ := hlast
    exact hkeeps hpart halters ih

end Machine

/-! ### Accesses -/

/-- A change of registers is a chain if it is one from every machine. -/
theorem alters_modifyRegisters {f : RegisterFile → RegisterFile}
    (hf : ∀ m, Machine.AltersBy parts m { m with registers := f m.registers }) :
    Keeps (Machine.AltersBy parts) (modifyRegisters f) := hf

/-- Setting the program counter. -/
theorem alters_setPc (hpc : parts .pc) (pc : UInt32) :
    Keeps (Machine.AltersBy parts) (setPc pc) :=
  alters_modifyRegisters fun _ => .of hpc (.pc pc)

/-- Replacing the condition codes. -/
theorem alters_recode (hcodes : parts .codes) {f : RegisterFile → Status}
    (hf : ∀ r : RegisterFile, r.sr.Recoded (f r)) :
    Keeps (Machine.AltersBy parts) (modifyRegisters fun r => { r with sr := f r }) :=
  alters_modifyRegisters fun m => .of hcodes (.codes (hf m.registers))

/-- Setting the condition codes of a logical result. -/
theorem alters_setLogical (hcodes : parts .codes) (value : UInt32) (size : Size) :
    Keeps (Machine.AltersBy parts) (setLogical value size) :=
  alters_recode hcodes fun r => r.sr.recoded_logical value size

/-- Loading the condition codes. -/
theorem alters_setCcr (hcodes : parts .codes) (f : RegisterFile → UInt8) :
    Keeps (Machine.AltersBy parts) (modifyRegisters fun r => r.setCcr (f r)) :=
  alters_modifyRegisters fun m => .of hcodes (.codes (m.registers.recoded_setCcr _))

/-- Setting a data register. -/
theorem alters_setDataReg (hdata : parts .data) (n : Fin 8) (f : RegisterFile → UInt32) :
    Keeps (Machine.AltersBy parts) (modifyRegisters fun r => r.setDataReg n (f r)) :=
  alters_modifyRegisters fun _ => .of hdata (.data n _)

/-- Setting an address register. -/
theorem alters_setAddrReg (haddress : parts .address) (n : Fin 8) (f : RegisterFile → UInt32) :
    Keeps (Machine.AltersBy parts) (modifyRegisters fun r => r.setAddrReg n (f r)) :=
  alters_modifyRegisters fun _ => .of haddress (.addr n _)

/-- Writing to memory. -/
theorem alters_writeData (hmemory : parts .memory) (addr : UInt32) (size : Size)
    (value : UInt32) : Keeps (Machine.AltersBy parts) (writeData addr size value) := by
  intro m
  refine ends_writeData.mono (fun _ m' h => ?_) fun a m' h => ?_
  · obtain ⟨spot, -, hlocate, rfl⟩ := h
    exact .of hmemory (.store value hlocate)
  · obtain ⟨rfl, hfault⟩ := h
    exact ⟨.refl, hfault⟩

/-- Writing a place alters the part to which it belongs. -/
theorem alters_placeWrite {p : Place} (hpart : parts p.part) (size : Size) (value : UInt32) :
    Keeps (Machine.AltersBy parts) (p.write size value) := by
  cases p with
  | dataReg n => exact alters_setDataReg hpart n fun r => size.merge (r.dataReg n) value
  | addrReg n => exact alters_setAddrReg hpart n fun _ => value
  | memory addr => exact alters_writeData hpart addr size value

/-- Pushing alters the memory and a stack pointer. -/
theorem alters_push (hmemory : parts .memory) (haddress : parts .address) (size : Size)
    (value : UInt32) : Keeps (Machine.AltersBy parts) (push size value) := by
  unfold push
  simp only [RegisterFile.setActiveSp_eq]
  exact keeps_get.bind fun m => (alters_writeData hmemory _ _ _).bind fun _ =>
    alters_setAddrReg haddress 7 _

/-- Popping alters a stack pointer. -/
theorem alters_pop (haddress : parts .address) (size : Size) :
    Keeps (Machine.AltersBy parts) (pop size) := by
  unfold pop
  simp only [RegisterFile.setActiveSp_eq]
  exact keeps_get.bind fun m => (keeps_readData _ _).bind fun _ =>
    (alters_setAddrReg haddress 7 _).bind fun _ => keeps_pure _

/-- Storing bytes at every other address. -/
theorem alters_storeAlternate (hmemory : parts .memory) (addr : UInt32) (bs : List UInt32) :
    Keeps (Machine.AltersBy parts) (storeAlternate addr bs) := by
  induction bs generalizing addr with
  | nil => exact keeps_pure _
  | cons b bs ih => exact (alters_writeData hmemory _ _ _).bind fun _ => ih _

/-- Extending a data register alters it and the condition codes. -/
theorem alters_widen (hdata : parts .data) (hcodes : parts .codes) (n : Fin 8)
    (source result : Size) : Keeps (Machine.AltersBy parts) (widen n source result) :=
  keeps_get.bind fun _ => (alters_placeWrite (p := .dataReg n) hdata _ _).bind fun _ =>
    alters_setLogical hcodes _ _

/-- Linking a frame alters the memory and address registers. -/
theorem alters_linkFrame (hmemory : parts .memory) (haddress : parts .address) (n : Fin 8)
    (distance : UInt32) : Keeps (Machine.AltersBy parts) (linkFrame n distance) := by
  unfold linkFrame
  simp only [RegisterFile.setActiveSp_eq]
  exact keeps_get.bind fun _ => (alters_writeData hmemory _ _ _).bind fun _ =>
    alters_modifyRegisters fun _ => (Machine.AltersBy.of haddress (.addr n _)).link haddress
      (.addr 7 _)

/-- Unlinking a frame alters address registers. -/
theorem alters_unlinkFrame (haddress : parts .address) (n : Fin 8) :
    Keeps (Machine.AltersBy parts) (unlinkFrame n) := by
  unfold unlinkFrame
  simp only [RegisterFile.setActiveSp_eq]
  exact keeps_get.bind fun _ => (keeps_readData _ _).bind fun _ =>
    alters_modifyRegisters fun _ => (Machine.AltersBy.of haddress (.addr 7 _)).link haddress
      (.addr n _)

/-- Writing a place leaves the status word alone. -/
theorem ends_placeWrite (p : Place) (size : Size) (value : UInt32) : Ends (p.write size value) m
    (fun _ m' => m'.registers.sr = m.registers.sr) fun _ _ => True := by
  cases p with
  | dataReg n => exact rfl
  | addrReg n => exact RegisterFile.sr_setAddrReg _ _ _
  | memory addr =>
    refine ends_writeData.mono_ok fun _ m' h => ?_
    obtain ⟨spot, -, -, rfl⟩ := h
    rfl

/-- A result is written and then the condition codes that were computed before. -/
theorem alters_placeWrite_status {p : Place} (hpart : parts p.part) (hcodes : parts .codes)
    (size : Size) (value : UInt32) {sr : Status} (hsr : m.registers.sr.Recoded sr) :
    Ends (p.write size value >>= fun _ => setStatusWord sr) m
      (fun _ m' => Machine.AltersBy parts m m')
      fun a m' => Machine.AltersBy parts m m' ∧ a.fault.cycle?.isSome := by
  rw [ends_bind]
  refine ((alters_placeWrite hpart size value m).and (ends_placeWrite p size value)).mono
    (fun _ m' h => ?_) fun a m' h => h.1
  obtain ⟨hchain, hsame⟩ := h
  rw [ends_setStatusWord]
  rw [← hsame] at hsr
  exact hchain.link hcodes (.codes hsr)

/-! ### Operations -/

/-- The faults that an operation itself raises, as opposed to its accesses. -/
def Operation.Raises (m : Machine) : Operation → Fault → Prop
  | illegal, fault => fault = .illegalInstruction
  | trapV, fault => fault = .trapV ∧ m.registers.sr.has Status.overflow = true
  | trap n, fault => fault = .trap n.val.toUInt8
  | rte, fault => fault = .formatError
  | moveFromControl code _, fault | moveToControl code _, fault =>
    fault = .illegalInstruction ∧ ControlRegister.ofCode? m.chip code = none
  | _, _ => False

/-- What an operation does: it alters its parts, or fails after some of that at an
access, or raises a fault of its own and alters nothing. -/
def Operation.Acts (op : Operation) (m : Machine) : Prop :=
  Ends op.effect m (fun _ m' => Machine.AltersBy (· ∈ op.parts m.chip) m m')
    fun a m' => Machine.AltersBy (· ∈ op.parts m.chip) m m' ∧ a.fault.cycle?.isSome ∨
      m' = m ∧ op.Raises m a.fault

/-- An operation that raises no fault of its own. -/
theorem Keeps.acts {op : Operation}
    (h : Keeps (Machine.AltersBy (· ∈ op.parts m.chip)) op.effect) : op.Acts m :=
  (h m).mono (fun _ _ h => h) fun _ _ h => .inl h

/-- `TRAPV` alters nothing, and raises its fault if overflow is set. -/
theorem acts_trapV (m : Machine) : Operation.trapV.Acts m := by
  unfold Operation.Acts Operation.effect
  rw [ends_bind, ends_get]
  by_cases hset : m.registers.sr.has Status.overflow = true
  · rw [if_pos hset, ends_raise]
    exact .inr ⟨rfl, rfl, hset⟩
  · rw [if_neg hset, ends_pure]

/-- Replacing the stack pointer, the status word and the program counter, as a return
from an exception does. -/
theorem alters_return (m : Machine) (sp pc : UInt32) (value : UInt16) :
    Machine.AltersBy (· ∈ Operation.rte.parts m.chip) m { m with registers :=
      { (m.registers.setActiveSp sp).setStatus value m.chip.statusMask with pc := pc } } := by
  rw [RegisterFile.setActiveSp_eq]
  exact ((Machine.AltersBy.of (by simp [Operation.parts]) (.addr 7 sp)).link
    (by simp [Operation.parts]) (.status value)).link (by simp [Operation.parts]) (.pc pc)

/-- A return from an exception alters its parts once it has read all of its frame. -/
theorem acts_rte (m : Machine) : Operation.rte.Acts m := by
  unfold Operation.Acts Operation.effect returnFromException
  have herror {a : Abort} {m' : Machine} (h : m' = m ∧ a.fault.cycle?.isSome) :
      Machine.AltersBy (· ∈ Operation.rte.parts m.chip) m m' ∧ a.fault.cycle?.isSome ∨
        m' = m ∧ Operation.rte.Raises m a.fault := by
    obtain ⟨rfl, hfault⟩ := h
    exact .inl ⟨.refl, hfault⟩
  rw [ends_bind, ends_get]
  dsimp only
  rw [ends_bind]
  refine ends_readData_unchanged.mono (fun sr m' h => ?_) fun a m' h => herror h
  subst h
  rw [ends_bind]
  refine ends_readData_unchanged.mono (fun pc m' h => ?_) fun a m' h => herror h
  subst h
  split
  · rw [ends_bind]
    refine ends_readData_unchanged.mono (fun word m' h => ?_) fun a m' h => herror h
    subst h
    cases frameLength? word with
    | some length => exact alters_return _ _ _ _
    | none => exact .inr ⟨rfl, rfl⟩
  · exact alters_return _ _ _ _

/-- Looking up a control register changes nothing. -/
theorem controlRegister_eq (code : UInt16) (m : Machine) :
    controlRegister code m = match ControlRegister.ofCode? m.chip code with
      | some c => .ok c m
      | none => .error ⟨.illegalInstruction, none⟩ m := by
  change (match ControlRegister.ofCode? m.chip code with
    | some c => return c
    | none => raise .illegalInstruction : Exec ControlRegister) m = _
  cases ControlRegister.ofCode? m.chip code <;> rfl

/-- What a move from or to a control register does depends on whether it exists. -/
theorem ends_controlRegister {code : UInt16} {Q : ControlRegister → Machine → Prop}
    {E : Abort → Machine → Prop} : Ends (controlRegister code) m Q E ↔
      match ControlRegister.ofCode? m.chip code with
      | some c => Q c m
      | none => E ⟨.illegalInstruction, none⟩ m := by
  unfold Ends
  rw [controlRegister_eq]
  cases ControlRegister.ofCode? m.chip code <;> rfl

/-- An operation on two operands alters its destination and the condition codes. -/
theorem alters_binary (op : Binary) (size : Size) (src : Operand) {dst : Place}
    (hpart : parts dst.part) (hcodes : parts .codes) :
    Keeps (Machine.AltersBy parts) (Operation.binary op size src dst).effect := by
  refine (keeps_operandRead src size).bind fun x => (keeps_placeRead dst size).bind fun y => ?_
  exact keeps_get_bind fun m =>
    alters_placeWrite_status hpart hcodes size _ (m.registers.sr.recoded_apply ..)

/-- A negation alters its destination and the condition codes. -/
theorem alters_negate (size : Size) {dst : Place} (hpart : parts dst.part)
    (hcodes : parts .codes) :
    Keeps (Machine.AltersBy parts) (Operation.negate size dst).effect := by
  refine (keeps_placeRead dst size).bind fun value => ?_
  exact keeps_get_bind fun m =>
    alters_placeWrite_status hpart hcodes size _ (m.registers.sr.recoded_arithmetic ..)

/-- A comparison alters the condition codes. -/
theorem alters_compare (size : Size) (src dst : Operand) (hcodes : parts .codes) :
    Keeps (Machine.AltersBy parts) (Operation.compare size src dst).effect := by
  refine (keeps_operandRead src size).bind fun x => (keeps_operandRead dst size).bind fun y => ?_
  exact alters_recode hcodes fun r => Status.recoded_compareStatus x y size r.sr

/-- A comparison with an address register alters the condition codes. -/
theorem alters_compareAddress (size : Size) (src : Operand) (n : Fin 8) (hcodes : parts .codes) :
    Keeps (Machine.AltersBy parts) (Operation.compareAddress size src n).effect := by
  refine (keeps_operandRead src size).bind fun x => ?_
  exact alters_recode hcodes fun r =>
    Status.recoded_compareStatus (size.signExtend x) (r.addrReg n) .long r.sr

/-- A decrement and branch alters its counter and the program counter. -/
theorem alters_decrementBranch (test : Test) (n : Fin 8) (target : UInt32) (hdata : parts .data)
    (hpc : parts .pc) :
    Keeps (Machine.AltersBy parts) (Operation.decrementBranch test n target).effect := by
  refine keeps_get.bind fun m => ?_
  dsimp only
  split
  · refine (alters_placeWrite (p := .dataReg n) hdata _ _).bind fun _ => ?_
    split
    · exact alters_setPc hpc target
    · exact keeps_pure _
  · exact keeps_pure _

/-- `STOP` loads the status word before it stops. -/
theorem acts_stop (sr : UInt16) (m : Machine) : (Operation.stop sr).Acts m := by
  unfold Operation.Acts Operation.effect
  rw [ends_bind, ends_get]
  dsimp only
  rw [ends_bind, ends_modifyRegisters, ends_setState]
  exact (Machine.AltersBy.of (by simp [Operation.parts]) (.status sr)).link
    (by simp [Operation.parts]) .stop

/-- Moving to the status word alters nothing else. -/
theorem acts_moveToSr (src : Operand) (m : Machine) : (Operation.moveToSr src).Acts m := by
  refine Keeps.acts ((keeps_operandRead src .word).bind fun value => keeps_get_bind fun m => ?_)
  exact .of (by simp [Operation.parts]) (.status value.toUInt16)

/-- Logic on the status word alters nothing else. -/
theorem acts_logicToSr (op : Logic) (value : UInt16) (m : Machine) :
    (Operation.logicToSr op value).Acts m := by
  unfold Operation.Acts Operation.effect
  rw [ends_bind, ends_get]
  dsimp only
  rw [ends_modifyRegisters]
  exact .of (by simp [Operation.parts]) (.status _)

/-- Setting a numbered register alters the part to which it belongs. -/
theorem alters_setRegister {x : Register} (hpart : parts x.part) (value : UInt32) :
    Machine.AltersBy parts m { m with registers := m.registers.set x value } := by
  cases x with
  | data n => exact .of hpart (.data n value)
  | addr n => exact .of hpart (.addr n value)

/-- Reading a control register that the chip does not have is illegal. -/
theorem acts_moveFromControl (code : UInt16) (dst : Register) (m : Machine) :
    (Operation.moveFromControl code dst).Acts m := by
  unfold Operation.Acts Operation.effect
  rw [ends_bind, ends_controlRegister]
  cases hcode : ControlRegister.ofCode? m.chip code with
  | none => exact .inr ⟨rfl, rfl, hcode⟩
  | some c => exact alters_setRegister (by simp [Operation.parts]) _

/-- Writing a control register that the chip does not have is illegal. -/
theorem acts_moveToControl (code : UInt16) (src : Register) (m : Machine) :
    (Operation.moveToControl code src).Acts m := by
  unfold Operation.Acts Operation.effect
  rw [ends_bind, ends_controlRegister]
  cases hcode : ControlRegister.ofCode? m.chip code with
  | none => exact .inr ⟨rfl, rfl, hcode⟩
  | some c => exact .of (by simp [Operation.parts, hcode]) (.control c _)

/-- An exchange alters the parts of both registers. -/
theorem alters_exchange (x y : Register) (hx : parts x.part) (hy : parts y.part) :
    Keeps (Machine.AltersBy parts) (Operation.exchange x y).effect := by
  intro m
  have hfirst : Machine.AltersBy parts m
      { m with registers := m.registers.set x (m.registers.get y) } := alters_setRegister hx _
  exact hfirst.trans (alters_setRegister hy (m.registers.get x))

/-- `RTR` loads the condition codes and the program counter, and pops both. -/
theorem alters_rtr (haddress : parts .address) (hcodes : parts .codes) (hpc : parts .pc) :
    Keeps (Machine.AltersBy parts) Operation.rtr.effect := by
  refine (alters_pop haddress .word).bind fun ccr => (alters_pop haddress .long).bind fun pc => ?_
  exact alters_modifyRegisters fun m => (Machine.AltersBy.of hcodes
    (.codes (m.registers.recoded_setCcr ccr.toUInt8))).link hpc (.pc pc)

/-- `RTD` loads the program counter and moves the stack pointer twice. -/
theorem alters_rtd (distance : UInt32) (haddress : parts .address) (hpc : parts .pc) :
    Keeps (Machine.AltersBy parts) (Operation.rtd distance).effect := by
  refine (alters_pop haddress .long).bind fun pc => ?_
  simp only [RegisterFile.setActiveSp_eq]
  exact alters_modifyRegisters fun _ => (Machine.AltersBy.of haddress (.addr 7 _)).link hpc (.pc pc)

/-- Every operation alters its parts only, or raises a fault of its own. -/
theorem acts (op : Operation) (m : Machine) : op.Acts m := by
  have hfirst {part : Part} {rest : List Part} : part ∈ part :: rest := List.mem_cons_self
  have hsecond {part first : Part} {rest : List Part} : part ∈ first :: part :: rest :=
    List.mem_cons_of_mem _ hfirst
  have hthird {part first second : Part} {rest : List Part} :
      part ∈ first :: second :: part :: rest := List.mem_cons_of_mem _ hsecond
  cases op with
  | nop | reset => exact Keeps.acts (keeps_pure ())
  | illegal => exact .inr ⟨rfl, rfl⟩
  | trap n => exact .inr ⟨rfl, rfl⟩
  | trapV => exact acts_trapV m
  | rte => exact acts_rte m
  | stop sr => exact acts_stop sr m
  | moveToSr src => exact acts_moveToSr src m
  | logicToSr op value => exact acts_logicToSr op value m
  | moveFromControl code dst => exact acts_moveFromControl code dst m
  | moveToControl code src => exact acts_moveToControl code src m
  | moveToUsp n => exact .of hfirst (.control .usp _)
  | moveFromUsp n => exact Keeps.acts (alters_setAddrReg hfirst n _)
  | rts => exact Keeps.acts ((alters_pop hfirst .long).bind fun pc => alters_setPc hsecond pc)
  | rtr => exact Keeps.acts (alters_rtr hfirst hsecond hthird)
  | rtd distance => exact Keeps.acts (alters_rtd distance hfirst hsecond)
  | breakpoint n => exact .of hfirst (.breakpoint n)
  | exchange x y => exact Keeps.acts (alters_exchange x y hfirst hsecond)
  | swap n =>
    exact Keeps.acts (keeps_get.bind fun _ =>
      (alters_placeWrite (p := .dataReg n) hfirst _ _).bind fun _ => alters_setLogical hsecond _ _)
  | extend kind n => cases kind <;> exact Keeps.acts (alters_widen hfirst hsecond n _ _)
  | link n distance => exact Keeps.acts (alters_linkFrame hfirst hsecond n distance)
  | unlink n => exact Keeps.acts (alters_unlinkFrame hfirst n)
  | movepToMemory size data addr =>
    exact Keeps.acts (keeps_get.bind fun _ => alters_storeAlternate hfirst _ _)
  | movepFromMemory size data addr =>
    exact Keeps.acts ((keeps_loadAlternate _ _ _).bind fun _ =>
      alters_placeWrite (p := .dataReg data) hfirst _ _)
  | branch test target =>
    exact Keeps.acts (keeps_get.bind fun _ => (alters_setPc hfirst target).ite (keeps_pure ()))
  | decrementBranch test n target =>
    exact Keeps.acts (alters_decrementBranch test n target hfirst hsecond)
  | setOnTest test dst => exact Keeps.acts (keeps_get.bind fun _ => alters_placeWrite hfirst _ _)
  | jump target => exact Keeps.acts (alters_setPc hfirst target)
  | call target =>
    exact Keeps.acts (keeps_get.bind fun _ => (alters_push hfirst hsecond _ _).bind fun _ =>
      alters_setPc hthird _)
  | loadAddress addr n => exact Keeps.acts (alters_placeWrite (p := .addrReg n) hfirst .long addr)
  | pushAddress addr => exact Keeps.acts (alters_push hfirst hsecond _ _)
  | moveQuick value dst =>
    exact Keeps.acts ((alters_placeWrite (p := .dataReg dst) hfirst _ _).bind fun _ =>
      alters_setLogical hsecond _ _)
  | move size src dst =>
    exact Keeps.acts ((keeps_operandRead src size).bind fun _ =>
      (alters_placeWrite hfirst _ _).bind fun _ => alters_setLogical hsecond _ _)
  | moveAddress size src n =>
    exact Keeps.acts ((keeps_operandRead src size).bind fun _ =>
      alters_placeWrite (p := .addrReg n) hfirst _ _)
  | clear size dst =>
    exact Keeps.acts ((alters_placeWrite hfirst _ _).bind fun _ => alters_setLogical hsecond _ _)
  | negate size dst => exact Keeps.acts (alters_negate size hfirst hsecond)
  | complement size dst =>
    exact Keeps.acts ((keeps_placeRead dst size).bind fun _ =>
      (alters_placeWrite hfirst _ _).bind fun _ => alters_setLogical hsecond _ _)
  | test size src =>
    exact Keeps.acts ((keeps_operandRead src size).bind fun _ => alters_setLogical hfirst _ _)
  | moveFromSr dst | moveFromCcr dst =>
    exact Keeps.acts (keeps_get.bind fun _ => alters_placeWrite hfirst _ _)
  | moveToCcr src =>
    exact Keeps.acts ((keeps_operandRead src .word).bind fun value =>
      alters_setCcr hfirst fun _ => value.toUInt8)
  | logicToCcr op value =>
    exact Keeps.acts (alters_setCcr hfirst fun r => (op.onStatus r.ccr.toUInt16 value).toUInt8)
  | binary op size src dst => exact Keeps.acts (alters_binary op size src hfirst hsecond)
  | arithAddress op size src n =>
    exact Keeps.acts ((keeps_operandRead src size).bind fun _ => alters_setAddrReg hfirst n _)
  | compare size src dst => exact Keeps.acts (alters_compare size src dst hfirst)
  | compareAddress size src n => exact Keeps.acts (alters_compareAddress size src n hfirst)

/-- An operation that succeeds keeps what every alteration of its parts keeps. -/
theorem effect_keeps {P : Machine → Prop} (op : Operation) (hP : ∀ {part m₁ m₂},
      part ∈ op.parts m.chip → Machine.Alters m₁ part m₂ → P m₁ → P m₂) (hm : P m) :
    Ends op.effect m (fun _ m' => P m') fun _ _ => True :=
  (acts op m).mono_ok fun _ _ hchain => hchain.keeps hP hm

end Cpu68k
