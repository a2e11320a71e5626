import Cpu68k.Proofs.Alterations

/-!
# The operations of an instruction

Resolving keeps the kind of every operand: a register stays that register, a mode
that names an address becomes a place in memory. `Instruction.Gives` says which
operations an instruction can become, whatever its extension words are, so facts
about instructions carry over to their operations.
-/

namespace Cpu68k

/-- The places that a target can name. -/
inductive Target.Gives : Target → Place → Prop
  | dataReg (n : Fin 8) : Gives (.dataReg n) (.dataReg n)
  | addrReg (n : Fin 8) : Gives (.addrReg n) (.addrReg n)
  | postIncrement (n : Fin 8) (addr : UInt32) : Gives (.postIncrement n) (.memory addr)
  | preDecrement (n : Fin 8) (addr : UInt32) : Gives (.preDecrement n) (.memory addr)
  | pointer (p : Pointer) (addr : UInt32) : Gives (.pointer p) (.memory addr)

/-- The operands that a mode can name. -/
inductive Mode.Gives : Mode → Operand → Prop
  | target {t : Target} {p : Place} (h : t.Gives p) : Gives (.target t) (.place p)
  | relative (r : Relative) (addr : UInt32) : Gives (.relative r) (.program addr)
  | immediate (value : UInt32) : Gives .immediate (.constant value)

/-- The operations that an instruction can become. -/
inductive Instruction.Gives : Instruction → Operation → Prop
  | nop : Gives .nop .nop
  | illegal : Gives .illegal .illegal
  | reset : Gives .reset .reset
  | trapV : Gives .trapV .trapV
  | rte : Gives .rte .rte
  | rts : Gives .rts .rts
  | rtr : Gives .rtr .rtr
  | rtd (value) : Gives .rtd (.rtd (Size.word.signExtend value))
  | stop (sr) : Gives .stop (.stop sr)
  | trap (n) : Gives (.trap n) (.trap n)
  | breakpoint (n) : Gives (.breakpoint n) (.breakpoint n)
  | moveQuick (value dst) : Gives (.moveQuick value dst) (.moveQuick value dst)
  | exchange (x y) : Gives (.exchange x y) (.exchange x y)
  | swap (n) : Gives (.swap n) (.swap n)
  | extend (kind n) : Gives (.extend kind n) (.extend kind n)
  | link (n distance) : Gives (.link n) (.link n distance)
  | linkLong (n distance) : Gives (.linkLong n) (.link n distance)
  | unlink (n) : Gives (.unlink n) (.unlink n)
  | moveToUsp (n) : Gives (.moveToUsp n) (.moveToUsp n)
  | moveFromUsp (n) : Gives (.moveFromUsp n) (.moveFromUsp n)
  | movepToMemory (size data n addr) :
    Gives (.movepToMemory size data n) (.movepToMemory size data addr)
  | movepFromMemory (size data n addr) :
    Gives (.movepFromMemory size data n) (.movepFromMemory size data addr)
  | branch (test distance target) : Gives (.branch test distance) (.branch test target)
  | branchSubroutine (distance target) : Gives (.branchSubroutine distance) (.call target)
  | decrementBranch (test n target) :
    Gives (.decrementBranch test n) (.decrementBranch test n target)
  | setOnTest (test) {t p} (h : t.Gives p) : Gives (.setOnTest test t) (.setOnTest test p)
  | jump (c target) : Gives (.jump c) (.jump target)
  | jumpSubroutine (c target) : Gives (.jumpSubroutine c) (.call target)
  | loadAddress (c n addr) : Gives (.loadAddress c n) (.loadAddress addr n)
  | pushAddress (c addr) : Gives (.pushAddress c) (.pushAddress addr)
  | move (size) {src o t p} (hsrc : src.Gives o) (hdst : t.Gives p) :
    Gives (.move size src t) (.move size o p)
  | moveAddress (size n) {src o} (h : src.Gives o) :
    Gives (.moveAddress size src n) (.moveAddress size o n)
  | clear (size) {t p} (h : t.Gives p) : Gives (.clear size t) (.clear size p)
  | negate (size) {t p} (h : t.Gives p) : Gives (.negate size t) (.negate size p)
  | complement (size) {t p} (h : t.Gives p) : Gives (.complement size t) (.complement size p)
  | test (size) {src o} (h : src.Gives o) : Gives (.test size src) (.test size o)
  | moveFromSr {t p} (h : t.Gives p) : Gives (.moveFromSr t) (.moveFromSr p)
  | moveFromCcr {t p} (h : t.Gives p) : Gives (.moveFromCcr t) (.moveFromCcr p)
  | moveToCcr {src o} (h : src.Gives o) : Gives (.moveToCcr src) (.moveToCcr o)
  | moveToSr {src o} (h : src.Gives o) : Gives (.moveToSr src) (.moveToSr o)
  | logicToCcr (op value) : Gives (.logicToCcr op) (.logicToCcr op value)
  | logicToSr (op value) : Gives (.logicToSr op) (.logicToSr op value)
  | moveFromControl (code dst) : Gives .moveFromControl (.moveFromControl code dst)
  | moveToControl (code src) : Gives .moveToControl (.moveToControl code src)
  | quickAddress (op size value n) :
    Gives (.quick op size value (.addrReg n)) (.arithAddress op size (.constant value) n)
  | quick (op size value) {t p} (h : t.Gives p) (hdata : t.isData = true) :
    Gives (.quick op size value t) (.binary (.arith op) size (.constant value) p)
  | toRegister (op size n) {src o} (h : src.Gives o) :
    Gives (.toRegister op size src n) (.binary op size o (.dataReg n))
  | fromRegister (op size n) {t p} (h : t.Gives p) :
    Gives (.fromRegister op size n t) (.binary op size (.place (.dataReg n)) p)
  | immediate (op size value) {t p} (h : t.Gives p) :
    Gives (.immediate op size t) (.binary op size (.constant value) p)
  | toAddress (op size n) {src o} (h : src.Gives o) :
    Gives (.toAddress op size src n) (.arithAddress op size o n)
  | compare (size n) {src o} (h : src.Gives o) :
    Gives (.compare size src n) (.compare size o (.place (.dataReg n)))
  | compareImmediate (size value) {src o} (h : src.Gives o) :
    Gives (.compareImmediate size src) (.compare size (.constant value) o)
  | compareAddress (size n) {src o} (h : src.Gives o) :
    Gives (.compareAddress size src n) (.compareAddress size o n)

/-- Every value that the computation ends with satisfies `P`. -/
def Yields {α : Type} (x : Exec α) (P : α → Prop) : Prop :=
  ∀ m, Ends x m (fun a _ => P a) fun _ _ => True

variable {α β : Type} {x : Exec α} {f : α → Exec β}

/-- A value by itself. -/
theorem yields_pure {P : α → Prop} {a : α} (h : P a) : Yields (pure a) P := fun _ => h

/-- What a sequence yields is what its last part yields. -/
theorem Yields.bind {P : α → Prop} {Q : β → Prop} (hx : Yields x P)
    (hf : ∀ a, P a → Yields (f a) Q) : Yields (x >>= f) Q :=
  fun m => ends_bind.2 ((hx m).mono (fun a m' h => hf a h m') fun _ _ h => h)

/-- What comes after a computation may not depend on what it yields. -/
theorem yields_bind {Q : β → Prop} (hf : ∀ a, Yields (f a) Q) : Yields (x >>= f) Q :=
  Yields.bind (P := fun _ => True) (fun _ => ends_of (fun _ _ _ => trivial) fun _ _ _ => trivial)
    fun a _ => hf a

/-- A function all of whose values satisfy a property. -/
theorem yields_map {Q : β → Prop} {g : α → β} (h : ∀ a, Q (g a)) :
    Yields (x >>= fun a => pure (g a)) Q :=
  yields_bind fun a => yields_pure (h a)

/-- A function of the value that is yielded. -/
theorem Yields.map {P : α → Prop} {Q : β → Prop} {g : α → β} (hx : Yields x P)
    (h : ∀ a, P a → Q (g a)) : Yields (x >>= fun a => pure (g a)) Q :=
  hx.bind fun a ha => yields_pure (h a ha)

/-- Resolving a target yields a place that it names. -/
theorem yields_target (t : Target) (size : Size) : Yields (t.resolve size) t.Gives := by
  cases t with
  | dataReg n => exact yields_pure (.dataReg n)
  | addrReg n => exact yields_pure (.addrReg n)
  | postIncrement n => exact yields_bind fun _ => yields_map fun _ => .postIncrement n _
  | preDecrement n => exact yields_bind fun _ => yields_map fun _ => .preDecrement n _
  | pointer p => exact yields_map fun addr => .pointer p addr

/-- Resolving a mode yields an operand that it names. -/
theorem yields_mode (mode : Mode) (size : Size) : Yields (mode.resolve size) mode.Gives := by
  cases mode with
  | target t => exact (yields_target t size).map fun _ h => .target h
  | relative r => exact yields_map fun addr => .relative r addr
  | immediate => exact yields_map fun value => .immediate value

/-- A quick operation becomes one on its target, in a form of its own for address registers. -/
theorem yields_quick (op : Arith) (size : Size) (value : UInt32) (t : Target) :
    Yields (Instruction.quick op size value t).resolve
      (Instruction.quick op size value t).Gives := by
  refine (yields_target t size).bind fun place h => ?_
  cases h with
  | addrReg n => exact yields_pure (.quickAddress op size value n)
  | dataReg n => exact yields_pure (.quick op size value (.dataReg n) rfl)
  | postIncrement n addr => exact yields_pure (.quick op size value (.postIncrement n addr) rfl)
  | preDecrement n addr => exact yields_pure (.quick op size value (.preDecrement n addr) rfl)
  | pointer p addr => exact yields_pure (.quick op size value (.pointer p addr) rfl)

/-- A distance is a word with its sign. -/
theorem yields_fetchDistance :
    Yields fetchDistance fun distance => ∃ value, distance = Size.word.signExtend value :=
  yields_map fun word => ⟨word.toUInt32, rfl⟩

/-- Resolving an instruction gives one of its operations. -/
theorem yields_instruction (i : Instruction) : Yields i.resolve i.Gives := by
  cases i with
  | nop => exact yields_pure .nop
  | illegal => exact yields_pure .illegal
  | reset => exact yields_pure .reset
  | trapV => exact yields_pure .trapV
  | rte => exact yields_pure .rte
  | rts => exact yields_pure .rts
  | rtr => exact yields_pure .rtr
  | rtd =>
    refine yields_fetchDistance.map fun distance h => ?_
    obtain ⟨value, rfl⟩ := h
    exact .rtd value
  | stop => exact yields_map fun _ => .stop _
  | trap n => exact yields_pure (.trap n)
  | breakpoint n => exact yields_pure (.breakpoint n)
  | moveQuick value dst => exact yields_pure (.moveQuick value dst)
  | exchange x y => exact yields_pure (.exchange x y)
  | swap n => exact yields_pure (.swap n)
  | extend kind n => exact yields_pure (.extend kind n)
  | link n => exact yields_map fun _ => .link n _
  | linkLong n => exact yields_map fun _ => .linkLong n _
  | unlink n => exact yields_pure (.unlink n)
  | moveToUsp n => exact yields_pure (.moveToUsp n)
  | moveFromUsp n => exact yields_pure (.moveFromUsp n)
  | movepToMemory size data n => exact yields_map fun _ => .movepToMemory size data n _
  | movepFromMemory size data n => exact yields_map fun _ => .movepFromMemory size data n _
  | branch test distance => exact yields_map fun _ => .branch test distance _
  | branchSubroutine distance => exact yields_map fun _ => .branchSubroutine distance _
  | decrementBranch test n =>
    exact yields_bind fun _ => yields_map fun _ => .decrementBranch test n _
  | setOnTest test dst => exact (yields_target dst _).map fun _ h => .setOnTest test h
  | jump dst => exact yields_map fun _ => .jump dst _
  | jumpSubroutine dst => exact yields_map fun _ => .jumpSubroutine dst _
  | loadAddress src n => exact yields_map fun _ => .loadAddress src n _
  | pushAddress src => exact yields_map fun _ => .pushAddress src _
  | move size src dst =>
    exact (yields_mode src size).bind fun _ hsrc =>
      (yields_target dst size).map fun _ hdst => .move size hsrc hdst
  | moveAddress size src n => exact (yields_mode src size).map fun _ h => .moveAddress size n h
  | clear size dst => exact (yields_target dst size).map fun _ h => .clear size h
  | negate size dst => exact (yields_target dst size).map fun _ h => .negate size h
  | complement size dst => exact (yields_target dst size).map fun _ h => .complement size h
  | test size src => exact (yields_mode src size).map fun _ h => .test size h
  | moveFromSr dst => exact (yields_target dst _).map fun _ h => .moveFromSr h
  | moveFromCcr dst => exact (yields_target dst _).map fun _ h => .moveFromCcr h
  | moveToCcr src => exact (yields_mode src _).map fun _ h => .moveToCcr h
  | moveToSr src => exact (yields_mode src _).map fun _ h => .moveToSr h
  | logicToCcr op => exact yields_map fun _ => .logicToCcr op _
  | logicToSr op => exact yields_map fun _ => .logicToSr op _
  | moveFromControl => exact yields_map fun _ => .moveFromControl _ _
  | moveToControl => exact yields_map fun _ => .moveToControl _ _
  | quick op size value dst => exact yields_quick op size value dst
  | toRegister op size src n => exact (yields_mode src size).map fun _ h => .toRegister op size n h
  | fromRegister op size n dst =>
    exact (yields_target dst size).map fun _ h => .fromRegister op size n h
  | immediate op size dst =>
    exact yields_bind fun _ => (yields_target dst size).map fun _ h => .immediate op size _ h
  | toAddress op size src n => exact (yields_mode src size).map fun _ h => .toAddress op size n h
  | compare size src n => exact (yields_mode src size).map fun _ h => .compare size n h
  | compareImmediate size dst =>
    exact yields_bind fun _ => (yields_mode dst size).map fun _ h => .compareImmediate size _ h
  | compareAddress size src n =>
    exact (yields_mode src size).map fun _ h => .compareAddress size n h

/-- Only instructions of the supervisor become operations of the supervisor. -/
theorem Instruction.Gives.privilege {i : Instruction} {op : Operation} (h : i.Gives op)
    (hsystem : op.isSystem = true) : i.privilege = .privileged := by
  cases h with
  | rte | stop | moveToUsp | moveToSr | logicToSr | moveToControl => rfl
  | _ => cases hsystem

end Cpu68k
