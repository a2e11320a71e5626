import Cpu68k.Proofs.Bytes
import Cpu68k.Proofs.Alterations

/-!
# Operations whose access fails

Nearly every operation is careful: where one of its accesses fails, it has changed
nothing. It reads first, then writes to memory once, and changes registers only after
that. Two operations are done in stages. `RTR` pops two values, and `MOVEP` to memory
writes one byte after the other.
-/

namespace Cpu68k

variable {α β : Type} {x : Exec α} {f : α → Exec β} {m : Machine}

/-! ### Careful computations -/

/-- The computation changes nothing, however it ends. -/
def Inspects (x : Exec α) : Prop :=
  ∀ m, Ends x m (fun _ m' => m' = m) fun _ m' => m' = m

/-- No access of the computation fails. -/
def Sure (x : Exec α) : Prop :=
  ∀ m, Ends x m (fun _ _ => True) fun a _ => a.fault.cycle? = none

/-- Where an access of the computation fails, nothing has changed. -/
def Careful (x : Exec α) : Prop :=
  ∀ m, Ends x m (fun _ _ => True) fun a m' => a.fault.cycle?.isSome → m' = m

/-- A computation that keeps the machine changes nothing. -/
theorem Keeps.inspects (h : Keeps Eq x) : Inspects x :=
  fun m => (h m).mono (fun _ _ h => h.symm) fun _ _ h => h.1.symm

/-- A computation that changes nothing is careful. -/
theorem Inspects.careful (h : Inspects x) : Careful x :=
  fun m => (h m).mono (fun _ _ _ => trivial) fun _ _ h _ => h

/-- A computation without accesses that fail is careful. -/
theorem Sure.careful (h : Sure x) : Careful x :=
  fun m => (h m).mono (fun _ _ _ => trivial) fun a _ h hcycle => by simp [h] at hcycle

/-- What is careful may come after what changes nothing. -/
theorem Inspects.bind (hx : Inspects x) (hf : ∀ a, Careful (f a)) : Careful (x >>= f) := by
  intro m
  rw [ends_bind]
  refine (hx m).mono (fun a m' h => ?_) fun _ _ h _ => h
  subst h
  exact hf a m'

/-- What is sure may come after what is careful. -/
theorem Careful.bind (hx : Careful x) (hf : ∀ a, Sure (f a)) : Careful (x >>= f) := by
  intro m
  rw [ends_bind]
  refine (hx m).mono (fun a m' _ => ?_) fun _ _ h => h
  exact (hf a m').mono (fun _ _ h => h) fun e _ h hcycle => by simp [h] at hcycle

/-- A sequence of computations without accesses that fail is one. -/
theorem Sure.bind (hx : Sure x) (hf : ∀ a, Sure (f a)) : Sure (x >>= f) := by
  intro m
  rw [ends_bind]
  exact (hx m).mono (fun a m' _ => hf a m') fun _ _ h => h

/-- A choice between careful computations is careful. -/
theorem Careful.ite {c : Prop} [Decidable c] {y : Exec α} (hx : Careful x) (hy : Careful y) :
    Careful (if c then x else y) := by
  split
  · exact hx
  · exact hy

/-- A value by itself accesses nothing. -/
theorem sure_pure (a : α) : Sure (pure a) := fun _ => trivial

/-- Changing registers accesses nothing. -/
theorem sure_modifyRegisters (g : RegisterFile → RegisterFile) : Sure (modifyRegisters g) :=
  fun _ => trivial

/-- Changing the run state accesses nothing. -/
theorem sure_setState (state : RunState) : Sure (setState state) := fun _ => trivial

/-- Raising a fault that is not one of an access. -/
theorem sure_raise {fault : Fault} (h : fault.cycle? = none) : Sure (raise fault : Exec α) :=
  fun _ => h

/-- Looking at the machine changes nothing. -/
theorem inspects_get : Inspects get := fun _ => rfl

/-- Looking up a control register changes nothing. -/
theorem inspects_controlRegister (code : UInt16) : Inspects (controlRegister code) := by
  intro m
  rw [ends_controlRegister]
  cases ControlRegister.ofCode? m.chip code <;> rfl

/-! ### Accesses -/

/-- Reading data changes nothing. -/
theorem inspects_readData (addr : UInt32) (size : Size) : Inspects (readData addr size) :=
  (keeps_readData addr size).inspects

/-- Reading a place changes nothing. -/
theorem inspects_placeRead (p : Place) (size : Size) : Inspects (p.read size) :=
  (keeps_placeRead p size).inspects

/-- Reading an operand changes nothing. -/
theorem inspects_operandRead (o : Operand) (size : Size) : Inspects (o.read size) :=
  (keeps_operandRead o size).inspects

/-- A write to memory that fails has changed nothing. -/
theorem careful_writeData (addr : UInt32) (size : Size) (value : UInt32) :
    Careful (writeData addr size value) :=
  fun _ => ends_writeData.mono (fun _ _ _ => trivial) fun _ _ h _ => h.1

/-- Writing a data register cannot fail. -/
theorem sure_write_dataReg (n : Fin 8) (size : Size) (value : UInt32) :
    Sure ((Place.dataReg n).write size value) :=
  fun _ => trivial

/-- Writing an address register cannot fail. -/
theorem sure_write_addrReg (n : Fin 8) (size : Size) (value : UInt32) :
    Sure ((Place.addrReg n).write size value) :=
  fun _ => trivial

/-- A write to a place that fails has changed nothing. -/
theorem careful_placeWrite (p : Place) (size : Size) (value : UInt32) :
    Careful (p.write size value) := by
  cases p with
  | dataReg n => exact (sure_write_dataReg n size value).careful
  | addrReg n => exact (sure_write_addrReg n size value).careful
  | memory addr => exact careful_writeData addr size value

/-- A push that fails leaves the stack pointer alone. -/
theorem careful_push (size : Size) (value : UInt32) : Careful (push size value) :=
  inspects_get.bind fun _ => (careful_writeData _ _ _).bind fun _ => sure_modifyRegisters _

/-- Popping reads the value at the stack pointer and moves it past the value, or fails
and changes nothing. -/
theorem ends_pop {size : Size} : Ends (pop size) m
    (fun _ m' => m' = { m with
      registers := m.registers.setActiveSp (m.registers.activeSp + size.bytes) })
    fun _ m' => m' = m := by
  unfold pop
  rw [ends_bind, ends_get, ends_bind]
  refine (inspects_readData _ _ m).mono (fun value m' h => ?_) fun _ _ h => h
  subst h
  rw [ends_bind, ends_modifyRegisters, ends_pure]

/-- A pop that fails leaves the stack pointer alone. -/
theorem careful_pop (size : Size) : Careful (pop size) :=
  fun _ => ends_pop.mono (fun _ _ _ => trivial) fun _ _ h _ => h

/-! ### Careful operations -/

/-- Setting condition codes accesses nothing. -/
theorem sure_setLogical (value : UInt32) (size : Size) : Sure (setLogical value size) :=
  sure_modifyRegisters _

/-- Extending a data register accesses nothing. -/
theorem sure_widen (n : Fin 8) (source result : Size) : Sure (widen n source result) := by
  intro m
  unfold widen
  rw [ends_bind, ends_get]
  exact ((sure_write_dataReg _ _ _).bind fun _ => sure_setLogical _ _) m

/-- A return reads the whole frame before it changes anything. -/
theorem careful_returnFromException : Careful returnFromException := by
  refine inspects_get.bind fun m => (inspects_readData _ _).bind fun sr =>
    (inspects_readData _ _).bind fun pc => ?_
  dsimp only
  split
  · refine (inspects_readData _ _).bind fun word => ?_
    cases frameLength? word with
    | none => exact (sure_raise rfl).careful
    | some length => exact ((sure_pure length).bind fun _ => sure_modifyRegisters _).careful
  · exact ((sure_pure 6).bind fun _ => sure_modifyRegisters _).careful

/-- Linking a frame writes to memory before any register changes. -/
theorem careful_linkFrame (n : Fin 8) (distance : UInt32) : Careful (linkFrame n distance) :=
  inspects_get.bind fun _ => (careful_writeData _ _ _).bind fun _ => sure_modifyRegisters _

/-- Unlinking a frame reads memory before any register changes. -/
theorem careful_unlinkFrame (n : Fin 8) : Careful (unlinkFrame n) :=
  inspects_get.bind fun _ => (inspects_readData _ _).bind fun _ => (sure_modifyRegisters _).careful

/-- A decrement and branch accesses nothing. -/
theorem careful_decrementBranch (test : Test) (n : Fin 8) (target : UInt32) :
    Careful (Operation.decrementBranch test n target).effect := by
  refine inspects_get.bind fun m => ?_
  dsimp only
  split
  · refine (careful_placeWrite _ _ _).bind fun _ => ?_
    split
    · exact sure_modifyRegisters _
    · exact sure_pure _
  · exact (sure_pure _).careful

/-- `TRAPV` accesses nothing. -/
theorem careful_trapV : Careful Operation.trapV.effect :=
  inspects_get.bind fun _ => (sure_raise rfl).careful.ite (sure_pure _).careful

/-- A branch accesses nothing. -/
theorem careful_branch (test : Test) (target : UInt32) :
    Careful (Operation.branch test target).effect :=
  inspects_get.bind fun _ => (sure_modifyRegisters _).careful.ite (sure_pure _).careful

/-- The operations that change something before their last access. -/
def Operation.isStaged : Operation → Bool
  | rtr | movepToMemory _ _ _ => true
  | _ => false

/-- An operation whose access fails has changed nothing, unless it is done in stages. -/
theorem careful_effect {op : Operation} (h : op.isStaged = false) : Careful op.effect := by
  cases op with
  | rtr | movepToMemory => cases h
  | nop | reset => exact (sure_pure _).careful
  | illegal | trap n => exact (sure_raise rfl).careful
  | trapV => exact careful_trapV
  | rte => exact careful_returnFromException
  | rts => exact (careful_pop _).bind fun _ => sure_modifyRegisters _
  | rtd distance => exact (careful_pop _).bind fun _ => sure_modifyRegisters _
  | stop sr =>
    exact inspects_get.bind fun _ => (sure_modifyRegisters _).bind (fun _ => sure_setState _)
      |>.careful
  | breakpoint n => exact (sure_setState _).careful
  | moveQuick value dst =>
    exact (careful_placeWrite _ _ _).bind fun _ => sure_setLogical _ _
  | exchange x y | moveToUsp n | moveFromUsp n | logicToCcr op value =>
    exact Sure.careful fun _ => trivial
  | jump target => exact Sure.careful fun _ => trivial
  | loadAddress addr n => exact (sure_write_addrReg n .long addr).careful
  | swap n =>
    exact inspects_get.bind fun _ => (careful_placeWrite _ _ _).bind fun _ => sure_setLogical _ _
  | extend kind n => cases kind <;> exact (sure_widen _ _ _).careful
  | link n distance => exact careful_linkFrame n distance
  | unlink n => exact careful_unlinkFrame n
  | movepFromMemory size data addr =>
    exact (keeps_loadAlternate _ _ _).inspects.bind fun _ => careful_placeWrite _ _ _
  | branch test target => exact careful_branch test target
  | decrementBranch test n target => exact careful_decrementBranch test n target
  | call target =>
    exact inspects_get.bind fun _ => (careful_push _ _).bind fun _ => sure_modifyRegisters _
  | pushAddress addr => exact careful_push _ _
  | setOnTest test dst | moveFromSr dst | moveFromCcr dst =>
    exact inspects_get.bind fun _ => careful_placeWrite _ _ _
  | move size src dst =>
    exact (inspects_operandRead _ _).bind fun _ =>
      (careful_placeWrite _ _ _).bind fun _ => sure_setLogical _ _
  | moveAddress size src n =>
    exact (inspects_operandRead _ _).bind fun _ => careful_placeWrite _ _ _
  | clear size dst => exact (careful_placeWrite _ _ _).bind fun _ => sure_setLogical _ _
  | negate size dst =>
    exact (inspects_placeRead _ _).bind fun _ => inspects_get.bind fun _ =>
      (careful_placeWrite _ _ _).bind fun _ => sure_modifyRegisters _
  | complement size dst =>
    exact (inspects_placeRead _ _).bind fun _ =>
      (careful_placeWrite _ _ _).bind fun _ => sure_setLogical _ _
  | test size src => exact (inspects_operandRead _ _).bind fun _ => (sure_setLogical _ _).careful
  | moveToCcr src | arithAddress op size src n | compareAddress size src n =>
    exact (inspects_operandRead _ _).bind fun _ => (sure_modifyRegisters _).careful
  | moveToSr src =>
    exact (inspects_operandRead _ _).bind fun _ => inspects_get.bind fun _ =>
      (sure_modifyRegisters _).careful
  | logicToSr op value => exact inspects_get.bind fun _ => (sure_modifyRegisters _).careful
  | moveFromControl code dst | moveToControl code src =>
    exact (inspects_controlRegister _).bind fun _ => (sure_modifyRegisters _).careful
  | binary op size src dst =>
    exact (inspects_operandRead _ _).bind fun _ => (inspects_placeRead _ _).bind fun _ =>
      inspects_get.bind fun _ => (careful_placeWrite _ _ _).bind fun _ => sure_modifyRegisters _
  | compare size src dst =>
    exact (inspects_operandRead _ _).bind fun _ => (inspects_operandRead _ _).bind fun _ =>
      (sure_modifyRegisters _).careful

/-! ### Bytes at every other address -/

/-- Bytes have been stored at every other address from `addr` on, and nothing else has
changed. -/
structure Space.StoresAlternate (s : Space) (addr : UInt32) (bytes : List UInt32) (s' : Space) :
    Prop where
  /-- Every access is decided alike. -/
  outline : s'.outline = s.outline
  /-- Each byte lies at its address. -/
  stored : ∀ k (h : k < bytes.length), s'.byte? (addr + 2 * .ofNat k) = some bytes[k].toUInt8
  /-- Bytes at other addresses, or at none, are the same. -/
  others : ∀ p, (∀ k < bytes.length, s.spot? (addr + 2 * .ofNat k) ≠ some p) →
    s'.byteAt p = s.byteAt p

section StoresAlternate

variable {s s₁ s' : Space} {addr b : UInt32} {bytes : List UInt32}

/-- The first of every other address is the address itself. -/
theorem two_mul_ofNat_zero (addr : UInt32) : addr + 2 * .ofNat 0 = addr :=
  UInt32.add_zero addr

/-- Every other address behind the first starts two above it. -/
theorem two_mul_ofNat_succ (addr : UInt32) (k : Nat) :
    addr + 2 * .ofNat (k + 1) = addr + 2 + 2 * .ofNat k := by
  rw [UInt32.ofNat_add]
  change addr + 2 * (.ofNat k + 1) = _
  grind

/-- Fewer than half of all addresses never come around to the first. -/
theorem add_two_mul_ne {k : Nat} (h : k + 1 < 2 ^ 31) : addr ≠ addr + 2 + 2 * .ofNat k := by
  intro heq
  rw [← two_mul_ofNat_succ] at heq
  have hzero : 2 * UInt32.ofNat (k + 1) = 0 := by grind
  have hnat := congrArg UInt32.toNat hzero
  rw [UInt32.toNat_mul, UInt32.toNat_ofNat'] at hnat
  change 2 * ((k + 1) % 2 ^ 32) % 2 ^ 32 = 0 at hnat
  omega

/-- No byte has been stored. -/
theorem Space.StoresAlternate.nil (s : Space) (addr : UInt32) : s.StoresAlternate addr [] s :=
  ⟨rfl, fun _ h => absurd h (Nat.not_lt_zero _), fun _ _ => rfl⟩

/-- Addresses at which no byte was stored have the byte that they had. -/
theorem Space.StoresAlternate.byte? {a : UInt32} (h : s.StoresAlternate addr bytes s')
    (ha : ∀ k < bytes.length, a ≠ addr + 2 * .ofNat k) : s'.byte? a = s.byte? a :=
  byte?_congr h.outline fun p hspot =>
    h.others p fun k hk hp => ha k hk (spot?_injective hspot hp)

/-- The first byte is stored before the others. -/
theorem Space.StoresAlternate.cons (hfirst : s.AgreeOutside addr 1 s₁)
    (hbyte : s₁.byte? addr = some b.toUInt8) (h : s₁.StoresAlternate (addr + 2) bytes s')
    (hlength : (b :: bytes).length < 2 ^ 31) : s.StoresAlternate addr (b :: bytes) s' := by
  refine ⟨h.outline.trans hfirst.outline, fun k hk => ?_, fun p hp => ?_⟩
  · cases k with
    | zero =>
      -- the bytes that follow do not come around to the first address
      rw [two_mul_ofNat_zero, List.getElem_cons_zero, ← hbyte]
      refine h.byte? fun k hk => add_two_mul_ne ?_
      rw [List.length_cons] at hlength
      omega
    | succ k =>
      rw [two_mul_ofNat_succ]
      exact h.stored k (Nat.lt_of_succ_lt_succ hk)
  · have hrest : s'.byteAt p = s₁.byteAt p := by
      refine h.others p fun k hk => ?_
      rw [spot?_congr hfirst.outline, ← two_mul_ofNat_succ]
      exact hp (k + 1) (Nat.succ_lt_succ hk)
    refine hrest.trans (hfirst.bytes p fun k hk => ?_)
    have hk : k = 0 := by
      rw [← UInt32.toNat_inj]
      exact Nat.lt_one_iff.1 (UInt32.lt_iff_toNat_lt.1 hk)
    rw [hk, UInt32.add_zero, ← two_mul_ofNat_zero addr]
    exact hp 0 (Nat.succ_pos _)

/-- Writing a byte changes that byte only, or is a bus error and changes nothing. -/
theorem ends_writeByte : Ends (writeData addr .byte b) m
    (fun _ m' => m' = { m with space := m'.space } ∧ m.space.AgreeOutside addr 1 m'.space ∧
      m'.space.byte? addr = some b.toUInt8)
    fun a m' => m' = m ∧ a.fault = .busError ⟨addr, .write, m.dataSpace⟩ := by
  have hforbids : m.forbids addr .byte = false := rfl
  unfold Ends writeData
  simp only [hforbids]
  cases hlocate : m.space.locate addr Size.byte.bytes m.dataSpace .write with
  | error e => exact ⟨rfl, rfl⟩
  | ok spot =>
    refine ⟨rfl, Space.agreeOutside_setNumberAt hlocate b, ?_⟩
    have hload := Machine.load_eq_ok (m := { m with space := m.space.setNumberAt spot 1 b }).2
      ⟨hforbids, Space.read_setNumberAt b hlocate⟩
    have hlow : (b &&& 0xFF).toUInt8 = b.toUInt8 := by
      rw [UInt32.toUInt8_and]
      exact UInt8.and_neg_one
    rw [← hlow]
    exact (Machine.holds_of_load hload).1

/-- Bytes are stored one after the other up to the first that is refused. -/
theorem ends_storeAlternate (hlength : bytes.length < 2 ^ 31) : Ends (storeAlternate addr bytes) m
    (fun _ m' => m' = { m with space := m'.space } ∧ m.space.StoresAlternate addr bytes m'.space)
    fun a m' => ∃ done b rest, bytes = done ++ b :: rest ∧
      a.fault = .busError ⟨addr + 2 * .ofNat done.length, .write, m.dataSpace⟩ ∧
      m' = { m with space := m'.space } ∧ m.space.StoresAlternate addr done m'.space := by
  induction bytes generalizing addr m with
  | nil => exact ⟨rfl, .nil _ _⟩
  | cons b bytes ih =>
    have hrest : bytes.length < 2 ^ 31 := Nat.lt_of_succ_lt hlength
    unfold storeAlternate
    rw [ends_bind]
    refine ends_writeByte.mono (fun _ m₁ h => ?_) fun a m₁ h => ?_
    · obtain ⟨hmachine, hfirst, hbyte⟩ := h
      refine (ih hrest).mono (fun _ m' h => ?_) fun a m' h => ?_
      · obtain ⟨hmachine', hstores⟩ := h
        refine ⟨?_, .cons hfirst hbyte hstores hlength⟩
        rw [hmachine', hmachine]
      · obtain ⟨done, b', rest, hsplit, hfault, hmachine', hstores⟩ := h
        have hdone : (b :: done).length < 2 ^ 31 := by
          have := congrArg List.length hsplit
          simp only [List.length_append, List.length_cons] at this hlength ⊢
          omega
        refine ⟨b :: done, b', rest, by rw [hsplit]; rfl, ?_, ?_,
          .cons hfirst hbyte hstores hdone⟩
        · rw [hfault, List.length_cons, two_mul_ofNat_succ, hmachine]
          rfl
        · rw [hmachine', hmachine]
    · obtain ⟨rfl, hfault⟩ := h
      refine ⟨[], b, bytes, rfl, ?_, rfl, .nil _ _⟩
      rw [hfault]
      exact congrArg (fun a => Fault.busError ⟨a, .write, m₁.dataSpace⟩)
        (two_mul_ofNat_zero addr).symm

end StoresAlternate

end Cpu68k
