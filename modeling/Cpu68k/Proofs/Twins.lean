import Cpu68k.Proofs.Likeness
import Cpu68k.Proofs.Stores

/-!
# Machines that differ at some addresses

Two machines are twins if they differ in their program counters, in the record of the last
opcode and in the bytes at some addresses only. They are not alike for a whole program,
which may read these bytes and fetches from different places. But an operation that has
its source in itself and keeps away from the addresses does the same to both.
-/

namespace Cpu68k

/-! ### Memories -/

/-- The addresses of an access are in its span. -/
theorem mem_span_of_lt {size : Size} {addr k : UInt32} (h : k < size.bytes) :
    addr + k ∈ size.span addr := by
  refine mem_strided.2 ⟨k.toNat, UInt32.lt_iff_toNat_lt.1 h, ?_⟩
  rw [UInt32.ofNat_toNat, UInt32.one_mul]

namespace Space

variable {s s' : Space} {addrs : List UInt32} {addr value : UInt32} {size : Size} {p spot : Spot}

/-- Spaces with one outline have regions of the same sizes. -/
theorem map_size_region? (h : s'.outline = s.outline) (i : Nat) :
    (s'.region? i).map Region.size = (s.region? i).map Region.size := by
  have hmap := congrArg (Option.map fun o => o.extent.size) (map_outline_placed? h i)
  rw [region?_eq, region?_eq, Option.map_map, Option.map_map]
  rwa [Option.map_map, Option.map_map] at hmap

/-- Writing a number makes no difference to any byte. -/
theorem byteAt_setNumberAt_congr (houtline : s'.outline = s.outline)
    (h : s'.byteAt p = s.byteAt p) (n : Nat) (value : UInt32) :
    (s'.setNumberAt spot n value).byteAt p = (s.setNumberAt spot n value).byteAt p := by
  rw [byteAt, byteAt, region?_setNumberAt, region?_setNumberAt]
  by_cases hindex : p.index = spot.index
  · rw [if_pos hindex, if_pos hindex]
    rw [byteAt, byteAt] at h
    have hregions := map_size_region? houtline p.index
    cases hregion : s.region? p.index with
    | none =>
      rw [hregion, Option.map_none, Option.map_eq_none_iff] at hregions
      rw [hregions]
    | some r =>
      rw [hregion, Option.map_some, Option.map_eq_some_iff] at hregions
      obtain ⟨r', hregion', hsize⟩ := hregions
      rw [hregion, hregion'] at h
      rw [hregion']
      exact Region.byte_setNumber_congr hsize h _ n value
  · rw [if_neg hindex, if_neg hindex]
    exact h

/-- Two regions whose bytes agree except at some addresses. -/
theorem agreeExcept_flat {r r' : Region} (hprotection : r'.protection = r.protection)
    (hsize : r'.size = r.size)
    (hbytes : ∀ i < r.size, i ∉ addrs.map UInt32.toNat → r'.byte i = r.byte i) :
    (flat r).AgreeExcept addrs (flat r') where
  outline := by rw [outline, outline, Placed.outline, Placed.outline, Placed.extent, Placed.extent,
    hprotection, hsize]
  bytes p hp := by
    obtain ⟨index, offset⟩ := p
    rw [byteAt, byteAt, region?, region?]
    dsimp only
    by_cases hindex : index = 0
    · subst hindex
      rw [if_pos rfl, if_pos rfl]
      by_cases hlt : offset < r.size
      · refine hbytes offset hlt fun hmem => ?_
        obtain ⟨a, ha, heq⟩ := List.mem_map.1 hmem
        refine hp a ha ?_
        have hzero : a - 0 = a := UInt32.sub_zero a
        refine spot?_eq_some.2 ⟨⟨0, r⟩, rfl, rfl, ?_, hlt⟩
        rw [hzero, heq]
      · have hend : r.size ≤ offset := Nat.le_of_not_lt hlt
        exact (Region.byte_of_le (hsize.symm ▸ hend)).trans (Region.byte_of_le hend).symm
    · rw [if_neg hindex, if_neg hindex]

namespace AgreeExcept

/-- The byte at another address is the same. -/
theorem byte? (h : AgreeExcept addrs s s') (haddr : addr ∉ addrs) :
    s'.byte? addr = s.byte? addr :=
  byte?_congr h.outline fun p hspot =>
    h.bytes p fun _ ha hp => haddr (spot?_injective hp hspot ▸ ha)

/-- The same number may be written to both spaces. -/
theorem setNumberAt (h : AgreeExcept addrs s s') (spot : Spot) (n : Nat) (value : UInt32) :
    AgreeExcept addrs (s.setNumberAt spot n value) (s'.setNumberAt spot n value) where
  outline := by rw [outline_setNumberAt, outline_setNumberAt, h.outline]
  bytes p hp := by
    refine byteAt_setNumberAt_congr h.outline (h.bytes p fun a ha => ?_) n value
    rw [← spot?_congr (outline_setNumberAt spot n value)]
    exact hp a ha

/-- What keeps away from the addresses reads the same. -/
theorem read (h : AgreeExcept addrs s s') (hapart : ∀ a ∈ size.span addr, a ∉ addrs)
    (fc : FunctionCode) (access : Access) : OutcomesAlike (fun a b => b = a)
      (s.read addr size.bytes fc access) (s'.read addr size.bytes fc access) := by
  have hbytes (k : UInt32) (hk : k < size.bytes) : s'.byte? (addr + k) = s.byte? (addr + k) :=
    h.byte? (hapart _ (mem_span_of_lt hk))
  cases hread : s.read addr size.bytes fc access with
  | ok value =>
    rw [read_congr h.outline hbytes hread]
    exact .ok rfl
  | error e =>
    cases hread' : s'.read addr size.bytes fc access with
    | ok value =>
      have hback := read_congr h.outline.symm (fun k hk => (hbytes k hk).symm) hread'
      cases hread.symm.trans hback
    | error e' => exact .error e e'

/-- Writing does the same to both memories. -/
theorem write (h : AgreeExcept addrs s s') (addr len value : UInt32) (fc : FunctionCode) :
    OutcomesAlike (AgreeExcept addrs) (s.write addr len value fc)
      (s'.write addr len value fc) := by
  unfold Space.write
  cases hlocate : s.locate addr len fc .write with
  | ok spot =>
    rw [(locate_eq_ok_congr h.outline).2 hlocate]
    exact .ok (h.setNumberAt spot _ value)
  | error e =>
    cases hlocate' : s'.locate addr len fc .write with
    | ok spot => cases hlocate.symm.trans ((locate_eq_ok_congr h.outline).1 hlocate')
    | error e' => exact .error e e'

end AgreeExcept

end Space

/-! ### Machines -/

/-- Two machines that differ in their program counters, in the record of the last opcode,
and in the bytes at some addresses. -/
structure Machine.Twins (addrs : List UInt32) (m m' : Machine) : Prop where
  /-- The other registers are the same. -/
  registers : m'.registers = { m.registers with pc := m'.registers.pc }
  /-- Everything else is the same. -/
  machine : m' = { m with registers := m'.registers, space := m'.space, opcode := m'.opcode }
  /-- The memories agree at other addresses. -/
  space : m.space.AgreeExcept addrs m'.space

namespace Machine.Twins

variable {addrs : List UInt32} {m m' : Machine} {α β : Type} {addr : UInt32} {size : Size}
variable {p : Place}

/-- Twins are in the same mode. -/
theorem isSupervisor (h : Twins addrs m m') :
    m'.registers.isSupervisor = m.registers.isSupervisor := by
  rw [h.registers]
  rfl

/-- Twins access data with the same function code. -/
theorem dataSpace (h : Twins addrs m m') : m'.dataSpace = m.dataSpace := by
  rw [Machine.dataSpace, Machine.dataSpace, h.isSupervisor]

/-- Twins forbid the same accesses. -/
theorem forbids (h : Twins addrs m m') (addr : UInt32) (size : Size) :
    m'.forbids addr size = m.forbids addr size := by
  rw [h.machine]
  rfl

/-- After `get` a computation that takes the same from twins does the same to them that the
rest of it does. -/
theorem get_bind {f : Machine → Exec β} (hf : ∀ m m', Twins addrs m m' → f m' = f m)
    (h : ∀ m, Respects (Twins addrs) (f m)) : Respects (Twins addrs) (get >>= f) := by
  intro m m' htwins
  change EndsAlike _ (f m m) (f m' m')
  rw [hf m m' htwins]
  exact h m m m' htwins

/-- Registers may change in a way that takes no notice of the program counter. -/
theorem modifyRegisters {f : RegisterFile → RegisterFile}
    (hf : ∀ r pc, f { r with pc := pc } = { f r with pc := pc }) :
    Respects (Twins addrs) (modifyRegisters f) := by
  intro m m' h
  have hregisters : f m'.registers = { f m.registers with pc := (f m'.registers).pc } := by
    rw [h.registers, hf]
  exact .ok ⟨hregisters, by rw [h.machine], h.space⟩

/-- The program counters may become the same. -/
theorem setPc (pc : UInt32) : Respects (Twins addrs) (setPc pc) := by
  intro m m' h
  have hregisters : { m'.registers with pc := pc } = { m.registers with pc := pc } := by
    rw [h.registers]
  exact .ok ⟨hregisters, by rw [h.machine], h.space⟩

/-- Reading data apart from the addresses gives the same. -/
theorem readData (hapart : ∀ a ∈ size.span addr, a ∉ addrs) :
    Respects (Twins addrs) (readData addr size) := by
  intro m m' h
  have hread := h.space.read hapart m.dataSpace .read
  unfold Cpu68k.readData loadFrom Machine.load
  rw [h.dataSpace, h.forbids]
  cases m.forbids addr size with
  | true => exact .error rfl h
  | false =>
    generalize m.space.read addr size.bytes m.dataSpace .read = outcome,
      m'.space.read addr size.bytes m.dataSpace .read = outcome' at hread
    cases hread with
    | ok hvalue => exact hvalue ▸ .ok h
    | error e e' => exact .error rfl h

/-- Writing data anywhere does the same. -/
theorem writeData (addr : UInt32) (size : Size) (value : UInt32) :
    Respects (Twins addrs) (writeData addr size value) := by
  intro m m' h
  have hwrite := h.space.write addr size.bytes value m.dataSpace
  rw [writeData_eq, writeData_eq, h.dataSpace, h.forbids]
  cases m.forbids addr size with
  | true => exact .error rfl h
  | false =>
    generalize m.space.write addr size.bytes value m.dataSpace = outcome,
      m'.space.write addr size.bytes value m.dataSpace = outcome' at hwrite
    cases hwrite with
    | ok hspace => exact .ok ⟨h.registers, by rw [h.machine], hspace⟩
    | error e e' => exact .error rfl h

/-- Reading a place apart from the addresses gives the same. -/
theorem placeRead (hapart : ∀ a ∈ p.footprint size, a ∉ addrs) :
    Respects (Twins addrs) (p.read size) := by
  cases p with
  | dataReg n => exact get_bind (fun m m' h => by rw [h.registers]; rfl) fun _ => respects_pure _
  | addrReg n => exact get_bind (fun m m' h => by rw [h.registers]; rfl) fun _ => respects_pure _
  | memory addr => exact readData hapart

/-- Writing a place does the same. -/
theorem placeWrite (p : Place) (size : Size) (value : UInt32) :
    Respects (Twins addrs) (p.write size value) := by
  cases p with
  | dataReg n =>
    change Respects _ (Cpu68k.modifyRegisters fun r =>
      r.setDataReg n (size.merge (r.dataReg n) value))
    exact modifyRegisters fun _ _ => rfl
  | addrReg n =>
    change Respects _ (Cpu68k.modifyRegisters fun r => r.setAddrReg n value)
    exact modifyRegisters fun r pc => r.setAddrReg_withPc n value pc
  | memory addr => exact writeData addr size value

end Machine.Twins

/-! ### Operations with a source of their own -/

/-- The operations that have a value in themselves for their source, and the branches. -/
inductive Operation.IsImmediate : Operation → Prop
  | binary (op size value dst) : IsImmediate (.binary op size (.constant value) dst)
  | compare (size value n) : IsImmediate (.compare size (.constant value) (.place (.dataReg n)))
  | arithAddress (op size value n) : IsImmediate (.arithAddress op size (.constant value) n)
  | moveQuick (value n) : IsImmediate (.moveQuick value n)
  | branch (test target) : IsImmediate (.branch test target)

/-- No bytes of the place that an operation works on are at some addresses. -/
def Operation.IsApart (addrs : List UInt32) (op : Operation) : Prop :=
  ∀ size p, op.updated? = some (size, p) → ∀ a ∈ p.footprint size, a ∉ addrs

/-- Such an operation does the same to twins if its place is apart. -/
theorem Operation.IsImmediate.respects {op : Operation} {addrs : List UInt32}
    (h : op.IsImmediate) (hapart : op.IsApart addrs) :
    Respects (Machine.Twins addrs) op.effect := by
  cases h with
  | binary op size value dst =>
    refine (Machine.Twins.placeRead (hapart size dst rfl)).bind fun y => ?_
    refine Machine.Twins.get_bind (fun m m' h => by rw [h.registers]) fun m => ?_
    exact (Machine.Twins.placeWrite dst size _).bind fun _ =>
      Machine.Twins.modifyRegisters fun _ _ => rfl
  | compare size value n =>
    have hregister : ∀ a ∈ (Place.dataReg n).footprint size, a ∉ addrs := nofun
    refine (respects_pure (value &&& size.mask)).bind fun x => ?_
    refine (Machine.Twins.placeRead hregister).bind fun y => ?_
    exact Machine.Twins.modifyRegisters fun _ _ => rfl
  | arithAddress op size value n =>
    change Respects _ (modifyRegisters fun r =>
      r.setAddrReg n (op.onAddress (size.signExtend (value &&& size.mask)) (r.addrReg n)))
    exact Machine.Twins.modifyRegisters fun r pc => r.setAddrReg_withPc n _ pc
  | moveQuick value n =>
    exact (Machine.Twins.placeWrite (.dataReg n) .long value).bind fun _ =>
      Machine.Twins.modifyRegisters fun _ _ => rfl
  | branch test target =>
    refine Machine.Twins.get_bind (fun m m' h => by rw [h.registers]) fun m => ?_
    exact Respects.ite (fun _ => Machine.Twins.setPc target) fun _ => respects_pure ()

end Cpu68k
