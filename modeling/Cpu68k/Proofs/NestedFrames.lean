import Cpu68k.Proofs.ActiveStack

/-!
# Nested stack frames

`LINK` saves a register on the stack and makes it the frame pointer of a new frame, and
`UNLK` takes the frame away again. Frames nest: an inner `LINK` may use the register of an
outer one, and its frame lies below the saved registers of the outer frames as long as all
frames together take less than the whole address space. `UNLK` finds the stack through the
frame pointer, so nothing but the saved registers needs to be there still:
`unlinkAll_linkAll` says that undoing the frames, the last first, brings back all registers.
-/

namespace Cpu68k

/-- A `LINK` of a register that is not the stack pointer, with a distance that is not
upwards. -/
structure Linkage where
  /-- The frame pointer. -/
  register : Fin 7
  /-- What is added to the stack pointer, a signed number. -/
  distance : UInt32
  /-- The stack grows. -/
  descends : distance.toBitVec.toInt ≤ 0

namespace Linkage

variable (l : Linkage)

/-- The operation. -/
def link : Operation :=
  .link l.register.castSucc l.distance

/-- The operation that undoes it. -/
def unlink : Operation :=
  .unlink l.register.castSucc

/-- The number of bytes that the frame takes: the saved register and the local variables below it. -/
def bytes : Nat :=
  (4 - l.distance.toBitVec.toInt).toNat

/-- The number of bytes of the local variables. -/
def locals : UInt32 :=
  -l.distance

/-- A frame is the saved register and the local variables. -/
theorem bytes_eq : l.bytes = 4 + l.locals.toNat := by
  have hdescends := l.descends
  have hlocals : l.locals.toNat = (2 ^ 32 - l.distance.toNat) % 2 ^ 32 :=
    UInt32.toNat_neg l.distance
  have hlt := l.distance.toNat_lt
  have hsame : l.distance.toBitVec.toNat = l.distance.toNat := rfl
  rw [bytes, hlocals]
  simp only [BitVec.toInt_eq_toNat_cond, hsame] at hdescends ⊢
  split at hdescends <;> omega

end Linkage

/-- The number of bytes that nested frames take. -/
def linkedBytes (ls : List Linkage) : Nat :=
  (ls.map Linkage.bytes).sum

/-- Makes frames, the first one outermost. -/
def linkAll : List Linkage → Exec Unit
  | [] => return ()
  | l :: ls => do
    l.link.effect
    linkAll ls

/-- Takes frames away, the last one first. -/
def unlinkAll : List Linkage → Exec Unit
  | [] => return ()
  | l :: ls => do
    unlinkAll ls
    l.unlink.effect

/-- Where registers are saved while frames are made, outermost first. These are the frame
pointers. -/
def framePointers (sp : UInt32) : List Linkage → List UInt32
  | [] => []
  | l :: ls => (sp - 4) :: framePointers (sp - 4 + l.distance) ls

variable {m m' : Machine} {l : Linkage} {ls : List Linkage}

/-! ### One frame -/

namespace RegisterFile

variable (r : RegisterFile) (n : Fin 7) (frame sp : UInt32)

/-- The registers in a frame, with their own frame pointer and stack pointer. -/
def inFrame (r : RegisterFile) (n : Fin 7) (frame sp : UInt32) : RegisterFile :=
  (r.setAddrReg n.castSucc frame).setActiveSp sp

/-- The frame pointer of a frame is its own. -/
theorem addrReg_inFrame : (r.inFrame n frame sp).addrReg n.castSucc = frame := by
  have hne : n.castSucc ≠ 7 := Fin.ne_of_val_ne (Nat.ne_of_lt n.isLt)
  rw [inFrame, setActiveSp_eq, addrReg_setAddrReg_of_ne _ _ _ hne, addrReg_setAddrReg]

/-- The stack pointer of a frame is its own. -/
theorem activeSp_inFrame : (r.inFrame n frame sp).activeSp = sp :=
  activeSp_setActiveSp _ sp

/-- A frame does not change the mode. -/
theorem isSupervisor_inFrame : (r.inFrame n frame sp).isSupervisor = r.isSupervisor := by
  rw [inFrame, isSupervisor_setActiveSp, isSupervisor_setAddrReg]

/-- With the stack pointer and the saved register of before, all registers are those of
before. -/
theorem restore_inFrame :
    ((r.inFrame n frame sp).setActiveSp r.activeSp).setAddrReg n.castSucc
      (r.addrReg n.castSucc) = r := by
  have hn : n.castSucc.val < 7 := n.isLt
  rw [inFrame, setActiveSp_setActiveSp, setActiveSp_setAddrReg _ _ _ hn, setAddrReg_setAddrReg,
    setActiveSp_activeSp, setAddrReg_addrReg]

end RegisterFile

namespace Machine

/-- What a `LINK` has done. -/
structure Linked (m : Machine) (l : Linkage) (m' : Machine) : Prop where
  /-- Only the frame pointer, the stack pointer and the memory differ. -/
  machine : m' = { m with
    registers := m.registers.inFrame l.register (m.registers.activeSp - 4)
      (m.registers.activeSp - 4 + l.distance)
    space := m'.space }
  /-- Only the bytes of the saved register have changed. -/
  footprint : m.space.AgreeOutside (m.registers.activeSp - 4) 4 m'.space
  /-- The saved register can be read. -/
  saved : m'.load (m.registers.activeSp - 4) .long m.dataSpace =
    .ok (m.registers.addrReg l.register.castSucc)

end Machine

/-- `LINK` makes a frame, or fails and changes nothing. -/
theorem ends_link : Ends l.link.effect m (fun _ m' => m.Linked l m') fun _ m' => m' = m := by
  have hne : l.register.castSucc.val ≠ 7 := Nat.ne_of_lt l.register.isLt
  change Ends (linkFrame l.register.castSucc l.distance) m _ _
  unfold linkFrame
  rw [ends_bind, ends_get]
  dsimp only
  rw [if_neg hne, ends_bind]
  refine ends_writeData_written.mono (fun _ m' h => ?_) fun _ _ h => h.1
  obtain ⟨hmachine, hfootprint, hstored⟩ := h
  rw [ends_modifyRegisters]
  refine ⟨?_, hfootprint, (Machine.load_of_space rfl rfl).trans (hstored.trans ?_)⟩
  · rw [hmachine]
    rfl
  · exact congrArg Except.ok UInt32.and_neg_one

/-- `UNLK` finds the saved register where the frame pointer points to. -/
theorem unlinkFrame_of_load {n : Fin 8} {saved : UInt32}
    (h : m.load (m.registers.addrReg n) .long m.dataSpace = .ok saved) : unlinkFrame n m =
      .ok () { m with registers :=
        (m.registers.setActiveSp (m.registers.addrReg n + 4)).setAddrReg n saved } := by
  refine Ends.eq_ok ?_
  unfold unlinkFrame
  rw [ends_bind, ends_get, ends_bind, ends_readData_of_load h]
  exact ⟨rfl, rfl⟩

namespace Machine

/-- A frame is taken away if the saved register is still there. -/
theorem Linked.unlink (h : m.Linked l m') {space : Space}
    (hsaved : ({ m' with space := space } : Machine).load (m.registers.activeSp - 4) .long
      m.dataSpace = .ok (m.registers.addrReg l.register.castSucc)) :
    l.unlink.effect { m' with space := space } = .ok () { m with space := space } := by
  have hregisters : m'.registers = m.registers.inFrame l.register (m.registers.activeSp - 4)
      (m.registers.activeSp - 4 + l.distance) := congrArg Machine.registers h.machine
  have hframe : m'.registers.addrReg l.register.castSucc = m.registers.activeSp - 4 := by
    rw [hregisters, RegisterFile.addrReg_inFrame]
  have hspace : ({ m' with space := space } : Machine).dataSpace = m.dataSpace := by
    rw [dataSpace, dataSpace, hregisters, RegisterFile.isSupervisor_inFrame]
  have hback : m.registers.activeSp - 4 + 4 = m.registers.activeSp := UInt32.sub_add_cancel _ _
  change unlinkFrame l.register.castSucc { m' with space := space } = _
  rw [unlinkFrame_of_load (by rwa [hframe, hspace])]
  dsimp only
  rw [hframe, hback, hregisters, RegisterFile.restore_inFrame, h.machine]

end Machine

/-! ### Frames inside of each other -/

/-- The number of bytes that nested frames take, modulo 2^32. -/
def linkedSize (ls : List Linkage) : UInt32 :=
  .ofNat (linkedBytes ls)

/-- The bytes of a frame and of those inside of it. -/
theorem linkedBytes_cons (l : Linkage) (ls : List Linkage) :
    linkedBytes (l :: ls) = 4 + l.locals.toNat + linkedBytes ls := by
  rw [← l.bytes_eq]
  simp [linkedBytes]

/-- Frames that fit in the address space take their exact number of bytes. -/
theorem toNat_linkedSize (hfits : linkedBytes ls < UInt32.size) :
    (linkedSize ls).toNat = linkedBytes ls :=
  UInt32.toNat_ofNat_of_lt' hfits

/-- The bytes of a frame and of those inside of it, modulo 2^32. -/
theorem linkedSize_cons (l : Linkage) (ls : List Linkage) :
    linkedSize (l :: ls) = 4 + (l.locals + linkedSize ls) := by
  rw [linkedSize, linkedBytes_cons, UInt32.ofNat_add, UInt32.ofNat_add, UInt32.ofNat_toNat,
    UInt32.add_assoc]
  rfl

namespace Machine

/-- What making nested frames has done, and how it is undone. -/
structure Nested (m : Machine) (ls : List Linkage) (m' : Machine) : Prop where
  /-- The chip is the same. -/
  chip : m'.chip = m.chip
  /-- Only bytes of the frames have changed. -/
  footprint : m.space.AgreeOutside (m.registers.activeSp - linkedSize ls) (linkedSize ls) m'.space
  /-- As long as the saved registers are there, the frames can be taken away again, which
  brings back all registers. -/
  undone : ∀ space : Space, space.outline = m'.space.outline →
    (∀ frame ∈ framePointers m.registers.activeSp ls, ∀ k < 4,
      space.byte? (frame + k) = m'.space.byte? (frame + k)) →
    unlinkAll ls { m' with space := space } = .ok () { m with space := space }

/-- No frame has been made. -/
theorem Nested.nil (m : Machine) : m.Nested [] m :=
  ⟨rfl, .refl _ _ _, fun _ _ _ => rfl⟩

/-- The saved register of a frame lies above all frames inside of it. -/
theorem Nested.cons {m₁ : Machine} (hfirst : m.Linked l m₁) (hrest : m₁.Nested ls m')
    (hfits : linkedBytes (l :: ls) < UInt32.size) : m.Nested (l :: ls) m' := by
  rw [linkedBytes_cons] at hfits
  have hsize : (linkedSize ls).toNat = linkedBytes ls := toNat_linkedSize (by omega)
  have hfour : (4 : UInt32).toNat = 4 := rfl
  have hinner : (l.locals + linkedSize ls).toNat = l.locals.toNat + linkedBytes ls := by
    rw [toNat_add_of_lt (by omega), hsize]
  have hsp : m₁.registers.activeSp = m.registers.activeSp - 4 - l.locals := by
    rw [hfirst.machine, RegisterFile.activeSp_inFrame, Linkage.locals]
    grind
  -- Seen from the frame pointer, all that the inner frames write is below.
  have hbelow := hrest.footprint
  rw [hsp] at hbelow
  replace hbelow := hbelow.widen_below (by omega)
  constructor
  · rw [hrest.chip, hfirst.machine]
  · rw [linkedSize_cons]
    exact (hfirst.footprint.widen_above (by omega)).trans (hbelow.widen_below (by omega))
  · intro space houtline hbytes
    have hnext : m₁.registers.activeSp = m.registers.activeSp - 4 + l.distance := by
      rw [hfirst.machine, RegisterFile.activeSp_inFrame]
    have hinside : unlinkAll ls { m' with space := space } = .ok () { m₁ with space := space } := by
      refine hrest.undone space houtline fun frame hframe => hbytes frame ?_
      rw [hnext] at hframe
      exact List.mem_cons_of_mem _ hframe
    have hlong : Size.long.bytes.toNat = 4 := rfl
    have hkept : m'.load (m.registers.activeSp - 4) .long m.dataSpace =
        .ok (m.registers.addrReg l.register.castSucc) :=
      load_above hrest.chip hbelow (by omega) hfirst.saved
    rw [unlinkAll, bind_of_ok hinside]
    exact hfirst.unlink (load_congr hrest.chip.symm houtline (hbytes _ List.mem_cons_self) hkept)

end Machine

/-- Making frames nests them. -/
theorem ends_linkAll (hfits : linkedBytes ls < UInt32.size) :
    Ends (linkAll ls) m (fun _ m' => m.Nested ls m') fun _ _ => True := by
  induction ls generalizing m with
  | nil => exact .nil m
  | cons l ls ih =>
    have hless := hfits
    rw [linkedBytes_cons] at hless
    rw [linkAll, ends_bind]
    refine ends_link.mono (fun _ m₁ hfirst => ?_) fun _ _ _ => trivial
    exact (ih (by omega)).mono (fun _ m' hrest => .cons hfirst hrest hfits) fun _ _ _ => trivial

namespace Machine

/-- Nested `LINK`s whose frames take less than the address space are undone by the `UNLK`s of
the same registers, the last first: none of them faults and all registers are back, whatever
the rest of the memory holds. -/
theorem unlinkAll_linkAll (m : Machine) (ls : List Linkage)
    (hfits : linkedBytes ls < UInt32.size) (m' : Machine) (hlinked : linkAll ls m = .ok () m')
    (space : Space) (houtline : space.outline = m'.space.outline)
    (hsaved : ∀ frame ∈ framePointers m.registers.activeSp ls, ∀ k < 4,
      space.byte? (frame + k) = m'.space.byte? (frame + k)) :
    unlinkAll ls { m' with space := space } = .ok () { m with space := space } :=
  ((ends_linkAll hfits).of_ok hlinked).undone space houtline hsaved

/-- Two frames with one frame pointer and a third one, with the local variables of the
outermost frame overwritten. -/
theorem unlinkAll_linkAll_halfway :
    let m := halfway .mc68000
    let ls : List Linkage := [⟨6, 0xFFFFFFF8, by decide⟩, ⟨6, 0, by decide⟩,
      ⟨0, 0xFFFFFFFC, by decide⟩]
    linkedBytes ls < UInt32.size ∧ ∃ m', linkAll ls m = .ok () m' ∧
      let space := m'.space.setNumberAt ⟨0, 28⟩ 4 0xFFFFFFFF
      unlinkAll ls { m' with space := space } = .ok () { m with space := space } := by
  intro m ls
  have hfits : linkedBytes ls < UInt32.size := by decide
  have hok : (linkAll ls m matches .ok ..) = true := by decide +kernel
  refine ⟨hfits, ?_⟩
  cases hlinked : linkAll ls m with
  | error a m' => simp [hlinked] at hok
  | ok _ m' =>
    have houtline : m'.space.outline = m.space.outline :=
      ((ends_linkAll hfits).of_ok hlinked).footprint.outline
    have hlocate : m'.space.locate 28 4 .userData .write = .ok ⟨0, 28⟩ :=
      (Space.locate_eq_ok_congr houtline).2 rfl
    have hchanged := Space.agreeOutside_setNumberAt hlocate 0xFFFFFFFF
    refine ⟨m', rfl, unlinkAll_linkAll m ls hfits m' hlinked _ hchanged.outline ?_⟩
    intro frame hframe k hk
    apply hchanged.byte?
    have hframes : framePointers m.registers.activeSp ls = [36, 24, 20] := by decide +kernel
    rw [hframes] at hframe
    simp only [List.mem_cons, List.not_mem_nil, or_false] at hframe
    intro j hj
    rcases hframe with rfl | rfl | rfl <;> grind

end Machine

end Cpu68k
