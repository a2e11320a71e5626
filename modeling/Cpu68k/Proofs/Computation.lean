import Cpu68k.Operation.Effect
import Mathlib.Logic.Relation

/-!
# Reasoning about the computations of an instruction

A computation ends with a value or with a failure, and in both cases with a
machine. `Ends` says what holds then; it passes through the parts of a
computation one after the other. `Keeps` relates the machine in which a
computation starts to the one in which it ends, however it ends, and says that the
computation fails at an access only.
-/

namespace Cpu68k

/-- The bus cycle of a bus or address error. -/
def Fault.cycle? : Fault → Option BusCycle
  | busError cycle | addressError cycle => some cycle
  | _ => none

/-- The machine with another program counter. -/
def Machine.withPc (m : Machine) (pc : UInt32) : Machine :=
  { m with registers := { m.registers with pc := pc } }

variable {α β : Type} {x : Exec α} {f : α → Exec β} {m m' : Machine}
variable {Q Q' : α → Machine → Prop} {E E' : Abort → Machine → Prop}
variable {R : Machine → Machine → Prop}

/-- The computation `x`, started in `m`, ends with a value and a machine that
satisfy `Q`, or with a failure and a machine that satisfy `E`. -/
def Ends (x : Exec α) (m : Machine) (Q : α → Machine → Prop) (E : Abort → Machine → Prop) :
    Prop :=
  match x m with
  | .ok a m' => Q a m'
  | .error e m' => E e m'

/-- What holds of a computation that has succeeded. -/
theorem Ends.of_ok {a : α} (h : Ends x m Q E) (hx : x m = .ok a m') : Q a m' := by
  rwa [Ends, hx] at h

/-- What holds of a computation that has failed. -/
theorem Ends.of_error {e : Abort} (h : Ends x m Q E) (hx : x m = .error e m') : E e m' := by
  rwa [Ends, hx] at h

/-- A computation that can only end in one way does. -/
theorem Ends.eq_ok {a : α} (h : Ends x m (fun b m₁ => b = a ∧ m₁ = m') fun _ _ => False) :
    x m = .ok a m' := by
  cases hx : x m with
  | ok b m₁ =>
    obtain ⟨rfl, rfl⟩ := h.of_ok hx
    rfl
  | error e m₁ => exact (h.of_error hx).elim

/-- To show how a computation ends, both ways of ending may be assumed. -/
theorem ends_of (hok : ∀ a m', x m = .ok a m' → Q a m')
    (herror : ∀ e m', x m = .error e m' → E e m') : Ends x m Q E := by
  unfold Ends
  cases hx : x m with
  | ok a m' => exact hok a m' hx
  | error e m' => exact herror e m' hx

/-- The law of a computation may be weakened in both endings. -/
theorem Ends.mono (h : Ends x m Q E) (hQ : ∀ a m', Q a m' → Q' a m')
    (hE : ∀ e m', E e m' → E' e m') : Ends x m Q' E' :=
  ends_of (fun a m' hx => hQ a m' (h.of_ok hx)) fun e m' hx => hE e m' (h.of_error hx)

/-- A description of the value alone. -/
theorem Ends.mono_ok (h : Ends x m Q E) (hQ : ∀ a m', Q a m' → Q' a m') :
    Ends x m Q' fun _ _ => True :=
  h.mono hQ fun _ _ _ => trivial

/-- Two descriptions of one ending hold together. -/
theorem Ends.and (h : Ends x m Q E) (h' : Ends x m Q' E') :
    Ends x m (fun a m' => Q a m' ∧ Q' a m') fun e m' => E e m' ∧ E' e m' :=
  ends_of (fun _ _ hx => ⟨h.of_ok hx, h'.of_ok hx⟩) fun _ _ hx => ⟨h.of_error hx, h'.of_error hx⟩

/-- Nothing is said about how a computation ends. -/
@[simp]
theorem ends_true : Ends x m (fun _ _ => True) fun _ _ => True :=
  ends_of (fun _ _ _ => trivial) fun _ _ _ => trivial

/-- A value by itself ends at once. -/
@[simp]
theorem ends_pure (a : α) : Ends (pure a) m Q E ↔ Q a m := Iff.rfl

/-- In a sequence the second part starts where the first one has succeeded. -/
@[simp]
theorem ends_bind {Q : β → Machine → Prop} :
    Ends (x >>= f) m Q E ↔ Ends x m (fun a m' => Ends (f a) m' Q E) E := by
  change (match EStateM.bind x f m with
    | .ok a m' => Q a m'
    | .error e m' => E e m') ↔ _
  unfold Ends EStateM.bind
  cases x m <;> rfl

/-- What follows a computation that succeeds. -/
theorem bind_of_ok {a : α} (h : x m = .ok a m') : (x >>= f) m = f a m' := by
  change EStateM.bind x f m = _
  unfold EStateM.bind
  rw [h]

/-- Nothing follows a computation that fails. -/
theorem bind_of_error {e : Abort} (h : x m = .error e m') : (x >>= f) m = .error e m' := by
  change EStateM.bind x f m = _
  unfold EStateM.bind
  rw [h]

/-- A sequence that succeeds has two parts that succeed. -/
theorem exists_of_bind_ok {b : β} (h : (x >>= f) m = .ok b m') :
    ∃ a m₁, x m = .ok a m₁ ∧ f a m₁ = .ok b m' := by
  cases hx : x m with
  | ok a m₁ => exact ⟨a, m₁, rfl, by rwa [bind_of_ok hx] at h⟩
  | error e m₁ =>
    rw [bind_of_error hx] at h
    cases h

/-- A choice ends as the computation that is chosen. -/
@[simp]
theorem ends_ite {c : Prop} [Decidable c] {y : Exec α} :
    Ends (if c then x else y) m Q E ↔ if c then Ends x m Q E else Ends y m Q E := by
  split <;> rfl

/-- Looking at the machine gives the machine. -/
@[simp]
theorem ends_get {Q : Machine → Machine → Prop} : Ends get m Q E ↔ Q m m := Iff.rfl

/-- A change of the machine succeeds. -/
@[simp]
theorem ends_modify {Q : Unit → Machine → Prop} (g : Machine → Machine) :
    Ends (modify g) m Q E ↔ Q () (g m) := Iff.rfl

/-- Raising a fault fails, without the reason of an access. -/
@[simp]
theorem ends_raise (fault : Fault) : Ends (raise fault) m Q E ↔ E ⟨fault, none⟩ m := Iff.rfl

/-- A change of registers succeeds. -/
@[simp]
theorem ends_modifyRegisters {Q : Unit → Machine → Prop} (g : RegisterFile → RegisterFile) :
    Ends (modifyRegisters g) m Q E ↔ Q () { m with registers := g m.registers } := Iff.rfl

/-- Setting the program counter succeeds. -/
@[simp]
theorem ends_setPc {Q : Unit → Machine → Prop} (pc : UInt32) :
    Ends (setPc pc) m Q E ↔ Q () { m with registers := { m.registers with pc := pc } } := Iff.rfl

/-- Setting the status word succeeds. -/
@[simp]
theorem ends_setStatusWord {Q : Unit → Machine → Prop} (sr : Status) :
    Ends (setStatusWord sr) m Q E ↔ Q () { m with registers := { m.registers with sr := sr } } :=
  Iff.rfl

/-- Setting the run state succeeds. -/
@[simp]
theorem ends_setState {Q : Unit → Machine → Prop} (state : RunState) :
    Ends (setState state) m Q E ↔ Q () { m with state := state } := Iff.rfl

/-- The computation relates the machine in which it starts to the one in which it
ends, also where it fails, and it fails at an access only. -/
def Keeps (R : Machine → Machine → Prop) (x : Exec α) : Prop :=
  ∀ m, Ends x m (fun _ m' => R m m') fun a m' => R m m' ∧ a.fault.cycle?.isSome

/-- After `get` the machine that was read is the one in which the rest starts. -/
theorem keeps_get_bind {f : Machine → Exec β} (hf : ∀ m, Ends (f m) m (fun _ m' => R m m')
    fun a m' => R m m' ∧ a.fault.cycle?.isSome) : Keeps R (get >>= f) := by
  intro m
  rw [ends_bind, ends_get]
  exact hf m

/-- A choice between two computations that keep a relation keeps it. -/
theorem Keeps.ite {c : Prop} [Decidable c] {y : Exec α} (hx : Keeps R x) (hy : Keeps R y) :
    Keeps R (if c then x else y) := by
  split
  · exact hx
  · exact hy

section Preorder

variable [IsPreorder Machine R]

/-- A value by itself keeps the machine. -/
theorem keeps_pure (a : α) : Keeps R (pure a) := fun m => refl_of R m

/-- Looking at the machine keeps it. -/
theorem keeps_get : Keeps R get := fun m => refl_of R m

/-- What starts after a part of a computation relates the whole. -/
theorem Ends.keeps {x : Exec α} (hm : R m m') (hx : Ends x m' (fun _ m₁ => R m' m₁)
    fun a m₁ => R m' m₁ ∧ a.fault.cycle?.isSome) :
    Ends x m' (fun _ m₁ => R m m₁) fun a m₁ => R m m₁ ∧ a.fault.cycle?.isSome :=
  hx.mono (fun _ _ h => trans_of R hm h) fun _ _ h => ⟨trans_of R hm h.1, h.2⟩

/-- A sequence of computations that keep a relation keeps it. -/
theorem Keeps.bind (hx : Keeps R x) (hf : ∀ a, Keeps R (f a)) : Keeps R (x >>= f) := by
  intro m
  rw [ends_bind]
  exact (hx m).mono (fun a m₁ h₁ => (hf a m₁).keeps h₁) fun a m₁ h₁ => h₁

/-- Loading keeps the machine, and fails at its access only. -/
theorem keeps_loadFrom (addr : UInt32) (size : Size) (fc : FunctionCode) :
    Keeps R (loadFrom addr size fc) := by
  intro m
  unfold Ends loadFrom Machine.load
  by_cases hforbids : m.forbids addr size = true
  · simp [hforbids, Fault.cycle?, refl_of R m]
  · cases m.space.read addr size.bytes fc .read <;> simp [hforbids, Fault.cycle?, refl_of R m]

/-- Reading data keeps the machine. -/
theorem keeps_readData (addr : UInt32) (size : Size) : Keeps R (readData addr size) :=
  fun m => keeps_loadFrom addr size m.dataSpace m

/-- Reading next to the program keeps the machine. -/
theorem keeps_readProgram (addr : UInt32) (size : Size) : Keeps R (readProgram addr size) :=
  fun m => keeps_loadFrom addr size m.programSpace m

/-- Reading a place changes nothing. -/
theorem keeps_placeRead (p : Place) (size : Size) : Keeps R (p.read size) := by
  cases p with
  | dataReg n => exact keeps_get.bind fun m => keeps_pure _
  | addrReg n => exact keeps_get.bind fun m => keeps_pure _
  | memory addr => exact keeps_readData addr size

/-- Reading an operand changes nothing. -/
theorem keeps_operandRead (o : Operand) (size : Size) : Keeps R (o.read size) := by
  cases o with
  | place p => exact keeps_placeRead p size
  | program addr => exact keeps_readProgram addr size
  | constant value => exact keeps_pure _

/-- Reading bytes from every other address changes nothing. -/
theorem keeps_loadAlternate (addr : UInt32) (n : Nat) (value : UInt32) :
    Keeps R (loadAlternate addr n value) := by
  induction n generalizing addr value with
  | zero => exact keeps_pure _
  | succ n ih => exact (keeps_readData _ _).bind fun _ => ih _ _

end Preorder

end Cpu68k
