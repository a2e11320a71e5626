import Cpu68k.Space.Region

/-!
# Booting an image

A raw image is copied into RAM that is clear otherwise. Unless the image starts at
address zero and brings its own, reset vectors are made: the stack starts at the
end of the RAM, and the program at the start of the image.
-/

namespace Cpu68k

/-- Why an image cannot be booted. -/
inductive BootError
  /-- The RAM does not hold the reset vectors. -/
  | tooSmall (ramSize : UInt32)
  /-- The image ends past the end of the RAM. -/
  | doesNotFit (length : Nat) (load ramSize : UInt32)
  /-- The image starts among the reset vectors. -/
  | overlapsVectors (load : UInt32)
  deriving DecidableEq

/-- The message of a boot error. -/
def BootError.message : BootError → String
  | tooSmall ramSize => "RAM size " ++ hex 1 ramSize.toNat ++ " is too small"
  | doesNotFit length load ramSize =>
    "image of " ++ hex 1 length ++ " bytes at " ++ hex 1 load.toNat ++ " does not fit in " ++
      hex 1 ramSize.toNat ++ " bytes of RAM"
  | overlapsVectors load =>
    "load address " ++ hex 1 load.toNat ++ " overlaps the reset vectors"

/-- The number of bytes that the reset vectors take. -/
def resetVectorsSize : Nat := 8

/-- Bytes that are all zero. -/
def clearBytes (n : Nat) : ByteArray :=
  ⟨Array.replicate n 0⟩

/-- The contents of RAM around an image. -/
def imageBytes (image : ByteArray) (load ramSize : Nat) : ByteArray :=
  clearBytes load ++ image ++ clearBytes (ramSize - load - image.size)

/-- The RAM from which a machine resets into an image. Its low bytes are protected. -/
def bootRam (image : ByteArray) (load ramSize : UInt32) : Except BootError Region :=
  if ramSize.toNat < resetVectorsSize then .error (.tooSmall ramSize)
  else if ramSize.toNat < load.toNat + image.size then
    .error (.doesNotFit image.size load ramSize)
  else
    let ram : Region := ⟨.lowMemory, imageBytes image load.toNat ramSize.toNat⟩
    if load = 0 then .ok ram
    else if load.toNat < resetVectorsSize then .error (.overlapsVectors load)
    else .ok ((ram.setNumber 0 4 ramSize).setNumber 4 4 load)

end Cpu68k
