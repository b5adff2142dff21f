import EcSlimloader.Rom.Api

/-!
# `EcSlimloader.Rom.Fuses`: writing fuses

The write access to the fuses in `imxrt-rom/src/otp.rs` and `registers.rs`. Here the fuses
are a part of the state: `Chip` is `RomState` with the words in the fuses beside it. The
functions that only read see the ROM of a chip with these fuses.

`otp_driver.fuse_program` belongs to the boot ROM, so `OtpRom` has it as a parameter.
`OtpRom.Programs` is what the fuses are: bits that can be set and not cleared.

A call of `fuse_program` may fail, and a call that fails may have burnt some of the bits.
`OtpRom.Programs` allows that. What it excludes is a bit that
is cleared, a bit that was not asked for, and a success that has not set every bit.
-/

set_option autoImplicit false

namespace EcSlimloader

/-- The words in the fuses. -/
abbrev Fuses : Type := Nat → UInt32

/-- The ROM of a chip whose fuses can be written. -/
structure OtpRom where
  /-- The ROM of a chip with the given fuses. -/
  rom : Fuses → Rom
  /-- `otp_driver.fuse_program`, with the number of earlier calls and the fuses first. It
  answers with its status and the fuses behind it. -/
  fuseProgram : Nat → Fuses → (addr : Nat) → (data : UInt32) → (lock : Bool) → UInt32 × Fuses

/-- A chip whose fuses can be written. -/
structure Chip where
  fuses : Fuses
  rom : RomState

/-- A step that does not write fuses. -/
def onRom {ε α : Type} (x : Exec ε RomState α) : Exec ε Chip α :=
  Exec.zoom Chip.rom (fun rom chip => { chip with rom }) id x

/-- `OtpError`. -/
inductive OtpError where
  | WriteNotAllowed
  | Inner (e : Otp.Error)
  deriving DecidableEq, Repr

/-- `Otp::write_fuse`. -/
def Otp.writeFuse (otp : OtpRom) (addr : Nat) (data : UInt32) (lock : Bool) :
    Exec Otp.Error Chip Unit := do
  let call ← onRom romCall
  let (status, fuses) := otp.fuseProgram call (← get).fuses addr data lock
  modify fun chip => { chip with fuses }
  if status = kbStatusSuccess then pure () else Exec.fail { status }

/-- `OtpInterface`, without the driver. -/
structure OtpInterface where
  allowWrite : Bool
  modeLocked : Bool
  deriving DecidableEq, Repr

namespace OtpInterface

/-- `OtpFuses::readonly`. -/
def readonly : OtpInterface := { allowWrite := false, modeLocked := false }

/-- `OtpFuses::writable`. -/
def writable (modeLocked : Bool) : OtpInterface := { allowWrite := true, modeLocked }

/-- `OtpInterface::write_register`. The words before one that fails stay written. -/
def writeRegister (otp : OtpRom) (interface : OtpInterface) (otpWordI : Nat)
    (data : List UInt8) : Exec OtpError Chip Unit :=
  if interface.allowWrite then
    (dataToOtpWords otpWordI data).forM fun (otpWordI, word) =>
      Exec.mapError .Inner (Otp.writeFuse otp otpWordI word interface.modeLocked)
  else Exec.fail .WriteNotAllowed

/-- `fuses.<register>().write(|w| *w = data)`. -/
def write (otp : OtpRom) (interface : OtpInterface) (register : Register) (data : List UInt8) :
    Exec OtpError Chip Unit :=
  writeRegister otp interface register.address data

/-- `fuses.<register>().read()`, on a chip whose fuses can be written. -/
def read (otp : OtpRom) (register : Register) : Exec Otp.Error Chip (List UInt8) :=
  fun chip => onRom (OtpFuses.read (otp.rom chip.fuses) register) chip

end OtpInterface

/-- Programming sets bits of the data, and no other ones. It sets all of them when it
succeeds. -/
structure OtpRom.Programs (otp : OtpRom) : Prop where
  others : ∀ calls fuses addr data lock i, i ≠ addr →
    (otp.fuseProgram calls fuses addr data lock).2 i = fuses i
  keeps : ∀ calls fuses addr data lock,
    fuses addr ||| (otp.fuseProgram calls fuses addr data lock).2 addr
      = (otp.fuseProgram calls fuses addr data lock).2 addr
  within : ∀ calls fuses addr data lock,
    (otp.fuseProgram calls fuses addr data lock).2 addr ||| (fuses addr ||| data)
      = fuses addr ||| data
  sets : ∀ calls fuses addr data lock,
    (otp.fuseProgram calls fuses addr data lock).1 = kbStatusSuccess →
      (otp.fuseProgram calls fuses addr data lock).2 addr = fuses addr ||| data

/-- The fuses that are read are those of the chip, and a reload copies them. -/
structure OtpRom.ReadsFuses (otp : OtpRom) : Prop where
  fuse : ∀ fuses, (otp.rom fuses).fuse = fuses
  reloads : ∀ fuses, (otp.rom fuses).ReloadsFuses

/-- Every access to the fuses succeeds. -/
structure OtpRom.AccessesSucceed (otp : OtpRom) : Prop where
  fuseRead : ∀ fuses calls addr, (otp.rom fuses).fuseRead calls addr = kbStatusSuccess
  fuseProgram : ∀ calls fuses addr data lock,
    (otp.fuseProgram calls fuses addr data lock).1 = kbStatusSuccess

end EcSlimloader
