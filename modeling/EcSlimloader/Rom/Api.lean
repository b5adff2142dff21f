import EcSlimloader.Rom.Registers

/-!
# `EcSlimloader.Rom.Api`: the fuse driver and the authentication of the boot ROM

The wrappers of `imxrt-rom/src/otp.rs`, `registers.rs` and `skboot.rs`, over the
functions of the ROM itself. The ROM is not a part of the repository, so `Rom` is a
parameter: every function answers with a status of its own choice, and the answer may
depend on the number of ROM calls so far. `authenticate` sees the shadow registers
and may change them in any way. `ReloadsFuses` is what the bootloader relies on.

`RomState` holds the shadow registers, the static `INITIALIZED` of the fuse driver
and a record of the calls of `skboot_authenticate`. The programs do not read the
record.

The flag `otpInitialized` is a static of the crate, and `Otp::init` panics if it is set. `drop`
clears it. A program that forgets to drop the driver therefore panics at its next use, and a proof
that it does not has to follow the flag through every path.
-/

set_option autoImplicit false

namespace EcSlimloader

/-- A call of `skboot_authenticate`: its arguments, the image in memory at `start`, and
the shadow registers at the time of the call. -/
structure AuthenticateCall where
  start : UInt32
  maxImageLength : UInt32
  rhk : Option (List UInt8)
  image : List UInt8
  shadow : Shadow

/-- What `skboot.authenticate` of the ROM leaves behind. -/
structure AuthenticateAnswer where
  result : UInt32
  isSignVerified : UInt32
  shadow : Shadow

/-- The functions of the ROM. The first argument of each is the number of earlier
calls, and a status of `0` is a success. -/
structure Rom where
  /-- The words in the fuses. -/
  fuse : Nat → UInt32
  /-- The status of `otp_driver.fuse_read`. -/
  fuseRead : Nat → Nat → UInt32
  /-- `otp_driver.reload`: its status, and the shadow registers behind it. -/
  reload : Nat → Shadow → UInt32 × Shadow
  /-- The status of `iap_driver.init`. -/
  iapInit : Nat → UInt32
  /-- `skboot.authenticate`. -/
  authenticate : Nat → AuthenticateCall → AuthenticateAnswer
  /-- The status of `iap_driver.deinit`. -/
  iapDeinit : Nat → UInt32

/-- `KbStatus::Success`. -/
def kbStatusSuccess : UInt32 := 0

/-- A reload that succeeds copies each mapped fuse word to its shadow register. -/
def Rom.ReloadsFuses (rom : Rom) : Prop :=
  ∀ (calls : Nat) (shadow : Shadow), (rom.reload calls shadow).1 = kbStatusSuccess →
    ∀ (otpWordI addr : Nat), otpToShadowAddr otpWordI = .ok addr →
      (rom.reload calls shadow).2 addr = rom.fuse otpWordI

/-- The state of the chip that the wrappers work on. -/
structure RomState where
  shadow : Shadow
  /-- The static `INITIALIZED` of the fuse driver. -/
  otpInitialized : Bool
  /-- The number of ROM calls so far. -/
  calls : Nat
  /-- The calls of `skboot_authenticate` so far. -/
  authentications : List AuthenticateCall

/-- Count a ROM call, and return its number. -/
def romCall {ε : Type} : Exec ε RomState Nat :=
  modifyGet fun st => (st.calls, { st with calls := st.calls + 1 })

/-! ### Shadow registers

The words are read and written by index, and an index without a shadow address is an error. The
registers are the words between two of them, as bytes. -/

namespace ShadowRegisters

/-- `shadow.<register>().read()`. -/
def read (register : Register) : Exec NotShadowRegister RomState (List UInt8) := do
  let st ← get
  match st.shadow.readRegister register.address register.size with
  | .error e => Exec.fail e
  | .ok data => pure data

/-- `shadow.<register>().write(|w| *w = data)`. -/
def write (register : Register) (data : List UInt8) : Exec NotShadowRegister RomState Unit :=
  Exec.zoom RomState.shadow (fun shadow st => { st with shadow }) id
    (Shadow.writeRegister register.address data)

/-- `shadow.<register>().modify(f)`. -/
def modify (register : Register) (f : List UInt8 → List UInt8) :
    Exec NotShadowRegister RomState Unit := do
  let data ← read register
  write register (f data)

end ShadowRegisters

/-! ### The fuse driver

The driver keeps a flag that it is in use, as the static in the source does. `init` panics if it is
set, and `drop` clears it. -/

namespace Otp

/-- `otp::Error`, a status of the ROM. -/
structure Error where
  status : UInt32
  deriving DecidableEq, Repr

/-- `Otp::init`. The status of `otp_driver.init` is ignored. -/
def init {ε : Type} : Exec ε RomState Unit := do
  if (← get).otpInitialized then
    Exec.panic "Using OTP whilst it has already been initialized"
  else
    modify fun st => { st with otpInitialized := true }
    let _call ← romCall

/-- `Otp::read_fuse`. -/
def readFuse (rom : Rom) (addr : Nat) : Exec Error RomState UInt32 := do
  let call ← romCall
  let status := rom.fuseRead call addr
  if status = kbStatusSuccess then pure (rom.fuse addr) else Exec.fail { status }

/-- `Otp::reload_shadow`. -/
def reloadShadow (rom : Rom) : Exec Error RomState Unit := do
  let call ← romCall
  let (status, shadow) := rom.reload call (← get).shadow
  modify fun st => { st with shadow }
  if status = kbStatusSuccess then pure () else Exec.fail { status }

/-- `Drop for Otp`. The status of `otp_driver.deinit` is ignored. -/
def drop {ε : Type} : Exec ε RomState Unit := do
  let _call ← romCall
  modify fun st => { st with otpInitialized := false }

end Otp

/-- `fuses.<register>().read()`. -/
def OtpFuses.read (rom : Rom) (register : Register) : Exec Otp.Error RomState (List UInt8) :=
  otpWordsToData (Otp.readFuse rom) register.address register.size

/-! ### Authentication

The ROM answers with a status and a flag. The driver looks at the status first. A flag other than
the two that it expects is an error of its own. -/

/-- `BootStatus`. -/
inductive BootStatus where
  | Success
  | Fail
  | InvalidArgument
  | KeyStoreMarkerInvalid
  | HashcryptFinishedWithStatusSuccess
  | HashcryptFinishedWithStatusFail
  deriving DecidableEq, Repr

/-- `BootStatus::try_from`. -/
def BootStatus.tryFrom (value : UInt32) : Option BootStatus :=
  if value = 0x5ac3c35a then some .Success
  else if value = 0xc35ac35a then some .Fail
  else if value = 0xc35a5ac3 then some .InvalidArgument
  else if value = 0xc3c35a5a then some .KeyStoreMarkerInvalid
  else if value = 0xc15a5ac3 then some .HashcryptFinishedWithStatusSuccess
  else if value = 0xc15a5acb then some .HashcryptFinishedWithStatusFail
  else none

/-- `SecureBool`. -/
inductive SecureBool where
  | True
  | False
  | CallProtectSecurityFlags
  | CallProtectIsAppReady
  | TrackerVerified
  deriving DecidableEq, Repr

/-- `SecureBool::try_from`. -/
def SecureBool.tryFrom (value : UInt32) : Option SecureBool :=
  if value = 0xc33cc33c then some .True
  else if value = 0x5aa55aa5 then some .False
  else if value = 0xc33c5aa5 then some .CallProtectSecurityFlags
  else if value = 0x5aa5c33c then some .CallProtectIsAppReady
  else if value = 0x55aacc33 then some .TrackerVerified
  else none

/-- `AuthenticateError`. -/
inductive AuthenticateError where
  /-- Failed to verify signature. -/
  | SignUnverified
  /-- Failed to verify signature with unknown error. -/
  | SignUnknown
  /-- Failed to authenticate the image, or to open or close the ROM session. -/
  | Fail
  /-- Found an unexpected value in image. -/
  | UnexpectedValueInImage
  /-- The keystore marker on the image is invalid. -/
  | KeyStoreMarkerInvalid
  /-- The function passed an undefined return value. -/
  | BootStatusUnknown
  /-- The function passed an undefined value as `is_sign_verified` value. -/
  | IsSignVerifiedUnknown
  deriving DecidableEq, Repr

/-- The result of `skboot_authenticate` from what the ROM reported. -/
def authenticateResult (result isSignVerified : UInt32) : Except AuthenticateError Unit :=
  match BootStatus.tryFrom result with
  | none => .error .BootStatusUnknown
  | some .Success =>
      match SecureBool.tryFrom isSignVerified with
      | some .TrackerVerified => .ok ()
      | some .False => .error .SignUnverified
      | _ => .error .SignUnknown
  | some .Fail => .error .Fail
  | some .InvalidArgument => .error .UnexpectedValueInImage
  | some .KeyStoreMarkerInvalid => .error .KeyStoreMarkerInvalid
  | some _ => .error .BootStatusUnknown

/-- The ROM session of `skboot_authenticate`. -/
def authenticateSession (rom : Rom) (authentication : AuthenticateCall) :
    Exec AuthenticateError RomState Unit := do
  let call ← romCall
  if rom.iapInit call ≠ kbStatusSuccess then
    Exec.fail .Fail
  else
    let call ← romCall
    let answer := rom.authenticate call authentication
    modify fun st => { st with shadow := answer.shadow }
    let call ← romCall
    if rom.iapDeinit call ≠ kbStatusSuccess then
      Exec.fail .Fail
    else
      Exec.ofExcept ((authenticateResult answer.result answer.isSignVerified).mapError .error)

/-- `skboot_authenticate`, for the image that is in memory at `start`. -/
def skbootAuthenticate (rom : Rom) (start maxImageLength : UInt32) (rhk : Option (List UInt8))
    (image : List UInt8) : Exec AuthenticateError RomState Unit := do
  let authentication : AuthenticateCall :=
    { start, maxImageLength, rhk, image, shadow := (← get).shadow }
  modify fun st => { st with authentications := st.authentications ++ [authentication] }
  authenticateSession rom authentication

end EcSlimloader
