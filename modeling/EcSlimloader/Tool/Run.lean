import EcSlimloader.Rom.Registers
import EcSlimloader.Tool.Sign

/-!
# `EcSlimloader.Tool.Run`: the command that runs an image on a device

`process_other` from `bootloader-tool/src/commands/download.rs` signs an image and writes it to the
flash of a device. `process` from `commands/run.rs` does that, and then writes the shadow registers
that the boot ROM looks at: the hash of the root keys, the master key and the boot configuration.
The addresses are numbers there, and so they are here. In the end it resets the device, and lets
another program attach to it.

A debug probe does the accesses. It is driven by another crate, so `Probe` is a parameter. Each of
its functions may fail, and leaves a device behind in any case. `configureTarget` is the part of
`process` in front of the reset, where every failure is an error. The reset and the program behind
it are unwrapped, so their failures are panics, with a device that has been configured.

What `probe-rs` does to the device behind the reset is not described, since the command is at its
end then. `std::process::exit` with more than one probe attached is the error `RunError.exit`: like
an error, it ends the command, and nothing of the device was touched.
-/

set_option autoImplicit false

namespace EcSlimloader

open Bytes (fromLe)

/-! ### Words for the probe -/

/-- `bytes_to_u32_le`. -/
def bytesToU32Le : List UInt8 → List UInt32
  | b0 :: b1 :: b2 :: b3 :: rest => fromLe b0 b1 b2 b3 :: bytesToU32Le rest
  | _ => []

/-- `bytes_to_u32_be`. -/
def bytesToU32Be : List UInt8 → List UInt32
  | b0 :: b1 :: b2 :: b3 :: rest => fromLe b3 b2 b1 b0 :: bytesToU32Be rest
  | _ => []

namespace Tool

/-- `Rkth::as_u32_le`. -/
def Rkth.asU32Le (me : Rkth) : List UInt32 := bytesToU32Le me.val

/-- `Otp::as_reversed_u32_be`. -/
def Otp.asReversedU32Be (me : Otp) : List UInt32 := (bytesToU32Be me.val).reverse

end Tool

/-! ### The device

The words that the probe can write by address, and the flash. What else there is on the device is
not looked at by the tool. -/

/-- What the tool changes of a device: the bytes of the flash and the words of the shadow
registers, by address. -/
structure Target where
  flash : Nat → UInt8
  shadow : Shadow

/-- The probe, and the program that attaches to it. Each function that works with the device
answers with its result, if it succeeds, and with the device that it leaves behind. -/
structure Probe where
  /-- Whether `DebugProbeSelector::try_from` and `Lister::open` open a probe, for a selector. -/
  openSelected : String → Bool
  /-- The number of probes that `Lister::list_all` finds. -/
  count : Nat
  /-- Whether `DebugProbeInfo::open` opens it, if there is one. -/
  openOnly : Bool
  /-- `Probe::attach`, for the type of the chip. -/
  attach : String → Target → Option Unit × Target
  /-- `download_file_with_options`, for the bytes of a binary file. -/
  download : UInt64 → List UInt8 → Target → Option Unit × Target
  /-- `Session::core`. -/
  core : Target → Option Unit × Target
  /-- `MemoryInterface::write_32`. -/
  write32 : Nat → List UInt32 → Target → Option Unit × Target
  /-- `MemoryInterface::read_32` of one word. -/
  read32 : Nat → Target → Option UInt32 × Target
  /-- `Core::reset`. -/
  reset : Target → Option Unit × Target
  /-- `Command::status`, for a program and its arguments. It fails if the program cannot be run.
  The exit status of a program that was run does not matter. -/
  status : Path → List String → Target → Option Unit × Target

/-! ### Commands -/

/-- `ProbeArgs`. -/
structure ProbeArgs where
  /-- Which probe to use (passed to `probe-rs`). -/
  probe : Option String
  /-- Type of chip to be programmed (passed to `probe-rs`). -/
  chip : String
  deriving DecidableEq, Repr

/-- `RunArguments`. -/
structure RunArguments where
  signArgs : SignArguments
  probeArgs : ProbeArgs
  /-- Where the `probe-rs` binary can be found. -/
  probeRsPath : Path
  deriving DecidableEq, Repr

/-- `RunCommands`. -/
inductive RunCommands where
  | bootloader (runArgs : RunArguments)
  | application (runArgs : RunArguments) (slot : UInt8)
  deriving DecidableEq, Repr

/-- The arguments that both commands have. -/
def RunCommands.runArgs : RunCommands → RunArguments
  | .bootloader runArgs => runArgs
  | .application runArgs _ => runArgs

/-- The errors of the commands. -/
inductive RunError where
  /-- An error on the files of the host. -/
  | host (e : CommandError)
  /-- "Bootloader not defined in configuration file", also if it is the application. -/
  | notDefined
  /-- "Slot {} not defined in configuration file". -/
  | noSlot (slot : UInt8)
  /-- "Image was not signed so nothing to run". -/
  | notSigned
  /-- "No probe found". -/
  | noProbe
  /-- The exit of the process, where a probe has to be selected. -/
  | exit
  /-- An error in `start_session` of opening a probe that was selected, or of attaching. -/
  | session
  /-- "Failed to flash binary". -/
  | flash
  /-- An error of `core`, `write_32` or `read_32`. -/
  | access
  deriving DecidableEq, Repr

/-- The host and the device at its probe. -/
structure Workbench where
  files : HostFiles
  device : Target

/-- A command on the files of the host. -/
def onHost {α : Type} (x : Command α) : Exec RunError Workbench α :=
  Exec.zoom Workbench.files (fun files s => { s with files }) .host x

/-- A request to the probe, with the error for one that fails. -/
def onProbe {α : Type} (request : Target → Option α × Target) (e : RunError) :
    Exec RunError Workbench α :=
  fun s => match request s.device with
    | (some a, device) => .ok a { s with device }
    | (none, device) => .error (.error e) { s with device }

/-- The first `match` of `process_other`: what is signed, whether it is a bootloader, and where it
goes. -/
def selectImage (config : ToolConfig) :
    RunCommands → Except (Fault RunError) (RunArguments × Bool × UInt64)
  | .bootloader runArgs =>
      match config.bootloader with
      | some bootloader => .ok (runArgs, true, bootloader.flashStart)
      | none => .error (.error .notDefined)
  | .application runArgs slot =>
      match config.application with
      | some application =>
          match application.slotStarts[slot.toNat]? with
          | some flashStart => .ok (runArgs, false, flashStart)
          | none => .error (.error (.noSlot slot))
      | none => .error (.error .notDefined)

section Process

variable {Certificate Key PrivateKey : Type} (host : Host Certificate Key PrivateKey)
  (probe : Probe)

/-- The probe that `start_session` opens: the selected one, or the only one. -/
def openProbe (selector : Option String) : Exec RunError Workbench Unit :=
  match selector with
  | some selector => if probe.openSelected selector then pure () else Exec.fail .session
  | none =>
      match probe.count with
      | 0 => Exec.fail .noProbe
      | 1 => Exec.unwrap (if probe.openOnly then pure () else Exec.fail RunError.session)
      | _ => Exec.fail .exit

/-- `start_session`. -/
def startSession (args : ProbeArgs) : Exec RunError Workbench Unit := do
  openProbe probe args.probe
  onProbe (probe.attach args.chip) .session

/-- `process_other`. -/
def processOther (config : ToolConfig) (command : RunCommands) :
    Exec RunError Workbench Digest := do
  let (runArgs, isBootloader, flashStart) ← Exec.ofExcept (selectImage config command)
  let output ← onHost (signProcess host config isBootloader runArgs.signArgs)
  match output.outputPath with
  | none => Exec.fail .notSigned
  | some outputPath =>
      startSession probe runArgs.probeArgs
      let image ← Exec.mapError (fun _ => .flash) (onHost (readFile outputPath))
      onProbe (probe.download flashStart image) .flash
      pure output.rkth

/-- `boot0`: QSPI B, no ISP mode, TrustZone mode, secure boot, no DICE, and the pin that reports
a failed boot. -/
def runBoot0 : UInt32 :=
  (0b0101 : UInt32) ||| (0b111 : UInt32) <<< 4 ||| (0b10 : UInt32) <<< 13
    ||| (0b01 : UInt32) <<< 20 ||| (0b1 : UInt32) <<< 23 ||| (0b101 : UInt32) <<< 24
    ||| (0b00111 : UInt32) <<< 27

/-- `boot1`: the pin that resets the flash. -/
def runBoot1 : UInt32 :=
  (1 : UInt32) <<< 14 ||| (2 : UInt32) <<< 15 ||| (12 : UInt32) <<< 18

/-- Set `USE_PUF` to 0. -/
def clearUsePuf (word : UInt32) : UInt32 := word &&& ~~~((1 : UInt32) <<< 7)

/-- "Setting shadow registers on target". -/
def writeShadow (rkth : Digest) (otp : Tool.Otp) : Exec RunError Workbench Unit := do
  onProbe (probe.write32 0x401301E0 (Tool.Rkth.asU32Le rkth)) .access
  onProbe (probe.write32 0x401301C0 otp.asReversedU32Be) .access
  onProbe (probe.write32 0x40130180 [runBoot0]) .access
  onProbe (probe.write32 0x40130184 [runBoot1]) .access
  let buf ← onProbe (probe.read32 0x40130194) .access
  onProbe (probe.write32 0x40130194 [clearUsePuf buf]) .access

/-- The part of `process` in front of the reset. -/
def configureTarget (config : ToolConfig) (command : RunCommands) :
    Exec RunError Workbench Unit := do
  let otp ← onHost (Tool.getOtp config)
  let rkth ← processOther host probe config command
  onProbe probe.core .access
  writeShadow probe rkth otp

/-- The arguments that `probe-rs` is run with. -/
def attachArgs (runArgs : RunArguments) : List String :=
  ["attach", "--chip", runArgs.probeArgs.chip]
    ++ (match runArgs.probeArgs.probe with
        | some probe => ["--probe", probe]
        | none => [])
    ++ [runArgs.signArgs.inputPath]

/-- `process`. -/
def runProcess (config : ToolConfig) (command : RunCommands) : Exec RunError Workbench Unit := do
  configureTarget host probe config command
  Exec.unwrap (onProbe probe.reset RunError.access)
  let runArgs := command.runArgs
  Exec.unwrap
    (onProbe (probe.status runArgs.probeRsPath (attachArgs runArgs)) RunError.access)

end Process

/-! ### What the tool relies on

The contract of the probe. It is assumed for the theorems about the device, and the commands
themselves are defined for any probe. -/

/-- The flash holds a byte string at an address. -/
def Target.Holds (device : Target) (address : Nat) (bytes : List UInt8) : Prop :=
  (List.range bytes.length).map (fun i => device.flash (address + i)) = bytes

/-- A write of words to the shadow registers. One that has failed may have written some. -/
structure Probe.Writes (probe : Probe) : Prop where
  flash : ∀ address words device, (probe.write32 address words device).2.flash = device.flash
  other : ∀ address words device a, a < address ∨ address + 4 * words.length ≤ a →
    (probe.write32 address words device).2.shadow a = device.shadow a
  content : ∀ address words device, (probe.write32 address words device).1 = some () →
    ∀ k (h : k < words.length),
      (probe.write32 address words device).2.shadow (address + 4 * k) = words[k]

/-- The accesses do what they are meant for. Nothing is said of the bytes around a file that is
flashed, where sectors are erased, and nothing of a device that is reset. -/
structure Probe.Accesses (probe : Probe) : Prop extends probe.Writes where
  attach : ∀ chip device, (probe.attach chip device).2 = device
  download : ∀ address bytes device, (probe.download address bytes device).1 = some () →
    (probe.download address bytes device).2.Holds address.toNat bytes
  core : ∀ device, (probe.core device).2 = device
  read : ∀ address device, (probe.read32 address device).2 = device
  readWord : ∀ address device word, (probe.read32 address device).1 = some word →
    word = device.shadow address

end EcSlimloader
