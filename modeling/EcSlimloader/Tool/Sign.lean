import EcSlimloader.Tool.Mbi
import EcSlimloader.Tool.NxpImage

/-!
# `EcSlimloader.Tool.Sign`: the command that signs an image

`process` from `bootloader-tool/src/commands/sign.rs`, with the functions of
`processors/mbi/mod.rs` that it calls. It makes a flat image from an ELF file, writes the string
to be signed, signs it with a key of the configuration unless it is told not to, and merges the
signature. A signature from somewhere else can be given as a file.

`process` is cut in three here. `stage` goes up to the string to be signed, `makeSignature`
signs it, and `mergeSignature` is the end.

Each of the three parts is a `do` block in the order of the source, with one line for each of its
statements. The parts meet at the files: what `stage` has written is read again by `makeSignature`
and `mergeSignature`, from its path. So two paths that are the same file do matter.
-/

set_option autoImplicit false

namespace EcSlimloader

/-- `SignArguments`. -/
structure SignArguments where
  /-- Input file path (ELF). -/
  inputPath : Path
  /-- Signature file. -/
  signaturePath : Option Path
  /-- Output file path of the unsigned image. -/
  outputUnsignedPath : Option Path
  /-- Output file path of the string to be signed. -/
  outputPrestagePath : Option Path
  /-- Output file path. -/
  outputPath : Option Path
  /-- Do not actually sign the image. -/
  dontSign : Bool
  /-- Index of the certificate chain. -/
  certificate : Nat
  /-- Prelude output file path. -/
  preludePath : Option Path
  deriving DecidableEq, Repr

namespace SignArguments

/-- `output_unsigned_path_with_default`. -/
def outputUnsignedPathWithDefault (args : SignArguments) : Path :=
  args.outputUnsignedPath.getD (Path.withExtension args.inputPath "unsigned.bin")

/-- `output_prestage_path_with_default`. -/
def outputPrestagePathWithDefault (args : SignArguments) : Path :=
  args.outputPrestagePath.getD (Path.withExtension args.inputPath "mbi-proto.bin")

/-- `output_path_with_default`. -/
def outputPathWithDefault (args : SignArguments) : Path :=
  args.outputPath.getD (Path.withExtension args.inputPath "signed.bin")

/-- `prelude_path_with_default`. -/
def preludePathWithDefault (args : SignArguments) : Path :=
  args.preludePath.getD (Path.withExtension args.inputPath "prelude.elf")

/-- Where `process` writes a signature of its own. -/
def ownSignaturePath (args : SignArguments) : Path :=
  Path.withExtension args.inputPath "signature.bin"

end SignArguments

/-- `SignOutput`. -/
structure SignOutput where
  outputPath : Option Path
  rkth : Digest
  deriving DecidableEq

section Mbi

variable {Certificate Key PrivateKey : Type} (host : Host Certificate Key PrivateKey)

/-- The `?` on a result of the image or the certificate block. -/
def ofTool {α : Type} (result : ToolResult α) : Command α :=
  Exec.ofExcept (result.mapError (Fault.map .tool))

/-- The image type that `load_image` selects. -/
def loadedImageKind (isBootloader : Bool) : ImageKind :=
  -- The ROM bootloader only accepts this kind, and `skboot_authenticate` requires it.
  if isBootloader then .XipPlainSigned else .XipPlainSigned

/-- `load_image`. -/
def loadImage (inputPath : Path) (baseAddr : UInt32) (isBootloader : Bool)
    (certBlock : CertBlock) : Command Image := do
  let plainImage ← readFile inputPath
  ofTool (Image.new host.crypto host.overflowChecks plainImage baseAddr
    (ImageType.new (loadedImageKind isBootloader)) certBlock)

/-- `prepare_to_sign`. -/
def prepareToSign (inputPath : Path) (baseAddr : UInt32) (outputPath : Path)
    (isBootloader : Bool) (certBlock : CertBlock) : Command Unit := do
  let image ← loadImage host inputPath baseAddr isBootloader certBlock
  Exec.mapError (.context "Could not write prepared image")
    (writeBytes host outputPath image.signMe)

/-- `sign`. -/
def signFile (signaturePath preparedPath privateKeyPath : Path) : Command Unit := do
  match host.fromPkcs8Pem (← readToString privateKeyPath) with
  | none => Exec.fail .privateKey
  | some privateKey =>
      let signingBody ← readFile preparedPath
      Exec.mapError (.context "Could not write signature")
        (writeBytes host signaturePath (host.sign privateKey signingBody))

/-- `merge_with_signature`. -/
def mergeWithSignature (inputPath : Path) (baseAddr : UInt32) (signaturePath outputPath : Path)
    (isBootloader : Bool) (otp : Option Digest) (certBlock : CertBlock) : Command Unit := do
  let image ← loadImage host inputPath baseAddr isBootloader certBlock
  let signature ← readFile signaturePath
  let merged ← ofTool (image.merge host.crypto host.overflowChecks signature otp)
  writeBytes host outputPath merged

/-- The check of the address that the image will be run from. -/
def checkRunStart (config : ToolConfig) (isBootloader : Bool) (baseAddr : UInt32) :
    Except (Fault CommandError) Unit :=
  if isBootloader then
    match config.bootloader with
    | none => .ok ()
    | some bootloader =>
        if bootloader.runStart ≠ baseAddr.toUInt64 then
          .error (.error (.bootloaderAddress baseAddr bootloader.runStart))
        else .ok ()
  else
    match config.application with
    | none => .ok ()
    | some application =>
        if application.runStart ≠ baseAddr.toUInt64 then
          .error (.error (.applicationAddress baseAddr application.runStart))
        else .ok ()

/-- "Extracting prelude". -/
def extractPrelude (args : SignArguments) (isBootloader : Bool) (inputData : List UInt8) :
    Command Unit :=
  if isBootloader then
    match host.removeNonPrelude inputData with
    | none => Exec.fail .prelude
    | some out =>
        Exec.mapError (.context "Could not write prelude elf file")
          (writeBytes host args.preludePathWithDefault out)
  else pure ()

/-- What the first part of `process` hands on. -/
structure Staged where
  baseAddr : UInt32
  otp : Digest
  certBlock : CertBlock

/-- The first part of `process`, up to the string to be signed. -/
def stage (config : ToolConfig) (isBootloader : Bool) (args : SignArguments) : Command Staged := do
  let inputData ← readFile args.inputPath
  match host.parseElf inputData with
  | none => Exec.fail .elf
  | some file =>
      extractPrelude host args isBootloader inputData
      let (image, baseAddr) ←
        Exec.ofExcept ((objcopy host.overflowChecks file).mapError (Fault.map .objcopy))
      Exec.ofExcept (checkRunStart config isBootloader baseAddr)
      writeBytes host args.outputUnsignedPathWithDefault image
      let otp ← Tool.getOtp config
      let certBlock ← Exec.ofExcept (generateCertBlock host config.toConfig args.certificate)
      Exec.mapError (.context "Could not generate prestage MBI")
        (prepareToSign host args.outputUnsignedPathWithDefault baseAddr
          args.outputPrestagePathWithDefault isBootloader certBlock)
      pure { baseAddr, otp, certBlock }

/-- The private key of the leaf of a chain. -/
def leafKeyPath (config : ToolConfig) (certificate : Nat) : Except (Fault CommandError) Path :=
  match config.certificates[certificate]? with
  | none => .error (.error (.noChain certificate))
  | some certChain =>
      match certChain.getLast? with
      | none => .error (.error .emptyChain)
      | some cert =>
          match cert.prototype with
          | none => .error (.error (.noPrototype certificate))
          | some certProto => .ok certProto.keyPath

/-- "Signing image": the path of the signature, if there is one in the end. -/
def makeSignature (config : ToolConfig) (args : SignArguments) : Command (Option Path) :=
  if !args.dontSign && args.signaturePath.isNone then do
    let keyPath ← Exec.ofExcept (leafKeyPath config args.certificate)
    Exec.mapError (.context "Could not sign image")
      (signFile host args.ownSignaturePath args.outputPrestagePathWithDefault keyPath)
    pure (some args.ownSignaturePath)
  else pure args.signaturePath

/-- "Merging signature into image". -/
def mergeSignature (isBootloader : Bool) (args : SignArguments) (staged : Staged)
    (signaturePath : Option Path) : Command SignOutput := do
  let rkth ← ofTool (staged.certBlock.rkth host.crypto host.overflowChecks)
  match signaturePath with
  | none => pure { outputPath := none, rkth }
  | some signaturePath =>
      Exec.mapError (.context "Could not merge image with signature")
        (mergeWithSignature host args.outputUnsignedPathWithDefault staged.baseAddr signaturePath
          args.outputPathWithDefault isBootloader (some staged.otp) staged.certBlock)
      pure { outputPath := some args.outputPathWithDefault, rkth }

/-- `process`. -/
def signProcess (config : ToolConfig) (isBootloader : Bool) (args : SignArguments) :
    Command SignOutput := do
  let staged ← stage host config isBootloader args
  let signaturePath ← makeSignature host config args
  mergeSignature host isBootloader args staged signaturePath

end Mbi

end EcSlimloader
