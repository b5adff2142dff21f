import EcSlimloader.Tool.Certificates
import EcSlimloader.Tool.Hex
import EcSlimloader.Tool.Objcopy

/-!
# `EcSlimloader.Tool.Host`: what the commands of the tool work with

The commands of `bootloader-tool` read and write files of the host, and they call other programs
and crates. `HostFiles` is the state that they work on. As for the certificates, a file that is
there can be read, so the only error of a read is a file that is not there. A write may fail, and
then it may have emptied the file or written a part of it: what is at the path behind that is up to
the host. `Host` holds this and what else is not a part of the repository: the crates that parse
ELF files, keys and certificates, and the program `nxpimage`.

`Path.withExtension` is `Path::with_extension`, on the characters of a path with `/` as its
separator. `Otp` from `processors/otp.rs` is the key in the fuses, and its file is text.

`Host.writeFails` looks at the path, at the contents and at all files. So a disk with little room,
a directory that is read-only and a file that another program holds open are all hosts. A host on
which no write fails satisfies `Host.WritesSucceed`.

An error of a command is a `CommandError` with the contexts that `anyhow` puts around it, the
outermost one first. Two failures with different messages are different errors here.
-/

set_option autoImplicit false

namespace EcSlimloader

/-- The files of the host, with their bytes. -/
abbrev HostFiles : Type := Files (List UInt8)

/-! ### The configuration -/

/-- `BootloaderArgs`. -/
structure BootloaderArgs where
  /-- Location in external NOR flash. -/
  flashStart : UInt64
  /-- Location in RAM which the bootloader should run from. -/
  runStart : UInt64
  deriving DecidableEq, Repr

/-- `ApplicationArgs`. -/
structure ApplicationArgs where
  /-- Starting addresses in external NOR flash for each slot. -/
  slotStarts : List UInt64
  /-- Starting RAM address for all images. -/
  runStart : UInt64
  deriving DecidableEq, Repr

/-- `Config`, with what the commands look at. -/
structure ToolConfig extends Config where
  /-- Path of the file containing the OTP Master Key. -/
  otpPath : Path
  bootloader : Option BootloaderArgs
  application : Option ApplicationArgs
  deriving DecidableEq, Repr

/-! ### Errors -/

/-- The errors of the commands. -/
inductive CommandError where
  /-- An error of `std::fs::read`. -/
  | read (path : Path)
  /-- An error of `std::fs::write`. -/
  | write (path : Path)
  /-- An error of `String::from_utf8` or `read_to_string`. -/
  | utf8
  /-- "Could not parse ELF file". -/
  | elf
  /-- An error of `remove_non_prelude`. -/
  | prelude
  /-- An error of `objcopy`. -/
  | objcopy (e : ObjcopyError)
  /-- "Bootloader image will be run from unexpected address .., should be ..". -/
  | bootloaderAddress (baseAddr : UInt32) (runStart : UInt64)
  /-- "Application image will be run from unexpected address .., should be ..". -/
  | applicationAddress (baseAddr : UInt32) (runStart : UInt64)
  /-- "Failed to open OTP file ..". -/
  | otpFile (path : Path)
  /-- An error of `from_hex`. -/
  | hex (e : HexError)
  /-- "Could not execute `..`, is it installed?" -/
  | execute
  /-- "Failed to build certificate block from ..", with what was printed in front of it. -/
  | certBlock (stdout : String)
  /-- "nxpimage output does not contain RKTH". -/
  | noRkth
  /-- An error of the certificate block or of the image. -/
  | tool (e : ToolError)
  /-- "Certificate chain {} does not exist". -/
  | noChain (certificate : Nat)
  /-- "Empty certificate chain". -/
  | emptyChain
  /-- "No prototype configured for leaf of chain {}". -/
  | noPrototype (certificate : Nat)
  /-- An error of `RsaPrivateKey::from_pkcs8_pem`. -/
  | privateKey
  /-- An error with a context in front of it. -/
  | context (msg : String) (source : CommandError)
  deriving DecidableEq, Repr

/-! ### Files

A path is text, and its parts are found from the back, as the extension is the part behind the last
dot of the last component. -/

/-- A command that may fail. -/
abbrev Command (α : Type) : Type := Exec CommandError HostFiles α

/-- `std::fs::read`. -/
def readFile (path : Path) : Command (List UInt8) := do
  match (← get) path with
  | none => Exec.fail (.read path)
  | some file => pure file

/-- `std::fs::read_to_string`. -/
def readToString (path : Path) : Command String := do
  match Text.fromUtf8 (← readFile path) with
  | none => Exec.fail .utf8
  | some s => pure s

namespace Path

/-- The characters of a path, last one first, without the separators and the `.` components that
come last. -/
def dropTrailing : List Char → List Char
  | '/' :: rest => dropTrailing rest
  | '.' :: '/' :: rest => dropTrailing ('/' :: rest)
  | cs => cs

/-- The stem of a file name, last character first: the part in front of the last dot, if
there is one and it is not the first character. -/
def stem (name : List Char) : List Char :=
  match name.dropWhile (· ≠ '.') with
  | [] => name
  | [_] => name
  | _ :: before => before

/-- `Path::file_name`, last character first. A path that ends in `.` or `..` has none. -/
def fileName (path : Path) : Option (List Char) :=
  let name := (dropTrailing path.toList.reverse).takeWhile (· ≠ '/')
  if name = [] ∨ name = ['.'] ∨ name = ['.', '.'] then none else some name

/-- Without its extension, the path ends in `..`. This takes a file name such as `..a`, with
nothing behind it. -/
def LosesName (path : Path) (name : List Char) : Prop :=
  stem name = ['.'] ∧ dropTrailing path.toList.reverse = path.toList.reverse

instance (path : Path) (name : List Char) : Decidable (LosesName path name) :=
  inferInstanceAs (Decidable (_ ∧ _))

/-- `Path::with_extension`, for an extension that is not empty. -/
def withExtension (path : Path) (extension : String) : Path :=
  match fileName path with
  | none => path
  | some name =>
      let parent := (dropTrailing path.toList.reverse).dropWhile (· ≠ '/')
      -- The path is copied up to its extension before it gets the new one, and `..` gets none.
      if LosesName path name then String.ofList (parent.reverse ++ ['.', '.'])
      else String.ofList (parent.reverse ++ (stem name).reverse ++ '.' :: extension.toList)

/-- A path with a file name that gets another extension. -/
def TakesExtension (path : Path) : Prop :=
  ∃ name, fileName path = some name ∧ ¬LosesName path name

end Path

/-! ### Other programs and crates -/

/-- `CertBlockConfig`, the request for a certificate block. -/
structure CertBlockConfig where
  family : String
  revision : String
  /-- The paths of the certificates, by their names. -/
  certificates : String → Option Path
  mainRootCertId : Nat

/-- What a run of `nxpimage` leaves behind. -/
structure NxpimageOutput where
  /-- `output.status.success()`. -/
  success : Bool
  stdout : List UInt8
  /-- The content of the output file that it was given. -/
  outputFile : List UInt8

/-- What the commands use and the repository does not have. -/
structure Host (Certificate Key PrivateKey : Type) where
  crypto : Crypto Certificate Key
  /-- Whether the tool was built with overflow checks. -/
  overflowChecks : Bool
  /-- `ElfFile32::parse`. -/
  parseElf : List UInt8 → Option ElfFile32
  /-- `Builder::read32`: the sections of an ELF file. -/
  elfSections : List UInt8 → Option (List ElfSection)
  /-- `delete_orphans` and `write` of the builder of a file, with the marks of its sections. -/
  writeElf : List UInt8 → List Bool → Option (List UInt8)
  /-- `Path::canonicalize`. -/
  canonicalize : Path → Option Path
  /-- `nxpimage cert-block export`, if it can be executed. -/
  nxpimage : CertBlockConfig → Option NxpimageOutput
  /-- `RsaPrivateKey::from_pkcs8_pem`. -/
  fromPkcs8Pem : String → Option PrivateKey
  /-- `SigningKey::sign`, and the bytes of the signature. -/
  sign : PrivateKey → List UInt8 → List UInt8
  /-- Whether `std::fs::write` fails for a path and its new content. If it does, the value is what
  it leaves at the path: it may have created or emptied the file, and written a part of it. -/
  writeFails : Path → List UInt8 → HostFiles → Option (Option (List UInt8))

/-- `remove_non_prelude`. -/
def Host.removeNonPrelude {Certificate Key PrivateKey : Type}
    (host : Host Certificate Key PrivateKey) (data : List UInt8) : Option (List UInt8) := do
  let sections ← host.elfSections data
  host.writeElf data (sections.map ElfSection.isDeleted)

/-! ### Writing files -/

section Writing

variable {Certificate Key PrivateKey : Type} (host : Host Certificate Key PrivateKey)

/-- `std::fs::write`. -/
def writeBytes (path : Path) (contents : List UInt8) : Command Unit := fun files =>
  match host.writeFails path contents files with
  | none => .ok () (Function.update files path (some contents))
  | some rest => .error (.error (.write path)) (Function.update files path rest)

/-- Every file can be written. -/
def Host.WritesSucceed : Prop := ∀ path contents files, host.writeFails path contents files = none

end Writing

/-! ### The OTP file -/

namespace Tool

/-- `get_otp`. -/
def getOtp (config : ToolConfig) : Command Otp := do
  let otpHexStr ← Exec.mapError (fun _ => .otpFile config.otpPath) (readToString config.otpPath)
  Exec.ofExcept ((Otp.fromHex otpHexStr).mapError (Fault.map .hex))

/-- `generate`, with the random bytes of `Otp::generate`. -/
def generateOtp {Certificate Key PrivateKey : Type} (host : Host Certificate Key PrivateKey)
    (config : ToolConfig) (random : Otp) : Command Otp := do
  if ((← get) config.otpPath).isSome then
    getOtp config
  else
    writeBytes host config.otpPath (Text.bytes random.asHex)
    pure random

end Tool

end EcSlimloader
