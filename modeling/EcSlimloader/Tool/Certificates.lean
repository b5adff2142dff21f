import EcSlimloader.Tool.CertBlock

/-!
# `EcSlimloader.Tool.Certificates`: generating certificates

`generate` from `bootloader-tool/src/processors/certificates.rs`. It goes over the
certificate chains of the configuration and has `nxpcrypto` generate a private key and a
certificate for each entry, unless the file is there already.

`nxpcrypto` is a program of its own, so `Nxpcrypto` is a parameter: the content of the file
that it writes, or nothing if it exits with an error. The files of the host are the state. The
configuration that is handed over in a temporary file is `CertificateConfig`. Errors of the
operating system are left out.

`generateSingle` is one entry of a chain. It makes the key first and then the certificate, which is
signed by the key of the entry in front of it, or by its own key at the head of the chain. The flag
`ca` that it asks for depends on the place in the chain only.
-/

set_option autoImplicit false

namespace EcSlimloader

/-- `PathBuf`. -/
abbrev Path : Type := String

/-- `KeyType`. -/
inductive KeyType where
  | Rsa2048
  | Rsa3072
  | Rsa4096
  deriving DecidableEq, Repr

namespace Config

/-- `CertificatePrototype`. -/
structure CertificatePrototype where
  /-- Key type to generate. -/
  keyType : KeyType
  /-- Path of the file containing the private key. -/
  keyPath : Path
  deriving DecidableEq, Repr

/-- `Certificate`, an entry of the configuration. -/
structure Certificate where
  /-- Path of the file containing the public facing certificate. -/
  path : Path
  /-- When set, the certificate can be generated. -/
  prototype : Option CertificatePrototype
  deriving DecidableEq, Repr

end Config

/-- `Config`, as far as it is about certificates. A `CertificateChain` is a list. -/
structure Config where
  certificates : List (List Config.Certificate)
  deriving DecidableEq, Repr

/-- `CertificateConfig`, the request for a certificate. -/
structure CertificateConfig where
  issuerPrivateKey : Path
  subjectPublicKey : Path
  /-- The `ca` of the basic constraints. -/
  ca : Bool
  deriving DecidableEq, Repr

/-- The files of the host. -/
abbrev Files (File : Type) : Type := Path → Option File

/-- `nxpcrypto`. -/
structure Nxpcrypto (File : Type) where
  /-- `nxpcrypto key generate -k keyType -e PEM -o path`. -/
  keyGenerate : KeyType → Path → Files File → Option File
  /-- `nxpcrypto cert generate -e PEM -c config -o path`. -/
  certGenerate : CertificateConfig → Path → Files File → Option File

/-- The errors of `generate`. -/
inductive GenerateError where
  /-- "Request generation of private key for .., but no prototype has been defined". -/
  | noPrototype (path : Path)
  /-- "Failed to generate private key ..". -/
  | privateKey (path : Path)
  /-- "Failed to build certificate from .. (parent: ..)". -/
  | certificate (certificate : Config.Certificate) (parent : Option Config.Certificate)
  deriving DecidableEq, Repr

section Generate

variable {File : Type} (nxpcrypto : Nxpcrypto File)

/-- Write a file. -/
def writeFile (path : Path) (file : File) : Exec GenerateError (Files File) Unit :=
  modify fun files => Function.update files path (some file)

/-- `generate_private_key`. -/
def generatePrivateKey (prototype : Config.CertificatePrototype) :
    Exec GenerateError (Files File) Unit := do
  let files ← get
  if (files prototype.keyPath).isSome then
    pure ()
  else
    match nxpcrypto.keyGenerate prototype.keyType prototype.keyPath files with
    | none => Exec.fail (.privateKey prototype.keyPath)
    | some file => writeFile prototype.keyPath file

/-- The path of the key that signs a certificate: the parent's one, or its own for a root
certificate, which is self-signed. -/
def issuerKeyPath (certificate : Config.Certificate) (prototype : Config.CertificatePrototype) :
    Option Config.Certificate → Except (Fault GenerateError) Path
  | none => .ok prototype.keyPath
  | some parent =>
      match parent.prototype with
      | none => .error (.error (.noPrototype certificate.path))
      | some parentPrototype => .ok parentPrototype.keyPath

/-- `generate_certificate`. -/
def generateCertificate (certificate : Config.Certificate) (parent : Option Config.Certificate)
    (isLeaf : Bool) : Exec GenerateError (Files File) Unit := do
  match certificate.prototype with
  | none => Exec.fail (.noPrototype certificate.path)
  | some prototype =>
      let issuerPrivateKey ← Exec.ofExcept (issuerKeyPath certificate prototype parent)
      let input : CertificateConfig :=
        { issuerPrivateKey, subjectPublicKey := prototype.keyPath, ca := !isLeaf }
      let files ← get
      if (files certificate.path).isSome then
        pure ()
      else
        match nxpcrypto.certGenerate input certificate.path files with
        | none => Exec.fail (.certificate certificate parent)
        | some file => writeFile certificate.path file

/-- `generate_single`. -/
def generateSingle (certificate : Config.Certificate) (parent : Option Config.Certificate)
    (isLeaf : Bool) : Exec GenerateError (Files File) Unit := do
  match certificate.prototype with
  | none => Exec.fail (.noPrototype certificate.path)
  | some prototype =>
      generatePrivateKey nxpcrypto prototype
      generateCertificate nxpcrypto certificate parent isLeaf

/-- The loop over a chain. The last certificate is the leaf. -/
def generateChain : List Config.Certificate → Option Config.Certificate →
    Exec GenerateError (Files File) Unit
  | [], _ => pure ()
  | certificate :: rest, parent => do
      generateSingle nxpcrypto certificate parent rest.isEmpty
      generateChain rest (some certificate)

/-- `generate`, for the chains of a configuration. -/
def generateChains : List (List Config.Certificate) → Exec GenerateError (Files File) Unit
  | [] => pure ()
  | chain :: chains => do
      generateChain nxpcrypto chain none
      generateChains chains

/-- `generate`. -/
def generate (config : Config) : Exec GenerateError (Files File) Unit :=
  generateChains nxpcrypto config.certificates

end Generate

end EcSlimloader
