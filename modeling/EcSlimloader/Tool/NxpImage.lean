import EcSlimloader.Lib.Lines
import EcSlimloader.Tool.Host

/-!
# `EcSlimloader.Tool.NxpImage`: certificate blocks from `nxpimage`

`generate_config` and `generate` from `bootloader-tool/src/processors/mbi/cert_block.rs`.
`nxpimage` gets the paths of all certificates, each under a name of its own. It writes a
certificate block to a file and prints the hash of the root keys. `generate` looks for that hash
in what was printed, and compares it with the block.

The temporary files that both go through are left out: `nxpimage` is given the configuration,
and answers with the content of its output file.

The certificates go into a map from names to paths. It is a function to `Option` here, and inserting
is updating it, so a later certificate with the same name would take the place of an earlier one.
-/

set_option autoImplicit false

namespace EcSlimloader

namespace CertBlockConfig

/-- The name of certificate `certI` of chain `chainI`. -/
def certificateName (chainI certI : Nat) : String :=
  if certI = 0 then "rootCertificate" ++ toString chainI ++ "File"
  else "chainCertificate" ++ toString chainI ++ "File" ++ toString (certI - 1)

/-- `canonicalize_or_leave`. -/
def canonicalizeOrLeave (canonicalize : Path → Option Path) (path : Path) : Path :=
  (canonicalize path).getD path

/-- The inner loop of `generate_config`, from certificate `certI` of a chain on. -/
def insertChain (canonicalize : Path → Option Path) (chainI : Nat) :
    Nat → List Config.Certificate → (String → Option Path) → (String → Option Path)
  | _, [], certificates => certificates
  | certI, cert :: rest, certificates =>
      insertChain canonicalize chainI (certI + 1) rest
        (Function.update certificates (certificateName chainI certI)
          (some (canonicalizeOrLeave canonicalize cert.path)))

/-- The outer loop of `generate_config`, from chain `chainI` on. -/
def insertChains (canonicalize : Path → Option Path) :
    Nat → List (List Config.Certificate) → (String → Option Path) → (String → Option Path)
  | _, [], certificates => certificates
  | chainI, chain :: rest, certificates =>
      insertChains canonicalize (chainI + 1) rest
        (insertChain canonicalize chainI 0 chain certificates)

/-- `generate_config`. -/
def generateConfig (canonicalize : Path → Option Path) (config : Config) (certificateIdx : Nat) :
    CertBlockConfig where
  family := "mimxrt685s"
  revision := "latest"
  certificates := insertChains canonicalize 0 config.certificates fun _ => none
  mainRootCertId := certificateIdx

end CertBlockConfig

/-- The text that is taken for the hash: the first line of the output with "RKTH" in it, without
what is in front of the value. -/
def findRkth (stdout : String) : Option String :=
  ((Text.lines stdout.toList).find? (Text.contains "RKTH".toList)).map fun line =>
    String.ofList (Text.trimStartMatches "RKTH: ".toList (Text.trim line))

/-- The part of `generate` behind the run of `nxpimage`. -/
def readCertBlock {Certificate Key : Type} (crypto : Crypto Certificate Key)
    (overflowChecks : Bool) (stdout : String) (outputFile : List UInt8) :
    Except (Fault CommandError) CertBlock :=
  match findRkth stdout with
  | none => .error (.error .noRkth)
  | some rkthStr => do
      let rkth ← (Tool.Rkth.fromHex rkthStr).mapError (Fault.map .hex)
      (CertBlock.fromFile crypto overflowChecks outputFile (some rkth)).mapError (Fault.map .tool)

/-- `generate`. -/
def generateCertBlock {Certificate Key PrivateKey : Type} (host : Host Certificate Key PrivateKey)
    (config : Config) (certificateIdx : Nat) : Except (Fault CommandError) CertBlock :=
  match host.nxpimage
      (CertBlockConfig.generateConfig host.canonicalize config certificateIdx) with
  | none => .error (.error .execute)
  | some output =>
      match Text.fromUtf8 output.stdout with
      | none => .error (.error .utf8)
      | some stdout =>
          if !output.success then .error (.error (.certBlock stdout))
          else readCertBlock host.crypto host.overflowChecks stdout output.outputFile

end EcSlimloader
