import EcSlimloader.Lib.Exec
import EcSlimloader.Lib.Sim
import EcSlimloader.Lib.RecordLog
import EcSlimloader.Lib.Bytes
import EcSlimloader.Lib.Otp
import EcSlimloader.Lib.Text
import EcSlimloader.Lib.Lines
import EcSlimloader.State.State
import EcSlimloader.State.Journal
import EcSlimloader.State.Mock
import EcSlimloader.State.Faulty
import EcSlimloader.State.Logged
import EcSlimloader.Boot.Start
import EcSlimloader.Boot.Bench
import EcSlimloader.Boot.Application
import EcSlimloader.Rom.Registers
import EcSlimloader.Rom.Api
import EcSlimloader.Rom.Fuses
import EcSlimloader.Imxrt.Mbi
import EcSlimloader.Imxrt.Verification
import EcSlimloader.Imxrt.CheckAndBoot
import EcSlimloader.Imxrt.Boot
import EcSlimloader.Boot.Provision
import EcSlimloader.Tool.CertBlock
import EcSlimloader.Tool.Hex
import EcSlimloader.Tool.Mbi
import EcSlimloader.Tool.Objcopy
import EcSlimloader.Tool.Certificates
import EcSlimloader.Tool.Host
import EcSlimloader.Tool.NxpImage
import EcSlimloader.Tool.Sign
import EcSlimloader.Tool.Run
import EcSlimloader.Proofs.Journal.Scan
import EcSlimloader.Proofs.Journal.BlockSize
import EcSlimloader.Proofs.Journal.Set
import EcSlimloader.Proofs.Journal.Mock
import EcSlimloader.Proofs.Journal.Runs
import EcSlimloader.Proofs.Journal.PowerLoss
import EcSlimloader.Proofs.Journal.Faulty
import EcSlimloader.Proofs.Journal.Durability
import EcSlimloader.Proofs.Journal.EraseOrder
import EcSlimloader.Proofs.Journal.Ops
import EcSlimloader.Proofs.Journal.Logged
import EcSlimloader.Proofs.Journal.AnyContent
import EcSlimloader.Proofs.Journal.Layout
import EcSlimloader.Proofs.Journal.BitErrors
import EcSlimloader.Proofs.Journal.Discipline
import EcSlimloader.Proofs.Boot.Start
import EcSlimloader.Proofs.Boot.Unconfirmed
import EcSlimloader.Proofs.Boot.Outcome
import EcSlimloader.Proofs.Boot.Wear
import EcSlimloader.Proofs.Boot.Update
import EcSlimloader.Proofs.Rom.Registers
import EcSlimloader.Proofs.Imxrt.Verification
import EcSlimloader.Proofs.Imxrt.RootOfTrust
import EcSlimloader.Proofs.Imxrt.CheckAndBoot
import EcSlimloader.Proofs.Imxrt.Malformed
import EcSlimloader.Proofs.Imxrt.Placement
import EcSlimloader.Proofs.Boot.Board
import EcSlimloader.Proofs.Boot.Recovery
import EcSlimloader.Proofs.Tool.CertBlock
import EcSlimloader.Proofs.Tool.Hex
import EcSlimloader.Proofs.Tool.Mbi
import EcSlimloader.Proofs.Tool.RoundTrip
import EcSlimloader.Proofs.Tool.Guarantees
import EcSlimloader.Proofs.Tool.Merged
import EcSlimloader.Proofs.Tool.Objcopy
import EcSlimloader.Proofs.Tool.Certificates
import EcSlimloader.Proofs.Tool.NxpImage
import EcSlimloader.Proofs.Tool.SignedImage
import EcSlimloader.Proofs.Tool.Sign
import EcSlimloader.Proofs.Tool.SignFrame
import EcSlimloader.Proofs.Tool.Run
import EcSlimloader.Proofs.Tool.RunStops
import EcSlimloader.Proofs.Boot.Provision
