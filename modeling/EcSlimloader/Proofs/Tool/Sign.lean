import EcSlimloader.Proofs.Tool.NxpImage
import EcSlimloader.Proofs.Tool.SignedImage
import EcSlimloader.Tool.Sign

/-!
# `EcSlimloader.Proofs.Tool.Sign`: runs of the command that signs

`process` reads files that it has written itself, so the order of its steps matters. The first
part of this module says when each command returns, and in which state: an equivalence for every
command, which goes through a `do` block line by line. `StageRun`, `SignatureMade` and
`SignatureMerged` are what is left of `process`: the state behind it is the one in front of it with
some files replaced.

The equivalences are proved from the inside out, and each is stated with the files in front of the
command and behind it. A step that fails has no case in them. What a failing run leaves is in
`EcSlimloader.Proofs.Tool.SignFrame`.

`SignArguments.KeepsUnsigned` is asked for where the unsigned image is read back: its path is not
the one of the prestage or of the signature. With the default paths this holds
(`UsesDefaults.keepsUnsigned`).
-/

set_option autoImplicit false

namespace EcSlimloader

open Bytes (u32At)

/-! ### Commands -/

section Commands

variable {path : Path} {files files' : HostFiles}

/-- A file that is there is read, and nothing changes. -/
theorem readFile_eq_ok {bytes : List UInt8} :
    readFile path files = .ok bytes files' ↔ files path = some bytes ∧ files' = files := by
  rw [readFile, Exec.get_bind]
  cases h : files path with
  | none => simp
  | some bytes' => simp [eq_comm]

/-- A text file is read if it is there and valid UTF-8. Reading it changes no file. -/
theorem readToString_eq_ok {text : String} :
    readToString path files = .ok text files' ↔
      (∃ bytes, files path = some bytes ∧ Text.fromUtf8 bytes = some text) ∧ files' = files := by
  rw [readToString, Exec.bind_eq_ok_iff]
  simp only [readFile_eq_ok]
  constructor
  · rintro ⟨bytes, files'', ⟨hbytes, rfl⟩, h⟩
    cases htext : Text.fromUtf8 bytes with
    | none =>
        rw [htext] at h
        cases h
    | some text' =>
        rw [htext] at h
        cases h
        exact ⟨⟨bytes, hbytes, htext⟩, rfl⟩
  · rintro ⟨⟨bytes, hbytes, htext⟩, rfl⟩
    refine ⟨bytes, files', ⟨hbytes, rfl⟩, ?_⟩
    rw [htext]
    rfl

/-- The `?` on a result that is no error. -/
theorem ofTool_eq_ok {α : Type} {result : ToolResult α} {a : α} :
    ofTool result files = .ok a files' ↔ result = .ok a ∧ files' = files := by
  rw [ofTool, Exec.ofExcept_eq_ok, mapError_eq_ok]

/-- The key in the OTP file. -/
def otpInFile (content : Option (List UInt8)) (otp : Tool.Otp) : Prop :=
  ∃ bytes text, content = some bytes ∧ Text.fromUtf8 bytes = some text ∧
    Tool.Otp.fromHex text = .ok otp

/-- `get_otp` returns the key in its file. -/
theorem getOtp_eq_ok {config : ToolConfig} {otp : Tool.Otp} :
    Tool.getOtp config files = .ok otp files' ↔
      otpInFile (files config.otpPath) otp ∧ files' = files := by
  rw [Tool.getOtp, Exec.bind_eq_ok_iff]
  simp only [Exec.mapError_eq_ok, readToString_eq_ok, Exec.ofExcept_eq_ok, mapError_eq_ok]
  constructor
  · rintro ⟨text, files'', ⟨⟨bytes, hbytes, htext⟩, rfl⟩, hotp, rfl⟩
    exact ⟨⟨bytes, text, hbytes, htext, hotp⟩, rfl⟩
  · rintro ⟨⟨bytes, text, hbytes, htext, hotp⟩, rfl⟩
    exact ⟨text, files', ⟨⟨bytes, hbytes, htext⟩, rfl⟩, hotp, rfl⟩

end Commands

section Mbi

variable {Certificate Key PrivateKey : Type} {host : Host Certificate Key PrivateKey}
  {files files' : HostFiles} {baseAddr : UInt32} {isBootloader : Bool} {certBlock : CertBlock}

/-- A write that has succeeded, and the files behind it. -/
def Written (host : Host Certificate Key PrivateKey) (path : Path) (contents : List UInt8)
    (files files' : HostFiles) : Prop :=
  host.writeFails path contents files = none ∧ files' = Function.update files path (some contents)

/-- A write that returns has replaced the content of its file, and nothing else. -/
theorem writeBytes_eq_ok {path : Path} {contents : List UInt8} {u : Unit} :
    writeBytes host path contents files = .ok u files' ↔
      Written host path contents files files' := by
  unfold writeBytes Written
  cases host.writeFails path contents files with
  | none => simp [eq_comm]
  | some rest => simp

/-- Where every write succeeds, the files behind one are known. -/
theorem Host.WritesSucceed.written (h : host.WritesSucceed) (path : Path) (contents : List UInt8)
    (files : HostFiles) :
    Written host path contents files (Function.update files path (some contents)) :=
  ⟨h path contents files, rfl⟩

/-- The file that was written. -/
theorem Written.self {path : Path} {contents : List UInt8}
    (h : Written host path contents files files') : files' path = some contents := by
  rw [h.2, Function.update_self]

/-- Every other file. -/
theorem Written.other {path path' : Path} {contents : List UInt8}
    (h : Written host path contents files files') (hne : path' ≠ path) :
    files' path' = files path' := by
  rw [h.2, Function.update_of_ne hne]

/-- `load_image` makes an image of the file. Both kinds of firmware get the same image type. -/
theorem loadImage_eq_ok {inputPath : Path} {image : Image} :
    loadImage host inputPath baseAddr isBootloader certBlock files = .ok image files' ↔
      (∃ raw, files inputPath = some raw ∧
        Image.new host.crypto host.overflowChecks raw baseAddr (ImageType.new .XipPlainSigned)
          certBlock = .ok image) ∧ files' = files := by
  -- Both branches of the source give the same kind of image.
  have hkind : loadedImageKind isBootloader = .XipPlainSigned := by
    cases isBootloader with
    | true => rfl
    | false => rfl
  simp only [loadImage, hkind, Exec.bind_eq_ok_iff, readFile_eq_ok, ofTool_eq_ok]
  grind

/-- Preparing an image writes the string to be signed: the image, without an HMAC and without
a signature. -/
theorem prepareToSign_eq_ok {inputPath outputPath : Path} {u : Unit} :
    prepareToSign host inputPath baseAddr outputPath isBootloader certBlock files = .ok u files' ↔
      ∃ raw image, files inputPath = some raw ∧
        Image.new host.crypto host.overflowChecks raw baseAddr (ImageType.new .XipPlainSigned)
          certBlock = .ok image ∧ Written host outputPath image.signMe files files' := by
  simp only [prepareToSign, Exec.bind_eq_ok_iff, loadImage_eq_ok, Exec.mapError_eq_ok,
    writeBytes_eq_ok]
  grind

/-- The private key in a file. -/
def keyInFile (host : Host Certificate Key PrivateKey) (content : Option (List UInt8))
    (privateKey : PrivateKey) : Prop :=
  ∃ pem text, content = some pem ∧ Text.fromUtf8 pem = some text ∧
    host.fromPkcs8Pem text = some privateKey

/-- Signing writes a signature over exactly what the prepared file holds. -/
theorem signFile_eq_ok {signaturePath preparedPath privateKeyPath : Path} {u : Unit} :
    signFile host signaturePath preparedPath privateKeyPath files = .ok u files' ↔
      ∃ privateKey signingBody, keyInFile host (files privateKeyPath) privateKey ∧
        files preparedPath = some signingBody ∧
        Written host signaturePath (host.sign privateKey signingBody) files files' := by
  rw [signFile, Exec.bind_eq_ok_iff]
  simp only [readToString_eq_ok]
  constructor
  · -- Key and signing body are read before the one write, so both are those of `files`.
    rintro ⟨text, files'', ⟨⟨pem, hpem, htext⟩, rfl⟩, h⟩
    cases hkey : host.fromPkcs8Pem text with
    | none =>
        rw [hkey] at h
        cases h
    | some privateKey =>
        rw [hkey] at h
        obtain ⟨signingBody, files', hbody, hwrite⟩ := Exec.bind_eq_ok h
        obtain ⟨hbody, rfl⟩ := readFile_eq_ok.mp hbody
        exact ⟨privateKey, signingBody, ⟨pem, text, hpem, htext, hkey⟩, hbody,
          writeBytes_eq_ok.mp (Exec.mapError_eq_ok.mp hwrite)⟩
  · rintro ⟨privateKey, signingBody, ⟨pem, text, hpem, htext, hkey⟩, hbody, hwritten⟩
    refine ⟨text, files, ⟨⟨pem, hpem, htext⟩, rfl⟩, ?_⟩
    rw [hkey]
    exact (Exec.bind_ok (readFile_eq_ok.mpr ⟨hbody, rfl⟩)).trans
      (Exec.mapError_eq_ok.mpr (writeBytes_eq_ok.mpr hwritten))

/-- Merging builds the image a second time, from the flat file. The signature has to fit this
image, not the one that was prepared. -/
theorem mergeWithSignature_eq_ok {inputPath signaturePath outputPath : Path} {otp : Option Digest}
    {u : Unit} :
    mergeWithSignature host inputPath baseAddr signaturePath outputPath isBootloader otp certBlock
        files = .ok u files' ↔
      ∃ raw image signature merged, files inputPath = some raw ∧
        Image.new host.crypto host.overflowChecks raw baseAddr (ImageType.new .XipPlainSigned)
          certBlock = .ok image ∧
        files signaturePath = some signature ∧
        image.merge host.crypto host.overflowChecks signature otp = .ok merged ∧
        Written host outputPath merged files files' := by
  simp only [mergeWithSignature, Exec.bind_eq_ok_iff, loadImage_eq_ok, readFile_eq_ok, ofTool_eq_ok,
    writeBytes_eq_ok]
  grind

/-! ### The first part of `process` -/

/-- The files behind "Extracting prelude": a bootloader has got its prelude. -/
def PreludeWritten (host : Host Certificate Key PrivateKey) (args : SignArguments)
    (isBootloader : Bool) (inputData : List UInt8) (files before : HostFiles) : Prop :=
  if isBootloader then
    ∃ out, host.removeNonPrelude inputData = some out ∧
      Written host args.preludePathWithDefault out files before
  else before = files

/-- Only a bootloader has a prelude. -/
theorem extractPrelude_eq_ok {args : SignArguments} {inputData : List UInt8} {u : Unit} :
    extractPrelude host args isBootloader inputData files = .ok u files' ↔
      PreludeWritten host args isBootloader inputData files files' := by
  cases isBootloader with
  | false =>
      simp only [extractPrelude, PreludeWritten, Bool.false_eq_true, if_false, Exec.pure_run,
        EStateM.Result.ok.injEq]
      simp [eq_comm]
  | true =>
      simp only [extractPrelude, PreludeWritten, if_true]
      cases host.removeNonPrelude inputData with
      | none => simp
      | some out => simp [Exec.mapError_eq_ok, writeBytes_eq_ok]

variable {config : ToolConfig} {args : SignArguments}

/-- A run of the first part: the ELF file that it has read, the files behind the prelude, the
flat image and the image to be signed. -/
structure StageRun (host : Host Certificate Key PrivateKey) (config : ToolConfig)
    (isBootloader : Bool) (args : SignArguments) (files : HostFiles) (staged : Staged)
    (file : ElfFile32) (before : HostFiles) (raw : List UInt8) (image : Image) : Prop where
  input : ∃ inputData, files args.inputPath = some inputData ∧
    host.parseElf inputData = some file ∧
    PreludeWritten host args isBootloader inputData files before
  objcopy : objcopy host.overflowChecks file = .ok (raw, staged.baseAddr)
  runStart : checkRunStart config isBootloader staged.baseAddr = .ok ()
  otp : otpInFile (Function.update before args.outputUnsignedPathWithDefault (some raw)
    config.otpPath) staged.otp
  certBlock : generateCertBlock host config.toConfig args.certificate = .ok staged.certBlock
  writesUnsigned : host.writeFails args.outputUnsignedPathWithDefault raw before = none
  writesPrestage : host.writeFails args.outputPrestagePathWithDefault image.signMe
    (Function.update before args.outputUnsignedPathWithDefault (some raw)) = none
  image : Image.new host.crypto host.overflowChecks raw staged.baseAddr
    (ImageType.new .XipPlainSigned) staged.certBlock = .ok image

/-- The files behind the first part: the flat image and the string to be signed. -/
def stagedFiles (args : SignArguments) (before : HostFiles) (raw : List UInt8) (image : Image) :
    HostFiles :=
  Function.update (Function.update before args.outputUnsignedPathWithDefault (some raw))
    args.outputPrestagePathWithDefault (some image.signMe)

/-- The flat image that is made ready to be signed is the one that was written just before. -/
theorem stage_eq_ok {staged : Staged} :
    stage host config isBootloader args files = .ok staged files' ↔
      ∃ file before raw image,
        StageRun host config isBootloader args files staged file before raw image ∧
        files' = stagedFiles args before raw image := by
  rw [stage, Exec.bind_eq_ok_iff]
  simp only [readFile_eq_ok]
  constructor
  · rintro ⟨inputData, _, ⟨hinput, rfl⟩, h⟩
    cases hparse : host.parseElf inputData with
    | none =>
        rw [hparse] at h
        cases h
    | some file =>
        rw [hparse] at h
        simp only [Exec.bind_eq_ok_iff, extractPrelude_eq_ok, Exec.ofExcept_eq_ok, mapError_eq_ok,
          writeBytes_eq_ok, getOtp_eq_ok, Exec.mapError_eq_ok, prepareToSign_eq_ok] at h
        obtain ⟨_, _, hprelude, ⟨raw, baseAddr⟩, _, ⟨hobjcopy, rfl⟩, _, before, ⟨hstart, rfl⟩,
          _, _, ⟨hunsigned, rfl⟩, otp, _, ⟨hotp, rfl⟩, certBlock, _, ⟨hblock, rfl⟩, _, _,
          ⟨raw', image, hraw, hnew, hprestage, rfl⟩, h⟩ := h
        -- The flat image is read back from the file that it was written to just before.
        obtain rfl : raw = raw' := by
          rw [Function.update_self] at hraw
          exact Option.some.inj hraw
        cases h
        exact ⟨file, before, raw, image,
          ⟨⟨inputData, hinput, hparse, hprelude⟩, hobjcopy, hstart, hotp, hblock, hunsigned,
            hprestage, hnew⟩, rfl⟩
  · rintro ⟨file, before, raw, image, h, rfl⟩
    obtain ⟨inputData, hinput, hparse, hprelude⟩ := h.input
    refine ⟨inputData, files, ⟨hinput, rfl⟩, ?_⟩
    rw [hparse]
    simp only [Exec.bind_eq_ok_iff, extractPrelude_eq_ok, Exec.ofExcept_eq_ok, mapError_eq_ok,
      writeBytes_eq_ok, getOtp_eq_ok, Exec.mapError_eq_ok, prepareToSign_eq_ok]
    exact ⟨(), before, hprelude, (raw, staged.baseAddr), before, ⟨h.objcopy, rfl⟩, (), before,
      ⟨h.runStart, rfl⟩, (), _, ⟨h.writesUnsigned, rfl⟩, staged.otp, _, ⟨h.otp, rfl⟩,
      staged.certBlock, _, ⟨h.certBlock, rfl⟩, (), _,
      ⟨raw, image, Function.update_self .., h.image, h.writesPrestage, rfl⟩, rfl⟩

/-! ### The signature, and the end of `process` -/

/-- The command has to make a signature of its own. -/
def SignArguments.SignsItself (args : SignArguments) : Prop :=
  args.dontSign = false ∧ args.signaturePath = none

/-- "Signing image": where the signature is and the files behind that. -/
def SignatureMade (host : Host Certificate Key PrivateKey) (config : ToolConfig)
    (args : SignArguments) (files : HostFiles) (signaturePath : Option Path)
    (files' : HostFiles) : Prop :=
  (args.SignsItself ∧ ∃ keyPath privateKey signingBody,
    leafKeyPath config args.certificate = .ok keyPath ∧
    keyInFile host (files keyPath) privateKey ∧
    files args.outputPrestagePathWithDefault = some signingBody ∧
    signaturePath = some args.ownSignaturePath ∧
    Written host args.ownSignaturePath (host.sign privateKey signingBody) files files') ∨
  (¬args.SignsItself ∧ signaturePath = args.signaturePath ∧ files' = files)

/-- The second part has just the two cases of `SignatureMade`: it makes a signature, or it hands on
the path of the arguments, which may be none. -/
theorem makeSignature_eq_ok {signaturePath : Option Path} :
    makeSignature host config args files = .ok signaturePath files' ↔
      SignatureMade host config args files signaturePath files' := by
  unfold makeSignature SignatureMade
  -- The tool signs by itself if it is allowed to and was given no signature.
  by_cases hsigns : args.SignsItself
  · have hcond : (!args.dontSign && args.signaturePath.isNone) = true := by
      rw [hsigns.1, hsigns.2]
      rfl
    simp only [hcond, if_true, Exec.bind_eq_ok_iff, Exec.ofExcept_eq_ok, Exec.mapError_eq_ok,
      signFile_eq_ok, Exec.pure_run, EStateM.Result.ok.injEq, hsigns, true_and, not_true_eq_false,
      false_and, or_false]
    constructor
    · rintro ⟨keyPath, _, ⟨hpath, rfl⟩, _, _, ⟨privateKey, signingBody, hkey, hbody, hwritten⟩,
        hown, rfl⟩
      exact ⟨keyPath, privateKey, signingBody, hpath, hkey, hbody, hown.symm, hwritten⟩
    · rintro ⟨keyPath, privateKey, signingBody, hpath, hkey, hbody, hown, hwritten⟩
      exact ⟨keyPath, files, ⟨hpath, rfl⟩, (), _,
        ⟨privateKey, signingBody, hkey, hbody, hwritten⟩, hown.symm, rfl⟩
  · have hcond : (!args.dontSign && args.signaturePath.isNone) = false := by
      rw [Bool.eq_false_iff]
      intro h
      rw [Bool.and_eq_true, Bool.not_eq_true', Option.isNone_iff_eq_none] at h
      exact hsigns h
    simp only [hcond, Bool.false_eq_true, if_false, Exec.pure_run, EStateM.Result.ok.injEq, hsigns,
      false_and, not_false_eq_true, true_and, false_or]
    grind

/-- "Merging signature into image": the flat image is read again, and so is the signature. -/
structure SignatureMerged (host : Host Certificate Key PrivateKey) (args : SignArguments)
    (staged : Staged) (files : HostFiles) (signaturePath : Path) (image : Image)
    (signature merged : List UInt8) : Prop where
  loads : ∃ raw, files args.outputUnsignedPathWithDefault = some raw ∧
    Image.new host.crypto host.overflowChecks raw staged.baseAddr (ImageType.new .XipPlainSigned)
      staged.certBlock = .ok image
  reads : files signaturePath = some signature
  merges : image.merge host.crypto host.overflowChecks signature (some staged.otp) = .ok merged

/-- Without a signature, nothing is written, and only the hash is returned. -/
theorem mergeSignature_none_eq_ok {staged : Staged} {output : SignOutput} :
    mergeSignature host isBootloader args staged none files = .ok output files' ↔
      staged.certBlock.rkth host.crypto host.overflowChecks = .ok output.rkth ∧
        output.outputPath = none ∧ files' = files := by
  obtain ⟨outputPath, rkth⟩ := output
  simp only [mergeSignature, Exec.bind_eq_ok_iff, ofTool_eq_ok, Exec.pure_run,
    EStateM.Result.ok.injEq, SignOutput.mk.injEq]
  grind

/-- With a signature, the signed image is written last. -/
theorem mergeSignature_some_eq_ok {staged : Staged} {signaturePath : Path} {output : SignOutput} :
    mergeSignature host isBootloader args staged (some signaturePath) files = .ok output files' ↔
      staged.certBlock.rkth host.crypto host.overflowChecks = .ok output.rkth ∧
        output.outputPath = some args.outputPathWithDefault ∧ ∃ image signature merged,
          SignatureMerged host args staged files signaturePath image signature merged ∧
          Written host args.outputPathWithDefault merged files files' := by
  obtain ⟨outputPath, rkth⟩ := output
  simp only [mergeSignature, Exec.bind_eq_ok_iff, ofTool_eq_ok, Exec.mapError_eq_ok,
    mergeWithSignature_eq_ok, Exec.pure_run, EStateM.Result.ok.injEq, SignOutput.mk.injEq]
  constructor
  · rintro ⟨_, _, ⟨hrkth, rfl⟩, _, _, ⟨raw, image, signature, merged, hraw, hnew, hsignature,
      hmerge, hwritten⟩, ⟨rfl, rfl⟩, rfl⟩
    exact ⟨hrkth, rfl, image, signature, merged, ⟨⟨raw, hraw, hnew⟩, hsignature, hmerge⟩, hwritten⟩
  · rintro ⟨hrkth, rfl, image, signature, merged, ⟨⟨raw, hraw, hnew⟩, hsignature, hmerge⟩,
      hwritten⟩
    exact ⟨rkth, files, ⟨hrkth, rfl⟩, (), _, ⟨raw, image, signature, merged, hraw, hnew,
      hsignature, hmerge, hwritten⟩, ⟨rfl, rfl⟩, rfl⟩

/-- The files that a run works with: it writes them before it merges a signature. -/
def SignArguments.Works (args : SignArguments) (isBootloader : Bool) (path : Path) : Prop :=
  (isBootloader = true ∧ path = args.preludePathWithDefault) ∨
    path = args.outputUnsignedPathWithDefault ∨ path = args.outputPrestagePathWithDefault ∨
    (args.SignsItself ∧ path = args.ownSignaturePath)

/-- The prelude is the only file that is written in front of the flat image. -/
theorem PreludeWritten.eq {inputData : List UInt8} {before : HostFiles}
    (h : PreludeWritten host args isBootloader inputData files before) {path : Path}
    (hpath : ¬(isBootloader = true ∧ path = args.preludePathWithDefault)) :
    before path = files path := by
  cases isBootloader with
  | false =>
      obtain rfl : before = files := h
      rfl
  | true =>
      obtain ⟨out, -, hwritten⟩ := h
      exact hwritten.other fun heq => hpath ⟨rfl, heq⟩

/-- The first part leaves the other files alone. -/
theorem StageRun.other {staged : Staged} {file : ElfFile32} {before : HostFiles}
    {raw : List UInt8} {image : Image}
    (h : StageRun host config isBootloader args files staged file before raw image) {path : Path}
    (hpath : ¬args.Works isBootloader path) :
    stagedFiles args before raw image path = files path := by
  simp only [SignArguments.Works, not_or] at hpath
  obtain ⟨inputData, -, -, hprelude⟩ := h.input
  rw [stagedFiles, Function.update_of_ne hpath.2.2.1, Function.update_of_ne hpath.2.1,
    hprelude.eq hpath.1]

/-- The block in an image has the hash of the one that `generate` has returned. -/
theorem StageRun.rkth_eq (hder : host.crypto.DerLength) {staged : Staged} {file : ElfFile32}
    {before : HostFiles} {raw : List UInt8} {image : Image}
    (h : StageRun host config isBootloader args files staged file before raw image) :
    image.certBlock.rkth host.crypto host.overflowChecks
      = staged.certBlock.rkth host.crypto host.overflowChecks := by
  obtain ⟨signatureLen, hbuilt⟩ := Image.new_built h.image
  obtain ⟨blockFile, hfile⟩ := fromFile_of_generateCertBlock host _ _ h.certBlock
  obtain ⟨headerLen, certTableLen, hlayout⟩ := CertBlock.fromFile_layout hder hfile
  exact hbuilt.rkth_eq hlayout

/-- `process` is its three parts. -/
theorem signProcess_eq_ok {output : SignOutput} :
    signProcess host config isBootloader args files = .ok output files' ↔
      ∃ staged file before raw image signaturePath signedFiles,
        StageRun host config isBootloader args files staged file before raw image ∧
        SignatureMade host config args (stagedFiles args before raw image) signaturePath
          signedFiles ∧
        mergeSignature host isBootloader args staged signaturePath signedFiles
          = .ok output files' := by
  simp only [signProcess, Exec.bind_eq_ok_iff, stage_eq_ok, makeSignature_eq_ok]
  constructor
  · rintro ⟨staged, _, ⟨file, before, raw, image, hstage, rfl⟩, signaturePath, signedFiles, hmade,
      hmerge⟩
    exact ⟨staged, file, before, raw, image, signaturePath, signedFiles, hstage, hmade, hmerge⟩
  · rintro ⟨staged, file, before, raw, image, signaturePath, signedFiles, hstage, hmade, hmerge⟩
    exact ⟨staged, _, ⟨file, before, raw, image, hstage, rfl⟩, signaturePath, signedFiles, hmade,
      hmerge⟩

/-- The flat image stays as it is until it is read again. -/
def SignArguments.KeepsUnsigned (args : SignArguments) : Prop :=
  args.outputUnsignedPathWithDefault ≠ args.outputPrestagePathWithDefault ∧
    (args.SignsItself → args.outputUnsignedPathWithDefault ≠ args.ownSignaturePath)

/-- So the flat image is still there when the signature has been made. -/
theorem SignatureMade.unsigned_eq {before signedFiles : HostFiles} {raw : List UInt8}
    {image : Image} {signaturePath : Option Path} (hkeeps : args.KeepsUnsigned)
    (h : SignatureMade host config args (stagedFiles args before raw image) signaturePath
      signedFiles) : signedFiles args.outputUnsignedPathWithDefault = some raw := by
  have hstaged : stagedFiles args before raw image args.outputUnsignedPathWithDefault
      = some raw := by
    rw [stagedFiles, Function.update_of_ne hkeeps.1, Function.update_self]
  rcases h with ⟨hsigns, keyPath, privateKey, signingBody, -, -, -, -, hwritten⟩ | ⟨-, -, rfl⟩
  · rw [hwritten.other (hkeeps.2 hsigns), hstaged]
  · exact hstaged

/-- A run that has merged a signature: the image of the first part is the one that is merged, and
what is written is the string to be signed and the signature. -/
theorem signProcess_merged (hder : host.crypto.DerLength) (hkeeps : args.KeepsUnsigned)
    {path : Path} {rkth : Digest}
    (hrun : signProcess host config isBootloader args files
      = .ok { outputPath := some path, rkth } files') :
    ∃ staged file before raw image signature,
      StageRun host config isBootloader args files staged file before raw image ∧
      image.check host.crypto host.overflowChecks signature rkth = .ok () ∧
      files' path = some (image.signMe ++ signature) := by
  obtain ⟨staged, file, before, raw, image, signaturePath, signedFiles, hstage, hmade, hmerge⟩ :=
    signProcess_eq_ok.mp hrun
  cases signaturePath with
  | none =>
      have hnone := (mergeSignature_none_eq_ok.mp hmerge).2.1
      cases hnone
  | some signaturePath =>
      obtain ⟨hrkth, hpath, image', signature, merged, hmerged, hwritten⟩ :=
        mergeSignature_some_eq_ok.mp hmerge
      cases hpath
      obtain ⟨raw', hraw, hnew⟩ := hmerged.loads
      obtain rfl : raw = raw' := by
        rw [hmade.unsigned_eq hkeeps] at hraw
        exact Option.some.inj hraw
      obtain rfl : image = image' := Except.ok.inj (hstage.image.symm.trans hnew)
      obtain ⟨signatureLen, hbuilt⟩ := Image.new_built hstage.image
      obtain ⟨⟨rkth', hcheck⟩, rfl⟩ := (hbuilt.merge_eq_ok_iff rfl).mp hmerged.merges
      -- The block in the image has the hash that the command returns.
      obtain rfl : rkth = rkth' := by
        have h := (Image.check_eq_ok hcheck).2
        rw [hstage.rkth_eq hder, hrkth] at h
        exact Except.ok.inj h
      refine ⟨staged, file, before, raw, image, signature, hstage, hcheck, ?_⟩
      rw [hwritten.self, ← List.append_assoc]
      rfl

/-- A run that makes a signature of its own, which is accepted. -/
theorem signProcess_self (hwrites : host.WritesSucceed) (hder : host.crypto.DerLength)
    (hkeeps : args.KeepsUnsigned)
    (hsigns : args.SignsItself) {staged : Staged} {file : ElfFile32} {before : HostFiles}
    {raw : List UInt8} {image : Image}
    (hstage : StageRun host config isBootloader args files staged file before raw image)
    {keyPath : Path} (hpath : leafKeyPath config args.certificate = .ok keyPath)
    {privateKey : PrivateKey}
    (hkey : keyInFile host (stagedFiles args before raw image keyPath) privateKey) {rkth : Digest}
    (hcheck : image.check host.crypto host.overflowChecks (host.sign privateKey image.signMe) rkth
      = .ok ()) :
    ∃ files', signProcess host config isBootloader args files
        = .ok { outputPath := some args.outputPathWithDefault, rkth } files' ∧
      files' args.outputPathWithDefault
        = some (image.signMe ++ host.sign privateKey image.signMe) := by
  obtain ⟨signatureLen, hbuilt⟩ := Image.new_built hstage.image
  have hsignMe (signature : List UInt8) :
      image.signMe ++ signature = image.front ++ (image.certBlock.data ++ signature) := by
    rw [← List.append_assoc]
    rfl
  -- The three parts of the run one after the other: staging is given, then the signature, then the
  -- merge.
  let signedFiles := Function.update (stagedFiles args before raw image) args.ownSignaturePath
    (some (host.sign privateKey image.signMe))
  have hmade : SignatureMade host config args (stagedFiles args before raw image)
      (some args.ownSignaturePath) signedFiles :=
    .inl ⟨hsigns, keyPath, privateKey, image.signMe, hpath, hkey, Function.update_self .., rfl,
      hwrites.written _ _ _⟩
  have hmerged : SignatureMerged host args staged signedFiles args.ownSignaturePath image
      (host.sign privateKey image.signMe) (image.signMe ++ host.sign privateKey image.signMe) :=
    ⟨⟨raw, hmade.unsigned_eq hkeeps, hstage.image⟩, Function.update_self ..,
      (hbuilt.merge_eq_ok_iff rfl).mpr ⟨⟨rkth, hcheck⟩, hsignMe _⟩⟩
  have hrkth := (hstage.rkth_eq hder).symm.trans (Image.check_eq_ok hcheck).2
  have hmerge : mergeSignature host isBootloader args staged (some args.ownSignaturePath)
      signedFiles = .ok { outputPath := some args.outputPathWithDefault, rkth } _ :=
    mergeSignature_some_eq_ok.mpr ⟨hrkth, rfl, image, _, _, hmerged, hwrites.written _ _ _⟩
  exact ⟨_, signProcess_eq_ok.mpr ⟨staged, file, before, raw, image, _, signedFiles, hstage, hmade,
    hmerge⟩, Function.update_self ..⟩

/-! ### A sample run -/

/-- A command with the default paths. -/
def sampleArgs (dontSign : Bool) : SignArguments where
  inputPath := "app.elf"
  signaturePath := none
  outputUnsignedPath := none
  outputPrestagePath := none
  outputPath := none
  dontSign
  certificate := 0
  preludePath := none

/-- An ELF file, a key for the fuses and a private key. -/
def sampleHostFiles : HostFiles := fun path =>
  if path = "app.elf" then some []
  else if path = "otp.hex" then some (Text.bytes (generateHex (List.replicate 32 0x5a)))
  else if path = "root.pem" then some []
  else none

def sampleStaged : Staged where
  baseAddr := 0x10020000
  otp := ⟨List.replicate 32 0x5a, rfl⟩
  certBlock := { data := sampleFile.take 448 }

/-- The sample signature is accepted for the image of the sample firmware. -/
def sampleAccepts : Bool :=
  match Image.new sampleCrypto true (List.replicate 64 0) 0x10020000
    (ImageType.new .XipPlainSigned) sampleStaged.certBlock with
  | .ok image =>
      decide (image.check sampleCrypto true sampleSignature samplePrintedRkth = .ok () ∧
        image.signMe.length = 512)
  | .error _ => false

/-- The sample image is built, and accepts the sample signature. -/
theorem sampleImage_check : ∃ image, Image.new sampleCrypto true (List.replicate 64 0) 0x10020000
      (ImageType.new .XipPlainSigned) sampleStaged.certBlock = .ok image ∧
    image.check sampleCrypto true sampleSignature samplePrintedRkth = .ok () ∧
    image.signMe.length = 512 := by
  have haccepts : sampleAccepts = true := by decide +kernel
  unfold sampleAccepts at haccepts
  split at haccepts
  next image hnew => exact ⟨image, hnew, of_decide_eq_true haccepts⟩
  next => cases haccepts

/-- The first part of the sample run. -/
theorem sampleStageRun (dontSign : Bool) {image : Image}
    (hnew : Image.new sampleCrypto true (List.replicate 64 0) 0x10020000
      (ImageType.new .XipPlainSigned) sampleStaged.certBlock = .ok image) :
    StageRun sampleHost sampleToolConfig false (sampleArgs dontSign) sampleHostFiles sampleStaged
      sampleFirmware sampleHostFiles (List.replicate 64 0) image where
  input := ⟨[], rfl, rfl, rfl⟩
  objcopy := by decide +kernel
  runStart := by decide
  otp := by
    -- The unsigned image was written before the key is read, and to another file.
    have hne : sampleToolConfig.otpPath ≠ (sampleArgs dontSign).outputUnsignedPathWithDefault := by
      cases dontSign with
      | false => decide +kernel
      | true => decide +kernel
    rw [Function.update_of_ne hne]
    exact ⟨_, _, rfl, Text.fromUtf8_bytes _, arrayFromHex_generateHex sampleStaged.otp⟩
  certBlock := generateCertBlock_sampleHost _ _
  writesUnsigned := rfl
  writesPrestage := rfl
  image := hnew

/-- The default paths of the sample arguments are different files. -/
theorem sampleArgs_keepsUnsigned : (sampleArgs false).KeepsUnsigned := by
  constructor
  · decide +kernel
  · intro _
    decide +kernel

/-- The private key is none of the files that the first part writes. -/
theorem sampleStaged_key (image : Image) :
    keyInFile sampleHost (stagedFiles (sampleArgs false) sampleHostFiles (List.replicate 64 0) image
      "root.pem") () := by
  have hunsigned : "root.pem" ≠ (sampleArgs false).outputUnsignedPathWithDefault := by
    decide +kernel
  have hprestage : "root.pem" ≠ (sampleArgs false).outputPrestagePathWithDefault := by
    decide +kernel
  refine ⟨[], "", ?_, rfl, rfl⟩
  rw [stagedFiles, Function.update_of_ne hprestage, Function.update_of_ne hunsigned]
  rfl

/-- The signed image of the sample run. -/
theorem sample_outputPath : (sampleArgs false).outputPathWithDefault = "app.signed.bin" := by
  decide +kernel

/-- The sample run makes a signature of its own and returns a signed image. -/
theorem sample_signProcess : ∃ files' out, signProcess sampleHost sampleToolConfig false
      (sampleArgs false) sampleHostFiles
        = .ok { outputPath := some "app.signed.bin", rkth := samplePrintedRkth } files' ∧
    files' "app.signed.bin" = some out ∧ out.length = 576 := by
  obtain ⟨image, hnew, hcheck, hlen⟩ := sampleImage_check
  obtain ⟨files', hrun, hout⟩ := signProcess_self sampleHost_writesSucceed sampleCrypto_derLength
    sampleArgs_keepsUnsigned ⟨rfl, rfl⟩ (sampleStageRun false hnew) rfl (sampleStaged_key image)
    hcheck
  rw [sample_outputPath] at hrun hout
  refine ⟨files', _, hrun, hout, ?_⟩
  show (image.signMe ++ sampleSignature).length = 576
  rw [List.length_append, hlen]
  rfl

/-- A slot of the sample board with a string as long as the sample image. -/
theorem sampleBoard_programmed {out : List UInt8} (hlen : out.length = 576) :
    Imxrt.Programmed (Imxrt.sampleBoard out) .S0 0x10020000 out (out.getD · 0xff)
      (Imxrt.sampleSlot out) where
  slot := rfl
  reads _ _ h := if_pos h
  holds := by
    apply List.ext_getElem
    · rw [List.length_map, List.length_range]
    · intro i hi hi'
      rw [List.getElem_map, List.getElem_range, List.getD_eq_getElem _ _ hi']
  capacity_lt := show (0xec000 : UInt32) < 0x100000 by decide
  start_le := by
    rw [hlen]
    exact show (64 : UInt32).toNat ≤ 576 by decide
  le_capacity := by
    rw [hlen]
    exact show 576 ≤ (0xec000 : UInt32).toNat by decide
  load_start := Nat.le_refl _
  load_stop := by
    rw [hlen]
    exact show (0x10020000 : UInt32).toNat + 576 < (0x10180000 : UInt32).toNat by decide

/-! ### From the ELF file to the device

The chain of the results about single parts: the segments are in the flat image, the flat image is
in the signed one, and the signed image is what the device copies to its RAM. -/

/-- The flat image of a file whose segments are in the address space. -/
theorem StageRun.flatImage {staged : Staged} {file : ElfFile32} {before : HostFiles}
    {raw : List UInt8} {image : Image}
    (h : StageRun host config isBootloader args files staged file before raw image)
    (hspace : ∀ s ∈ file.segments, s.InAddressSpace) :
    FlatImage (file.segments.filter Segment.isCopied) raw staged.baseAddr := by
  rcases checkSegments_cases host.overflowChecks file.segments hspace 0 with
    ⟨hcheck, hchecked⟩ | ⟨e, hcheck⟩
  · exact flatImage_of_checked hspace hcheck hchecked h.objcopy
  · -- A failing check would have ended the run, but it staged an image.
    have herror : EcSlimloader.objcopy host.overflowChecks file = .error (.error e) := by
      rw [EcSlimloader.objcopy, hcheck]
      rfl
    have hobjcopy := h.objcopy
    rw [herror] at hobjcopy
    cases hobjcopy

/-- The file of a run that has merged a signature is a signed image of the flat image. -/
theorem signProcess_image (hder : host.crypto.DerLength) (hkeeps : args.KeepsUnsigned)
    {path : Path} {rkth : Digest}
    (hrun : signProcess host config isBootloader args files
      = .ok { outputPath := some path, rkth } files') :
    ∃ staged file before raw image out,
      StageRun host config isBootloader args files staged file before raw image ∧
      files' path = some out ∧
      SignedImage host.crypto host.overflowChecks raw staged.baseAddr rkth out := by
  obtain ⟨staged, file, before, raw, image, signature, hstage, hcheck, hout⟩ :=
    signProcess_merged hder hkeeps hrun
  -- The layout of the block comes from the file that it was parsed from.
  obtain ⟨blockFile, hfile⟩ := fromFile_of_generateCertBlock host _ _ hstage.certBlock
  have hsigned := signedImage_of_check hder hfile hstage.image hcheck
  rw [← List.append_assoc] at hsigned
  exact ⟨staged, file, before, raw, image, _, hstage, hout, hsigned⟩

/-- If the command returns the path of a signed image, then the file there is a signed image of
what `objcopy` makes of the ELF file, at the address that the configuration asks for, and its hash
is the one that the command returns. -/
theorem signProcess_signed (hder : host.crypto.DerLength) (hkeeps : args.KeepsUnsigned)
    {path : Path} {rkth : Digest}
    (hrun : signProcess host config isBootloader args files
      = .ok { outputPath := some path, rkth } files') :
    ∃ inputData file raw baseAddr out,
      files args.inputPath = some inputData ∧ host.parseElf inputData = some file ∧
      objcopy host.overflowChecks file = .ok (raw, baseAddr) ∧
      checkRunStart config isBootloader baseAddr = .ok () ∧
      files' path = some out ∧
      SignedImage host.crypto host.overflowChecks raw baseAddr rkth out := by
  obtain ⟨staged, file, before, raw, image, out, hstage, hout, hsigned⟩ :=
    signProcess_image hder hkeeps hrun
  obtain ⟨inputData, hinput, hparse, -⟩ := hstage.input
  exact ⟨inputData, file, raw, staged.baseAddr, out, hinput, hparse, hstage.objcopy,
    hstage.runStart, hout, hsigned⟩

/-- The sample run. -/
theorem signProcess_signed_sample : ∃ files' raw baseAddr out,
    signProcess sampleHost sampleToolConfig false (sampleArgs false) sampleHostFiles
      = .ok { outputPath := some "app.signed.bin", rkth := samplePrintedRkth } files' ∧
    files' "app.signed.bin" = some out ∧
    SignedImage sampleCrypto true raw baseAddr samplePrintedRkth out := by
  obtain ⟨files', -, hrun, -⟩ := sample_signProcess
  obtain ⟨-, -, raw, baseAddr, out, -, -, -, -, hout, hsigned⟩ :=
    signProcess_signed sampleCrypto_derLength sampleArgs_keepsUnsigned hrun
  exact ⟨files', raw, baseAddr, out, hrun, hout, hsigned⟩

/-- A byte of a segment, in the RAM that holds a signed image of the flat image. -/
theorem SignedImage.segment_in_ram {rkth : Digest} {raw out : List UInt8} {segments : List Segment}
    (hsigned : SignedImage host.crypto host.overflowChecks raw baseAddr rkth out)
    (hflat : FlatImage segments raw baseAddr) {ram : Nat → UInt8}
    (hram : Imxrt.ramSlice ram baseAddr.toNat out.length = out) {s : Segment} (hs : s ∈ segments) :
    ∃ data, s.data = some data ∧ ∀ k, k < data.length →
      0x40 ≤ s.pPaddr.toNat + k - baseAddr.toNat ∨ Unpatched (s.pPaddr.toNat + k - baseAddr.toNat) →
      data[k]? = some (ram (s.pPaddr.toNat + k)) := by
  obtain ⟨data, hdata, hlen, hbytes⟩ := hflat.bytes s hs
  refine ⟨data, hdata, ?_⟩
  intro k hk hkeep
  have hbase := hflat.bottom.2 s hs
  have htop := hflat.top.2 s hs
  have hle := hsigned.le_length
  -- The byte is inside of the flat image, and it is not one of those that the header patches.
  have hout := hsigned.content (s.pPaddr.toNat + k - baseAddr.toNat) (by omega) hkeep
  rw [hbytes k (by omega)] at hout
  rw [← hout, ← hram, Imxrt.ramSlice, List.getElem?_map, List.getElem?_range (by omega),
    Option.map_some]
  congr 2
  omega

/-- The configured address of an application. -/
theorem runStart_of_checkRunStart {application : ApplicationArgs}
    (hconfig : config.application = some application)
    (h : checkRunStart config false baseAddr = .ok ()) :
    baseAddr.toUInt64 = application.runStart := by
  simp only [checkRunStart, Bool.false_eq_true, if_false, hconfig] at h
  by_contra hne
  rw [if_pos (Ne.symm hne)] at h
  cases h

/-- A signed image, and the flat image of the ELF file behind it. -/
theorem signProcess_segments (hder : host.crypto.DerLength) (hkeeps : args.KeepsUnsigned)
    {path : Path} {rkth : Digest}
    (hrun : signProcess host config isBootloader args files
      = .ok { outputPath := some path, rkth } files')
    (hspace : ∀ inputData file, files args.inputPath = some inputData →
      host.parseElf inputData = some file → ∀ s ∈ file.segments, s.InAddressSpace) :
    ∃ inputData file raw baseAddr out, files args.inputPath = some inputData ∧
      host.parseElf inputData = some file ∧ files' path = some out ∧
      checkRunStart config isBootloader baseAddr = .ok () ∧
      SignedImage host.crypto host.overflowChecks raw baseAddr rkth out ∧
      FlatImage (file.segments.filter Segment.isCopied) raw baseAddr := by
  obtain ⟨staged, file, before, raw, image, out, hstage, hout, hsigned⟩ :=
    signProcess_image hder hkeeps hrun
  obtain ⟨inputData, hinput, hparse, -⟩ := hstage.input
  exact ⟨inputData, file, raw, staged.baseAddr, out, hinput, hparse, hout, hstage.runStart, hsigned,
    hstage.flatImage (hspace inputData file hinput hparse)⟩

/-- From the ELF file of an application to the RAM of the device. Take a run of the command that
returns the path of a signed image, and any board with that image in a slot that it fits. Then the
board copies the image to the configured address, and every byte of the file's segments is in RAM
at its physical address, but for the four fields of the vector table that the tool patches. The
authentication is reached with the hash that the command has returned or, with the fuses for
secure boot set, the one in the fuses. Nothing else decides whether the board jumps there. -/
theorem signed_application_in_ram (hder : host.crypto.DerLength) (hkeeps : args.KeepsUnsigned)
    {path : Path} {rkth : Digest}
    (hrun : signProcess host config false args files
      = .ok { outputPath := some path, rkth } files')
    {application : ApplicationArgs} (hconfig : config.application = some application)
    (hspace : ∀ inputData file, files args.inputPath = some inputData →
      host.parseElf inputData = some file → ∀ s ∈ file.segments, s.InAddressSpace) :
    ∃ inputData file out baseAddr, files args.inputPath = some inputData ∧
      host.parseElf inputData = some file ∧ files' path = some out ∧
      baseAddr.toUInt64 = application.runStart ∧
      ∀ {T : Type} (board : Imxrt T RomState) (slot : Slot) (content : Nat → UInt8)
        (slotPartition : SlotPartition) (soc : Soc),
        Imxrt.Programmed board slot baseAddr out content slotPartition →
        soc.rom.AccessesSucceed → soc.rom.ReloadsFuses → board.hw.otpInitialized = false →
        (∀ data, soc.sha256 data = some (host.crypto.sha256 data)) →
        ∃ exit after, Imxrt.checkAndBoot slot (board.secure soc) = .error (.error exit) after ∧
          (exit = .bootApplication baseAddr ∨ exit = .bootError .Authenticate) ∧
          (∃ a, after.hw.authentications = board.hw.authentications ++ [a] ∧
            Trusted soc.build soc.rom.fuse rkth a.shadow) ∧
          ∀ s ∈ file.segments, s.isCopied = true → ∃ data, s.data = some data ∧
            ∀ k, k < data.length → 0x40 ≤ s.pPaddr.toNat + k - baseAddr.toNat ∨
              Unpatched (s.pPaddr.toNat + k - baseAddr.toNat) →
              data[k]? = some (after.ram (s.pPaddr.toNat + k)) := by
  obtain ⟨inputData, file, raw, baseAddr, out, hinput, hparse, hout, hcheck, hsigned, hflat⟩ :=
    signProcess_segments hder hkeeps hrun hspace
  refine ⟨inputData, file, out, baseAddr, hinput, hparse, hout,
    runStart_of_checkRunStart hconfig hcheck, ?_⟩
  intro T board slot content slotPartition soc hprogrammed hrom hreload hotp hsha
  -- What the bootloader does with the file is a theorem about the signed image alone.
  obtain ⟨exit, after, hboot, hexit, hauth, hram⟩ :=
    hprogrammed.checkAndBoot_secure hsigned hrom hreload hotp hsha
  refine ⟨exit, after, hboot, hexit, hauth, ?_⟩
  intro s hs hcopied
  exact hsigned.segment_in_ram hflat hram (List.mem_filter.mpr ⟨hs, hcopied⟩)

/-- The sample image in the slot of the sample board. -/
theorem signed_application_in_ram_sample : ∃ files' out exit after,
    signProcess sampleHost sampleToolConfig false (sampleArgs false) sampleHostFiles
      = .ok { outputPath := some "app.signed.bin", rkth := samplePrintedRkth } files' ∧
    files' "app.signed.bin" = some out ∧
    Imxrt.checkAndBoot .S0 ((Imxrt.sampleBoard out).secure
        { sampleSoc with sha256 := fun data => some (sampleCrypto.sha256 data) })
      = .error (.error exit) after ∧
    (exit = .bootApplication 0x10020000 ∨ exit = .bootError .Authenticate) := by
  obtain ⟨files', out, hrun, hout, hlen⟩ := sample_signProcess
  have hspace : ∀ inputData file, sampleHostFiles (sampleArgs false).inputPath = some inputData →
      sampleHost.parseElf inputData = some file → ∀ s ∈ file.segments, s.InAddressSpace := by
    intro inputData file _ hfile
    cases hfile
    intro s hs
    rw [List.mem_singleton.mp hs]
    exact show (0x10020000 : UInt32).toNat + 64 < 2 ^ 32 by decide
  obtain ⟨-, file, out', baseAddr, -, -, hout', hstart, hboards⟩ :=
    signed_application_in_ram sampleCrypto_derLength sampleArgs_keepsUnsigned hrun rfl hspace
  obtain rfl : out = out' := Option.some.inj (hout.symm.trans hout')
  -- The start that was checked is 64 bits wide, and the base address has 32.
  obtain rfl : baseAddr = 0x10020000 := by
    have h := congrArg UInt64.toNat hstart
    rw [UInt32.toNat_toUInt64] at h
    exact UInt32.toNat_inj.mp h
  obtain ⟨exit, after, hboot, hexit, -⟩ := hboards (Imxrt.sampleBoard out) .S0 (out.getD · 0xff)
    (Imxrt.sampleSlot out) { sampleSoc with sha256 := fun data => some (sampleCrypto.sha256 data) }
    (sampleBoard_programmed hlen) (Imxrt.sampleRom_accessesSucceed _) (sampleRom_reloadsFuses _)
    rfl fun _ => rfl
  exact ⟨files', out, exit, after, hrun, hout, hboot, hexit⟩

/-! ### A signature from somewhere else

The first run stops in front of the signature, and the second is given it. In between, a file is
added, and nothing else changes. So staging gives the same result again, and the two runs together
do what one run does. -/

/-- A prelude can be written again, over whatever files there are by then. It is the same prelude,
and the other files stay as they are. -/
theorem PreludeWritten.again (hwrites : host.WritesSucceed) {inputData : List UInt8}
    {before : HostFiles} (h : PreludeWritten host args isBootloader inputData files before)
    (later : HostFiles) :
    ∃ again, PreludeWritten host args isBootloader inputData later again ∧
      ∀ path, isBootloader = true ∧ path = args.preludePathWithDefault →
        again path = before path := by
  cases isBootloader with
  | false => exact ⟨later, rfl, fun _ hp => absurd hp.1 Bool.false_ne_true⟩
  | true =>
      obtain ⟨out, hout, hbefore⟩ := h
      have hagain := hwrites.written args.preludePathWithDefault out later
      refine ⟨_, ⟨out, hout, hagain⟩, fun path hp => ?_⟩
      rw [hp.2, hagain.self, hbefore.self]

/-- What the first part writes again is there already: file by file, in the order of the
writes. -/
theorem stagedFiles_again {inputData : List UInt8} {before later again : HostFiles}
    {raw : List UInt8} {image : Image}
    (hagain : PreludeWritten host args isBootloader inputData later again)
    (hprelude : ∀ path, isBootloader = true ∧ path = args.preludePathWithDefault →
      again path = before path)
    (hsame : ∀ path, args.Works isBootloader path →
      later path = stagedFiles args before raw image path) (hsigns : ¬args.SignsItself) :
    later = stagedFiles args again raw image := by
  funext path
  by_cases hworks : args.Works isBootloader path
  · rw [hsame path hworks, stagedFiles, stagedFiles]
    by_cases hprestage : path = args.outputPrestagePathWithDefault
    · rw [hprestage, Function.update_self, Function.update_self]
    rw [Function.update_of_ne hprestage, Function.update_of_ne hprestage]
    by_cases hunsigned : path = args.outputUnsignedPathWithDefault
    · rw [hunsigned, Function.update_self, Function.update_self]
    rw [Function.update_of_ne hunsigned, Function.update_of_ne hunsigned]
    -- Of the works, only the prelude is left.
    rcases hworks with hp | hp | hp | hp
    · exact (hprelude path hp).symm
    · exact absurd hp hunsigned
    · exact absurd hp hprestage
    · exact absurd hp.1 hsigns
  · simp only [SignArguments.Works, not_or] at hworks
    rw [stagedFiles, Function.update_of_ne hworks.2.2.1, Function.update_of_ne hworks.2.1,
      hagain.eq hworks.1]

/-- The first part does the same again if the ELF file and the OTP file are the same. It writes
the files that it has written before. -/
theorem StageRun.again (hwrites : host.WritesSucceed) {staged : Staged} {file : ElfFile32}
    {before : HostFiles} {raw : List UInt8} {image : Image}
    (h : StageRun host config isBootloader args files staged file before raw image)
    {later : HostFiles} (hotp : ¬args.Works isBootloader config.otpPath)
    (hlater : later args.inputPath = files args.inputPath)
    (hlaterOtp : later config.otpPath = files config.otpPath)
    (hsame : ∀ path, args.Works isBootloader path →
      later path = stagedFiles args before raw image path) (signaturePath : Option Path)
    (hsigns : ¬args.SignsItself) :
    stage host config isBootloader { args with signaturePath } later = .ok staged later := by
  obtain ⟨inputData, hinput, hparse, hprelude⟩ := h.input
  -- A bootloader writes its prelude again, which gives the file that it has written before.
  obtain ⟨again, hagain, hsamePrelude⟩ := hprelude.again hwrites later
  have hotp' := hotp
  simp only [SignArguments.Works, not_or] at hotp'
  have hrun : StageRun host config isBootloader { args with signaturePath } later staged file
      again raw image := by
    refine ⟨⟨inputData, hlater.trans hinput, hparse, hagain⟩, h.objcopy, h.runStart, ?_,
      h.certBlock, hwrites _ _ _, hwrites _ _ _, h.image⟩
    have hread := h.otp
    rw [Function.update_of_ne hotp'.2.1, hprelude.eq hotp'.1] at hread
    show otpInFile (Function.update again args.outputUnsignedPathWithDefault (some raw)
      config.otpPath) staged.otp
    rw [Function.update_of_ne hotp'.2.1, hagain.eq hotp'.1, hlaterOtp]
    exact hread
  have hfiles : later = stagedFiles args again raw image :=
    stagedFiles_again hagain hsamePrelude hsame hsigns
  exact stage_eq_ok.mpr ⟨file, again, raw, image, hrun, hfiles⟩

/-- A run with a signature in a file, behind a run that has not signed. Its first part changes
nothing and it makes no signature of its own, so what is left of it is the merging. -/
theorem StageRun.signProcess_eq (hwrites : host.WritesSucceed) (hsigns : ¬args.SignsItself)
    {staged : Staged} {file : ElfFile32} {before : HostFiles} {raw : List UInt8} {image : Image}
    (h : StageRun host config isBootloader args files staged file before raw image)
    {signaturePath : Path} (hinput : ¬args.Works isBootloader args.inputPath)
    (hotp : ¬args.Works isBootloader config.otpPath)
    (hsignature : ¬args.Works isBootloader signaturePath) (hne : signaturePath ≠ args.inputPath)
    (hneOtp : signaturePath ≠ config.otpPath) {later : HostFiles} (signature : List UInt8)
    (hlater : later
      = Function.update (stagedFiles args before raw image) signaturePath (some signature)) :
    signProcess host config isBootloader { args with signaturePath := some signaturePath } later
      = mergeSignature host isBootloader { args with signaturePath := some signaturePath } staged
          (some signaturePath) later := by
  -- Only the file with the signature is new.
  have hother {path : Path} (hpath : path ≠ signaturePath) :
      later path = stagedFiles args before raw image path := by
    rw [hlater, Function.update_of_ne hpath]
  -- Staging reads none of the files that differ, and writes what is there already.
  have hagain : stage host config isBootloader { args with signaturePath := some signaturePath }
      later = .ok staged later := by
    apply h.again hwrites hotp _ _ _ _ hsigns
    · rw [hother hne.symm, h.other hinput]
    · rw [hother hneOtp.symm, h.other hotp]
    · intro path hworks
      exact hother fun heq => hsignature (heq ▸ hworks)
  have hmake : makeSignature host config { args with signaturePath := some signaturePath } later
      = .ok (some signaturePath) later := by
    refine makeSignature_eq_ok.mpr (.inr ⟨?_, rfl, rfl⟩)
    intro hself
    cases hself.2
  rw [signProcess, Exec.bind_ok hagain, Exec.bind_ok hmake]

/-- The merging of a signature with the image of the first part, when both are in their files: it
returns exactly for the signatures of the certificate's key over the string to be signed. -/
theorem mergeSignature_eq_ok_iff (hwrites : host.WritesSucceed) {staged : Staged} {image : Image}
    {raw : List UInt8} {key : Key} {rkth : Digest} {signaturePath : Path} {signature : List UInt8}
    (hraw : files args.outputUnsignedPathWithDefault = some raw)
    (hread : files signaturePath = some signature)
    (hnew : Image.new host.crypto host.overflowChecks raw staged.baseAddr
      (ImageType.new .XipPlainSigned) staged.certBlock = .ok image)
    (hrkth : staged.certBlock.rkth host.crypto host.overflowChecks = .ok rkth)
    (hblock : image.certBlock.rkth host.crypto host.overflowChecks = .ok rkth)
    (hkey : image.certBlock.verifyingKey host.crypto host.overflowChecks = .ok key)
    {output : SignOutput} :
    mergeSignature host isBootloader args staged (some signaturePath) files = .ok output files' ↔
      (signature.length = host.crypto.keySize key ∧ host.crypto.isSignature signature = true ∧
        host.crypto.verify key image.signMe signature = true) ∧
      output = { outputPath := some args.outputPathWithDefault, rkth } ∧
      files' = Function.update files args.outputPathWithDefault
        (some (image.signMe ++ signature)) := by
  obtain ⟨signatureLen, hbuilt⟩ := Image.new_built hnew
  have hsignMe : image.signMe ++ signature
      = image.front ++ (image.certBlock.data ++ signature) := by
    rw [← List.append_assoc]
    rfl
  rw [mergeSignature_some_eq_ok]
  constructor
  · rintro ⟨hrkth', hpath', image', signature', merged, ⟨⟨raw', hraw', hnew'⟩, hread', hmerges⟩,
      hwritten⟩
    -- The files that are read hold what the first part and the signer have put there.
    obtain rfl : raw = raw' := Option.some.inj (hraw.symm.trans hraw')
    obtain rfl : image = image' := Except.ok.inj (hnew.symm.trans hnew')
    obtain rfl : signature = signature' := Option.some.inj (hread.symm.trans hread')
    obtain ⟨⟨rkth', hcheck⟩, rfl⟩ := (hbuilt.merge_eq_ok_iff rfl).mp hmerges
    obtain ⟨-, key', hkey', hvalid⟩ := Image.check_eq_ok_iff.mp hcheck
    obtain rfl : key = key' := Except.ok.inj (hkey.symm.trans hkey')
    refine ⟨hvalid, ?_, by rw [hwritten.2, hsignMe]⟩
    obtain ⟨outputPath, outputRkth⟩ := output
    obtain rfl : rkth = outputRkth := Except.ok.inj (hrkth.symm.trans hrkth')
    obtain rfl := hpath'
    rfl
  · rintro ⟨hvalid, rfl, rfl⟩
    have hcheck := Image.check_eq_ok_iff.mpr ⟨hblock, key, hkey, hvalid⟩
    refine ⟨hrkth, rfl, image, signature, image.signMe ++ signature, ⟨⟨raw, hraw, hnew⟩, hread, ?_⟩,
      hwrites.written _ _ _⟩
    exact (hbuilt.merge_eq_ok_iff rfl).mpr ⟨⟨rkth, hcheck⟩, hsignMe⟩

/-- A run that does not sign leaves the string to be signed in a file. Put a signature in another
file, and run the command again with its path. The second run returns if and only if the signature
is one of the certificate's key over that very string. Then it has written the string with the
signature behind it, and nothing else has changed. The second run reads the same ELF file and the
same OTP file, it gets the same certificate block, and it can write its files. -/
theorem detached_signature_iff (hwrites : host.WritesSucceed) (hder : host.crypto.DerLength)
    (hdont : args.dontSign = true) (hnone : args.signaturePath = none)
    (hunsigned : args.outputUnsignedPathWithDefault ≠ args.outputPrestagePathWithDefault)
    {signaturePath : Path} (hinput : ¬args.Works isBootloader args.inputPath)
    (hotp : ¬args.Works isBootloader config.otpPath)
    (hsignature : ¬args.Works isBootloader signaturePath) (hne : signaturePath ≠ args.inputPath)
    (hneOtp : signaturePath ≠ config.otpPath) {output : SignOutput}
    (hrun : signProcess host config isBootloader args files = .ok output files') :
    output.outputPath = none ∧
      ∃ (prestaged : List UInt8) (block : CertBlock) (key : Key),
      files' args.outputPrestagePathWithDefault = some prestaged ∧
      block.data <:+ prestaged ∧
      block.rkth host.crypto host.overflowChecks = .ok output.rkth ∧
      block.verifyingKey host.crypto host.overflowChecks = .ok key ∧
      ∀ signature output' files'',
        signProcess host config isBootloader { args with signaturePath := some signaturePath }
            (Function.update files' signaturePath (some signature)) = .ok output' files'' ↔
          (signature.length = host.crypto.keySize key ∧
            host.crypto.isSignature signature = true ∧
            host.crypto.verify key prestaged signature = true) ∧
          output' = { outputPath := some args.outputPathWithDefault, rkth := output.rkth } ∧
          files'' = Function.update (Function.update files' signaturePath (some signature))
            args.outputPathWithDefault (some (prestaged ++ signature)) := by
  have hsigns : ¬args.SignsItself := fun h => Bool.false_ne_true (h.1.symm.trans hdont)
  -- The first run: it has stopped behind its first part.
  obtain ⟨staged, file, before, raw, image, madePath, signedFiles, hstage, hmade, hmerge⟩ :=
    signProcess_eq_ok.mp hrun
  obtain ⟨hself, -⟩ | ⟨-, rfl, rfl⟩ := hmade
  · exact absurd hself hsigns
  rw [hnone] at hmerge
  obtain ⟨hrkth, hpath, rfl⟩ := mergeSignature_none_eq_ok.mp hmerge
  obtain ⟨signatureLen, hbuilt⟩ := Image.new_built hstage.image
  have hblock := (hstage.rkth_eq hder).trans hrkth
  obtain ⟨key, hkey⟩ := hbuilt.verifyingKey
  refine ⟨hpath, image.signMe, image.certBlock, key, Function.update_self .., ?_, hblock, hkey, ?_⟩
  · exact ⟨image.header.ivt ++ image.data, rfl⟩
  -- The second run, from the files with the signature.
  intro signature output' files''
  have hraw : Function.update (stagedFiles args before raw image) signaturePath (some signature)
      args.outputUnsignedPathWithDefault = some raw := by
    have hne : args.outputUnsignedPathWithDefault ≠ signaturePath := by
      intro heq
      exact hsignature (.inr (.inl heq.symm))
    rw [Function.update_of_ne hne, stagedFiles, Function.update_of_ne hunsigned,
      Function.update_self]
  rw [hstage.signProcess_eq hwrites hsigns hinput hotp hsignature hne hneOtp signature rfl]
  exact mergeSignature_eq_ok_iff hwrites hraw (Function.update_self ..) hstage.image hrkth hblock
    hkey

/-- The sample signature, made behind a run that does not sign. -/
theorem detached_signature_iff_sample : ∃ output files' output' files'',
    signProcess sampleHost sampleToolConfig false (sampleArgs true) sampleHostFiles
      = .ok output files' ∧
    signProcess sampleHost sampleToolConfig false
        { sampleArgs true with signaturePath := some "app.sig" }
        (Function.update files' "app.sig" (some sampleSignature)) = .ok output' files'' := by
  obtain ⟨image, hnew, -, -⟩ := sampleImage_check
  have hstage := sampleStageRun true hnew
  have hnot : ¬(sampleArgs true).SignsItself := fun h => Bool.false_ne_true h.1.symm
  have hmade : SignatureMade sampleHost sampleToolConfig (sampleArgs true)
      (stagedFiles (sampleArgs true) sampleHostFiles (List.replicate 64 0) image) none
      (stagedFiles (sampleArgs true) sampleHostFiles (List.replicate 64 0) image) :=
    .inr ⟨hnot, rfl, rfl⟩
  have hrun : signProcess sampleHost sampleToolConfig false (sampleArgs true) sampleHostFiles
      = .ok { outputPath := none, rkth := samplePrintedRkth } _ :=
    signProcess_eq_ok.mpr ⟨sampleStaged, sampleFirmware, sampleHostFiles, List.replicate 64 0,
      image, none, _, hstage, hmade, mergeSignature_none_eq_ok.mpr ⟨rkth_sampleFile, rfl, rfl⟩⟩
  -- With `--dont-sign` the works are the unsigned image and the prestage.
  have hworks (path : Path) (hunsigned : path ≠ (sampleArgs true).outputUnsignedPathWithDefault)
      (hprestage : path ≠ (sampleArgs true).outputPrestagePathWithDefault) :
      ¬(sampleArgs true).Works false path := by
    rintro (h | h | h | h)
    · exact Bool.false_ne_true h.1
    · exact hunsigned h
    · exact hprestage h
    · exact hnot h.1
  obtain ⟨-, prestaged, block, key, -, -, -, -, hsecond⟩ := detached_signature_iff
    sampleHost_writesSucceed sampleCrypto_derLength rfl rfl (by decide +kernel)
    (hworks "app.elf" (by decide +kernel) (by decide +kernel))
    (hworks "otp.hex" (by decide +kernel) (by decide +kernel))
    (hworks "app.sig" (by decide +kernel) (by decide +kernel)) (by decide) (by decide) hrun
  have hverify : sampleCrypto.verify key prestaged sampleSignature = true := by
    simp [sampleCrypto]
  exact ⟨_, _, _, _, hrun, (hsecond sampleSignature _ _).mpr ⟨⟨rfl, rfl, hverify⟩, rfl, rfl⟩⟩

end Mbi

end EcSlimloader
