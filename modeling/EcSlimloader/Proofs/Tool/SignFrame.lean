import EcSlimloader.Proofs.Tool.Sign

/-!
# `EcSlimloader.Proofs.Tool.SignFrame`: the files that a command leaves alone

A run of the command that signs may stop at any step, with an error or a panic. `signProcess_frame`
says what has changed then: the files that it works with, and nothing else. The signed image is
written last, so a run that fails has not touched it, unless writing it is what has failed. A disk
that is full at that point leaves an older signed image empty or cut off, and the error says so.

With the default paths, none of the files that a run writes is the ELF file. So the key that
`generate_otp` has put in the OTP file stays there, whatever is run later.

`Outside` is a predicate on the files, and every command of `process` has a triple that keeps it,
for runs that return and runs that fail. `OutsideUnlessOutput` allows the one exception.

The default paths are compared as texts. `withExtension` replaces the extension of the last part of
a path, so two paths with different extensions differ whatever the name in front of them is.
-/

set_option autoImplicit false

namespace EcSlimloader

/-! ### The steps of a run -/

/-- The files outside `W` are the ones of `files`. -/
def Outside (W : Path → Prop) (files s : HostFiles) : Prop := ∀ path, ¬W path → s path = files path

section Steps

variable {W : Path → Prop} {files : HostFiles} {Q : HostFiles → Prop}

/-- A computation without an effect. -/
theorem outside_ofExcept {α : Type} (x : Except (Fault CommandError) α) :
    Triple Q (Exec.ofExcept x : Command α) (fun _ => Q) fun _ => Q := by
  intro s hs
  cases x with
  | ok a => exact hs
  | error e => exact hs

/-- A command that only fails. -/
theorem outside_fail {α : Type} (e : CommandError) {R : α → HostFiles → Prop} :
    Triple Q (Exec.fail e : Command α) R fun _ => Q := fun _ hs => hs

/-- Reading a file. -/
theorem outside_readFile (path : Path) :
    Triple Q (readFile path) (fun _ => Q) fun _ => Q := by
  intro s hs
  rw [readFile, Exec.get_bind]
  cases s path with
  | none => exact hs
  | some bytes => exact hs

/-- Reading a text file, which may not be UTF-8. -/
theorem outside_readToString (path : Path) :
    Triple Q (readToString path) (fun _ => Q) fun _ => Q := by
  unfold readToString
  apply Triple.bind (outside_readFile path)
  intro bytes
  cases Text.fromUtf8 bytes with
  | none => exact outside_fail _
  | some text => exact Triple.pure text fun _ hs => hs

/-- Reading the key. -/
theorem outside_getOtp (config : ToolConfig) :
    Triple Q (Tool.getOtp config) (fun _ => Q) fun _ => Q := by
  unfold Tool.getOtp
  apply Triple.bind (Triple.mapError (outside_readToString config.otpPath))
  intro text
  exact outside_ofExcept _

variable {Certificate Key PrivateKey : Type} {host : Host Certificate Key PrivateKey}
  {config : ToolConfig} {args : SignArguments} {isBootloader : Bool}

/-- A write changes the file that it writes, whether it succeeds or not. If it fails, the error
names that file. -/
theorem outside_writeBytes_path (path : Path) (contents : List UInt8) :
    Triple (Outside W files) (writeBytes host path contents)
      (fun _ => Outside (fun path' => W path' ∨ path' = path) files)
      fun e s => e = .error (.write path) ∧
        Outside (fun path' => W path' ∨ path' = path) files s := by
  intro s hs
  -- Truncated, partly written or complete: the file is the one at `path` in each case.
  have hkept (content : Option (List UInt8)) :
      Outside (fun path' => W path' ∨ path' = path) files (Function.update s path content) := by
    intro path' hpath'
    rw [not_or] at hpath'
    rw [Function.update_of_ne hpath'.2, hs path' hpath'.1]
  unfold writeBytes
  cases host.writeFails path contents s with
  | none => exact hkept (some contents)
  | some rest => exact ⟨rfl, hkept rest⟩

/-- Writing a file of `W`. -/
theorem outside_writeBytes {path : Path} (hpath : W path) (contents : List UInt8) :
    Triple (Outside W files) (writeBytes host path contents) (fun _ => Outside W files)
      fun _ => Outside W files := by
  have hsame {s : HostFiles} (h : Outside (fun path' => W path' ∨ path' = path) files s) :
      Outside W files s := by
    intro path' hpath'
    refine h path' (not_or.mpr ⟨hpath', ?_⟩)
    rintro rfl
    exact hpath' hpath
  exact (outside_writeBytes_path path contents).conseq (fun _ hs => hs) (fun _ _ hs => hsame hs)
    fun _ _ hs => hsame hs.2

/-- Loading the flat image. Building it is a computation, so only a read is left. -/
theorem outside_loadImage (inputPath : Path) (baseAddr : UInt32) (certBlock : CertBlock) :
    Triple Q (loadImage host inputPath baseAddr isBootloader certBlock) (fun _ => Q)
      fun _ => Q := by
  unfold loadImage
  apply Triple.bind (outside_readFile inputPath)
  intro plainImage
  exact outside_ofExcept _

/-- Preparing the image writes the string to be signed. -/
theorem outside_prepareToSign {outputPath : Path} (hpath : W outputPath) (inputPath : Path)
    (baseAddr : UInt32) (certBlock : CertBlock) : Triple (Outside W files)
      (prepareToSign host inputPath baseAddr outputPath isBootloader certBlock)
      (fun _ => Outside W files) fun _ => Outside W files := by
  unfold prepareToSign
  apply Triple.bind (outside_loadImage inputPath baseAddr certBlock)
  intro image
  exact Triple.mapError (outside_writeBytes hpath image.signMe)

/-- Signing reads the key and the prepared file, and writes the signature. -/
theorem outside_signFile {signaturePath : Path} (hpath : W signaturePath)
    (preparedPath privateKeyPath : Path) : Triple (Outside W files)
      (signFile host signaturePath preparedPath privateKeyPath) (fun _ => Outside W files)
      fun _ => Outside W files := by
  unfold signFile
  apply Triple.bind (outside_readToString privateKeyPath)
  intro text
  cases host.fromPkcs8Pem text with
  | none => exact outside_fail _
  | some privateKey =>
      apply Triple.bind (outside_readFile preparedPath)
      intro signingBody
      exact Triple.mapError (outside_writeBytes hpath _)

/-- The first part writes the prelude, the flat image and the string to be signed. -/
theorem outside_stage : Triple (Outside (args.Works isBootloader) files)
    (stage host config isBootloader args) (fun _ => Outside (args.Works isBootloader) files)
    fun _ => Outside (args.Works isBootloader) files := by
  have hprelude (inputData : List UInt8) : Triple (Outside (args.Works isBootloader) files)
      (extractPrelude host args isBootloader inputData)
      (fun _ => Outside (args.Works isBootloader) files)
      fun _ => Outside (args.Works isBootloader) files := by
    unfold extractPrelude
    cases isBootloader with
    | false => exact Triple.pure () fun _ hs => hs
    | true =>
        cases host.removeNonPrelude inputData with
        | none => exact outside_fail _
        | some out => exact Triple.mapError (outside_writeBytes (.inl ⟨rfl, rfl⟩) out)
  -- The three writes are the prelude, the unsigned image and the prestage. Each of them is a work.
  unfold stage
  apply Triple.bind (outside_readFile args.inputPath)
  intro inputData
  cases host.parseElf inputData with
  | none => exact outside_fail _
  | some file =>
      apply Triple.bind (hprelude inputData)
      intro _
      apply Triple.bind (outside_ofExcept _)
      intro (image, baseAddr)
      apply Triple.bind (outside_ofExcept _)
      intro _
      apply Triple.bind (outside_writeBytes (.inr (.inl rfl)) image)
      intro _
      apply Triple.bind (outside_getOtp config)
      intro otp
      apply Triple.bind (outside_ofExcept _)
      intro certBlock
      apply Triple.bind
        (Triple.mapError (outside_prepareToSign (.inr (.inr (.inl rfl))) _ baseAddr certBlock))
      intro _
      exact Triple.pure _ fun _ hs => hs

/-- "Signing image" writes its own signature, if it makes one. -/
theorem outside_makeSignature : Triple (Outside (args.Works isBootloader) files)
    (makeSignature host config args) (fun _ => Outside (args.Works isBootloader) files)
    fun _ => Outside (args.Works isBootloader) files := by
  unfold makeSignature
  by_cases hsigns : (!args.dontSign && args.signaturePath.isNone) = true
  · have hown : args.SignsItself := by
      rw [Bool.and_eq_true, Bool.not_eq_true', Option.isNone_iff_eq_none] at hsigns
      exact hsigns
    -- The fourth write: the signature that the tool makes itself.
    rw [if_pos hsigns]
    apply Triple.bind (outside_ofExcept _)
    intro keyPath
    apply Triple.bind
      (Triple.mapError (outside_signFile (.inr (.inr (.inr ⟨hown, rfl⟩))) _ keyPath))
    intro _
    exact Triple.pure _ fun _ hs => hs
  · rw [if_neg hsigns]
    exact Triple.pure _ fun _ hs => hs

/-- The error of a run that could not write its signed image. -/
def SignArguments.outputError (args : SignArguments) : CommandError :=
  .context "Could not merge image with signature" (.write args.outputPathWithDefault)

/-- What a failed run has changed: files of `W` and, if the fault is that it could not write its
signed image, the file there. -/
def OutsideUnlessOutput (args : SignArguments) (W : Path → Prop) (files : HostFiles)
    (e : Fault CommandError) (s : HostFiles) : Prop :=
  ∀ path, ¬W path → s path = files path ∨
    (path = args.outputPathWithDefault ∧ e = .error args.outputError)

/-- A run that keeps to the files of `W` needs no exception. -/
theorem Outside.unlessOutput {s : HostFiles} (h : Outside W files s) (e : Fault CommandError) :
    OutsideUnlessOutput args W files e s := fun path hpath => .inl (h path hpath)

/-- What a run that returns has changed: files of `W` and the signed image, if there is one. -/
def OutsideOrOutput (W : Path → Prop) (files : HostFiles) (output : SignOutput) (s : HostFiles) :
    Prop :=
  ∀ path, ¬W path → output.outputPath ≠ some path → s path = files path

/-- The signed image is written at the very end, so no step behind that can fail. A run that fails
has not touched it, or has failed at just this write. -/
theorem outside_mergeSignature (staged : Staged) (signaturePath : Option Path) :
    Triple (Outside W files) (mergeSignature host isBootloader args staged signaturePath)
      (OutsideOrOutput W files) (OutsideUnlessOutput args W files) := by
  unfold mergeSignature
  apply Triple.bind ((outside_ofExcept _).mono_crash fun e _ hs => hs.unlessOutput e)
  intro rkth
  cases signaturePath with
  | none => exact Triple.pure _ fun s hs path hpath _ => hs path hpath
  | some signaturePath =>
      -- The four steps of `merge_with_signature`; its errors get their context behind them.
      have hmerge : Triple (Outside W files)
          (mergeWithSignature host args.outputUnsignedPathWithDefault staged.baseAddr signaturePath
            args.outputPathWithDefault isBootloader (some staged.otp) staged.certBlock)
          (fun _ => Outside (fun path => W path ∨ path = args.outputPathWithDefault) files)
          fun e s => Outside W files s ∨ (e = .error (.write args.outputPathWithDefault) ∧
            Outside (fun path => W path ∨ path = args.outputPathWithDefault) files s) := by
        unfold mergeWithSignature
        apply Triple.bind ((outside_loadImage _ _ _).mono_crash fun _ _ hs => .inl hs)
        intro image
        apply Triple.bind ((outside_readFile _).mono_crash fun _ _ hs => .inl hs)
        intro signature
        apply Triple.bind ((outside_ofExcept _).mono_crash fun _ _ hs => .inl hs)
        intro merged
        exact (outside_writeBytes_path _ merged).mono_crash fun _ _ hs => .inr hs
      refine Triple.bind (Triple.mapError_of hmerge ?_) ?_
      · rintro e s (hs | ⟨rfl, hs⟩)
        · exact hs.unlessOutput _
        · intro path hpath
          by_cases hout : path = args.outputPathWithDefault
          · exact .inr ⟨hout, rfl⟩
          · exact .inl (hs path (not_or.mpr ⟨hpath, hout⟩))
      · intro _
        refine Triple.pure _ fun s hs path hpath hout => hs path (not_or.mpr ⟨hpath, ?_⟩)
        rintro rfl
        exact hout rfl

/-- A run changes the files that it works with and, if it returns the path of a signed image, the
file there. -/
theorem signProcess_outside : Triple (fun s => s = files)
    (signProcess host config isBootloader args) (OutsideOrOutput (args.Works isBootloader) files)
    (OutsideUnlessOutput args (args.Works isBootloader) files) := by
  have hrun : Triple (Outside (args.Works isBootloader) files)
      (signProcess host config isBootloader args)
      (OutsideOrOutput (args.Works isBootloader) files)
      (OutsideUnlessOutput args (args.Works isBootloader) files) := by
    unfold signProcess
    -- The output is written by the merge alone, so an error before it leaves the output alone.
    apply Triple.bind (outside_stage.mono_crash fun e _ hs => hs.unlessOutput e)
    intro staged
    apply Triple.bind (outside_makeSignature.mono_crash fun e _ hs => hs.unlessOutput e)
    intro signaturePath
    exact outside_mergeSignature staged signaturePath
  apply hrun.conseq _ (fun _ _ h => h) fun _ _ h => h
  intro s hs path _
  rw [hs]

/-- If the signed image cannot be written, the run ends with that error. What is at its path then
is up to the host. -/
theorem SignatureMerged.write_fails {staged : Staged} {signaturePath : Path} {image : Image}
    {signature merged : List UInt8}
    (h : SignatureMerged host args staged files signaturePath image signature merged)
    {rkth : Digest} (hrkth : staged.certBlock.rkth host.crypto host.overflowChecks = .ok rkth)
    {rest : Option (List UInt8)}
    (hfails : host.writeFails args.outputPathWithDefault merged files = some rest) :
    mergeSignature host isBootloader args staged (some signaturePath) files
      = .error (.error args.outputError)
        (Function.update files args.outputPathWithDefault rest) := by
  -- Every step up to the write succeeds as it does in a run that returns.
  have hload : loadImage host args.outputUnsignedPathWithDefault staged.baseAddr isBootloader
      staged.certBlock files = .ok image files := loadImage_eq_ok.mpr ⟨h.loads, rfl⟩
  have hread : readFile signaturePath files = .ok signature files :=
    readFile_eq_ok.mpr ⟨h.reads, rfl⟩
  have hmerges : ofTool (image.merge host.crypto host.overflowChecks signature (some staged.otp))
      files = .ok merged files := ofTool_eq_ok.mpr ⟨h.merges, rfl⟩
  have hwrite : writeBytes host args.outputPathWithDefault merged files
      = .error (.error (.write args.outputPathWithDefault))
        (Function.update files args.outputPathWithDefault rest) := by
    rw [writeBytes, hfails]
  have hrun : mergeWithSignature host args.outputUnsignedPathWithDefault staged.baseAddr
      signaturePath args.outputPathWithDefault isBootloader (some staged.otp) staged.certBlock files
      = .error (.error (.write args.outputPathWithDefault))
        (Function.update files args.outputPathWithDefault rest) := by
    rw [mergeWithSignature, Exec.bind_ok hload, Exec.bind_ok hread, Exec.bind_ok hmerges, hwrite]
  rw [mergeSignature, Exec.bind_ok (ofTool_eq_ok.mpr ⟨hrkth, rfl⟩)]
  exact Exec.bind_error (Exec.mapError_error hrun)

end Steps

/-! ### Default paths

A path is split at its last slash, and its name at the last dot. The lemmas about these two splits
are what the comparison of the default paths comes down to. -/

namespace Path

/-- A path that ends in a proper character ends in a file name. -/
theorem dropTrailing_cons {c : Char} (hsep : c ≠ '/') (hdot : c ≠ '.') (cs : List Char) :
    dropTrailing (c :: cs) = c :: cs := by
  unfold dropTrailing
  split
  next h => exact absurd (List.cons.inj h).1 hsep
  next h => exact absurd (List.cons.inj h).1 hdot
  next => rfl

/-- A file name is what is behind the last separator. -/
theorem fileName_append {path : Path} {name : List Char} (h : fileName path = some name) :
    name ++ (dropTrailing path.toList.reverse).dropWhile (· ≠ '/')
      = dropTrailing path.toList.reverse := by
  simp only [fileName] at h
  split at h
  · cases h
  · rw [← Option.some.inj h, List.takeWhile_append_dropWhile]

/-- The stem in front of an extension that has a dot of its own. -/
theorem stem_append {b rest : List Char} (hb : '.' ∉ b) (hrest : rest ≠ []) :
    stem (b ++ '.' :: rest) = rest := by
  -- The name has no dot in front of the one that is looked for.
  have hdrop : (b ++ '.' :: rest).dropWhile (· ≠ '.') = '.' :: rest := by
    rw [List.dropWhile_append_of_pos]
    · rfl
    · intro c hc
      apply decide_eq_true
      intro heq
      exact hb (heq ▸ hc)
  unfold stem
  rw [hdrop]
  cases rest with
  | nil => exact absurd rfl hrest
  | cons c cs => rfl

/-- The characters of a path with another extension. -/
theorem toList_withExtension {path : Path} {name : List Char} (h : fileName path = some name)
    (hkeeps : ¬LosesName path name) (extension : String) : (withExtension path extension).toList
      = ((dropTrailing path.toList.reverse).dropWhile (· ≠ '/')).reverse ++ (stem name).reverse
        ++ '.' :: extension.toList := by
  rw [withExtension, h]
  simp only [if_neg hkeeps]
  exact String.toList_ofList

/-- Different extensions make different paths. -/
theorem withExtension_inj {path : Path} (h : path.TakesExtension) {ext ext' : String}
    (heq : withExtension path ext = withExtension path ext') : ext = ext' := by
  obtain ⟨name, hname, hkeeps⟩ := h
  have hlist := congrArg String.toList heq
  rw [toList_withExtension hname hkeeps, toList_withExtension hname hkeeps] at hlist
  exact String.toList_inj.mp (List.cons.inj (List.append_cancel_left hlist)).2

/-- An extension with a dot in it makes another path: the stem is what is in front of the last
dot. -/
theorem withExtension_ne_self {path : Path} (h : path.TakesExtension) {ext : String}
    {a b : List Char} (hext : ext.toList = a ++ '.' :: b) (hb : b ≠ []) (hdot : '.' ∉ b)
    (hsep : '/' ∉ b) : withExtension path ext ≠ path := by
  intro heq
  obtain ⟨name, hname, hkeeps⟩ := h
  have hlist := toList_withExtension hname hkeeps ext
  rw [heq, hext] at hlist
  have happend := fileName_append hname
  generalize (dropTrailing path.toList.reverse).dropWhile (· ≠ '/') = parent at hlist happend
  -- Last character first, the path starts with the last part of the extension.
  have hrev : path.toList.reverse
      = b.reverse ++ '.' :: (a.reverse ++ '.' :: stem name) ++ parent := by
    rw [hlist]
    simp
  obtain ⟨c, cs, hcs⟩ := List.exists_cons_of_ne_nil (List.reverse_ne_nil_iff.mpr hb)
  have hc : c ∈ b := List.mem_reverse.mp (hcs ▸ List.mem_cons_self)
  have htrailing : dropTrailing path.toList.reverse = path.toList.reverse := by
    rw [hrev, hcs]
    apply dropTrailing_cons
    · intro hslash
      exact hsep (hslash ▸ hc)
    · intro hpoint
      exact hdot (hpoint ▸ hc)
  -- So its file name is the extension behind the stem of that very name, which is too long.
  have hfile : name = b.reverse ++ '.' :: (a.reverse ++ '.' :: stem name) := by
    rw [htrailing, hrev] at happend
    exact List.append_cancel_right happend
  have hdot' : '.' ∉ b.reverse := by
    rw [List.mem_reverse]
    exact hdot
  have hlength := congrArg List.length
    (stem_append hdot' (show a.reverse ++ '.' :: stem name ≠ [] by simp))
  rw [← hfile] at hlength
  simp only [List.length_append, List.length_cons] at hlength
  omega

end Path

namespace SignArguments

variable {args : SignArguments}

/-- No path of an output is given. -/
structure UsesDefaults (args : SignArguments) : Prop where
  unsigned : args.outputUnsignedPath = none
  prestage : args.outputPrestagePath = none
  output : args.outputPath = none
  prelude : args.preludePath = none

/-- Every file that a run writes gets an extension of its own, which has a dot in it. -/
theorem UsesDefaults.writes (h : args.UsesDefaults) (isBootloader : Bool) {path : Path}
    (hpath : args.Works isBootloader path) :
    ∃ extension ∈ ["prelude.elf", "unsigned.bin", "mbi-proto.bin", "signature.bin"],
      path = Path.withExtension args.inputPath extension := by
  rcases hpath with ⟨-, rfl⟩ | rfl | rfl | ⟨-, rfl⟩
  · exact ⟨"prelude.elf", by simp, by rw [preludePathWithDefault, h.prelude]; rfl⟩
  · exact ⟨"unsigned.bin", by simp, by rw [outputUnsignedPathWithDefault, h.unsigned]; rfl⟩
  · exact ⟨"mbi-proto.bin", by simp, by rw [outputPrestagePathWithDefault, h.prestage]; rfl⟩
  · exact ⟨"signature.bin", by simp, rfl⟩

/-- By default the signed image is beside the ELF file. -/
theorem UsesDefaults.output_eq (h : args.UsesDefaults) :
    args.outputPathWithDefault = Path.withExtension args.inputPath "signed.bin" := by
  rw [outputPathWithDefault, h.output]
  rfl

variable (h : args.UsesDefaults) (hname : args.inputPath.TakesExtension)
include h hname

/-- With default paths, the flat image is kept. -/
theorem UsesDefaults.keepsUnsigned : args.KeepsUnsigned := by
  rw [KeepsUnsigned, outputUnsignedPathWithDefault, outputPrestagePathWithDefault, h.unsigned,
    h.prestage]
  constructor
  · intro heq
    exact absurd (Path.withExtension_inj hname heq) (by decide)
  · intro _ heq
    exact absurd (Path.withExtension_inj hname heq) (by decide)

/-- So are the ELF file and an older signed image. -/
theorem UsesDefaults.not_works (isBootloader : Bool) :
    ¬args.Works isBootloader args.inputPath ∧
      ¬args.Works isBootloader args.outputPathWithDefault ∧
      args.outputPathWithDefault ≠ args.inputPath := by
  -- A default extension is made of two, so putting it in the place of one gives another path.
  have hne {a b : String} (ext : String) (hext : ext.toList = a.toList ++ '.' :: b.toList)
      (hb : b.toList ≠ [] ∧ '.' ∉ b.toList ∧ '/' ∉ b.toList) :
      Path.withExtension args.inputPath ext ≠ args.inputPath :=
    Path.withExtension_ne_self hname hext hb.1 hb.2.1 hb.2.2
  refine ⟨?_, ?_, ?_⟩
  · intro hworks
    obtain ⟨extension, hmem, heq⟩ := h.writes isBootloader hworks
    simp only [List.mem_cons, List.not_mem_nil, or_false] at hmem
    rcases hmem with rfl | rfl | rfl | rfl
    · exact hne (a := "prelude") (b := "elf") "prelude.elf" (by decide) (by decide) heq.symm
    · exact hne (a := "unsigned") (b := "bin") "unsigned.bin" (by decide) (by decide) heq.symm
    · exact hne (a := "mbi-proto") (b := "bin") "mbi-proto.bin" (by decide) (by decide) heq.symm
    · exact hne (a := "signature") (b := "bin") "signature.bin" (by decide) (by decide) heq.symm
  · intro hworks
    obtain ⟨extension, hmem, heq⟩ := h.writes isBootloader hworks
    rw [h.output_eq] at heq
    -- Two defaults with the same name would have the same extension.
    obtain rfl := Path.withExtension_inj hname heq
    exact absurd hmem (by decide)
  · rw [h.output_eq]
    exact hne (a := "signed") (b := "bin") "signed.bin" (by decide) (by decide)

end SignArguments

/-! ### What a command leaves alone -/

/-- The files that a run leaves behind, however it ends. -/
def filesBehind {α : Type} : EStateM.Result (Fault CommandError) HostFiles α → HostFiles
  | .ok _ files => files
  | .error _ files => files

/-- A host with other failures to write a file. -/
def Host.withWrites {Certificate Key PrivateKey : Type} (host : Host Certificate Key PrivateKey)
    (writeFails : Path → List UInt8 → HostFiles → Option (Option (List UInt8))) :
    Host Certificate Key PrivateKey :=
  { host with writeFails }

/-- The certificate block does not go through `write_bytes`: `nxpimage` writes its own files. -/
theorem generateCertBlock_withWrites {Certificate Key PrivateKey : Type}
    (host : Host Certificate Key PrivateKey)
    (writeFails : Path → List UInt8 → HostFiles → Option (Option (List UInt8))) (config : Config)
    (certificateIdx : Nat) : generateCertBlock (host.withWrites writeFails) config certificateIdx
      = generateCertBlock host config certificateIdx := rfl

/-- The sample host with a disk that is full when the signed image is written. -/
def fullHost : Host Unit Unit Unit :=
  sampleHost.withWrites fun path _ _ => if path = "app.signed.bin" then some (some []) else none

/-- There is room for the files that a run works with. -/
theorem fullHost_writes {path : Path} (contents : List UInt8) (files : HostFiles)
    (h : path ≠ "app.signed.bin") : fullHost.writeFails path contents files = none := if_neg h

/-- There is none for the signed image. The file is truncated before the disk is found to
be full. -/
theorem fullHost_fails {path : Path} (contents : List UInt8) (files : HostFiles)
    (h : path = "app.signed.bin") : fullHost.writeFails path contents files = some (some []) :=
  if_pos h

section Commands

variable {Certificate Key PrivateKey : Type} (host : Host Certificate Key PrivateKey)
  (config : ToolConfig)

/-- The path that a run returns is the one of its signed image. -/
theorem signProcess_outputPath {args : SignArguments} {isBootloader : Bool}
    {files files' : HostFiles} {output : SignOutput}
    (hrun : signProcess host config isBootloader args files = .ok output files') {path : Path}
    (hpath : output.outputPath = some path) : path = args.outputPathWithDefault := by
  obtain ⟨staged, file, before, raw, image, signaturePath, signedFiles, -, -, hmerge⟩ :=
    signProcess_eq_ok.mp hrun
  -- Without a signature there is nothing to merge, and no path is returned.
  cases signaturePath with
  | none =>
      rw [(mergeSignature_none_eq_ok.mp hmerge).2.1] at hpath
      cases hpath
  | some signaturePath =>
      rw [(mergeSignature_some_eq_ok.mp hmerge).2.1] at hpath
      exact (Option.some.inj hpath).symm

/-- A run that returns has changed the files that it works with, and the signed image whose path
it returns. A run that fails, at whatever step, has only changed files that it works with, but for
the signed image of a run that fails because it could not write just that. With default paths the
ELF file is never changed, and a run that fails leaves an older signed image as it is, with the same
exception: a write that fails may have emptied the file, and the error names it. -/
theorem signProcess_frame (args : SignArguments) (isBootloader : Bool) (files : HostFiles) :
    (∀ output files', signProcess host config isBootloader args files = .ok output files' →
      ∀ path, ¬args.Works isBootloader path → output.outputPath ≠ some path →
        files' path = files path) ∧
    (∀ e files', signProcess host config isBootloader args files = .error e files' →
      ∀ path, ¬args.Works isBootloader path → files' path = files path ∨
        (path = args.outputPathWithDefault ∧ e = .error args.outputError)) ∧
    (args.UsesDefaults → args.inputPath.TakesExtension →
      filesBehind (signProcess host config isBootloader args files) args.inputPath
        = files args.inputPath ∧
      ∀ e files', signProcess host config isBootloader args files = .error e files' →
        files' args.outputPathWithDefault = files args.outputPathWithDefault ∨
          e = .error args.outputError) := by
  have hok : ∀ output files', signProcess host config isBootloader args files
      = .ok output files' → ∀ path, ¬args.Works isBootloader path →
        output.outputPath ≠ some path → files' path = files path :=
    fun output files' hrun => signProcess_outside.of_ok rfl hrun
  have herror : ∀ e files', signProcess host config isBootloader args files
      = .error e files' → ∀ path, ¬args.Works isBootloader path → files' path = files path ∨
        (path = args.outputPathWithDefault ∧ e = .error args.outputError) :=
    fun e files' hrun => signProcess_outside.of_error rfl hrun
  refine ⟨hok, herror, ?_⟩
  intro hdefaults hname
  obtain ⟨hinput, houtput, hne⟩ := hdefaults.not_works hname isBootloader
  constructor
  · -- The ELF file is neither worked with nor the signed image.
    cases hrun : signProcess host config isBootloader args files with
    | ok output files' =>
        apply hok output files' hrun _ hinput
        intro hpath
        exact hne (signProcess_outputPath host config hrun hpath).symm
    | error e files' =>
        rcases herror e files' hrun _ hinput with hsame | ⟨hpath, -⟩
        · exact hsame
        · exact absurd hpath.symm hne
  · intro e files' hrun
    rcases herror e files' hrun _ houtput with hsame | ⟨-, hfault⟩
    · exact .inl hsame
    · exact .inr hfault

end Commands

/-- The sample run on that disk: the error says what has happened. The file of the signed image is
empty, and the ELF file is as it was. -/
theorem signProcess_frame_full : ∃ files',
    signProcess fullHost sampleToolConfig false (sampleArgs false) sampleHostFiles
      = .error (.error (sampleArgs false).outputError) files' ∧
    files' "app.elf" = sampleHostFiles "app.elf" ∧ files' "app.signed.bin" = some [] := by
  obtain ⟨image, hnew, hcheck, -⟩ := sampleImage_check
  obtain ⟨signatureLen, hbuilt⟩ := Image.new_built hnew
  -- The first part and the signature are as on the sample host.
  have hsample := sampleStageRun false hnew
  have hblock : generateCertBlock fullHost sampleToolConfig.toConfig (sampleArgs false).certificate
      = .ok sampleStaged.certBlock :=
    (generateCertBlock_withWrites sampleHost _ _ _).trans hsample.certBlock
  have hstage : StageRun fullHost sampleToolConfig false (sampleArgs false) sampleHostFiles
      sampleStaged sampleFirmware sampleHostFiles (List.replicate 64 0) image :=
    ⟨hsample.input, hsample.objcopy, hsample.runStart, hsample.otp, hblock,
      fullHost_writes _ _ (by decide +kernel), fullHost_writes _ _ (by decide +kernel),
      hsample.image⟩
  let staged := stagedFiles (sampleArgs false) sampleHostFiles (List.replicate 64 0) image
  let signed := Function.update staged (sampleArgs false).ownSignaturePath (some sampleSignature)
  have hmade : SignatureMade fullHost sampleToolConfig (sampleArgs false) staged
      (some (sampleArgs false).ownSignaturePath) signed :=
    .inl ⟨⟨rfl, rfl⟩, "root.pem", (), image.signMe, rfl, sampleStaged_key image,
      Function.update_self .., rfl, fullHost_writes _ _ (by decide +kernel), rfl⟩
  have hmerged : SignatureMerged fullHost (sampleArgs false) sampleStaged signed
      (sampleArgs false).ownSignaturePath image sampleSignature
      (image.front ++ (image.certBlock.data ++ sampleSignature)) :=
    ⟨⟨_, hmade.unsigned_eq sampleArgs_keepsUnsigned, hnew⟩, Function.update_self ..,
      (hbuilt.merge_eq_ok_iff rfl).mpr ⟨⟨samplePrintedRkth, hcheck⟩, rfl⟩⟩
  have hfails : fullHost.writeFails (sampleArgs false).outputPathWithDefault
      (image.front ++ (image.certBlock.data ++ sampleSignature)) signed = some (some []) :=
    fullHost_fails _ _ sample_outputPath
  have hrun : signProcess fullHost sampleToolConfig false (sampleArgs false) sampleHostFiles
      = .error (.error (sampleArgs false).outputError)
        (Function.update signed (sampleArgs false).outputPathWithDefault (some [])) := by
    rw [signProcess, Exec.bind_ok (stage_eq_ok.mpr ⟨_, _, _, _, hstage, rfl⟩),
      Exec.bind_ok (makeSignature_eq_ok.mpr hmade)]
    exact hmerged.write_fails rkth_sampleFile hfails
  obtain ⟨-, -, hdefaults⟩ := signProcess_frame fullHost sampleToolConfig (sampleArgs false) false
    sampleHostFiles
  obtain ⟨hinput, -⟩ := hdefaults ⟨rfl, rfl, rfl, rfl⟩
    ⟨"fle.ppa".toList, by decide +kernel, by decide +kernel⟩
  rw [hrun] at hinput
  refine ⟨_, hrun, hinput, ?_⟩
  rw [sample_outputPath, Function.update_self]

section Commands

variable {Certificate Key PrivateKey : Type} (host : Host Certificate Key PrivateKey)
  (config : ToolConfig)

/-! ### The OTP file

`generate_otp` reads the file if it is there and writes a new one if not. A command that spares the
file leaves the key in it, so a later call finds it. -/

/-- A command that is run on the files of the host. -/
inductive ToolCommand where
  /-- `generate_otp`, with its random bytes. -/
  | generateOtp (random : Tool.Otp)
  | sign (isBootloader : Bool) (args : SignArguments)

/-- The files behind a command. Every command has a host of its own, so the programs that it calls
and the writes that fail may differ from one to the next. -/
def runCommand (config : ToolConfig) (files : HostFiles)
    (command : Host Certificate Key PrivateKey × ToolCommand) : HostFiles :=
  match command.2 with
  | .generateOtp random => filesBehind (Tool.generateOtp command.1 config random files)
  | .sign isBootloader args =>
      filesBehind (signProcess command.1 config isBootloader args files)

/-- No output of the command goes to the OTP file. -/
def ToolCommand.SparesOtp (config : ToolConfig) : ToolCommand → Prop
  | .generateOtp _ => True
  | .sign isBootloader args =>
      ¬args.Works isBootloader config.otpPath ∧ args.outputPathWithDefault ≠ config.otpPath

variable {config}

/-- A key that is in the OTP file is returned, and not generated again. -/
theorem generateOtp_of_otpInFile {files : HostFiles} {otp : Tool.Otp}
    (h : otpInFile (files config.otpPath) otp) (random : Tool.Otp) :
    Tool.generateOtp host config random files = .ok otp files := by
  have hsome : (files config.otpPath).isSome = true := by
    obtain ⟨bytes, text, hbytes, -⟩ := h
    rw [hbytes]
    rfl
  rw [Tool.generateOtp, Exec.get_bind, if_pos hsome, getOtp_eq_ok]
  exact ⟨h, rfl⟩

/-- The key that `generate_otp` returns is in the OTP file. -/
theorem otpInFile_of_generateOtp {files files' : HostFiles} {random otp : Tool.Otp}
    (h : Tool.generateOtp host config random files = .ok otp files') :
    otpInFile (files' config.otpPath) otp := by
  rw [Tool.generateOtp, Exec.get_bind] at h
  cases hfile : (files config.otpPath).isSome with
  | true =>
      rw [if_pos hfile] at h
      obtain ⟨hotp, rfl⟩ := getOtp_eq_ok.mp h
      exact hotp
  | false =>
      rw [if_neg (by rw [hfile]; decide), Exec.bind_eq_ok_iff] at h
      obtain ⟨_, files₁, hwrite, hreturn⟩ := h
      cases hreturn
      -- What `as_hex` has written is read back.
      exact ⟨_, random.asHex, (writeBytes_eq_ok.mp hwrite).self, Text.fromUtf8_bytes _,
        arrayFromHex_generateHex random⟩

/-- A command that spares the OTP file keeps the key in it. -/
theorem runCommand_otp {files : HostFiles} {otp : Tool.Otp}
    (h : otpInFile (files config.otpPath) otp)
    {command : Host Certificate Key PrivateKey × ToolCommand}
    (hspares : command.2.SparesOtp config) :
    runCommand config files command config.otpPath = files config.otpPath := by
  obtain ⟨host, command⟩ := command
  cases command with
  | generateOtp random =>
      simp only [runCommand, generateOtp_of_otpInFile host h]
      rfl
  | sign isBootloader args =>
      obtain ⟨hworks, hne⟩ := hspares
      simp only [runCommand]
      cases hrun : signProcess host config isBootloader args files with
      | ok output files' =>
          apply signProcess_outside.of_ok rfl hrun _ hworks
          intro hpath
          exact hne (signProcess_outputPath host config hrun hpath).symm
      | error e files' =>
          -- Even a write of the signed image that fails is a write of another file.
          rcases signProcess_outside.of_error rfl hrun _ hworks with hsame | ⟨hpath, -⟩
          · exact hsame
          · exact absurd hpath.symm hne

/-- A key that `generate_otp` has returned is there to stay. Run any commands behind it, with any
random bytes, on any hosts and with any ends, as long as no output goes to the OTP file:
`generate_otp` returns the same key again, and does not change a file. -/
theorem otp_generated_once {files files' : HostFiles} {random otp : Tool.Otp}
    (h : Tool.generateOtp host config random files = .ok otp files')
    (commands : List (Host Certificate Key PrivateKey × ToolCommand))
    (hspares : ∀ command ∈ commands, command.2.SparesOtp config)
    (host' : Host Certificate Key PrivateKey) (random' : Tool.Otp) :
    let later := commands.foldl (runCommand config) files'
    Tool.generateOtp host' config random' later = .ok otp later := by
  intro later
  apply generateOtp_of_otpInFile
  -- Every command keeps the file.
  have hkept : ∀ (l : List (Host Certificate Key PrivateKey × ToolCommand)) (s : HostFiles),
      otpInFile (s config.otpPath) otp → (∀ command ∈ l, command.2.SparesOtp config) →
      otpInFile (l.foldl (runCommand config) s config.otpPath) otp := by
    intro l
    induction l with
    | nil => exact fun s hs _ => hs
    | cons command l ih =>
        intro s hs hl
        apply ih
        · rw [runCommand_otp hs (hl command List.mem_cons_self)]
          exact hs
        · exact fun command' hmem => hl command' (List.mem_cons_of_mem _ hmem)
  exact hkept commands files' (otpInFile_of_generateOtp host h) hspares

end Commands

/-- A signing run on the full disk, between two calls of `generate_otp`. -/
theorem otp_generated_once_sample :
    let later := [(fullHost, ToolCommand.sign false (sampleArgs false))].foldl
      (runCommand sampleToolConfig) sampleHostFiles
    Tool.generateOtp sampleHost sampleToolConfig samplePrintedRkth later
      = .ok sampleStaged.otp later := by
  have hkey : otpInFile (sampleHostFiles sampleToolConfig.otpPath) sampleStaged.otp :=
    ⟨_, _, rfl, Text.fromUtf8_bytes _, arrayFromHex_generateHex sampleStaged.otp⟩
  have hgenerated := generateOtp_of_otpInFile sampleHost hkey samplePrintedRkth
  have hunsigned : sampleToolConfig.otpPath ≠ (sampleArgs false).outputUnsignedPathWithDefault := by
    decide +kernel
  have hprestage : sampleToolConfig.otpPath ≠ (sampleArgs false).outputPrestagePathWithDefault := by
    decide +kernel
  have hown : sampleToolConfig.otpPath ≠ (sampleArgs false).ownSignaturePath := by decide +kernel
  have houtput : (sampleArgs false).outputPathWithDefault ≠ sampleToolConfig.otpPath := by
    decide +kernel
  have hspares : ∀ command ∈ [(fullHost, ToolCommand.sign false (sampleArgs false))],
      command.2.SparesOtp sampleToolConfig := by
    intro command hcommand
    rw [List.mem_singleton.mp hcommand]
    refine ⟨?_, houtput⟩
    rintro (h | h | h | h)
    · exact Bool.false_ne_true h.1
    · exact hunsigned h
    · exact hprestage h
    · exact hown h.2
  exact otp_generated_once sampleHost hgenerated _ hspares sampleHost samplePrintedRkth

end EcSlimloader
