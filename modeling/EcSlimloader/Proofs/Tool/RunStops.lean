import EcSlimloader.Proofs.Tool.Run

/-!
# `EcSlimloader.Proofs.Tool.RunStops`: runs that stop in the middle

The command that runs an image on a device can fail at any of its steps, with an error or with a
panic. What is on the device then depends on the step, and `Stops` has a case for each of them.
`runProcess_order` says that there are no others. The shadow registers are not written before the
whole image is in the flash, as the comment in `process_other` asks for: "First flash then set
secure boot configuration!" The two panics in the end, in the reset and where `probe-rs` cannot be
run, leave a device that is prepared for the boot.

The proof follows the text of the functions. `ImageFlashed` is the invariant behind the flashing,
and every access to the shadow registers keeps it.
-/

set_option autoImplicit false

namespace EcSlimloader

section Process

variable {Certificate Key PrivateKey : Type} {host : Host Certificate Key PrivateKey}
  {probe : Probe} {config : ToolConfig} {command : RunCommands} {s s' : Workbench}

/-! ### Where a run can stop -/

/-- The host has done its part: the key is in its file, and `image` is signed for the flash at
`flashStart`. -/
structure ImageReady (host : Host Certificate Key PrivateKey) (config : ToolConfig)
    (command : RunCommands) (files files' : HostFiles) (flashStart : UInt64) (image : List UInt8)
    (rkth : Digest) : Prop where
  otp : ∃ otp, otpInFile (files config.otpPath) otp
  signed : ImageSigned host config command files files' flashStart image rkth

/-- The flash is as a download of the whole image has left it. -/
def ImageFlashed (host : Host Certificate Key PrivateKey) (probe : Probe) (config : ToolConfig)
    (command : RunCommands) (s t : Workbench) : Prop :=
  ∃ flashStart image rkth flashed,
    ImageReady host config command s.files t.files flashStart image rkth ∧
    probe.download flashStart image s.device = (some (), flashed) ∧
    t.device.flash = flashed.flash

/-- Where a run can fail, and what it leaves on the device there. -/
inductive Stops (host : Host Certificate Key PrivateKey) (probe : Probe) (config : ToolConfig)
    (command : RunCommands) (s : Workbench) : Fault RunError → Workbench → Prop where
  /-- In front of the flashing: nothing has been written to the device. -/
  | untouched (e : Fault RunError) (t : Workbench) (hfault : e ≠ .error .access)
      (hdevice : t.device = s.device) : Stops host probe config command s e t
  /-- In the flashing, which may have written a part of the image. -/
  | flashing (flashStart : UInt64) (image : List UInt8) (rkth : Digest) (t : Workbench)
      (hready : ImageReady host config command s.files t.files flashStart image rkth)
      (hdownload : probe.download flashStart image s.device = (none, t.device)) :
      Stops host probe config command s (.error .flash) t
  /-- In an access behind the flashing. -/
  | configuring (t : Workbench) (hflashed : ImageFlashed host probe config command s t) :
      Stops host probe config command s (.error .access) t
  /-- In the reset, of a device that is prepared. -/
  | resetting (prepared : Workbench) (flashStart : UInt64) (image : List UInt8) (rkth : Digest)
      (device : Target)
      (hprepared : Prepared host probe config command s prepared flashStart image rkth)
      (hreset : probe.reset prepared.device = (none, device)) :
      Stops host probe config command s (.panic "unwrap failed") { prepared with device }
  /-- Where `probe-rs` cannot be run, behind the reset of a device that was prepared. -/
  | attaching (prepared : Workbench) (flashStart : UInt64) (image : List UInt8) (rkth : Digest)
      (reset device : Target)
      (hprepared : Prepared host probe config command s prepared flashStart image rkth)
      (hreset : probe.reset prepared.device = (some (), reset))
      (hstatus : probe.status command.runArgs.probeRsPath (attachArgs command.runArgs) reset
        = (none, device)) :
      Stops host probe config command s (.panic "unwrap failed") { prepared with device }

/-- A device that is prepared has its image from the host. -/
theorem Prepared.imageReady {prepared : Workbench} {flashStart : UInt64} {image : List UInt8}
    {rkth : Digest} (h : Prepared host probe config command s prepared flashStart image rkth) :
    ImageReady host config command s.files prepared.files flashStart image rkth := by
  obtain ⟨otp, flashed, hotp, -⟩ := h.shadow
  exact ⟨⟨otp, hotp⟩, h.signed⟩

/-- Behind the flashing, the whole image is in the flash. -/
theorem ImageFlashed.holds (hprobe : probe.Accesses) {t : Workbench}
    (h : ImageFlashed host probe config command s t) :
    ∃ flashStart image rkth,
      ImageReady host config command s.files t.files flashStart image rkth ∧
      t.device.Holds flashStart.toNat image := by
  obtain ⟨flashStart, image, rkth, flashed, hready, hdownload, hflash⟩ := h
  refine ⟨flashStart, image, rkth, hready, ?_⟩
  -- The probe holds what was downloaded, and the flash is still what the download left.
  have hholds := hprobe.download flashStart image s.device (by rw [hdownload])
  rw [hdownload] at hholds
  rw [Target.Holds, hflash]
  exact hholds

/-- Without an image that is ready, no run comes to the device. -/
theorem Stops.untouched_of_not_ready {e : Fault RunError} {t : Workbench}
    (h : Stops host probe config command s e t)
    (hnot : ∀ flashStart image rkth files',
      ¬ImageReady host config command s.files files' flashStart image rkth) :
    t.device = s.device := by
  -- Every other way to stop has the image ready.
  cases h with
  | untouched _ _ _ hdevice => exact hdevice
  | flashing flashStart image rkth _ hready => exact absurd hready (hnot _ _ _ _)
  | configuring _ hflashed =>
      obtain ⟨flashStart, image, rkth, flashed, hready, -⟩ := hflashed
      exact absurd hready (hnot _ _ _ _)
  | resetting _ _ _ _ _ hprepared => exact absurd hprepared.imageReady (hnot _ _ _ _)
  | attaching _ _ _ _ _ _ hprepared => exact absurd hprepared.imageReady (hnot _ _ _ _)

/-! ### The steps

One triple for each function, with `Stops` as the crash condition from the download on. In front of
it the crash condition is simpler: the device is as it was. -/

/-- A step on the files of the host, with the run itself as its outcome. -/
theorem onHost_triple {α : Type} (x : Command α) (t : Workbench) :
    Triple (fun u => u = t) (onHost x)
      (fun a u => x t.files = .ok a u.files ∧ u.device = t.device)
      fun e u => (∃ e' : Fault CommandError, e = e'.map RunError.host) ∧
        u.device = t.device := by
  rintro start rfl
  cases hrun : onHost x start with
  | ok a u => exact onHost_eq_ok.mp hrun
  | error e u =>
      -- An error comes from the command on the host, which has no access to the device.
      unfold onHost Exec.zoom at hrun
      split at hrun
      next => cases hrun
      next e' files _ =>
        cases hrun
        exact ⟨⟨e', rfl⟩, rfl⟩

/-- An error on the files of the host is no error of an access. -/
theorem map_host_ne_access (e : Fault CommandError) : e.map RunError.host ≠ .error .access := by
  cases e with
  | error e => simp [Fault.map]
  | panic msg => simp [Fault.map]

/-- Reading the image for the flash. Its error is one of the flashing. -/
theorem readImage_triple (path : Path) (t : Workbench) :
    Triple (fun u => u = t)
      (Exec.mapError (fun _ => RunError.flash) (onHost (readFile path)))
      (fun image u => t.files path = some image ∧ u.files = t.files ∧ u.device = t.device)
      fun e u => e ≠ .error .access ∧ u.device = t.device := by
  have hread := (onHost_triple (readFile path) t).conseq (fun _ hu => hu)
    (fun image u hu => (⟨(readFile_eq_ok.mp hu.1).1, (readFile_eq_ok.mp hu.1).2, hu.2⟩ :
      t.files path = some image ∧ u.files = t.files ∧ u.device = t.device)) fun _ _ hu => hu
  apply Triple.mapError_of hread
  rintro e u ⟨-, hu⟩
  refine ⟨?_, hu⟩
  cases e with
  | error e => simp [Fault.map]
  | panic msg => simp [Fault.map]

/-- An access behind the flashing: it keeps the flash. -/
theorem onProbe_triple {α : Type} {request : Target → Option α × Target}
    (hflash : ∀ device, (request device).2.flash = device.flash) :
    Triple (ImageFlashed host probe config command s) (onProbe request .access)
      (fun _ => ImageFlashed host probe config command s)
      (Stops host probe config command s) := by
  rintro t ⟨flashStart, image, rkth, flashed, hready, hdownload, hkept⟩
  -- The request leaves the flash alone, whether it is answered or not.
  have hflash' := (hflash t.device).trans hkept
  unfold onProbe
  cases hrequest : request t.device with
  | mk result device =>
      rw [hrequest] at hflash'
      have hflashed : ImageFlashed host probe config command s { t with device } :=
        ⟨flashStart, image, rkth, flashed, hready, hdownload, hflash'⟩
      cases result with
      | some a => exact hflashed
      | none => exact .configuring _ hflashed

/-- The accesses to the shadow registers do not touch the image. -/
theorem writeShadow_triple (hprobe : probe.Accesses) (rkth : Digest) (otp : Tool.Otp) :
    Triple (ImageFlashed host probe config command s) (writeShadow probe rkth otp)
      (fun _ => ImageFlashed host probe config command s)
      (Stops host probe config command s) := by
  unfold writeShadow
  apply Triple.bind (onProbe_triple (hprobe.flash _ _))
  intro _
  apply Triple.bind (onProbe_triple (hprobe.flash _ _))
  intro _
  apply Triple.bind (onProbe_triple (hprobe.flash _ _))
  intro _
  apply Triple.bind (onProbe_triple (hprobe.flash _ _))
  intro _
  apply Triple.bind (onProbe_triple fun device => by rw [hprobe.read])
  intro buf
  exact onProbe_triple (hprobe.flash _ _)

/-- Starting a session leaves everything as it is. -/
theorem startSession_triple (hprobe : probe.Accesses) (args : ProbeArgs) (t : Workbench) :
    Triple (fun u => u = t) (startSession probe args) (fun _ u => u = t)
      fun e u => e ≠ .error .access ∧ u = t := by
  rintro u rfl
  have hsame := hprobe.attach args.chip u.device
  unfold startSession
  rcases openProbe_cases probe args.probe u with ⟨-, hrun⟩ | ⟨-, e, hrun, hfault⟩
  · -- The probe is open, and attaching to it changes nothing on the device.
    rw [Exec.bind_ok hrun]
    unfold onProbe
    cases hattach : probe.attach args.chip u.device with
    | mk result device =>
        rw [hattach] at hsame
        obtain rfl : device = u.device := hsame
        cases result with
        | some _ => rfl
        | none => exact ⟨by simp, rfl⟩
  · rw [Exec.bind_error hrun]
    exact ⟨hfault, rfl⟩

/-- The flashing, with the signed image at hand and a device that is as it was. -/
theorem download_triple {flashStart : UInt64} {image : List UInt8} {rkth : Digest} {t : Workbench}
    (hready : ImageReady host config command s.files t.files flashStart image rkth)
    (hdevice : t.device = s.device) :
    Triple (fun u => u = t) (onProbe (probe.download flashStart image) .flash)
      (fun _ => ImageFlashed host probe config command s)
      (Stops host probe config command s) := by
  rintro u rfl
  unfold onProbe
  rw [hdevice]
  cases hdownload : probe.download flashStart image s.device with
  | mk result device =>
      cases result with
      | some _ => exact ⟨flashStart, image, rkth, device, hready, hdownload, rfl⟩
      | none =>
          -- A download that fails may have left a part of the image in the flash.
          exact .flashing flashStart image rkth _ hready hdownload

/-- Signing comes first, then the session, then the flashing. -/
theorem processOther_triple (hprobe : probe.Accesses)
    (hotp : ∃ otp, otpInFile (s.files config.otpPath) otp) {t : Workbench}
    (hfiles : t.files = s.files) (hdevice : t.device = s.device) :
    Triple (fun u => u = t) (processOther host probe config command)
      (fun _ => ImageFlashed host probe config command s)
      (Stops host probe config command s) := by
  unfold processOther
  -- Until the flashing, every failure leaves the device as it was.
  apply Triple.bind (R := fun plan u => selectImage config command = .ok plan ∧ u = t)
  · rintro u rfl
    cases hselect : selectImage config command with
    | ok plan => exact ⟨rfl, rfl⟩
    | error e => exact .untouched _ _ (selectImage_ne_access hselect) hdevice
  rintro ⟨runArgs, isBootloader, flashStart⟩
  let Signed (output : SignOutput) (u : Workbench) : Prop :=
    selectImage config command = .ok (runArgs, isBootloader, flashStart) ∧
      signProcess host config isBootloader runArgs.signArgs s.files = .ok output u.files ∧
      u.device = s.device
  apply Triple.bind (R := Signed)
  · rintro u ⟨hselect, rfl⟩
    apply (onHost_triple (signProcess host config isBootloader runArgs.signArgs) u).conseq
      (fun v (hv : v = u) => hv) _ _ u rfl
    · rintro output v ⟨hsign, hv⟩
      rw [hfiles] at hsign
      exact ⟨hselect, hsign, hv.trans hdevice⟩
    · rintro _ v ⟨⟨e, rfl⟩, hv⟩
      exact .untouched _ _ (map_host_ne_access e) (hv.trans hdevice)
  rintro ⟨outputPath, rkth⟩
  cases outputPath with
  | none =>
      rintro u ⟨-, -, hu⟩
      exact .untouched _ _ (by simp) hu
  | some path =>
      let output : SignOutput := { outputPath := some path, rkth }
      apply Triple.bind (R := fun _ => Signed output)
      · rintro u hsigned
        apply (startSession_triple hprobe runArgs.probeArgs u).conseq (fun v (hv : v = u) => hv)
          _ _ u rfl
        · rintro _ v rfl
          exact hsigned
        · rintro e v ⟨hfault, rfl⟩
          exact .untouched _ _ hfault hsigned.2.2
      intro _
      apply Triple.bind (R := fun image u => Signed output u ∧ u.files path = some image)
      · rintro u ⟨hselect, hsign, hu⟩
        apply (readImage_triple path u).conseq (fun v (hv : v = u) => hv) _ _ u rfl
        · rintro image v ⟨himage, hsame, hv⟩
          rw [← hsame] at hsign himage
          exact ⟨⟨hselect, hsign, hv.trans hu⟩, himage⟩
        · rintro e v ⟨hfault, hv⟩
          exact .untouched _ _ hfault (hv.trans hu)
      intro image
      apply Triple.bind (R := fun _ => ImageFlashed host probe config command s)
      · rintro u ⟨⟨hselect, hsign, hu⟩, himage⟩
        have hready : ImageReady host config command s.files u.files flashStart image rkth :=
          ⟨hotp, runArgs, isBootloader, path, hselect, hsign, himage⟩
        exact download_triple hready hu u rfl
      intro _
      exact Triple.pure _ fun _ hu => hu

/-- The part in front of the reset stops in front of the flashing, in it, or behind it. -/
theorem configureTarget_triple (hprobe : probe.Accesses) :
    Triple (fun t => t = s) (configureTarget host probe config command)
      (fun _ => ImageFlashed host probe config command s)
      (Stops host probe config command s) := by
  unfold configureTarget
  -- Up to here only a file was read: the device is untouched, whatever goes wrong.
  apply Triple.bind (R := fun _ t => (∃ otp, otpInFile (s.files config.otpPath) otp) ∧
    t.files = s.files ∧ t.device = s.device)
  · apply (onHost_triple (Tool.getOtp config) s).conseq (fun t ht => ht) _ _
    · rintro otp t ⟨hotp, ht⟩
      obtain ⟨hotp, hfiles⟩ := getOtp_eq_ok.mp hotp
      exact ⟨⟨otp, hotp⟩, hfiles, ht⟩
    · rintro _ t ⟨⟨e, rfl⟩, ht⟩
      exact .untouched _ _ (map_host_ne_access e) ht
  intro otp
  apply Triple.bind (R := fun _ => ImageFlashed host probe config command s)
  · rintro t ⟨hotp, hfiles, hdevice⟩
    exact processOther_triple hprobe hotp hfiles hdevice t rfl
  intro rkth
  -- From here on the image is in flash, and a failing access leaves it there.
  apply Triple.bind (onProbe_triple fun device => by rw [hprobe.core])
  intro _
  exact writeShadow_triple hprobe rkth otp

/-! ### Whole runs -/

/-- The reset and the start of `probe-rs`, of a device that is prepared. Both are unwrapped, so
every failure is a panic. -/
theorem stops_of_prepared {prepared : Workbench} {flashStart : UInt64} {image : List UInt8}
    {rkth : Digest} {e : Fault RunError}
    (hprepared : Prepared host probe config command s prepared flashStart image rkth)
    (hrun : (do
        Exec.unwrap (onProbe probe.reset RunError.access)
        Exec.unwrap (onProbe (probe.status command.runArgs.probeRsPath (attachArgs command.runArgs))
          RunError.access) : Exec RunError Workbench Unit) prepared = .error e s') :
    Stops host probe config command s e s' := by
  cases hreset : probe.reset prepared.device with
  | mk result reset =>
      have hunwrap := unwrap_onProbe probe.reset RunError.access prepared
      simp only [hreset] at hunwrap
      cases result with
      | none =>
          rw [Exec.bind_error hunwrap] at hrun
          cases hrun
          exact .resetting prepared flashStart image rkth reset hprepared hreset
      | some _ =>
          rw [Exec.bind_ok hunwrap, unwrap_onProbe] at hrun
          cases hstatus : probe.status command.runArgs.probeRsPath (attachArgs command.runArgs)
              reset with
          | mk result device =>
              simp only [hstatus] at hrun
              cases result with
              | some _ => cases hrun
              | none =>
                  cases hrun
                  exact .attaching prepared flashStart image rkth reset device hprepared hreset
                    hstatus

/-- Every run that fails is at one of the places of `Stops`. -/
theorem runProcess_stops (hprobe : probe.Accesses) {e : Fault RunError}
    (hrun : runProcess host probe config command s = .error e s') :
    Stops host probe config command s e s' := by
  unfold runProcess at hrun
  cases hconfigure : configureTarget host probe config command s with
  | error e' t =>
      rw [Exec.bind_error hconfigure] at hrun
      cases hrun
      exact (configureTarget_triple hprobe).of_error rfl hconfigure
  | ok u prepared =>
      obtain ⟨flashStart, image, rkth, hprepared⟩ := prepared_of_configureTarget hprobe hconfigure
      rw [Exec.bind_ok hconfigure] at hrun
      exact stops_of_prepared hprepared hrun

/-- A run does not touch the shadow registers before the whole image is in the flash. However it
fails, with an error or a panic, it is at one of the places of `Stops`: in front of the flashing,
with a device that is as it was; in the flashing; in an access behind it, with the whole image in
the flash; or in the reset or the start of `probe-rs`, with a device that is prepared for the boot.
A configuration without the image, a missing key file, and an error or a panic of the signing leave
the device as it was. -/
theorem runProcess_order (hprobe : probe.Accesses) {e : Fault RunError}
    (hrun : runProcess host probe config command s = .error e s') :
    Stops host probe config command s e s' ∧
      (e = .error .access → ∃ flashStart image rkth,
        ImageReady host config command s.files s'.files flashStart image rkth ∧
        s'.device.Holds flashStart.toNat image) ∧
      ((∀ flashStart image rkth files',
        ¬ImageReady host config command s.files files' flashStart image rkth) →
        s'.device = s.device) := by
  have hstops := runProcess_stops hprobe hrun
  refine ⟨hstops, ?_, hstops.untouched_of_not_ready⟩
  rintro rfl
  cases hstops with
  | untouched _ _ hfault => exact absurd rfl hfault
  | configuring _ hflashed => exact hflashed.holds hprobe

/-- Two sample runs that fail: with a probe that does not write to memory, the image is in the
flash; on a host without `probe-rs`, the device has been prepared. -/
theorem runProcess_order_sample :
    (∃ s' flashStart image, runProcess sampleHost (sampleProbe false true) sampleToolConfig
        sampleRunCommand sampleWorkbench = .error (.error .access) s' ∧
      s'.device.Holds flashStart image) ∧
    ∃ s', runProcess sampleHost (sampleProbe true false) sampleToolConfig sampleRunCommand
        sampleWorkbench = .error (.panic "unwrap failed") s' ∧
      Stops sampleHost (sampleProbe true false) sampleToolConfig sampleRunCommand sampleWorkbench
        (.panic "unwrap failed") s' := by
  constructor
  · -- The probe refuses every write: the run stops at the first shadow register, with the image in
    -- flash.
    obtain ⟨files', out, hsigned, -⟩ := sample_imageSigned
    let flashed := ((sampleProbe false true).download 0x080f9000 out sampleWorkbench.device).2
    have hotp : onHost (Tool.getOtp sampleToolConfig) sampleWorkbench
        = .ok sampleStaged.otp sampleWorkbench :=
      onHost_eq_ok.mpr ⟨getOtp_eq_ok.mpr ⟨sampleWorkbench_otp, rfl⟩, rfl⟩
    have hother : processOther sampleHost (sampleProbe false true) sampleToolConfig
        sampleRunCommand sampleWorkbench = .ok samplePrintedRkth ⟨files', flashed⟩ :=
      processOther_eq_ok.mpr ⟨0x080f9000, out, sampleWorkbench.device, hsigned, ⟨rfl, rfl⟩, rfl,
        rfl⟩
    have hcore : onProbe (sampleProbe false true).core .access ⟨files', flashed⟩
        = .ok () ⟨files', flashed⟩ := onProbe_eq_ok.mpr ⟨rfl, rfl⟩
    have hconfigure : configureTarget sampleHost (sampleProbe false true) sampleToolConfig
        sampleRunCommand sampleWorkbench = .error (.error .access) ⟨files', flashed⟩ := by
      rw [configureTarget, Exec.bind_ok hotp, Exec.bind_ok hother, Exec.bind_ok hcore, writeShadow]
      exact Exec.bind_error rfl
    have hrun : runProcess sampleHost (sampleProbe false true) sampleToolConfig sampleRunCommand
        sampleWorkbench = .error (.error .access) ⟨files', flashed⟩ := by
      rw [runProcess, Exec.bind_error hconfigure]
    obtain ⟨-, hholds, -⟩ := runProcess_order (sampleProbe_accesses false true) hrun
    obtain ⟨flashStart, image, rkth, -, hholds⟩ := hholds rfl
    exact ⟨_, flashStart.toNat, image, hrun, hholds⟩
  · -- The command cannot be started: the run panics with the device configured.
    obtain ⟨prepared, out, hconfigure, -⟩ := sample_configureTarget false
    have hreset : (Exec.unwrap (onProbe (sampleProbe true false).reset RunError.access) :
        Exec RunError Workbench Unit) prepared = .ok () prepared := rfl
    have hrun : runProcess sampleHost (sampleProbe true false) sampleToolConfig sampleRunCommand
        sampleWorkbench = .error (.panic "unwrap failed") prepared := by
      rw [runProcess, Exec.bind_ok hconfigure, Exec.bind_ok hreset]
      rfl
    exact ⟨prepared, hrun, (runProcess_order (sampleProbe_accesses true false) hrun).1⟩

end Process

end EcSlimloader
