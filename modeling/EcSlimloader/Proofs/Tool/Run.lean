import EcSlimloader.Proofs.Rom.Registers
import EcSlimloader.Proofs.Tool.SignFrame
import EcSlimloader.Tool.Run

/-!
# `EcSlimloader.Proofs.Tool.Run`: what the command leaves on the device

`run` writes the shadow registers by address and in words, and the bootloader reads them by index
and in bytes. `readRegister_of_words` goes from one to the other: words that were written from
little-endian chunks at the address of a register are the bytes of that register.

The first part of this module is an equivalence for every step, which says when it returns.
`Prepared` is what the steps in front of the reset come to. `run_prepares_device` says what a run
that returns has done to the device that it resets in the end, and `run_application_in_ram` goes on
from the flash to the bootloader, which copies the image to RAM.

`EcSlimloader.Proofs.Tool.RunStops` is about the runs that do not return.

The probe is a parameter, with `Probe.Accesses` for what is taken from it: a write that is answered
has stored its words and has left the other addresses alone, a download has programmed the flash,
and attaching changes nothing. `sampleProbe` is a probe like this, with a switch for refusing writes
and one for the command in the end.
-/

set_option autoImplicit false

namespace EcSlimloader

open Bytes (fromLe)
open Shadow

/-! ### Words and registers -/

/-- Whole chunks are the words that a register access makes of them. -/
theorem chunksToWords_eq {data : List UInt8} (h : data.length % 4 = 0) :
    chunksToWords data = bytesToU32Le data := by
  induction data using chunksToWords.induct with
  | case1 => rfl
  | case2 b0 | case3 b0 b1 | case4 b0 b1 b2 => simp at h
  | case5 b0 b1 b2 b3 rest ih =>
      simp only [List.length_cons] at h
      rw [chunksToWords, bytesToU32Le, ih (by omega)]

/-- A word for every four bytes. -/
theorem length_bytesToU32Le (data : List UInt8) :
    (bytesToU32Le data).length = data.length / 4 := by
  induction data using chunksToWords.induct with
  | case1 => rfl
  | case2 b0 | case3 b0 b1 | case4 b0 b1 b2 => simp [bytesToU32Le]
  | case5 b0 b1 b2 b3 rest ih =>
      simp only [bytesToU32Le, List.length_cons, ih]
      omega

/-- Whole words in front do not shift the words behind them. -/
theorem bytesToU32Le_append {front : List UInt8} (h : front.length % 4 = 0) (back : List UInt8) :
    bytesToU32Le (front ++ back) = bytesToU32Le front ++ bytesToU32Le back := by
  induction front using chunksToWords.induct with
  | case1 => rfl
  | case2 b0 | case3 b0 b1 | case4 b0 b1 b2 => simp at h
  | case5 b0 b1 b2 b3 rest ih =>
      simp only [List.length_cons] at h
      simp only [List.cons_append, bytesToU32Le, ih (by omega)]

/-- Reversed big-endian words are the little-endian words of the reversed bytes. -/
theorem reverse_bytesToU32Be {data : List UInt8} (h : data.length % 4 = 0) :
    (bytesToU32Be data).reverse = bytesToU32Le data.reverse := by
  -- Four bytes a step. The remainders of one to three bytes contradict the hypothesis on the
  -- length.
  induction data using chunksToWords.induct with
  | case1 => rfl
  | case2 b0 | case3 b0 b1 | case4 b0 b1 b2 => simp at h
  | case5 b0 b1 b2 b3 rest ih =>
      simp only [List.length_cons] at h
      have hrest : rest.reverse.length % 4 = 0 := by
        rw [List.length_reverse]
        omega
      have hreverse : (b0 :: b1 :: b2 :: b3 :: rest).reverse
          = rest.reverse ++ [b3, b2, b1, b0] := by simp
      rw [hreverse, bytesToU32Le_append hrest, bytesToU32Be, List.reverse_cons, ih (by omega)]
      rfl

/-- The indices of the key material. -/
theorem otpToShadowAddr_of_range {i : Nat} (h : 106 ≤ i ∧ i ≤ 127) :
    otpToShadowAddr i = .ok (0x40130000 + ((i - 106) * 4 + 0x1A8)) := by
  rw [otpToShadowAddr, otpToShadowOffset, if_neg (by omega), if_neg (by omega), if_pos h]
  rfl

/-- Words from little-endian chunks at the address of a register are its bytes. -/
theorem readRegister_of_words (address : Nat) {shadow : Shadow} {i n : Nat} {data : List UInt8}
    (hlen : data.length = 4 * n)
    (haddr : ∀ k, k < n → otpToShadowAddr (i + k) = .ok (address + 4 * k))
    (hwords : ∀ k (h : k < (bytesToU32Le data).length),
      shadow (address + 4 * k) = (bytesToU32Le data)[k]) :
    shadow.readRegister i (4 * n) = .ok data := by
  have hwordsLen : (bytesToU32Le data).length = n := by
    rw [length_bytesToU32Le, hlen, Nat.mul_div_cancel_left n (by omega)]
  -- The register is read word by word, and word `k` is at the address that `haddr` gives it.
  rw [← hlen]
  apply otpWordsToData_of_words
  intro p hp
  rw [dataToOtpWords, chunksToWords_eq (by omega), List.mem_map] at hp
  obtain ⟨⟨word, k⟩, hmem, rfl⟩ := hp
  obtain ⟨hk, hword⟩ := List.mem_zipIdx' hmem
  show shadow.word (i + k) = .ok word
  rw [word_of_addr (haddr k (hwordsLen ▸ hk)), hwords k hk, hword]

/-- Two memories with the same word at the address of an index. -/
theorem word_congr {shadow shadow' : Shadow} {i : Nat}
    (h : ∀ addr, otpToShadowAddr i = .ok addr → shadow' addr = shadow addr) :
    shadow'.word i = shadow.word i := by
  cases haddr : otpToShadowAddr i with
  | error e => simp only [Shadow.word, haddr, Except.map]
  | ok addr => rw [word_of_addr haddr, word_of_addr haddr, h addr haddr]

/-- The boot configuration of `run` enables secure boot. -/
theorem secureBootEn_runBoot0 : secureBootEn runBoot0 = .Enabled := by decide

/-- It has the same reset pin as the fix of the bootloader for the evaluation kit. -/
theorem runBoot1_eq : runBoot1 = evkBootCfg1 0 := by decide

/-! ### The steps of a run -/

section Steps

variable {α : Type} {s s' : Workbench} {a : α}

/-- A command on the files of the host leaves the device alone. -/
theorem onHost_eq_ok {x : Command α} :
    onHost x s = .ok a s' ↔ x s.files = .ok a s'.files ∧ s'.device = s.device := by
  obtain ⟨files', device'⟩ := s'
  unfold onHost Exec.zoom
  cases x s.files with
  | ok b files =>
      simp only [EStateM.Result.ok.injEq, Workbench.mk.injEq]
      constructor
      · rintro ⟨rfl, rfl, rfl⟩
        exact ⟨⟨rfl, rfl⟩, rfl⟩
      · rintro ⟨⟨rfl, rfl⟩, rfl⟩
        exact ⟨rfl, rfl, rfl⟩
  | error e files => simp

/-- A request that succeeds leaves the files alone. -/
theorem onProbe_eq_ok {request : Target → Option α × Target} {e : RunError} :
    onProbe request e s = .ok a s' ↔
      request s.device = (some a, s'.device) ∧ s'.files = s.files := by
  obtain ⟨files', device'⟩ := s'
  unfold onProbe
  -- The request answers or it does not. Either way the files are as before.
  cases request s.device with
  | mk result device =>
      cases result with
      | none => simp
      | some b =>
          simp only [EStateM.Result.ok.injEq, Workbench.mk.injEq, Prod.mk.injEq, Option.some.injEq]
          constructor
          · rintro ⟨rfl, rfl, rfl⟩
            exact ⟨⟨rfl, rfl⟩, rfl⟩
          · rintro ⟨⟨rfl, rfl⟩, rfl⟩
            exact ⟨rfl, rfl, rfl⟩

/-- An unwrapped request that fails is a panic, and the device is as the request has left it. -/
theorem unwrap_onProbe (request : Target → Option α × Target) (e : RunError) (s : Workbench) :
    (Exec.unwrap (onProbe request e) : Exec RunError Workbench α) s
      = match request s.device with
        | (some a, device) => .ok a { s with device }
        | (none, device) => .error (.panic "unwrap failed") { s with device } := by
  unfold Exec.unwrap onProbe
  cases request s.device with
  | mk result device =>
      cases result with
      | some a => rfl
      | none => rfl

end Steps

section Process

variable {Certificate Key PrivateKey : Type} {host : Host Certificate Key PrivateKey}
  {probe : Probe} {config : ToolConfig} {command : RunCommands} {s s' : Workbench}

/-- The probe that a command asks for can be opened. -/
def Probe.Opens (probe : Probe) (selector : Option String) : Prop :=
  match selector with
  | some selector => probe.openSelected selector = true
  | none => probe.count = 1 ∧ probe.openOnly = true

/-- Opening a probe does not work with the device. If it fails, it is with an error of its own or
with a panic. -/
theorem openProbe_cases (probe : Probe) (selector : Option String) (s : Workbench) :
    probe.Opens selector ∧ openProbe probe selector s = .ok () s ∨
      ¬probe.Opens selector ∧ ∃ e, openProbe probe selector s = .error e s ∧
        e ≠ .error .access := by
  cases selector with
  | some selector =>
      cases hopen : probe.openSelected selector with
      | true => simp [openProbe, Probe.Opens, hopen]
      | false => simp [openProbe, Probe.Opens, hopen]
  | none =>
      -- Without a selector there has to be exactly one probe.
      rcases hcount : probe.count with _ | _ | count
      · simp [openProbe, Probe.Opens, hcount]
      · cases hopen : probe.openOnly with
        | true =>
            refine .inl ⟨⟨hcount, hopen⟩, ?_⟩
            simp [openProbe, hcount, hopen, Exec.unwrap]
        | false =>
            refine .inr ⟨by simp [Probe.Opens, hopen], .panic "unwrap failed", ?_, by simp⟩
            simp [openProbe, hcount, hopen, Exec.unwrap]
      · simp [openProbe, Probe.Opens, hcount]

/-- A session starts if the probe opens and attaches. -/
theorem startSession_eq_ok {args : ProbeArgs} {u : Unit} :
    startSession probe args s = .ok u s' ↔
      probe.Opens args.probe ∧ probe.attach args.chip s.device = (some (), s'.device) ∧
        s'.files = s.files := by
  unfold startSession
  rcases openProbe_cases probe args.probe s with ⟨hopens, hrun⟩ | ⟨hopens, e, hrun, -⟩
  · rw [Exec.bind_ok hrun, onProbe_eq_ok]
    simp [hopens]
  · rw [Exec.bind_error hrun]
    simp [hopens]

/-- Signing has put `image` in a file, which is meant for the flash at `flashStart`. -/
def ImageSigned (host : Host Certificate Key PrivateKey) (config : ToolConfig)
    (command : RunCommands) (files files' : HostFiles) (flashStart : UInt64) (image : List UInt8)
    (rkth : Digest) : Prop :=
  ∃ runArgs isBootloader path,
    selectImage config command = .ok (runArgs, isBootloader, flashStart) ∧
    signProcess host config isBootloader runArgs.signArgs files
      = .ok { outputPath := some path, rkth } files' ∧
    files' path = some image

/-- What the match in front of a run has chosen: the arguments of the command, and the address that
the configuration has for it. -/
theorem selectImage_cases {args : RunArguments} {isBootloader : Bool} {flashStart : UInt64}
    (h : selectImage config command = .ok (args, isBootloader, flashStart)) :
    (∃ bootloader, command = .bootloader args ∧ config.bootloader = some bootloader ∧
      isBootloader = true ∧ flashStart = bootloader.flashStart) ∨
    (∃ slotI application, command = .application args slotI ∧
      config.application = some application ∧ isBootloader = false ∧
      application.slotStarts[slotI.toNat]? = some flashStart) := by
  -- The bootloader has one place in flash, an application has one for each slot.
  cases command with
  | bootloader runArgs =>
      left
      cases hconfig : config.bootloader with
      | none =>
          simp only [selectImage, hconfig] at h
          cases h
      | some bootloader =>
          simp only [selectImage, hconfig] at h
          cases h
          exact ⟨bootloader, rfl, rfl, rfl, rfl⟩
  | application runArgs slotI =>
      right
      cases hconfig : config.application with
      | none =>
          simp only [selectImage, hconfig] at h
          cases h
      | some application =>
          cases hslot : application.slotStarts[slotI.toNat]? with
          | none =>
              simp only [selectImage, hconfig, hslot] at h
              cases h
          | some start =>
              simp only [selectImage, hconfig, hslot] at h
              cases h
              exact ⟨slotI, application, rfl, rfl, rfl, hslot⟩

/-- The arguments are those of the command, for either kind of image. -/
theorem runArgs_of_selectImage {args : RunArguments} {isBootloader : Bool} {flashStart : UInt64}
    (h : selectImage config command = .ok (args, isBootloader, flashStart)) :
    args = command.runArgs := by
  obtain ⟨bootloader, rfl, -⟩ | ⟨slotI, application, rfl, -⟩ := selectImage_cases h
  · rfl
  · rfl

/-- Its errors are about the configuration. -/
theorem selectImage_ne_access {e : Fault RunError} (h : selectImage config command = .error e) :
    e ≠ .error .access := by
  -- Its errors are about the configuration, and it does not reach the probe.
  rintro rfl
  cases command with
  | bootloader runArgs =>
      simp only [selectImage] at h
      split at h <;> cases h
  | application runArgs slotI =>
      simp only [selectImage] at h
      split at h
      · split at h <;> cases h
      · cases h

/-- `process_other` returns if the image is signed, the probe attaches and the flashing succeeds. -/
theorem processOther_eq_ok {rkth : Digest} :
    processOther host probe config command s = .ok rkth s' ↔
      ∃ flashStart image attached,
        ImageSigned host config command s.files s'.files flashStart image rkth ∧
        probe.Opens command.runArgs.probeArgs.probe ∧
        probe.attach command.runArgs.probeArgs.chip s.device = (some (), attached) ∧
        probe.download flashStart image attached = (some (), s'.device) := by
  simp only [processOther, ImageSigned, Exec.bind_eq_ok_iff, Exec.ofExcept_eq_ok, onHost_eq_ok]
  constructor
  · rintro ⟨⟨runArgs, isBootloader, flashStart⟩, _, ⟨hselect, rfl⟩, ⟨outputPath, rkth'⟩, s1,
      ⟨hsign, hdevice⟩, h⟩
    cases outputPath with
    | none => cases h
    | some path =>
        simp only [Exec.bind_eq_ok_iff, startSession_eq_ok, onProbe_eq_ok, Exec.mapError_eq_ok,
          onHost_eq_ok, readFile_eq_ok] at h
        obtain ⟨_, s2, ⟨hopens, hattach, hfiles⟩, image, s3, ⟨⟨himage, hfiles'⟩, hdevice'⟩, _, _,
          ⟨hdownload, hfiles''⟩, h⟩ := h
        cases h
        -- The probe does not change the files, so the image is still the one that was signed.
        have hsame : s'.files = s1.files := hfiles''.trans (hfiles'.trans hfiles)
        rw [hdevice, runArgs_of_selectImage hselect] at hattach
        rw [runArgs_of_selectImage hselect] at hopens
        rw [hdevice'] at hdownload
        refine ⟨flashStart, image, s2.device, ⟨runArgs, isBootloader, path, hselect, ?_, ?_⟩,
          hopens, hattach, hdownload⟩
        · rw [hsame]
          exact hsign
        · rw [hsame, ← hfiles]
          exact himage
  · rintro ⟨flashStart, image, attached, ⟨runArgs, isBootloader, path, hselect, hsign, himage⟩,
      hopens, hattach, hdownload⟩
    refine ⟨(runArgs, isBootloader, flashStart), s, ⟨hselect, rfl⟩, _,
      { s with files := s'.files }, ⟨hsign, rfl⟩, ?_⟩
    rw [← runArgs_of_selectImage hselect] at hopens hattach
    simp only [Exec.bind_eq_ok_iff, startSession_eq_ok, onProbe_eq_ok, Exec.mapError_eq_ok,
      onHost_eq_ok, readFile_eq_ok]
    exact ⟨(), { files := s'.files, device := attached }, ⟨hopens, hattach, rfl⟩, image, _,
      ⟨⟨himage, rfl⟩, rfl⟩, (), s', ⟨hdownload, rfl⟩, rfl⟩

/-! ### The shadow registers

Six accesses, five of them writes to different addresses. `Wrote` says what one write does, and
`shadowPrepared_of_wrote` composes the five, with the read in between. -/

/-- A write of words that has succeeded. -/
structure Wrote (before after : Target) (address : Nat) (words : List UInt32) : Prop where
  flash : after.flash = before.flash
  content : ∀ k (h : k < words.length), after.shadow (address + 4 * k) = words[k]
  other : ∀ a, a < address ∨ address + 4 * words.length ≤ a → after.shadow a = before.shadow a

/-- A write of the probe that has succeeded, by what its hypotheses promise. -/
theorem Probe.Writes.wrote (hprobe : probe.Writes) {address : Nat} {words : List UInt32}
    {before after : Target} (h : probe.write32 address words before = (some (), after)) :
    Wrote before after address words where
  flash := by
    have hflash := hprobe.flash address words before
    rwa [h] at hflash
  content := by
    have hcontent := hprobe.content address words before (by rw [h])
    rwa [h] at hcontent
  other := by
    have hother := hprobe.other address words before
    rwa [h] at hother

/-- A single word. -/
theorem Wrote.word {before after : Target} {address : Nat} {w : UInt32}
    (h : Wrote before after address [w]) : after.shadow address = w := h.content 0 Nat.zero_lt_one

/-- The accesses behind the flashing, in their order. -/
theorem writeShadow_eq_ok {rkth : Digest} {otp : Tool.Otp} :
    writeShadow probe rkth otp s = .ok () s' ↔
      ∃ d1 d2 d3 d4 d5 word,
        probe.write32 0x401301E0 (Tool.Rkth.asU32Le rkth) s.device = (some (), d1) ∧
        probe.write32 0x401301C0 otp.asReversedU32Be d1 = (some (), d2) ∧
        probe.write32 0x40130180 [runBoot0] d2 = (some (), d3) ∧
        probe.write32 0x40130184 [runBoot1] d3 = (some (), d4) ∧
        probe.read32 0x40130194 d4 = (some word, d5) ∧
        probe.write32 0x40130194 [clearUsePuf word] d5 = (some (), s'.device) ∧
        s'.files = s.files := by
  simp only [writeShadow, Exec.bind_eq_ok_iff, onProbe_eq_ok]
  constructor
  · rintro ⟨_, s1, ⟨h1, hf1⟩, _, s2, ⟨h2, hf2⟩, _, s3, ⟨h3, hf3⟩, _, s4, ⟨h4, hf4⟩, word, s5,
      ⟨h5, hf5⟩, h6, hf6⟩
    exact ⟨_, _, _, _, _, word, h1, h2, h3, h4, h5, h6,
      hf6.trans (hf5.trans (hf4.trans (hf3.trans (hf2.trans hf1))))⟩
  · rintro ⟨d1, d2, d3, d4, d5, word, h1, h2, h3, h4, h5, h6, hfiles⟩
    exact ⟨(), ⟨s.files, d1⟩, ⟨h1, rfl⟩, (), ⟨s.files, d2⟩, ⟨h2, rfl⟩, (), ⟨s.files, d3⟩, ⟨h3, rfl⟩,
      (), ⟨s.files, d4⟩, ⟨h4, rfl⟩, word, ⟨s.files, d5⟩, ⟨h5, rfl⟩, h6, hfiles⟩

/-- The index of the first word of the master key. -/
def otpMasterKeyAddress : Nat := 112

/-- The index of `SEC_BOOT_CFG[5]`. -/
def secBootCfg5Address : Nat := 101

/-- What `run` makes of the shadow registers. -/
structure ShadowPrepared (before after : Shadow) (rkth : Digest) (otp : Tool.Otp) : Prop where
  rkth : after.readRegister Register.rkth.address Register.rkth.size = .ok rkth.val
  /-- The master key is stored last byte first. -/
  masterKey : after.readRegister otpMasterKeyAddress 32 = .ok otp.val.reverse
  bootCfg0 : ∃ w, after.word Register.bootCfg0.address = .ok w ∧ secureBootEn w = .Enabled
  bootCfg1 : after.word Register.bootCfg1.address = .ok (evkBootCfg1 0)
  usePuf : after.word secBootCfg5Address = (before.word secBootCfg5Address).map clearUsePuf
  other : ∀ i, i ≠ Register.bootCfg0.address → i ≠ Register.bootCfg1.address →
    i ≠ secBootCfg5Address → i < otpMasterKeyAddress ∨ Register.rkth.address + 8 ≤ i →
    after.word i = before.word i

/-- The hash has eight words. -/
theorem length_asU32Le (rkth : Digest) : (Tool.Rkth.asU32Le rkth).length = 8 := by
  rw [Tool.Rkth.asU32Le, length_bytesToU32Le, rkth.property]

/-- So has the key, in the order in which it is written. -/
theorem length_asReversedU32Be (otp : Tool.Otp) : otp.asReversedU32Be.length = 8 := by
  rw [Tool.Otp.asReversedU32Be, reverse_bytesToU32Be (by rw [otp.property]), length_bytesToU32Le,
    List.length_reverse, otp.property]

/-- The accesses to the shadow registers do not overlap, so each register has the value that was
written to it. -/
theorem shadowPrepared_of_wrote {d0 d1 d2 d3 d4 d5 : Target} {rkth : Digest} {otp : Tool.Otp}
    (h1 : Wrote d0 d1 0x401301E0 (Tool.Rkth.asU32Le rkth))
    (h2 : Wrote d1 d2 0x401301C0 otp.asReversedU32Be)
    (h3 : Wrote d2 d3 0x40130180 [runBoot0]) (h4 : Wrote d3 d4 0x40130184 [runBoot1])
    (h5 : Wrote d4 d5 0x40130194 [clearUsePuf (d4.shadow 0x40130194)]) :
    ShadowPrepared d0.shadow d5.shadow rkth otp := by
  have hlen1 := length_asU32Le rkth
  have hlen2 := length_asReversedU32Be otp
  -- What each later write leaves alone.
  have ho1 : ∀ a, a < 0x401301E0 ∨ 0x40130200 ≤ a → d1.shadow a = d0.shadow a := by
    intro a ha
    exact h1.other a (by omega)
  have ho2 : ∀ a, a < 0x401301C0 ∨ 0x401301E0 ≤ a → d2.shadow a = d1.shadow a := by
    intro a ha
    exact h2.other a (by omega)
  have ho3 : ∀ a, a < 0x40130180 ∨ 0x40130184 ≤ a → d3.shadow a = d2.shadow a := h3.other
  have ho4 : ∀ a, a < 0x40130184 ∨ 0x40130188 ≤ a → d4.shadow a = d3.shadow a := h4.other
  have ho5 : ∀ a, a < 0x40130194 ∨ 0x40130198 ≤ a → d5.shadow a = d4.shadow a := h5.other
  have haddr (i k : Nat) (hi : 106 ≤ i ∧ i + 7 ≤ 127) (hk : k < 8) :
      otpToShadowAddr (i + k) = .ok (0x40130000 + ((i - 106) * 4 + 0x1A8) + 4 * k) := by
    rw [otpToShadowAddr_of_range (by omega), Except.ok.injEq]
    omega
  have hcfg0 : otpToShadowAddr Register.bootCfg0.address = .ok 0x40130180 := rfl
  have hcfg1 : otpToShadowAddr Register.bootCfg1.address = .ok 0x40130184 := rfl
  have hcfg5 : otpToShadowAddr secBootCfg5Address = .ok 0x40130194 := rfl
  constructor
  · apply readRegister_of_words 0x401301E0 (n := 8) rkth.property
    · intro k hk
      exact haddr 120 k (by omega) hk
    · intro k hk
      have hk8 : k < 8 := hlen1 ▸ hk
      rw [ho5 _ (by omega), ho4 _ (by omega), ho3 _ (by omega), ho2 _ (by omega)]
      exact h1.content k hk
  · have hwords : otp.asReversedU32Be = bytesToU32Le otp.val.reverse :=
      reverse_bytesToU32Be (by rw [otp.property])
    rw [hwords] at h2 hlen2
    apply readRegister_of_words 0x401301C0 (n := 8)
    · rw [List.length_reverse, otp.property]
    · intro k hk
      exact haddr 112 k (by omega) hk
    · intro k hk
      have hk8 : k < 8 := hlen2 ▸ hk
      rw [ho5 _ (by omega), ho4 _ (by omega), ho3 _ (by omega)]
      exact h2.content k hk
  · refine ⟨runBoot0, ?_, secureBootEn_runBoot0⟩
    rw [word_of_addr hcfg0, ho5 _ (by omega), ho4 _ (by omega), h3.word]
  · rw [word_of_addr hcfg1, ho5 _ (by omega), h4.word, runBoot1_eq]
  · have hbefore : d4.shadow 0x40130194 = d0.shadow 0x40130194 := by
      rw [ho4 _ (by omega), ho3 _ (by omega), ho2 _ (by omega), ho1 _ (by omega)]
    rw [word_of_addr hcfg5, word_of_addr hcfg5, h5.word, hbefore]
    rfl
  · intro i h96 h97 h101 hkeys
    apply word_congr
    intro addr haddr
    have hcases := otpToShadowAddr_cases haddr
    simp only [Register.bootCfg0, Register.bootCfg1, Register.rkth, secBootCfg5Address,
      otpMasterKeyAddress] at h96 h97 h101 hkeys
    rw [ho5 _ (by omega), ho4 _ (by omega), ho3 _ (by omega), ho2 _ (by omega), ho1 _ (by omega)]

/-! ### Runs that return -/

/-- The part in front of the reset returns if all of its steps do. -/
theorem configureTarget_eq_ok :
    configureTarget host probe config command s = .ok () s' ↔
      ∃ otp flashStart image rkth attached flashed chip,
        otpInFile (s.files config.otpPath) otp ∧
        ImageSigned host config command s.files s'.files flashStart image rkth ∧
        probe.Opens command.runArgs.probeArgs.probe ∧
        probe.attach command.runArgs.probeArgs.chip s.device = (some (), attached) ∧
        probe.download flashStart image attached = (some (), flashed) ∧
        probe.core flashed = (some (), chip) ∧
        writeShadow probe rkth otp ⟨s'.files, chip⟩ = .ok () s' := by
  simp only [configureTarget, Exec.bind_eq_ok_iff, onHost_eq_ok, getOtp_eq_ok, processOther_eq_ok,
    onProbe_eq_ok]
  constructor
  · rintro ⟨otp, s1, ⟨⟨hotp, hf1⟩, hd1⟩, rkth, s2, ⟨flashStart, image, attached, hsigned, hopens,
      hattach, hdownload⟩, _, s3, ⟨hcore, hf3⟩, hwrite⟩
    -- The accesses behind the signing change the device alone, so the files are the ones it left.
    have hfiles : s'.files = s3.files := by
      obtain ⟨_, _, _, _, _, _, -, -, -, -, -, -, hfiles⟩ := writeShadow_eq_ok.mp hwrite
      exact hfiles
    rw [hf1, ← hf3, ← hfiles] at hsigned
    rw [hd1] at hattach
    refine ⟨otp, flashStart, image, rkth, attached, s2.device, s3.device, hotp, hsigned, hopens,
      hattach, hdownload, hcore, ?_⟩
    rw [hfiles]
    exact hwrite
  · rintro ⟨otp, flashStart, image, rkth, attached, flashed, chip, hotp, hsigned, hopens, hattach,
      hdownload, hcore, hwrite⟩
    exact ⟨otp, s, ⟨⟨hotp, rfl⟩, rfl⟩, rkth, ⟨s'.files, flashed⟩, ⟨flashStart, image, attached,
      hsigned, hopens, hattach, hdownload⟩, (), ⟨s'.files, chip⟩, ⟨hcore, rfl⟩, hwrite⟩

/-- What the part in front of the reset has done when it returns. -/
structure Prepared (host : Host Certificate Key PrivateKey) (probe : Probe) (config : ToolConfig)
    (command : RunCommands) (s s' : Workbench) (flashStart : UInt64) (image : List UInt8)
    (rkth : Digest) : Prop where
  signed : ImageSigned host config command s.files s'.files flashStart image rkth
  holds : s'.device.Holds flashStart.toNat image
  shadow : ∃ otp flashed, otpInFile (s.files config.otpPath) otp ∧
    probe.download flashStart image s.device = (some (), flashed) ∧
    s'.device.flash = flashed.flash ∧ ShadowPrepared flashed.shadow s'.device.shadow rkth otp

/-- What `configureTarget` comes to if it returns. The accesses of the probe are those that its
hypotheses describe; everything else is read off the steps. -/
theorem prepared_of_configureTarget (hprobe : probe.Accesses)
    (hrun : configureTarget host probe config command s = .ok () s') :
    ∃ flashStart image rkth,
      Prepared host probe config command s s' flashStart image rkth := by
  obtain ⟨otp, flashStart, image, rkth, attached, flashed, chip, hotp, hsigned, -, hattach,
    hdownload, hcore, hwrite⟩ := configureTarget_eq_ok.mp hrun
  -- Attaching, selecting the core and reading leave the device alone.
  obtain rfl : attached = s.device := by
    have h := hprobe.attach command.runArgs.probeArgs.chip s.device
    rwa [hattach] at h
  obtain rfl : chip = flashed := by
    have h := hprobe.core flashed
    rwa [hcore] at h
  obtain ⟨d1, d2, d3, d4, d5, word, h1, h2, h3, h4, hread, h6, -⟩ := writeShadow_eq_ok.mp hwrite
  obtain rfl : d5 = d4 := by
    have h := hprobe.read 0x40130194 d4
    rwa [hread] at h
  obtain rfl : word = d5.shadow 0x40130194 := hprobe.readWord 0x40130194 d5 word (by rw [hread])
  have w1 := hprobe.wrote h1
  have w2 := hprobe.wrote h2
  have w3 := hprobe.wrote h3
  have w4 := hprobe.wrote h4
  have w6 := hprobe.wrote h6
  have hflash : s'.device.flash = chip.flash :=
    w6.flash.trans (w4.flash.trans (w3.flash.trans (w2.flash.trans w1.flash)))
  have hholds := hprobe.download flashStart image s.device (by rw [hdownload])
  rw [hdownload] at hholds
  refine ⟨flashStart, image, rkth, hsigned, ?_, otp, chip, hotp, hdownload, hflash,
    shadowPrepared_of_wrote w1 w2 w3 w4 w6⟩
  rw [Target.Holds, hflash]
  exact hholds

/-- The end of a run: the device `prepared` is reset, and `probe-rs` attaches to it. -/
def ResetAndAttached (probe : Probe) (command : RunCommands) (prepared after : Target) : Prop :=
  ∃ device, probe.reset prepared = (some (), device) ∧
    probe.status command.runArgs.probeRsPath (attachArgs command.runArgs) device
      = (some (), after)

/-- `process` returns if the device is prepared, the reset succeeds and `probe-rs` can be run. -/
theorem runProcess_eq_ok :
    runProcess host probe config command s = .ok () s' ↔
      ∃ prepared, configureTarget host probe config command s = .ok () prepared ∧
        ResetAndAttached probe command prepared.device s'.device ∧ s'.files = prepared.files := by
  obtain ⟨files', device'⟩ := s'
  simp only [runProcess, Exec.bind_eq_ok_iff, unwrap_onProbe, ResetAndAttached]
  constructor
  · rintro ⟨_, prepared, hconfigure, _, s2, hreset, hstatus⟩
    -- The reset and the command are unwrapped: the run returns only if both were answered.
    cases hr : probe.reset prepared.device with
    | mk result device =>
        rw [hr] at hreset
        cases result with
        | none => cases hreset
        | some _ =>
            cases hreset
            cases hs : probe.status command.runArgs.probeRsPath (attachArgs command.runArgs)
                device with
            | mk result after =>
                simp only [hs] at hstatus
                cases result with
                | none => cases hstatus
                | some _ =>
                    cases hstatus
                    exact ⟨prepared, hconfigure, ⟨device, hr, hs⟩, rfl⟩
  · rintro ⟨prepared, hconfigure, ⟨device, hreset, hstatus⟩, rfl⟩
    refine ⟨(), prepared, hconfigure, (), { prepared with device }, ?_, ?_⟩
    · rw [hreset]
    · simp only [hstatus]

/-- A run that returns has prepared the device that it resets. -/
theorem prepared_of_run (hprobe : probe.Accesses)
    (hrun : runProcess host probe config command s = .ok () s') :
    ∃ prepared flashStart image rkth,
      Prepared host probe config command s prepared flashStart image rkth ∧
        ResetAndAttached probe command prepared.device s'.device ∧ s'.files = prepared.files := by
  obtain ⟨prepared, hconfigure, hend, hfiles⟩ := runProcess_eq_ok.mp hrun
  obtain ⟨flashStart, image, rkth, hprepared⟩ := prepared_of_configureTarget hprobe hconfigure
  exact ⟨prepared, flashStart, image, rkth, hprepared, hend, hfiles⟩

/-! ### Sample runs -/

/-- A probe that can be told not to write to memory, on a host that may lack `probe-rs`. -/
def sampleProbe (writes attaches : Bool) : Probe where
  openSelected _ := true
  count := 1
  openOnly := true
  attach _ device := (some (), device)
  download address bytes device := (some (), { device with
    flash := fun a => if address.toNat ≤ a then bytes.getD (a - address.toNat) 0xff
      else device.flash a })
  core device := (some (), device)
  write32 address words device :=
    if writes then (some (), { device with
      shadow := fun a => if address ≤ a ∧ a < address + 4 * words.length then
        words.getD ((a - address) / 4) 0 else device.shadow a })
    else (none, device)
  read32 address device := (some (device.shadow address), device)
  reset device := (some (), device)
  status _ _ device := (if attaches then some () else none, device)

/-- The flash behind a download of the sample probe. -/
theorem sampleProbe_flash (writes attaches : Bool) (address : UInt64) (bytes : List UInt8)
    (device : Target) (i : Nat) :
    ((sampleProbe writes attaches).download address bytes device).2.flash (address.toNat + i)
      = bytes.getD i 0xff := by
  show (if address.toNat ≤ address.toNat + i then _ else _) = _
  rw [if_pos (Nat.le_add_right _ _), Nat.add_sub_cancel_left]

/-- The sample probe satisfies the hypotheses about a probe. If it cannot write, they only say
that the flash and the other registers stay. -/
theorem sampleProbe_accesses (writes attaches : Bool) : (sampleProbe writes attaches).Accesses where
  flash address words device := by
    cases writes with
    | false => rfl
    | true => rfl
  other address words device a ha := by
    cases writes with
    | false => rfl
    | true => exact if_neg (by omega)
  content address words device h k hk := by
    cases writes with
    | false => cases h
    | true =>
        -- Word `k` is inside of what was written, at position `k` of the words.
        show (if address ≤ address + 4 * k ∧ address + 4 * k < address + 4 * words.length then _
          else _) = _
        rw [if_pos (by omega), Nat.add_sub_cancel_left, Nat.mul_div_cancel_left k (by omega),
          List.getD_eq_getElem _ _ hk]
  attach _ _ := rfl
  download address bytes device _ := by
    apply List.ext_getElem
    · rw [List.length_map, List.length_range]
    · intro i hi hi'
      rw [List.getElem_map, List.getElem_range, sampleProbe_flash, List.getD_eq_getElem _ _ hi']
  core _ := rfl
  read _ _ := rfl
  readWord _ _ _ h := (Option.some.inj h).symm

/-- The sample host with a device that is blank. -/
def sampleWorkbench : Workbench where
  files := sampleHostFiles
  device := { flash := fun _ => 0xff, shadow := fun _ => 0 }

/-- The sample arguments, with the defaults for the probe. -/
def sampleRunArgs : RunArguments where
  signArgs := sampleArgs false
  probeArgs := { probe := none, chip := "MIMXRT685SFVKB" }
  probeRsPath := "probe-rs"

/-- The sample application for the second slot. -/
def sampleRunCommand : RunCommands := .application sampleRunArgs 1

/-- The key of the sample run is in its file. -/
theorem sampleWorkbench_otp :
    otpInFile (sampleWorkbench.files sampleToolConfig.otpPath) sampleStaged.otp :=
  ⟨_, _, rfl, Text.fromUtf8_bytes _, arrayFromHex_generateHex sampleStaged.otp⟩

/-- The image that is signed in the sample run. -/
theorem sample_imageSigned : ∃ files' out,
    ImageSigned sampleHost sampleToolConfig sampleRunCommand sampleWorkbench.files files'
      0x080f9000 out samplePrintedRkth ∧
    files' (sampleArgs false).outputPathWithDefault = some out ∧ out.length = 576 := by
  obtain ⟨files', out, hrun, hout, hlen⟩ := sample_signProcess
  rw [sample_outputPath]
  exact ⟨files', out, ⟨sampleRunArgs, false, "app.signed.bin", rfl, hrun, hout⟩, hout, hlen⟩

/-- The part of the sample run in front of the reset, with a probe that writes. -/
theorem sample_configureTarget (attaches : Bool) : ∃ (prepared : Workbench) (out : List UInt8),
    configureTarget sampleHost (sampleProbe true attaches) sampleToolConfig sampleRunCommand
      sampleWorkbench = .ok () prepared ∧
    prepared.files (sampleArgs false).outputPathWithDefault = some out ∧ out.length = 576 ∧
    ∀ i, prepared.device.flash ((0x080f9000 : UInt64).toNat + i) = out.getD i 0xff := by
  obtain ⟨files', out, hsigned, hout, hlen⟩ := sample_imageSigned
  let flashed := ((sampleProbe true attaches).download 0x080f9000 out sampleWorkbench.device).2
  -- Every access of the sample probe is answered, and none of them changes the flash.
  have hwrite : ∃ chip, writeShadow (sampleProbe true attaches) samplePrintedRkth sampleStaged.otp
      ⟨files', flashed⟩ = .ok () ⟨files', chip⟩ ∧ chip.flash = flashed.flash :=
    ⟨_, writeShadow_eq_ok.mpr ⟨_, _, _, _, _, _, rfl, rfl, rfl, rfl, rfl, rfl, rfl⟩, rfl⟩
  obtain ⟨chip, hwrite, hflash⟩ := hwrite
  refine ⟨⟨files', chip⟩, out, configureTarget_eq_ok.mpr ⟨sampleStaged.otp, 0x080f9000, out,
    samplePrintedRkth, sampleWorkbench.device, flashed, flashed, sampleWorkbench_otp, hsigned,
    ⟨rfl, rfl⟩, rfl, rfl, rfl, hwrite⟩, hout, hlen, ?_⟩
  intro i
  show chip.flash ((0x080f9000 : UInt64).toNat + i) = out.getD i 0xff
  rw [hflash]
  exact sampleProbe_flash true attaches 0x080f9000 out sampleWorkbench.device i

/-- The sample run, on a host with `probe-rs`. -/
theorem sample_runProcess : ∃ (s' : Workbench) (out : List UInt8),
    runProcess sampleHost (sampleProbe true true) sampleToolConfig sampleRunCommand sampleWorkbench
      = .ok () s' ∧
    s'.files (sampleArgs false).outputPathWithDefault = some out ∧ out.length = 576 ∧
    ∀ i, s'.device.flash ((0x080f9000 : UInt64).toNat + i) = out.getD i 0xff := by
  obtain ⟨prepared, out, hrun, hout, hlen, hflash⟩ := sample_configureTarget true
  exact ⟨prepared, out, runProcess_eq_ok.mpr ⟨prepared, hrun, ⟨prepared.device, rfl, rfl⟩, rfl⟩,
    hout, hlen, hflash⟩

/-! ### What a run leaves on the device -/

/-- A run that returns, for a bootloader or an application, has reset a device that the boot ROM
can start. At the configured address, the flash holds a signed image of the ELF file. The shadow
registers have the very hash of the root keys that this image is signed for, the master key from
the OTP file, last byte first, and enable secure boot. The flash is reset by the pin that the
bootloader would set. The other words are as flashing has left them. Behind the reset, `probe-rs`
has been run. -/
theorem run_prepares_device (hprobe : probe.Accesses) (hder : host.crypto.DerLength)
    (hkeeps : command.runArgs.signArgs.KeepsUnsigned)
    (hrun : runProcess host probe config command s = .ok () s') :
    ∃ isBootloader flashStart inputData file raw baseAddr image rkth otp flashed prepared,
      selectImage config command = .ok (command.runArgs, isBootloader, flashStart) ∧
      s.files command.runArgs.signArgs.inputPath = some inputData ∧
      host.parseElf inputData = some file ∧
      objcopy host.overflowChecks file = .ok (raw, baseAddr) ∧
      SignedImage host.crypto host.overflowChecks raw baseAddr rkth image ∧
      s'.files command.runArgs.signArgs.outputPathWithDefault = some image ∧
      otpInFile (s.files config.otpPath) otp ∧
      probe.download flashStart image s.device = (some (), flashed) ∧
      prepared.flash = flashed.flash ∧ prepared.Holds flashStart.toNat image ∧
      ShadowPrepared flashed.shadow prepared.shadow rkth otp ∧
      ResetAndAttached probe command prepared s'.device := by
  obtain ⟨prepared, flashStart, image, rkth, hprepared, hend, hfiles⟩ := prepared_of_run hprobe hrun
  obtain ⟨args, isBootloader, path, hselect, hsign, himage⟩ := hprepared.signed
  obtain ⟨otp, flashed, hotp, hdownload, hflash, hshadow⟩ := hprepared.shadow
  obtain rfl := runArgs_of_selectImage hselect
  obtain ⟨staged, file, before, raw, built, out, hstage, hout, hsigned⟩ :=
    signProcess_image hder hkeeps hsign
  -- The image in the file is the one that was flashed.
  obtain rfl : image = out := Option.some.inj (himage.symm.trans hout)
  obtain ⟨inputData, hinput, hparse, -⟩ := hstage.input
  obtain rfl := signProcess_outputPath host config hsign rfl
  rw [← hfiles] at himage
  exact ⟨isBootloader, flashStart, inputData, file, raw, staged.baseAddr, image, rkth, otp, flashed,
    prepared.device, hselect, hinput, hparse, hstage.objcopy, hsigned, himage, hotp, hdownload,
    hflash, hprepared.holds, hshadow, hend⟩

/-- The sample run. -/
theorem run_prepares_device_sample : ∃ (s' : Workbench) (raw : List UInt8) (baseAddr : UInt32)
    (image : List UInt8) (rkth : Digest) (prepared : Target),
    runProcess sampleHost (sampleProbe true true) sampleToolConfig sampleRunCommand sampleWorkbench
      = .ok () s' ∧
    ResetAndAttached (sampleProbe true true) sampleRunCommand prepared s'.device ∧
    prepared.Holds (0x080f9000 : UInt64).toNat image ∧
    SignedImage sampleCrypto true raw baseAddr rkth image ∧
    prepared.shadow.readRegister Register.rkth.address Register.rkth.size = .ok rkth.val := by
  obtain ⟨s', out, hrun, -⟩ := sample_runProcess
  have hkeeps : sampleRunCommand.runArgs.signArgs.KeepsUnsigned := sampleArgs_keepsUnsigned
  obtain ⟨isBootloader, flashStart, -, -, raw, baseAddr, image, rkth, otp, flashed, prepared,
    hselect, -, -, -, hsigned, -, -, -, -, hholds, hshadow, hend⟩ :=
      run_prepares_device (sampleProbe_accesses true true) sampleCrypto_derLength hkeeps hrun
  -- The sample run is one of an application, so the image goes to the start of its slot.
  cases hselect
  exact ⟨s', raw, baseAddr, image, rkth, prepared, hrun, hend, hholds, hsigned, hshadow.rkth⟩

/-! ### To the RAM of the device

The flash of the device is where the slots of the board are read from. `SlotInFlash` connects the
two, and from there on the run of the bootloader is the one of a slot with a signed image. -/

/-- The board reads a slot from the flash of a device, from `start` on. An image of `length` bytes
fits the slot, and fits the load range at `baseAddr`. -/
structure SlotInFlash {T : Type} (board : Imxrt T RomState) (slot : Slot) (device : Target)
    (start : Nat) (baseAddr : UInt32) (length : Nat) (slotPartition : SlotPartition) : Prop where
  slot : board.slots[slot.toU8.toNat]? = some slotPartition
  reads : ∀ call len, len ≤ slotPartition.capacity.toNat →
    slotPartition.read call len = .done fun i => device.flash (start + i)
  capacity_lt : slotPartition.capacity < board.config.slotSizeRange.stop
  start_le : board.config.slotSizeRange.start.toNat ≤ length
  le_capacity : length ≤ slotPartition.capacity.toNat
  load_start : board.config.loadRange.start.toNat ≤ baseAddr.toNat
  load_stop : baseAddr.toNat + length < board.config.loadRange.stop.toNat

/-- An image in the flash is in the slot. -/
theorem SlotInFlash.programmed {T : Type} {board : Imxrt T RomState} {slot : Slot}
    {device : Target} {start : Nat} {baseAddr : UInt32} {image : List UInt8}
    {slotPartition : SlotPartition}
    (h : SlotInFlash board slot device start baseAddr image.length slotPartition)
    (hholds : device.Holds start image) :
    Imxrt.Programmed board slot baseAddr image (fun i => device.flash (start + i)) slotPartition :=
  ⟨h.slot, h.reads, hholds, h.capacity_lt, h.start_le, h.le_capacity, h.load_start, h.load_stop⟩

/-- From the ELF file of an application to the RAM of the device, by way of the probe. Take a run of
the command for an application that returns, and a board that reads one of its slots from the flash
of the device that the run resets, from the configured start of that slot. Then its bootloader
copies the image to the configured address, and every byte of the file's segments is in RAM at its
physical address, but for the four fields of the vector table that the tool patches. The
authentication is reached with the hash of the root keys that the command has written to the shadow
registers or, with the fuses for secure boot set, with the one in the fuses. Nothing else decides
whether the board jumps there. -/
theorem run_application_in_ram (hprobe : probe.Accesses) (hder : host.crypto.DerLength)
    {runArgs : RunArguments} (hkeeps : runArgs.signArgs.KeepsUnsigned) {slotI : UInt8}
    (hrun : runProcess host probe config (.application runArgs slotI) s = .ok () s')
    (hspace : ∀ inputData file, s.files runArgs.signArgs.inputPath = some inputData →
      host.parseElf inputData = some file → ∀ seg ∈ file.segments, seg.InAddressSpace) :
    ∃ inputData file application flashStart image rkth baseAddr prepared,
      s.files runArgs.signArgs.inputPath = some inputData ∧ host.parseElf inputData = some file ∧
      config.application = some application ∧
      application.slotStarts[slotI.toNat]? = some flashStart ∧
      (baseAddr : UInt32).toUInt64 = application.runStart ∧
      s'.files runArgs.signArgs.outputPathWithDefault = some image ∧
      ResetAndAttached probe (.application runArgs slotI) prepared s'.device ∧
      prepared.Holds flashStart.toNat image ∧
      prepared.shadow.readRegister Register.rkth.address Register.rkth.size = .ok rkth.val ∧
      ∀ {T : Type} (board : Imxrt T RomState) (slot : Slot) (slotPartition : SlotPartition)
        (soc : Soc),
        SlotInFlash board slot prepared flashStart.toNat baseAddr image.length slotPartition →
        soc.rom.AccessesSucceed → soc.rom.ReloadsFuses → board.hw.otpInitialized = false →
        (∀ data, soc.sha256 data = some (host.crypto.sha256 data)) →
        ∃ exit after, Imxrt.checkAndBoot slot (board.secure soc) = .error (.error exit) after ∧
          (exit = .bootApplication baseAddr ∨ exit = .bootError .Authenticate) ∧
          (∃ a, after.hw.authentications = board.hw.authentications ++ [a] ∧
            Trusted soc.build soc.rom.fuse rkth a.shadow) ∧
          ∀ seg ∈ file.segments, seg.isCopied = true → ∃ data, seg.data = some data ∧
            ∀ k, k < data.length → 0x40 ≤ seg.pPaddr.toNat + k - baseAddr.toNat ∨
              Unpatched (seg.pPaddr.toNat + k - baseAddr.toNat) →
              data[k]? = some (after.ram (seg.pPaddr.toNat + k)) := by
  obtain ⟨prepared, flashStart, image, rkth, hprepared, hend, hfiles⟩ := prepared_of_run hprobe hrun
  obtain ⟨args, isBootloader, path, hselect, hsign, himage⟩ := hprepared.signed
  obtain ⟨otp, flashed, -, -, -, hshadow⟩ := hprepared.shadow
  obtain ⟨bootloader, hcommand, -⟩ | ⟨slotI', application, hcommand, hconfig, rfl, hstart⟩ :=
    selectImage_cases hselect
  · -- A bootloader is another command.
    cases hcommand
  cases hcommand
  obtain ⟨inputData, file, raw, baseAddr, out, hinput, hparse, hout, hcheck, hout', hflat⟩ :=
    signProcess_segments hder hkeeps hsign hspace
  obtain rfl : image = out := Option.some.inj (himage.symm.trans hout)
  obtain rfl := signProcess_outputPath host config hsign rfl
  rw [← hfiles] at hout
  refine ⟨inputData, file, application, flashStart, image, rkth, baseAddr, prepared.device, hinput,
    hparse, hconfig, hstart, runStart_of_checkRunStart hconfig hcheck, hout, hend, hprepared.holds,
    hshadow.rkth, ?_⟩
  intro T board slot slotPartition soc hslot hrom hreload hotp hsha
  obtain ⟨exit, after, hboot, hexit, hauth, hram⟩ :=
    (hslot.programmed hprepared.holds).checkAndBoot_secure hout' hrom hreload hotp hsha
  refine ⟨exit, after, hboot, hexit, hauth, ?_⟩
  intro seg hseg hcopied
  exact hout'.segment_in_ram hflat hram (List.mem_filter.mpr ⟨hseg, hcopied⟩)

/-- The sample board with its slot in the flash behind the sample run. -/
theorem run_application_in_ram_sample : ∃ s' out exit after,
    runProcess sampleHost (sampleProbe true true) sampleToolConfig sampleRunCommand sampleWorkbench
      = .ok () s' ∧
    Imxrt.checkAndBoot .S0 ((Imxrt.sampleBoard out).secure
        { sampleSoc with sha256 := fun data => some (sampleCrypto.sha256 data) })
      = .error (.error exit) after ∧
    (exit = .bootApplication 0x10020000 ∨ exit = .bootError .Authenticate) := by
  obtain ⟨s', out, hrun, hout, hlen, hflash⟩ := sample_runProcess
  have hspace : ∀ inputData file, sampleWorkbench.files sampleRunArgs.signArgs.inputPath
      = some inputData → sampleHost.parseElf inputData = some file →
      ∀ seg ∈ file.segments, seg.InAddressSpace := by
    intro inputData file _ hfile
    cases hfile
    intro seg hseg
    rw [List.mem_singleton.mp hseg]
    exact show (0x10020000 : UInt32).toNat + 64 < 2 ^ 32 by decide
  obtain ⟨-, file, application, flashStart, image, rkth, baseAddr, prepared, -, -, hconfig, hslot,
    hstart, himage, hend, -, -, hboards⟩ := run_application_in_ram (sampleProbe_accesses true true)
      sampleCrypto_derLength sampleArgs_keepsUnsigned hrun hspace
  cases hconfig
  cases hslot
  obtain rfl : image = out := Option.some.inj (himage.symm.trans hout)
  obtain rfl : baseAddr = 0x10020000 := by
    have h := congrArg UInt64.toNat hstart
    rw [UInt32.toNat_toUInt64] at h
    exact UInt32.toNat_inj.mp h
  -- The reset and the attaching of the sample probe leave the device as it is.
  obtain rfl : prepared = s'.device := by
    obtain ⟨device, hreset, hstatus⟩ := hend
    cases hreset
    cases hstatus
    rfl
  have hboard : SlotInFlash (Imxrt.sampleBoard image) .S0 s'.device
      (0x080f9000 : UInt64).toNat 0x10020000 image.length (Imxrt.sampleSlot image) := by
    have hprogrammed := sampleBoard_programmed hlen
    refine ⟨rfl, ?_, hprogrammed.capacity_lt, hprogrammed.start_le, hprogrammed.le_capacity,
      hprogrammed.load_start, hprogrammed.load_stop⟩
    intro call len h
    rw [hprogrammed.reads call len h, ReadAnswer.done.injEq]
    funext i
    exact (hflash i).symm
  obtain ⟨exit, after, hboot, hexit, -⟩ := hboards (Imxrt.sampleBoard image) .S0
    (Imxrt.sampleSlot image)
    { sampleSoc with sha256 := fun data => some (sampleCrypto.sha256 data) } hboard
    (Imxrt.sampleRom_accessesSucceed _) (sampleRom_reloadsFuses _) rfl fun _ => rfl
  exact ⟨s', image, exit, after, hrun, hboot, hexit⟩

end Process

end EcSlimloader
