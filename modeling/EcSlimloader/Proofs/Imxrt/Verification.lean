import EcSlimloader.Imxrt.Verification
import EcSlimloader.Proofs.Rom.Registers

/-!
# `EcSlimloader.Proofs.Imxrt.Verification`: what `check_image` does, step by step

Each step of `check_image` has one triple. The precondition fixes the record of
authentications and the flag of the fuse driver, and the crash condition says why the
step can fail: an access to the fuses has failed, or the fuse driver was in use.
`checkImage_spec` puts them together. A run makes at most one call of
`skboot_authenticate`, and `Trusted` says what the shadow registers hold then.

The registers are read and written by index, and `Holds` says what a register holds as a whole.
`Register.Mapped` is needed for the writes, because a register without an address in the shadow
space is an error. It is checked once for each of the three registers that `check_image` uses.

The ROM is a parameter. A reload that succeeds copies the fuses, and an authentication may do
anything to the shadow registers. So what is known about them is known up to that call, which is
where `authentications` records them.
-/

set_option autoImplicit false

namespace EcSlimloader

open Bytes (u32At toLe sliceFrom addU32 addU32_of_lt length_toLe fromLe_toLe u32At_drop
  u32At_toLe_append)

/-! ### Registers -/

/-- Every word of the register has a shadow register. -/
def Register.Mapped (register : Register) : Prop :=
  ∀ j, register.address ≤ j → j < register.address + (register.size + 3) / 4 → IsMapped j

/-- `BOOT_CFG0` has shadow registers. -/
theorem bootCfg0_mapped : Register.bootCfg0.Mapped := by
  intro j hj hj'
  simp only [Register.bootCfg0] at hj hj'
  exact isMapped_of_range (by omega)

/-- `BOOT_CFG1` has shadow registers. -/
theorem bootCfg1_mapped : Register.bootCfg1.Mapped := by
  intro j hj hj'
  simp only [Register.bootCfg1] at hj hj'
  exact isMapped_of_range (by omega)

/-- All words of `RKTH` have shadow registers. -/
theorem rkth_mapped : Register.rkth.Mapped := by
  intro j hj hj'
  simp only [Register.rkth] at hj hj'
  exact isMapped_of_range (by omega)

/-- The bytes of a register with the words `g`. -/
def registerBytes (g : Nat → UInt32) (register : Register) : List UInt8 :=
  otpWordsToData (m := Id) g register.address register.size

/-- Words that can all be read. -/
theorem otpWordsToData_pure {ε : Type} {f : Nat → Except ε UInt32} {g : Nat → UInt32}
    {i length : Nat} (h : ∀ j, i ≤ j → j < i + (length + 3) / 4 → f j = .ok (g j)) :
    otpWordsToData f i length = .ok (otpWordsToData (m := Id) g i length) := by
  fun_induction otpWordsToData f i length with
  | case1 i => rfl
  | case2 i | case3 i | case4 i =>
      rw [h i (by omega) (by omega)]
      rfl
  | case5 i length ih =>
      rw [h i (by omega) (by omega), ih fun j hj hj' => h j (by omega) (by omega)]
      rfl

/-- Shadow registers that hold the words `g`, as far as they are mapped. -/
def Holds (g : Nat → UInt32) (shadow : Shadow) : Prop :=
  ∀ i, IsMapped i → shadow.word i = .ok (g i)

/-- Shadow registers hold some words. -/
theorem Holds.exists (g : Nat → UInt32) (shadow : Shadow) :
    ∃ g', Holds g' shadow ∧
      ((∀ i addr, otpToShadowAddr i = .ok addr → shadow addr = g i) → g' = g) := by
  refine ⟨fun i => match otpToShadowAddr i with
    | .ok addr => shadow addr
    | .error _ => g i, ?_, ?_⟩
  · rintro i ⟨addr, haddr⟩
    simp only [Shadow.word_of_addr haddr, haddr]
  · intro h
    funext i
    cases haddr : otpToShadowAddr i with
    | ok addr => exact h i addr haddr
    | error e => rfl

/-- A register of shadow registers with known words. -/
theorem Holds.readRegister {g : Nat → UInt32} {shadow : Shadow} (h : Holds g shadow)
    {register : Register} (hmapped : register.Mapped) :
    shadow.readRegister register.address register.size = .ok (registerBytes g register) :=
  otpWordsToData_pure fun j hj hj' => h j (hmapped j hj hj')

section Shadow

variable {st : RomState} {register : Register}

/-- A read of the shadow registers changes nothing. -/
theorem read_run {data : List UInt8}
    (h : st.shadow.readRegister register.address register.size = .ok data) :
    ShadowRegisters.read register st = .ok data st := by
  unfold ShadowRegisters.read
  rw [Exec.get_bind, h]
  rfl

/-- A read of mapped shadow registers succeeds. -/
theorem read_ok (hmapped : register.Mapped) (st : RomState) :
    ∃ data, ShadowRegisters.read register st = .ok data st := by
  obtain ⟨data, hdata, -⟩ := Shadow.readRegister_ok hmapped st.shadow
  exact ⟨data, read_run hdata⟩

/-- A write to mapped shadow registers succeeds. The register holds the data then, and
the words of the other indices are left alone. -/
theorem write_ok (hmapped : register.Mapped) {data : List UInt8}
    (hlen : data.length = register.size) (st : RomState) :
    ∃ shadow, ShadowRegisters.write register data st = .ok () { st with shadow } ∧
      shadow.readRegister register.address register.size = .ok data ∧
      (∀ p ∈ dataToOtpWords register.address data, shadow.word p.1 = .ok p.2) ∧
      ∀ j, j < register.address ∨ register.address + (register.size + 3) / 4 ≤ j →
        shadow.word j = st.shadow.word j := by
  have hmapped : ∀ j, register.address ≤ j → j < register.address + (data.length + 3) / 4 →
      IsMapped j := by
    rw [hlen]
    exact hmapped
  rw [← hlen]
  obtain ⟨shadow, hrun, hread, hwords, hothers⟩ := Shadow.writeRegister_run hmapped st.shadow
  exact ⟨shadow, Exec.zoom_ok hrun, hread, hwords, hothers⟩

end Shadow

/-- Logging the registers changes nothing. -/
theorem logShadow_run (st : RomState) : logShadow st = .ok () st := by
  obtain ⟨bootCfg0, h0⟩ := read_ok bootCfg0_mapped st
  obtain ⟨bootCfg1, h1⟩ := read_ok bootCfg1_mapped st
  obtain ⟨rkth, hrkth⟩ := read_ok rkth_mapped st
  unfold logShadow
  rw [Exec.bind_ok (Exec.unwrap_ok h0), Exec.bind_ok (Exec.unwrap_ok h1),
    Exec.bind_ok (Exec.unwrap_ok hrkth)]
  rfl

/-! ### The fuses

The driver is taken, asked to reload the shadow registers, and given back. While it is in use a
second `init` is a panic, so the flag is part of every precondition. -/

/-- The fuse accesses and the reload succeed. -/
def Rom.AccessesSucceed (rom : Rom) : Prop :=
  (∀ calls addr, rom.fuseRead calls addr = kbStatusSuccess) ∧
  ∀ calls shadow, (rom.reload calls shadow).1 = kbStatusSuccess

/-- The record of authentications is `log`, and the flag of the fuse driver is `b`. -/
def Idle (log : List AuthenticateCall) (b : Bool) (st : RomState) : Prop :=
  st.authentications = log ∧ st.otpInitialized = b

/-- A panic before the authentication, because an access has failed or the fuse driver
was in use. -/
def AccessPanic (rom : Rom) (log : List AuthenticateCall) (b : Bool) (e : Fault BootError)
    (st : RomState) : Prop :=
  st.authentications = log ∧ (∃ msg, e = .panic msg) ∧ (b = true ∨ ¬rom.AccessesSucceed)

section Fuses

variable {rom : Rom} {log : List AuthenticateCall} {b : Bool}

/-- Reading words one after the other keeps what each reading keeps. -/
theorem otpWordsToData_triple {ε σ : Type} {f : Nat → Exec ε σ UInt32} {I : σ → Prop}
    {C : Fault ε → σ → Prop} (h : ∀ j, Triple I (f j) (fun _ => I) C) (i length : Nat) :
    Triple I (otpWordsToData f i length) (fun _ => I) C := by
  rw [otpWordsToData_eq_mapM, map_eq_pure_bind]
  apply Triple.bind (Triple.mapM h _)
  intro words
  exact Triple.pure _ fun _ hI => hI

/-- A fuse word: the call is counted, and a bad status is an error. -/
theorem readFuse_triple (addr : Nat) :
    Triple (Idle log b) (Otp.readFuse rom addr) (fun _ => Idle log b)
      (fun e st => st.authentications = log ∧ (∃ err, e = .error err) ∧ ¬rom.AccessesSucceed) := by
  intro st hst
  have hrun : Otp.readFuse rom addr st
      = (if rom.fuseRead st.calls addr = kbStatusSuccess then pure (rom.fuse addr)
        else Exec.fail { status := rom.fuseRead st.calls addr } : Exec Otp.Error RomState UInt32)
        { st with calls := st.calls + 1 } := rfl
  rw [hrun]
  by_cases hs : rom.fuseRead st.calls addr = kbStatusSuccess
  · rw [if_pos hs]
    exact hst
  · rw [if_neg hs]
    exact ⟨hst.1, ⟨_, rfl⟩, fun h => hs (h.1 _ _)⟩

/-- Unwrapping turns the errors into panics. -/
theorem unwrap_triple {ε α : Type} {x : Exec ε RomState α} {P : RomState → Prop}
    {Q : α → RomState → Prop} (h : Triple P x Q
      (fun e st => st.authentications = log ∧ (∃ err, e = .error err) ∧ ¬rom.AccessesSucceed)) :
    Triple P (Exec.unwrap x) Q (AccessPanic rom log b) := by
  intro st hst
  have hs := h st hst
  unfold Exec.unwrap
  cases hx : x st with
  | ok a st' =>
      rw [hx] at hs
      exact hs
  | error e st' =>
      rw [hx] at hs
      -- There is an error to unwrap, so an access has failed.
      obtain ⟨hlog, ⟨err, rfl⟩, hrom⟩ := hs
      exact ⟨hlog, ⟨_, rfl⟩, Or.inr hrom⟩

/-- A register in the fuses. -/
theorem fuses_read_triple (register : Register) :
    Triple (Idle log true) (Exec.unwrap (OtpFuses.read rom register)) (fun _ => Idle log true)
      (AccessPanic rom log b) :=
  unwrap_triple (otpWordsToData_triple readFuse_triple _ _)

/-- The driver can be initialized once. -/
theorem init_triple :
    Triple (Idle log b) Otp.init (fun _ => Idle log true) (AccessPanic rom log b) := by
  intro st hst
  cases hb : st.otpInitialized with
  | true =>
      have hrun : (Otp.init : Exec BootError RomState Unit) st
          = .error (.panic "Using OTP whilst it has already been initialized") st := by
        unfold Otp.init
        rw [Exec.get_bind, if_pos hb]
        rfl
      rw [hrun]
      exact ⟨hst.1, ⟨_, rfl⟩, Or.inl (hst.2.symm.trans hb)⟩
  | false =>
      have hrun : (Otp.init : Exec BootError RomState Unit) st
          = .ok () { st with otpInitialized := true, calls := st.calls + 1 } := by
        unfold Otp.init
        rw [Exec.get_bind, if_neg (by simp [hb])]
        rfl
      rw [hrun]
      exact ⟨hst.1, rfl⟩

/-- The words `fuse` come from a reload: if the reload copies the fuses, they are the
fuse words. -/
def Reloaded (rom : Rom) (fuse : Nat → UInt32) : Prop := rom.ReloadsFuses → fuse = rom.fuse

/-- A reload puts the fuse words in the shadow registers. -/
theorem reloadShadow_triple :
    Triple (Idle log true) (Exec.unwrap (Otp.reloadShadow rom))
      (fun _ st => Idle log true st ∧ ∃ fuse, Reloaded rom fuse ∧ Holds fuse st.shadow)
      (AccessPanic rom log b) := by
  apply unwrap_triple
  intro st hst
  have hrun : Otp.reloadShadow rom st
      = (if (rom.reload st.calls st.shadow).1 = kbStatusSuccess then pure ()
        else Exec.fail { status := (rom.reload st.calls st.shadow).1 } :
          Exec Otp.Error RomState Unit)
        { st with calls := st.calls + 1, shadow := (rom.reload st.calls st.shadow).2 } := rfl
  rw [hrun]
  by_cases hs : (rom.reload st.calls st.shadow).1 = kbStatusSuccess
  · rw [if_pos hs]
    -- Whatever the reload has left in the registers are the words `fuse`.
    obtain ⟨fuse, hholds, hfuse⟩ :=
      Holds.exists rom.fuse (rom.reload st.calls st.shadow).2
    exact ⟨hst, fuse, fun hreload => hfuse fun i addr => hreload _ _ hs i addr, hholds⟩
  · rw [if_neg hs]
    exact ⟨hst.1, ⟨_, rfl⟩, fun h => hs (h.2 _ _)⟩

/-- The reload of `check_image`: the shadow registers hold the fuse words, whatever was
in them before, and the driver is free again. -/
theorem reloadShadowRegisters_triple :
    Triple (Idle log b) (reloadShadowRegisters rom)
      (fun _ st => ∃ fuse, Reloaded rom fuse ∧ Idle log false st ∧ Holds fuse st.shadow)
      (AccessPanic rom log b) := by
  apply Triple.bind init_triple
  intro _
  apply Triple.bind (fuses_read_triple .bootCfg0)
  intro _
  apply Triple.bind (fuses_read_triple .bootCfg1)
  intro _
  apply Triple.bind (fuses_read_triple .rkth)
  intro _
  apply Triple.bind reloadShadow_triple
  rintro _ st ⟨hst, fuse, hfuse, hholds⟩
  exact ⟨fuse, hfuse, ⟨hst.1, rfl⟩, hholds⟩

end Fuses

/-! ### From the reload to the authentication

`Trusted` is established in this order: the reload puts the fuses into the shadow registers, a board
without fuses gets its boot configuration, and in development mode the hash of the image is written.
-/

/-- The word that the bootloader keeps in a shadow register: the fuse word, with the fix
for the evaluation kit. -/
def boardWord (build : Build) (fuse : Nat → UInt32) (otpWordI : Nat) : UInt32 :=
  if build.evk ∧ otpWordI = 97 then evkBootCfg1 (fuse 97) else fuse otpWordI

/-- Whether the fuses are in development mode. -/
def devMode (fuse : Nat → UInt32) : Prop := secureBootEn (fuse 96) = .Disabled

instance (fuse : Nat → UInt32) : Decidable (devMode fuse) := inferInstanceAs (Decidable (_ = _))

/-- What the shadow registers hold when an image with the hash `rkth` is authenticated:
the hash from the fuses or, in development mode, the one of the image, and the words of
the bootloader everywhere else. -/
structure Trusted (build : Build) (fuse : Nat → UInt32) (rkth : Rkth) (shadow : Shadow) :
    Prop where
  rkth : shadow.readRegister Register.rkth.address Register.rkth.size
    = .ok (if devMode fuse then rkth.val else registerBytes fuse .rkth)
  others : ∀ i, IsMapped i → i < 120 ∨ 128 ≤ i → shadow.word i = .ok (boardWord build fuse i)

section Steps

variable {soc : Soc} {build : Build} {fuse : Nat → UInt32} {log : List AuthenticateCall} {b : Bool}

/-- A one-word register of shadow registers with known words. -/
theorem Holds.readRegister_word {g : Nat → UInt32} {shadow : Shadow} (h : Holds g shadow)
    {register : Register} (hmapped : register.Mapped) (hsize : register.size = 4) :
    shadow.readRegister register.address register.size = .ok (toLe (g register.address) ++ []) := by
  rw [h.readRegister hmapped, registerBytes, hsize]
  rfl

/-- The fix for the evaluation kit changes `BOOT_CFG1` only. -/
theorem fixEvk_triple :
    Triple (fun st => Idle log b st ∧ Holds fuse st.shadow) (fixEvk build)
      (fun _ st => Idle log b st ∧ Holds (boardWord build fuse) st.shadow) (fun _ _ => False) := by
  rintro st ⟨hst, hholds⟩
  unfold fixEvk
  by_cases hevk : build.evk = true
  · have hread := read_run (hholds.readRegister_word bootCfg1_mapped rfl)
    obtain ⟨shadow, hwrite, -, hwords, hothers⟩ :=
      write_ok bootCfg1_mapped (length_toLe (evkBootCfg1 (fuse 97))) st
    have hrun : ShadowRegisters.modify .bootCfg1
        (fun data => toLe (evkBootCfg1 (u32At data 0))) st = .ok () { st with shadow } := by
      unfold ShadowRegisters.modify
      rw [Exec.bind_ok hread]
      simp only [u32At_toLe_append]
      exact hwrite
    rw [if_pos hevk, Exec.unwrap_ok hrun]
    refine ⟨hst, ?_⟩
    intro i hi
    -- `BOOT_CFG1` is the one word at index 97.
    by_cases h97 : i = 97
    · subst h97
      rw [boardWord, if_pos ⟨hevk, rfl⟩]
      have hword := hwords (97, _) (List.mem_singleton_self _)
      rw [fromLe_toLe] at hword
      exact hword
    · rw [boardWord, if_neg fun h => h97 h.2, ← hholds i hi]
      apply hothers
      simp only [Register.bootCfg1]
      omega
  · rw [if_neg hevk]
    refine ⟨hst, ?_⟩
    intro i hi
    rw [boardWord, if_neg fun h => hevk h.1]
    exact hholds i hi

/-- In development mode the hash of the image is in the shadow registers afterwards, and
else the one from the fuses. -/
theorem selectRkth_triple (rkth : Rkth) :
    Triple (fun st => Idle log b st ∧ Holds (boardWord build fuse) st.shadow) (selectRkth rkth)
      (fun _ st => Idle log b st ∧ Trusted build fuse rkth st.shadow) (fun _ _ => False) := by
  rintro st ⟨hst, hholds⟩
  have h0 : boardWord build fuse 96 = fuse 96 := if_neg fun h => absurd h.2 (by decide)
  have hcfg := read_run (hholds.readRegister_word bootCfg0_mapped rfl)
  -- The fix for the evaluation kit is at another index than the hash.
  have hfuse : st.shadow.readRegister Register.rkth.address Register.rkth.size
      = .ok (registerBytes fuse .rkth) := by
    apply otpWordsToData_pure
    intro j hj hj'
    rw [hholds j (rkth_mapped j hj hj'), boardWord, if_neg]
    simp only [Register.rkth] at hj
    omega
  have hrun : selectRkth rkth st
      = (if rkth.val ≠ registerBytes fuse .rkth then
          if devMode fuse then Exec.unwrap (ShadowRegisters.write .rkth rkth.val) else pure ()
        else pure ()) st := by
    unfold selectRkth
    rw [Exec.bind_ok (Exec.unwrap_ok hcfg), Exec.bind_ok (Exec.unwrap_ok (read_run hfuse))]
    simp only [u32At_toLe_append]
    show (if _ then
      if secureBootEn (boardWord build fuse 96) = SecureBoot.Disabled then _ else _
      else _ : Exec BootError RomState Unit) st = _
    rw [h0]
    rfl
  rw [hrun]
  by_cases hdev : devMode fuse
  · by_cases hne : rkth.val ≠ registerBytes fuse .rkth
    · obtain ⟨shadow, hwrite, hread, -, hothers⟩ := write_ok rkth_mapped rkth.property st
      rw [if_pos hne, if_pos hdev, Exec.unwrap_ok hwrite]
      refine ⟨hst, ⟨by rw [if_pos hdev]; exact hread, ?_⟩⟩
      intro i hi hrange
      rw [← hholds i hi]
      exact hothers i hrange
    · -- Nothing is written, but the two hashes are the same.
      rw [if_neg hne]
      refine ⟨hst, ⟨?_, fun i hi _ => hholds i hi⟩⟩
      rw [if_pos hdev, hfuse, not_not.mp hne]
  · have hpure : (if rkth.val ≠ registerBytes fuse .rkth then
        if devMode fuse then Exec.unwrap (ShadowRegisters.write .rkth rkth.val) else pure ()
        else pure () : Exec BootError RomState Unit) = pure () := by
      rw [if_neg hdev, ite_self]
    rw [hpure]
    exact ⟨hst, ⟨by rw [if_neg hdev]; exact hfuse, fun i hi _ => hholds i hi⟩⟩

/-- The ROM session keeps the record and the driver, and it does not panic. -/
theorem authenticateSession_triple (rom : Rom) (a : AuthenticateCall) :
    Triple (Idle log b) (authenticateSession rom a) (fun _ => Idle log b)
      (fun e st => (∃ err, e = .error err) ∧ Idle log b st) := by
  have hcall : Triple (Idle log b) (romCall : Exec AuthenticateError RomState Nat)
      (fun _ => Idle log b) (fun e st => (∃ err, e = .error err) ∧ Idle log b st) :=
    fun _ hst => hst
  have hfail : Triple (Idle log b) (Exec.fail .Fail : Exec AuthenticateError RomState Unit)
      (fun _ => Idle log b) (fun e st => (∃ err, e = .error err) ∧ Idle log b st) :=
    fun _ hst => ⟨⟨_, rfl⟩, hst⟩
  -- Each call of the ROM may fail. None of them touches the record or the flag of the driver.
  apply Triple.bind hcall
  intro call
  split
  · exact hfail
  · apply Triple.bind hcall
    intro call
    have hmodify (shadow : Shadow) : Triple (Idle log b)
        (modify fun st => { st with shadow } : Exec AuthenticateError RomState Unit)
        (fun _ => Idle log b) (fun e st => (∃ err, e = .error err) ∧ Idle log b st) :=
      fun _ hst => hst
    apply Triple.bind (hmodify _)
    intro _
    apply Triple.bind hcall
    intro call'
    split
    · exact hfail
    · generalize authenticateResult _ _ = result
      intro st hst
      cases result with
      | ok _ => exact hst
      | error e => exact ⟨⟨e, rfl⟩, hst⟩

/-- Every call of `skboot_authenticate` is recorded with the shadow registers of that
time. -/
theorem skbootAuthenticate_triple {R : Shadow → Prop} (rom : Rom) (start len : UInt32)
    (rhk : Option (List UInt8)) (image : List UInt8) :
    Triple (fun st => Idle log b st ∧ R st.shadow) (skbootAuthenticate rom start len rhk image)
      (fun _ st => ∃ a, R a.shadow ∧ Idle (log ++ [a]) b st)
      (fun e st => (∃ err, e = .error err) ∧ ∃ a, R a.shadow ∧ Idle (log ++ [a]) b st) := by
  rintro st ⟨hst, hR⟩
  -- The record of this call.
  let a : AuthenticateCall :=
    { start, maxImageLength := len, rhk, image, shadow := st.shadow }
  let st' : RomState := { st with authentications := st.authentications ++ [a] }
  have hrun : skbootAuthenticate rom start len rhk image st = authenticateSession rom a st' := rfl
  have hst' : Idle (log ++ [a]) b st' := ⟨by rw [← hst.1], hst.2⟩
  have h := authenticateSession_triple rom a st' hst'
  rw [hrun]
  cases hr : authenticateSession rom a st' with
  | ok _ st'' =>
      rw [hr] at h
      exact ⟨a, hR, h⟩
  | error e st'' =>
      rw [hr] at h
      exact ⟨h.1, a, hR, h.2⟩

/-! ### The whole run -/

/-- The record of a run that has reached the authentication: one call more, with trusted
shadow registers. -/
def Authenticated (soc : Soc) (ramIvt : Ivt) (image : List UInt8) (log : List AuthenticateCall)
    (st : RomState) : Prop :=
  ∃ fuse rkth a, Reloaded soc.rom fuse ∧ imageRkth soc ramIvt image = .ok rkth ∧
    Trusted soc.build fuse rkth a.shadow ∧ Idle (log ++ [a]) false st

/-- A run of `check_image` reaches the authentication, or it fails before: in the part
that reads the image, or at an access. -/
theorem checkImage_spec (soc : Soc) (ramIvt : Ivt) (image : List UInt8)
    (log : List AuthenticateCall) (b : Bool) : Triple (Idle log b) (checkImage soc ramIvt image)
      (fun _ st => Authenticated soc ramIvt image log st)
      (fun e st => (imageRkth soc ramIvt image = .error e ∧ Idle log b st) ∨
        AccessPanic soc.rom log b e st ∨
        (e = .error .Authenticate ∧ Authenticated soc ramIvt image log st)) := by
  unfold checkImage
  cases himage : imageRkth soc ramIvt image with
  | error e => exact fun st hst => Or.inl ⟨rfl, hst⟩
  | ok rkth =>
      -- The two dumps of the registers only read.
      have hlog (P : RomState → Prop) : Triple P logShadow (fun _ => P) (fun _ _ => False) := by
        intro st hst
        rw [logShadow_run]
        exact hst
      show Triple (Idle log b) (do
        logShadow
        reloadShadowRegisters soc.rom
        fixEvk soc.build
        logShadow
        selectRkth rkth
        Exec.mapError (fun _ => .Authenticate)
          (skbootAuthenticate soc.rom ramIvt.targetPtr ramIvt.imageLen none image)) _ _
      apply Triple.bind (hlog _).of_no_fault
      intro _
      apply Triple.bind (reloadShadowRegisters_triple.mono_crash fun _ _ he => Or.inr (Or.inl he))
      intro _
      apply Triple.exists_pre
      intro fuse hfuse
      -- Behind the reload no access fails any more.
      apply Triple.bind fixEvk_triple.of_no_fault
      intro _
      apply Triple.bind (hlog _).of_no_fault
      intro _
      apply Triple.bind (selectRkth_triple rkth).of_no_fault
      intro _ st hst
      have h := skbootAuthenticate_triple (R := Trusted soc.build fuse rkth) soc.rom
        ramIvt.targetPtr ramIvt.imageLen none image st hst
      unfold Exec.mapError Exec.zoom
      cases hr : skbootAuthenticate soc.rom ramIvt.targetPtr ramIvt.imageLen none image st with
      | ok _ st' =>
          rw [hr] at h
          obtain ⟨a, ha, hst'⟩ := h
          simp only [id, hr]
          exact ⟨fuse, rkth, a, hfuse, himage, ha, hst'⟩
      | error e st' =>
          rw [hr] at h
          obtain ⟨⟨err, rfl⟩, a, ha, hst'⟩ := h
          simp only [id, hr]
          exact Or.inr (Or.inr ⟨rfl, fuse, rkth, a, hfuse, himage, ha, hst'⟩)

end Steps

/-! ### The root key hashes of an image -/

section Rkhs

variable {build : Build} {ivt : Ivt} {image : List UInt8}

/-- The lookup behind the header that the image has at its header offset. -/
def rkhsFrom (build : Build) (ivt : Ivt) (image : List UInt8) :
    Except (Fault BootError) (List (List UInt8)) :=
  rkhsBehind build ivt.headerOffset
    (CertificateBlockHeader.parse (image.drop ivt.headerOffset.toNat)) image

/-- What `imageRkhs` does, by where the certificate block starts. -/
theorem imageRkhs_eq : imageRkhs build ivt image =
    if ivt.headerOffset.toNat ≤ image.length then
      if ivt.headerOffset.toNat + CertificateBlockHeader.size ≤ image.length then
        rkhsFrom build ivt image
      else .error (.error .TooLarge)
    else .error (.panic "range start index out of range for slice") := by
  by_cases hoff : ivt.headerOffset.toNat ≤ image.length
  · have hlen : (image.drop ivt.headerOffset.toNat).length < CertificateBlockHeader.size ↔
        ¬ivt.headerOffset.toNat + CertificateBlockHeader.size ≤ image.length := by
      rw [List.length_drop]
      omega
    by_cases hsize : ivt.headerOffset.toNat + CertificateBlockHeader.size ≤ image.length
    · simp only [imageRkhs, sliceFrom, if_pos hoff, Except.ok_bind,
        CertificateBlockHeader.readFromSlice, hlen, not_true_eq_false, if_false, if_true,
        hsize, rkhsFrom]
    · simp only [imageRkhs, sliceFrom, if_pos hoff, Except.ok_bind,
        CertificateBlockHeader.readFromSlice, hlen, hsize, not_false_eq_true, if_true, if_false]
  · simp only [imageRkhs, sliceFrom, if_neg hoff, Except.error_bind]

/-- A complete header whose lengths stay in the image: no addition overflows, and the
last slice exists. -/
theorem rkhsFrom_of_le (hlen : image.length < 2 ^ 32)
    (h : ivt.headerOffset.toNat + (u32At image (ivt.headerOffset.toNat + 8)).toNat
      + (u32At image (ivt.headerOffset.toNat + 28)).toNat ≤ image.length) :
    rkhsFrom build ivt image =
      match Rkh.readAllFromSlice (image.drop (ivt.headerOffset.toNat
        + (u32At image (ivt.headerOffset.toNat + 8)).toNat
        + (u32At image (ivt.headerOffset.toNat + 28)).toNat)) with
      | some rkhs => .ok rkhs
      | none => .error (.error .TooLarge) := by
  -- The sums stay in the image, which has less than `2 ^ 32` bytes.
  have hadd : (ivt.headerOffset + u32At image (ivt.headerOffset.toNat + 8)).toNat
      = ivt.headerOffset.toNat + (u32At image (ivt.headerOffset.toNat + 8)).toNat := by
    rw [UInt32.toNat_add]
    omega
  have hadd' : (ivt.headerOffset + u32At image (ivt.headerOffset.toNat + 8)
      + u32At image (ivt.headerOffset.toNat + 28)).toNat
      = ivt.headerOffset.toNat + (u32At image (ivt.headerOffset.toNat + 8)).toNat
        + (u32At image (ivt.headerOffset.toNat + 28)).toNat := by
    rw [UInt32.toNat_add, hadd]
    omega
  simp only [rkhsFrom, rkhsBehind, CertificateBlockHeader.parse, u32At_drop]
  rw [addU32_of_lt (by omega), Except.ok_bind, addU32_of_lt (by omega), Except.ok_bind, sliceFrom,
    if_pos (by omega), Except.ok_bind, hadd']
  cases Rkh.readAllFromSlice _ with
  | some rkhs => rfl
  | none => rfl

end Rkhs

/-! ### A sample chip -/

/-- A ROM whose accesses succeed, and which rejects every image. -/
def sampleRom (fuse : Nat → UInt32) : Rom where
  fuse
  fuseRead _ _ := kbStatusSuccess
  reload _ _ := (kbStatusSuccess, fun addr => fuse ((addr - otpShadowBaseAddr) / 4))
  iapInit _ := kbStatusSuccess
  authenticate _ call :=
    { result := 0xc35ac35a, isSignVerified := 0x5aa55aa5, shadow := call.shadow }
  iapDeinit _ := kbStatusSuccess

/-- The shadow register of an index is at four times the index. -/
theorem sampleRom_reloadsFuses (fuse : Nat → UInt32) : (sampleRom fuse).ReloadsFuses := by
  intro calls shadow _ i addr haddr
  have hi : (addr - otpShadowBaseAddr) / 4 = i := by
    have := otpToShadowAddr_cases haddr
    rw [otpShadowBaseAddr]
    omega
  show fuse ((addr - otpShadowBaseAddr) / 4) = fuse i
  rw [hi]

/-- The SHA-256 of 128 zero bytes, and of 128 bytes that are one. -/
def sampleRkth : Fin 2 → Rkth
  | 0 => ⟨[0x38, 0x72, 0x3a, 0x2e, 0x5e, 0x8a, 0x17, 0xaa, 0x79, 0x50, 0xdc, 0x00, 0x82, 0x09,
      0x94, 0x4e, 0x89, 0x8f, 0x69, 0xa7, 0xbd, 0x10, 0xa2, 0x3c, 0x83, 0x9d, 0x34, 0x1e, 0x93,
      0x5f, 0xd5, 0xca], rfl⟩
  | 1 => ⟨[0x7e, 0xb2, 0x4a, 0x18, 0x99, 0x0e, 0xe4, 0xc9, 0x58, 0xc8, 0x97, 0x73, 0xda, 0x6c,
      0xc9, 0xfb, 0xc5, 0xc2, 0x78, 0x35, 0x77, 0x62, 0xd0, 0x2e, 0xc6, 0xab, 0x94, 0x7e, 0xb2,
      0x87, 0x26, 0xff], rfl⟩

/-- SHA-256 for the root key hashes of the sample images. -/
def sampleSha256 (data : List UInt8) : Option Rkth :=
  if data = List.replicate 128 0 then some (sampleRkth 0)
  else if data = List.replicate 128 1 then some (sampleRkth 1)
  else none

/-- A chip without fuses set, and a build for the evaluation kit. -/
def sampleSoc : Soc where
  rom := sampleRom fun _ => 0
  sha256 := sampleSha256
  build := { overflowChecks := true, evk := true }

/-- The header fields of the sample images. -/
def sampleIvt : Ivt where
  imageLen := 224
  imageType := 4
  headerOffset := 64
  targetPtr := 0x10020000

/-- A vector table with header fields, and zeros elsewhere. -/
def ivtBytes (ivt : Ivt) : List UInt8 :=
  List.replicate 32 0 ++ toLe ivt.imageLen ++ toLe ivt.imageType ++ toLe ivt.headerOffset
    ++ List.replicate 8 0 ++ toLe ivt.targetPtr ++ List.replicate 8 0

/-- An image with an empty certificate table and equal bytes as root key hashes. -/
def sampleImage (fill : UInt8) : List UInt8 :=
  ivtBytes sampleIvt ++ (List.replicate 8 0 ++ toLe 0x20 ++ List.replicate 20 0)
    ++ List.replicate 128 fill

/-- A chip after power-on, with ones in the shadow registers. -/
def sampleState : RomState where
  shadow _ := 0xffffffff
  otpInitialized := false
  calls := 0
  authentications := []

end EcSlimloader
