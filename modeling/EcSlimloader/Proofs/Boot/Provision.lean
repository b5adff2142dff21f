import EcSlimloader.Boot.Provision
import EcSlimloader.Lib.Otp
import EcSlimloader.Proofs.Imxrt.RootOfTrust

/-!
# `EcSlimloader.Proofs.Boot.Provision`: what the fuses hold after long presses

A long press sets the bits of the root key hash in the shadow registers and then, if
`BOOT_CFG0` is blank, those of the boot configuration. `longPress_triple` says so for every
run, also for one that ends in the middle because an access has failed: `PartlyPressed` has
the bits that may be set by then, and `PartlyPressed.order` says that the configuration is not
touched before the hash is complete.

`keyCycles_rootKey` carries this along power cycles, in which the bootloader chooses the hash in
the shadow registers. Whenever the fuses enable secure boot, they hold a whole root key hash.
`keyCycles_locked` says that from then on nothing changes the fuses any more.

The fuses are one-time programmable, so what a run may do to them is a relation between the words
before and after: a bit may be set, and it stays set. `Pressed` and `PartlyPressed` are this
relation, with the bits of the hash as the upper bound. A press that is repeated adds nothing
(`Pressed.again`), so a press that was interrupted can be made up for by another one.

`KeyCycle.Lawful` is what is asked of the environment: a fuse access programs bits and clears none,
and the ROM keeps the hash that the bootloader has chosen. The sample chip is lawful, also one whose
accesses fail.
-/

set_option autoImplicit false

namespace EcSlimloader

open Bytes (u32At toLe fromLe fromLe_toLe length_toLe u32At_toLe_append)
open BitWord

/-! ### Fuse accesses

A write of a register is a loop over its words. Each word may fail, and what the words in front of
it have set stays. The triples have the words that were attempted in their crash condition. -/

section Accesses

variable {otp : OtpRom} {shadow : Shadow} {before : Fuses}

/-- The fuse driver is in use, and these are the shadow registers and the fuses. -/
structure InPress (shadow : Shadow) (fuses : Fuses) (chip : Chip) : Prop where
  shadow : chip.rom.shadow = shadow
  driver : chip.rom.otpInitialized = true
  fuses : chip.fuses = fuses

/-- Where an access has failed, at the fuses `fuses`. -/
def Failed (otp : OtpRom) (fuses : Fuses) (chip : Chip) : Prop :=
  chip.fuses = fuses ∧ ¬otp.AccessesSucceed

/-- The words of a byte string that is read word by word. -/
theorem otpWordsToData_triple_eq {ε σ : Type} {f : Nat → Exec ε σ UInt32} {g : Nat → UInt32}
    {I : σ → Prop} {C : Fault ε → σ → Prop}
    (h : ∀ j, Triple I (f j) (fun w s => w = g j ∧ I s) C) (i length : Nat) :
    Triple I (otpWordsToData f i length)
      (fun data s => data = otpWordsToData (m := Id) g i length ∧ I s) C := by
  rw [otpWordsToData_eq_mapM, map_eq_pure_bind]
  refine Triple.bind (Triple.mapM_eq h _) fun words => ?_
  rintro s ⟨rfl, hs⟩
  have hwords : List.mapM (m := Id) g (List.range' i ((length + 3) / 4))
      = (List.range' i ((length + 3) / 4)).map g := List.idRun_mapM
  refine ⟨?_, hs⟩
  rw [otpWordsToData_eq_mapM, hwords]
  rfl

/-- A read of a register in the fuses. -/
theorem read_triple (hreads : otp.ReadsFuses) (register : Register) :
    Triple (InPress shadow before) (OtpInterface.read otp register)
      (fun data chip => data = registerBytes before register ∧ InPress shadow before chip)
      (fun _ => Failed otp before) := by
  intro chip hchip
  -- A register is read word by word, so the triple of one word carries the loop.
  have hword : ∀ j, Triple (fun st => st.shadow = shadow ∧ st.otpInitialized = true)
      (Otp.readFuse (otp.rom before) j)
      (fun w st => w = before j ∧ st.shadow = shadow ∧ st.otpInitialized = true)
      (fun _ _ => ¬otp.AccessesSucceed) := by
    intro j st hst
    have hrun : Otp.readFuse (otp.rom before) j st
        = (if (otp.rom before).fuseRead st.calls j = kbStatusSuccess then
            pure ((otp.rom before).fuse j)
          else Exec.fail { status := (otp.rom before).fuseRead st.calls j } :
            Exec Otp.Error RomState UInt32) { st with calls := st.calls + 1 } := rfl
    rw [hrun, hreads.fuse before]
    by_cases hs : (otp.rom before).fuseRead st.calls j = kbStatusSuccess
    · rw [if_pos hs]
      exact ⟨rfl, hst⟩
    · rw [if_neg hs]
      exact fun h => hs (h.fuseRead _ _ _)
  have hread : Triple (InPress shadow before) (onRom (OtpFuses.read (otp.rom before) register))
      (fun data chip => data = registerBytes before register ∧ InPress shadow before chip)
      (fun _ => Failed otp before) :=
    Triple.zoom (otpWordsToData_triple_eq hword _ _) (fun _ h => ⟨h.shadow, h.driver⟩)
      (fun _ _ _ h hdata => ⟨hdata.1, hdata.2.1, hdata.2.2, h.fuses⟩)
      (fun _ _ h hfail => ⟨h.fuses, hfail⟩)
  have hrun : OtpInterface.read otp register chip
      = onRom (OtpFuses.read (otp.rom chip.fuses) register) chip := rfl
  rw [hrun, hchip.fuses]
  exact hread chip hchip

/-- Programming one word. -/
theorem writeFuse_triple (hprograms : otp.Programs) (addr : Nat) (data : UInt32) (lock : Bool) :
    Triple (InPress shadow before) (Otp.writeFuse otp addr data lock)
      (fun _ chip => ∃ after, Programmed [(addr, data)] before after ∧
        InPress shadow after chip)
      (fun _ chip => ∃ after, Attempted [(addr, data)] before after ∧ Failed otp after chip) := by
  intro chip hchip
  obtain ⟨hshadow, hdriver, rfl⟩ := hchip
  have hothers : ∀ i, i ∉ [(addr, data)].map Prod.fst →
      (otp.fuseProgram chip.rom.calls chip.fuses addr data lock).2 i = chip.fuses i :=
    fun i hi => hprograms.others _ _ _ _ _ i fun h => hi (h ▸ List.mem_singleton_self _)
  have hrun : Otp.writeFuse otp addr data lock chip
      = (if (otp.fuseProgram chip.rom.calls chip.fuses addr data lock).1 = kbStatusSuccess then
          pure ()
        else Exec.fail
          { status := (otp.fuseProgram chip.rom.calls chip.fuses addr data lock).1 } :
          Exec Otp.Error Chip Unit)
        { fuses := (otp.fuseProgram chip.rom.calls chip.fuses addr data lock).2
          rom := { chip.rom with calls := chip.rom.calls + 1 } } := rfl
  rw [hrun]
  -- A success has set every bit. A failure has set some of them, and there is a ROM that fails.
  by_cases hs : (otp.fuseProgram chip.rom.calls chip.fuses addr data lock).1 = kbStatusSuccess
  · rw [if_pos hs]
    refine ⟨_, ⟨?_, hothers⟩, hshadow, hdriver, rfl⟩
    intro i w hw
    obtain ⟨rfl, rfl⟩ := Prod.mk.inj (List.mem_singleton.mp hw)
    exact hprograms.sets _ _ _ _ _ hs
  · rw [if_neg hs]
    refine ⟨_, ⟨?_, hothers⟩, rfl, fun h => hs (h.fuseProgram _ _ _ _ _)⟩
    intro i w hw
    obtain ⟨rfl, rfl⟩ := Prod.mk.inj (List.mem_singleton.mp hw)
    exact ⟨hprograms.keeps _ _ _ _ _, hprograms.within _ _ _ _ _⟩

/-- Programming words at different indices, one after the other. -/
theorem writeWords_triple (hprograms : otp.Programs) (lock : Bool)
    (words : List (Nat × UInt32)) (hnodup : (words.map Prod.fst).Nodup) :
    Triple (InPress shadow before)
      (words.forM fun (otpWordI, word) =>
        Exec.mapError OtpError.Inner (Otp.writeFuse otp otpWordI word lock))
      (fun _ chip => ∃ after, Programmed words before after ∧ InPress shadow after chip)
      (fun _ chip => ∃ after, Attempted words before after ∧ Failed otp after chip) := by
  induction words generalizing before with
  | nil => exact Triple.pure _ fun chip hchip => ⟨before, .nil before, hchip⟩
  | cons p words ih =>
      obtain ⟨i, w⟩ := p
      rw [List.map_cons, List.nodup_cons] at hnodup
      have hfirst : Triple (InPress shadow before)
          (Exec.mapError OtpError.Inner (Otp.writeFuse otp i w lock))
          (fun _ chip => ∃ after, Programmed [(i, w)] before after ∧ InPress shadow after chip)
          (fun _ chip => ∃ after, Attempted [(i, w)] before after ∧ Failed otp after chip) :=
        (writeFuse_triple hprograms i w lock).mapError
      refine Triple.bind (hfirst.mono_crash ?_) fun _ => ?_
      · -- The first word fails, and the others are not tried.
        rintro _ chip ⟨after, hafter, hfailed⟩
        exact ⟨after, hafter.cons hnodup.1 (.refl words after), hfailed⟩
      · refine Triple.exists_pre fun middle hmiddle => ?_
        refine (ih hnodup.2).conseq (fun _ h => h) ?_ ?_
        · rintro _ chip ⟨after, hafter, hchip⟩
          exact ⟨after, hmiddle.cons hnodup.1 hafter, hchip⟩
        · rintro _ chip ⟨after, hafter, hfailed⟩
          exact ⟨after, hmiddle.attempted.cons hnodup.1 hafter, hfailed⟩

/-- A write of a register to the fuses. -/
theorem write_triple (hprograms : otp.Programs) (lock : Bool) (register : Register)
    (data : List UInt8) :
    Triple (InPress shadow before)
      (OtpInterface.write otp (.writable lock) register data)
      (fun _ chip => ∃ after, Programmed (dataToOtpWords register.address data) before after ∧
        InPress shadow after chip)
      (fun _ chip => ∃ after, Attempted (dataToOtpWords register.address data) before after ∧
        Failed otp after chip) := by
  refine writeWords_triple hprograms lock _ ?_
  rw [map_fst_dataToOtpWords]
  exact List.nodup_range'

end Accesses

/-! ### The root key hash in the fuses -/

/-- The words of a root key hash. -/
def Rkth.words (rkth : Rkth) : List (Nat × UInt32) :=
  dataToOtpWords Register.rkth.address rkth.val

/-- The indices of the words. -/
theorem Rkth.map_fst_words (rkth : Rkth) : rkth.words.map Prod.fst = List.range' 120 8 := by
  rw [Rkth.words, map_fst_dataToOtpWords, rkth.property]
  rfl

/-- Every index has a word. -/
theorem Rkth.exists_word (rkth : Rkth) {i : Nat} (hi : i ∈ List.range' 120 8) :
    ∃ w, (i, w) ∈ rkth.words := by
  rw [← rkth.map_fst_words] at hi
  obtain ⟨⟨j, w⟩, hw, rfl⟩ := List.mem_map.mp hi
  exact ⟨w, hw⟩

/-- The words are at these indices. -/
theorem Rkth.mem_range (rkth : Rkth) {i : Nat} {w : UInt32} (h : (i, w) ∈ rkth.words) :
    i ∈ List.range' 120 8 := by
  rw [← rkth.map_fst_words]
  exact List.mem_map_of_mem (f := Prod.fst) h

/-- The words of whole chunks of bytes. -/
theorem words_of_otpWordsToData {g : Nat → UInt32} (i : Nat) (data : List UInt8)
    (hlen : data.length % 4 = 0) (h : otpWordsToData (m := Id) g i data.length = data) :
    ∀ p ∈ dataToOtpWords i data, g p.1 = p.2 := by
  induction data using chunksToWords.induct generalizing i with
  | case1 => exact fun p hp => absurd hp List.not_mem_nil
  | case2 b0 | case3 b0 b1 | case4 b0 b1 b2 => simp at hlen
  | case5 b0 b1 b2 b3 rest ih =>
      obtain ⟨tail, htail⟩ : ∃ tail : List UInt8,
          tail = otpWordsToData (m := Id) g (i + 1) rest.length := ⟨_, rfl⟩
      -- The first word is the first four bytes, and the other words are the other bytes.
      have hsplit : toLe (g i) ++ tail = [b0, b1, b2, b3] ++ rest := by
        rw [htail]
        exact h
      obtain ⟨hword, hrest⟩ := List.append_inj hsplit rfl
      have hi : g i = fromLe b0 b1 b2 b3 := by
        rw [← fromLe_toLe (g i)]
        simp only [toLe, List.cons.injEq, and_true] at hword
        obtain ⟨h0, h1, h2, h3⟩ := hword
        rw [h0, h1, h2, h3]
      intro p hp
      rw [dataToOtpWords_cons] at hp
      rcases List.mem_cons.mp hp with rfl | hp
      · exact hi
      · exact ih (i + 1) (by simp only [List.length_cons] at hlen; omega) (htail ▸ hrest) p hp

/-- The fuses hold a root key hash when they hold its words. -/
theorem registerBytes_rkth_iff (fuses : Fuses) (rkth : Rkth) :
    registerBytes fuses .rkth = rkth.val ↔ ∀ i w, (i, w) ∈ rkth.words → fuses i = w := by
  have hlen : Register.rkth.size = rkth.val.length := rkth.property.symm
  constructor
  · intro h i w hw
    refine words_of_otpWordsToData _ _ (by rw [rkth.property]; rfl) ?_ (i, w) hw
    rw [← hlen]
    exact h
  · intro h
    -- Words that hold the hash are read back as the hash.
    have hdata : otpWordsToData (fun j => (.ok (fuses j) : Except Unit UInt32))
        Register.rkth.address rkth.val.length = .ok rkth.val :=
      otpWordsToData_of_words fun p hp => by rw [h p.1 p.2 hp]
    rw [otpWordsToData_pure fun j _ _ => rfl, ← hlen] at hdata
    exact Except.ok.inj hdata

/-! ### A long press

The hash goes first, word by word, and then the boot configuration, which is one word.
`burnRkth_triple` and `burnBootCfg0_triple` are these two parts. Between two presses the chip is
idle, which is what `BetweenPresses` says. -/

/-- The word of `BOOT_CFG0` behind a press. -/
def bootCfg0Behind (enabled : Fin 4) (bootCfg0 : UInt32) : UInt32 :=
  if bootCfg0 = 0 then provisionedBootCfg0 enabled else bootCfg0

/-- What a whole press leaves of the fuses. -/
structure Pressed (rkth : Rkth) (enabled : Fin 4) (before after : Fuses) : Prop where
  hash : ∀ i w, (i, w) ∈ rkth.words → after i = before i ||| w
  bootCfg0 : after 96 = bootCfg0Behind enabled (before 96)
  others : ∀ i, i ≠ 96 → i ∉ rkth.words.map Prod.fst → after i = before i

/-- What a press leaves of the fuses that may have ended in the middle. -/
structure PartlyPressed (rkth : Rkth) (enabled : Fin 4) (before after : Fuses) : Prop where
  hash : ∀ i w, (i, w) ∈ rkth.words → Burned w (before i) (after i)
  bootCfg0 : BitsOf (before 96) (after 96) ∧
    BitsOf (after 96) (bootCfg0Behind enabled (before 96))
  /-- The hash is complete before the configuration is touched. -/
  order : after 96 ≠ before 96 → ∀ i w, (i, w) ∈ rkth.words → after i = before i ||| w
  others : ∀ i, i ≠ 96 → i ∉ rkth.words.map Prod.fst → after i = before i

section Presses

variable {rkth : Rkth} {enabled : Fin 4} {before middle after : Fuses}

/-- `BOOT_CFG0` is not a word of the hash. -/
theorem Rkth.bootCfg0_notMem (rkth : Rkth) : 96 ∉ rkth.words.map Prod.fst := by
  rw [rkth.map_fst_words]
  decide

/-- The same, for one word of the hash. -/
theorem Rkth.ne_bootCfg0 {i : Nat} {w : UInt32} (h : (i, w) ∈ rkth.words) : i ≠ 96 := by
  intro hi
  exact rkth.bootCfg0_notMem (hi ▸ List.mem_map_of_mem (f := Prod.fst) h)

/-- The configuration that a press programs is not blank, whatever level it enables. -/
theorem provisionedBootCfg0_ne (enabled : Fin 4) : provisionedBootCfg0 enabled ≠ 0 := by
  revert enabled
  decide

/-- The configuration that a press programs enables secure boot, unless the level is 0. -/
theorem secureBootEn_provisioned (henabled : enabled ≠ 0) :
    secureBootEn (provisionedBootCfg0 enabled) = .Enabled := by
  revert enabled
  decide

/-- Behind a press the configuration is not blank. -/
theorem bootCfg0Behind_ne (enabled : Fin 4) (bootCfg0 : UInt32) :
    bootCfg0Behind enabled bootCfg0 ≠ 0 := by
  unfold bootCfg0Behind
  by_cases h : bootCfg0 = 0
  · rw [if_pos h]
    exact provisionedBootCfg0_ne enabled
  · rw [if_neg h]
    exact h

/-- The configuration only gains bits. -/
theorem bitsOf_bootCfg0Behind (enabled : Fin 4) (bootCfg0 : UInt32) :
    BitsOf bootCfg0 (bootCfg0Behind enabled bootCfg0) := by
  unfold bootCfg0Behind
  by_cases h : bootCfg0 = 0
  · rw [if_pos h, h]
    exact UInt32.zero_or
  · rw [if_neg h]
    exact .refl _

/-- A configuration that is not blank stays as it is. -/
theorem bootCfg0Behind_of_ne {bootCfg0 : UInt32} (h : bootCfg0 ≠ 0) :
    bootCfg0Behind enabled bootCfg0 = bootCfg0 := if_neg h

/-- A whole press is a special case of one that may have ended in the middle. -/
theorem Pressed.partly (h : Pressed rkth enabled before after) :
    PartlyPressed rkth enabled before after where
  hash i w hw := h.hash i w hw ▸ .full w (before i)
  bootCfg0 := by
    rw [h.bootCfg0]
    exact ⟨bitsOf_bootCfg0Behind enabled _, .refl _⟩
  order _ := h.hash
  others := h.others

namespace PartlyPressed

/-- No press at all. -/
theorem refl (rkth : Rkth) (enabled : Fin 4) (fuses : Fuses) :
    PartlyPressed rkth enabled fuses fuses where
  hash i w _ := .refl w (fuses i)
  bootCfg0 := ⟨.refl _, bitsOf_bootCfg0Behind enabled _⟩
  order h := absurd rfl h
  others _ _ _ := rfl

/-- A configuration that is not blank is not touched. -/
theorem bootCfg0_eq (h : PartlyPressed rkth enabled before after) (hne : before 96 ≠ 0) :
    after 96 = before 96 := by
  have hwithin := h.bootCfg0.2
  rw [bootCfg0Behind_of_ne hne] at hwithin
  exact hwithin.antisymm h.bootCfg0.1

/-- Presses with the same hash, one after the other. -/
theorem trans (h : PartlyPressed rkth enabled before middle)
    (h' : PartlyPressed rkth enabled middle after) : PartlyPressed rkth enabled before after where
  hash i w hw := by
    have hb := h.hash i w hw
    have hm := h'.hash i w hw
    refine ⟨hb.keeps.trans hm.keeps, hm.within.trans ?_⟩
    exact hb.within.or (.or_right _ _)
  bootCfg0 := by
    refine ⟨h.bootCfg0.1.trans h'.bootCfg0.1, ?_⟩
    by_cases hmiddle : middle 96 = 0
    · -- Nothing was there in the middle, so nothing was there before.
      have hbefore : before 96 = 0 := by
        have hkeeps : before 96 ||| middle 96 = middle 96 := h.bootCfg0.1
        rw [hmiddle, UInt32.or_zero] at hkeeps
        exact hkeeps
      rw [hbefore, ← hmiddle]
      exact h'.bootCfg0.2
    · rw [h'.bootCfg0_eq hmiddle]
      exact h.bootCfg0.2
  order hne := by
    intro i w hw
    have hb := h.hash i w hw
    have hm := h'.hash i w hw
    by_cases hmiddle : middle 96 = before 96
    · -- The second press has touched the configuration.
      rw [h'.order (fun heq => hne (heq.trans hmiddle)) i w hw]
      exact (hb.within.or (.or_right _ _)).antisymm
        ((hb.keeps.trans (.or_left _ _)).or (.or_right _ _))
    · -- The first one has, and the second one finds the hash complete.
      have hfull := h.order hmiddle i w hw
      rw [← hfull]
      exact hm.eq_of_bitsOf (hfull ▸ .or_right _ _)
  others i hi hwords := (h'.others i hi hwords).trans (h.others i hi hwords)

/-- No bit is cleared. -/
theorem keeps (h : PartlyPressed rkth enabled before after) (i : Nat) :
    BitsOf (before i) (after i) := by
  by_cases hi : i = 96
  · subst hi
    exact h.bootCfg0.1
  · by_cases hwords : i ∈ rkth.words.map Prod.fst
    · obtain ⟨⟨j, w⟩, hw, rfl⟩ := List.mem_map.mp hwords
      exact (h.hash j w hw).keeps
    · rw [h.others i hi hwords]
      exact .refl _

end PartlyPressed

/-- A further press with the same hash changes nothing. -/
theorem Pressed.again (h : Pressed rkth enabled before middle)
    (h' : PartlyPressed rkth enabled middle after) : Pressed rkth enabled before after where
  hash i w hw := by
    have hfull := h.hash i w hw
    rw [← hfull]
    exact (h'.hash i w hw).eq_of_bitsOf (hfull ▸ .or_right _ _)
  bootCfg0 := by
    have hne : middle 96 ≠ 0 := by
      rw [h.bootCfg0]
      exact bootCfg0Behind_ne enabled _
    rw [h'.bootCfg0_eq hne, h.bootCfg0]
  others i hi hwords := (h'.others i hi hwords).trans (h.others i hi hwords)

end Presses

section Run

variable {otp : OtpRom} {shadow : Shadow} {before : Fuses} {rkth : Rkth} {enabled : Fin 4}

/-- The words of the hash without a set bit. -/
theorem Rkth.newZero_words : ∀ p ∈ Rkth.newZero.words, p.2 = 0 := by
  decide

/-- The fuses hold no hash. -/
theorem registerBytes_newZero_iff (fuses : Fuses) :
    registerBytes fuses .rkth = Rkth.newZero.val ↔ ∀ i ∈ List.range' 120 8, fuses i = 0 := by
  rw [registerBytes_rkth_iff]
  constructor
  · intro h i hi
    obtain ⟨w, hw⟩ := Rkth.newZero.exists_word hi
    rw [h i w hw]
    exact Rkth.newZero_words (i, w) hw
  · intro h i w hw
    rw [h i (Rkth.newZero.mem_range hw)]
    exact (Rkth.newZero_words (i, w) hw).symm

/-- A hash without a set bit is no hash. -/
theorem Rkth.eq_newZero_iff : rkth = Rkth.newZero ↔ ∀ i w, (i, w) ∈ rkth.words → w = 0 := by
  constructor
  · rintro rfl i w hw
    exact Rkth.newZero_words (i, w) hw
  · intro h
    have hzero := (registerBytes_newZero_iff fun _ => 0).mpr fun _ _ => rfl
    have hrkth := (registerBytes_rkth_iff (fun _ => 0) rkth).mpr fun i w hw => (h i w hw).symm
    exact Subtype.ext (hrkth.symm.trans hzero)

/-- The first half of a press. The two cases in which nothing is written are those in which
a write would change nothing. -/
theorem burnRkth_triple (hprograms : otp.Programs) (hreads : otp.ReadsFuses)
    (hshadow : shadow.rkth = .ok rkth.val) :
    Triple (InPress shadow before) (Application.burnRkth otp)
      (fun _ chip => ∃ after, Programmed rkth.words before after ∧ InPress shadow after chip)
      (fun _ chip => ∃ after, Attempted rkth.words before after ∧ Failed otp after chip) := by
  have hread : Triple (InPress shadow before) (onRom (ShadowRegisters.read .rkth))
      (fun data chip => data = rkth.val ∧ InPress shadow before chip)
      (fun _ chip => ∃ after, Attempted rkth.words before after ∧ Failed otp after chip) := by
    intro chip hchip
    have hdata : chip.rom.shadow.readRegister Register.rkth.address Register.rkth.size
        = .ok rkth.val := by
      rw [hchip.shadow]
      exact hshadow
    have hrun : onRom (ShadowRegisters.read .rkth) chip = .ok rkth.val chip :=
      Exec.zoom_ok (f := id) (read_run hdata)
    rw [hrun]
    exact ⟨rfl, hchip⟩
  have hfuses : Triple (InPress shadow before) (OtpInterface.read otp .rkth)
      (fun data chip => data = registerBytes before .rkth ∧ InPress shadow before chip)
      (fun _ chip => ∃ after, Attempted rkth.words before after ∧ Failed otp after chip) :=
    (read_triple hreads .rkth).mono_crash fun _ chip hfailed => ⟨before, .refl _ _, hfailed⟩
  have hdone : Programmed rkth.words before before →
      Triple (InPress shadow before) (pure () : Exec Empty Chip Unit)
        (fun _ chip => ∃ after, Programmed rkth.words before after ∧ InPress shadow after chip)
        (fun _ chip => ∃ after, Attempted rkth.words before after ∧ Failed otp after chip) :=
    fun h => Triple.pure _ fun chip hchip => ⟨before, h, hchip⟩
  unfold Application.burnRkth
  refine Triple.bind hread.unwrap fun data => ?_
  rintro chip ⟨rfl, hchip⟩
  refine Triple.bind hfuses.unwrap (fun data => ?_) chip hchip
  rintro chip ⟨rfl, hchip⟩
  by_cases hne : registerBytes before .rkth ≠ rkth.val
  · rw [if_pos hne]
    by_cases hzero : rkth.val = Rkth.newZero.val
    · rw [if_pos hzero]
      refine hdone (.of_bitsOf fun i w hw => ?_) chip hchip
      have hw0 : w = 0 := Rkth.newZero_words (i, w) (Subtype.ext hzero ▸ hw)
      rw [hw0]
      exact UInt32.zero_or
    · rw [if_neg hzero]
      exact (write_triple hprograms false .rkth rkth.val).unwrap chip hchip
  · -- The fuses hold the hash already.
    rw [if_neg hne]
    refine hdone (.of_bitsOf fun i w hw => ?_) chip hchip
    rw [(registerBytes_rkth_iff before rkth).mp (not_not.mp hne) i w hw]
    exact .refl w

/-- The second half of a press. -/
theorem burnBootCfg0_triple (hprograms : otp.Programs) (hreads : otp.ReadsFuses) :
    Triple (InPress shadow before) (Application.burnBootCfg0 otp enabled)
      (fun _ chip => ∃ after, (after 96 = bootCfg0Behind enabled (before 96) ∧
        ∀ i, i ≠ 96 → after i = before i) ∧ InPress shadow after chip)
      (fun _ chip => ∃ after, ((BitsOf (before 96) (after 96) ∧
        BitsOf (after 96) (bootCfg0Behind enabled (before 96))) ∧
        ∀ i, i ≠ 96 → after i = before i) ∧ Failed otp after chip) := by
  unfold Application.burnBootCfg0
  refine Triple.bind ((read_triple hreads .bootCfg0).mono_crash
    fun _ chip hfailed => ⟨before, ⟨⟨.refl _, bitsOf_bootCfg0Behind enabled _⟩,
      fun _ _ => rfl⟩, hfailed⟩).unwrap fun data => ?_
  rintro chip ⟨rfl, hchip⟩
  have hword : u32At (registerBytes before .bootCfg0) 0 = before 96 :=
    u32At_toLe_append (before 96) []
  rw [hword]
  -- A configuration that is set is left alone, with the message that the source logs.
  by_cases hne : before 96 ≠ 0
  · rw [if_pos hne]
    exact ⟨before, ⟨(bootCfg0Behind_of_ne hne).symm, fun _ _ => rfl⟩, hchip⟩
  · have hzero : before 96 = 0 := not_not.mp hne
    have hbehind : bootCfg0Behind enabled (before 96) = provisionedBootCfg0 enabled := if_pos hzero
    have hwords : dataToOtpWords 96 (toLe (provisionedBootCfg0 enabled))
        = [(96, provisionedBootCfg0 enabled)] :=
      congrArg (fun w => [(96, w)]) (fromLe_toLe _)
    have hothers : ∀ after : Fuses,
        (∀ i, i ∉ [(96, provisionedBootCfg0 enabled)].map Prod.fst → after i = before i) →
          ∀ i, i ≠ 96 → after i = before i :=
      fun after h i hi => h i fun hmem => hi (List.mem_singleton.mp hmem)
    rw [if_neg hne]
    refine ((write_triple hprograms false .bootCfg0 _).unwrap.conseq (fun _ h => h) ?_ ?_)
      chip hchip
    · -- The fuse was blank, so it holds the new configuration as it is.
      rintro _ chip ⟨after, hafter, hchip⟩
      rw [show Register.bootCfg0.address = 96 from rfl, hwords] at hafter
      refine ⟨after, ⟨?_, hothers after hafter.others⟩, hchip⟩
      rw [hbehind, hafter.word 96 _ (List.mem_singleton_self _), hzero]
      exact UInt32.zero_or
    · -- It failed, and holds some bits of the new configuration and no other ones.
      rintro _ chip ⟨after, hafter, hfailed⟩
      rw [show Register.bootCfg0.address = 96 from rfl, hwords] at hafter
      refine ⟨after, ⟨⟨hafter.keeps 96, ?_⟩, hothers after hafter.others⟩, hfailed⟩
      have hwithin := (hafter.word 96 _ (List.mem_singleton_self _)).within
      rw [hzero, UInt32.zero_or] at hwithin
      rw [hbehind]
      exact hwithin

/-- The application between two presses: the driver is free, and the shadow registers hold the
hash. -/
structure BetweenPresses (rkth : Rkth) (fuses : Fuses) (chip : Chip) : Prop where
  rkth : chip.rom.shadow.rkth = .ok rkth.val
  driver : chip.rom.otpInitialized = false
  fuses : chip.fuses = fuses

/-- The second half of a press leaves the words of the hash as the first half has made them. -/
theorem words_behind {middle after : Fuses}
    (h : Programmed rkth.words before middle) (hothers : ∀ i, i ≠ 96 → after i = middle i)
    (i : Nat) (w : UInt32) (hw : (i, w) ∈ rkth.words) : after i = before i ||| w := by
  rw [hothers i (rkth.ne_bootCfg0 hw), h.word i w hw]

/-- A long press. -/
theorem longPress_triple (hprograms : otp.Programs) (hreads : otp.ReadsFuses) :
    Triple (BetweenPresses rkth before) (Application.longPress otp enabled)
      (fun _ chip => ∃ after, Pressed rkth enabled before after ∧
        BetweenPresses rkth after chip)
      (fun _ chip => ∃ after, PartlyPressed rkth enabled before after ∧
        Failed otp after chip) := by
  intro chip hchip
  -- The flag of the driver is clear between two presses, so `init` does not panic.
  have hinit : (onRom Otp.init : Exec Empty Chip Unit) chip
      = .ok () { chip with rom :=
          { chip.rom with otpInitialized := true, calls := chip.rom.calls + 1 } } := by
    refine Exec.zoom_ok (f := id) ?_
    unfold Otp.init
    rw [Exec.get_bind, if_neg (by simp [hchip.driver])]
    rfl
  unfold Application.longPress
  rw [Exec.bind_ok hinit]
  have hpress : InPress chip.rom.shadow before { chip with rom :=
      { chip.rom with otpInitialized := true, calls := chip.rom.calls + 1 } } :=
    ⟨rfl, rfl, hchip.fuses⟩
  refine Triple.bind (R := fun _ chip' => ∃ middle, Programmed rkth.words before middle ∧
      InPress chip.rom.shadow middle chip')
    ((burnRkth_triple hprograms hreads hchip.rkth).mono_crash ?_)
    (fun _ => ?_) _ hpress
  · -- The hash is not complete, and the configuration is untouched.
    rintro _ chip' ⟨after, hafter, hfailed⟩
    have h96 : after 96 = before 96 := hafter.others 96 rkth.bootCfg0_notMem
    refine ⟨after, ⟨hafter.word, ?_, fun hne => absurd h96 hne,
      fun i _ hi => hafter.others i hi⟩, hfailed⟩
    rw [h96]
    exact ⟨.refl _, bitsOf_bootCfg0Behind enabled _⟩
  · refine Triple.exists_pre fun middle hmiddle => ?_
    have h96 : middle 96 = before 96 := hmiddle.others 96 rkth.bootCfg0_notMem
    refine Triple.bind ((burnBootCfg0_triple hprograms hreads).mono_crash ?_) fun _ => ?_
    · -- The hash is complete. What is missing is a part of the configuration.
      rintro _ chip' ⟨after, ⟨hcfg, hothers⟩, hfailed⟩
      rw [h96] at hcfg
      have hword := words_behind hmiddle hothers
      exact ⟨after, ⟨fun i w hw => hword i w hw ▸ .full w (before i), hcfg, fun _ => hword,
        fun i hi hwords => (hothers i hi).trans (hmiddle.others i hwords)⟩, hfailed⟩
    · -- A whole press. `drop` clears the flag for the next one.
      rintro chip' ⟨after, ⟨hcfg, hothers⟩, hchip'⟩
      rw [h96] at hcfg
      refine ⟨after, ⟨words_behind hmiddle hothers, hcfg,
        fun i hi hwords => (hothers i hi).trans (hmiddle.others i hwords)⟩, ?_, rfl, hchip'.fuses⟩
      show Shadow.rkth chip'.rom.shadow = _
      rw [hchip'.shadow]
      exact hchip.rkth

variable (enabled) in
/-- Long presses. -/
theorem longPresses_triple (hprograms : otp.Programs) (hreads : otp.ReadsFuses) (presses : Nat) :
    Triple (BetweenPresses rkth before) (Application.longPresses otp enabled presses)
      (fun _ chip => ∃ after, (PartlyPressed rkth enabled before after ∧
        (0 < presses → Pressed rkth enabled before after)) ∧ BetweenPresses rkth after chip)
      (fun _ chip => ∃ after, PartlyPressed rkth enabled before after ∧
        Failed otp after chip) := by
  -- Induction on the number of presses. A further press adds nothing to one that came to its end.
  induction presses generalizing before with
  | zero =>
      refine Triple.pure _ fun chip hchip => ?_
      exact ⟨before, ⟨.refl rkth enabled before, fun h => absurd h (Nat.lt_irrefl 0)⟩, hchip⟩
  | succ presses ih =>
      refine Triple.bind (longPress_triple hprograms hreads) fun _ => ?_
      refine Triple.exists_pre fun middle hmiddle => ?_
      refine ih.conseq (fun _ h => h) ?_ ?_
      · rintro _ chip ⟨after, ⟨hafter, -⟩, hchip⟩
        have hpressed := hmiddle.again hafter
        exact ⟨after, ⟨hpressed.partly, fun _ => hpressed⟩, hchip⟩
      · rintro _ chip ⟨after, hafter, hfailed⟩
        exact ⟨after, hmiddle.partly.trans hafter, hfailed⟩

variable (enabled) in
/-- Long presses with accesses that all succeed. -/
theorem longPresses_ok (hprograms : otp.Programs) (hreads : otp.ReadsFuses)
    (haccess : otp.AccessesSucceed) {presses : Nat} (hpresses : 0 < presses) {chip : Chip}
    (hchip : BetweenPresses rkth before chip) :
    ∃ chip', Application.longPresses otp enabled presses chip = .ok () chip' ∧
      Pressed rkth enabled before chip'.fuses := by
  have h := longPresses_triple enabled hprograms hreads presses chip hchip
  cases hrun : Application.longPresses otp enabled presses chip with
  | ok u chip' =>
      rw [hrun] at h
      obtain ⟨after, ⟨-, hpressed⟩, hchip'⟩ := h
      exact ⟨chip', rfl, hchip'.fuses ▸ hpressed hpresses⟩
  -- A run fails only if an access has failed.
  | error e chip' =>
      rw [hrun] at h
      obtain ⟨after, -, hfailed⟩ := h
      exact absurd haccess hfailed.2

/-- The fuses behind long presses, however they have ended. -/
theorem longPresses_partly (hprograms : otp.Programs) (hreads : otp.ReadsFuses) (presses : Nat)
    {chip : Chip} (hchip : BetweenPresses rkth before chip) :
    PartlyPressed rkth enabled before
      (fusesBehind (Application.longPresses otp enabled presses chip)) := by
  have h := longPresses_triple enabled hprograms hreads presses chip hchip
  cases hrun : Application.longPresses otp enabled presses chip with
  | ok u chip' =>
      rw [hrun] at h
      obtain ⟨after, ⟨hpartly, -⟩, hchip'⟩ := h
      rw [← hchip'.fuses] at hpartly
      exact hpartly
  | error e chip' =>
      rw [hrun] at h
      obtain ⟨after, hpartly, hfailed⟩ := h
      rw [← hfailed.1] at hpartly
      exact hpartly

end Run

/-! ### Power cycles

A cycle checks an image, which chooses the hash in the shadow registers, and then makes its presses.
`KeyStep` is what a cycle may do to the fuses, with the hash that was chosen in it. The session of
the ROM keeps the hash, so it is still the chosen one when the button is pressed. -/

/-- `skboot.authenticate` leaves the root key hash in the shadow registers as it is. -/
def Rom.KeepsRkth (rom : Rom) : Prop :=
  ∀ calls a, (rom.authenticate calls a).shadow.rkth = a.shadow.rkth

/-- What the program relies on in a power cycle. -/
structure KeyCycle.Lawful (cycle : KeyCycle) : Prop where
  programs : cycle.otp.Programs
  reads : cycle.otp.ReadsFuses
  keepsRkth : ∀ fuses, (cycle.otp.rom fuses).KeepsRkth

/-- The hash of the image. -/
def KeyCycle.rkth (cycle : KeyCycle) : Except (Fault BootError) Rkth :=
  imageRkth (cycle.soc fun _ => 0) cycle.ramIvt cycle.image

section Check

variable {soc : Soc} {ramIvt : Ivt} {image : List UInt8} {st st' : RomState}

/-- The record is `log`, and the hash in the shadow registers is the one of the call `a`. -/
def HashOf (log : List AuthenticateCall) (a : AuthenticateCall) (st : RomState) : Prop :=
  st.authentications = log ∧ st.shadow.rkth = a.shadow.rkth

/-- The session leaves the hash and the record as they are. -/
theorem authenticateSession_keeps {rom : Rom} (hkeeps : rom.KeepsRkth)
    (log : List AuthenticateCall) (a : AuthenticateCall) :
    Triple (HashOf log a) (authenticateSession rom a) (fun _ => HashOf log a)
      (fun _ => HashOf log a) := by
  have hcall : Triple (HashOf log a) (romCall : Exec AuthenticateError RomState Nat)
      (fun _ => HashOf log a) (fun _ => HashOf log a) := fun _ hst => hst
  have hfail : Triple (HashOf log a) (Exec.fail .Fail : Exec AuthenticateError RomState Unit)
      (fun _ => HashOf log a) (fun _ => HashOf log a) := fun _ hst => hst
  -- Three ROM calls. The one in the middle may write to the shadow registers, but not to the hash.
  apply Triple.bind hcall
  intro call
  split
  · exact hfail
  · apply Triple.bind hcall
    intro call
    have hmodify : Triple (HashOf log a)
        (modify fun st => { st with shadow := (rom.authenticate call a).shadow } :
          Exec AuthenticateError RomState Unit)
        (fun _ => HashOf log a) (fun _ => HashOf log a) :=
      fun st hst => ⟨hst.1, hkeeps call a⟩
    apply Triple.bind hmodify
    intro _
    apply Triple.bind hcall
    intro call'
    split
    · exact hfail
    · generalize authenticateResult _ _ = result
      intro st hst
      cases result with
      | ok _ => exact hst
      | error e => exact hst

/-- A check that returns ends with an authentication, and the hash that it found is still in the
shadow registers. -/
theorem checkImage_keeps (hkeeps : soc.rom.KeepsRkth) {u : Unit}
    (hrun : checkImage soc ramIvt image st = .ok u st') :
    ∃ log a, st'.authentications = log ++ [a] ∧ st'.shadow.rkth = a.shadow.rkth := by
  unfold checkImage at hrun
  obtain ⟨_, _, -, hrun⟩ := Exec.bind_eq_ok hrun
  obtain ⟨_, _, -, hrun⟩ := Exec.bind_eq_ok hrun
  obtain ⟨_, _, -, hrun⟩ := Exec.bind_eq_ok hrun
  obtain ⟨_, _, -, hrun⟩ := Exec.bind_eq_ok hrun
  obtain ⟨_, _, -, hrun⟩ := Exec.bind_eq_ok hrun
  obtain ⟨_, st₁, -, hrun⟩ := Exec.bind_eq_ok hrun
  -- The record of the call that the run ends with.
  let a : AuthenticateCall :=
    { start := ramIvt.targetPtr, maxImageLength := ramIvt.imageLen, rhk := none, image
      shadow := st₁.shadow }
  have hsession := (authenticateSession_keeps hkeeps (st₁.authentications ++ [a]) a).mapError
    (f := fun _ : AuthenticateError => BootError.Authenticate)
  have h := hsession.of_ok (s := { st₁ with authentications := st₁.authentications ++ [a] })
    ⟨rfl, rfl⟩ hrun
  exact ⟨st₁.authentications, a, h.1, h.2⟩

end Check

/-- What a power cycle does. -/
structure KeyStep (enabled : Fin 4) (cycle : KeyCycle) (r : KeyCycleResult) : Prop where
  trusted : ∀ a ∈ r.authentications, ∃ image, cycle.rkth = .ok image ∧
    Trusted cycle.build r.before image a.shadow
  /-- Without a press in a running application nothing is written. -/
  kept : r.accepted = false ∨ cycle.longPresses = 0 → r.fuses = r.before
  /-- The application burns the hash that the check has left in the shadow registers. -/
  pressed : r.accepted = true → ∃ image rkth : Rkth, cycle.rkth = .ok image ∧
    rkth.val = (if devMode r.before then image.val else registerBytes r.before .rkth) ∧
    PartlyPressed rkth enabled r.before r.fuses ∧
    (0 < cycle.longPresses → cycle.otp.AccessesSucceed → Pressed rkth enabled r.before r.fuses)

section Cycles

variable {enabled : Fin 4} {cycle : KeyCycle} {fuses : Fuses}

/-- What is read from the shadow registers is a hash. -/
theorem exists_rkth {shadow : Shadow} {data : List UInt8} (h : shadow.rkth = .ok data) :
    ∃ rkth : Rkth, rkth.val = data := by
  obtain ⟨data', hdata, hlen⟩ := Shadow.readRegister_ok rkth_mapped shadow
  have heq : data' = data := Except.ok.inj (hdata.symm.trans h)
  exact ⟨⟨data', hlen⟩, heq⟩

/-- The hash behind a check that has returned. -/
theorem KeyCycle.Lawful.shadow_rkth (h : cycle.Lawful) {st : RomState} {u : Unit}
    (hrun : checkImage (cycle.soc fuses) cycle.ramIvt cycle.image cycle.st = .ok u st) :
    ∃ image rkth : Rkth, cycle.rkth = .ok image ∧
      rkth.val = (if devMode fuses then image.val else registerBytes fuses .rkth) ∧
      st.shadow.rkth = .ok rkth.val := by
  have hkeeps : (cycle.soc fuses).rom.KeepsRkth := h.keepsRkth fuses
  obtain ⟨log, a, hlog, hhash⟩ := checkImage_keeps hkeeps hrun
  obtain ⟨fuse, image, a', hfuse, himage, htrusted, hidle⟩ :=
    (checkImage_spec (cycle.soc fuses) cycle.ramIvt cycle.image cycle.st.authentications
      cycle.st.otpInitialized).of_ok ⟨rfl, rfl⟩ hrun
  obtain rfl : fuse = fuses := (hfuse (h.reads.reloads fuses)).trans (h.reads.fuse fuses)
  -- The last call of the record is the one that both speak of.
  obtain ⟨-, ha⟩ := List.append_inj' (hlog.symm.trans hidle.1) rfl
  obtain rfl : a = a' := List.singleton_inj.mp ha
  obtain ⟨rkth, hrkth⟩ := exists_rkth htrusted.rkth
  refine ⟨image, rkth, himage, hrkth, ?_⟩
  rw [hrkth, hhash]
  exact htrusted.rkth

/-- A power cycle. -/
theorem keyCycle_step (enabled : Fin 4) (h : cycle.Lawful) (fuses : Fuses) :
    (keyCycle enabled cycle fuses).before = fuses ∧
      KeyStep enabled cycle (keyCycle enabled cycle fuses) := by
  -- Every authentication of the check is a trusted one, whether the check returns or not.
  have htrusted : ∀ {st : RomState},
      ((∃ u, checkImage (cycle.soc fuses) cycle.ramIvt cycle.image cycle.st = .ok u st) ∨
        ∃ e, checkImage (cycle.soc fuses) cycle.ramIvt cycle.image cycle.st = .error e st) →
      ∀ a ∈ st.authentications.drop cycle.st.authentications.length,
        ∃ image, cycle.rkth = .ok image ∧ Trusted cycle.build fuses image a.shadow := by
    intro st hrun a ha
    have hcheck := checkImage_authentications (h.reads.reloads fuses) _ _ hrun ha
    rw [show (cycle.soc fuses).rom.fuse = fuses from h.reads.fuse fuses] at hcheck
    exact hcheck
  unfold keyCycle
  cases hrun : checkImage (cycle.soc fuses) cycle.ramIvt cycle.image cycle.st with
  -- The image was not accepted, so the application has not run.
  | error e st =>
      refine ⟨rfl, htrusted (.inr ⟨e, hrun⟩), fun _ => rfl, ?_⟩
      intro haccepted
      cases haccepted
  -- The application runs with the hash that the check has left in the shadow registers.
  | ok u st =>
      obtain ⟨image, rkth, himage, hrkth, hshadow⟩ := h.shadow_rkth hrun
      have hchip : BetweenPresses rkth fuses
          { fuses, rom := { st with otpInitialized := false } } := ⟨hshadow, rfl, rfl⟩
      refine ⟨rfl, htrusted (.inl ⟨u, hrun⟩), ?_, ?_⟩
      · rintro (haccepted | hpresses)
        · cases haccepted
        · show fusesBehind (Application.longPresses _ _ cycle.longPresses _) = fuses
          rw [hpresses]
          rfl
      · intro _
        refine ⟨image, rkth, himage, hrkth, longPresses_partly h.programs h.reads _ hchip, ?_⟩
        intro hpresses haccess
        obtain ⟨chip', hok, hpressed⟩ := longPresses_ok enabled h.programs h.reads haccess
          hpresses hchip
        show Pressed rkth enabled fuses (fusesBehind (Application.longPresses _ _ _ _))
        rw [hok]
        exact hpressed

/-- Power cycles: each of them starts on the fuses that the one before has left. -/
theorem keyCycles_induction {P : Fuses → Prop} {cycles : List KeyCycle} (hfuses : P fuses)
    (step : ∀ cycle ∈ cycles, ∀ fuses, P fuses → P (keyCycle enabled cycle fuses).fuses) :
    ∀ r ∈ keyCycles enabled cycles fuses, P r.before ∧
      ∃ cycle ∈ cycles, r = keyCycle enabled cycle r.before := by
  induction cycles generalizing fuses with
  | nil => exact fun r hr => absurd hr List.not_mem_nil
  | cons cycle cycles ih =>
      -- A cycle starts on the fuses that it is given, whether its image is accepted or not.
      have hbefore : (keyCycle enabled cycle fuses).before = fuses := by
        unfold keyCycle
        split <;> rfl
      intro r hr
      rcases List.mem_cons.mp hr with rfl | hr
      · rw [hbefore]
        exact ⟨hfuses, cycle, List.mem_cons_self, rfl⟩
      · obtain ⟨hr, cycle', hcycle', heq⟩ := ih (step cycle List.mem_cons_self fuses hfuses)
          (fun c hc => step c (List.mem_cons_of_mem _ hc)) r hr
        exact ⟨hr, cycle', List.mem_cons_of_mem _ hcycle', heq⟩

end Cycles

/-! ### The root key in the fuses

The invariant over cycles. Blank fuses have it, and every step of a cycle with the same hash keeps
it. Behind the boot configuration the hash is complete, so a chip that enforces its fuses has a
whole key. -/

/-- The fuses hold bits of the hash only, and the whole hash once the boot configuration is
set. -/
structure HoldsKey (rkth : Rkth) (fuses : Fuses) : Prop where
  within : ∀ i w, (i, w) ∈ rkth.words → BitsOf (fuses i) w
  complete : fuses 96 ≠ 0 → ∀ i w, (i, w) ∈ rkth.words → fuses i = w

section Key

variable {enabled : Fin 4} {rkth : Rkth} {before after fuses : Fuses}

/-- Fuses without a set bit. -/
theorem HoldsKey.of_blank (hblank : ∀ i, i = 96 ∨ 120 ≤ i ∧ i < 128 → fuses i = 0) :
    HoldsKey rkth fuses where
  within i w hw := by
    have hi := rkth.mem_range hw
    rw [List.mem_range'_1] at hi
    rw [hblank i (.inr ⟨hi.1, by omega⟩)]
    exact UInt32.zero_or
  complete h := absurd (hblank 96 (.inl rfl)) h

/-- A press with the hash keeps it, wherever it ends. -/
theorem HoldsKey.press (h : HoldsKey rkth before)
    (hpress : PartlyPressed rkth enabled before after) : HoldsKey rkth after where
  within i w hw := (hpress.hash i w hw).bitsOf (h.within i w hw) (.refl w)
  complete hne i w hw := by
    by_cases heq : after 96 = before 96
    · -- The configuration was set before, and so was the hash.
      have hbefore := h.complete (heq ▸ hne) i w hw
      rw [(hpress.hash i w hw).eq_of_bitsOf (hbefore ▸ .refl _), hbefore]
    · rw [hpress.order heq i w hw]
      exact h.within i w hw

/-- With secure boot on, the configuration is not blank. -/
theorem ne_zero_of_not_devMode (h : ¬devMode fuses) : fuses 96 ≠ 0 := by
  intro hzero
  apply h
  rw [devMode, hzero]
  decide

/-- The hash that the bootloader leaves behind with secure boot on. -/
theorem HoldsKey.registerBytes (h : HoldsKey rkth fuses) (hne : fuses 96 ≠ 0) :
    registerBytes fuses .rkth = rkth.val :=
  (registerBytes_rkth_iff fuses rkth).mpr (h.complete hne)

/-- A cycle keeps the hash, if the application only burns the hash of images that carry it. -/
theorem HoldsKey.step {cycle : KeyCycle} (h : HoldsKey rkth fuses) (hlawful : cycle.Lawful)
    (hkey : 0 < cycle.longPresses → ∀ image, cycle.rkth = .ok image → image = rkth) :
    HoldsKey rkth (keyCycle enabled cycle fuses).fuses := by
  obtain ⟨hbefore, hstep⟩ := keyCycle_step enabled hlawful fuses
  by_cases hkept : (keyCycle enabled cycle fuses).accepted = false ∨ cycle.longPresses = 0
  · rw [hstep.kept hkept, hbefore]
    exact h
  · rw [not_or, Bool.not_eq_false] at hkept
    obtain ⟨image, key, himage, hval, hpartly, -⟩ := hstep.pressed hkept.1
    rw [hbefore] at hval hpartly
    have himage : image = rkth := hkey (Nat.pos_of_ne_zero hkept.2) image himage
    -- The hash in the shadow registers is the one of the image, or the one of the fuses.
    obtain rfl : key = rkth := by
      apply Subtype.ext
      rw [hval]
      by_cases hdev : devMode fuses
      · rw [if_pos hdev, himage]
      · rw [if_neg hdev, h.registerBytes (ne_zero_of_not_devMode hdev)]
    exact h.press hpartly

/-- With secure boot on, a cycle changes nothing. -/
theorem keyCycle_locked {cycle : KeyCycle} (hlawful : cycle.Lawful) (henabled : ¬devMode fuses) :
    (keyCycle enabled cycle fuses).fuses = fuses := by
  obtain ⟨hbefore, hstep⟩ := keyCycle_step enabled hlawful fuses
  cases haccepted : (keyCycle enabled cycle fuses).accepted with
  | false => rw [hstep.kept (.inl haccepted), hbefore]
  | true =>
      obtain ⟨image, key, -, hval, hpartly, -⟩ := hstep.pressed haccepted
      rw [hbefore] at hval hpartly
      rw [if_neg henabled] at hval
      have hwords := (registerBytes_rkth_iff fuses key).mp hval.symm
      funext i
      -- The boot configuration is not blank, so a press leaves it alone. The words of the hash have
      -- all the bits that a press could set.
      by_cases hi : i = 96
      · rw [hi]
        exact hpartly.bootCfg0_eq (ne_zero_of_not_devMode henabled)
      · by_cases hmem : i ∈ key.words.map Prod.fst
        · obtain ⟨⟨j, w⟩, hw, rfl⟩ := List.mem_map.mp hmem
          exact (hpartly.hash j w hw).eq_of_bitsOf (hwords j w hw ▸ .refl _)
        · exact hpartly.others i hi hmem

/-- With secure boot on, cycles change nothing, and every image is authenticated against the
hash in the fuses. -/
theorem keyCycles_locked (enabled : Fin 4) {cycles : List KeyCycle} (hlocked : ¬devMode fuses)
    (hcycles : ∀ cycle ∈ cycles, cycle.Lawful) :
    ∀ r ∈ keyCycles enabled cycles fuses, r.fuses = fuses ∧
      ∀ a ∈ r.authentications, a.shadow.rkth = .ok (registerBytes fuses .rkth) := by
  have hstep : ∀ cycle ∈ cycles, ∀ f, f = fuses → (keyCycle enabled cycle f).fuses = fuses := by
    rintro cycle hcycle f rfl
    exact keyCycle_locked (hcycles cycle hcycle) hlocked
  intro r hr
  obtain ⟨hr, cycle, hcycle, heq⟩ := keyCycles_induction (P := fun f => f = fuses) rfl hstep r hr
  have htrusted := (keyCycle_step enabled (hcycles cycle hcycle) r.before).2.trusted
  rw [← heq, hr] at htrusted
  refine ⟨?_, fun a ha => ?_⟩
  · rw [heq]
    exact hstep cycle hcycle r.before hr
  · obtain ⟨image, -, htrusted⟩ := htrusted a ha
    have hrkth := htrusted.rkth
    rw [if_neg hlocked] at hrkth
    exact hrkth

/-- A cycle only sets bits, of the hash and of the configuration. -/
theorem keyCycle_frame (enabled : Fin 4) (fuses : Fuses) {cycle : KeyCycle}
    (hlawful : cycle.Lawful) (i : Nat) :
    BitsOf (fuses i) ((keyCycle enabled cycle fuses).fuses i) ∧
      (i ≠ 96 → ¬(120 ≤ i ∧ i < 128) → (keyCycle enabled cycle fuses).fuses i = fuses i) := by
  obtain ⟨hbefore, hstep⟩ := keyCycle_step enabled hlawful fuses
  cases haccepted : (keyCycle enabled cycle fuses).accepted with
  | false =>
      rw [hstep.kept (.inl haccepted), hbefore]
      exact ⟨.refl _, fun _ _ => rfl⟩
  | true =>
      obtain ⟨image, key, -, -, hpartly, -⟩ := hstep.pressed haccepted
      rw [hbefore] at hpartly
      refine ⟨hpartly.keeps i, fun hi hrange => hpartly.others i hi ?_⟩
      rw [key.map_fst_words, List.mem_range'_1]
      exact hrange

end Key

/-! ### A sample chip -/

/-- A ROM whose accesses succeed, and which accepts every image. -/
def acceptingRom (fuses : Fuses) : Rom :=
  { sampleRom fuses with
    authenticate := fun _ call =>
      { result := 0x5ac3c35a, isSignVerified := 0x55aacc33, shadow := call.shadow } }

/-- Fuses that can be programmed in some of the ROM calls. -/
def sampleOtp (works : Nat → Bool) : OtpRom where
  rom := acceptingRom
  fuseProgram call fuses addr data _ :=
    if works call then (kbStatusSuccess, fun i => if i = addr then fuses i ||| data else fuses i)
    else (1, fuses)

section Sample

variable {works : Nat → Bool} {call : Nat}

/-- A call in which the fuses can be programmed. -/
theorem sampleOtp_run_works (h : works call = true) (fuses : Fuses) (addr : Nat) (data : UInt32)
    (lock : Bool) : (sampleOtp works).fuseProgram call fuses addr data lock
      = (kbStatusSuccess, fun i => if i = addr then fuses i ||| data else fuses i) := if_pos h

/-- A call in which they cannot: nothing is programmed. -/
theorem sampleOtp_run_fails (h : ¬works call = true) (fuses : Fuses) (addr : Nat) (data : UInt32)
    (lock : Bool) : (sampleOtp works).fuseProgram call fuses addr data lock = (1, fuses) :=
  if_neg h

/-- The sample fuses program as the hypotheses about a ROM ask for, whichever calls work. -/
theorem sampleOtp_programs (works : Nat → Bool) : (sampleOtp works).Programs where
  -- A call that works sets all bits of the data, and one that fails sets none.
  others call fuses addr data lock i hi := by
    by_cases h : works call = true
    · rw [sampleOtp_run_works h]
      exact if_neg hi
    · rw [sampleOtp_run_fails h]
  keeps call fuses addr data lock := by
    by_cases h : works call = true
    · rw [sampleOtp_run_works h]
      simp only [if_pos]
      exact BitsOf.or_left (fuses addr) data
    · rw [sampleOtp_run_fails h]
      exact BitsOf.refl (fuses addr)
  within call fuses addr data lock := by
    by_cases h : works call = true
    · rw [sampleOtp_run_works h]
      simp only [if_pos]
      exact BitsOf.refl (fuses addr ||| data)
    · rw [sampleOtp_run_fails h]
      exact BitsOf.or_left (fuses addr) data
  sets call fuses addr data lock hs := by
    by_cases h : works call = true
    · rw [sampleOtp_run_works h]
      exact if_pos rfl
    · rw [sampleOtp_run_fails h] at hs
      cases hs

/-- The sample ROM reads the fuses that were programmed. -/
theorem sampleOtp_readsFuses (works : Nat → Bool) : (sampleOtp works).ReadsFuses where
  fuse _ := rfl
  reloads fuses := sampleRom_reloadsFuses fuses

/-- When every call works, no access fails. -/
theorem sampleOtp_accessesSucceed : (sampleOtp fun _ => true).AccessesSucceed where
  fuseRead _ _ _ := rfl
  fuseProgram _ _ _ _ _ := rfl

/-- A power cycle with one long press. -/
def sampleKeyCycle (works : Nat → Bool) : KeyCycle where
  otp := sampleOtp works
  sha256 := sampleSha256
  build := { overflowChecks := true, evk := true }
  ramIvt := sampleIvt
  image := sampleImage 0
  st := sampleState
  longPresses := 1

/-- The sample cycle satisfies the hypotheses about a key cycle, whichever calls work. -/
theorem sampleKeyCycle_lawful (works : Nat → Bool) : (sampleKeyCycle works).Lawful where
  programs := sampleOtp_programs works
  reads := sampleOtp_readsFuses works
  keepsRkth _ _ _ := rfl

/-- The image of the sample cycle carries the sample hash. -/
theorem sampleKeyCycle_rkth (works : Nat → Bool) :
    (sampleKeyCycle works).rkth = .ok (sampleRkth 0) := by
  have hsample : imageRkth sampleSoc sampleIvt (sampleImage 0) = .ok (sampleRkth 0) := by
    decide +kernel
  exact (imageRkth_congr rfl rfl sampleIvt (sampleImage 0)).trans hsample

/-- Two power cycles: in the first one, the fuses cannot be programmed from some call on. -/
def interruptedCycles : List KeyCycle :=
  [sampleKeyCycle fun call => call < 29, sampleKeyCycle fun _ => true]

/-- Both cycles are sample cycles, with fuses that work in different calls. -/
theorem interruptedCycles_cases {cycle : KeyCycle} (h : cycle ∈ interruptedCycles) :
    ∃ works, cycle = sampleKeyCycle works := by
  simp only [interruptedCycles, List.mem_cons, List.not_mem_nil, or_false] at h
  rcases h with rfl | rfl
  · exact ⟨_, rfl⟩
  · exact ⟨_, rfl⟩

end Sample

/-! ### Whole histories -/

/-- Power cycles on a chip with blank fuses, in which the application burns the hash of images
that carry the same root key. Any access may fail, and any number of them may end a press in
the middle. Whenever the boot configuration is set, the whole hash is in the fuses, and with
secure boot on every image is authenticated against it. No fuse outside of the two registers
is written, and no bit is cleared. -/
theorem keyCycles_rootKey (enabled : Fin 4) (rkth : Rkth) (cycles : List KeyCycle)
    (hlawful : ∀ cycle ∈ cycles, cycle.Lawful)
    (hkey : ∀ cycle ∈ cycles, 0 < cycle.longPresses →
      ∀ image, cycle.rkth = .ok image → image = rkth)
    (fuses : Fuses) (hblank : ∀ i, i = 96 ∨ 120 ≤ i ∧ i < 128 → fuses i = 0) :
    ∀ r ∈ keyCycles enabled cycles fuses,
      (r.fuses 96 ≠ 0 → registerBytes r.fuses .rkth = rkth.val) ∧
      (∀ i, fuses i ||| r.fuses i = r.fuses i) ∧
      (∀ i, i ≠ 96 → ¬(120 ≤ i ∧ i < 128) → r.fuses i = fuses i) ∧
      ∀ a ∈ r.authentications, secureBootEn (r.before 96) = .Enabled →
        a.shadow.rkth = .ok rkth.val := by
  -- The invariant: the fuses hold the hash if they enable secure boot, no bit is cleared, and no
  -- other fuse is touched. One cycle keeps it.
  have hstep : ∀ cycle ∈ cycles, ∀ f : Fuses,
      (HoldsKey rkth f ∧ ∀ i, BitsOf (fuses i) (f i) ∧
        (i ≠ 96 → ¬(120 ≤ i ∧ i < 128) → f i = fuses i)) →
      HoldsKey rkth (keyCycle enabled cycle f).fuses ∧
        ∀ i, BitsOf (fuses i) ((keyCycle enabled cycle f).fuses i) ∧
          (i ≠ 96 → ¬(120 ≤ i ∧ i < 128) → (keyCycle enabled cycle f).fuses i = fuses i) := by
    rintro cycle hcycle f ⟨hholds, hframe⟩
    refine ⟨hholds.step (hlawful cycle hcycle) (hkey cycle hcycle), fun i => ?_⟩
    obtain ⟨hkeeps, hothers⟩ :=
      keyCycle_frame enabled f (hlawful cycle hcycle) i
    exact ⟨(hframe i).1.trans hkeeps,
      fun hi hrange => (hothers hi hrange).trans ((hframe i).2 hi hrange)⟩
  intro r hr
  obtain ⟨hbefore, cycle, hcycle, heq⟩ := keyCycles_induction
    ⟨.of_blank hblank, fun i => ⟨.refl _, fun _ _ => rfl⟩⟩ hstep r hr
  obtain ⟨hholds, hframe⟩ := hstep cycle hcycle r.before hbefore
  rw [← heq] at hholds hframe
  refine ⟨hholds.registerBytes, fun i => (hframe i).1, fun i => (hframe i).2, ?_⟩
  -- With secure boot on, the hash in the shadow registers is the one in the fuses.
  intro a ha henabled
  have htrusted := (keyCycle_step enabled (hlawful cycle hcycle) r.before).2.trusted
  rw [← heq] at htrusted
  obtain ⟨image, -, htrusted⟩ := htrusted a ha
  have hdev : ¬devMode r.before := by
    rw [devMode, henabled]
    decide
  rw [htrusted.rkth_of_enabled henabled,
    hbefore.1.registerBytes (ne_zero_of_not_devMode hdev)]

/-- The first press ends after four words of the hash, and the press in the next power cycle
completes it. -/
theorem keyCycles_rootKey_interrupted :
    ((keyCycles 1 interruptedCycles fun _ => 0).map fun r =>
      ((List.range' 120 8).countP fun i => r.fuses i ≠ 0, r.fuses 96 == 0))
      = [(4, true), (8, false)] ∧
    ∀ r ∈ keyCycles 1 interruptedCycles fun _ => 0,
      (r.fuses 96 ≠ 0 → registerBytes r.fuses .rkth = (sampleRkth 0).val) ∧
      (∀ i, 0 ||| r.fuses i = r.fuses i) ∧
      (∀ i, i ≠ 96 → ¬(120 ≤ i ∧ i < 128) → r.fuses i = 0) ∧
      ∀ a ∈ r.authentications, secureBootEn (r.before 96) = .Enabled →
        a.shadow.rkth = .ok (sampleRkth 0).val := by
  -- The two cycles are evaluated. What holds behind them is the theorem, for lawful cycles with one
  -- hash.
  refine ⟨by decide +kernel, ?_⟩
  refine keyCycles_rootKey 1 (sampleRkth 0) interruptedCycles ?_ ?_ (fun _ => 0) fun _ _ => rfl
  · intro cycle hcycle
    obtain ⟨works, rfl⟩ := interruptedCycles_cases hcycle
    exact sampleKeyCycle_lawful works
  · intro cycle hcycle _ image himage
    obtain ⟨works, rfl⟩ := interruptedCycles_cases hcycle
    exact Except.ok.inj (himage.symm.trans (sampleKeyCycle_rkth works))

/-- A power cycle in development mode on a chip with blank fuses, in which every access succeeds
and the application runs and sees a long press. The fuses hold the hash of the image that runs
then, and they enable secure boot. In all later power cycles, with any images, any presses and
any failures, no fuse changes any more, and every image is authenticated against this hash. -/
theorem keyCycle_provisions {enabled : Fin 4} (henabled : enabled ≠ 0) {cycle : KeyCycle}
    (hlawful : cycle.Lawful) (haccess : cycle.otp.AccessesSucceed)
    (hpresses : 0 < cycle.longPresses) {fuses : Fuses}
    (hblank : ∀ i, i = 96 ∨ 120 ≤ i ∧ i < 128 → fuses i = 0)
    (haccepted : (keyCycle enabled cycle fuses).accepted = true)
    {cycles : List KeyCycle} (hcycles : ∀ c ∈ cycles, c.Lawful) :
    ∃ image, cycle.rkth = .ok image ∧
      registerBytes (keyCycle enabled cycle fuses).fuses .rkth = image.val ∧
      (keyCycle enabled cycle fuses).fuses 96 = provisionedBootCfg0 enabled ∧
      (∀ i, i ≠ 96 → ¬(120 ≤ i ∧ i < 128) → (keyCycle enabled cycle fuses).fuses i = fuses i) ∧
      ∀ r ∈ keyCycles enabled cycles (keyCycle enabled cycle fuses).fuses,
        r.fuses = (keyCycle enabled cycle fuses).fuses ∧
        ∀ a ∈ r.authentications, a.shadow.rkth = .ok image.val := by
  obtain ⟨hbefore, hstep⟩ := keyCycle_step enabled hlawful fuses
  obtain ⟨image, key, himage, hval, -, hpressed⟩ := hstep.pressed haccepted
  have hpressed := hpressed hpresses haccess
  rw [hbefore] at hval hpressed
  -- The chip is blank, so the image is checked in development mode, against its own hash.
  have hdev : devMode fuses := by
    rw [devMode, hblank 96 (.inl rfl)]
    decide
  rw [if_pos hdev] at hval
  obtain rfl : key = image := Subtype.ext hval
  have hcfg : (keyCycle enabled cycle fuses).fuses 96 = provisionedBootCfg0 enabled := by
    rw [hpressed.bootCfg0, hblank 96 (.inl rfl)]
    exact if_pos rfl
  have hhash : registerBytes (keyCycle enabled cycle fuses).fuses .rkth = key.val :=
    ((HoldsKey.of_blank hblank).press hpressed.partly).registerBytes
      (hcfg ▸ provisionedBootCfg0_ne enabled)
  -- From here on the chip is locked, which `keyCycles_locked` carries along the other cycles.
  have hlocked : ¬devMode (keyCycle enabled cycle fuses).fuses := by
    rw [devMode, hcfg, secureBootEn_provisioned henabled]
    decide
  refine ⟨key, himage, hhash, hcfg, fun i => (keyCycle_frame enabled fuses hlawful i).2, ?_⟩
  rw [← hhash]
  exact keyCycles_locked enabled hlocked hcycles

/-- A long press on a blank chip, and then the image with the other hash. -/
theorem keyCycle_provisions_sample :
    ∃ image, (sampleKeyCycle fun _ => true).rkth = .ok image ∧
      registerBytes (keyCycle 1 (sampleKeyCycle fun _ => true) fun _ => 0).fuses .rkth
        = image.val ∧
      (keyCycle 1 (sampleKeyCycle fun _ => true) fun _ => 0).fuses 96 = provisionedBootCfg0 1 ∧
      (∀ i, i ≠ 96 → ¬(120 ≤ i ∧ i < 128) →
        (keyCycle 1 (sampleKeyCycle fun _ => true) fun _ => 0).fuses i = 0) ∧
      ∀ r ∈ keyCycles 1 [{ sampleKeyCycle fun _ => true with image := sampleImage 1 }]
        (keyCycle 1 (sampleKeyCycle fun _ => true) fun _ => 0).fuses,
        r.fuses = (keyCycle 1 (sampleKeyCycle fun _ => true) fun _ => 0).fuses ∧
        ∀ a ∈ r.authentications, a.shadow.rkth = .ok image.val := by
  refine keyCycle_provisions (by decide) (sampleKeyCycle_lawful _) sampleOtp_accessesSucceed
    (by decide) (fun _ _ => rfl) (by decide +kernel) ?_
  intro cycle hcycle
  obtain rfl := List.mem_singleton.mp hcycle
  exact ⟨sampleOtp_programs _, sampleOtp_readsFuses _, fun _ _ _ => rfl⟩

/-- Long presses with accesses that all succeed, on any chip: the boot configuration is set
afterwards, whatever the root key hash is. The fuses hold the hash from the shadow registers
exactly if none of their other bits was set before, and they hold no hash at all exactly if both
were blank. -/
theorem longPresses_effect (enabled : Fin 4) {otp : OtpRom} (hprograms : otp.Programs)
    (hreads : otp.ReadsFuses) (haccess : otp.AccessesSucceed) {presses : Nat}
    (hpresses : 0 < presses) {chip : Chip} (hdriver : chip.rom.otpInitialized = false)
    {rkth : Rkth} (hshadow : chip.rom.shadow.rkth = .ok rkth.val) :
    ∃ chip', Application.longPresses otp enabled presses chip = .ok () chip' ∧
      chip'.fuses 96 = (if chip.fuses 96 = 0 then provisionedBootCfg0 enabled else chip.fuses 96) ∧
      chip'.fuses 96 ≠ 0 ∧
      (registerBytes chip'.fuses .rkth = rkth.val ↔
        ∀ i w, (i, w) ∈ rkth.words → chip.fuses i ||| w = w) ∧
      (registerBytes chip'.fuses .rkth = Rkth.newZero.val ↔
        registerBytes chip.fuses .rkth = Rkth.newZero.val ∧ rkth = Rkth.newZero) := by
  obtain ⟨chip', hrun, hpressed⟩ := longPresses_ok enabled hprograms hreads haccess hpresses
    (⟨hshadow, hdriver, rfl⟩ : BetweenPresses rkth chip.fuses chip)
  refine ⟨chip', hrun, hpressed.bootCfg0, hpressed.bootCfg0 ▸ bootCfg0Behind_ne enabled _, ?_, ?_⟩
  · -- The fuses hold the or of their old words and the hash, word by word.
    rw [registerBytes_rkth_iff]
    refine forall_congr' fun i => forall_congr' fun w => forall_congr' fun hw => ?_
    rw [hpressed.hash i w hw]
  · rw [registerBytes_newZero_iff, registerBytes_newZero_iff, Rkth.eq_newZero_iff]
    -- An or is zero exactly if both sides are.
    have hword : ∀ i w, (i, w) ∈ rkth.words → (chip'.fuses i = 0 ↔ chip.fuses i = 0 ∧ w = 0) := by
      intro i w hw
      rw [hpressed.hash i w hw]
      exact UInt32.or_eq_zero_iff
    constructor
    · intro h
      refine ⟨fun i hi => ?_, fun i w hw => ?_⟩
      · obtain ⟨w, hw⟩ := rkth.exists_word hi
        exact ((hword i w hw).mp (h i hi)).1
      · exact ((hword i w hw).mp (h i (rkth.mem_range hw))).2
    · rintro ⟨hfuses, hrkth⟩ i hi
      obtain ⟨w, hw⟩ := rkth.exists_word hi
      exact (hword i w hw).mpr ⟨hfuses i hi, hrkth i w hw⟩

/-- A chip without a hash, in the fuses and in the shadow registers. -/
def blankChip : Chip where
  fuses _ := 0
  rom := { sampleState with shadow := fun _ => 0 }

/-- Two presses: secure boot is on afterwards, without a key. -/
theorem longPresses_effect_blank :
    ∃ chip', Application.longPresses (sampleOtp fun _ => true) 1 2 blankChip = .ok () chip' ∧
      chip'.fuses 96 = provisionedBootCfg0 1 ∧
      registerBytes chip'.fuses .rkth = Rkth.newZero.val := by
  have hdriver : blankChip.rom.otpInitialized = false := rfl
  have hshadow : blankChip.rom.shadow.rkth = .ok Rkth.newZero.val := by
    decide +kernel
  obtain ⟨chip', hrun, hcfg, -, -, hzero⟩ := longPresses_effect 1 (sampleOtp_programs fun _ => true)
    (sampleOtp_readsFuses _) sampleOtp_accessesSucceed (by decide : 0 < 2) hdriver hshadow
  refine ⟨chip', hrun, hcfg.trans (if_pos rfl), hzero.mpr ⟨?_, rfl⟩⟩
  exact (registerBytes_newZero_iff _).mpr fun _ _ => rfl

end EcSlimloader
