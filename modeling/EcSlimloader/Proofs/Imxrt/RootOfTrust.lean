import EcSlimloader.Proofs.Imxrt.Verification

/-!
# `EcSlimloader.Proofs.Imxrt.RootOfTrust`: which root key an image is checked against

A boot may check several images in one power cycle, and each check may write to the
shadow registers. `checkImages_trusted` says that this does not matter: whatever the
shadow registers hold at the start, and whatever the ROM does to them, each
authentication of a sequence of checks finds trusted shadow registers. It is the step
lemma `checkImage_authentications` carried along the sequence.

`rootOfTrust_isolated` draws the conclusions. With secure boot on, two runs on the same
fuses authenticate against the same hash. In development mode the hash is the one of
the image being checked, and a check of the same image in another run, with another
history, finds the same words in the other mapped registers too.

The isolation needs no argument about the order of the checks. `Trusted` describes the shadow
registers by the build, the fuses and the image alone. If two runs agree on these three, they have
the same words in every register that `Trusted` mentions, whatever happened before.
-/

set_option autoImplicit false

namespace EcSlimloader

section Sequence

variable {soc : Soc}

/-- The authentications of one check are those that the record has gained. Each of them
found trusted shadow registers. -/
theorem checkImage_authentications (hreload : soc.rom.ReloadsFuses) (ramIvt : Ivt)
    (image : List UInt8) {st st' : RomState}
    (hrun : (∃ u, checkImage soc ramIvt image st = .ok u st') ∨
      ∃ e, checkImage soc ramIvt image st = .error e st')
    {a : AuthenticateCall}
    (ha : a ∈ st'.authentications.drop st.authentications.length) :
    ∃ rkth, imageRkth soc ramIvt image = .ok rkth ∧
      Trusted soc.build soc.rom.fuse rkth a.shadow := by
  have hspec := checkImage_spec soc ramIvt image st.authentications st.otpInitialized
  have hst : Idle st.authentications st.otpInitialized st := ⟨rfl, rfl⟩
  -- A run that fails before the authentication adds nothing to the record.
  have hnone (h : st'.authentications = st.authentications) : False := by
    rw [h, List.drop_length] at ha
    exact absurd ha List.not_mem_nil
  have hone (h : Authenticated soc ramIvt image st.authentications st') :
      ∃ rkth, imageRkth soc ramIvt image = .ok rkth ∧
        Trusted soc.build soc.rom.fuse rkth a.shadow := by
    obtain ⟨fuse, rkth, a', hfuse, himage, htrusted, hidle⟩ := h
    obtain rfl := hfuse hreload
    rw [hidle.1, List.drop_left, List.mem_singleton] at ha
    exact ⟨rkth, himage, ha ▸ htrusted⟩
  rcases hrun with ⟨u, hrun⟩ | ⟨e, hrun⟩
  · exact hone (hspec.of_ok hst hrun)
  · rcases hspec.of_error hst hrun with ⟨-, h⟩ | h | ⟨-, h⟩
    · exact (hnone h.1).elim
    · exact (hnone h.1).elim
    · exact hone h

/-- Every authentication of a power cycle finds trusted shadow registers. -/
theorem checkImages_trusted (hreload : soc.rom.ReloadsFuses) (calls : List (Ivt × List UInt8))
    (st : RomState) : ∀ c ∈ checkImages soc calls st, ∀ a ∈ c.authentications,
      ∃ rkth, imageRkth soc c.ramIvt c.image = .ok rkth ∧
        Trusted soc.build soc.rom.fuse rkth a.shadow := by
  -- The registers that a check leaves are those that the next one starts with.
  induction calls generalizing st with
  | nil =>
      intro c hc
      exact absurd hc List.not_mem_nil
  | cons call calls ih =>
      obtain ⟨ramIvt, image⟩ := call
      intro c hc a ha
      simp only [checkImages] at hc
      cases hrun : checkImage soc ramIvt image st with
      | ok u st' =>
          simp only [hrun, List.mem_cons] at hc
          rcases hc with rfl | hc
          · exact checkImage_authentications hreload ramIvt image (Or.inl ⟨u, hrun⟩) ha
          · exact ih st' c hc a ha
      | error e st' =>
          cases e with
          | error e =>
              simp only [hrun, List.mem_cons] at hc
              rcases hc with rfl | hc
              · exact checkImage_authentications hreload ramIvt image (Or.inr ⟨_, hrun⟩) ha
              · exact ih st' c hc a ha
          | panic msg =>
              simp only [hrun, List.mem_singleton] at hc
              subst hc
              exact checkImage_authentications hreload ramIvt image (Or.inr ⟨_, hrun⟩) ha

end Sequence

/-- The bytes of the root key hash in the shadow registers. -/
def Shadow.rkth (shadow : Shadow) : Except NotShadowRegister (List UInt8) :=
  shadow.readRegister Register.rkth.address Register.rkth.size

section Trusted

variable {build : Build} {fuse : Nat → UInt32} {rkth : Rkth} {shadow : Shadow}

/-- With secure boot on, the hash is the one from the fuses. -/
theorem Trusted.rkth_of_enabled (h : Trusted build fuse rkth shadow)
    (henabled : secureBootEn (fuse 96) = .Enabled) :
    shadow.rkth = .ok (registerBytes fuse .rkth) := by
  have hdev : ¬devMode fuse := by
    rw [devMode, henabled]
    decide
  have hrkth := h.rkth
  rw [if_neg hdev] at hrkth
  exact hrkth

/-- In development mode, the hash is the one of the image. -/
theorem Trusted.rkth_of_disabled (h : Trusted build fuse rkth shadow)
    (hdisabled : secureBootEn (fuse 96) = .Disabled) : shadow.rkth = .ok rkth.val := by
  have hdev : devMode fuse := hdisabled
  have hrkth := h.rkth
  rw [if_pos hdev] at hrkth
  exact hrkth

end Trusted

/-- The hash of an image depends on the image, the hash function and the build. -/
theorem imageRkth_congr {soc soc' : Soc} (hsha : soc'.sha256 = soc.sha256)
    (hbuild : soc'.build = soc.build) (ramIvt : Ivt) (image : List UInt8) :
    imageRkth soc' ramIvt image = imageRkth soc ramIvt image := by
  rw [imageRkth, imageRkth, hsha, hbuild]

/-- Take any sequence of `check_image` calls, from any content of the shadow registers.
At each call of `skboot_authenticate` the shadow registers hold the hash from the fuses
if the fuses enable secure boot, and else the hash of the image being checked.

So with secure boot on, the authentications of two runs on chips with the same fuses use
the same hash, for any images and any histories. In development mode, two checks of the
same image find the same hash, and the same words in all other mapped registers. -/
theorem rootOfTrust_isolated {soc soc' : Soc} (hreload : soc.rom.ReloadsFuses)
    (hreload' : soc'.rom.ReloadsFuses) (hfuse : soc'.rom.fuse = soc.rom.fuse)
    (calls calls' : List (Ivt × List UInt8)) (st st' : RomState) :
    (∀ c ∈ checkImages soc calls st, ∀ a ∈ c.authentications,
      (secureBootEn (soc.rom.fuse 96) = .Enabled →
        a.shadow.rkth = .ok (registerBytes soc.rom.fuse .rkth)) ∧
      (secureBootEn (soc.rom.fuse 96) = .Disabled →
        ∃ rkth, imageRkth soc c.ramIvt c.image = .ok rkth ∧ a.shadow.rkth = .ok rkth.val)) ∧
    (∀ c ∈ checkImages soc calls st, ∀ a ∈ c.authentications,
      ∀ c' ∈ checkImages soc' calls' st', ∀ a' ∈ c'.authentications,
        (secureBootEn (soc.rom.fuse 96) = .Enabled → a'.shadow.rkth = a.shadow.rkth) ∧
        (secureBootEn (soc.rom.fuse 96) = .Disabled → soc'.sha256 = soc.sha256 →
          soc'.build = soc.build → c'.ramIvt = c.ramIvt → c'.image = c.image →
          a'.shadow.rkth = a.shadow.rkth ∧
          ∀ i, IsMapped i → i < 120 ∨ 128 ≤ i → a'.shadow.word i = a.shadow.word i)) := by
  refine ⟨?_, ?_⟩
  · intro c hc a ha
    obtain ⟨rkth, himage, htrusted⟩ := checkImages_trusted hreload calls st c hc a ha
    exact ⟨htrusted.rkth_of_enabled, fun h => ⟨rkth, himage, htrusted.rkth_of_disabled h⟩⟩
  · intro c hc a ha c' hc' a' ha'
    obtain ⟨rkth, himage, htrusted⟩ := checkImages_trusted hreload calls st c hc a ha
    obtain ⟨rkth', himage', htrusted'⟩ := checkImages_trusted hreload' calls' st' c' hc' a' ha'
    refine ⟨?_, ?_⟩
    · intro h
      rw [htrusted.rkth_of_enabled h, htrusted'.rkth_of_enabled (by rw [hfuse]; exact h), hfuse]
    · -- The same image on the same fuses has the same hash, whatever was checked before it.
      intro h hsha hbuild hivt hcimage
      rw [imageRkth_congr hsha hbuild, hivt, hcimage, himage] at himage'
      obtain rfl := Except.ok.inj himage'
      refine ⟨?_, ?_⟩
      · rw [htrusted.rkth_of_disabled h, htrusted'.rkth_of_disabled (by rw [hfuse]; exact h)]
      · intro i hi hrange
        rw [htrusted.others i hi hrange, htrusted'.others i hi hrange, hfuse, hbuild]

/-- Two images are checked in development mode, one after the other, and both reach the
authentication. -/
theorem rootOfTrust_isolated_sample :
    (checkImages sampleSoc [(sampleIvt, sampleImage 0), (sampleIvt, sampleImage 1)]
      sampleState).map (fun c => c.authentications.map (·.shadow.rkth.toOption))
      = [[some (sampleRkth 0).val], [some (sampleRkth 1).val]] ∧
    ∀ c ∈ checkImages sampleSoc [(sampleIvt, sampleImage 0), (sampleIvt, sampleImage 1)]
      sampleState, ∀ a ∈ c.authentications,
      ∃ rkth, imageRkth sampleSoc c.ramIvt c.image = .ok rkth ∧ a.shadow.rkth = .ok rkth.val := by
  refine ⟨by decide +kernel, ?_⟩
  intro c hc a ha
  have hreload : sampleSoc.rom.ReloadsFuses := sampleRom_reloadsFuses _
  have h := (rootOfTrust_isolated hreload hreload rfl _ [] sampleState sampleState).1 c hc a ha
  exact h.2 rfl

end EcSlimloader
