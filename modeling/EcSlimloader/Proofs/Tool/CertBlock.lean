import EcSlimloader.Tool.CertBlock

/-!
# `EcSlimloader.Proofs.Tool.CertBlock`: what an accepted certificate block looks like

`from_file` computes the length of a block from two fields of its header, with 32-bit
sums. `fromFile_layout` shows that the sums of an accepted block do not overflow, also in
a build that does not check it: the walk over the certificate table goes up from the end
of the header and must arrive at the sum.

Each function of the source has a lemma that says when it returns, under the name of the function
with `_eq_ok` behind it. They are equivalences where both directions are needed: `field_eq_ok` and
`rootKeyHashes_eq_ok` are used for reading a block, and again for building one.

A certificate in DER form has some length (`Crypto.DerLength`), which is a hypothesis on the crypto
functions. Together with the length word of its entry it keeps the root key hashes behind the words
of the header.
-/

set_option autoImplicit false

namespace EcSlimloader

open Bytes (u32At u32At_take u32At_drop sliceFrom sliceRange addU32)

section Slices

variable {ε : Type} {data out : List UInt8}

/-- A slice that exists. -/
theorem sliceRange_eq_ok {start stop : Nat} :
    (sliceRange data start stop : Except (Fault ε) (List UInt8)) = .ok out ↔
      stop ≤ data.length ∧ out = (data.drop start).take (stop - start) := by
  rw [sliceRange]
  split
  next h => simp [h, eq_comm]
  next h => simp [h]

/-- A slice that goes to the end of the data. -/
theorem sliceFrom_eq_ok {start : Nat} :
    (sliceFrom data start : Except (Fault ε) (List UInt8)) = .ok out ↔
      start ≤ data.length ∧ out = data.drop start := by
  rw [sliceFrom]
  split
  next h => simp [h, eq_comm]
  next h => simp [h]

/-- An addition that succeeds, in any build. -/
theorem addU32_eq_ok {overflowChecks : Bool} {a b c : UInt32}
    (h : (addU32 overflowChecks a b : Except (Fault ε) UInt32) = .ok c) : c = a + b := by
  rw [addU32] at h
  split at h
  · cases h
  · exact (Except.ok.inj h).symm

end Slices

/-- An assertion is passed exactly when its condition holds. -/
theorem assert_eq_ok {c : Prop} [Decidable c] : ToolResult.assert c = .ok () ↔ c := by
  rw [ToolResult.assert]
  split
  next h => simp [h]
  next h => simp [h]

namespace CertBlock

variable {Certificate Key : Type} {crypto : Crypto Certificate Key} {overflowChecks : Bool}
  {me : CertBlock}

/-- A field that exists. -/
theorem field_eq_ok {offset : Nat} {value : UInt32} :
    me.field offset = .ok value ↔ offset + 4 ≤ me.data.length ∧ value = u32At me.data offset := by
  unfold field
  rw [Except.bind_eq_ok]
  constructor
  · rintro ⟨bytes, hslice, hvalue⟩
    obtain ⟨hle, rfl⟩ := sliceRange_eq_ok.mp hslice
    refine ⟨hle, ?_⟩
    rw [← Except.ok.inj hvalue, u32At_take (by omega), u32At_drop, Nat.add_zero]
  · rintro ⟨hle, rfl⟩
    refine ⟨_, sliceRange_eq_ok.mpr ⟨hle, rfl⟩, ?_⟩
    show Except.ok _ = _
    rw [u32At_take (by omega), u32At_drop, Nat.add_zero]

/-- The sum of the two lengths in the header. -/
theorem rkhStart_eq_ok {start : UInt32} (h : me.rkhStart overflowChecks = .ok start) :
    ∃ headerLen certTableLen, me.headerLen = .ok headerLen ∧ me.certTableLen = .ok certTableLen ∧
      start = headerLen + certTableLen := by
  unfold rkhStart at h
  simp only [Except.bind_eq_ok] at h
  obtain ⟨headerLen, hheader, certTableLen, htable, hadd⟩ := h
  exact ⟨headerLen, certTableLen, hheader, htable, addU32_eq_ok hadd⟩

/-- The same, when the two lengths are known. -/
theorem rkhStart_eq {headerLen certTableLen start : UInt32} (hheader : me.headerLen = .ok headerLen)
    (htable : me.certTableLen = .ok certTableLen) (h : me.rkhStart overflowChecks = .ok start) :
    start = headerLen + certTableLen := by
  obtain ⟨headerLen', certTableLen', hheader', htable', rfl⟩ := rkhStart_eq_ok h
  rw [Except.ok.inj (hheader.symm.trans hheader'), Except.ok.inj (htable.symm.trans htable')]

/-- The walk over the certificate table goes up, by the length of each certificate and
its length field. -/
theorem certificatesFrom_le {count i nextCert last : Nat} {out : List (List UInt8)}
    (h : me.certificatesFrom count i nextCert = .ok (out, last)) :
    nextCert + (out.map fun cert => 4 + cert.length).sum = last := by
  -- Induction on the number of certificates that are still to be read.
  induction count generalizing i nextCert out with
  | zero =>
      cases h
      rfl
  | succ count ih =>
      simp only [certificatesFrom, Except.bind_eq_ok] at h
      obtain ⟨lenBytes, -, h⟩ := h
      split at h
      · cases h
      simp only [Except.bind_eq_ok] at h
      obtain ⟨cert, hcert, ⟨rest, last'⟩, hrest, hout⟩ := h
      obtain ⟨rfl, rfl⟩ := Prod.mk.inj (Except.ok.inj hout)
      obtain ⟨hle, hcert⟩ := sliceRange_eq_ok.mp hcert
      -- An entry is its length word and as many bytes as that word says.
      have hlen : cert.length = (u32At lenBytes 0).toNat := by
        rw [hcert, List.length_take, List.length_drop]
        omega
      have hsum := ih hrest
      simp only [List.map_cons, List.sum_cons, hlen]
      omega

/-- The walk of `certificates` goes from the end of the header to the root key hashes. -/
theorem certificates_walk {certs : List (List UInt8)}
    (h : me.certificates overflowChecks = .ok certs) :
    ∃ headerLen certTableLen certCount, me.headerLen = .ok headerLen ∧
      me.certTableLen = .ok certTableLen ∧ me.certCount = .ok certCount ∧
      me.certificatesFrom certCount.toNat 0 headerLen.toNat
        = .ok (certs, (headerLen + certTableLen).toNat) := by
  unfold certificates at h
  simp only [Except.bind_eq_ok] at h
  obtain ⟨headerLen, hheader, certCount, hcount, ⟨out, last⟩, hwalk, start, hstart, _, hassert,
    hout⟩ := h
  obtain rfl := Except.ok.inj hout
  obtain ⟨_, certTableLen, _, htable, -⟩ := rkhStart_eq_ok hstart
  obtain rfl := rkhStart_eq hheader htable hstart
  -- The source asserts that the walk ends where the root key hashes start.
  obtain rfl : last = (headerLen + certTableLen).toNat := assert_eq_ok.mp hassert
  exact ⟨headerLen, certTableLen, certCount, hheader, htable, hcount, hwalk⟩

/-- So the certificates and their length fields take all of the table. -/
theorem certificates_eq_ok {certs : List (List UInt8)}
    (h : me.certificates overflowChecks = .ok certs) :
    ∃ headerLen certTableLen, me.headerLen = .ok headerLen ∧ me.certTableLen = .ok certTableLen ∧
      headerLen.toNat + (certs.map fun cert => 4 + cert.length).sum
        = (headerLen + certTableLen).toNat := by
  obtain ⟨headerLen, certTableLen, _, hheader, htable, -, hwalk⟩ := certificates_walk h
  exact ⟨headerLen, certTableLen, hheader, htable, certificatesFrom_le hwalk⟩

/-- The root key hashes are the last 128 bytes of the block. -/
theorem rootKeyHashes_eq_ok {hashes : List (List UInt8)} :
    me.rootKeyHashes overflowChecks = .ok hashes ↔
      ∃ start, me.rkhStart overflowChecks = .ok start ∧
        me.data.length = start.toNat + 128 ∧
        hashes = (List.range 4).map fun i =>
          ((me.data.drop start.toNat).drop (32 * i)).take 32 := by
  unfold rootKeyHashes
  simp only [Except.bind_eq_ok]
  constructor
  · rintro ⟨start, hstart, data, hdata, _, hassert, hout⟩
    obtain ⟨hle, rfl⟩ := sliceFrom_eq_ok.mp hdata
    -- The assertion of the source: the table of the hashes is the whole rest of the block.
    have hlen := assert_eq_ok.mp hassert
    rw [List.length_drop] at hlen
    exact ⟨start, hstart, by omega, (Except.ok.inj hout).symm⟩
  · rintro ⟨start, hstart, hlen, rfl⟩
    refine ⟨start, hstart, _, sliceFrom_eq_ok.mpr ⟨by omega, rfl⟩, (), ?_, rfl⟩
    rw [assert_eq_ok, List.length_drop]
    omega

/-- A root certificate that was accepted parses, and the table of hashes exists. -/
theorem verifyRoot_eq_ok {rawRootCert : List UInt8} {rootCert : Certificate}
    (h : me.verifyRoot crypto overflowChecks rawRootCert = .ok rootCert) :
    parseX509Cert crypto rawRootCert = .ok rootCert ∧
      ∃ modulus exponent hashes, crypto.parsedKey rootCert = some (.rsa modulus exponent) ∧
        me.rootKeyHashes overflowChecks = .ok hashes ∧
        (rootKeyHash crypto modulus exponent).val ∈ hashes ∧ crypto.isCa rootCert = true := by
  unfold verifyRoot at h
  simp only [Except.bind_eq_ok] at h
  -- The checks in the order of the source. A branch that returns an error contradicts `h`.
  obtain ⟨cert, hparse, h⟩ := h
  split at h
  · cases h
  · cases h
  next modulus exponent hkey =>
  simp only [Except.bind_eq_ok] at h
  obtain ⟨hashes, hhashes, h⟩ := h
  split at h
  · cases h
  next hmem =>
  split at h
  · cases h
  next hca =>
  obtain rfl := Except.ok.inj h
  exact ⟨hparse, modulus, exponent, hashes, hkey, hhashes, not_not.mp hmem, by simpa using hca⟩

/-- What `verify` has checked when it accepts a block. -/
theorem verify_eq_ok {rkth : Option Digest} (h : me.verify crypto overflowChecks rkth = .ok ()) :
    me.verifyRkth crypto overflowChecks rkth = .ok () ∧
      ∃ rawRootCert rest rootCert signingCert,
        me.certificates overflowChecks = .ok (rawRootCert :: rest) ∧
        me.verifyRoot crypto overflowChecks rawRootCert = .ok rootCert ∧
        walkChain crypto rest 0 rootCert = .ok signingCert ∧
        ¬(crypto.isCa signingCert = true ∧ (rawRootCert :: rest).length > 1) ∧
        crypto.rsaPublicKey signingCert ≠ none := by
  unfold verify at h
  simp only [Except.bind_eq_ok] at h
  obtain ⟨_, hrkth, certs, hcerts, h⟩ := h
  refine ⟨hrkth, ?_⟩
  -- A table without a certificate has no root, and the source returns an error there.
  cases certs with
  | nil => cases h
  | cons rawRootCert rest =>
      simp only [Except.bind_eq_ok] at h
      obtain ⟨rootCert, hroot, signingCert, hwalk, h⟩ := h
      split at h
      · cases h
      next hca =>
      split at h
      · cases h
      next hkey =>
      exact ⟨rawRootCert, rest, rootCert, signingCert, hcerts, hroot, hwalk, hca,
        by simpa using hkey⟩

/-- A string that parses as a certificate is one in DER form, with a few bytes of padding
at most. -/
theorem parseX509Cert_eq_ok {bytes : List UInt8} {cert : Certificate}
    (h : parseX509Cert crypto bytes = .ok cert) :
    ∃ rem, crypto.fromDer bytes = some (rem, cert) ∧ rem.length < 4 ∧
      crypto.isSha256WithRsa cert = true := by
  unfold parseX509Cert at h
  split at h
  · cases h
  next rem cert' hder =>
  split at h
  · cases h
  next hrem =>
  split at h
  · cases h
  next halg =>
  obtain rfl := Except.ok.inj h
  exact ⟨rem, hder, by omega, by simpa using halg⟩

end CertBlock

/-- A certificate in DER form has at least 20 bytes: the object identifier of its signature
algorithm and the two times of its validity alone take more. -/
def Crypto.DerLength {Certificate Key : Type} (crypto : Crypto Certificate Key) : Prop :=
  ∀ bytes rem cert, crypto.fromDer bytes = some (rem, cert) → 20 ≤ bytes.length

namespace CertBlock

/-- The layout of a block: the two lengths of its header, which do not overflow, and four
hashes behind them. The field for the total image length is in front of the hashes. -/
structure Layout (me : CertBlock) (headerLen certTableLen : UInt32) : Prop where
  header : u32At me.data 0x08 = headerLen
  table : u32At me.data 0x1c = certTableLen
  length : me.data.length = headerLen.toNat + certTableLen.toNat + 128
  length_lt : headerLen.toNat + certTableLen.toNat < 2 ^ 32
  le_start : 0x18 ≤ headerLen.toNat + certTableLen.toNat

variable {Certificate Key : Type} {crypto : Crypto Certificate Key} {overflowChecks : Bool}

/-- An accepted block is a prefix of the file, and its length is the sum of the lengths in
its header. -/
theorem fromFile_eq_ok {data : List UInt8} {rkth : Option Digest} {me : CertBlock}
    (h : fromFile crypto overflowChecks data rkth = .ok me) :
    me.verify crypto overflowChecks rkth = .ok () ∧
      ∃ headerLen certTableLen, me.headerLen = .ok headerLen ∧
        me.certTableLen = .ok certTableLen ∧
        headerLen.toNat + certTableLen.toNat < 2 ^ 32 ∧
        me.data.length = headerLen.toNat + certTableLen.toNat + 128 ∧
        me.data = data.take (headerLen.toNat + certTableLen.toNat + 128) := by
  unfold fromFile at h
  simp only [Except.bind_eq_ok] at h
  obtain ⟨_, -, certBlockLen, -, _, hassert, _, hverify, hme⟩ := h
  obtain rfl := Except.ok.inj hme
  refine ⟨hverify, ?_⟩
  have hfile := assert_eq_ok.mp hassert
  obtain ⟨-, rawRootCert, rest, rootCert, -, hcerts, hroot, -⟩ := verify_eq_ok hverify
  obtain ⟨-, -, -, hashes, -, hhashes, -⟩ := verifyRoot_eq_ok hroot
  obtain ⟨headerLen, certTableLen, hheader, htable, hwalk⟩ := certificates_eq_ok hcerts
  obtain ⟨start, hstart, hlen, -⟩ := rootKeyHashes_eq_ok.mp hhashes
  obtain rfl := rkhStart_eq hheader htable hstart
  -- The walk starts at the header length, so a sum that wraps around is below it.
  have hsum : (headerLen + certTableLen).toNat = headerLen.toNat + certTableLen.toNat := by
    have hlt := certTableLen.toNat_lt
    rw [List.map_cons, List.sum_cons] at hwalk
    rw [UInt32.toNat_add] at hwalk ⊢
    omega
  rw [hsum] at hlen
  have hcut : certBlockLen.toNat = headerLen.toNat + certTableLen.toNat + 128 := by
    rw [← hlen, List.length_take]
    omega
  refine ⟨headerLen, certTableLen, hheader, htable, ?_, hlen, by rw [hcut]⟩
  rw [← hsum]
  exact UInt32.toNat_lt _

/-- An accepted block has this layout. -/
theorem fromFile_layout {data : List UInt8} {rkth : Option Digest} {me : CertBlock}
    (hder : crypto.DerLength) (h : fromFile crypto overflowChecks data rkth = .ok me) :
    ∃ headerLen certTableLen, Layout me headerLen certTableLen := by
  obtain ⟨hverify, headerLen, certTableLen, hheader, htable, hlt, hlen, -⟩ := fromFile_eq_ok h
  obtain ⟨-, rawRootCert, rest, rootCert, -, hcerts, hroot, -⟩ := verify_eq_ok hverify
  obtain ⟨hparse, -⟩ := verifyRoot_eq_ok hroot
  obtain ⟨rem, hfrom, -⟩ := parseX509Cert_eq_ok hparse
  have hcert := hder _ _ _ hfrom
  obtain ⟨headerLen', certTableLen', hheader', htable', hwalk⟩ := certificates_eq_ok hcerts
  -- Both walks over the block read the same two words of its header.
  obtain rfl : headerLen = headerLen' := Except.ok.inj (hheader.symm.trans hheader')
  obtain rfl : certTableLen = certTableLen' := Except.ok.inj (htable.symm.trans htable')
  rw [UInt32.toNat_add, Nat.mod_eq_of_lt hlt, List.map_cons, List.sum_cons] at hwalk
  exact ⟨headerLen, certTableLen, (field_eq_ok.mp hheader).2.symm,
    (field_eq_ok.mp htable).2.symm, hlen, hlt, by omega⟩

end CertBlock

end EcSlimloader
