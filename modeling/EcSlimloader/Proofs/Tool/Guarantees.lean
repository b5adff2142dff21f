import EcSlimloader.Proofs.Tool.RoundTrip
import Mathlib.Data.List.Forall2

/-!
# `EcSlimloader.Proofs.Tool.Guarantees`: what an accepted certificate block guarantees

`Guaranteed` lists what holds of a certificate block that `from_file` returns: its extent in
the file, the entries that fill its certificate table, and the chain that the certificates
form. `fromFile_guarantees` proves it, with no assumption about the certificates.

The rest of the tool relies on it. `verifying_key` and `signature_len` expect that the walk
and the parsing succeed once more ("Ensured in verify"). In between, the total length is
written into the header of the block. `sameTable_setTotal` says that this changes
nothing that they read, if the header has the usual length.

The walk over the certificate table is a recursion, and `certificatesFrom_eq_ok` is its induction:
the entries that were read, put together, are the bytes that were walked over. The chain has the
recursion of `walk_chain`, and `Parses` pairs each certificate with the bytes that it was parsed
from.

`SameTable` is the relation between two blocks that agree in everything but the total length. It is
transitive, so setting the length more than once needs no argument of its own.
-/

set_option autoImplicit false

namespace EcSlimloader

open Bytes (u32At toLe splice sliceRange sliceFrom length_toLe length_splice drop_splice
  toLe_u32At u32At_splice_of_disjoint)

namespace CertBlock

variable {Certificate Key : Type} {crypto : Crypto Certificate Key} {overflowChecks : Bool}
  {me : CertBlock}

/-! ### The certificate table -/

/-- An entry of the certificate table: a length, and as many bytes. -/
def entry (cert : List UInt8) : List UInt8 := toLe (UInt32.ofNat cert.length) ++ cert

/-- The walk reads entries without a gap between them. -/
theorem certificatesFrom_eq_ok {count i nextCert last : Nat} {out : List (List UInt8)}
    (h : me.certificatesFrom count i nextCert = .ok (out, last)) :
    out.length = count ∧ (∀ cert ∈ out, cert.length < 2 ^ 32 ∧ cert.length % 4 = 0) ∧
      nextCert ≤ last ∧
      (me.data.drop nextCert).take (last - nextCert) = (out.map entry).flatten := by
  -- The walk peels entries off the front. `last` is where it ends, and stays the same.
  induction count generalizing i nextCert out with
  | zero =>
      cases h
      refine ⟨rfl, by simp, Nat.le_refl _, ?_⟩
      rw [Nat.sub_self]
      rfl
  | succ count ih =>
      simp only [certificatesFrom, Except.bind_eq_ok] at h
      obtain ⟨lenBytes, hlenBytes, h⟩ := h
      split at h
      · cases h
      next halign =>
      simp only [Except.bind_eq_ok] at h
      obtain ⟨cert, hcert, ⟨rest, last'⟩, hrest, hout⟩ := h
      obtain ⟨rfl, rfl⟩ := Prod.mk.inj (Except.ok.inj hout)
      obtain ⟨hle, hlenBytes⟩ := sliceRange_eq_ok.mp hlenBytes
      obtain ⟨hle', hcert⟩ := sliceRange_eq_ok.mp hcert
      obtain ⟨hcount, hcerts, hlast, htable⟩ := ih hrest
      rw [Nat.add_sub_cancel_left] at hlenBytes hcert
      have hlen : cert.length = (u32At lenBytes 0).toNat := by
        rw [hcert, List.length_take, List.length_drop]
        omega
      have hlenBytes4 : lenBytes.length = 4 := by
        rw [hlenBytes, List.length_take, List.length_drop]
        omega
      -- The four bytes of the length field are the number that was read from them.
      have hentry : entry cert = lenBytes ++ cert := by
        rw [entry, hlen, UInt32.ofNat_toNat, toLe_u32At hlenBytes4]
      refine ⟨by rw [List.length_cons, hcount], ?_, by omega, ?_⟩
      · rintro c (_ | ⟨_, hc⟩)
        · exact ⟨hlen ▸ UInt32.toNat_lt _, by rw [hlen]; omega⟩
        · exact hcerts c hc
      · -- The rest of the table starts behind the length field and the certificate.
        have hsplit : last' - nextCert = 4 + ((u32At lenBytes 0).toNat
            + (last' - (nextCert + 4 + (u32At lenBytes 0).toNat))) := by omega
        rw [hsplit, List.take_add, List.take_add, List.drop_drop, List.drop_drop, htable,
          ← hlenBytes, ← hcert, List.map_cons, List.flatten_cons, hentry, List.append_assoc]

/-- The certificates fill the table. -/
theorem certificates_table {certs : List (List UInt8)}
    (h : me.certificates overflowChecks = .ok certs) :
    ∃ headerLen certTableLen certCount, me.headerLen = .ok headerLen ∧
      me.certTableLen = .ok certTableLen ∧ me.certCount = .ok certCount ∧
      certs.length = certCount.toNat ∧
      (∀ cert ∈ certs, cert.length < 2 ^ 32 ∧ cert.length % 4 = 0) ∧
      (me.data.drop headerLen.toNat).take ((headerLen + certTableLen).toNat - headerLen.toNat)
        = (certs.map entry).flatten := by
  obtain ⟨headerLen, certTableLen, certCount, hheader, htable, hcount, hwalk⟩ := certificates_walk h
  obtain ⟨hlength, hcerts, -, hentries⟩ := certificatesFrom_eq_ok hwalk
  exact ⟨headerLen, certTableLen, certCount, hheader, htable, hcount, hlength, hcerts, hentries⟩

/-! ### The chain -/

/-- The certificates of `chain` are what the strings of `certs` parse as. -/
def Parses (crypto : Crypto Certificate Key) (certs : List (List UInt8))
    (chain : List Certificate) : Prop :=
  List.Forall₂ (fun raw cert => parseX509Cert crypto raw = .ok cert) certs chain

/-- The next certificate of a chain: its issuer is a CA and has signed it. -/
def Issues (crypto : Crypto Certificate Key) (issuer cert : Certificate) : Prop :=
  crypto.isCa issuer = true ∧ crypto.verifySignature cert issuer = true

/-- A walk along the chain. -/
theorem walkChain_eq_ok {rest : List (List UInt8)} {i : Nat} {issuer signingCert : Certificate}
    (h : walkChain crypto rest i issuer = .ok signingCert) :
    ∃ chain, Parses crypto rest chain ∧ (issuer :: chain).IsChain (Issues crypto) ∧
      (issuer :: chain).getLast? = some signingCert := by
  induction rest generalizing i issuer with
  | nil =>
      cases h
      exact ⟨[], .nil, .singleton _, rfl⟩
  | cons raw rest ih =>
      -- The CA flag is checked for the issuer, one step after its own signature.
      unfold walkChain at h
      split at h
      · cases h
      next hca =>
      simp only [Except.bind_eq_ok] at h
      obtain ⟨cert, hparse, h⟩ := h
      split at h
      · cases h
      next hverify =>
      obtain ⟨chain, hparses, hchain, hlast⟩ := ih h
      refine ⟨cert :: chain, .cons hparse hparses, .cons_cons ⟨?_, ?_⟩ hchain, ?_⟩
      · simpa using hca
      · simpa using hverify
      · rw [List.getLast?_cons_cons]
        exact hlast

/-- In a chain, every certificate but the last has issued another one. -/
theorem isCa_of_mem_dropLast {chain : List Certificate} (h : chain.IsChain (Issues crypto)) :
    ∀ cert ∈ chain.dropLast, crypto.isCa cert = true := by
  induction h with
  | nil => simp
  | singleton a => simp
  | cons_cons hissues _ ih =>
      rw [List.dropLast_cons_cons]
      rintro cert (_ | ⟨_, hcert⟩)
      · exact hissues.1
      · exact ih cert hcert

/-- The last string parses as the last certificate. -/
theorem Parses.getLast? {certs : List (List UInt8)} {chain : List Certificate}
    (h : Parses crypto certs chain) {signingCert : Certificate}
    (hlast : chain.getLast? = some signingCert) :
    ∃ raw, certs.getLast? = some raw ∧ parseX509Cert crypto raw = .ok signingCert := by
  -- Induction on the chain. The case of a last certificate is the one with nothing behind it.
  induction h with
  | nil => cases hlast
  | @cons raw cert certs chain hparse hrest ih =>
      cases hrest with
      | nil =>
          cases hlast
          exact ⟨raw, rfl, hparse⟩
      | cons hparse' hrest' =>
          rw [List.getLast?_cons_cons] at hlast ⊢
          exact ih hlast

/-- What holds of a certificate block that `from_file` returns for the content `file` and the
hash `expected`. -/
structure Guaranteed (crypto : Crypto Certificate Key) (overflowChecks : Bool)
    (file : List UInt8) (expected : Option Digest) (headerLen certTableLen : UInt32)
    (certs : List (List UInt8)) (chain : List Certificate) (me : CertBlock) : Prop where
  header : me.headerLen = .ok headerLen
  tableLen : me.certTableLen = .ok certTableLen
  /-- The block is a prefix of the file. -/
  raw : me.data = file.take (headerLen.toNat + certTableLen.toNat + 128)
  length : me.data.length = headerLen.toNat + certTableLen.toNat + 128
  count : ∃ certCount, me.certCount = .ok certCount ∧ certs.length = certCount.toNat
  /-- The entries fill the table, from the end of the header to the root key hashes. -/
  table : (me.data.drop headerLen.toNat).take certTableLen.toNat = (certs.map entry).flatten
  aligned : ∀ cert ∈ certs, cert.length < 2 ^ 32 ∧ cert.length % 4 = 0
  parses : Parses crypto certs chain
  /-- The key of the first certificate has one of the four hashes. -/
  root : ∃ rootCert modulus exponent, chain.head? = some rootCert ∧
    crypto.parsedKey rootCert = some (.rsa modulus exponent) ∧
    (rootKeyHash crypto modulus exponent).val ∈ (List.range 4).map fun i =>
      ((me.data.drop (headerLen.toNat + certTableLen.toNat)).drop (32 * i)).take 32
  ca : ∀ cert ∈ chain.dropLast, crypto.isCa cert = true
  leaf : 1 < chain.length → ∀ cert ∈ chain.getLast?, crypto.isCa cert = false
  single : ∀ cert, chain = [cert] → crypto.isCa cert = true
  signatures : chain.IsChain fun issuer cert => crypto.verifySignature cert issuer = true
  rkth : ∀ digest ∈ expected, me.rkth crypto overflowChecks = .ok digest

/-- The hash that the user has given is the one of the block. -/
theorem verifyRkth_eq_ok {expected : Option Digest}
    (h : me.verifyRkth crypto overflowChecks expected = .ok ()) :
    ∀ digest ∈ expected, me.rkth crypto overflowChecks = .ok digest := by
  intro digest hdigest
  cases hdigest
  unfold verifyRkth at h
  simp only [Except.bind_eq_ok] at h
  obtain ⟨rkth, hrkth, h⟩ := h
  split at h
  · cases h
  next hsame =>
  rw [hrkth, not_not.mp hsame]

/-- The guarantees of an accepted block. Its last certificate has a key. -/
theorem guaranteed_of_fromFile {file : List UInt8} {expected : Option Digest}
    (h : fromFile crypto overflowChecks file expected = .ok me) :
    ∃ headerLen certTableLen certs chain signingCert key,
      Guaranteed crypto overflowChecks file expected headerLen certTableLen certs chain me ∧
      me.certificates overflowChecks = .ok certs ∧ chain.getLast? = some signingCert ∧
      crypto.rsaPublicKey signingCert = some key ∧
      ∃ rkth, me.rkth crypto overflowChecks = .ok rkth := by
  obtain ⟨hverify, headerLen, certTableLen, hheader, htableLen, hlt, hlength, hraw⟩ :=
    fromFile_eq_ok h
  have hsum : (headerLen + certTableLen).toNat = headerLen.toNat + certTableLen.toNat := by
    rw [UInt32.toNat_add, Nat.mod_eq_of_lt hlt]
  obtain ⟨hrkth, rawRootCert, rest, rootCert, signingCert, hcerts, hroot, hwalk, hca, hkey⟩ :=
    verify_eq_ok hverify
  obtain ⟨hparse, modulus, exponent, hashes, hparsed, hhashes, hmem, hrootCa⟩ :=
    verifyRoot_eq_ok hroot
  obtain ⟨headerLen', certTableLen', certCount, hheader', htableLen', hcount, hcertsLen, haligned,
    htable⟩ := certificates_table hcerts
  -- All three functions read the same two lengths.
  obtain rfl : headerLen = headerLen' := Except.ok.inj (hheader.symm.trans hheader')
  obtain rfl : certTableLen = certTableLen' := Except.ok.inj (htableLen.symm.trans htableLen')
  rw [hsum, Nat.add_sub_cancel_left] at htable
  obtain ⟨chain, hparses, hchain, hlast⟩ := walkChain_eq_ok hwalk
  obtain ⟨key, hkey⟩ := Option.ne_none_iff_exists'.mp hkey
  have hlen : chain.length = rest.length := hparses.length_eq.symm
  have hrkthOk : me.rkth crypto overflowChecks = .ok (crypto.sha256 hashes.flatten) := by
    unfold CertBlock.rkth
    rw [hhashes]
    rfl
  -- The hashes are the last 128 bytes, behind the table.
  obtain ⟨start, hstart, -, rfl⟩ := rootKeyHashes_eq_ok.mp hhashes
  obtain rfl := rkhStart_eq hheader htableLen hstart
  rw [hsum] at hmem
  refine ⟨headerLen, certTableLen, rawRootCert :: rest, rootCert :: chain, signingCert, key, ?_,
    hcerts, hlast, hkey, _, hrkthOk⟩
  refine ⟨hheader, htableLen, hraw, hlength, ⟨certCount, hcount, hcertsLen⟩, htable, haligned,
    .cons hparse hparses, ⟨rootCert, modulus, exponent, rfl, hparsed, hmem⟩,
    isCa_of_mem_dropLast hchain, ?_, ?_, hchain.imp fun _ _ hissues => hissues.2,
    verifyRkth_eq_ok hrkth⟩
  · -- `verify` rejects a last certificate with the CA flag, unless it is the only one.
    intro hlong cert hcert
    rw [hlast] at hcert
    cases hcert
    rw [List.length_cons, hlen] at hlong
    rw [← Bool.not_eq_true]
    exact fun hsigning => hca ⟨hsigning, by rw [List.length_cons]; omega⟩
  · intro cert hcert
    cases hcert
    exact hrootCa

/-! ### Setting the total length

The total length is written to bytes 0x14 to 0x17 of the header. The table starts behind the header,
so its walk and the hashes are the same as before. -/

/-- A slice behind a part that was overwritten. -/
theorem sliceRange_splice {ε : Type} {data xs : List UInt8} {offset start : Nat}
    (h : offset + xs.length ≤ data.length) (hstart : offset + xs.length ≤ start) (stop : Nat) :
    (sliceRange (splice data offset xs) start stop : Except (Fault ε) (List UInt8))
      = sliceRange data start stop := by
  rw [sliceRange, sliceRange, length_splice h, drop_splice h hstart]

/-- The same, for a slice that goes to the end. -/
theorem sliceFrom_splice {ε : Type} {data xs : List UInt8} {offset start : Nat}
    (h : offset + xs.length ≤ data.length) (hstart : offset + xs.length ≤ start) :
    (sliceFrom (splice data offset xs) start : Except (Fault ε) (List UInt8))
      = sliceFrom data start := by
  rw [sliceFrom, sliceFrom, length_splice h, drop_splice h hstart]

/-- The block `me'` has the table of `me`, and everything that is computed from it. -/
structure SameTable (me me' : CertBlock) : Prop where
  header : me'.headerLen = me.headerLen
  tableLen : me'.certTableLen = me.certTableLen
  certificates : ∀ overflowChecks, me'.certificates overflowChecks = me.certificates overflowChecks
  hashes : ∀ overflowChecks, me'.rootKeyHashes overflowChecks = me.rootKeyHashes overflowChecks

namespace SameTable

variable {me' me'' : CertBlock}

/-- A block has its own table. -/
theorem refl (me : CertBlock) : SameTable me me := ⟨rfl, rfl, fun _ => rfl, fun _ => rfl⟩

/-- Blocks with the same table, in a row. -/
theorem trans (h : SameTable me me') (h' : SameTable me' me'') : SameTable me me'' :=
  ⟨h'.header.trans h.header, h'.tableLen.trans h.tableLen,
    fun oc => (h'.certificates oc).trans (h.certificates oc),
    fun oc => (h'.hashes oc).trans (h.hashes oc)⟩

/-- The key that verifies the image is read from the table. -/
theorem verifyingKey_eq (h : SameTable me me') :
    me'.verifyingKey crypto overflowChecks = me.verifyingKey crypto overflowChecks := by
  rw [verifyingKey, verifyingKey, h.certificates]

/-- So is the length of the signature, by way of that key. -/
theorem signatureLen_eq (h : SameTable me me') :
    me'.signatureLen crypto overflowChecks = me.signatureLen crypto overflowChecks := by
  rw [signatureLen, signatureLen, h.verifyingKey_eq]

/-- So is the hash of the root keys. -/
theorem rkth_eq (h : SameTable me me') :
    me'.rkth crypto overflowChecks = me.rkth crypto overflowChecks := by
  rw [CertBlock.rkth, CertBlock.rkth, h.hashes]

end SameTable

section Splice

variable {xs : List UInt8} (hxs : xs.length = 4) (hlen : 0x18 ≤ me.data.length)
include hxs hlen

/-- A field of the header other than the total length. -/
theorem field_splice {offset : Nat} (hdisj : offset + 4 ≤ 0x14 ∨ 0x18 ≤ offset) :
    (CertBlock.mk (splice me.data 0x14 xs)).field offset = me.field offset := by
  have hin : 0x14 + xs.length ≤ me.data.length := by omega
  rcases hdisj with hdisj | hdisj
  · -- In front of the total length, both sides read a number that exists.
    have hfield : me.field offset = .ok (u32At me.data offset) :=
      field_eq_ok.mpr ⟨by omega, rfl⟩
    rw [hfield]
    refine field_eq_ok.mpr ⟨?_, ?_⟩
    · show offset + 4 ≤ (splice me.data 0x14 xs).length
      rw [length_splice hin]
      omega
    · exact (u32At_splice_of_disjoint hin (.inl hdisj)).symm
  · unfold field
    rw [sliceRange_splice hin (by omega)]

/-- The walk over a table behind the header. -/
theorem certificatesFrom_splice (count i nextCert : Nat) (hnext : 0x18 ≤ nextCert) :
    (CertBlock.mk (splice me.data 0x14 xs)).certificatesFrom count i nextCert
      = me.certificatesFrom count i nextCert := by
  have hin : 0x14 + xs.length ≤ me.data.length := by omega
  induction count generalizing i nextCert with
  | zero => rfl
  | succ count ih =>
      simp (disch := omega) only [certificatesFrom, sliceRange_splice hin, ih]

end Splice

section SetTotal

variable {certTableLen : UInt32} (hheader : me.headerLen = .ok 0x20)
  (htable : me.certTableLen = .ok certTableLen) (hlt : 0x20 + certTableLen.toNat < 2 ^ 32)
include hheader htable hlt

/-- Setting the total length of a block with the usual header keeps its table. -/
theorem sameTable_setTotal {length : Nat} {me' : CertBlock}
    (h : me.setTotalImageLengthInBytes length = .ok me') : SameTable me me' := by
  obtain ⟨hlen, rfl⟩ := setTotalImageLengthInBytes_eq_ok h
  have hin : 0x14 + (toLe (UInt32.ofNat length)).length ≤ me.data.length := hlen
  have hheader' : (CertBlock.mk (splice me.data 0x14 (toLe (UInt32.ofNat length)))).headerLen
      = me.headerLen := field_splice rfl hlen (.inl (by decide))
  have htable' : (CertBlock.mk (splice me.data 0x14 (toLe (UInt32.ofNat length)))).certTableLen
      = me.certTableLen := field_splice rfl hlen (.inr (by decide))
  have hcount' : (CertBlock.mk (splice me.data 0x14 (toLe (UInt32.ofNat length)))).certCount
      = me.certCount := field_splice rfl hlen (.inr (by decide))
  have hstart' (oc : Bool) : (CertBlock.mk (splice me.data 0x14
      (toLe (UInt32.ofNat length)))).rkhStart oc = me.rkhStart oc := by
    rw [rkhStart, rkhStart, hheader', htable']
  have hlt' : (0x20 : UInt32).toNat + certTableLen.toNat < 2 ^ 32 := hlt
  -- The table starts at `0x20`, behind the field that was written.
  have hstart (oc : Bool) : me.rkhStart oc = .ok (0x20 + certTableLen) := by
    rw [rkhStart, hheader, htable, Except.ok_bind, Except.ok_bind, Bytes.addU32_of_lt hlt']
  have hsum : (0x20 + certTableLen).toNat = 0x20 + certTableLen.toNat := by
    rw [UInt32.toNat_add]
    exact Nat.mod_eq_of_lt hlt
  refine ⟨hheader', htable', fun oc => ?_, fun oc => ?_⟩
  · have hwalk (count : Nat) : (CertBlock.mk (splice me.data 0x14
        (toLe (UInt32.ofNat length)))).certificatesFrom count 0 (0x20 : UInt32).toNat
        = me.certificatesFrom count 0 (0x20 : UInt32).toNat :=
      certificatesFrom_splice rfl hlen count 0 _ (by decide)
    unfold certificates
    rw [hheader', hheader, Except.ok_bind, Except.ok_bind, hcount', hstart']
    simp only [hwalk]
  · unfold rootKeyHashes
    rw [hstart', hstart, Except.ok_bind, Except.ok_bind]
    rw [sliceFrom_splice hin]
    show 0x18 ≤ (0x20 + certTableLen).toNat
    omega

/-- So do any number of calls, and they return. -/
theorem sameTable_setTotals (lengths : List Nat) (hlengths : ∀ n ∈ lengths, n < 2 ^ 32) :
    ∃ me', lengths.foldlM setTotalImageLengthInBytes me = .ok me' ∧ SameTable me me' := by
  induction lengths generalizing me with
  | nil => exact ⟨me, rfl, .refl me⟩
  | cons n lengths ih =>
      have hn := hlengths n List.mem_cons_self
      have hlen := (field_eq_ok.mp htable).1
      -- The conversion to `u32` does not fail, and the header is long enough.
      have hset : me.setTotalImageLengthInBytes n
          = .ok { data := splice me.data 0x14 (toLe (UInt32.ofNat n)) } := by
        rw [setTotalImageLengthInBytes, if_neg (by omega), if_neg (by omega)]
      have hsame := sameTable_setTotal hheader htable hlt hset
      obtain ⟨me', hrest, hsame'⟩ := ih (hsame.header.trans hheader)
        (hsame.tableLen.trans htable) fun m hm => hlengths m (List.mem_cons_of_mem _ hm)
      refine ⟨me', ?_, hsame.trans hsame'⟩
      rw [List.foldlM_cons, hset]
      exact hrest

end SetTotal

/-- The key of the last certificate is the one that `verifying_key` returns. -/
theorem verifyingKey_of_chain {certs : List (List UInt8)} {chain : List Certificate}
    {signingCert : Certificate} {key : Key} (hcerts : me.certificates overflowChecks = .ok certs)
    (hparses : Parses crypto certs chain) (hlast : chain.getLast? = some signingCert)
    (hkey : crypto.rsaPublicKey signingCert = some key) :
    me.verifyingKey crypto overflowChecks = .ok key := by
  obtain ⟨raw, hraw, hparse⟩ := hparses.getLast? hlast
  unfold verifyingKey
  rw [hcerts, ToolResult.expect, Except.ok_bind, hraw]
  simp only [hparse, ToolResult.expect, Except.ok_bind, hkey]
  rfl

/-- What an accepted certificate block guarantees. Setting the total length of a block with
the usual header any number of times does not change what the tool reads from it later. -/
theorem fromFile_guarantees {file : List UInt8} {expected : Option Digest}
    (h : fromFile crypto overflowChecks file expected = .ok me) :
    ∃ headerLen certTableLen certs chain,
      Guaranteed crypto overflowChecks file expected headerLen certTableLen certs chain me ∧
      (headerLen = 0x20 → ∀ lengths : List Nat, (∀ n ∈ lengths, n < 2 ^ 32) →
        ∃ me' signingCert key rkth, lengths.foldlM setTotalImageLengthInBytes me = .ok me' ∧
          chain.getLast? = some signingCert ∧ crypto.rsaPublicKey signingCert = some key ∧
          ∀ b ∈ [me, me'], b.verifyingKey crypto overflowChecks = .ok key ∧
            b.signatureLen crypto overflowChecks = .ok (crypto.keySize key) ∧
            b.rkth crypto overflowChecks = .ok rkth) := by
  obtain ⟨headerLen, certTableLen, certs, chain, signingCert, key, hguaranteed, hcerts, hlast, hkey,
    rkth, hrkth⟩ := guaranteed_of_fromFile h
  refine ⟨headerLen, certTableLen, certs, chain, hguaranteed, ?_⟩
  intro husual lengths hlengths
  subst husual
  -- The sum did not wrap, or the file would have been rejected.
  have hlt : 0x20 + certTableLen.toNat < 2 ^ 32 := by
    obtain ⟨-, _, _, hheader, htable, hlt, -⟩ := fromFile_eq_ok h
    rw [hguaranteed.header] at hheader
    rw [hguaranteed.tableLen] at htable
    cases hheader
    cases htable
    exact hlt
  obtain ⟨me', hset, hsame⟩ :=
    sameTable_setTotals hguaranteed.header hguaranteed.tableLen hlt lengths hlengths
  have hverifying := verifyingKey_of_chain hcerts hguaranteed.parses hlast hkey
  have hsignature : me.signatureLen crypto overflowChecks = .ok (crypto.keySize key) := by
    rw [signatureLen, hverifying]
    rfl
  refine ⟨me', signingCert, key, rkth, hset, hlast, hkey, ?_⟩
  intro b hb
  rw [List.mem_pair] at hb
  rcases hb with rfl | rfl
  · exact ⟨hverifying, hsignature, hrkth⟩
  · exact ⟨hsame.verifyingKey_eq.trans hverifying, hsame.signatureLen_eq.trans hsignature,
      hsame.rkth_eq.trans hrkth⟩

/-- The block of the sample certificate, with padding behind it in the file. -/
theorem fromFile_guarantees_sample :
    ∃ me, fromFile sampleCrypto true sampleFile none = .ok me ∧ me.headerLen = .ok 0x20 ∧
      ∃ certTableLen certs chain,
        Guaranteed sampleCrypto true sampleFile none 0x20 certTableLen certs chain me := by
  have hfile : fromFile sampleCrypto true sampleFile none
      = .ok { data := sampleFile.take 448 } := by decide +kernel
  have hheader : (CertBlock.mk (sampleFile.take 448)).headerLen = .ok 0x20 := by decide +kernel
  obtain ⟨headerLen, certTableLen, certs, chain, h, -⟩ := fromFile_guarantees hfile
  obtain rfl : headerLen = 0x20 := Except.ok.inj (h.header.symm.trans hheader)
  exact ⟨_, hfile, hheader, certTableLen, certs, chain, h⟩

end CertBlock

end EcSlimloader
