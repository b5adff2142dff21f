import EcSlimloader.Proofs.Tool.Guarantees
import EcSlimloader.Tool.Certificates

/-!
# `EcSlimloader.Proofs.Tool.Certificates`: the tool verifies the certificates that it generates

The tool decides about the CA flag of a certificate by its place in the chain, when it
generates it and again when it verifies a certificate block. `generated_chain_verifies_iff`
compares the two: a chain that was generated is accepted exactly if it has at least two
certificates. The only certificate of a chain is its leaf for `generate`, so it is no CA. For
`verify` it is the root, which must be one.

`Issuing` is what `nxpcrypto` is relied on for. `Linked` is what a generated chain looks like.
Its recursion is that of `walkChain`.

`generate` never replaces a file, so the files only grow (`Extends`), and what one certificate of
the chain has left is still there when the next one is issued. The chains in front of the one that
is looked at may have written some of its files. `ReadyChain` is what is asked of them: the key
files that are there hold keys, and the certificate files are not there.

The sample chains are evaluated on certificates in DER form, so the parts of the source that look at
bytes are run on them too.
-/

set_option autoImplicit false

namespace EcSlimloader

/-- The certificate has an RSA key and is signed with RSA and SHA-256. -/
def RsaCertificate {Certificate Key : Type} (crypto : Crypto Certificate Key)
    (cert : Certificate) : Prop :=
  crypto.isSha256WithRsa cert = true ∧
    (∃ modulus exponent, crypto.parsedKey cert = some (.rsa modulus exponent)) ∧
    (crypto.rsaPublicKey cert).isSome = true

/-- `nxpcrypto` generates keys and certificates as requested. -/
structure Issuing {File Certificate Key : Type} (nxpcrypto : Nxpcrypto File)
    (crypto : Crypto Certificate Key) (PrivateKey : Type) where
  /-- The private key that a file contains. -/
  keyIn : File → Option PrivateKey
  /-- The certificate that a file contains. -/
  certificateIn : File → Option Certificate
  /-- The private key that the public key of a certificate belongs to. -/
  subjectKey : Certificate → PrivateKey
  key_generated : ∀ keyType path files file,
    nxpcrypto.keyGenerate keyType path files = some file → (keyIn file).isSome = true
  /-- The certificate is for the requested subject, and verifies under the public key of the
  requested issuer only. -/
  certificate_generated : ∀ config path files file issuer subject,
    nxpcrypto.certGenerate config path files = some file →
    (files config.issuerPrivateKey).bind keyIn = some issuer →
    (files config.subjectPublicKey).bind keyIn = some subject →
    ∃ cert, certificateIn file = some cert ∧ subjectKey cert = subject ∧
      crypto.isCa cert = config.ca ∧ RsaCertificate crypto cert ∧
      ∀ other, crypto.verifySignature cert other = true ↔ subjectKey other = issuer

/-! ### The files

The commands only add files. `Extends` is kept by everything that follows, so a file that was
written by one entry can be read in the end. -/

section Files

variable {File : Type}

/-- Files were added, but none was changed. -/
def Extends (files files' : Files File) : Prop :=
  ∀ path file, files path = some file → files' path = some file

/-- No file was added. -/
theorem Extends.refl (files : Files File) : Extends files files := fun _ _ h => h

/-- Files that were added one after the other. -/
theorem Extends.trans {files files' files'' : Files File} (h : Extends files files')
    (h' : Extends files' files'') : Extends files files'' :=
  fun path file hfile => h' path file (h path file hfile)

/-- A file that was not there is written. -/
theorem extends_update {files : Files File} {path : Path} (h : files path = none) (file : File) :
    Extends files (Function.update files path (some file)) := by
  intro path' file' hfile
  have hne : path' ≠ path := by
    rintro rfl
    rw [h] at hfile
    cases hfile
  rw [Function.update_of_ne hne, hfile]

/-- What a file contains stays in it. -/
theorem Extends.bind_eq {α : Type} {files files' : Files File} (h : Extends files files')
    {path : Path} {f : File → Option α} {a : α} (ha : (files path).bind f = some a) :
    (files' path).bind f = some a := by
  obtain ⟨file, hfile, hf⟩ := Option.bind_eq_some_iff.mp ha
  rw [h path file hfile]
  exact hf

end Files

/-! ### The run of `generate` -/

section Generate

variable {File Certificate Key PrivateKey : Type} {nxpcrypto : Nxpcrypto File}
  {crypto : Crypto Certificate Key}

/-- The run of `generate_private_key`. -/
theorem generatePrivateKey_run (prototype : Config.CertificatePrototype) (files : Files File) :
    generatePrivateKey nxpcrypto prototype files
      = match files prototype.keyPath with
        | some _ => .ok () files
        | none =>
            match nxpcrypto.keyGenerate prototype.keyType prototype.keyPath files with
            | none => .error (.error (.privateKey prototype.keyPath)) files
            | some file => .ok () (Function.update files prototype.keyPath (some file)) := by
  unfold generatePrivateKey
  rw [Exec.get_bind]
  cases files prototype.keyPath with
  | some file => rfl
  | none =>
      simp only
      cases nxpcrypto.keyGenerate prototype.keyType prototype.keyPath files with
      | none => rfl
      | some file => rfl

/-- `generate_private_key` writes a file only where there is none. -/
theorem extends_generatePrivateKey {prototype : Config.CertificatePrototype}
    {files files' : Files File} (h : generatePrivateKey nxpcrypto prototype files = .ok () files') :
    Extends files files' := by
  rw [generatePrivateKey_run] at h
  split at h
  · cases h
    exact .refl files
  next hfile =>
    split at h
    · cases h
    · cases h
      exact extends_update hfile _

/-- After `generate_private_key` there is a key. -/
theorem generatePrivateKey_ok (spec : Issuing nxpcrypto crypto PrivateKey)
    {prototype : Config.CertificatePrototype} {files files' : Files File}
    (hkey : ∀ file, files prototype.keyPath = some file → (spec.keyIn file).isSome = true)
    (h : generatePrivateKey nxpcrypto prototype files = .ok () files') :
    (∀ path, path ≠ prototype.keyPath → files' path = files path) ∧
      ∃ key, (files' prototype.keyPath).bind spec.keyIn = some key := by
  rw [generatePrivateKey_run] at h
  split at h
  -- The key file is there, so it is kept. It holds a key by hypothesis.
  next file hfile =>
    cases h
    obtain ⟨key, hk⟩ := Option.isSome_iff_exists.mp (hkey file hfile)
    refine ⟨fun _ _ => rfl, key, ?_⟩
    rw [hfile]
    exact hk
  · split at h
    · cases h
    -- It is generated, and `Issuing` says that what is generated holds a key.
    next file hgen =>
      cases h
      obtain ⟨key, hk⟩ := Option.isSome_iff_exists.mp (spec.key_generated _ _ _ _ hgen)
      refine ⟨fun path hne => Function.update_of_ne hne _ _, key, ?_⟩
      rw [Function.update_self]
      exact hk

/-- The run of `generate_certificate`, for an entry with a prototype. -/
theorem generateCertificate_run {certificate : Config.Certificate}
    {prototype : Config.CertificatePrototype} (hprototype : certificate.prototype = some prototype)
    (parent : Option Config.Certificate) (isLeaf : Bool) (files : Files File) :
    generateCertificate nxpcrypto certificate parent isLeaf files
      = match issuerKeyPath certificate prototype parent with
        | .error e => .error e files
        | .ok issuerPath =>
            match files certificate.path with
            | some _ => .ok () files
            | none =>
                match nxpcrypto.certGenerate
                    { issuerPrivateKey := issuerPath, subjectPublicKey := prototype.keyPath,
                      ca := !isLeaf } certificate.path files with
                | none => .error (.error (.certificate certificate parent)) files
                | some file => .ok () (Function.update files certificate.path (some file)) := by
  unfold generateCertificate
  simp only [hprototype]
  cases issuerKeyPath certificate prototype parent with
  | error e => rfl
  | ok issuerPath =>
      rw [Exec.bind_ok (Exec.ofExcept_ok_run issuerPath files), Exec.get_bind]
      cases files certificate.path with
      | some file => rfl
      | none =>
          simp only
          cases nxpcrypto.certGenerate _ certificate.path files with
          | none => rfl
          | some file => rfl

/-- So does `generate_certificate`. -/
theorem extends_generateCertificate {certificate : Config.Certificate}
    {prototype : Config.CertificatePrototype} {parent : Option Config.Certificate} {isLeaf : Bool}
    {files files' : Files File} (hprototype : certificate.prototype = some prototype)
    (h : generateCertificate nxpcrypto certificate parent isLeaf files = .ok () files') :
    Extends files files' := by
  rw [generateCertificate_run hprototype] at h
  split at h
  · cases h
  · split at h
    · cases h
      exact .refl files
    next hfile =>
      split at h
      · cases h
      · cases h
        exact extends_update hfile _

/-- `generate_certificate` for a certificate that is not there yet. -/
theorem generateCertificate_ok {certificate : Config.Certificate}
    {prototype : Config.CertificatePrototype} {parent : Option Config.Certificate} {isLeaf : Bool}
    {files files' : Files File} (hprototype : certificate.prototype = some prototype)
    (habsent : files certificate.path = none)
    (h : generateCertificate nxpcrypto certificate parent isLeaf files = .ok () files') :
    ∃ issuerPath file, issuerKeyPath certificate prototype parent = .ok issuerPath ∧
      nxpcrypto.certGenerate
          { issuerPrivateKey := issuerPath, subjectPublicKey := prototype.keyPath, ca := !isLeaf }
          certificate.path files = some file ∧
      files' = Function.update files certificate.path (some file) := by
  rw [generateCertificate_run hprototype] at h
  split at h
  · cases h
  next issuerPath hissuer =>
    -- The certificate's file is not there, so the branch that keeps it is out.
    rw [habsent] at h
    dsimp only at h
    split at h
    · cases h
    next file hgen =>
      cases h
      exact ⟨issuerPath, file, hissuer, hgen, rfl⟩

/-- The certificate was issued by the key `issuer`, with a CA flag. -/
def Issued (spec : Issuing nxpcrypto crypto PrivateKey) (issuer : PrivateKey) (ca : Bool)
    (cert : Certificate) : Prop :=
  crypto.isCa cert = ca ∧ RsaCertificate crypto cert ∧
    ∀ other, crypto.verifySignature cert other = true ↔ spec.subjectKey other = issuer

/-- An entry of the configuration whose certificate is not there yet. Its key may be there,
but then the file must contain a key. -/
structure ReadyCertificate (spec : Issuing nxpcrypto crypto PrivateKey)
    (certificate : Config.Certificate)
    (files : Files File) : Prop where
  absent : files certificate.path = none
  apart : ∀ prototype ∈ certificate.prototype, certificate.path ≠ prototype.keyPath
  key : ∀ prototype ∈ certificate.prototype, ∀ file, files prototype.keyPath = some file →
    (spec.keyIn file).isSome = true

/-- `generate_single` returns when both of its parts do. -/
theorem generateSingle_eq_ok {certificate : Config.Certificate}
    {parent : Option Config.Certificate} {isLeaf : Bool} {files files' : Files File}
    (h : generateSingle nxpcrypto certificate parent isLeaf files = .ok () files') :
    ∃ prototype files₁, certificate.prototype = some prototype ∧
      generatePrivateKey nxpcrypto prototype files = .ok () files₁ ∧
      generateCertificate nxpcrypto certificate parent isLeaf files₁ = .ok () files' := by
  unfold generateSingle at h
  cases hprototype : certificate.prototype with
  | none =>
      simp only [hprototype] at h
      cases h
  | some prototype =>
      simp only [hprototype] at h
      obtain ⟨_, files₁, hkey, hcert⟩ := Exec.bind_eq_ok h
      exact ⟨prototype, files₁, rfl, hkey, hcert⟩

/-- `generate_single` does not change a file. -/
theorem extends_generateSingle {certificate : Config.Certificate}
    {parent : Option Config.Certificate} {isLeaf : Bool} {files files' : Files File}
    (h : generateSingle nxpcrypto certificate parent isLeaf files = .ok () files') :
    Extends files files' := by
  obtain ⟨prototype, files₁, hprototype, hkey, hcert⟩ := generateSingle_eq_ok h
  exact (extends_generatePrivateKey hkey).trans (extends_generateCertificate hprototype hcert)

/-- `generate_single` for such an entry. -/
theorem generateSingle_ok (spec : Issuing nxpcrypto crypto PrivateKey)
    {certificate : Config.Certificate} {parent : Option Config.Certificate} {isLeaf : Bool}
    {files files' : Files File} (hready : ReadyCertificate spec certificate files)
    (h : generateSingle nxpcrypto certificate parent isLeaf files = .ok () files') :
    ∃ prototype key issuerPath, certificate.prototype = some prototype ∧
      issuerKeyPath certificate prototype parent = .ok issuerPath ∧
      (∀ path, path ≠ prototype.keyPath → path ≠ certificate.path → files' path = files path) ∧
      (files' prototype.keyPath).bind spec.keyIn = some key ∧
      ∀ issuer, (files issuerPath).bind spec.keyIn = some issuer ∨
          (issuerPath = prototype.keyPath ∧ issuer = key) →
        ∃ cert, (files' certificate.path).bind spec.certificateIn = some cert ∧
          spec.subjectKey cert = key ∧ Issued spec issuer (!isLeaf) cert := by
  obtain ⟨prototype, files₁, hprototype, hkeyRun, hcertRun⟩ := generateSingle_eq_ok h
  have hext := extends_generatePrivateKey hkeyRun
  have hapart := hready.apart prototype hprototype
  obtain ⟨hframe, key, hkey⟩ :=
    generatePrivateKey_ok spec (hready.key prototype hprototype) hkeyRun
  have habsent : files₁ certificate.path = none := by
    rw [hframe _ hapart, hready.absent]
  obtain ⟨issuerPath, file, hissuer, hgen, rfl⟩ :=
    generateCertificate_ok hprototype habsent hcertRun
  refine ⟨prototype, key, issuerPath, hprototype, hissuer, ?_,
    (extends_update habsent file).bind_eq hkey, ?_⟩
  · intro path hne hne'
    rw [Function.update_of_ne hne', hframe path hne]
  · intro issuer hsigner
    -- The issuer's key was there before, or it is the key that has just been generated.
    have hsigner₁ : (files₁ issuerPath).bind spec.keyIn = some issuer := by
      rcases hsigner with hsigner | ⟨rfl, rfl⟩
      · exact hext.bind_eq hsigner
      · exact hkey
    obtain ⟨cert, hcert, hsubject, hissued⟩ :=
      spec.certificate_generated _ _ _ _ _ _ hgen hsigner₁ hkey
    refine ⟨cert, ?_, hsubject, hissued⟩
    rw [Function.update_self]
    exact hcert

/-- A chain that was generated has changed no file that was there. Keys and certificates of
an earlier run are reused, never overwritten. -/
theorem extends_generateChain {chain : List Config.Certificate}
    {parent : Option Config.Certificate} {files files' : Files File}
    (h : generateChain nxpcrypto chain parent files = .ok () files') : Extends files files' := by
  induction chain generalizing parent files with
  | nil =>
      cases h
      exact .refl _
  | cons certificate rest ih =>
      obtain ⟨_, files₁, hsingle, hrest⟩ := Exec.bind_eq_ok h
      exact (extends_generateSingle hsingle).trans (ih hrest)

/-- The certificates of a chain behind the key `issuer`. The recursion is that of
`walkChain`. -/
def Linked (spec : Issuing nxpcrypto crypto PrivateKey) : PrivateKey → List Certificate → Prop
  | _, [] => True
  | issuer, cert :: rest =>
      Issued spec issuer (!rest.isEmpty) cert ∧ Linked spec (spec.subjectKey cert) rest

/-- The files contain the certificates of a chain. -/
def Contains (spec : Issuing nxpcrypto crypto PrivateKey) (files : Files File)
    (chain : List Config.Certificate) (certs : List Certificate) : Prop :=
  List.Forall₂ (fun certificate cert =>
    (files certificate.path).bind spec.certificateIn = some cert) chain certs

/-- A chain in the files has a certificate exactly when the configured one has. -/
theorem Contains.isEmpty_eq {spec : Issuing nxpcrypto crypto PrivateKey} {files : Files File}
    {chain : List Config.Certificate} {certs : List Certificate}
    (h : Contains spec files chain certs) : certs.isEmpty = chain.isEmpty := by
  cases h with
  | nil => rfl
  | cons _ _ => rfl

/-- The entries of a chain that is still to be generated. Their certificates are files of their
own, and none of them is a key. -/
structure ReadyChain (spec : Issuing nxpcrypto crypto PrivateKey)
    (chain : List Config.Certificate) (files : Files File) : Prop where
  ready : ∀ certificate ∈ chain, ReadyCertificate spec certificate files
  nodup : (chain.map Config.Certificate.path).Nodup
  apart : ∀ certificate ∈ chain, ∀ certificate' ∈ chain, ∀ prototype ∈ certificate'.prototype,
    certificate.path ≠ prototype.keyPath

/-- What one entry adds does not get in the way of the entries behind it. -/
theorem ReadyChain.tail {spec : Issuing nxpcrypto crypto PrivateKey}
    {certificate : Config.Certificate} {rest : List Config.Certificate} {files files' : Files File}
    (h : ReadyChain spec (certificate :: rest) files) {prototype : Config.CertificatePrototype}
    {key : PrivateKey} (hprototype : certificate.prototype = some prototype)
    (hkey : (files' prototype.keyPath).bind spec.keyIn = some key)
    (hframe : ∀ path, path ≠ prototype.keyPath → path ≠ certificate.path →
      files' path = files path) : ReadyChain spec rest files' := by
  obtain ⟨hready, hnodup, hapart⟩ := h
  rw [List.map_cons, List.nodup_cons] at hnodup
  refine ⟨fun c hc => ?_, hnodup.2, fun c hc c' hc' => hapart c (List.mem_cons_of_mem _ hc) c'
    (List.mem_cons_of_mem _ hc')⟩
  -- An entry behind this one. Its certificate has a path of its own.
  have hc' := List.mem_cons_of_mem certificate hc
  obtain ⟨habsent, hown, hkeys⟩ := hready c hc'
  refine ⟨?_, hown, ?_⟩
  · have hne : c.path ≠ certificate.path := by
      intro heq
      exact hnodup.1 (heq ▸ List.mem_map_of_mem hc)
    rw [hframe _ (hapart c hc' certificate List.mem_cons_self prototype hprototype) hne, habsent]
  · intro p hp file hfile
    by_cases hsame : p.keyPath = prototype.keyPath
    · -- The same key for two entries is generated once.
      rw [hsame] at hfile
      rw [hfile] at hkey
      exact Option.isSome_iff_exists.mpr ⟨key, hkey⟩
    · have hne := hapart certificate List.mem_cons_self c hc' p hp
      rw [hframe _ hsame hne.symm] at hfile
      exact hkeys p hp file hfile

/-- The rest of a chain, behind a parent whose key is there. -/
theorem generateChain_ok (spec : Issuing nxpcrypto crypto PrivateKey)
    {rest : List Config.Certificate} {parent : Config.Certificate}
    {parentPrototype : Config.CertificatePrototype} {issuer : PrivateKey}
    {files files' : Files File} (hready : ReadyChain spec rest files)
    (hparent : parent.prototype = some parentPrototype)
    (hissuer : (files parentPrototype.keyPath).bind spec.keyIn = some issuer)
    (h : generateChain nxpcrypto rest (some parent) files = .ok () files') :
    ∃ certs, Contains spec files' rest certs ∧ Linked spec issuer certs := by
  induction rest generalizing parent parentPrototype issuer files with
  | nil =>
      cases h
      exact ⟨[], .nil, trivial⟩
  | cons certificate rest ih =>
      obtain ⟨_, files₁, hsingle, hrest⟩ := Exec.bind_eq_ok h
      obtain ⟨prototype, key, issuerPath, hprototype, hpath, hframe, hkey, hissue⟩ :=
        generateSingle_ok spec (hready.ready certificate List.mem_cons_self) hsingle
      have hpath' : issuerPath = parentPrototype.keyPath := by
        unfold issuerKeyPath at hpath
        simp only [hparent] at hpath
        exact (Except.ok.inj hpath).symm
      obtain ⟨cert, hcert, hsubject, hissued⟩ := hissue issuer (.inl (hpath' ▸ hissuer))
      obtain ⟨certs, hcontains, hlinked⟩ :=
        ih (hready.tail hprototype hkey hframe) hprototype hkey hrest
      -- What the rest of the chain adds leaves this certificate where it is.
      have hcert' := (extends_generateChain hrest).bind_eq hcert
      refine ⟨cert :: certs, .cons hcert' hcontains, ?_, ?_⟩
      · rw [hcontains.isEmpty_eq]
        exact hissued
      · rw [hsubject]
        exact hlinked

/-- A whole chain. Its root is self-signed. -/
theorem generateChain_root (spec : Issuing nxpcrypto crypto PrivateKey)
    {root : Config.Certificate} {rest : List Config.Certificate} {files files' : Files File}
    (hready : ReadyChain spec (root :: rest) files)
    (h : generateChain nxpcrypto (root :: rest) none files = .ok () files') :
    ∃ issuer certs, Contains spec files' (root :: rest) certs ∧ Linked spec issuer certs := by
  obtain ⟨_, files₁, hsingle, hrest⟩ := Exec.bind_eq_ok h
  obtain ⟨prototype, key, issuerPath, hprototype, hpath, hframe, hkey, hissue⟩ :=
    generateSingle_ok spec (hready.ready root List.mem_cons_self) hsingle
  -- Without a parent, the key of the certificate itself signs it.
  obtain rfl := Except.ok.inj hpath
  obtain ⟨cert, hcert, hsubject, hissued⟩ := hissue key (.inr ⟨rfl, rfl⟩)
  obtain ⟨certs, hcontains, hlinked⟩ :=
    generateChain_ok spec (hready.tail hprototype hkey hframe) hprototype hkey hrest
  have hcert' := (extends_generateChain hrest).bind_eq hcert
  refine ⟨key, cert :: certs, .cons hcert' hcontains, ?_, ?_⟩
  · rw [hcontains.isEmpty_eq]
    exact hissued
  · rw [hsubject]
    exact hlinked

/-! ### The other chains -/

/-- The same for all chains of the configuration. -/
theorem extends_generateChains {chains : List (List Config.Certificate)}
    {files files' : Files File} (h : generateChains nxpcrypto chains files = .ok () files') :
    Extends files files' := by
  induction chains generalizing files with
  | nil =>
      cases h
      exact .refl _
  | cons chain chains ih =>
      obtain ⟨_, files₁, hchain, hrest⟩ := Exec.bind_eq_ok h
      exact (extends_generateChain hchain).trans (ih hrest)

/-- A chain has its turn in the run of `generate`. -/
theorem generateChains_split {before after : List (List Config.Certificate)}
    {chain : List Config.Certificate} {files files' : Files File}
    (h : generateChains nxpcrypto (before ++ chain :: after) files = .ok () files') :
    ∃ files₁ files₂, generateChains nxpcrypto before files = .ok () files₁ ∧
      generateChain nxpcrypto chain none files₁ = .ok () files₂ ∧ Extends files₂ files' := by
  -- Induction on the chains in front of the one that is looked for.
  induction before generalizing files with
  | nil =>
      obtain ⟨_, files₂, hchain, hafter⟩ := Exec.bind_eq_ok h
      exact ⟨files, files₂, rfl, hchain, extends_generateChains hafter⟩
  | cons first before ih =>
      obtain ⟨_, files₀, hfirst, hrest⟩ := Exec.bind_eq_ok h
      obtain ⟨files₁, files₂, hbefore, hchain, hext⟩ := ih hrest
      refine ⟨files₁, files₂, ?_, hchain, hext⟩
      rw [generateChains, Exec.bind_ok hfirst]
      exact hbefore

/-! ### The verification

`Placed` says that a block holds the certificates and the hashes that it should. From there the walk
over the chain decides, and its checks are those that `Linked` provides or fails to provide. -/

/-- The block contains the certificates in order, the hash of the root's key, and the hash that
the user has given. Up to three bytes of padding are behind a certificate. -/
structure Placed (crypto : Crypto Certificate Key) (overflowChecks : Bool)
    (certs : List Certificate) (expected : Option Digest) (me : CertBlock) : Prop where
  certificates : ∃ raws, me.certificates overflowChecks = .ok raws ∧
    List.Forall₂ (fun raw cert => ∃ rem, crypto.fromDer raw = some (rem, cert) ∧ rem.length < 4)
      raws certs
  hashes : ∃ hashes, me.rootKeyHashes overflowChecks = .ok hashes ∧
    ∀ root ∈ certs.head?, ∀ modulus exponent,
      crypto.parsedKey root = some (.rsa modulus exponent) →
      (CertBlock.rootKeyHash crypto modulus exponent).val ∈ hashes
  rkth : ∀ digest ∈ expected, me.rkth crypto overflowChecks = .ok digest

variable {overflowChecks : Bool}

/-- A certificate with the right algorithm and little padding is accepted by the parser. -/
theorem parseX509Cert_of_fromDer {raw rem : List UInt8} {cert : Certificate}
    (hder : crypto.fromDer raw = some (rem, cert)) (hrem : rem.length < 4)
    (hrsa : RsaCertificate crypto cert) : parseX509Cert crypto raw = .ok cert := by
  unfold parseX509Cert
  simp only [hder, hrsa.1, ge_iff_le, Nat.not_le.mpr hrem, if_false, Bool.not_true,
    Bool.false_eq_true]

/-- The walk accepts linked certificates. It ends with a certificate that is no CA, if there is
a certificate to walk to. -/
theorem walkChain_of_linked {spec : Issuing nxpcrypto crypto PrivateKey}
    {raws : List (List UInt8)} {certs : List Certificate} {issuer : Certificate} (i : Nat)
    (hraws : List.Forall₂
      (fun raw cert => ∃ rem, crypto.fromDer raw = some (rem, cert) ∧ rem.length < 4) raws certs)
    (hlinked : Linked spec (spec.subjectKey issuer) certs)
    (hca : crypto.isCa issuer = !certs.isEmpty) (hrsa : RsaCertificate crypto issuer) :
    ∃ signingCert, CertBlock.walkChain crypto raws i issuer = .ok signingCert ∧
      crypto.isCa signingCert = false ∧ RsaCertificate crypto signingCert := by
  induction hraws generalizing issuer i with
  | nil => exact ⟨issuer, rfl, hca, hrsa⟩
  | @cons raw cert raws certs hraw _ ih =>
      obtain ⟨rem, hder, hrem⟩ := hraw
      -- The flag of this certificate says whether another one follows, as the walk wants it.
      obtain ⟨⟨hca', hrsa', hverify⟩, hrest⟩ := hlinked
      obtain ⟨signingCert, hwalk, hend⟩ := ih (i + 1) hrest hca' hrsa'
      refine ⟨signingCert, ?_, hend⟩
      unfold CertBlock.walkChain
      rw [hca, parseX509Cert_of_fromDer hder hrem hrsa', Except.ok_bind,
        (hverify issuer).mpr rfl]
      exact hwalk

/-- A block with linked certificates is accepted if there are at least two. -/
theorem verify_of_linked {spec : Issuing nxpcrypto crypto PrivateKey} {issuer : PrivateKey}
    {root : Certificate} {rest : List Certificate} {expected : Option Digest} {me : CertBlock}
    (hplaced : Placed crypto overflowChecks (root :: rest) expected me)
    (hlinked : Linked spec issuer (root :: rest)) :
    me.verify crypto overflowChecks expected
      = if rest.isEmpty then .error (.error .notMarkedAsCa) else .ok () := by
  obtain ⟨⟨raws, hcerts, hraws⟩, ⟨hashes, hhashes, hroot⟩, hrkth⟩ := hplaced
  obtain ⟨⟨hca, hrsa, -⟩, hlinked⟩ := hlinked
  obtain ⟨modulus, exponent, hkey⟩ := hrsa.2.1
  have hmem := hroot root rfl modulus exponent hkey
  have hrkthOk : me.verifyRkth crypto overflowChecks expected = .ok () := by
    unfold CertBlock.verifyRkth
    cases expected with
    | none => rfl
    | some digest =>
        simp only [hrkth digest rfl, Except.ok_bind, ne_eq, not_true_eq_false, if_false]
        rfl
  cases hraws with
  | @cons raw _ raws' _ hraw hraws' =>
      obtain ⟨rem, hder, hrem⟩ := hraw
      have hparse := parseX509Cert_of_fromDer hder hrem hrsa
      -- The root passes everything but the check of its CA flag.
      have hverifyRoot : me.verifyRoot crypto overflowChecks raw
          = if rest.isEmpty then .error (.error .notMarkedAsCa) else .ok root := by
        unfold CertBlock.verifyRoot
        simp only [hparse, Except.ok_bind, hkey, hhashes, hmem, not_true_eq_false, if_false, hca]
        cases rest.isEmpty <;> rfl
      unfold CertBlock.verify
      rw [hrkthOk, Except.ok_bind, hcerts, Except.ok_bind]
      simp only [hverifyRoot]
      cases hempty : rest.isEmpty with
      | true => rfl
      | false =>
          obtain ⟨signingCert, hwalk, hleaf, hsigning⟩ :=
            walkChain_of_linked 0 hraws' hlinked hca hrsa
          obtain ⟨key, hkey'⟩ := Option.isSome_iff_exists.mp hsigning.2.2
          simp only [Bool.false_eq_true, if_false, Except.ok_bind, hwalk, hleaf, false_and, hkey',
            Option.isNone_some]
          rfl

/-! ### Both -/

/-- None of the files of the chain is there. Its certificates are files of their own, and none
of them is a key. -/
structure Fresh (chain : List Config.Certificate) (files : Files File) : Prop where
  certificates : ∀ certificate ∈ chain, files certificate.path = none
  keys : ∀ certificate ∈ chain, ∀ prototype ∈ certificate.prototype,
    files prototype.keyPath = none
  nodup : (chain.map Config.Certificate.path).Nodup
  apart : ∀ certificate ∈ chain, ∀ certificate' ∈ chain, ∀ prototype ∈ certificate'.prototype,
    certificate.path ≠ prototype.keyPath

/-- Without any of its files, a chain can be generated: there is no older key to be read and no
older certificate to be kept. -/
theorem Fresh.ready {chain : List Config.Certificate} {files : Files File}
    (h : Fresh chain files) (spec : Issuing nxpcrypto crypto PrivateKey) :
    ReadyChain spec chain files := by
  refine ⟨fun c hc => ⟨h.certificates c hc, h.apart c hc c hc, ?_⟩, h.nodup, h.apart⟩
  intro prototype hprototype file hfile
  rw [h.keys c hc prototype hprototype] at hfile
  cases hfile

/-- A chain of the configuration that `generate` has generated, with none of its files there
when its turn came. A block with its certificates is accepted exactly if there are at least
two of them. -/
theorem generated_chain_verifies_iff (spec : Issuing nxpcrypto crypto PrivateKey)
    {config : Config} {before after : List (List Config.Certificate)}
    {chain : List Config.Certificate} (hconfig : config.certificates = before ++ chain :: after)
    (hchain : chain ≠ []) {files files' : Files File}
    (hgenerate : generate nxpcrypto config files = .ok () files')
    (hfresh : ∀ files₁, generateChains nxpcrypto before files = .ok () files₁ →
      Fresh chain files₁)
    {expected : Option Digest} {me : CertBlock}
    (hplaced : ∀ certs, Contains spec files' chain certs →
      Placed crypto overflowChecks certs expected me) :
    me.verify crypto overflowChecks expected = .ok () ↔ 2 ≤ chain.length := by
  rw [generate, hconfig] at hgenerate
  -- The chains behind this one add files, and change none.
  obtain ⟨files₁, files₂, hbefore, hrun, hext⟩ := generateChains_split hgenerate
  have hready := (hfresh files₁ hbefore).ready spec
  obtain ⟨root, rest, rfl⟩ := List.exists_cons_of_ne_nil hchain
  obtain ⟨issuer, certs, hcontains, hlinked⟩ := generateChain_root spec hready hrun
  have hcontains' : Contains spec files' (root :: rest) certs :=
    hcontains.imp fun _ _ hcert => hext.bind_eq hcert
  have hverify := hplaced certs hcontains'
  cases hcontains' with
  | @cons _ cert _ certs' _ hrest =>
      have hempty : certs'.isEmpty = rest.isEmpty := Contains.isEmpty_eq hrest
      rw [verify_of_linked hverify hlinked, hempty]
      cases rest with
      | nil => simp
      | cons second rest => simp

end Generate

/-! ### Sample chains -/

/-- A byte string of some length, in lines of 44 bytes. The first line may be shorter. -/
def bytesOf (len : Nat) (lines : List Nat) : List UInt8 :=
  (List.range len).map fun i =>
    UInt8.ofNat (lines.foldl (fun value line => value * 256 ^ 44 + line) 0 / 256 ^ (len - 1 - i))

/-- A self-signed CA certificate with a 2048-bit RSA key, in DER form. -/
def rootDer : List UInt8 :=
  bytesOf 679
    [0x308202a33082018ba003020102020101300d06,
     0x092a864886f70d01010b0500300c310a300806035504030c0152301e170d3236313131383139343831395a17,
     0x0d3336313131353139343831395a300c310a300806035504030c015230820122300d06092a864886f70d0101,
     0x0105000382010f003082010a0282010100ba2998bb2f33112c999bf31b1a3614b7ba9fb7b4f5d7f883322cc3,
     0x4fe0fc8f50d8cbeeaee1f782c22464a5ffa4207420fcacfb2da9840f690950a731d2e93bb96140bdcb1e0a0d,
     0xd3800837b55d97287baf18777918e6423b02bf12cc2b09eecf81ca860c439fb68b2e3257732b0fd188b696dd,
     0x949847f27fc57683a1ba47ff6639f2e510dc4adb41c71b6b7b1a90032fdee61d7443cc48112e08a8f3b2cc71,
     0x6892bf101f9abfe720a5567188da65376315ad160ac01c7bcbcf96793799f79adcc1e02158b94c5b9ff6e227,
     0x3b5e9b6e789f033b7af1e0ab21473d3fc9d878dd11afaaac043ae38919e7d8fdbc37d5d72a078f488e06d9d7,
     0x31d0cf8a70a69af9110203010001a310300e300c0603551d13040530030101ff300d06092a864886f70d0101,
     0x0b05000382010100b1085689e08a088d901fc62df56beca8c453200381ee83dc56d7373eabee2cc765734f4d,
     0xb982b3da15cd59a81e037bbdbe0e00ed111a039be60bb7eb6c2f9a0830ba39fdd0cb73ae9b768e068f8847dd,
     0xc218f5ead1d06ff86d5eeda549552eda47a3d1ab9ad11ab2e1ce1a84c0718b3fdf9702d5bd6b5d8e54b2a71c,
     0xdacdc99e5e326ef03d12ca19bfd36dcd05a2e3fb17d7c2a3ce36d2ace0485883522f042f3e13438f84024c25,
     0x82d825bee83e78638e61c96f7d6f03df58c72284007b0c1b44def1cfc479bf7e751a1af59a4d5c14add42a63,
     0xc1ddba7f53c6775b9c914c4239d0e91b64aa0916b2fa1b3b133645a3fabf74b39cd5f0b65f1f9d8e31b37391]

/-- A certificate for another key that the CA has issued. -/
def imageDer : List UInt8 :=
  bytesOf 676
    [0x308202a030820188a003020102020102,
     0x300d06092a864886f70d01010b0500300c310a300806035504030c0152301e170d3236313131383139343831,
     0x395a170d3336313131353139343831395a300c310a300806035504030c014930820122300d06092a864886f7,
     0x0d01010105000382010f003082010a0282010100b9d3536318228efd173d9473bc920aa0dfe84642ba32cd34,
     0x372e7a0bfba5c1e71eb3013f64ed348cc8f9d7f33943df17649cd134dd4bad05674d1d7c9b12c716e4b9f433,
     0xc904b8ee96046242aec4da6a14abef1b3df8d9760782e372ffba938e55c258669e9c3492533eda087f7abf80,
     0xf4e1107cb348ecace2787accb41ee12b846d963a0ef4d27228437d5989fb014bd230d5494b7515e54bf91fc3,
     0x6bf392b27dec719a7e6d3dba61c4e98dea33b8ca16c62a21f567fe2ceba1280dde5daf92101671cdbc8cacec,
     0xe488d0e8beb3e23e67cff12236abd97d386f03850c6f0a68e1aab0e69e0525062f30f2973daaaadba8011879,
     0xac02dc9f0808e475f2649e770203010001a30d300b30090603551d1304023000300d06092a864886f70d0101,
     0x0b05000382010100aedd0b42e5e3dd568efa13f0ee92d16a0f237da09762a155f530a7218649f80e1234a155,
     0x20188dd535b127db3318bc27b75dab789a01ad111ce6c6d96838e9f83dff4183f1922434ef788b0edbb46958,
     0x64da5905018f7825cded61256d6f936bd7955a65fcd2f54c7ddac25a09cc68074a588b5cc965e3c80be47d7d,
     0x51226836590291bf0f8d0de61c6038fcfd1f359ff0e9aa111d9dd30ec53bc41f4a1a9f5b83bb8d3b7f8c6edd,
     0x85a65e9c15dbde4de86850848c72247004464b37cce24f030ac465d749e8f36724cd48145d4d10a30b48c68a,
     0x3947b9efa476648b900bcbc044e943281cd0d6f01568797b7b378fcdc9d5f6276759e1f9891e3dd3b46f38d7]

/-- A self-signed certificate with the key of the CA, but without the CA flag. -/
def soleDer : List UInt8 :=
  bytesOf 676
    [0x308202a030820188a003020102020101,
     0x300d06092a864886f70d01010b0500300c310a300806035504030c0152301e170d3236313131383139343831,
     0x395a170d3336313131353139343831395a300c310a300806035504030c015230820122300d06092a864886f7,
     0x0d01010105000382010f003082010a0282010100ba2998bb2f33112c999bf31b1a3614b7ba9fb7b4f5d7f883,
     0x322cc34fe0fc8f50d8cbeeaee1f782c22464a5ffa4207420fcacfb2da9840f690950a731d2e93bb96140bdcb,
     0x1e0a0dd3800837b55d97287baf18777918e6423b02bf12cc2b09eecf81ca860c439fb68b2e3257732b0fd188,
     0xb696dd949847f27fc57683a1ba47ff6639f2e510dc4adb41c71b6b7b1a90032fdee61d7443cc48112e08a8f3,
     0xb2cc716892bf101f9abfe720a5567188da65376315ad160ac01c7bcbcf96793799f79adcc1e02158b94c5b9f,
     0xf6e2273b5e9b6e789f033b7af1e0ab21473d3fc9d878dd11afaaac043ae38919e7d8fdbc37d5d72a078f488e,
     0x06d9d731d0cf8a70a69af9110203010001a30d300b30090603551d1304023000300d06092a864886f70d0101,
     0x0b05000382010100175480ee6077e1909fc92ff4300c5b824d9f02ad7744f0028e6d96f044f5d05b07840c3c,
     0xac13897430f6f9fb9c2ed8271a7926247a8c7cebc4da128fa6b4f4e24aa4b0cd4868789f67946d0b48705e62,
     0xf903402f07d0e8f0a12dba621a6c0b204194d90ddec7d98a230efa6ecd4179983aa9a28ea9b857fdf83a4059,
     0x9369c93b3f804e0f979a6b48896c74089bd595471af27117c85c9631295eceb057ba5c5a1ab7dfc1a0a09fae,
     0x713196704f70b8f9f6d71678d316446efc2625d05964de2dab47e62c138c43b3c7a9f9c2306eeda4a26f9eb3,
     0x3925ed76b29ed9eab379abe4ca267b8007841c8b8d29dc1e21e2de4fbe8f17d25e065dda8d2e8bbc506914cd]

/-- The SHA-256 of the key of the CA, modulus and exponent. -/
def rootKeyDigest : Digest :=
  ⟨bytesOf 32 [0xa11320da5d42df525d1efb45585084231d3a548cf9c31fc17c540070c5eae2c8],
    by simp [bytesOf]⟩

/-- The keys of the sample. -/
inductive SampleKey where
  | root
  | image
  deriving DecidableEq

/-- The certificates of the sample. -/
inductive SampleCertificate where
  | root
  | image
  | sole
  deriving DecidableEq

/-- The files that are generated. -/
inductive SampleFile where
  | key (key : SampleKey)
  | certificate (cert : SampleCertificate)
  deriving DecidableEq

/-- The key of a certificate. -/
def SampleCertificate.subjectKey : SampleCertificate → SampleKey
  | .root => .root
  | .image => .image
  | .sole => .root

/-- The string of a certificate in a block, with padding. -/
def SampleCertificate.raw : SampleCertificate → List UInt8
  | .root => rootDer ++ [0]
  | .image => imageDer
  | .sole => soleDer

/-- `nxpcrypto` with the keys and certificates of the sample. -/
def sampleNxpcrypto : Nxpcrypto SampleFile where
  keyGenerate _ path _ :=
    some (.key (if path = "./artifacts/cert-img1-user-key.pem" then .image else .root))
  certGenerate config _ files :=
    match files config.issuerPrivateKey, files config.subjectPublicKey, config.ca with
    | some (.key .root), some (.key .root), true => some (.certificate .root)
    | some (.key .root), some (.key .root), false => some (.certificate .sole)
    | some (.key .root), some (.key .image), false => some (.certificate .image)
    | _, _, _ => none

/-- The cryptographic functions, for the certificates of the sample. The root key has signed
all of them. -/
def chainCrypto : Crypto SampleCertificate SampleKey where
  sha256 data :=
    if data = (rootDer.drop 124).take 256 ++ [1, 0, 1] then rootKeyDigest
    else ⟨List.replicate 32 0xff, rfl⟩
  fromDer bytes :=
    if bytes.take 679 = rootDer then some (bytes.drop 679, .root)
    else if bytes.take 676 = imageDer then some (bytes.drop 676, .image)
    else if bytes.take 676 = soleDer then some (bytes.drop 676, .sole)
    else none
  isSha256WithRsa _ := true
  parsedKey
    | .image => some (.rsa ((imageDer.drop 123).take 257) [1, 0, 1])
    | _ => some (.rsa ((rootDer.drop 123).take 257) [1, 0, 1])
  isCa cert := cert = .root
  verifySignature _ issuer := issuer.subjectKey = .root
  rsaPublicKey cert := some cert.subjectKey
  keySize _ := 256
  isSignature _ := false
  verify _ _ _ := false
  hmac _ _ := ⟨List.replicate 32 0xff, rfl⟩

/-- All certificates of the sample are signed with the root key. -/
theorem certGenerate_sample {config : CertificateConfig} {path : Path} {files : Files SampleFile}
    {file : SampleFile} (h : sampleNxpcrypto.certGenerate config path files = some file) :
    ∃ cert : SampleCertificate, file = .certificate cert ∧
      files config.issuerPrivateKey = some (.key .root) ∧
      files config.subjectPublicKey = some (.key cert.subjectKey) ∧
      chainCrypto.isCa cert = config.ca := by
  unfold sampleNxpcrypto at h
  dsimp only at h
  -- One case for each of the three certificates that the sample tool can issue.
  split at h
  next hissuer hsubject hca =>
    cases h
    exact ⟨.root, rfl, hissuer, hsubject, hca.symm⟩
  next hissuer hsubject hca =>
    cases h
    exact ⟨.sole, rfl, hissuer, hsubject, hca.symm⟩
  next hissuer hsubject hca =>
    cases h
    exact ⟨.image, rfl, hissuer, hsubject, hca.symm⟩
  · cases h

/-- The sample issues what is requested. -/
def sampleIssuing : Issuing sampleNxpcrypto chainCrypto SampleKey where
  keyIn
    | .key key => some key
    | .certificate _ => none
  certificateIn
    | .key _ => none
    | .certificate cert => some cert
  subjectKey := SampleCertificate.subjectKey
  key_generated keyType path files file h := by
    cases h
    rfl
  certificate_generated config path files file issuer subject h hissuer hsubject := by
    obtain ⟨cert, rfl, hissuer', hsubject', hca⟩ := certGenerate_sample h
    rw [hissuer'] at hissuer
    rw [hsubject'] at hsubject
    cases hissuer
    cases hsubject
    have hrsa : RsaCertificate chainCrypto cert := by
      cases cert <;> exact ⟨rfl, ⟨_, _, rfl⟩, rfl⟩
    exact ⟨cert, rfl, rfl, hca, hrsa, fun other => decide_eq_true_iff⟩

/-- An entry of the sample configuration. -/
def sampleEntry (path keyPath : Path) : Config.Certificate where
  path
  prototype := some { keyType := .Rsa2048, keyPath }

/-- The root of the sample chains. -/
def rootEntry : Config.Certificate :=
  sampleEntry "./artifacts/cert-rot1.pem" "./artifacts/cert-rot1-ca-key.pem"

/-- The certificate that images are signed with. -/
def imageEntry : Config.Certificate :=
  sampleEntry "./artifacts/cert-img1.pem" "./artifacts/cert-img1-user-key.pem"

/-- The files after `generate`, on a host without files. -/
def generatedFiles (chain : List Config.Certificate) : Files SampleFile :=
  match generate sampleNxpcrypto { certificates := [chain] } (fun _ => none) with
  | .ok _ files => files
  | .error _ files => files

/-- The certificate block that `nxpimage` makes of some certificates. -/
def sampleBlock (certs : List SampleCertificate) : CertBlock where
  data := [0x63, 0x65, 0x72, 0x74, 1, 0, 0, 0] ++ Bytes.toLe 0x20 ++ List.replicate 12 0
    ++ Bytes.toLe (UInt32.ofNat certs.length)
    ++ Bytes.toLe (UInt32.ofNat (certs.map fun cert => 4 + cert.raw.length).sum)
    ++ (certs.map fun cert => CertBlock.entry cert.raw).flatten
    ++ rootKeyDigest.val ++ List.replicate 96 0

/-- The host without files is fresh for a chain with different files. -/
theorem fresh_of_different {chain : List Config.Certificate}
    (hnodup : (chain.map Config.Certificate.path).Nodup)
    (hapart : ∀ certificate ∈ chain, ∀ certificate' ∈ chain,
      ∀ prototype ∈ certificate'.prototype, certificate.path ≠ prototype.keyPath) :
    Fresh chain fun _ => (none : Option SampleFile) :=
  ⟨fun _ _ => rfl, fun _ _ _ _ => rfl, hnodup, hapart⟩

/-- The block of the sample contains the certificates, if the walk over its table finds
them. -/
theorem placed_sampleBlock {certs : List SampleCertificate}
    (hcerts : (sampleBlock certs).certificates true = .ok (certs.map SampleCertificate.raw))
    (hhashes : (sampleBlock certs).rootKeyHashes true
      = .ok [rootKeyDigest.val, List.replicate 32 0, List.replicate 32 0, List.replicate 32 0])
    (hroot : certs.head? ≠ some .image) :
    Placed chainCrypto true certs none (sampleBlock certs) := by
  refine ⟨⟨_, hcerts, ?_⟩, ⟨_, hhashes, ?_⟩, fun _ h => nomatch h⟩
  · -- Each certificate of the sample parses, with the padding of its entry behind it.
    rw [List.forall₂_map_left_iff, List.forall₂_same]
    intro cert _
    cases cert with
    | root => exact ⟨[0], by decide +kernel, by decide⟩
    | image => exact ⟨[], by decide +kernel, by decide⟩
    | sole => exact ⟨[], by decide +kernel, by decide⟩
  · intro rootCert hhead modulus exponent hkey
    -- The root and the sole certificate have the same key. The image's one is excluded by `hroot`.
    have hrsa : chainCrypto.parsedKey rootCert
        = some (.rsa ((rootDer.drop 123).take 257) [1, 0, 1]) := by
      cases rootCert with
      | root => rfl
      | image => exact absurd hhead hroot
      | sole => rfl
    rw [hrsa] at hkey
    obtain ⟨hmodulus, hexponent⟩ := PublicKey.rsa.inj (Option.some.inj hkey)
    rw [← hmodulus, ← hexponent]
    have hdigest : CertBlock.rootKeyHash chainCrypto ((rootDer.drop 123).take 257) [1, 0, 1]
        = rootKeyDigest := by decide +kernel
    rw [hdigest]
    exact List.mem_cons_self

/-- A chain of two certificates is accepted. -/
theorem generated_chain_verifies_iff_two :
    (sampleBlock [.root, .image]).verify chainCrypto true none = .ok () := by
  have hconfig : (Config.mk [[rootEntry, imageEntry]]).certificates
      = [] ++ [rootEntry, imageEntry] :: [] := rfl
  have hgenerate : generate sampleNxpcrypto { certificates := [[rootEntry, imageEntry]] }
      (fun _ => none) = .ok () (generatedFiles [rootEntry, imageEntry]) := rfl
  have hroot : (generatedFiles [rootEntry, imageEntry] rootEntry.path).bind
      sampleIssuing.certificateIn = some .root := by decide +kernel
  have himage : (generatedFiles [rootEntry, imageEntry] imageEntry.path).bind
      sampleIssuing.certificateIn = some .image := by decide +kernel
  -- Nothing is there before the first command, and the two entries name different files.
  have hfresh : Fresh [rootEntry, imageEntry] fun _ => (none : Option SampleFile) :=
    fresh_of_different (by decide) (by decide)
  refine (generated_chain_verifies_iff sampleIssuing hconfig (List.cons_ne_nil _ _) hgenerate
    (fun files₁ h => ?_) fun certs hcontains => ?_).mpr ?_
  · cases h
    exact hfresh
  · cases hcontains with
    | cons h hrest =>
        cases hrest with
        | cons h' hnil =>
            cases hnil
            obtain rfl := Option.some.inj (hroot.symm.trans h)
            obtain rfl := Option.some.inj (himage.symm.trans h')
            exact placed_sampleBlock (by decide +kernel) (by decide +kernel) (by decide)
  · decide

/-- A chain of one certificate: it is generated on a host without files, and a block that
contains it is rejected. -/
theorem sole_certificate_rejected :
    generate sampleNxpcrypto { certificates := [[rootEntry]] } (fun _ => none)
      = .ok () (generatedFiles [rootEntry]) ∧
    Fresh [rootEntry] (fun _ => (none : Option SampleFile)) ∧
    (∀ certs, Contains sampleIssuing (generatedFiles [rootEntry]) [rootEntry] certs →
      Placed chainCrypto true certs none (sampleBlock [.sole])) ∧
    ¬(sampleBlock [.sole]).verify chainCrypto true none = .ok () := by
  have hsole : (generatedFiles [rootEntry] rootEntry.path).bind
      sampleIssuing.certificateIn = some .sole := by decide +kernel
  refine ⟨rfl, fresh_of_different (by decide) (by decide), ?_, by decide +kernel⟩
  -- The one generated file holds the sole certificate, so `certs` is that certificate.
  intro certs hcontains
  cases hcontains with
  | cons h hnil =>
      cases hnil
      obtain rfl := Option.some.inj (hsole.symm.trans h)
      exact placed_sampleBlock (by decide +kernel) (by decide +kernel) (by decide)

end EcSlimloader
