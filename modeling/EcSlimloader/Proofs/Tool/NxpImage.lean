import EcSlimloader.Proofs.Tool.Hex
import EcSlimloader.Proofs.Tool.Objcopy
import EcSlimloader.Proofs.Tool.RoundTrip
import EcSlimloader.Tool.NxpImage
import Mathlib.Data.Nat.Digits.Lemmas

/-!
# `EcSlimloader.Proofs.Tool.NxpImage`: what `nxpimage` is asked for, and what is taken from it

`generate_config` gives each certificate a name that is made of two numbers. The names are
different, so no certificate takes the place of another one: the request has the path of every
certificate of the configuration under its name, and no other names.

`generate` reads the hash of the root keys from what was printed. A hash that was printed as a
line of its own is the one that the block is compared with.

The names are texts with numbers in them, so that they differ is a fact about printing numbers.
`takeWhile_digits` finds the number again: a printed number ends where the digits end. With
`certificateName_inj` the map behaves as if it had the two indices for a key.

`PrintsRkth` describes the output: lines without the label, and then the line with the label and the
hash, which may have white space in front and behind. What follows that line is left open.
-/

set_option autoImplicit false

namespace EcSlimloader

/-! ### Names of certificates -/

section Digits

/-- The digits in front of something else. -/
theorem takeWhile_digits (n : Nat) {rest : List Char}
    (hrest : ∀ c, rest.head? = some c → c.isDigit = false) :
    ((toString n).toList ++ rest).takeWhile Char.isDigit = (toString n).toList := by
  -- The printed number consists of digits, and what follows it does not start with one.
  have hdigits : ∀ c ∈ (toString n).toList, c.isDigit = true := by
    intro c hc
    have hc : c ∈ Nat.toDigits 10 n := Nat.toList_repr ▸ hc
    exact Nat.isDigit_of_mem_toDigits (by decide) (by decide) hc
  rw [List.takeWhile_append_of_pos hdigits]
  cases rest with
  | nil => simp
  | cons c cs => simp [hrest c rfl]

/-- A number is its digits. -/
theorem toString_inj {n m : Nat} (h : (toString n).toList = (toString m).toList) : n = m := by
  have hdigits (n : Nat) : Nat.ofDigitChars 10 (toString n).toList 0 = n := by
    rw [show toString n = n.repr from rfl, Nat.toList_repr, Nat.ofDigitChars_ten_toDigits]
  rw [← hdigits n, h, hdigits]

/-- So a number can be read back, and what is behind it. -/
theorem toString_append_inj {n m : Nat} {rest rest' : List Char}
    (hrest : ∀ c, rest.head? = some c → c.isDigit = false)
    (hrest' : ∀ c, rest'.head? = some c → c.isDigit = false)
    (h : (toString n).toList ++ rest = (toString m).toList ++ rest') : n = m ∧ rest = rest' := by
  have hdigits := congrArg (List.takeWhile Char.isDigit) h
  rw [takeWhile_digits n hrest, takeWhile_digits m hrest'] at hdigits
  rw [hdigits] at h
  exact ⟨toString_inj hdigits, List.append_cancel_left h⟩

end Digits

namespace CertBlockConfig

/-- The characters of the name of a root certificate. -/
theorem toList_rootName (chainI : Nat) : (certificateName chainI 0).toList
    = "rootCertificate".toList ++ ((toString chainI).toList ++ "File".toList) := by
  simp [certificateName]

/-- The characters of the name of another certificate. -/
theorem toList_chainName (chainI certI : Nat) : (certificateName chainI (certI + 1)).toList
    = "chainCertificate".toList ++
      ((toString chainI).toList ++ ("File".toList ++ (toString certI).toList)) := by
  simp [certificateName]

/-- No digit follows the number of a chain, so the number can be read off the name. -/
theorem not_isDigit_file (rest : List Char) (c : Char)
    (h : ("File".toList ++ rest).head? = some c) : c.isDigit = false := by
  cases h
  rfl

/-- No two certificates have the same name. -/
theorem certificateName_inj {chainI certI chainI' certI' : Nat}
    (h : certificateName chainI certI = certificateName chainI' certI') :
    chainI = chainI' ∧ certI = certI' := by
  have h := congrArg String.toList h
  cases certI with
  | zero =>
      cases certI' with
      | zero =>
          rw [toList_rootName, toList_rootName] at h
          have h := toString_append_inj (not_isDigit_file []) (not_isDigit_file [])
            (List.append_cancel_left h)
          exact ⟨h.1, rfl⟩
      | succ certI' =>
          -- One name starts with an `r`, the other one with a `c`.
          rw [toList_rootName, toList_chainName] at h
          exact absurd (List.cons.inj h).1 (by decide)
  | succ certI =>
      cases certI' with
      | zero =>
          rw [toList_rootName, toList_chainName] at h
          exact absurd (List.cons.inj h).1 (by decide)
      | succ certI' =>
          rw [toList_chainName, toList_chainName] at h
          obtain ⟨hchain, h⟩ := toString_append_inj (not_isDigit_file _) (not_isDigit_file _)
            (List.append_cancel_left h)
          exact ⟨hchain, congrArg (· + 1) (toString_inj (List.append_cancel_left h))⟩

/-! ### The request -/

variable (canonicalize : Path → Option Path)

/-- The name of another chain, or of a certificate in front of these, is left alone. -/
theorem insertChain_other {chainI : Nat} {name : String} (chain : List Config.Certificate)
    (certI : Nat) (certificates : String → Option Path)
    (hname : ∀ i, certI ≤ i → name ≠ certificateName chainI i) :
    insertChain canonicalize chainI certI chain certificates name = certificates name := by
  induction chain generalizing certI certificates with
  | nil => rfl
  | cons cert rest ih =>
      rw [insertChain, ih (certI + 1) _ fun i hi => hname i (by omega),
        Function.update_of_ne (hname certI (Nat.le_refl certI))]

/-- Certificate `i` of a chain gets its name. -/
theorem insertChain_self (chainI : Nat) (chain : List Config.Certificate) (certI : Nat)
    (certificates : String → Option Path) {i : Nat} {cert : Config.Certificate}
    (hcert : chain[i]? = some cert) :
    insertChain canonicalize chainI certI chain certificates (certificateName chainI (certI + i))
      = some (canonicalizeOrLeave canonicalize cert.path) := by
  induction chain generalizing certI certificates i with
  | nil => cases hcert
  | cons first rest ih =>
      cases i with
      | zero =>
          cases hcert
          -- The certificates behind it have other names.
          rw [insertChain, insertChain_other]
          · exact Function.update_self ..
          · intro i hi h
            have := (certificateName_inj h).2
            omega
      | succ i =>
          have h := ih (certI + 1)
            (Function.update certificates (certificateName chainI certI)
              (some (canonicalizeOrLeave canonicalize first.path))) hcert
          rw [show certI + (i + 1) = certI + 1 + i from by omega]
          exact h

/-- A name that is there now was there before, or is that of a certificate of the chain. -/
theorem insertChain_cases {chainI : Nat} {name : String} {path : Path}
    (chain : List Config.Certificate) (certI : Nat) (certificates : String → Option Path)
    (h : insertChain canonicalize chainI certI chain certificates name = some path) :
    certificates name = some path ∨ ∃ i cert, chain[i]? = some cert ∧
      name = certificateName chainI (certI + i) ∧
      path = canonicalizeOrLeave canonicalize cert.path := by
  induction chain generalizing certI certificates with
  | nil => exact .inl h
  | cons cert rest ih =>
      -- A name that a later certificate did not insert was there before, or it is this one's.
      rcases ih (certI + 1) _ h with hbefore | ⟨i, cert', hcert, hname, hpath⟩
      · by_cases hname : name = certificateName chainI certI
        · rw [hname, Function.update_self] at hbefore
          exact .inr ⟨0, cert, rfl, hname, (Option.some.inj hbefore).symm⟩
        · rw [Function.update_of_ne hname] at hbefore
          exact .inl hbefore
      · exact .inr ⟨i + 1, cert', hcert, by rw [hname]; congr 1; omega, hpath⟩

/-- The names of chains in front of these are left alone. -/
theorem insertChains_other {name : String} (chains : List (List Config.Certificate))
    (chainI : Nat) (certificates : String → Option Path)
    (hname : ∀ j i, chainI ≤ j → name ≠ certificateName j i) :
    insertChains canonicalize chainI chains certificates name = certificates name := by
  induction chains generalizing chainI certificates with
  | nil => rfl
  | cons chain rest ih =>
      rw [insertChains, ih (chainI + 1) _ fun j i hj => hname j i (by omega),
        insertChain_other canonicalize chain 0 certificates
          fun i _ => hname chainI i (Nat.le_refl chainI)]

/-- Every certificate of every chain gets its name. -/
theorem insertChains_self (chains : List (List Config.Certificate)) (chainI : Nat)
    (certificates : String → Option Path) {j i : Nat} {chain : List Config.Certificate}
    {cert : Config.Certificate} (hchain : chains[j]? = some chain)
    (hcert : chain[i]? = some cert) :
    insertChains canonicalize chainI chains certificates (certificateName (chainI + j) i)
      = some (canonicalizeOrLeave canonicalize cert.path) := by
  induction chains generalizing chainI certificates j with
  | nil => cases hchain
  | cons first rest ih =>
      cases j with
      | zero =>
          cases hchain
          have h := insertChain_self canonicalize chainI chain 0 certificates hcert
          rw [Nat.zero_add] at h
          -- The chains behind it have other names.
          rw [insertChains, insertChains_other]
          · exact h
          · intro j i hj h
            have := (certificateName_inj h).1
            omega
      | succ j =>
          have h := ih (chainI + 1) (insertChain canonicalize chainI 0 first certificates) hchain
          rw [show chainI + (j + 1) = chainI + 1 + j from by omega]
          exact h

/-- A certificate under some name was there before, or is one of a chain. The chain is the one
with the number in the name. -/
theorem insertChains_cases {name : String} {path : Path}
    (chains : List (List Config.Certificate)) (chainI : Nat)
    (certificates : String → Option Path)
    (h : insertChains canonicalize chainI chains certificates name = some path) :
    certificates name = some path ∨ ∃ j i chain cert, chains[j]? = some chain ∧
      chain[i]? = some cert ∧ name = certificateName (chainI + j) i ∧
      path = canonicalizeOrLeave canonicalize cert.path := by
  induction chains generalizing chainI certificates with
  | nil => exact .inl h
  | cons chain rest ih =>
      rcases ih (chainI + 1) _ h with hchain | ⟨j, i, chain', cert, hchain, hcert, hname, hpath⟩
      · rcases insertChain_cases canonicalize chain 0 certificates hchain with
          hbefore | ⟨i, cert, hcert, hname, hpath⟩
        · exact .inl hbefore
        · rw [Nat.zero_add] at hname
          exact .inr ⟨0, i, chain, cert, rfl, hcert, hname, hpath⟩
      · exact .inr ⟨j + 1, i, chain', cert, hchain, hcert, by rw [hname]; congr 1; omega, hpath⟩

/-- The request holds the paths of the certificates of the configuration, each under the name
that is made of the numbers of its chain and of its place in it, and nothing else. -/
theorem generateConfig_certificates (config : Config) (certificateIdx : Nat) (name : String)
    (path : Path) :
    (generateConfig canonicalize config certificateIdx).certificates name = some path ↔
      ∃ chainI certI chain cert, config.certificates[chainI]? = some chain ∧
        chain[certI]? = some cert ∧ name = certificateName chainI certI ∧
        path = canonicalizeOrLeave canonicalize cert.path := by
  constructor
  · intro h
    -- The map starts empty, so every name in it was inserted by a certificate.
    rcases insertChains_cases canonicalize config.certificates 0 (fun _ => none) h with
      h | ⟨chainI, certI, chain, cert, hchain, hcert, hname, hpath⟩
    · cases h
    · rw [Nat.zero_add] at hname
      exact ⟨chainI, certI, chain, cert, hchain, hcert, hname, hpath⟩
  · rintro ⟨chainI, certI, chain, cert, hchain, hcert, rfl, rfl⟩
    have h := insertChains_self canonicalize config.certificates 0 (fun _ => none) hchain hcert
    rw [Nat.zero_add] at h
    exact h

end CertBlockConfig

/-! ### The hash that was printed

The line is found by its label, the white space around it is trimmed, and the label is taken off its
front. Digits are no white space, so trimming stops at them. -/

/-- A line with a hash, and something in front of the text and behind the value. -/
def rkthLine (left value right : List Char) : List Char :=
  left ++ ("RKTH: ".toList ++ value ++ right)

/-- A line with a hash is one that the tool looks for. -/
theorem contains_rkthLine (left value right : List Char) :
    Text.contains "RKTH".toList (rkthLine left value right) = true := by
  have hline : rkthLine left value right
      = left ++ ("RKTH".toList ++ (": ".toList ++ value ++ right)) := rfl
  rw [hline]
  exact Text.contains_append left _ _

/-- A hexadecimal digit is no white space. -/
theorem IsHexDigit.not_isWhitespace {c : Char} (h : IsHexDigit c) :
    Text.isWhitespace c = false := by
  have hlt := h.toNat_lt
  have hdigits : ∀ n : Fin 0x80, IsHexDigit (Char.ofNat n) →
      Text.isWhitespace (Char.ofNat n) = false := by decide +kernel
  have hc := hdigits ⟨c.toNat, hlt⟩
  rw [Char.ofNat_toNat] at hc
  exact hc h

section Printed

variable {left value right : List Char} (hleft : ∀ c ∈ left, Text.isWhitespace c = true)
  (hright : ∀ c ∈ right, Text.isWhitespace c = true) (hvalue : value ≠ [])
  (hdigits : ∀ c ∈ value, IsHexDigit c)
include hleft hright hvalue hdigits

/-- The value of a line with white space at both ends. -/
theorem value_of_rkthLine :
    Text.trimStartMatches "RKTH: ".toList (Text.trim (rkthLine left value right)) = value := by
  have hlast : (value.getLast hvalue) ∈ value := List.getLast_mem hvalue
  have htrim : Text.trim (rkthLine left value right) = "RKTH: ".toList ++ value := by
    apply Text.trim_append hleft hright (c := 'R') (d := value.getLast hvalue)
    · rfl
    · rw [List.getLast?_append, List.getLast?_eq_getLast_of_ne_nil hvalue]
      rfl
    · decide
    · exact (hdigits _ hlast).not_isWhitespace
  rw [htrim]
  apply Text.trimStartMatches_append (by decide)
  -- The value does not start with an `R`.
  cases value with
  | nil => exact absurd rfl hvalue
  | cons c cs =>
      have hc : ('R' == c) = false := by
        rw [beq_eq_false_iff_ne]
        intro h
        have hR : IsHexDigit 'R' := h ▸ hdigits c List.mem_cons_self
        revert hR
        decide
      show (('R' == c) && _) = false
      rw [hc, Bool.false_and]

/-- The first line with "RKTH" in it gives the hash. -/
theorem findRkth_printed {stdout : String} {front rest : List (List Char)}
    (hlines : Text.lines stdout.toList = front ++ rkthLine left value right :: rest)
    (hfront : ∀ line ∈ front, Text.contains "RKTH".toList line = false) :
    findRkth stdout = some (String.ofList value) := by
  -- No line in front has the label, so the line with the hash is the first one found.
  have hnone : front.find? (Text.contains "RKTH".toList) = none := by
    rw [List.find?_eq_none]
    intro line hmem
    rw [hfront line hmem]
    exact Bool.false_ne_true
  rw [findRkth, hlines, List.find?_append, hnone, Option.none_or,
    List.find?_cons_of_pos (contains_rkthLine left value right), Option.map_some,
    value_of_rkthLine hleft hright hvalue hdigits]

end Printed

/-! ### The block behind it

The hash that was printed is compared with the one of the block by the tool itself. So a block that
is returned has that hash, whatever `nxpimage` has written into it. -/

section Block

variable {Certificate Key : Type} {crypto : Crypto Certificate Key} {overflowChecks : Bool}

namespace CertBlock

/-- `verify` with a hash compares it, and does the rest without it. -/
theorem verify_some_iff {me : CertBlock} {rkth : Digest} :
    me.verify crypto overflowChecks (some rkth) = .ok () ↔
      me.rkth crypto overflowChecks = .ok rkth ∧ me.verify crypto overflowChecks none = .ok () := by
  have hnone : me.verifyRkth crypto overflowChecks none = .ok () := rfl
  -- The expected hash is compared in `verify_rkth` alone, which is the first step of `verify`.
  have hsome : me.verifyRkth crypto overflowChecks (some rkth) = .ok () ↔
      me.rkth crypto overflowChecks = .ok rkth := by
    rw [verifyRkth]
    cases hrkth : me.rkth crypto overflowChecks with
    | error e => simp
    | ok computed =>
        rw [Except.ok_bind]
        by_cases heq : computed = rkth
        · simp [heq]
          rfl
        · simp [heq]
  unfold verify
  rw [hnone, Except.ok_bind, Except.bind_eq_ok, ← hsome]
  constructor
  · rintro ⟨u, hrkth, h⟩
    exact ⟨hrkth, h⟩
  · rintro ⟨hrkth, h⟩
    exact ⟨(), hrkth, h⟩

/-- So does `from_file`. -/
theorem fromFile_some_iff {data : List UInt8} {rkth : Digest} {me : CertBlock} :
    fromFile crypto overflowChecks data (some rkth) = .ok me ↔
      fromFile crypto overflowChecks data none = .ok me ∧
        me.rkth crypto overflowChecks = .ok rkth := by
  unfold fromFile
  simp only [Except.bind_eq_ok]
  constructor
  · rintro ⟨start, hstart, len, hlen, u, hassert, u', hverify, hme⟩
    obtain ⟨hrkth, hverify⟩ := verify_some_iff.mp hverify
    cases hme
    exact ⟨⟨start, hstart, len, hlen, u, hassert, (), hverify, rfl⟩, hrkth⟩
  · rintro ⟨⟨start, hstart, len, hlen, u, hassert, u', hverify, hme⟩, hrkth⟩
    cases hme
    exact ⟨start, hstart, len, hlen, u, hassert, (), verify_some_iff.mpr ⟨hrkth, hverify⟩, rfl⟩

end CertBlock

/-- Naming an error does not change what succeeds. -/
theorem mapError_eq_ok {ε ε' α : Type} {f : ε → ε'} {x : Except ε α} {a : α} :
    x.mapError f = .ok a ↔ x = .ok a := by
  cases x with
  | ok b => simp [Except.mapError]
  | error e => simp [Except.mapError]

/-- What `generate` accepts is a block whose hash is the one that was printed. -/
theorem readCertBlock_eq_ok {stdout text : String} (hfind : findRkth stdout = some text)
    {outputFile : List UInt8} {block : CertBlock} :
    readCertBlock crypto overflowChecks stdout outputFile = .ok block ↔
      ∃ rkth, Tool.Rkth.fromHex text = .ok rkth ∧
        CertBlock.fromFile crypto overflowChecks outputFile none = .ok block ∧
        block.rkth crypto overflowChecks = .ok rkth := by
  rw [readCertBlock, hfind]
  simp only [Except.bind_eq_ok, mapError_eq_ok, CertBlock.fromFile_some_iff]

/-- A hash is printed as the digits `key` on a line of its own, with white space around what is
printed. It is the first line with "RKTH" in it. A line may end with a line feed or with a carriage
return and a line feed, and the last one need not end. -/
structure PrintsRkth (stdout : String) (key : List Char) where
  front : List (List Char)
  left : List Char
  right : List Char
  rest : List (List Char)
  eq : Text.lines stdout.toList = front ++ rkthLine left key right :: rest
  first : ∀ line ∈ front, Text.contains "RKTH".toList line = false
  left_whitespace : ∀ c ∈ left, Text.isWhitespace c = true
  right_whitespace : ∀ c ∈ right, Text.isWhitespace c = true

/-- The block behind a hash that was printed. -/
theorem readCertBlock_printed {stdout : String} {key : List Char} (h : PrintsRkth stdout key)
    (hkey : IsKeyText (String.ofList key)) {outputFile : List UInt8} {block : CertBlock} :
    readCertBlock crypto overflowChecks stdout outputFile = .ok block ↔
      CertBlock.fromFile crypto overflowChecks outputFile none = .ok block ∧
        ∃ rkth, block.rkth crypto overflowChecks = .ok rkth ∧ rkth.val = denotedBytes key := by
  obtain ⟨rkth, hrkth, hval⟩ := arrayFromHex_of_isKeyText hkey
  rw [IsKeyText, String.toList_ofList] at hkey
  rw [String.toList_ofList] at hval
  have hne : key ≠ [] := by
    intro hnil
    rw [hnil] at hkey
    cases hkey.1
  -- The line that is found has the key on it, without the white space around it.
  have hfind : findRkth stdout = some (String.ofList key) :=
    findRkth_printed h.left_whitespace h.right_whitespace hne hkey.2 h.eq h.first
  rw [readCertBlock_eq_ok hfind]
  constructor
  · rintro ⟨rkth', hrkth', hblock, hhash⟩
    obtain rfl : rkth = rkth' := Except.ok.inj (hrkth.symm.trans hrkth')
    exact ⟨hblock, rkth, hhash, hval⟩
  · rintro ⟨hblock, rkth', hhash, hval'⟩
    obtain rfl : rkth' = rkth := Subtype.ext (hval'.trans hval.symm)
    exact ⟨rkth', hrkth, hblock, hhash⟩

end Block

section Generate

variable {Certificate Key PrivateKey : Type} (host : Host Certificate Key PrivateKey)
  (config : Config) (certificateIdx : Nat)

/-- A block that `generate` returns: `nxpimage` was run and succeeded, and the rest accepted what
it left behind. -/
theorem generateCertBlock_eq_ok {block : CertBlock} :
    generateCertBlock host config certificateIdx = .ok block ↔
      ∃ output stdout, host.nxpimage
          (CertBlockConfig.generateConfig host.canonicalize config certificateIdx) = some output ∧
        Text.fromUtf8 output.stdout = some stdout ∧ output.success = true ∧
        readCertBlock host.crypto host.overflowChecks stdout output.outputFile = .ok block := by
  unfold generateCertBlock
  -- The three ways to fail in front of the file: the tool does not run, prints no UTF-8, or reports
  -- an error.
  cases hrun : host.nxpimage
      (CertBlockConfig.generateConfig host.canonicalize config certificateIdx) with
  | none => simp
  | some output =>
      cases hstdout : Text.fromUtf8 output.stdout with
      | none => simp [hstdout]
      | some stdout =>
          cases hsuccess : output.success with
          | false => simp [hstdout, hsuccess]
          | true => simp [hstdout, hsuccess]

/-- So it is one that `from_file` accepts. -/
theorem fromFile_of_generateCertBlock {block : CertBlock}
    (h : generateCertBlock host config certificateIdx = .ok block) :
    ∃ file, CertBlock.fromFile host.crypto host.overflowChecks file none = .ok block := by
  obtain ⟨output, stdout, -, -, -, h⟩ := (generateCertBlock_eq_ok host config certificateIdx).mp h
  cases hfind : findRkth stdout with
  | none =>
      rw [readCertBlock, hfind] at h
      cases h
  | some text =>
      obtain ⟨rkth, -, hblock, -⟩ := (readCertBlock_eq_ok hfind).mp h
      exact ⟨output.outputFile, hblock⟩

/-- Take a run of `nxpimage` that succeeds and prints a hash of 64 hexadecimal digits. Then
`generate` returns a block if and only if it is the one that `from_file` makes of the output file
on its own, and the hash of its root keys is the one that was printed. -/
theorem generateCertBlock_printed {output : NxpimageOutput} {stdout : String} {key : List Char}
    (hrun : host.nxpimage (CertBlockConfig.generateConfig host.canonicalize config certificateIdx)
      = some output)
    (hsuccess : output.success = true) (hstdout : output.stdout = Text.bytes stdout)
    (hprints : PrintsRkth stdout key) (hkey : IsKeyText (String.ofList key)) (block : CertBlock) :
    generateCertBlock host config certificateIdx = .ok block ↔
      CertBlock.fromFile host.crypto host.overflowChecks output.outputFile none = .ok block ∧
        ∃ rkth, block.rkth host.crypto host.overflowChecks = .ok rkth ∧
          rkth.val = denotedBytes key := by
  rw [generateCertBlock_eq_ok, ← readCertBlock_printed hprints hkey]
  -- The printed bytes are UTF-8, so they decode to the text.
  have htext : Text.fromUtf8 output.stdout = some stdout := by
    rw [hstdout, Text.fromUtf8_bytes]
  constructor
  · rintro ⟨output', stdout', hrun', htext', -, h⟩
    obtain rfl : output = output' := Option.some.inj (hrun.symm.trans hrun')
    obtain rfl : stdout = stdout' := Option.some.inj (htext.symm.trans htext')
    exact h
  · intro h
    exact ⟨output, stdout, hrun, htext, hsuccess, h⟩

end Generate

/-! ### A sample run -/

/-- The hash of the root keys of the sample certificate block. -/
def samplePrintedRkth : Digest := sampleCrypto.sha256 sampleRkhs

/-- What the sample run prints: a line of its own, and the hash on an indented line that does not
end. -/
def sampleStdout : String :=
  String.ofList (Text.unlines ["Certificate block created".toList] ++
    rkthLine [' '] (generateHex samplePrintedRkth.val).toList [])

/-- The hash on its line. -/
def samplePrints : PrintsRkth sampleStdout (generateHex samplePrintedRkth.val).toList where
  front := ["Certificate block created".toList]
  left := [' ']
  right := []
  rest := []
  eq := by
    have hfront : ∀ line ∈ ["Certificate block created".toList], Text.IsLine line := by
      intro line hline
      rw [List.mem_singleton.mp hline]
      unfold Text.IsLine
      decide
    have hlast : '\n' ∉ rkthLine [' '] (generateHex samplePrintedRkth.val).toList [] := by
      decide +kernel
    rw [sampleStdout, String.toList_ofList, Text.lines_unlines_append hfront,
      Text.lines_of_not_mem hlast (by simp [rkthLine])]
  first line hline := by
    rw [List.mem_singleton.mp hline]
    decide
  left_whitespace c hc := by
    rw [List.mem_singleton.mp hc]
    rfl
  right_whitespace c hc := absurd hc List.not_mem_nil

/-- A firmware that is a vector table of zeros. -/
def sampleFirmware : ElfFile32 where
  segments := [contentSegment 0x10020000 (List.replicate 64 0) (by decide)]
  entry := 0x10020131

/-- A host with the sample certificate block. Every file is an ELF file with the sample firmware,
and every text is the sample key. -/
def sampleHost : Host Unit Unit Unit where
  crypto := sampleCrypto
  overflowChecks := true
  parseElf _ := some sampleFirmware
  elfSections _ := some []
  writeElf inputData _ := some inputData
  canonicalize _ := none
  nxpimage _ := some {
    success := true
    stdout := Text.bytes sampleStdout
    outputFile := sampleFile }
  fromPkcs8Pem _ := some ()
  sign _ _ := sampleSignature
  writeFails _ _ _ := none

/-- On the sample host there is always room on the disk. -/
theorem sampleHost_writesSucceed : sampleHost.WritesSucceed := fun _ _ _ => rfl

/-- The sample file is read as the certificate block without its padding. -/
theorem fromFile_sampleFile : CertBlock.fromFile sampleCrypto true sampleFile none
    = .ok { data := sampleFile.take 448 } := by decide +kernel

/-- The hash of the root keys of the sample block. -/
theorem rkth_sampleFile : (CertBlock.mk (sampleFile.take 448)).rkth sampleCrypto true
    = .ok samplePrintedRkth := by decide +kernel

/-- A configuration with one certificate, whose private key is at hand. -/
def sampleToolConfig : ToolConfig where
  certificates := [[{ path := "root.der",
                      prototype := some { keyType := .Rsa2048, keyPath := "root.pem" } }]]
  otpPath := "otp.hex"
  bootloader := none
  application := some { slotStarts := [0x0800d000, 0x080f9000], runStart := 0x10020000 }

/-- The digits of the sample hash. -/
theorem isKeyText_samplePrintedRkth :
    IsKeyText (String.ofList (generateHex samplePrintedRkth.val).toList) ∧
      samplePrintedRkth.val = denotedBytes (generateHex samplePrintedRkth.val).toList := by
  constructor
  · rw [String.ofList_toList]
    exact isKeyText_generateHex samplePrintedRkth.property
  · rw [toList_generateHex, denotedBytes_flatMap]

/-- A run with the sample host, which does not look at the configuration. -/
theorem generateCertBlock_printed_sample :
    ∃ block, generateCertBlock sampleHost sampleToolConfig.toConfig 3 = .ok block ∧
      block.rkth sampleCrypto true = .ok samplePrintedRkth := by
  obtain ⟨hkey, hval⟩ := isKeyText_samplePrintedRkth
  have h := generateCertBlock_printed sampleHost sampleToolConfig.toConfig 3 rfl rfl rfl
    samplePrints hkey { data := sampleFile.take 448 }
  exact ⟨_, h.mpr ⟨fromFile_sampleFile, samplePrintedRkth, rkth_sampleFile, hval⟩,
    rkth_sampleFile⟩

/-- The block of the sample host. -/
theorem generateCertBlock_sampleHost (config : Config) (certificateIdx : Nat) :
    generateCertBlock sampleHost config certificateIdx
      = .ok { data := sampleFile.take 448 } := by
  obtain ⟨hkey, hval⟩ := isKeyText_samplePrintedRkth
  have h := (readCertBlock_printed samplePrints hkey).mpr
    ⟨fromFile_sampleFile, samplePrintedRkth, rkth_sampleFile, hval⟩
  exact (generateCertBlock_eq_ok sampleHost config certificateIdx).mpr
    ⟨_, sampleStdout, rfl, Text.fromUtf8_bytes sampleStdout, rfl, h⟩

end EcSlimloader
