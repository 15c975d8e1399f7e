import Litterae.Common.Error
import Mathlib.Algebra.Group.Nat.Defs

/-! # Sealed blobs (`common/src/header.rs`, `crypto/src/aead.rs`, `crypto/src/hpke_seal.rs`)

What the program takes from outside its own sources is a field of `Primitives`: the hash, the
ciphers, the mail parser and the standard library's Unicode tables. Every sealed blob starts with
the agility header, so with the four bytes of `magic`.
-/

namespace Litterae
open Foundations List Nat

/-- `mail_parser::HeaderValue`, as far as `header_value_ids` tells its forms apart. -/
inductive HeaderValue where
  | text (s : Text)
  | textList (l : List Text)
  | other
  deriving DecidableEq

structure ParsedMail where
  messageId : Option Text
  inReplyTo : HeaderValue
  references : HeaderValue
  subject : Option Text
  deriving DecidableEq

inductive CryptoError where
  | header (e : Error)
  | openFailed
  | commitmentFailed
  | hpke (detail : Text)
  | kdf (detail : Text)
  | invalidKey (detail : Text)
  | wrongAlgorithm
  deriving DecidableEq

def CryptoError.display : CryptoError → Text
  | .header e => "header error: " ++ e.display
  | .openFailed => "AEAD open failed (wrong key, or ciphertext tampered)"
  | .commitmentFailed =>
    "committing-wrap prefix check failed: wrong key or tampered ciphertext"
  | .hpke d => "HPKE operation failed: " ++ d
  | .kdf d => "KDF operation failed: " ++ d
  | .invalidKey d => "invalid key material: " ++ d
  | .wrongAlgorithm => "unexpected alg_id for this operation"

def cryptoErr (e : CryptoError) : Error := .crypto e.display

/-- A delivery report as `build_dsn` hands it to the message builder. -/
structure Report where
  fromName : Text
  fromAddress : Text
  toAddress : Text
  subject : Text
  autoSubmitted : Text
  humanReadable : Text
  deliveryStatus : Text
  original : Option Bytes
  deriving DecidableEq

abbrev Block (n : ℕ) := { b : Bytes // b.length = n }

def Block.padded {n : ℕ} (b : Bytes) : Block n := ⟨(b ++ List.replicate n 0).take n, by simp⟩

/-- `copy_from_slice` into an array, which panics on any other length. -/
def Block.ofBytes (n : ℕ) (b : Bytes) : Option (Block n) :=
  if h : b.length = n then some ⟨b, h⟩ else none

@[simp] theorem Block.ofBytes_val {n : ℕ} (b : Block n) : Block.ofBytes n b.val = some b := by
  simp [Block.ofBytes, b.property]

theorem Block.val_of_ofBytes {n : ℕ} {b : Bytes} {k : Block n} (h : Block.ofBytes n b = some k) :
    k.val = b := by
  unfold Block.ofBytes at h
  split at h
  · simp only [Option.some.injEq] at h
    rw [← h]
  · cases h

structure Primitives where
  toLowercase : Text → Text
  fromUtf8 : Bytes → Option Text
  fromUtf8Lossy : Bytes → Text
  base64Decode : Text → Option Bytes
  isIpv4 : Text → Bool
  isIpv6 : Text → Bool
  sha256 : Bytes → Bytes
  sha256_length : ∀ b, (sha256 b).length = 32
  parse : Bytes → Option ParsedMail
  buildReport : Report → Except Text Bytes
  /-- XChaCha20-Poly1305 under a key and a nonce. -/
  encrypt : Bytes → Bytes → Bytes → Bytes
  decrypt : Bytes → Bytes → Bytes → Option Bytes
  /-- `single_shot_seal`: public key, info, plaintext and the sender's randomness give the
  encapsulated key and the ciphertext. -/
  hpkeSeal : Bytes → Bytes → Bytes → Bytes → Except Text (Bytes × Bytes)
  /-- `single_shot_open`: private key, encapsulated key, info and ciphertext. -/
  hpkeOpen : Bytes → Bytes → Bytes → Bytes → Except CryptoError Bytes
  /-- Argon2id over password and salt, with the parameters of the configuration. -/
  argon2 : Bytes → Block 16 → Except Text (Block 32)
  /-- HMAC-SHA256. -/
  hmac : Block 32 → Bytes → Block 32
  /-- The Ed25519 signature under a private key. -/
  ed25519Sign : Block 32 → Bytes → Block 64
  /-- `verify`: public key, message and signature. -/
  ed25519Verify : Block 32 → Bytes → Block 64 → Bool
  /-- `check_current`: secret, issuer, account name, Unix time and code. -/
  totpCheck : Bytes → Text → Text → ℤ → Text → Bool
  totpSecretBase32 : Bytes → Text → Text → Text
  totpUrl : Bytes → Text → Text → Text
  base64Encode : Bytes → Text
  /-- A PKCS#1 public key encoded again as SubjectPublicKeyInfo, if it is one. -/
  spkiOfPkcs1 : Bytes → Option Bytes
  toUppercase : Text → Text
  /-- The string a field of a JSON line holds; nothing if the line is not JSON. -/
  jsonField : Text → Text → Option Text
  /-- RFC 3339, in nanoseconds from the Unix epoch. -/
  rfc3339 : Text → Option ℤ

/-- Decrypting under the key and nonce of an encryption gives back its plaintext. -/
abbrev Primitives.Deciphers (P : Primitives) : Prop :=
  ∀ key nonce m, P.decrypt key nonce (P.encrypt key nonce m) = some m

/-- A concrete choice of the primitives around a given parser, to run the model on fixed inputs:
the hash keeps the first 32 bytes, the ciphers the plaintext, and text is ASCII. -/
def Primitives.sample (parse : Bytes → Option ParsedMail) : Primitives where
  toLowercase := List.map Char.toLower
  fromUtf8 := fun b => some (b.map fun x => Char.ofNat x.toNat)
  fromUtf8Lossy := List.map fun x => Char.ofNat x.toNat
  base64Decode := fun s => some (utf8 s)
  isIpv4 := fun _ => false
  isIpv6 := fun _ => false
  sha256 := fun b => (b ++ List.replicate 32 0).take 32
  sha256_length := by simp
  parse := parse
  buildReport := fun r => .ok (utf8 (r.humanReadable ++ r.deliveryStatus))
  encrypt := fun _ _ plaintext => plaintext
  decrypt := fun _ _ ciphertext => some ciphertext
  hpkeSeal := fun pub _ plaintext _ => .ok (pub, plaintext)
  hpkeOpen := fun _ _ _ ciphertext => .ok ciphertext
  argon2 := fun password salt => .ok (Block.padded (password ++ salt.val))
  hmac := fun _ data => Block.padded data
  ed25519Sign := fun _ message => Block.padded message
  ed25519Verify := fun _ message signature => signature == Block.padded message
  totpCheck := fun _ _ _ _ code => code == "123456"
  totpSecretBase32 := fun secret _ _ => secret.map fun x => Char.ofNat x.toNat
  totpUrl := fun _ issuer account => issuer ++ account
  base64Encode := List.map fun x => Char.ofNat x.toNat
  spkiOfPkcs1 := some
  toUppercase := List.map Char.toUpper
  jsonField := fun _ _ => none
  rfc3339 := fun _ => none

namespace Crypto

variable {keyId : UInt16} {P : Primitives} {nonce : Bytes}

def magic : Bytes := [0x4C, 0x54, 0x52, 0x31]

def headerVersion : UInt8 := 1

inductive AlgId where
  | committingWrapXChaCha20Poly1305
  | xChaCha20Poly1305
  | hpkeX25519Sha256ChaCha20Poly1305
  deriving DecidableEq

def AlgId.toU16 : AlgId → UInt16
  | .committingWrapXChaCha20Poly1305 => 1
  | .xChaCha20Poly1305 => 2
  | .hpkeX25519Sha256ChaCha20Poly1305 => 3

def AlgId.fromU16 (v : UInt16) : Except Error AlgId :=
  if v = 1 then .ok .committingWrapXChaCha20Poly1305
  else if v = 2 then .ok .xChaCha20Poly1305
  else if v = 3 then .ok .hpkeX25519Sha256ChaCha20Poly1305
  else .error (.crypto ("unknown alg_id " ++ (toString v.toNat).toList))

structure AgilityHeader where
  version : UInt8
  algId : AlgId
  keyId : UInt16
  nonce : Bytes
  deriving DecidableEq

def AgilityHeader.new (algId : AlgId) (keyId : UInt16) (nonce : Bytes) : AgilityHeader :=
  { version := headerVersion, algId, keyId, nonce }

def beBytes (v : UInt16) : Bytes := [(v >>> 8).toUInt8, v.toUInt8]

def fromBeBytes (hi lo : UInt8) : UInt16 := (hi.toUInt16 <<< 8) ||| lo.toUInt16

def AgilityHeader.encode (h : AgilityHeader) : Bytes :=
  magic ++ [h.version] ++ beBytes h.algId.toU16 ++ beBytes h.keyId ++
    beBytes (UInt16.ofNat h.nonce.length) ++ h.nonce

def AgilityHeader.decode (buf : Bytes) : Except Error (AgilityHeader × Bytes) :=
  match buf with
  | m₀ :: m₁ :: m₂ :: m₃ :: version :: a₀ :: a₁ :: k₀ :: k₁ :: n₀ :: n₁ :: rest =>
    if [m₀, m₁, m₂, m₃] ≠ magic then .error (.crypto "bad magic on agility header")
    else do
      let algId ← AlgId.fromU16 (fromBeBytes a₀ a₁)
      let nonceLen := (fromBeBytes n₀ n₁).toNat
      if rest.length < nonceLen then .error (.crypto "truncated agility header nonce")
      else
        .ok ({ version, algId, keyId := fromBeBytes k₀ k₁, nonce := rest.take nonceLen },
          rest.drop nonceLen)
  | _ => .error (.crypto "truncated agility header")

def aeadSeal (P : Primitives) (key : Bytes) (keyId : UInt16) (nonce plaintext : Bytes) : Bytes :=
  (AgilityHeader.new .xChaCha20Poly1305 keyId nonce).encode ++ P.encrypt key nonce plaintext

/-- `AgilityHeader::decode` inside the seals, whose error converts to `CryptoError::Header`. -/
def decodeHeader (sealedBytes : Bytes) : Except CryptoError (AgilityHeader × Bytes) :=
  (AgilityHeader.decode sealedBytes).mapError .header

def aeadOpen (P : Primitives) (key sealedBytes : Bytes) : Except CryptoError Bytes := do
  let (header, ciphertext) ← decodeHeader sealedBytes
  if header.algId ≠ .xChaCha20Poly1305 then .error .wrongAlgorithm
  else if header.nonce.length ≠ 24 then .error (.invalidKey "bad nonce length")
  else
    match P.decrypt key header.nonce ciphertext with
    | some plaintext => .ok plaintext
    | none => .error .openFailed

def zeroPrefixLen : ℕ := 16

/-- `committing_seal`, with the nonce it draws: the plaintext goes in behind a block of zeros. -/
def committingSeal (P : Primitives) (key : Block 32) (keyId : UInt16) (nonce : Block 24)
    (plaintext : Bytes) : Bytes :=
  (AgilityHeader.new .committingWrapXChaCha20Poly1305 keyId nonce.val).encode ++
    P.encrypt key.val nonce.val (List.replicate zeroPrefixLen 0 ++ plaintext)

def committingOpen (P : Primitives) (key : Block 32) (sealedBytes : Bytes) :
    Except CryptoError Bytes := do
  let (header, ciphertext) ← decodeHeader sealedBytes
  if header.algId ≠ .committingWrapXChaCha20Poly1305 then .error .wrongAlgorithm
  else if header.nonce.length ≠ 24 then .error (.invalidKey "bad nonce length")
  else
    match P.decrypt key.val header.nonce ciphertext with
    | none => .error .openFailed
    | some opened =>
      if opened.length < zeroPrefixLen then .error .commitmentFailed
      else if opened.take zeroPrefixLen ≠ List.replicate zeroPrefixLen 0 then
        .error .commitmentFailed
      else .ok (opened.drop zeroPrefixLen)

def derivePk (P : Primitives) (password : Bytes) (salt : Block 16) :
    Except CryptoError (Block 32) :=
  match P.argon2 password salt with
  | .ok pk => .ok pk
  | .error detail => .error (.kdf detail)

def hpkeSeal (P : Primitives) (pub : Bytes) (keyId : UInt16) (info plaintext random : Bytes) :
    Except CryptoError Bytes :=
  match P.hpkeSeal pub info plaintext random with
  | .ok (encapped, ciphertext) =>
    .ok ((AgilityHeader.new .hpkeX25519Sha256ChaCha20Poly1305 keyId encapped).encode ++ ciphertext)
  | .error detail => .error (.hpke detail)

def hpkeOpen (P : Primitives) (priv info sealedBytes : Bytes) : Except CryptoError Bytes := do
  let (header, ciphertext) ← decodeHeader sealedBytes
  if header.algId ≠ .hpkeX25519Sha256ChaCha20Poly1305 then .error .wrongAlgorithm
  else
    match P.hpkeOpen priv header.nonce info ciphertext with
    | .ok plaintext => .ok plaintext
    | .error e => .error e

/-! ## What is sealed opens -/

theorem fromBeBytes_beBytes (v : UInt16) : fromBeBytes (v >>> 8).toUInt8 v.toUInt8 = v := by
  have hv : v.toNat < 65536 := v.toNat_lt
  have hlow : v.toNat % 256 < 2 ^ 8 := mod_lt _ (by decide)
  have hhigh : v.toNat / 256 < 256 := by omega
  apply UInt16.toNat_inj.mp
  simp only [fromBeBytes, UInt16.toNat_or, UInt16.toNat_shiftLeft, UInt8.toNat_toUInt16,
    UInt16.toNat_toUInt8, UInt16.toNat_shiftRight]
  have h8 : UInt16.toNat 8 % 16 = 8 := rfl
  rw [h8, shiftRight_eq_div_pow, mod_eq_of_lt hhigh,
    mod_eq_of_lt (by rw [shiftLeft_eq]; omega),
    ← shiftLeft_add_eq_or_of_lt hlow, shiftLeft_eq]
  omega

theorem AlgId.fromU16_toU16 (a : AlgId) : AlgId.fromU16 a.toU16 = .ok a := by
  cases a <;> rfl

theorem AgilityHeader.decode_encode (h : AgilityHeader) (hnonce : h.nonce.length < 2 ^ 16)
    (rest : Bytes) : AgilityHeader.decode (h.encode ++ rest) = .ok (h, rest) := by
  have hlen : (UInt16.ofNat h.nonce.length).toNat = h.nonce.length := by
    exact mod_eq_of_lt hnonce
  simp only [AgilityHeader.encode, magic, beBytes, cons_append, nil_append,
    AgilityHeader.decode, ne_eq, not_true_eq_false, if_false, fromBeBytes_beBytes,
    AlgId.fromU16_toU16, hlen, bind, Except.bind, length_append]
  rw [if_neg (by omega), take_left, drop_left]

theorem decodeHeader_encode {algId : AlgId} (hnonce : nonce.length < 2 ^ 16) (rest : Bytes) :
    decodeHeader ((AgilityHeader.new algId keyId nonce).encode ++ rest) =
      .ok (AgilityHeader.new algId keyId nonce, rest) := by
  rw [decodeHeader, AgilityHeader.decode_encode _ hnonce]
  rfl

theorem committingOpen_committingSeal (hcipher : P.Deciphers) (key : Block 32) (keyId : UInt16)
    (nonce : Block 24) (plaintext : Bytes) :
    committingOpen P key (committingSeal P key keyId nonce plaintext) = .ok plaintext := by
  have hnonce : nonce.val.length = 24 := nonce.property
  rw [committingOpen, committingSeal, decodeHeader_encode (by omega)]
  simp only [bind, Except.bind, AgilityHeader.new, ne_eq, not_true_eq_false, if_false, hnonce,
    hcipher, length_append, length_replicate, take_left', drop_left']
  rw [if_neg (by omega)]

theorem aeadOpen_aeadSeal (hcipher : P.Deciphers) {key : Bytes} (hnonce : nonce.length = 24)
    (plaintext : Bytes) :
    aeadOpen P key (aeadSeal P key keyId nonce plaintext) = .ok plaintext := by
  rw [aeadOpen, aeadSeal, decodeHeader_encode (by omega)]
  simp only [bind, Except.bind, AgilityHeader.new, ne_eq, not_true_eq_false, if_false, hnonce, hcipher]

theorem hpkeOpen_of_hpkeSeal {pub : Bytes} {info plaintext random sealedBytes : Bytes}
    (h : hpkeSeal P pub keyId info plaintext random = .ok sealedBytes) :
    ∃ encapped ciphertext, P.hpkeSeal pub info plaintext random = .ok (encapped, ciphertext) ∧
      (encapped.length < 2 ^ 16 → ∀ priv info', hpkeOpen P priv info' sealedBytes =
        P.hpkeOpen priv encapped info' ciphertext) := by
  unfold hpkeSeal at h
  split at h
  · next encapped ciphertext hseal =>
    cases h
    refine ⟨encapped, ciphertext, hseal, fun hlen priv info' => ?_⟩
    rw [hpkeOpen, decodeHeader_encode hlen]
    simp only [bind, Except.bind, AgilityHeader.new, ne_eq, not_true_eq_false, if_false]
    cases P.hpkeOpen priv encapped info' ciphertext <;> rfl
  · cases h

theorem aeadSeal_head (P : Primitives) (key : Bytes) (keyId : UInt16) (nonce plaintext : Bytes) :
    (aeadSeal P key keyId nonce plaintext).head? = some 0x4C := rfl

end Crypto

/-! ## Hexadecimal digests -/

def hexDigit (n : ℕ) : Char :=
  if n < 10 then Char.ofNat (48 + n) else Char.ofNat (87 + n)

def hexEncode (b : Bytes) : Text :=
  b.flatMap fun x => [hexDigit (x.toNat / 16), hexDigit (x.toNat % 16)]

def isHexDigit (c : Char) : Bool :=
  ('0' ≤ c && c ≤ '9') || ('a' ≤ c && c ≤ 'f') || ('A' ≤ c && c ≤ 'F')

theorem isHexDigit_hexDigit : ∀ n < 16, isHexDigit (hexDigit n) := by decide

theorem hexDigit_utf8Size : ∀ n < 16, (hexDigit n).utf8Size = 1 := by decide

theorem all_isHexDigit_hexEncode (b : Bytes) : (hexEncode b).all isHexDigit := by
  rw [all_eq_true]
  intro c hc
  obtain ⟨x, -, hx⟩ := mem_flatMap.mp hc
  have hlt : x.toNat < 256 := x.toNat_lt
  simp only [mem_cons, not_mem_nil, or_false] at hx
  rcases hx with rfl | rfl
  · exact isHexDigit_hexDigit _ (by omega)
  · exact isHexDigit_hexDigit _ (by omega)

theorem byteLen_hexEncode (b : Bytes) : byteLen (hexEncode b) = 2 * b.length := by
  induction b with
  | nil => rfl
  | cons x b ih =>
    have hlt : x.toNat < 256 := x.toNat_lt
    have hcons : hexEncode (x :: b) =
        hexDigit (x.toNat / 16) :: hexDigit (x.toNat % 16) :: hexEncode b := rfl
    rw [hcons, byteLen_cons, byteLen_cons, ih, hexDigit_utf8Size _ (by omega),
      hexDigit_utf8Size _ (by omega), length_cons]
    omega

end Litterae
