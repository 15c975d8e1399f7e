import Litterae.Crypto.Seal

/-! # Changed blobs

A blob opens under its key if its algorithm, nonce and ciphertext are those it was sealed with. The
version and the key id in the header are neither compared nor bound into the cipher.
-/

namespace Litterae.Crypto
open Foundations Nat UInt8

/-- The bytes of `s` with others for the version and the key id. -/
def Relabelled (s s' : Bytes) : Prop :=
  ∃ version k₀ k₁ : UInt8,
    s' = s.take 4 ++ version :: ((s.drop 5).take 2 ++ k₀ :: k₁ :: s.drop 9)

theorem beBytes_fromBeBytes (hi lo : UInt8) : beBytes (fromBeBytes hi lo) = [hi, lo] := by
  have hlo : lo.toNat < 2 ^ 8 := lo.toNat_lt
  have hhi : hi.toNat < 2 ^ 8 := hi.toNat_lt
  have hvalue : (fromBeBytes hi lo).toNat = hi.toNat * 256 + lo.toNat := by
    have h8 : UInt16.toNat 8 % 16 = 8 := rfl
    rw [fromBeBytes, UInt16.toNat_or, UInt16.toNat_shiftLeft, toNat_toUInt16,
      toNat_toUInt16, h8, mod_eq_of_lt (by rw [shiftLeft_eq]; omega),
      ← shiftLeft_add_eq_or_of_lt hlo, shiftLeft_eq]
  rw [beBytes, List.cons.injEq, List.cons.injEq]
  refine ⟨UInt8.toNat_inj.mp ?_, UInt8.toNat_inj.mp ?_, rfl⟩
  · rw [UInt16.toNat_toUInt8, UInt16.toNat_shiftRight, hvalue, Nat.shiftRight_eq_div_pow]
    change (hi.toNat * 256 + lo.toNat) / 2 ^ 8 % 2 ^ 8 = hi.toNat
    omega
  · rw [UInt16.toNat_toUInt8, hvalue]
    omega

theorem AlgId.toU16_of_fromU16 {v : UInt16} {a : AlgId} (h : AlgId.fromU16 v = .ok a) :
    a.toU16 = v := by
  unfold AlgId.fromU16 at h
  split at h
  · cases h; exact Eq.symm ‹_›
  split at h
  · cases h; exact Eq.symm ‹_›
  split at h
  · cases h; exact Eq.symm ‹_›
  · cases h

theorem AgilityHeader.encode_of_decode {buf rest : Bytes} {h : AgilityHeader}
    (hdecode : AgilityHeader.decode buf = .ok (h, rest)) : buf = h.encode ++ rest := by
  unfold AgilityHeader.decode at hdecode
  split at hdecode
  · next m₀ m₁ m₂ m₃ version a₀ a₁ k₀ k₁ n₀ n₁ tail =>
    split at hdecode
    · cases hdecode
    next hmagic =>
    obtain ⟨rfl, rfl, rfl, rfl⟩ : m₀ = 0x4C ∧ m₁ = 0x54 ∧ m₂ = 0x52 ∧ m₃ = 0x31 := by
      simpa [magic] using hmagic
    cases halg : AlgId.fromU16 (fromBeBytes a₀ a₁) with
    | error => rw [halg] at hdecode; cases hdecode
    | ok =>
      rw [halg] at hdecode
      simp only [bind, Except.bind] at hdecode
      split at hdecode
      · cases hdecode
      next hlen =>
      cases hdecode
      have hnonce : UInt16.ofNat (tail.take (fromBeBytes n₀ n₁).toNat).length = fromBeBytes n₀ n₁ := by
        rw [List.length_take, Nat.min_eq_left (Nat.le_of_not_lt hlen), UInt16.ofNat_toNat]
      simp only [AgilityHeader.encode, AlgId.toU16_of_fromU16 halg, hnonce, beBytes_fromBeBytes]
      simp [magic]
  · cases hdecode

/-- Headers with a payload and the byte strings that `decode` accepts are in one-to-one
correspondence. -/
theorem AgilityHeader.codec_bijective :
    (∀ (h : AgilityHeader) (payload : Bytes), h.nonce.length < 65536 →
      AgilityHeader.decode (h.encode ++ payload) = .ok (h, payload)) ∧
    (∀ (buf payload : Bytes) (h : AgilityHeader), AgilityHeader.decode buf = .ok (h, payload) →
      h.encode ++ payload = buf) ∧
    ∀ (buf buf' : Bytes) (r : AgilityHeader × Bytes), AgilityHeader.decode buf = .ok r →
      AgilityHeader.decode buf' = .ok r → buf = buf' := by
  refine ⟨fun h payload hnonce => h.decode_encode hnonce payload,
    fun buf payload h hbuf => (encode_of_decode hbuf).symm, fun buf buf' ⟨h, payload⟩ hbuf hbuf' => ?_⟩
  rw [encode_of_decode hbuf, encode_of_decode hbuf']

variable {keyId : UInt16} {alg : AlgId}

theorem relabelled_iff {nonce ciphertext s' : Bytes} :
    Relabelled ((AgilityHeader.new alg keyId nonce).encode ++ ciphertext) s' ↔
      ∃ version keyId', s' =
        ({ version, algId := alg, keyId := keyId', nonce } : AgilityHeader).encode ++ ciphertext := by
  constructor
  · rintro ⟨version, k₀, k₁, rfl⟩
    refine ⟨version, fromBeBytes k₀ k₁, ?_⟩
    simp only [AgilityHeader.encode, beBytes_fromBeBytes]
    simp [AgilityHeader.new, magic, beBytes]
  · rintro ⟨version, keyId', rfl⟩
    refine ⟨version, (keyId' >>> 8).toUInt8, keyId'.toUInt8, ?_⟩
    simp [AgilityHeader.encode, AgilityHeader.new, magic, beBytes]

/-- A blob other than `s` is refused, unless it is `s` with another version or key id. -/
def Detects (openBlob : Bytes → Except CryptoError Bytes) (s : Bytes) : Prop :=
  ∀ s', s' ≠ s → ((openBlob s').isOk = false ↔ ¬ Relabelled s s')

/-- What is common to the three schemes: they compare the algorithm, and what follows depends on the
nonce and the ciphertext. -/
theorem detects_of_pair {nonce ciphertext : Bytes}
    {f : AgilityHeader × Bytes → Except CryptoError Bytes} (hlen : nonce.length < 2 ^ 16)
    (hpair : ∀ h, h.nonce = nonce → (f (h, ciphertext)).isOk)
    (honly : ∀ h c, (f (h, c)).isOk → h.nonce = nonce ∧ c = ciphertext) :
    Detects (fun s' => do
        let p ← decodeHeader s'
        if p.1.algId ≠ alg then .error .wrongAlgorithm else f p)
      ((AgilityHeader.new alg keyId nonce).encode ++ ciphertext) := by
  intro s' _
  rw [← Bool.not_eq_true, not_iff_not, relabelled_iff]
  constructor
  · intro hok
    cases hdecode : AgilityHeader.decode s' with
    | error => simp only [decodeHeader, hdecode] at hok; cases hok
    | ok p =>
      obtain ⟨⟨version, algId, keyId', n⟩, c⟩ := p
      simp only [decodeHeader, hdecode] at hok
      change (ite _ _ _ : Except CryptoError Bytes).isOk at hok
      split at hok
      · cases hok
      next halg =>
      obtain ⟨rfl, rfl⟩ := honly _ _ hok
      obtain rfl := not_not.mp halg
      exact ⟨version, keyId', AgilityHeader.encode_of_decode hdecode⟩
  · rintro ⟨version, keyId', rfl⟩
    have hdecode := AgilityHeader.decode_encode ⟨version, alg, keyId', nonce⟩ hlen ciphertext
    simp only [decodeHeader, hdecode]
    change (ite _ _ _ : Except CryptoError Bytes).isOk
    rw [if_neg (not_not.mpr rfl)]
    exact hpair _ rfl

/-- Only the plaintext can be decrypted, from one nonce and one ciphertext. -/
def Only (decrypts : Bytes → Bytes → Bytes → Prop) (nonce ciphertext plaintext : Bytes) : Prop :=
  ∀ n c m, decrypts n c m ↔ n = nonce ∧ c = ciphertext ∧ m = plaintext

/-- With ciphers that decrypt nothing but what was sealed, a change of the blob goes unnoticed
exactly where it is confined to the version and the key id. -/
theorem tampering_detected_iff (P : Primitives) (keyId : UInt16) (plaintext : Bytes) :
    (∀ key nonce : Bytes, nonce.length = 24 →
      Only (fun n c m => P.decrypt key n c = some m) nonce (P.encrypt key nonce plaintext) plaintext →
      Detects (aeadOpen P key) (aeadSeal P key keyId nonce plaintext)) ∧
    (∀ (key : Block 32) (nonce : Block 24),
      Only (fun n c m => P.decrypt key.val n c = some m) nonce.val
        (P.encrypt key.val nonce.val (List.replicate zeroPrefixLen 0 ++ plaintext))
        (List.replicate zeroPrefixLen 0 ++ plaintext) →
      Detects (committingOpen P key) (committingSeal P key keyId nonce plaintext)) ∧
    ∀ pub priv info random encapped ciphertext s,
      P.hpkeSeal pub info plaintext random = .ok (encapped, ciphertext) → encapped.length = 32 →
      Only (fun n c m => P.hpkeOpen priv n info c = .ok m) encapped ciphertext plaintext →
      hpkeSeal P pub keyId info plaintext random = .ok s → Detects (hpkeOpen P priv info) s := by
  refine ⟨fun key nonce hlen honly => ?_, fun key nonce honly => ?_,
    fun pub priv info random encapped ciphertext s hseal hlen honly hs => ?_⟩
  · refine detects_of_pair ?_ (fun h hnonce => ?_) fun h c hok => ?_
    · exact hlen.trans_lt (by decide)
    · rw [hnonce, if_neg (not_not.mpr hlen), (honly _ _ _).mpr ⟨rfl, rfl, rfl⟩]
      rfl
    · split at hok
      · cases hok
      split at hok
      · next hopened => exact ((honly _ _ _).mp hopened).imp_right And.left
      · cases hok
  · have hlen : nonce.val.length = 24 := nonce.property
    refine detects_of_pair ?_ (fun h hnonce => ?_) fun h c hok => ?_
    · exact hlen.trans_lt (by decide)
    · rw [hnonce, if_neg (not_not.mpr hlen), (honly _ _ _).mpr ⟨rfl, rfl, rfl⟩]
      change (ite _ _ (ite _ _ _) : Except CryptoError Bytes).isOk
      rw [if_neg (by simp), if_neg (by simp)]
      rfl
    · split at hok
      · cases hok
      split at hok
      · cases hok
      · next hopened => exact ((honly _ _ _).mp hopened).imp_right And.left
  · rw [hpkeSeal, hseal] at hs
    cases hs
    refine detects_of_pair ?_ (fun h hnonce => ?_) fun h c hok => ?_
    · exact hlen.trans_lt (by decide)
    · rw [hnonce, (honly _ _ _).mpr ⟨rfl, rfl, rfl⟩]
      rfl
    · split at hok
      · next hopened => exact ((honly _ _ _).mp hopened).imp_right And.left
      · cases hok

/-- A cipher that decrypts one pair. -/
def pairPrimitives (nonce ciphertext plaintext : Bytes) : Primitives :=
  { Primitives.sample fun _ => none with
    decrypt := fun _ n c => if n = nonce ∧ c = ciphertext then some plaintext else none }

/-- With the version or the key id changed, a sealed blob still opens. -/
theorem relabelled_blob_opens :
    let nonce : Bytes := List.replicate 24 7
    let P := pairPrimitives nonce [1, 2, 3] [1, 2, 3]
    let key : Bytes := List.replicate 32 5
    let s := aeadSeal P key 1 nonce [1, 2, 3]
    Only (fun n c m => P.decrypt key n c = some m) nonce (P.encrypt key nonce [1, 2, 3]) [1, 2, 3] ∧
      ∀ s' ∈ [s.set 4 2, s.set 8 9], s' ≠ s ∧ aeadOpen P key s' = .ok [1, 2, 3] := by
  intro nonce P key s
  refine ⟨fun n c m => ?_, by decide +kernel⟩
  change (if n = nonce ∧ c = [1, 2, 3] then some [1, 2, 3] else none) = some m ↔ _
  rw [Option.ite_none_right_eq_some, and_assoc, Option.some.injEq, eq_comm (a := m)]
  rfl

end Litterae.Crypto
