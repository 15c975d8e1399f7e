import Litterae.Mail.Requests

/-! # Reading mail back

What `deliver` sealed, `open_message` opens with the private key of the account and with no other,
after any later calls that leave its row in place (`delivered_reads_back`). The ciphers are taken as
ideal: what was sealed opens under the same key and info, and under no other.
-/

namespace Litterae.Mail
open Foundations Store Delivery Queue Jmap Exec Crypto List

/-- Correct round trips, and failure under another key or info; `pub` takes a private key to its public
one. -/
structure IdealCiphers (P : Primitives) (pub : Bytes → Bytes) : Prop where
  cipher : ∀ key nonce m, P.decrypt key nonce (P.encrypt key nonce m) = some m
  encapped : ∀ priv info m random encapped ciphertext,
    P.hpkeSeal (pub priv) info m random = .ok (encapped, ciphertext) → encapped.length = 32
  opens : ∀ priv info m random encapped ciphertext,
    P.hpkeSeal (pub priv) info m random = .ok (encapped, ciphertext) →
      P.hpkeOpen priv encapped info ciphertext = .ok m
  fails : ∀ priv info m random encapped ciphertext,
    P.hpkeSeal (pub priv) info m random = .ok (encapped, ciphertext) →
      ∀ priv' info', (priv', info') ≠ (priv, info) →
        ∃ e, P.hpkeOpen priv' encapped info' ciphertext = .error e

variable {P : Primitives} {draw : Draw}

section
variable {pub : Bytes → Bytes} {priv raw dekWrap : Bytes} {keyId : UInt16} {faults : Faults}
  {s : Stores} {hash : Text}

theorem read_run {bytes : Bytes} {b : BlobStore} (hfault : faults .blobRead = none)
    (hfile : b.file hash = some bytes) (hname : hashHex P bytes = hash) :
    read P faults hash b = (.ok bytes, b) := by
  subst hname
  rw [Store.read, bind_of_ok (by rw [pathFor_run, validHash_hashHex]; rfl), file_bind_run, hfault]
  simp only [bind_of_ok (get_run b), hfile]
  simp

theorem openBlob_sealed (hideal : IdealCiphers P pub) (hdek : draw.dek.length = 32)
    (hnonce : draw.nonce.length = 24)
    (hwrap : hpkeSeal P (pub priv) keyId dekSealInfo draw.dek draw.hpkeRandom = .ok dekWrap)
    (hfault : faults .blobRead = none)
    (hfile : s.blobs.file (hashHex P (aeadSeal P draw.dek 1 draw.nonce raw)) =
      some (aeadSeal P draw.dek 1 draw.nonce raw)) :
    openBlob P faults (hashHex P (aeadSeal P draw.dek 1 draw.nonce raw)) dekWrap priv s =
      (.ok raw, s) := by
  obtain ⟨encapped, ciphertext, hseal, hopen⟩ := hpkeOpen_of_hpkeSeal hwrap
  have hlen := hideal.encapped _ _ _ _ _ _ hseal
  have hkey : hpkeOpen P priv dekSealInfo dekWrap = .ok draw.dek := by
    rw [hopen (by omega), hideal.opens _ _ _ _ _ _ hseal]
  have hread : onBlobs (read P faults (hashHex P (aeadSeal P draw.dek 1 draw.nonce raw))) s =
      (.ok (aeadSeal P draw.dek 1 draw.nonce raw), s) := by
    rw [onBlobs_run, read_run hfault hfile rfl]
  simp only [openBlob, hkey, hdek, ne_eq, not_true_eq_false, if_false]
  rw [bind_of_ok hread, aeadOpen_aeadSeal hideal.cipher hnonce]
  rfl

theorem openBlob_other {priv' : Bytes} (hideal : IdealCiphers P pub)
    (hwrap : hpkeSeal P (pub priv) keyId dekSealInfo draw.dek draw.hpkeRandom = .ok dekWrap)
    (hother : priv' ≠ priv) : ∃ e, openBlob P faults hash dekWrap priv' s = (.err e, s) := by
  obtain ⟨encapped, ciphertext, hseal, hopen⟩ := hpkeOpen_of_hpkeSeal hwrap
  have hlen := hideal.encapped _ _ _ _ _ _ hseal
  obtain ⟨e, he⟩ := hideal.fails _ _ _ _ _ _ hseal priv' dekSealInfo
    fun heq => hother (Prod.mk.inj heq).1
  refine ⟨.crypto e.display, ?_⟩
  simp only [openBlob, hopen (by omega), he]
  rfl

end

/-! ## Through later calls -/

/-- The world after a request that wrote the ciphertext `c` and left the stores at `t`. -/
def World.wrote (w : World) (t : Stores) (c : Bytes) : World :=
  ⟨{ w.loop with stores := t }, w.held, w.written ++ [c]⟩

section
variable {hostname : Text} {w v : World} {r : ℤ × Text × Bytes}

theorem Ordered.stays {calls : List Call} {c : Bytes} (hw : Ordered P w) (hr : r ∈ w.ledger.rows)
    (hfile : w.ledger.file r.2.1 = some c)
    (hideal : Along (callStep P hostname) (Ideal P hostname) w calls)
    (hother : Along (callStep P hostname) (fun w c => deletes w c ≠ some r.1) w calls)
    (hrun : Foundations.run (callStep P hostname) w calls = some v) :
    Ordered P v ∧ r ∈ v.ledger.rows ∧ v.ledger.file r.2.1 = some c := by
  refine run_invariant (I := fun u => Ordered P u ∧ r ∈ u.ledger.rows ∧ u.ledger.file r.2.1 = some c)
    (fun u a u' hu hguard hstep => ?_) ⟨hw, hr, hfile⟩ (hideal.and hother) hrun
  obtain ⟨hord, hmem, hcontent⟩ := hu
  have hledger := callStep_ledger hord.sound hguard.1 hstep
  exact ⟨hord.step hguard.1 hstep, hledger.stays hord.kept hmem hguard.2 hcontent⟩

theorem Ordered.lookup (hw : Ordered P w) (hr : r ∈ w.ledger.rows) :
    ∃ row, findBy StoredMessage.id r.1 w.stores.metadata.messages = some row ∧
      row.blobHash = r.2.1 ∧ row.dekWrap = r.2.2 := by
  obtain ⟨row, hrow, rfl⟩ := mem_map.mp hr
  have hids : (w.stores.metadata.messages.map StoredMessage.id).Nodup := by
    have hids := hw.kept.ids
    rwa [World.ledger, mailNames_ids] at hids
  exact ⟨row, (findBy_eq_some_iff _ hids).mpr ⟨hrow, rfl⟩, rfl, rfl⟩

variable {account : RecipientAccount} {envelope : InboundEnvelope} {results : AuthResults}
  {raw : Bytes} {receivedAt : ℤ} {spamReason : Option Text} {scan : ScanMetadata}
  {d : DeliveredMessage} {t : Stores}

theorem Ordered.deliver (hw : Ordered P w)
    (hideal : Ideal P hostname w (.sealForAccount draw account.accountPub account.keyId raw))
    (h : Delivery.deliver P draw account envelope results raw receivedAt spamReason scan w.stores =
      (.ok d, t)) :
    Ordered P (w.wrote t (aeadSeal P draw.dek 1 draw.nonce raw)) ∧
      ∃ dekWrap, hpkeSeal P account.accountPub account.keyId dekSealInfo draw.dek
          draw.hpkeRandom = .ok dekWrap ∧
        (d.messageId, d.blobHash, dekWrap) ∈
          (w.wrote t (aeadSeal P draw.dek 1 draw.nonce raw)).ledger.rows ∧
        d.blobHash = hashHex P (aeadSeal P draw.dek 1 draw.nonce raw) ∧
        t.blobs.file d.blobHash = some (aeadSeal P draw.dek 1 draw.nonce raw) := by
  obtain ⟨hnew, hapart, -⟩ := hideal
  have hsteps : LedgerSteps P (fun _ => False) w.ledger
      (w.wrote t (aeadSeal P draw.dek 1 draw.nonce raw)).ledger :=
    deliver_ledger (hnew _ (mem_singleton_self _))
      (fun b hb => hapart _ (mem_append_left _ (mem_singleton_self _)) b hb) h
  have hkept := hsteps.kept hw.kept
  have hqueue : t.queue = w.loop.queue :=
    (deliver_sealing.run h).queue
  have hsound : Sound { w.loop with stores := t } :=
    hw.sound.congr (congrArg QueueStore.rcpts hqueue) (congrArg QueueStore.outbound hqueue) rfl
  obtain ⟨row, hrow⟩ := deliver_ok h
  refine ⟨⟨hsound, hkept⟩, row.dekWrap, hrow.wrap, ?_, hrow.name, ?_⟩
  · refine mem_map.mpr ⟨row, ?_, by rw [hrow.id, hrow.blobHash]⟩
    exact hrow.messages ▸ mem_append_right _ (mem_singleton_self _)
  · have hstored := hrow.stored
    rw [hrow.name] at hstored ⊢
    exact hkept.file_eq (mem_append_right _ (mem_singleton_self _)) hstored

end

/-- In every world that ideal calls reach: a delivered message reads back as the raw bytes with the
private key of the account, and with no other key, after every later run of ideal calls that does not
destroy it; so does whatever `seal_for_account` sealed. -/
theorem delivered_reads_back {P : Primitives} {pub : Bytes → Bytes} (hideal : IdealCiphers P pub)
    {hostname : Text} {accounts : List Account} {domains : List Domain} {calls : List Call} {w : World}
    (hrun : run (callStep P hostname) (World.start accounts domains) calls = some w)
    (hcalls : Along (callStep P hostname) (Ideal P hostname) (World.start accounts domains) calls)
    {draw : Draw} (hdek : draw.dek.length = 32) (hnonce : draw.nonce.length = 24) (priv raw : Bytes)
    (keyId : UInt16) (hfresh : Ideal P hostname w (.sealForAccount draw (pub priv) keyId raw)) :
    (∀ account envelope results receivedAt spamReason scan d t,
      account.accountPub = pub priv → account.keyId = keyId →
      deliver P draw account envelope results raw receivedAt spamReason scan w.stores = (.ok d, t) →
      ∀ later v,
        run (callStep P hostname) (w.wrote t (aeadSeal P draw.dek 1 draw.nonce raw)) later =
          some v →
        Along (callStep P hostname) (Ideal P hostname)
          (w.wrote t (aeadSeal P draw.dek 1 draw.nonce raw)) later →
        Along (callStep P hostname) (fun w c => deletes w c ≠ some d.messageId)
          (w.wrote t (aeadSeal P draw.dek 1 draw.nonce raw)) later →
        ∃ row, findBy StoredMessage.id d.messageId v.stores.metadata.messages = some row ∧
          (∀ faults : Faults, faults .blobRead = none →
            openMessage P faults row priv v.stores = (.ok raw, v.stores)) ∧
          ∀ faults priv', priv' ≠ priv →
            ∃ e, openMessage P faults row priv' v.stores = (.err e, v.stores)) ∧
    ∀ blobHash dekWrap t,
      sealForAccount P draw (pub priv) keyId raw w.stores = (.ok (blobHash, dekWrap), t) →
        (∀ faults : Faults, faults .blobRead = none →
          openBlob P faults blobHash dekWrap priv t = (.ok raw, t)) ∧
        ∀ faults priv', priv' ≠ priv → ∃ e, openBlob P faults blobHash dekWrap priv' t = (.err e, t) := by
  have hw := (ordered_start accounts domains).run hcalls hrun
  constructor
  · intro account envelope results receivedAt spamReason scan d t hpub hkeyId hdeliver later v hlater
      hlaterIdeal hother
    obtain ⟨hord, dekWrap, hwrap, hmem, hname, hfile⟩ := hw.deliver (hpub ▸ hkeyId ▸ hfresh) hdeliver
    obtain ⟨hv, hstays, hcontent⟩ := hord.stays hmem hfile hlaterIdeal hother hlater
    obtain ⟨row, hfound, hblob, hdekWrap⟩ := hv.lookup hstays
    rw [hpub] at hwrap
    refine ⟨row, hfound, fun faults hfault => ?_, fun faults priv' hother' => ?_⟩
    · rw [openMessage, hblob, hdekWrap, hname]
      exact openBlob_sealed hideal hdek hnonce hwrap hfault (hname ▸ hcontent)
    · rw [openMessage, hblob, hdekWrap]
      exact openBlob_other hideal hwrap hother'
  · intro blobHash dekWrap t hseal
    obtain ⟨hname, hstored, hwrap⟩ := sealForAccount_ok hseal
    have hput := ((sealForAccount_sealing (pub priv) keyId raw).run hseal).put
    have hkept := hw.kept.put (hfresh.2.1 _ (mem_append_left _ (mem_singleton_self _))) hput
    subst hname
    have hfile := hkept.file_eq (mem_append_right _ (mem_singleton_self _)) hstored
    exact ⟨fun faults hfault => openBlob_sealed hideal hdek hnonce hwrap hfault hfile,
      fun faults priv' hother => openBlob_other hideal hwrap hother⟩

def framed : Bytes → Bytes
  | [] => [0]
  | x :: xs => 1 :: x :: framed xs

theorem framed_append_inj {a b x y : Bytes} (h : framed a ++ x = framed b ++ y) : a = b ∧ x = y := by
  induction a generalizing b with
  | nil =>
    cases b with
    | nil => exact ⟨rfl, (List.cons.inj h).2⟩
    | cons => exact absurd (List.cons.inj h).1 (by decide)
  | cons _ _ ih =>
    cases b with
    | nil => exact absurd (List.cons.inj h).1 (by decide)
    | cons =>
      obtain ⟨rfl, hrest⟩ := List.cons.inj (List.cons.inj h).2
      obtain ⟨rfl, rfl⟩ := ih hrest
      exact ⟨rfl, rfl⟩

/-- HPKE that writes the public key and the info in front of the plaintext, and checks both. -/
def sampleSealer : Primitives :=
  { sampleMailer with
    hpkeSeal := fun pub info m _ => .ok (List.replicate 32 0, framed pub ++ (framed info ++ m))
    hpkeOpen := fun priv _ info ciphertext =>
      if (framed priv ++ framed info).isPrefixOf ciphertext then
        .ok (ciphertext.drop (framed priv ++ framed info).length)
      else .error .openFailed }

theorem sampleSealer_ideal : IdealCiphers sampleSealer id where
  cipher := fun _ _ _ => rfl
  encapped := by
    rintro priv info m random encapped ciphertext ⟨⟩
    rfl
  opens := by
    rintro priv info m random encapped ciphertext ⟨⟩
    simp only [sampleSealer, id_eq, ← append_assoc, drop_left]
    exact if_pos ( isPrefixOf_iff_prefix.mpr (prefix_append _ _))
  fails := by
    rintro priv info m random encapped ciphertext ⟨⟩ priv' info' hne
    refine ⟨.openFailed, if_neg fun hstart => hne ?_⟩
    obtain ⟨rest, hrest⟩ := isPrefixOf_iff_prefix.mp hstart
    rw [append_assoc] at hrest
    obtain ⟨rfl, hinfo⟩ := framed_append_inj hrest
    obtain ⟨rfl, -⟩ := framed_append_inj hinfo
    rfl

def sampleLaterRow (n : UInt8) : NewMessage := { sampleRow n with
  blobHash := hashHex sampleSealer
    (aeadSeal sampleSealer sampleDraw.dek 1 (sampleDrawOf n).nonce sampleOriginal)
  dekWrap := ((hpkeSeal sampleSealer [2] 1 dekSealInfo sampleDraw.dek []).toOption).getD [] }

def sampleReceived : Res Error DeliveredMessage × Stores :=
  deliver sampleSealer (sampleDrawOf 1) (sampleRecipient 1) sampleEnvelope sampleResults sampleOriginal
    1700000000 none .default (World.start [] []).stores

def sampleReceiver : World :=
  (World.start [] []).wrote sampleReceived.2
    (aeadSeal sampleSealer sampleDraw.dek 1 (sampleDrawOf 1).nonce sampleOriginal)

def sampleLater : List Call :=
  [.updateMessage .none 1 none (some "$seen"), sampleSealing 2,
    .insertMessage .none 0 (sampleLaterRow 2), .ownMessage .none 1 2, .deleteMessage .none 0,
    .removeBlob .none 0]

theorem delivered_reads_back_later :
    sampleReceived.1 = .ok ⟨1, (sampleLaterRow 1).blobHash⟩ ∧
      ∃ v row, run (callStep sampleSealer []) sampleReceiver sampleLater = some v ∧
        v.stores.metadata.messages.map (fun m => (m.id, m.keywords)) = [(1, "$seen".toList)] ∧
        findBy StoredMessage.id 1 v.stores.metadata.messages = some row ∧
        openMessage sampleSealer .none row [2] v.stores = (.ok sampleOriginal, v.stores) ∧
        ∃ e, openMessage sampleSealer .none row [3] v.stores = (.err e, v.stores) := by
  have hstart : run (callStep sampleSealer []) (World.start [] []) [] = some (World.start [] []) := rfl
  have hfresh : Ideal sampleSealer [] (World.start [] [])
      (.sealForAccount (sampleDrawOf 1) (id [2]) 1 sampleOriginal) := by decide +kernel
  have hdelivered : sampleReceived.1 = .ok ⟨1, (sampleLaterRow 1).blobHash⟩ := by decide +kernel
  have hends : ((run (callStep sampleSealer []) sampleReceiver sampleLater).map fun v =>
      v.stores.metadata.messages.map fun m => (m.id, m.keywords)) = some [(1, "$seen".toList)] := by
    decide +kernel
  have hguards : Along (callStep sampleSealer [])
      (fun w c => Ideal sampleSealer [] w c ∧ deletes w c ≠ some 1) sampleReceiver sampleLater := by
    decide +kernel
  obtain ⟨v, hrun, hrows⟩ := Option.map_eq_some_iff.mp hends
  have hback := (delivered_reads_back sampleSealer_ideal hstart trivial
    (show (sampleDrawOf 1).dek.length = 32 from rfl) rfl [2] sampleOriginal 1 hfresh).1
    (sampleRecipient 1) sampleEnvelope sampleResults 1700000000 none .default
  obtain ⟨row, hfound, hopens, hfails⟩ := hback _ sampleReceived.2 rfl rfl
    (Prod.ext hdelivered rfl) sampleLater v hrun (hguards.mono fun _ _ h => h.1)
    (hguards.mono fun _ _ h => h.2)
  exact ⟨hdelivered, v, row, hrun, hrows, hfound, hopens .none rfl, hfails .none [3] (by decide)⟩

end Litterae.Mail
