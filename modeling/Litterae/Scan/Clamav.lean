import Litterae.Foundations.Text
import Mathlib.Algebra.Group.Nat.Defs

/-! # Framing towards clamd (`scan/src/clamav.rs`)

`scan` sends a command and then the message in chunks, each after its length in four bytes. The
reader is clamd's: it takes frames up to the first of length zero.
-/

namespace Litterae.Scan
open Foundations List

def chunkSize : ℕ := 256 * 1024

/-- `chunks(CHUNK_SIZE)`. -/
def chunks (raw : Bytes) : List Bytes :=
  if raw = [] then [] else raw.take chunkSize :: chunks (raw.drop chunkSize)
termination_by raw.length
decreasing_by
  rw [length_drop]
  exact Nat.sub_lt (length_pos_iff.mpr ‹_›) (by decide)

/-- `(n as u32).to_be_bytes()`. -/
def beBytes32 (n : ℕ) : Bytes :=
  [UInt8.ofNat (n / 2 ^ 24), UInt8.ofNat (n / 2 ^ 16), UInt8.ofNat (n / 2 ^ 8), UInt8.ofNat n]

def command : Bytes := utf8 "zINSTREAM\x00"

/-- What `scan` gives to `write_all`, in order. -/
def scanWrites (raw : Bytes) : List Bytes :=
  command :: (chunks raw).flatMap (fun chunk => [beBytes32 chunk.length, chunk]) ++ [beBytes32 0]

/-! ## The reader -/

/-- The frames up to the first of length zero, that one included, and what follows it. -/
def readFrames : ℕ → Bytes → Option (List Bytes × Bytes)
  | fuel + 1, b₃ :: b₂ :: b₁ :: b₀ :: rest =>
    let n := b₃.toNat * 2 ^ 24 + b₂.toNat * 2 ^ 16 + b₁.toNat * 2 ^ 8 + b₀.toNat
    if n = 0 then some ([[]], rest)
    else if rest.length < n then none
    else (readFrames fuel (rest.drop n)).map fun p => (rest.take n :: p.1, p.2)
  | _, _ => none

def readStream (stream : Bytes) : Option (List Bytes × Bytes) :=
  if command <+: stream then readFrames stream.length (stream.drop command.length) else none

theorem chunks_flatten (raw : Bytes) : (chunks raw).flatten = raw := by
  fun_induction chunks raw with
  | case1 => rfl
  | case2 raw hraw ih => rw [flatten_cons, ih, take_append_drop]

theorem mem_chunks {raw c : Bytes} (hc : c ∈ chunks raw) : c ≠ [] ∧ c.length ≤ chunkSize := by
  fun_induction chunks raw with
  | case1 => cases hc
  | case2 raw hraw ih =>
    rcases mem_cons.mp hc with rfl | hc
    · exact ⟨by simp [hraw, chunkSize], length_take_le _ _⟩
    · exact ih hc

theorem readFrames_cons {fuel n : ℕ} {rest : Bytes} (hn : n < 2 ^ 32) :
    readFrames (fuel + 1) (beBytes32 n ++ rest) =
      if n = 0 then some ([[]], rest)
      else if rest.length < n then none
      else (readFrames fuel (rest.drop n)).map fun p => (rest.take n :: p.1, p.2) := by
  have hvalue : (UInt8.ofNat (n / 2 ^ 24)).toNat * 2 ^ 24 + (UInt8.ofNat (n / 2 ^ 16)).toNat * 2 ^ 16 +
      (UInt8.ofNat (n / 2 ^ 8)).toNat * 2 ^ 8 + (UInt8.ofNat n).toNat = n := by
    simp only [UInt8.toNat_ofNat']
    omega
  rw [beBytes32, cons_append, cons_append, cons_append, cons_append, nil_append, readFrames, hvalue]

/-- Frames read back, whatever follows the last of them. -/
theorem readFrames_chunks {cs : List Bytes} (hcs : ∀ c ∈ cs, c ≠ [] ∧ c.length < 2 ^ 32) {fuel : ℕ}
    (hfuel : (cs.flatMap fun c => beBytes32 c.length ++ c).length < fuel) (rest : Bytes) :
    readFrames fuel (cs.flatMap (fun c => beBytes32 c.length ++ c) ++ beBytes32 0 ++ rest) =
      some (cs ++ [[]], rest) := by
  induction cs generalizing fuel with
  | nil =>
    obtain ⟨fuel, rfl⟩ : ∃ k, fuel = k + 1 := ⟨fuel - 1, by omega⟩
    rw [flatMap_nil, nil_append, readFrames_cons (by decide), if_pos rfl]
    rfl
  | cons _ _ ih =>
    obtain ⟨⟨hne, hlen⟩, hcs⟩ := forall_mem_cons.mp hcs
    obtain ⟨fuel, rfl⟩ : ∃ k, fuel = k + 1 := ⟨fuel - 1, by omega⟩
    have hpos := length_pos_iff.mpr hne
    rw [flatMap_cons, append_assoc, append_assoc, append_assoc, readFrames_cons hlen,
      if_neg (by simpa using hne), if_neg (by simp), drop_left, take_left, ← append_assoc,
      ih hcs (by simp only [flatMap_cons, length_append] at hfuel; omega)]
    rfl

/-- clamd reads the message back, in chunks that are neither empty nor too long, and nothing is left
after the one frame of length zero. -/
theorem scan_read_back (raw : Bytes) :
    ∃ cs, readStream (scanWrites raw).flatten = some (cs ++ [[]], []) ∧ cs.flatten = raw ∧
      ∀ c ∈ cs, c ≠ [] ∧ c.length ≤ chunkSize := by
  refine ⟨chunks raw, ?_, chunks_flatten raw, fun c => mem_chunks⟩
  have hstream : (scanWrites raw).flatten =
      command ++ ((chunks raw).flatMap (fun c => beBytes32 c.length ++ c) ++ beBytes32 0 ++ []) := by
    simp [scanWrites, flatMap_def, flatten_flatten, Function.comp_def]
  have hcs : ∀ c ∈ chunks raw, c ≠ [] ∧ c.length < 2 ^ 32 := fun c hc =>
    ⟨(mem_chunks hc).1, lt_of_le_of_lt (mem_chunks hc).2 (by decide)⟩
  rw [readStream, hstream, if_pos (prefix_append _ _), drop_left]
  refine readFrames_chunks hcs ?_ []
  simp only [length_append, beBytes32, length_cons]
  omega

end Litterae.Scan
