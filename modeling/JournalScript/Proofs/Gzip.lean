import JournalScript.Gzip.Basic
import JournalScript.Proofs.Encoding
import Mathlib.Algebra.GroupWithZero.Nat

/-!
# JournalScript.Proofs.Gzip

A compressed file gives its content back.

* `Inflate.blocks_storedStream`: the stored blocks of a content are read as that content, and
  reading stops behind the block that is marked as last.
* `Gzip.decompress_compress`: header, blocks, checksum and length together.
-/

namespace JournalScript

namespace Gzip

@[simp] theorem length_littleEndian (width n : Nat) : (littleEndian width n).length = width := by
  induction width generalizing n with
  | zero => rfl
  | succ width ih => simp [littleEndian, ih]

theorem ofLittleEndian_littleEndian (width : Nat) :
    ∀ n, n < 256 ^ width → ofLittleEndian (littleEndian width n) = n := by
  induction width with
  | zero => intro n h; simp at h; simp [littleEndian, ofLittleEndian, h]
  | succ width ih =>
    intro n h
    have hdiv : n / 256 < 256 ^ width := Nat.div_lt_of_lt_mul (by rwa [Nat.pow_succ'] at h)
    rw [littleEndian, ofLittleEndian, ih _ hdiv, Utf8.toNat_byte (by omega)]
    omega

end Gzip

namespace Inflate

open Gzip

/-- The first byte of a stored block: the mark of the last block, and two zeros for its kind. -/
theorem bits_first (last : Bool) (rest : Bytes) :
    (⟨0, (if last then 1 else 0) :: rest⟩ : BitStream).bits 1 =
        .ok (if last then 1 else 0, ⟨1, (if last then 1 else 0) :: rest⟩) ∧
      (⟨1, (if last then 1 else 0) :: rest⟩ : BitStream).bits 2 =
        .ok (0, ⟨3, (if last then 1 else 0) :: rest⟩) := by
  cases last <;> simp [BitStream.bits, BitStream.bit]

theorem stored_storedBlock (last : Bool) {bs : Bytes} (h : bs.length ≤ blockLimit)
    (rest out : Bytes) :
    stored ⟨3, storedBlock last bs ++ rest⟩ out = .ok (⟨0, rest⟩, bs.reverse ++ out) := by
  rw [blockLimit] at h
  have hbytes : storedBlock last bs ++ rest = (if last then 1 else 0) ::
      UInt8.ofNat (bs.length % 256) :: UInt8.ofNat (bs.length / 256 % 256) ::
      UInt8.ofNat ((65535 - bs.length) % 256) :: UInt8.ofNat ((65535 - bs.length) / 256 % 256) ::
      (bs ++ rest) := by
    simp [storedBlock, littleEndian, blockLimit]
  have hlength : bs.length % 256 + 256 * (bs.length / 256 % 256) = bs.length := by omega
  have hcheck : (65535 - bs.length) % 256 + 256 * ((65535 - bs.length) / 256 % 256) +
      bs.length = 65535 := by omega
  have haligned : (⟨3, storedBlock last bs ++ rest⟩ : BitStream).aligned =
      (storedBlock last bs ++ rest).drop 1 := rfl
  rw [stored, haligned, hbytes, List.drop_succ_cons, List.drop_zero]
  simp only [Utf8.toNat_byte (Nat.mod_lt _ (by decide : 256 > 0)), hlength, hcheck]
  simp

theorem blocks_storedBlock (last : Bool) {bs : Bytes} (h : bs.length ≤ blockLimit) (fuel : Nat)
    (rest out : Bytes) :
    blocks (fuel + 1) ⟨0, storedBlock last bs ++ rest⟩ out =
      if last then .ok (⟨0, rest⟩, bs.reverse ++ out)
      else blocks fuel ⟨0, rest⟩ (bs.reverse ++ out) := by
  have hstored := stored_storedBlock last h rest out
  rw [storedBlock, List.cons_append] at hstored ⊢
  obtain ⟨hlast, hkind⟩ := bits_first last
    (littleEndian 2 bs.length ++ littleEndian 2 (blockLimit - bs.length) ++ bs ++ rest)
  rw [blocks, hlast]
  simp only [hkind, block, hstored]
  cases last <;> rfl

/-- By induction on the blocks: every block but the last is full. -/
theorem blocks_storedStream (bs rest : Bytes) : ∀ (fuel : Nat) (out : Bytes),
    (storedStream bs).length ≤ fuel →
      blocks fuel ⟨0, storedStream bs ++ rest⟩ out = .ok (⟨0, rest⟩, bs.reverse ++ out) := by
  induction bs using storedStream.induct with
  | case1 bs h =>
    intro fuel out hfuel
    rw [storedStream, if_pos h] at hfuel ⊢
    obtain ⟨k, rfl⟩ : ∃ k, fuel = k + 1 := by
      cases fuel with
      | zero => simp [storedBlock] at hfuel
      | succ k => exact ⟨k, rfl⟩
    rw [blocks_storedBlock true h, if_pos rfl]
  | case2 bs h ih =>
    intro fuel out hfuel
    rw [storedStream, if_neg h] at hfuel ⊢
    rw [List.length_append] at hfuel
    have hpositive : 0 < (storedBlock false (bs.take blockLimit)).length := by simp [storedBlock]
    obtain ⟨k, rfl⟩ : ∃ k, fuel = k + 1 := ⟨fuel - 1, by omega⟩
    have hfull : (bs.take blockLimit).length ≤ blockLimit := List.length_take_le _ _
    rw [List.append_assoc, blocks_storedBlock false hfull, if_neg (by simp),
      ih k _ (by omega), ← List.append_assoc, ← List.reverse_append, List.take_append_drop]

theorem run_storedStream (bs rest : Bytes) : run (storedStream bs ++ rest) = .ok (bs, rest) := by
  rw [run, blocks_storedStream bs rest _ [] (by rw [List.length_append]; omega)]
  simp [BitStream.aligned]

end Inflate

namespace Gzip

theorem readHeader_header (rest : Bytes) : readHeader (header ++ rest) = .ok (some rest) := by
  have hfixed : exactly 8 (8 :: 0 :: 0 :: 0 :: 0 :: 0 :: 0 :: 255 :: rest) =
      .ok ([8, 0, 0, 0, 0, 0, 0, 255], rest) := by
    rw [exactly, if_neg (by simp)]; rfl
  simp only [header, List.cons_append, List.nil_append, readHeader, hfixed]
  simp [dropExtra, dropCheck, dropText]

theorem readMember_compressed (bs : Bytes) :
    readMember (storedStream bs ++ (littleEndian 4 (checksum bs).toNat ++
      littleEndian 4 (bs.length % UInt32.size))) = .ok (bs, []) := by
  have htrailer : exactly 8 (littleEndian 4 (checksum bs).toNat ++
      littleEndian 4 (bs.length % UInt32.size)) = .ok (littleEndian 4 (checksum bs).toNat ++
        littleEndian 4 (bs.length % UInt32.size), []) := by
    rw [exactly, if_neg (by simp), List.take_of_length_le (by simp), List.drop_of_length_le (by simp)]
  have hchecksum : ofLittleEndian (littleEndian 4 (checksum bs).toNat) = (checksum bs).toNat :=
    ofLittleEndian_littleEndian 4 _ (checksum bs).toNat_lt
  have hlength : ofLittleEndian (littleEndian 4 (bs.length % UInt32.size)) =
      bs.length % UInt32.size :=
    ofLittleEndian_littleEndian 4 _ (Nat.mod_lt _ (by decide))
  rw [readMember, Inflate.run_storedStream]
  simp only [htrailer]
  rw [List.take_left' (length_littleEndian _ _), List.drop_left' (length_littleEndian _ _),
    hchecksum, hlength]
  simp

/-- Decompression inverts compression. -/
theorem decompress_compress (bs : Bytes) : decompress (compress bs) = .ok bs := by
  have hlong : ∃ k, (compress bs).length = k + 1 := ⟨_, rfl⟩
  obtain ⟨k, hk⟩ := hlong
  rw [decompress, hk, readMembers, compress, List.append_assoc, List.append_assoc,
    readHeader_header]
  simp only [readMember_compressed]
  rw [readMembers]
  rfl

end Gzip
end JournalScript
