import Turnloop.Lib.Binary
import Turnloop.Redis.Resp

/-! The hash slot of a key in a cluster. -/

namespace Turnloop.Redis

open Polynomial Lib
open List hiding after next

def OPEN : UInt8 := 123

def CLOSE : UInt8 := 125

def hashed (key : Bytes) : Bytes :=
  match key.findIdx? (· == OPEN) with
  | none => key
  | some start =>
    match (key.drop (start + 1)).findIdx? (· == CLOSE) with
    | none => key
    | some close => if close ≠ 0 then (key.drop (start + 1)).take close else key

def crcBit (crc : UInt16) : UInt16 := if crc &&& 0x8000 ≠ 0 then (crc <<< 1) ^^^ 0x1021 else crc <<< 1

def crcByte (crc : UInt16) (byte : UInt8) : UInt16 := crcBit^[8] (crc ^^^ (byte.toUInt16 <<< 8))

def keySlot (key : Bytes) : UInt16 := (hashed key).foldl crcByte 0 % 16384

/-- The bytes between the first `OPEN` and the first `CLOSE` after it. -/
def HashTag (key tag : Bytes) : Prop :=
  tag ≠ [] ∧ ∃ before after, key = before ++ OPEN :: (tag ++ CLOSE :: after) ∧ OPEN ∉ before ∧ CLOSE ∉ tag

def HashedPart (key part : Bytes) : Prop := HashTag key part ∨ part = key ∧ ∀ tag, ¬ HashTag key tag

noncomputable def GENERATOR : (ZMod 2)[X] := X ^ 16 + X ^ 12 + X ^ 5 + 1

/-- The first bit of a message is its leading coefficient. -/
noncomputable def messagePolynomial (message : Bytes) : (ZMod 2)[X] :=
  message.foldl (fun p byte => p * X ^ 8 + binary byte.toNat) 0

lemma findIdx_split {b : UInt8} (h : b ∉ before) : (before ++ b :: after).findIdx? (· == b) = some before.length := by
  rw [findIdx?_append, findIdx?_eq_none_iff.mpr]
  · simp [findIdx?_cons]
  · intro a ha
    simpa using fun he : a = b => h (he ▸ ha)

lemma split_findIdx {b : UInt8} {i : ℕ} (h : l.findIdx? (· == b) = some i) :
    l = l.take i ++ b :: l.drop (i + 1) ∧ b ∉ l.take i := by
  obtain ⟨_, hb, he⟩ := findIdx?_eq_some_iff_getElem.mp h
  refine ⟨?_, fun hm => ?_⟩
  · have hg : l[i] = b := by simpa using hb
    rw [← hg, getElem_cons_drop, take_append_drop]
  · obtain ⟨j, _, hq⟩ := mem_take_iff_getElem.mp hm
    exact he j (by omega) (by simpa using hq)

lemma hashed_tag (h : HashTag key tag) : hashed key = tag := by
  obtain ⟨hn, before, after, rfl, ho, hc⟩ := h
  have hd : (before ++ OPEN :: (tag ++ CLOSE :: after)).drop (before.length + 1) = tag ++ CLOSE :: after := by
    rw [← drop_drop, drop_left, drop_one, tail_cons]
  have hp : tag.length ≠ 0 := by simpa using hn
  simp only [hashed, findIdx_split ho, hd, findIdx_split hc, ne_eq, hp, not_false_eq_true, if_true]
  exact List.take_left

lemma hashed_or_tag : hashed key = key ∨ HashTag key (hashed key) := by
  rw [hashed]
  cases ho : key.findIdx? (· == OPEN) with
  | none => exact .inl rfl
  | some i =>
    dsimp only
    cases hc : (key.drop (i + 1)).findIdx? (· == CLOSE) with
    | none => exact .inl rfl
    | some =>
      dsimp only
      split_ifs with hj
      · obtain ⟨hk, hb⟩ := split_findIdx ho
        obtain ⟨hr, hg⟩ := split_findIdx hc
        refine .inr ⟨fun hn => ?_, _, _, hk.trans (congrArg _ (congrArg _ hr)), hb, hg⟩
        rcases take_eq_nil_iff.mp hn with hz | he
        · exact hj hz
        · rw [he] at hc
          cases hc
      · exact .inl rfl

lemma hashed_part (h : HashedPart key part) : hashed key = part := by
  rcases h with h | ⟨rfl, hn⟩
  · exact hashed_tag h
  · exact hashed_or_tag.resolve_right (hn _)

lemma generator_binary : GENERATOR = X ^ 16 + binary 0x1021 := by
  have hl : (0x1021 : ℕ) = 2 ^ 12 ^^^ (2 ^ 5 ^^^ 1) := by decide
  rw [hl, binary_xor, binary_xor, binary_two_pow, binary_two_pow, binary_one, GENERATOR]
  ring

lemma binary_double_mod (h : n < 2 ^ 16) :
    X * binary n = binary (2 * n % 2 ^ 16) + if n < 2 ^ 15 then 0 else X ^ 16 := by
  rw [← binary_double]
  split_ifs with hn
  · rw [Nat.mod_eq_of_lt (by omega), add_zero]
  · have hu : 2 * n = 2 ^ 16 + 2 * n % 2 ^ 16 := by omega
    have hc := binary_two_pow_add (Nat.mod_lt (2 * n) (by norm_num : 0 < 2 ^ 16))
    rw [← hu] at hc
    rw [hc, add_comm]

lemma crcBit_binary (crc : UInt16) : GENERATOR ∣ binary (crcBit crc).toNat - X * binary crc.toNat := by
  have hc := binary_double_mod crc.toNat_lt
  have hh : (crc <<< 1).toNat = 2 * crc.toNat % 2 ^ 16 := by
    simp [UInt16.toNat_shiftLeft, Nat.shiftLeft_eq, Nat.mul_comm]
  have hp : crc &&& 0x8000 ≠ 0 ↔ ¬ crc.toNat < 2 ^ 15 := by
    have hl := crc.toNat_lt
    rw [ne_eq, ← UInt16.toNat_inj, UInt16.toNat_and, show (0x8000 : UInt16).toNat = 2 ^ 15 from rfl, Nat.and_two_pow,
      Nat.testBit_eq_decide_div_mod_eq]
    simp
    omega
  rw [crcBit]
  split_ifs with h
  · rw [if_neg (hp.mp h)] at hc
    rw [UInt16.toNat_xor, hh, binary_xor, hc, show (0x1021 : UInt16).toNat = 0x1021 from rfl, generator_binary]
    have hw : (2 : (ZMod 2)[X]) = 0 := CharTwo.two_eq_zero
    exact ⟨1, by linear_combination -X ^ 16 * hw⟩
  · rw [if_pos (not_not.mp (mt hp.mpr h))] at hc
    rw [hh, hc, add_zero, sub_self]
    exact dvd_zero _

lemma crcBits_binary (n : ℕ) (crc : UInt16) : GENERATOR ∣ binary (crcBit^[n] crc).toNat - X ^ n * binary crc.toNat := by
  induction n with
  | zero => simp
  | succ n ih =>
    rw [Function.iterate_succ_apply']
    have hu := (crcBit_binary (crcBit^[n] crc)).add (ih.mul_left X)
    ring_nf at hu ⊢
    exact hu

lemma crcByte_binary (crc : UInt16) (byte : UInt8) :
    GENERATOR ∣ binary (crcByte crc byte).toNat - (binary crc.toNat * X ^ 8 + binary byte.toNat * X ^ 16) := by
  have hb : (byte.toUInt16 <<< 8).toNat = byte.toNat * 2 ^ 8 := by
    have hl := byte.toNat_lt
    rw [UInt16.toNat_shiftLeft]
    simp [Nat.shiftLeft_eq]
    omega
  have hi := crcBits_binary 8 (crc ^^^ (byte.toUInt16 <<< 8))
  rw [UInt16.toNat_xor, hb, binary_xor, binary_mul_two_pow] at hi
  rw [crcByte]
  ring_nf at hi ⊢
  exact hi

lemma crc_binary {message : Bytes} :
    GENERATOR ∣ binary (message.foldl crcByte 0).toNat - messagePolynomial message * X ^ 16 := by
  induction message using reverseRecOn with
  | nil => simp [messagePolynomial]
  | append_singleton message byte ih =>
    rw [messagePolynomial, foldl_concat, foldl_concat, ← messagePolynomial]
    have hu := (crcByte_binary (message.foldl crcByte 0) byte).add (ih.mul_right (X ^ 8))
    ring_nf at hu ⊢
    exact hu

lemma generator_monic : GENERATOR.Monic := by
  unfold GENERATOR
  monicity!

lemma generator_degree : GENERATOR.degree = 16 := by
  unfold GENERATOR
  compute_degree!

theorem key_slot_exact :
    (∀ key part, HashedPart key part → ∃ crc : UInt16,
      binary crc.toNat = (messagePolynomial part * X ^ 16) %ₘ GENERATOR ∧ keySlot key = crc % 16384) ∧
    ∀ key key' tag, HashTag key tag → HashTag key' tag → keySlot key = keySlot key' := by
  refine ⟨fun key part hp => ⟨part.foldl crcByte 0, ?_, ?_⟩, fun key key' tag h h' => ?_⟩
  · rw [← modByMonic_eq_of_dvd_sub generator_monic crc_binary, eq_comm, modByMonic_eq_self_iff generator_monic,
      generator_degree]
    exact degree_binary_lt (UInt16.toNat_lt _)
  · rw [keySlot, hashed_part hp]
  · rw [keySlot, keySlot, hashed_tag h, hashed_tag h']

theorem key_slot_exact_tagged :
    (∃ crc : UInt16, binary crc.toNat = (messagePolynomial (ascii "a") * X ^ 16) %ₘ GENERATOR ∧
      keySlot (ascii "x\x7ba\x7d") = crc % 16384) ∧ keySlot (ascii "x\x7ba\x7d") = keySlot (ascii "\x7ba\x7dy") := by
  have hg : HashTag (ascii "x\x7ba\x7d") (ascii "a") := ⟨by decide, ascii "x", [], by decide, by decide, by decide⟩
  have ht' : HashTag (ascii "\x7ba\x7dy") (ascii "a") := ⟨by decide, [], ascii "y", by decide, by decide, by decide⟩
  exact ⟨key_slot_exact.1 _ _ (.inl hg), key_slot_exact.2 _ _ _ hg ht'⟩

end Turnloop.Redis
