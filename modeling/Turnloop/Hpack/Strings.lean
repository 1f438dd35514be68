import Turnloop.Hpack.Huffman

/-! The integers and strings of a header block. -/

namespace Turnloop.Hpack

open Lib Http2 List

variable {rest : Bytes}

def groups : ℕ → ℕ → Bytes
  | 0, value => [UInt8.ofNat value]
  | fuel + 1, value =>
    if value ≥ 128 then UInt8.ofNat (value % 128 ||| 128) :: groups fuel (value / 128) else [UInt8.ofNat value]

def encodeInteger (value bits pre : ℕ) : Bytes :=
  let mask := 2 ^ bits - 1
  if value < mask then [UInt8.ofNat (pre ||| value)]
  else UInt8.ofNat (pre ||| mask) :: groups (value - mask) (value - mask)

def moreGroups (n shift : ℕ) : Bytes → Result (ℕ × Bytes)
  | [] => .error bad
  | b :: rest =>
    let low := b.toNat &&& 127
    let part := (low <<< shift) % 2 ^ 64
    if shift ≥ 64 ∨ low > USIZE_MAX >>> shift then .error bad
    else if n + part > USIZE_MAX then .error bad
    else if b.toNat &&& 128 = 0 then .ok (n + part, rest)
    else moreGroups (n + part) (shift + 7) rest

def integer (bits : ℕ) : Bytes → Result (ℕ × Bytes)
  | [] => .error bad
  | b :: rest =>
    let mask := 2 ^ bits - 1
    let n := b.toNat &&& mask
    if n < mask then .ok (n, rest) else moreGroups n 0 rest

def string (limit : ℕ) (input : Bytes) : Result (Bytes × Bytes) :=
  match input with
  | [] => .error bad
  | b :: _ => do
    let (n, rest) ← integer 7 input
    if n > rest.length then throw bad
    else if b.toNat &&& 128 ≠ 0 then do
      let out ← huffmanDecode (rest.take n) limit
      pure (out, rest.drop n)
    else if n > limit then throw bad
    else pure (rest.take n, rest.drop n)

def emitString (value : Bytes) : Bytes :=
  let n := ((value.map fun b => (codeOf b).2).sum + 7) / 8
  if n < value.length then encodeInteger n 7 128 ++ huffmanEncode value else encodeInteger value.length 7 0 ++ value

section

variable {n v bits a : ℕ} {shift : ℕ}

lemma low_group (h : v < 128) : (UInt8.ofNat v).toNat &&& 127 = v ∧ (UInt8.ofNat v).toNat &&& 128 = 0 := by
  revert v
  decide

lemma high_group (h : v < 128) : (UInt8.ofNat (v ||| 128)).toNat &&& 127 = v ∧
    (UInt8.ofNat (v ||| 128)).toNat &&& 128 ≠ 0 := by
  revert v
  decide

lemma not_over (hm : n + v * 2 ^ shift ≤ USIZE_MAX) (hh : shift < 64) : ¬ (shift ≥ 64 ∨ v > USIZE_MAX >>> shift) := by
  have hl : v ≤ USIZE_MAX >>> shift := by
    rw [Nat.shiftRight_eq_div_pow, Nat.le_div_iff_mul_le (Nat.two_pow_pos shift)]
    omega
  omega

lemma part_eq (h : ¬ (shift ≥ 64 ∨ v > USIZE_MAX >>> shift)) : (v <<< shift) % 2 ^ 64 = v * 2 ^ shift := by
  rw [Nat.shiftRight_eq_div_pow, not_or, not_lt, Nat.le_div_iff_mul_le (Nat.two_pow_pos shift)] at h
  rw [Nat.shiftLeft_eq, Nat.mod_eq_of_lt]
  exact h.2.trans_lt (by decide)

lemma moreGroups_last (hv : v < 128) (hm : n + v * 2 ^ shift ≤ USIZE_MAX) (hh : shift < 64) :
    moreGroups n shift (UInt8.ofNat v :: rest) = .ok (n + v * 2 ^ shift, rest) := by
  obtain ⟨hl, he⟩ := low_group hv
  rw [moreGroups, hl]
  rw [if_neg (not_over hm hh), part_eq (not_over hm hh), if_neg (by omega), if_pos he]

lemma moreGroups_groups {fuel : ℕ} (hf : v ≤ fuel) (hm : n + v * 2 ^ shift ≤ USIZE_MAX) (hh : shift < 64) :
    moreGroups n shift (groups fuel v ++ rest) = .ok (n + v * 2 ^ shift, rest) := by
  induction fuel generalizing n v shift with
  | zero => exact moreGroups_last (by omega) hm hh
  | succ fuel ih =>
    rw [groups]
    split_ifs with hv
    · have hp : v % 128 * 2 ^ shift + v / 128 * 2 ^ (shift + 7) = v * 2 ^ shift := by
        rw [pow_add, show (2 ^ 7 : ℕ) = 128 from rfl, mul_comm (2 ^ shift) 128, ← mul_assoc, ← add_mul,
          Nat.mod_add_div' v 128]
      have hn : shift + 7 < 64 := by
        by_contra hge
        have ho : 2 ^ 64 ≤ 2 ^ shift * 2 ^ 7 := by
          rw [← pow_add]
          exact Nat.pow_le_pow_right (by norm_num) (by omega)
        have hl : 2 ^ shift * 2 ^ 7 ≤ v * 2 ^ shift := by
          rw [mul_comm]
          exact Nat.mul_le_mul_right _ hv
        have : USIZE_MAX < 2 ^ 64 := by decide
        omega
      obtain ⟨hb, he⟩ := high_group (Nat.mod_lt v (show 0 < 128 by norm_num))
      rw [cons_append, moreGroups, hb]
      have hi : ¬ (shift ≥ 64 ∨ v % 128 > USIZE_MAX >>> shift) := not_over (n := n) (by omega) hh
      rw [if_neg hi, part_eq hi, if_neg (by omega), if_neg he, ih (by omega) (by omega) hn, Nat.add_assoc, hp]
    · exact moreGroups_last (by omega) hm hh

lemma encodeInteger_cons (v bits pre : ℕ) :
    ∃ u < 2 ^ bits, ∃ tail, encodeInteger v bits pre = UInt8.ofNat (pre ||| u) :: tail := by
  unfold encodeInteger
  dsimp only
  split_ifs with h
  · exact ⟨v, by omega, [], rfl⟩
  · exact ⟨2 ^ bits - 1, Nat.sub_lt (Nat.two_pow_pos bits) (by norm_num), _, rfl⟩

lemma first_byte {u pre : ℕ} (hu : u < 2 ^ bits) (hp : pre = 2 ^ bits * a) (hf : pre + 2 ^ bits ≤ 256) :
    (UInt8.ofNat (pre ||| u)).toNat &&& (2 ^ bits - 1) = u := by
  rw [hp, ← Nat.two_pow_add_eq_or_of_lt hu, UInt8.toNat_ofNat', Nat.mod_eq_of_lt (by norm_num; omega),
    Nat.and_two_pow_sub_one_eq_mod,
    Nat.mul_add_mod, Nat.mod_eq_of_lt hu]

lemma integer_encodeInteger {pre : ℕ} (hp : pre = 2 ^ bits * a) (hf : pre + 2 ^ bits ≤ 256) (hm : v ≤ USIZE_MAX) :
    integer bits (encodeInteger v bits pre ++ rest) = .ok (v, rest) := by
  unfold encodeInteger
  dsimp only
  split_ifs with hv
  · rw [singleton_append, integer, first_byte (by omega) hp hf]
    exact if_pos hv
  · have hs : 2 ^ bits - 1 < 2 ^ bits := Nat.sub_lt (Nat.two_pow_pos bits) (by norm_num)
    rw [cons_append, integer, first_byte hs hp hf]
    rw [if_neg (lt_irrefl _), moreGroups_groups (Nat.le_refl _) (by omega) (by norm_num)]
    congr 2
    omega

/-- The integer a header block denotes, of whatever size, by section 5.1 of RFC 7541. -/
def denotedGroups (i m : ℕ) : Bytes → Option (ℕ × Bytes)
  | [] => none
  | b :: rest =>
    let i := i + (b.toNat &&& 127) * 2 ^ m
    if b.toNat &&& 128 = 0 then some (i, rest) else denotedGroups i (m + 7) rest

def denoted (bits : ℕ) : Bytes → Option (ℕ × Bytes)
  | [] => none
  | b :: rest =>
    let i := b.toNat % 2 ^ bits
    if i < 2 ^ bits - 1 then some (i, rest) else denotedGroups i 0 rest

variable {input : Bytes} {r : ℕ × Bytes}

lemma moreGroups_denoted (h : moreGroups n shift input = .ok r) :
    denotedGroups n shift input = some r ∧ r.1 ≤ USIZE_MAX := by
  induction input generalizing n shift with
  | nil => cases h
  | cons b rest ih =>
    rw [moreGroups] at h
    rw [denotedGroups]
    split_ifs at h with ho hm hl <;> rw [part_eq ho] at h hm
    · cases h
      exact ⟨if_pos hl, not_lt.mp hm⟩
    · rw [if_neg hl]
      exact ih h

lemma integer_denoted (h : integer bits input = .ok r) : denoted bits input = some r ∧ r.1 ≤ USIZE_MAX := by
  cases input with
  | nil => cases h
  | cons b =>
    rw [integer, Nat.and_two_pow_sub_one_eq_mod] at h
    rw [denoted]
    split_ifs at h with hh
    · cases h
      have hb : b.toNat % 2 ^ bits < 2 ^ 8 := (Nat.mod_le _ _).trans_lt b.toNat_lt
      exact ⟨if_pos hh, hb.le.trans (by decide)⟩
    · rw [if_neg hh]
      exact moreGroups_denoted h

theorem integer_exact {bits : ℕ} (hbits : 4 ≤ bits ∧ bits ≤ 7) :
    (∀ v (flag : UInt8) rest, v ≤ USIZE_MAX → flag.toNat % 2 ^ bits = 0 →
      integer bits (encodeInteger v bits flag.toNat ++ rest) = .ok (v, rest)) ∧
    (∀ input r, integer bits input = .ok r → denoted bits input = some r) ∧
    ∀ input v rest, denoted bits input = some (v, rest) → USIZE_MAX < v → ∃ e, integer bits input = .error e := by
  refine ⟨fun v flag rest hv hf => ?_, fun input r h => (integer_denoted h).1, fun input v rest hv hb => ?_⟩
  · have hi : flag.toNat + 2 ^ bits ≤ 256 := by
      have hl := flag.toNat_lt
      obtain rfl | rfl | rfl | rfl : bits = 4 ∨ bits = 5 ∨ bits = 6 ∨ bits = 7 := by omega
      all_goals omega
    exact integer_encodeInteger (Nat.mul_div_cancel' (Nat.dvd_of_mod_eq_zero hf)).symm hi hv
  · cases hn : integer bits input with
    | error e => exact ⟨e, rfl⟩
    | ok =>
      obtain ⟨hr, he⟩ := integer_denoted hn
      obtain rfl := Option.some.inj (hv.symm.trans hr)
      exact absurd hb (not_lt.mpr he)

theorem integer_exact_top :
    integer 5 (encodeInteger USIZE_MAX 5 0x20 ++ [7]) = .ok (USIZE_MAX, [7]) ∧ denoted 5 [0x3f, 1] = some (32, []) ∧
      ∃ e, integer 5 (0x3f :: (List.replicate 9 0xff ++ [2])) = .error e :=
  have h := @integer_exact 5 (by norm_num)
  ⟨h.1 USIZE_MAX 0x20 [7] le_rfl (by decide), h.2.1 [0x3f, 1] (32, []) rfl,
    h.2.2 _ _ [] (rfl : _ = some (2 ^ 64 + 2 ^ 63 + 30, [])) (by decide)⟩

end

section

variable {value : Bytes} {limit : ℕ}

lemma length_huffmanEncode (value : Bytes) : (huffmanEncode value).length =
    ((value.map fun b => (codeOf b).2).sum + 7) / 8 := by
  obtain ⟨k, _, hb⟩ := huffmanEncode_bits value
  have hc : (value.flatMap codeBits).length = (value.map fun b => (codeOf b).2).sum := by
    rw [length_flatMap]
    congr 1
    exact map_congr_left fun b _ => length_bits _ _
  have hl := congrArg length hb
  rw [length_flatMap_byteBits, length_append, hc, length_replicate] at hl
  omega

lemma string_raw (hl : value.length ≤ limit) (hm : value.length ≤ USIZE_MAX) :
    string limit (encodeInteger value.length 7 0 ++ (value ++ rest)) = .ok (value, rest) := by
  obtain ⟨u, hu, _, hc⟩ := encodeInteger_cons value.length 7 0
  have hr : ∀ u < 2 ^ 7, ¬ (UInt8.ofNat (0 ||| u)).toNat &&& 128 ≠ 0 := by decide +kernel
  have hi : integer 7 (encodeInteger value.length 7 0 ++ (value ++ rest)) = .ok (value.length, value ++ rest) :=
    integer_encodeInteger (a := 0) rfl (by norm_num) hm
  rw [hc, cons_append] at hi ⊢
  rw [string, hi]
  change (if value.length > (value ++ rest).length then throw bad else _) = _
  rw [if_neg (by rw [length_append]; omega), if_neg (hr u hu), if_neg (by omega), take_left, drop_left]
  rfl

lemma string_huffman (hl : value.length ≤ limit) (hm : (huffmanEncode value).length ≤ USIZE_MAX) :
    string limit (encodeInteger (huffmanEncode value).length 7 128 ++ (huffmanEncode value ++ rest)) =
      .ok (value, rest) := by
  obtain ⟨u, hu, _, hc⟩ := encodeInteger_cons (huffmanEncode value).length 7 128
  have hr : ∀ u < 2 ^ 7, (UInt8.ofNat (128 ||| u)).toNat &&& 128 ≠ 0 := by decide +kernel
  have hi : integer 7 (encodeInteger (huffmanEncode value).length 7 128 ++ (huffmanEncode value ++ rest)) =
      .ok ((huffmanEncode value).length, huffmanEncode value ++ rest) :=
        integer_encodeInteger (a := 1) rfl (by norm_num) hm
  rw [hc, cons_append] at hi ⊢
  rw [string, hi]
  change (if (huffmanEncode value).length > (huffmanEncode value ++ rest).length then throw bad else _) = _
  rw [if_neg (by rw [length_append]; omega), if_pos (hr u hu), take_left, drop_left, huffmanDecode_encode hl]
  rfl

lemma string_emitString (hl : value.length ≤ limit) (hm : value.length ≤ USIZE_MAX) :
    string limit (emitString value ++ rest) = .ok (value, rest) := by
  unfold emitString
  rw [← length_huffmanEncode]
  dsimp only
  split_ifs with hh
  · rw [append_assoc]
    exact string_huffman hl (by omega)
  · rw [append_assoc]
    exact string_raw hl hm

end

end Turnloop.Hpack
