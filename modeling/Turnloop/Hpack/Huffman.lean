import Turnloop.Http2.Headers
import Turnloop.Lib.Bits

/-! The Huffman code of header strings. -/

namespace Turnloop.Hpack

open Lib Http2 List

def CODES : List (ℕ × ℕ) :=
  [(0x1ff8, 13), (0x7fffd8, 23), (0xfffffe2, 28), (0xfffffe3, 28), (0xfffffe4, 28), (0xfffffe5, 28), (0xfffffe6, 28),
   (0xfffffe7, 28), (0xfffffe8, 28), (0xffffea, 24), (0x3ffffffc, 30), (0xfffffe9, 28), (0xfffffea, 28),
   (0x3ffffffd, 30), (0xfffffeb, 28), (0xfffffec, 28), (0xfffffed, 28), (0xfffffee, 28), (0xfffffef, 28),
   (0xffffff0, 28), (0xffffff1, 28), (0xffffff2, 28), (0x3ffffffe, 30), (0xffffff3, 28), (0xffffff4, 28),
   (0xffffff5, 28), (0xffffff6, 28), (0xffffff7, 28), (0xffffff8, 28), (0xffffff9, 28), (0xffffffa, 28),
   (0xffffffb, 28), (0x14, 6), (0x3f8, 10), (0x3f9, 10), (0xffa, 12), (0x1ff9, 13), (0x15, 6), (0xf8, 8), (0x7fa, 11),
   (0x3fa, 10), (0x3fb, 10), (0xf9, 8), (0x7fb, 11), (0xfa, 8), (0x16, 6), (0x17, 6), (0x18, 6), (0x0, 5), (0x1, 5),
   (0x2, 5), (0x19, 6), (0x1a, 6), (0x1b, 6), (0x1c, 6), (0x1d, 6), (0x1e, 6), (0x1f, 6), (0x5c, 7), (0xfb, 8),
   (0x7ffc, 15), (0x20, 6), (0xffb, 12), (0x3fc, 10), (0x1ffa, 13), (0x21, 6), (0x5d, 7), (0x5e, 7), (0x5f, 7),
   (0x60, 7), (0x61, 7), (0x62, 7), (0x63, 7), (0x64, 7), (0x65, 7), (0x66, 7), (0x67, 7), (0x68, 7), (0x69, 7),
   (0x6a, 7), (0x6b, 7), (0x6c, 7), (0x6d, 7), (0x6e, 7), (0x6f, 7), (0x70, 7), (0x71, 7), (0x72, 7), (0xfc, 8),
   (0x73, 7), (0xfd, 8), (0x1ffb, 13), (0x7fff0, 19), (0x1ffc, 13), (0x3ffc, 14), (0x22, 6), (0x7ffd, 15), (0x3, 5),
   (0x23, 6), (0x4, 5), (0x24, 6), (0x5, 5), (0x25, 6), (0x26, 6), (0x27, 6), (0x6, 5), (0x74, 7), (0x75, 7),
   (0x28, 6), (0x29, 6), (0x2a, 6), (0x7, 5), (0x2b, 6), (0x76, 7), (0x2c, 6), (0x8, 5), (0x9, 5), (0x2d, 6),
   (0x77, 7), (0x78, 7), (0x79, 7), (0x7a, 7), (0x7b, 7), (0x7ffe, 15), (0x7fc, 11), (0x3ffd, 14), (0x1ffd, 13),
   (0xffffffc, 28), (0xfffe6, 20), (0x3fffd2, 22), (0xfffe7, 20), (0xfffe8, 20), (0x3fffd3, 22), (0x3fffd4, 22),
   (0x3fffd5, 22), (0x7fffd9, 23), (0x3fffd6, 22), (0x7fffda, 23), (0x7fffdb, 23), (0x7fffdc, 23), (0x7fffdd, 23),
   (0x7fffde, 23), (0xffffeb, 24), (0x7fffdf, 23), (0xffffec, 24), (0xffffed, 24), (0x3fffd7, 22), (0x7fffe0, 23),
   (0xffffee, 24), (0x7fffe1, 23), (0x7fffe2, 23), (0x7fffe3, 23), (0x7fffe4, 23), (0x1fffdc, 21), (0x3fffd8, 22),
   (0x7fffe5, 23), (0x3fffd9, 22), (0x7fffe6, 23), (0x7fffe7, 23), (0xffffef, 24), (0x3fffda, 22), (0x1fffdd, 21),
   (0xfffe9, 20), (0x3fffdb, 22), (0x3fffdc, 22), (0x7fffe8, 23), (0x7fffe9, 23), (0x1fffde, 21), (0x7fffea, 23),
   (0x3fffdd, 22), (0x3fffde, 22), (0xfffff0, 24), (0x1fffdf, 21), (0x3fffdf, 22), (0x7fffeb, 23), (0x7fffec, 23),
   (0x1fffe0, 21), (0x1fffe1, 21), (0x3fffe0, 22), (0x1fffe2, 21), (0x7fffed, 23), (0x3fffe1, 22), (0x7fffee, 23),
   (0x7fffef, 23), (0xfffea, 20), (0x3fffe2, 22), (0x3fffe3, 22), (0x3fffe4, 22), (0x7ffff0, 23), (0x3fffe5, 22),
   (0x3fffe6, 22), (0x7ffff1, 23), (0x3ffffe0, 26), (0x3ffffe1, 26), (0xfffeb, 20), (0x7fff1, 19), (0x3fffe7, 22),
   (0x7ffff2, 23), (0x3fffe8, 22), (0x1ffffec, 25), (0x3ffffe2, 26), (0x3ffffe3, 26), (0x3ffffe4, 26), (0x7ffffde, 27),
   (0x7ffffdf, 27), (0x3ffffe5, 26), (0xfffff1, 24), (0x1ffffed, 25), (0x7fff2, 19), (0x1fffe3, 21), (0x3ffffe6, 26),
   (0x7ffffe0, 27), (0x7ffffe1, 27), (0x3ffffe7, 26), (0x7ffffe2, 27), (0xfffff2, 24), (0x1fffe4, 21), (0x1fffe5, 21),
   (0x3ffffe8, 26), (0x3ffffe9, 26), (0xffffffd, 28), (0x7ffffe3, 27), (0x7ffffe4, 27), (0x7ffffe5, 27), (0xfffec, 20),
   (0xfffff3, 24), (0xfffed, 20), (0x1fffe6, 21), (0x3fffe9, 22), (0x1fffe7, 21), (0x1fffe8, 21), (0x7ffff3, 23),
   (0x3fffea, 22), (0x3fffeb, 22), (0x1ffffee, 25), (0x1ffffef, 25), (0xfffff4, 24), (0xfffff5, 24), (0x3ffffea, 26),
   (0x7ffff4, 23), (0x3ffffeb, 26), (0x7ffffe6, 27), (0x3ffffec, 26), (0x3ffffed, 26), (0x7ffffe7, 27),
   (0x7ffffe8, 27), (0x7ffffe9, 27), (0x7ffffea, 27), (0x7ffffeb, 27), (0xffffffe, 28), (0x7ffffec, 27),
   (0x7ffffed, 27), (0x7ffffee, 27), (0x7ffffef, 27), (0x7fffff0, 27), (0x3ffffee, 26), (0x3fffffff, 30)]

def codeOf (b : UInt8) : ℕ × ℕ := CODES.getD b.toNat (0, 0)

def wholeBytes (acc : ℕ) : ℕ → ℕ → Bytes
  | 0, _ => []
  | q + 1, n => UInt8.ofNat (acc >>> (n - 8)) :: wholeBytes acc q (n - 8)

structure Packer where
  acc : ℕ
  bits : ℕ
  out : Bytes

def Packer.push (p : Packer) (b : UInt8) : Packer :=
  let acc := (p.acc <<< (codeOf b).2) % 2 ^ 64 ||| (codeOf b).1
  let n := p.bits + (codeOf b).2
  { acc := acc &&& (2 ^ (n % 8) - 1)
    bits := n % 8
    out := p.out ++ wholeBytes acc (n / 8) n }

def huffmanEncode (input : Bytes) : Bytes :=
  let p := input.foldl Packer.push ⟨0, 0, []⟩
  if p.bits > 0 then p.out ++ [UInt8.ofNat ((p.acc <<< (8 - p.bits)) ||| (2 ^ (8 - p.bits) - 1))] else p.out

def bad : Error := ⟨.COMPRESSION_ERROR, "invalid HPACK block"⟩

def trie : Trie ℕ := CODES.zipIdx.foldl (fun t e => t.insert e.2 (Lib.bits e.1.2 e.1.1)) .nil

structure Walk where
  node : Trie ℕ
  pending : ℕ
  ones : Bool
  out : Bytes

def Walk.bit (limit : ℕ) (w : Walk) (value : Bool) : Result Walk :=
  match w.node.child value with
  | .nil => .error bad
  | .node (some symbol) _ _ =>
    if symbol = 256 ∨ w.out.length ≥ limit then .error bad else .ok ⟨trie, 0, true, w.out ++ [UInt8.ofNat symbol]⟩
  | .node none zero one => .ok ⟨.node none zero one, w.pending + 1, w.ones && value, w.out⟩

def byteBits (b : UInt8) : List Bool := Lib.bits 8 b.toNat

def huffmanDecode (input : Bytes) (limit : ℕ) : Result Bytes := do
  let w ← (input.flatMap byteBits).foldlM (Walk.bit limit) ⟨trie, 0, true, []⟩
  if w.pending > 7 || !w.ones then throw bad else pure w.out

lemma length_CODES : CODES.length = 257 := by decide +kernel

lemma codes_fit : CODES.zipIdx.all (fun e => e.1.1 < 2 ^ e.1.2 ∧ 0 < e.1.2 ∧ e.1.2 ≤ 30) = true := by decide +kernel

set_option maxRecDepth 10000 in
lemma trie_spells_all : CODES.zipIdx.all (fun e => trie.spells (Lib.bits e.1.2 e.1.1) == some e.2) = true := by
  decide +kernel

lemma all_zipIdx {α : Type} {l : List α} {f : α × ℕ → Bool} (h : l.zipIdx.all f = true) (hs : s < l.length) (d : α) :
    f (l.getD s d, s) = true := by
  refine all_eq_true.mp h _ ?_
  rw [getD_eq_getElem _ _ hs, mk_mem_zipIdx_iff_getElem?, getElem?_eq_getElem hs]

lemma trie_spells (hs : s < 257) : trie.spells (Lib.bits (CODES.getD s (0, 0)).2 (CODES.getD s (0, 0)).1) = some s :=
  beq_iff_eq.mp (all_zipIdx trie_spells_all (hs.trans_eq length_CODES.symm) (0, 0))

def codeBits (b : UInt8) : List Bool := Lib.bits (codeOf b).2 (codeOf b).1

lemma spells_codeBits (b : UInt8) : trie.spells (codeBits b) = some b.toNat :=
  trie_spells (b.toNat_lt.trans (by norm_num))

lemma codeOf_fits (b : UInt8) : (codeOf b).1 < 2 ^ (codeOf b).2 ∧ 0 < (codeOf b).2 ∧ (codeOf b).2 ≤ 30 := by
  have hl : b.toNat < CODES.length := (b.toNat_lt.trans (by norm_num)).trans_eq length_CODES.symm
  exact of_decide_eq_true (all_zipIdx codes_fit hl (0, 0))

section

lemma length_flatMap_byteBits (l : Bytes) : (l.flatMap byteBits).length = 8 * l.length := by
  induction l with
  | nil => rfl
  | cons b l ih => rw [flatMap_cons, length_append, ih, byteBits, length_bits, length_cons, Nat.mul_succ, Nat.add_comm]

lemma byteBits_ofNat (n : ℕ) : byteBits (UInt8.ofNat n) = Lib.bits 8 n := by
  rw [byteBits, UInt8.toNat_ofNat', show (2 ^ 8 : ℕ) = 2 ^ 8 from rfl]
  exact bits_mod (Nat.le_refl 8)

lemma wholeBytes_bits (acc q r : ℕ) : (wholeBytes acc q (8 * q + r)).flatMap byteBits =
    Lib.bits (8 * q) (acc / 2 ^ r) := by
  induction q with
  | zero => rfl
  | succ q ih =>
    have hn : 8 * (q + 1) + r - 8 = 8 * q + r := by omega
    rw [wholeBytes, hn, flatMap_cons, ih, byteBits_ofNat, Nat.shiftRight_eq_div_pow, Nat.mul_succ,
      Nat.add_comm (8 * q) 8, bits_add,
      Nat.div_div_eq_div_mul, ← pow_add, Nat.add_comm r]

def Packer.packed (p : Packer) : List Bool := p.out.flatMap byteBits ++ Lib.bits p.bits p.acc

structure Packer.Tight (p : Packer) : Prop where
  bits : p.bits < 8
  acc : p.acc < 2 ^ p.bits

lemma Packer.push_tight (p : Packer) (b : UInt8) : (p.push b).Tight := by
  refine ⟨Nat.mod_lt _ (by norm_num), ?_⟩
  rw [Packer.push, Nat.and_two_pow_sub_one_eq_mod]
  exact Nat.mod_lt _ (Nat.two_pow_pos _)

lemma Packer.Tight.shift_lt {p : Packer} (h : p.Tight) (b : UInt8) : p.acc <<< (codeOf b).2 < 2 ^ 64 := by
  rw [Nat.shiftLeft_eq]
  calc p.acc * 2 ^ (codeOf b).2 < 2 ^ p.bits * 2 ^ (codeOf b).2 := Nat.mul_lt_mul_of_pos_right h.acc (Nat.two_pow_pos _)
    _ = 2 ^ (p.bits + (codeOf b).2) := (pow_add 2 _ _).symm
    _ ≤ 2 ^ 64 := Nat.pow_le_pow_right (by norm_num) (by have := h.bits; have := (codeOf_fits b).2.2; omega)

lemma Packer.push_packed {p : Packer} (h : p.Tight) (b : UInt8) : (p.push b).packed = p.packed ++ codeBits b := by
  have ha : (p.acc <<< (codeOf b).2) % 2 ^ 64 ||| (codeOf b).1 = p.acc * 2 ^ (codeOf b).2 + (codeOf b).1 := by
    rw [Nat.mod_eq_of_lt (h.shift_lt b), Nat.shiftLeft_eq, Nat.mul_comm, Nat.two_pow_add_eq_or_of_lt (codeOf_fits b).1]
  set n := p.bits + (codeOf b).2 with hn
  have hw : Lib.bits n (p.acc * 2 ^ (codeOf b).2 + (codeOf b).1) = Lib.bits p.bits p.acc ++ codeBits b :=
    bits_append (codeOf_fits b).1
  have hp : n = 8 * (n / 8) + n % 8 := (Nat.div_add_mod n 8).symm
  rw [Packer.packed, Packer.push, ha, ← hn, Nat.and_two_pow_sub_one_eq_mod]
  rw [bits_mod (Nat.le_refl _), flatMap_append, append_assoc, Packer.packed, append_assoc, ← hw]
  congr 1
  conv_lhs => rw [show wholeBytes (p.acc * 2 ^ (codeOf b).2 + (codeOf b).1) (n / 8) n =
    wholeBytes (p.acc * 2 ^ (codeOf b).2 + (codeOf b).1) (n / 8) (8 * (n / 8) + n % 8) by rw [← hp]]
  rw [wholeBytes_bits, ← bits_add, ← hp]

lemma push_all (input : Bytes) (p : Packer) (hp : p.Tight) :
    (input.foldl Packer.push p).packed = p.packed ++ input.flatMap codeBits ∧ (input.foldl Packer.push p).Tight := by
  induction input generalizing p with
  | nil => exact ⟨(append_nil _).symm, hp⟩
  | cons b input ih =>
    obtain ⟨ha, hi⟩ := ih (p.push b) (p.push_tight b)
    refine ⟨?_, hi⟩
    rw [foldl_cons, ha, Packer.push_packed hp, flatMap_cons, append_assoc]

lemma huffmanEncode_bits (input : Bytes) :
    ∃ k < 8, (huffmanEncode input).flatMap byteBits = input.flatMap codeBits ++ List.replicate k true := by
  obtain ⟨ha, _, _⟩ := push_all input ⟨0, 0, []⟩ ⟨by norm_num, by norm_num⟩
  unfold huffmanEncode
  dsimp only
  set p := input.foldl Packer.push ⟨0, 0, []⟩ with hp
  have hs : p.packed = input.flatMap codeBits := ha
  split_ifs with ho
  · refine ⟨8 - p.bits, by omega, ?_⟩
    have hw : (p.acc <<< (8 - p.bits)) ||| (2 ^ (8 - p.bits) - 1) =
      p.acc * 2 ^ (8 - p.bits) + (2 ^ (8 - p.bits) - 1) := by
      rw [Nat.shiftLeft_eq, Nat.mul_comm, Nat.two_pow_add_eq_or_of_lt (Nat.sub_lt (Nat.two_pow_pos _) (by norm_num))]
    have he : Lib.bits 8 (p.acc * 2 ^ (8 - p.bits) + (2 ^ (8 - p.bits) - 1)) =
        Lib.bits p.bits p.acc ++ Lib.bits (8 - p.bits) (2 ^ (8 - p.bits) - 1) := by
      have hq : 8 = p.bits + (8 - p.bits) := by omega
      conv_lhs => rw [show Lib.bits 8 = Lib.bits (p.bits + (8 - p.bits)) by rw [← hq]]
      exact bits_append (Nat.sub_lt (Nat.two_pow_pos _) (by norm_num))
    rw [flatMap_append, flatMap_singleton, byteBits_ofNat, hw, he, bits_ones, ← append_assoc, ← hs]
    rfl
  · refine ⟨0, by norm_num, ?_⟩
    have hz : p.bits = 0 := by omega
    rw [replicate_zero, append_nil, ← hs, Packer.packed, hz]
    exact (append_nil _).symm

end

section

variable {limit : ℕ}

lemma walk_code (hn : bs ≠ []) (hc : t.spells bs = some b.toNat) (ho : out.length < limit) :
    (bs ++ rest).foldlM (Walk.bit limit) ⟨t, k, o, out⟩ = rest.foldlM (Walk.bit limit) ⟨trie, 0, true, out ++ [b]⟩ := by
  induction bs generalizing t k o with
  | nil => exact (hn rfl).elim
  | cons bit bs ih =>
    obtain ⟨zero, one, -, hh⟩ := Trie.spells_cons hc
    rw [cons_append, foldlM_cons]
    cases bs with
    | nil =>
      obtain ⟨zero, one, hl⟩ := Trie.spells_nil hh
      have hy : ¬ (b.toNat = 256 ∨ out.length ≥ limit) := by
        have := b.toNat_lt
        omega
      have hb : Walk.bit limit ⟨t, k, o, out⟩ bit = .ok ⟨trie, 0, true, out ++ [b]⟩ := by
        rw [Walk.bit, hl]
        dsimp only
        rw [if_neg hy, UInt8.ofNat_toNat]
      rw [hb]
      rfl
    | cons =>
      obtain ⟨_, _, hd, -⟩ := Trie.spells_cons hh
      have hb : Walk.bit limit ⟨t, k, o, out⟩ bit = .ok ⟨t.child bit, k + 1, o && bit, out⟩ := by
        rw [Walk.bit, hd]
      rw [hb]
      exact ih (cons_ne_nil _ _) hh

lemma walk_ones (hc : t.spells (List.replicate m true) = some s) (hk : k < m) :
    ∃ t', (List.replicate k true).foldlM (Walk.bit limit) ⟨t, p, true, out⟩ = .ok ⟨t', p + k, true, out⟩ := by
  induction k generalizing t m p with
  | zero => exact ⟨t, rfl⟩
  | succ k ih =>
    obtain ⟨m, rfl⟩ : ∃ m', m = m' + 2 := ⟨m - 2, by omega⟩
    rw [replicate_succ] at hc
    obtain ⟨-, -, -, hh⟩ := Trie.spells_cons hc
    obtain ⟨zero, _, hn, -⟩ := Trie.spells_cons (replicate_succ ▸ hh)
    have hb : Walk.bit limit ⟨t, p, true, out⟩ true = .ok ⟨t.child true, p + 1, true, out⟩ := by
      rw [Walk.bit, hn, Bool.true_and]
    obtain ⟨t', ht'⟩ := ih (t := t.child true) (m := m + 1) (p := p + 1) hh (by omega)
    refine ⟨t', ?_⟩
    rw [replicate_succ, foldlM_cons, hb]
    exact ht'.trans (by rw [Nat.add_right_comm]; rfl)

lemma codeBits_ne_nil (b : UInt8) : codeBits b ≠ [] := by
  intro h
  have hl : (codeBits b).length = (codeOf b).2 := length_bits _ _
  rw [h] at hl
  exact absurd hl (codeOf_fits b).2.1.ne

lemma walk_codes {rest : List Bool} (h : out.length + input.length ≤ limit) :
    (input.flatMap codeBits ++ rest).foldlM (Walk.bit limit) ⟨trie, 0, true, out⟩ =
      rest.foldlM (Walk.bit limit) ⟨trie, 0, true, out ++ input⟩ := by
  induction input generalizing out with
  | nil => rw [append_nil]; rfl
  | cons b input ih =>
    rw [length_cons] at h
    rw [flatMap_cons, append_assoc, walk_code (codeBits_ne_nil b) (spells_codeBits b) (by omega), ih, append_assoc]
    · rfl
    · rw [length_append, length_singleton]
      omega

lemma huffmanDecode_encode (h : input.length ≤ limit) : huffmanDecode (huffmanEncode input) limit = .ok input := by
  obtain ⟨k, _, hb⟩ := huffmanEncode_bits input
  have he : trie.spells (List.replicate 30 true) = some 256 := by
    have hc : CODES.getD 256 (0, 0) = (2 ^ 30 - 1, 30) := rfl
    rw [← bits_ones, ← trie_spells (show 256 < 257 by norm_num), hc]
  obtain ⟨t', ho⟩ : ∃ t', (List.replicate k true).foldlM (Walk.bit limit) ⟨trie, 0, true, input⟩ =
    .ok ⟨t', 0 + k, true, input⟩ :=
    walk_ones he (by omega)
  unfold huffmanDecode
  rw [hb, walk_codes (by simpa using h), List.nil_append, ho]
  change (if decide (0 + k > 7) || !true then throw bad else pure input : Result Bytes) = _
  rw [if_neg (by simp; omega)]
  rfl

lemma trie_spells_only (h : trie.spells q = some x) : q = Lib.bits (CODES.getD x (0, 0)).2 (CODES.getD x (0, 0)).1 := by
  have hf : ∀ (l : List ((ℕ × ℕ) × ℕ)) (t : Trie ℕ),
    (l.foldl (fun t e => t.insert e.2 (Lib.bits e.1.2 e.1.1)) t).spells q = some x →
      (∃ e ∈ l, q = Lib.bits e.1.2 e.1.1 ∧ x = e.2) ∨ t.spells q = some x := by
    intro l
    induction l with
    | nil => exact fun t => .inr
    | cons e l ih =>
      intro t ht
      rcases ih _ ht with ⟨e', he', hq⟩ | ht
      · exact .inl ⟨e', mem_cons_of_mem _ he', hq⟩
      · exact (Trie.spells_insert ht).imp_left fun hq => ⟨e, List.mem_cons_self, hq⟩
  rcases hf _ _ h with ⟨e, he, hq, rfl⟩ | hn
  · rw [getD_eq_getElem?_getD, mk_mem_zipIdx_iff_getElem?.mp he]
    exact hq
  · cases q <;> cases hn

/-- The bits `bs` were read: those of the symbols put out, and those that lead to the node reached. -/
def Walk.Read (bs : List Bool) (w : Walk) : Prop :=
  ∃ path, bs = w.out.flatMap codeBits ++ path ∧ path.length = w.pending ∧ (w.ones = true → ∀ b ∈ path, b = true) ∧
    (∃ zero one, w.node = .node none zero one) ∧ ∀ q x, w.node.spells q = some x → trie.spells (path ++ q) = some x

lemma trie_root : ∃ zero one, trie = .node none zero one := by
  obtain ⟨b, _, hc⟩ := exists_cons_of_ne_nil (codeBits_ne_nil 0)
  obtain ⟨zero, one, hr, -⟩ := Trie.spells_cons (hc ▸ spells_codeBits 0)
  exact ⟨zero, one, hr⟩

lemma Walk.read_root (out : Bytes) : Walk.Read (out.flatMap codeBits) ⟨trie, 0, true, out⟩ := by
  rw [Walk.Read]
  dsimp only
  refine ⟨[], (append_nil _).symm, length_nil, fun _ b hb => absurd hb not_mem_nil, trie_root, fun q x hq => ?_⟩
  rw [nil_append]
  exact hq

lemma walk_read (h : w.Read bs) (hi : Walk.bit limit w b = .ok w') : w'.Read (bs ++ [b]) := by
  obtain ⟨path, rfl, hl, ho, ⟨_, _, hn⟩, hp⟩ := h
  have he : ∀ q x, (w.node.child b).spells q = some x → trie.spells (path ++ b :: q) = some x := by
    intro q x hq
    apply hp
    rw [hn] at hq ⊢
    cases b <;> exact hq
  rw [Walk.bit] at hi
  cases hh : w.node.child b with
  | nil =>
    rw [hh] at hi
    cases hi
  | node sy zero' one' =>
    rw [hh] at hi he
    cases sy with
    | some sy =>
      dsimp only at hi
      split_ifs at hi with hd
      obtain rfl := Except.ok.inj hi
      have hs := he [] sy rfl
      have hf : path ++ [b] = codeBits (UInt8.ofNat sy) := by
        have ht : sy < 256 := by
          by_contra hge
          have hg : CODES.getD sy (0, 0) = (0, 0) := by
            apply getD_eq_default
            rw [length_CODES]
            omega
          have hm := trie_spells_only hs
          rw [hg] at hm
          exact append_ne_nil_of_right_ne_nil path (cons_ne_nil b []) hm
        rw [trie_spells_only hs, codeBits, codeOf, UInt8.toNat_ofNat', Nat.mod_eq_of_lt ht]
      have hr := Walk.read_root (w.out ++ [UInt8.ofNat sy])
      rw [flatMap_append, flatMap_singleton, ← hf, ← append_assoc] at hr
      exact hr
    | none =>
      cases hi
      refine ⟨path ++ [b], (append_assoc _ _ _),
        by rw [length_append, hl, length_singleton], ?_, ⟨zero', one', rfl⟩, ?_⟩
      · intro ha c hc
        obtain ⟨hk, hb⟩ := Bool.and_eq_true_iff.mp ha
        rcases mem_append.mp hc with hc | hc
        · exact ho hk c hc
        · rw [mem_singleton.mp hc, hb]
      · intro q x hq
        rw [append_assoc]
        exact he q x hq

lemma walk_reads {w' : Walk} (h : w.Read bs) (hr : cs.foldlM (Walk.bit limit) w = .ok w') : w'.Read (bs ++ cs) := by
  induction cs generalizing bs w with
  | nil =>
    cases hr
    rwa [append_nil]
  | cons c cs ih =>
    rw [foldlM_cons] at hr
    cases hb : Walk.bit limit w c with
    | error =>
      rw [hb] at hr
      cases hr
    | ok =>
      rw [hb] at hr
      simpa using ih (walk_read h hb) hr

lemma huffmanDecode_bits (h : huffmanDecode y limit = .ok x) :
    ∃ k < 8, y.flatMap byteBits = x.flatMap codeBits ++ List.replicate k true := by
  rw [huffmanDecode] at h
  cases hr : (y.flatMap byteBits).foldlM (Walk.bit limit) ⟨trie, 0, true, []⟩ with
  | error =>
    rw [hr] at h
    cases h
  | ok w =>
    rw [hr] at h
    change (if decide (w.pending > 7) || !w.ones then throw bad else pure w.out : Result Bytes) = _ at h
    split_ifs at h with hp
    cases h
    simp only [gt_iff_lt, Bool.or_eq_true, decide_eq_true_eq, Bool.not_eq_true', not_or, not_lt,
      Bool.not_eq_false] at hp
    obtain ⟨_, hb, hl, ho, -, -⟩ := walk_reads (Walk.read_root []) hr
    refine ⟨w.pending, by omega, ?_⟩
    rw [← hl, ← List.eq_replicate_of_mem (ho hp.2)]
    exact hb

lemma flatMap_byteBits_inj {y z : Bytes} (h : y.flatMap byteBits = z.flatMap byteBits) : y = z := by
  induction y generalizing z with
  | nil =>
    cases z with
    | nil => rfl
    | cons => cases h
  | cons b y ih =>
    cases z with
    | nil => cases h
    | cons c =>
      rw [flatMap_cons, flatMap_cons] at h
      obtain ⟨hb, hr⟩ := append_inj h (by rw [byteBits, byteBits, length_bits, length_bits])
      rw [UInt8.toNat_inj.mp (bits_inj b.toNat_lt c.toNat_lt hb), ih hr]

theorem huffman_bijective (x y : Bytes) (limit : ℕ) :
    (x.length ≤ limit → huffmanDecode (huffmanEncode x) limit = .ok x) ∧
    (huffmanDecode y limit = .ok x → huffmanEncode x = y) ∧
    ∀ b, (x.foldl Packer.push ⟨0, 0, []⟩).acc <<< (codeOf b).2 < 2 ^ 64 := by
  refine ⟨huffmanDecode_encode, fun h => flatMap_byteBits_inj ?_, ?_⟩
  · obtain ⟨k, _, hb⟩ := huffmanDecode_bits h
    obtain ⟨k', _, hb'⟩ := huffmanEncode_bits x
    have hl := congrArg length hb
    have hl' := congrArg length hb'
    rw [length_flatMap_byteBits, length_append, length_replicate] at hl hl'
    obtain rfl : k = k' := by omega
    rw [hb, hb']
  · exact (push_all x ⟨0, 0, []⟩ ⟨by norm_num, by norm_num⟩).2.shift_lt

theorem huffman_bijective_one :
    huffmanDecode (huffmanEncode [0x61]) 1 = .ok [0x61] ∧ huffmanEncode [0x61] = [0x1f] :=
  ⟨(huffman_bijective [0x61] [0x1f] 1).1 (by decide), (huffman_bijective [0x61] [0x1f] 1).2.1 (by decide +kernel)⟩

end

end Turnloop.Hpack
