import Mathlib.Tactic.IntervalCases
import Mathlib.Tactic.Linarith
import Mathlib.Tactic.NormNum
import Mathlib.Tactic.Ring
import Turnloop.Http1.Encoder
import Turnloop.Http1.Steps

/-! The text that the encoder writes: its lines are whole, and its numbers are read back. -/

namespace Turnloop.Http1

open Http2 (Header validToken isAsciiDigit decimal isBlank)
open Hpack (nameBytes)
open Lib
open List hiding prev

variable {name : String} {b : UInt8}

lemma nameBytes_eq (s : String) : nameBytes s = s.toList.flatMap String.utf8EncodeChar := by
  have hb : s.toUTF8 = s.toList.utf8Encode := by rw [String.toUTF8_eq_toByteArray, String.utf8Encode_toList]
  rw [nameBytes, hb]
  simp [utf8Encode]

def isTchar (b : UInt8) : Bool := 33 ≤ b && b ≤ 126 && b != 58

lemma tchar_char (h : (c.isAlphanum || "!#$%&'*+-.^_`|~".toList.contains c) = true) :
    33 ≤ c.toNat ∧ c.toNat ≤ 126 ∧ c.toNat ≠ 58 := by
  rcases Bool.or_eq_true _ _ |>.mp h with ha | hm
  · change (decide (c.val ≥ 'A'.val ∧ c.val ≤ 'Z'.val) || c.val ≥ 'a'.val && c.val ≤ 'z'.val ||
      c.val ≥ '0'.val && c.val ≤ '9'.val) = true at ha
    simp only [Bool.or_eq_true, Bool.and_eq_true, decide_eq_true_eq, ge_iff_le, UInt32.le_iff_toNat_le] at ha
    change ((65 ≤ c.toNat ∧ c.toNat ≤ 90) ∨ (97 ≤ c.toNat ∧ c.toNat ≤ 122)) ∨ (48 ≤ c.toNat ∧ c.toNat ≤ 57) at ha
    omega
  · have he : c ∈ "!#$%&'*+-.^_`|~".toList := contains_iff_mem.mp hm
    have hl : "!#$%&'*+-.^_`|~".toList.all
        (fun c => decide (33 ≤ c.toNat ∧ c.toNat ≤ 126 ∧ c.toNat ≠ 58)) = true := by decide
    exact of_decide_eq_true (all_eq_true.mp hl c he)

lemma token_bytes (h : validToken name = true) : ∀ b ∈ nameBytes name, isTchar b = true := by
  intro b hb
  rw [nameBytes_eq] at hb
  obtain ⟨c, hc, hb⟩ := mem_flatMap.mp hb
  have hh := tchar_char (all_eq_true.mp (Bool.and_eq_true _ _ |>.mp h).2 c hc)
  have hv : c.val.toNat = c.toNat := rfl
  rw [String.utf8EncodeChar, if_pos (by omega), mem_singleton] at hb
  rw [hb, hv]
  simp only [isTchar, Bool.and_eq_true, decide_eq_true_eq, bne_iff_ne, ne_eq, UInt8.le_iff_toNat_le,
    ← UInt8.toNat_inj, UInt8.toNat_ofNat']
  have hm : c.toNat % 2 ^ 8 = c.toNat := Nat.mod_eq_of_lt (by omega)
  rw [hm]
  exact ⟨⟨hh.1, hh.2.1⟩, hh.2.2⟩

lemma nameBytes_ne_nil (h : name ≠ "") : nameBytes name ≠ [] := by
  intro hn
  have he := Hpack.fromUtf8_nameBytes ""
  have ha := Hpack.fromUtf8_nameBytes name
  rw [hn, show ([] : Bytes) = nameBytes "" from rfl, he] at ha
  exact h (Option.some.inj ha).symm

structure Line (l : Bytes) : Prop where
  cr : CR ∉ l
  lf : LF ∉ l
  ne_nil : l ≠ []

namespace Line

variable {l : Bytes}

lemma of_all (ok : UInt8 → Bool) (hc : ok CR = false) (hf : ok LF = false) (h : ∀ b ∈ l, ok b = true)
    (hl : l ≠ []) : Line l :=
  ⟨fun hm => by simp [h CR hm] at hc, fun hm => by simp [h LF hm] at hf, hl⟩

end Line

lemma isText_of_tchar (h : isTchar b = true) : isText b = true := by
  simp only [isTchar, isText, Bool.and_eq_true, decide_eq_true_eq, bne_iff_ne, ne_eq, Bool.not_eq_true',
    Bool.or_eq_false_iff,
    Bool.and_eq_false_iff, decide_eq_false_iff_not, beq_eq_false_iff_ne, UInt8.le_iff_toNat_le, UInt8.lt_iff_toNat_lt,
    ← UInt8.toNat_inj] at h ⊢
  obtain ⟨⟨_, _⟩, -⟩ := h
  simp only [UInt8.reduceToNat] at *
  omega

lemma isText_of_visible (h : isVisible b = true) : isText b = true := by
  simp only [isVisible, isText, Bool.not_eq_true', Bool.or_eq_false_iff, Bool.and_eq_false_iff,
    decide_eq_false_iff_not, beq_eq_false_iff_ne, UInt8.le_iff_toNat_le, UInt8.lt_iff_toNat_lt, ne_eq,
      ← UInt8.toNat_inj] at h ⊢
  simp only [UInt8.reduceToNat] at *
  omega

lemma validateField_ok (ho : validateField h = .ok ()) : validToken h.name = true ∧ ∀ b ∈ h.value, isText b = true := by
  unfold validateField at ho
  split_ifs at ho with hb
  simp only [Bool.or_eq_true, Bool.not_eq_true', not_or, Bool.not_eq_false, all_eq_true] at hb
  exact hb

lemma validToken_ne (h : validToken name = true) : name ≠ "" := by
  rintro rfl
  cases h

lemma fieldLine_line (ho : validateField h = .ok ()) : Line (fieldLine h) := by
  obtain ⟨hn, hv⟩ := validateField_ok ho
  refine .of_all isText rfl rfl
    (forall_mem_append.mpr ⟨forall_mem_append.mpr ⟨fun b hb => ?_, by decide +kernel⟩, hv⟩) ?_
  · exact isText_of_tchar (token_bytes hn b hb)
  · simp [fieldLine, nameBytes_ne_nil (validToken_ne hn)]

lemma requestLine_line (hm : validToken method = true) (ha : (nameBytes target).all isVisible = true) :
    Line (requestLine method target) := by
  refine .of_all isText rfl rfl
    (forall_mem_append.mpr ⟨forall_mem_append.mpr ⟨forall_mem_append.mpr ⟨fun b hb => ?_, by decide +kernel⟩,
    fun b hb => ?_⟩, by decide +kernel⟩) ?_
  · exact isText_of_tchar (token_bytes hm b hb)
  · exact isText_of_visible (all_eq_true.mp ha b hb)
  · simp [requestLine, nameBytes_ne_nil (validToken_ne hm)]

section

variable {base n : ℕ} {d : ℕ}

lemma digitByte_tchar (h : d < 16) : isTchar (digitByte d) = true := by
  interval_cases d <;> decide

lemma hexDigit_digitByte (h : d < 16) : hexDigit (digitByte d) = some d := by
  interval_cases d <;> decide

lemma isAsciiDigit_digitByte (h : d < 10) : isAsciiDigit (digitByte d) = true ∧ (digitByte d).toNat - 48 = d := by
  interval_cases d <;> decide

lemma written_ne_nil (n : ℕ) : written base n ≠ [] := fun h => numeral_ne_nil base n (map_eq_nil_iff.mp h)

lemma mem_written (hb : 1 < base) (h : b ∈ written base n) : ∃ d < base, b = digitByte d := by
  obtain ⟨d, hd, rfl⟩ := mem_map.mp h
  exact ⟨d, numeral_lt hb hd, rfl⟩

lemma foldlM_written (hb : 1 < base) (hf : ∀ v d, d < base →
    f v (digitByte d) = if v * base + d < 2 ^ 64 then some (v * base + d) else none)
    (hn : n < 2 ^ 64) : (written base n).foldlM f 0 = some n := by
  have hm : ∀ (ds : List ℕ) v, v ≤ ds.foldl (fun v d => v * base + d) v := by
    intro ds
    induction ds with
    | nil => exact fun v => le_rfl
    | cons d ds ih => exact fun v => le_trans (by nlinarith [Nat.le_mul_of_pos_right v (by omega : 0 < base)]) (ih _)
  have ha : ∀ (ds : List ℕ) v, (∀ d ∈ ds, d < base) → ds.foldl (fun v d => v * base + d) v < 2 ^ 64 →
      (ds.map digitByte).foldlM f v = some (ds.foldl (fun v d => v * base + d) v) := by
    intro ds
    induction ds with
    | nil => exact fun v _ _ => rfl
    | cons d ds ih =>
      intro v hs hv
      have hi : v * base + d < 2 ^ 64 := lt_of_le_of_lt (hm ds _) hv
      rw [map_cons, foldlM_cons, hf v d (hs d (mem_cons_self ..)), if_pos hi]
      exact ih _ (fun d hd => hs d (mem_cons_of_mem _ hd)) hv
  have hc : (numeral base n).foldl (fun v d => v * base + d) 0 = n := numeralValue_numeral base n
  rw [written, ha _ 0 (fun d hd => numeral_lt hb hd) (by rwa [hc]), hc]

lemma decimal_written (hn : n < 2 ^ 64) : decimal (written 10 n) = some n := by
  refine foldlM_written (by norm_num) (fun v d hd => ?_) hn
  simp only [(isAsciiDigit_digitByte hd).2]

lemma hexadecimal_written (hn : n < 2 ^ 64) : hexadecimal (written 16 n) = some n := by
  refine foldlM_written (by norm_num) (fun v d hd => ?_) hn
  rw [hexDigit_digitByte hd]
  rfl

lemma written_tchar (ha : 1 < base) (hl : base ≤ 16) : ∀ b ∈ written base n, isTchar b = true := by
  intro b hb
  obtain ⟨d, _, rfl⟩ := mem_written ha hb
  exact digitByte_tchar (by omega)

end

lemma statusLine_line (status : ℕ) (hr : (nameBytes reason).all isText = true) : Line (statusLine status reason) := by
  refine .of_all isText rfl rfl
    (forall_mem_append.mpr ⟨forall_mem_append.mpr ⟨forall_mem_append.mpr ⟨by decide +kernel, fun b hb => ?_⟩,
    by decide +kernel⟩, all_eq_true.mp hr⟩) ?_
  · exact isText_of_tchar (written_tchar (by norm_num) (by norm_num) b hb)
  · simp [statusLine, written_ne_nil]

section

variable {lines : List Bytes} {l rest : Bytes} {max : ℕ}

lemma linesText_cons (l : Bytes) (lines : List Bytes) : linesText (l :: lines) = l ++ CRLF ++ linesText lines := rfl

lemma boundary_lines (hi : ∀ l ∈ lines, Line l) (he : lines ≠ []) (rest : Bytes) :
    boundary (linesText lines ++ CRLF ++ rest) = some ((linesText lines).length + 2) := by
  have hp : ∃ n, (linesText lines).length = n + 2 ∧
    position (CRLF ++ CRLF) (linesText lines ++ CRLF ++ rest) = some n := by
    induction lines with
    | nil => exact absurd rfl he
    | cons l lines ih =>
      have hl := hi l (mem_cons_self ..)
      have hk := position_skip hl.cr (LF :: CRLF) (CRLF ++ (linesText lines ++ CRLF ++ rest))
      cases lines with
      | nil =>
        refine ⟨l.length, by simp [linesText, CRLF], ?_⟩
        have hh : position (CR :: LF :: CRLF) (CRLF ++ (linesText [] ++ CRLF ++ rest)) = some 0 :=
          position_here (CRLF ++ CRLF) rest (by simp [CRLF])
        rw [hh, Option.map_some, Nat.zero_add] at hk
        rw [linesText_cons]
        simpa [append_assoc, CRLF] using hk
      | cons l' lines =>
        obtain ⟨n, hn, hp⟩ := ih (fun l hl => hi l (mem_cons_of_mem _ hl)) (cons_ne_nil _ _)
        have hl' := hi l' (by simp)
        have hx : position (CR :: LF :: CRLF) (CRLF ++ (linesText (l' :: lines) ++ CRLF ++ rest)) = some (n + 2) := by
          -- no empty line stands here, for the next line begins with a byte of its own
          have hf : ¬ CR :: LF :: CRLF <+: CR :: LF :: (linesText (l' :: lines) ++ CRLF ++ rest) := by
            obtain ⟨b, l'', rfl⟩ := exists_cons_of_ne_nil hl'.ne_nil
            rintro ⟨z, hz⟩
            have hb : CR = b := (cons.inj (cons.inj (cons.inj hz).2).2).1
            exact hl'.cr (by simp [hb])
          have hs : ¬ CR :: LF :: CRLF <+: LF :: (linesText (l' :: lines) ++ CRLF ++ rest) := by
            rintro ⟨z, hz⟩
            exact absurd (cons.inj hz).1 (by decide)
          have ho : position (CR :: LF :: CRLF) (linesText (l' :: lines) ++ CRLF ++ rest) = some n := hp
          rw [show CRLF ++ (linesText (l' :: lines) ++ CRLF ++ rest) =
            CR :: LF :: (linesText (l' :: lines) ++ CRLF ++ rest) from rfl,
            position, if_neg hf, position, if_neg hs, ho]
          rfl
        refine ⟨l.length + 2 + n, ?_, ?_⟩
        · rw [linesText_cons, length_append, length_append, hn]
          rfl
        · rw [hx, Option.map_some] at hk
          rw [linesText_cons]
          simp only [append_assoc] at hk ⊢
          rw [show l.length + 2 + n = n + 2 + l.length by omega]
          exact hk
  obtain ⟨n, hn, hp⟩ := hp
  rw [boundary, hp, hn, Option.map_some]

lemma linesFrom_line (hc : CR ∉ l) (hl : LF ∉ l) (hm : len + l.length + 1 ≤ max)
    (rest : Bytes) : linesFrom max prev len (l ++ CRLF ++ rest) = linesFrom max (some LF) 0 rest := by
  induction l generalizing prev len with
  | nil =>
    simp only [length_nil, Nat.add_zero] at hm
    rw [show [] ++ CRLF ++ rest = CR :: LF :: rest from rfl, linesFrom, if_neg (by decide), if_neg (by simp), linesFrom,
      if_pos rfl, if_neg (by simp), if_neg (by omega)]
  | cons b l ih =>
    have hb : b ≠ CR ∧ b ≠ LF := ⟨fun h => hc (by simp [h]), fun h => hl (by simp [h])⟩
    simp only [length_cons] at hm
    rw [cons_append, cons_append, linesFrom, if_neg hb.2, if_neg fun h => hb.1 h.1]
    exact ih (fun h => hc (mem_cons_of_mem b h)) (fun h => hl (mem_cons_of_mem b h)) (by omega)

lemma linesValid_lines (hi : ∀ l ∈ lines, Line l) (hm : ∀ l ∈ lines, l.length + 1 ≤ max) (hp : 1 ≤ max) :
    linesValid (linesText lines ++ CRLF) max = .ok () := by
  have ha : ∀ prev, linesFrom max prev 0 (linesText lines ++ CRLF) = .ok () := by
    induction lines with
    | nil =>
      intro prev
      have hn : linesFrom max prev 0 ([] ++ CRLF ++ []) = linesFrom max (some LF) 0 [] :=
        linesFrom_line (by simp) (by simp) (by simpa using hp) []
      rw [show linesText [] ++ CRLF = [] ++ CRLF ++ [] from rfl, hn, linesFrom, if_neg (by omega)]
    | cons l lines ih =>
      intro prev
      have hl := hi l (mem_cons_self ..)
      have he := hm l (mem_cons_self ..)
      rw [linesText_cons, append_assoc, linesFrom_line hl.cr hl.lf (by omega)]
      exact ih (fun l hl => hi l (mem_cons_of_mem _ hl)) (fun l hl => hm l (mem_cons_of_mem _ hl)) _
  exact ha none

lemma block_lines (hi : ∀ l ∈ lines, Line l) (hn : lines ≠ [])
    (hb : (linesText lines ++ CRLF).length ≤ limits.headBytes)
    (hc : (linesText lines ++ CRLF).length ≤ limits.lineBytes) (rest : Bytes) :
    block limits overflow (linesText lines ++ CRLF ++ rest) = .ok (some (linesText lines ++ CRLF).length) := by
  have hh : (linesText lines ++ CRLF).length = (linesText lines).length + 2 := by simp [CRLF]
  have hs : boundary (linesText lines ++ CRLF ++ rest) = some (linesText lines ++ CRLF).length := by
    rw [hh, boundary_lines hi hn]
  have hm : ∀ l ∈ lines, l.length + 1 ≤ limits.lineBytes := by
    intro l hl
    have he : l ++ CRLF ∈ lines.map (· ++ CRLF) := mem_map_of_mem hl
    have hd : (l ++ CRLF).length ≤ (linesText lines).length := by
      rw [linesText, flatMap_def]
      exact (sublist_flatten_of_mem he).length_le
    simp only [length_append, CRLF, length_cons, length_nil] at hd hc
    omega
  rw [block, extent_some hs, if_neg (not_lt.mpr hb), take_left, linesValid_lines hi hm (by omega), hs]

end

end Turnloop.Http1
