import Turnloop.Http1.Decoder

/-! What a step of the decoder does, and what it does with more input behind. -/

namespace Turnloop.Http1

open Http2 (Header)
open Lib
open List hiding head

section

variable {max len : ℕ} {prev : Option UInt8} {x : Bytes} {e : Error}

lemma linesFrom_over (h : max < len) (prev : Option UInt8) (y : Bytes) : ∃ e, linesFrom max prev len y = .error e := by
  induction y generalizing prev len with
  | nil => exact ⟨lineLimit, if_pos h⟩
  | cons b y ih =>
    rw [linesFrom]
    split_ifs
    · exact ⟨_, rfl⟩
    · exact ⟨_, rfl⟩
    · exact ⟨_, rfl⟩
    · exact ih (Nat.lt_succ_of_lt h) (some b)

lemma linesFrom_append (h : linesFrom max prev len x = .error e) (y : Bytes) :
    ∃ e', linesFrom max prev len (x ++ y) = .error e' := by
  induction x generalizing prev len with
  | nil =>
    rw [linesFrom] at h
    split_ifs at h with hl
    exact linesFrom_over hl prev y
  | cons b x ih =>
    rw [cons_append, linesFrom]
    rw [linesFrom] at h
    by_cases hb : b = LF
    · rw [if_pos hb] at h ⊢
      split_ifs at h ⊢ with hp hl
      · exact ⟨_, rfl⟩
      · exact ⟨_, rfl⟩
      · exact ih h
    · rw [if_neg hb] at h ⊢
      split_ifs with hc
      · exact ⟨_, rfl⟩
      · -- the byte after a CR is there already, or the CR is the last byte so far
        have he : ¬ (b = CR ∧ x.head?.any (· ≠ LF)) := by
          rintro ⟨hb', hx⟩
          cases x with
          | nil => cases hx
          | cons => exact hc ⟨hb', hx⟩
        rw [if_neg he] at h
        exact ih h

end

section

variable {limits : Limits} {overflow e : Error} {x : Bytes} {n : ℕ}

lemma boundary_some (h : boundary x = some n) : 4 ≤ n ∧ n ≤ x.length := by
  obtain ⟨m, hm, rfl⟩ := Option.map_eq_some_iff.mp h
  exact ⟨Nat.le_add_left 4 m, position_le hm⟩

lemma boundary_append (h : boundary x = some n) (y : Bytes) : boundary (x ++ y) = some n := by
  obtain ⟨m, hm, rfl⟩ := Option.map_eq_some_iff.mp h
  rw [boundary, position_append hm, Option.map_some]

lemma boundary_beyond (h : boundary x = none) (h' : boundary (x ++ y) = some n) : x.length < n := by
  obtain ⟨m, hm, rfl⟩ := Option.map_eq_some_iff.mp h'
  exact position_beyond (Option.map_eq_none_iff.mp h) hm (by simp [CRLF])

lemma extent_some (h : boundary x = some n) : extent x = n := by rw [extent, h, Option.getD_some]

lemma extent_le {x : Bytes} : extent x ≤ x.length := by
  cases hs : boundary x with
  | none => rw [extent, hs, Option.getD_none]
  | some =>
    rw [extent_some hs]
    exact (boundary_some hs).2

lemma take_extent (x y : Bytes) : ∃ z, (x ++ y).take (extent (x ++ y)) = x.take (extent x) ++ z := by
  cases hs : boundary x with
  | some =>
    rw [extent_some hs, extent_some (boundary_append hs y), take_append_of_le_length (boundary_some hs).2]
    exact ⟨[], (append_nil _).symm⟩
  | none =>
    have hx : x.take (extent x) = x := by rw [extent, hs, Option.getD_none, take_length]
    have hl : x.length ≤ extent (x ++ y) := by
      cases hs' : boundary (x ++ y) with
      | none => simp [extent, hs']
      | some =>
        rw [extent_some hs']
        exact (boundary_beyond hs hs').le
    exact ⟨y.take (extent (x ++ y) - x.length), by rw [hx, take_append, take_of_length_le hl]⟩

lemma extent_mono (x y : Bytes) : extent x ≤ extent (x ++ y) := by
  obtain ⟨z, hz⟩ := take_extent x y
  have hl := congrArg length hz
  rw [length_append, length_take_of_le extent_le, length_take_of_le extent_le] at hl
  omega

lemma block_some (h : block limits overflow x = .ok (some n)) :
    boundary x = some n ∧ n ≤ limits.headBytes ∧ linesValid (x.take n) limits.lineBytes = .ok () := by
  unfold block at h
  split_ifs at h with hb
  split at h
  · cases h
  · rename_i hl
    have hs : boundary x = some n := Except.ok.inj h
    rw [extent_some hs] at hb hl
    exact ⟨hs, not_lt.mp hb, hl⟩

lemma block_none (h : block limits overflow x = .ok none) : boundary x = none := by
  unfold block at h
  split_ifs at h
  split at h
  · cases h
  · exact Except.ok.inj h

lemma block_append (h : block limits overflow x = .ok (some n)) {y : Bytes} :
    block limits overflow (x ++ y) = .ok (some n) := by
  obtain ⟨hs, hb, hl⟩ := block_some h
  have hs' := boundary_append hs y
  unfold block
  rw [extent_some hs', if_neg (not_lt.mpr hb), take_append_of_le_length (boundary_some hs).2, hl, hs']

lemma block_error (h : block limits overflow x = .error e) (y : Bytes) :
    ∃ e', block limits overflow (x ++ y) = .error e' := by
  unfold block at h ⊢
  split_ifs with hb
  · exact ⟨_, rfl⟩
  · rw [if_neg fun ho => hb (lt_of_lt_of_le ho (extent_mono x y))] at h
    split at h
    · rename_i e' hl
      obtain ⟨z, hz⟩ := take_extent x y
      obtain ⟨e'', he''⟩ := linesFrom_append hl z
      rw [hz, linesValid, he'']
      exact ⟨e'', rfl⟩
    · cases h

end

namespace Decoder

variable {next : ℕ → State} {n left : ℕ}

inductive Moves (p : Parser) (d : Decoder) (x : Bytes) : Decoder → Step → Prop
  | idle (hwants : d.wantsStep = false)
      (hlate : ∀ y d' s, d.receiveInner p (x ++ y) = (d', .ok s) → s = ⟨0, none⟩ ∨ x.length < s.consumed) :
      Moves p d x d ⟨0, none⟩
  | settled {d' s} (hpos : 0 < s.consumed) (hle : s.consumed ≤ x.length)
      (hsame : ∀ y, d.receiveInner p (x ++ y) = (d', .ok s)) : Moves p d x d' s
  | owed {d' event} (hwants : d.wantsStep = true) (hwants' : d'.wantsStep = false)
      (hsame : ∀ y, d.receiveInner p (x ++ y) = (d', .ok ⟨0, some event⟩)) : Moves p d x d' ⟨0, some event⟩
  | slice {d'} (hx : x ≠ []) (hwants : d'.wantsStep = false) (hnil : d'.receiveInner p [] = (d', .ok ⟨0, none⟩))
      (hlonger : ∀ y ≠ [], ∃ m d'', 0 < m ∧ d'.receiveInner p y = (d'', .ok ⟨m, some (.Body (y.take m))⟩) ∧
        d.receiveInner p (x ++ y) = (d'', .ok ⟨x.length + m, some (.Body (x ++ y.take m))⟩)) :
      Moves p d x d' ⟨x.length, some (.Body x)⟩

variable {p : Parser} {d d' : Decoder} {x y : Bytes} {s : Step} {e : Error}

lemma takeHead_consumed (h : d.takeHead head cl te stop = (d', .ok s)) : s.consumed = stop := by
  unfold takeHead at h
  split_ifs at h <;> cases h <;> rfl

lemma receiveHead_moves (hs : d.state = .Head) (h : d.receiveHead p x = (d', .ok s)) : Moves p d x d' s := by
  have hi : ∀ z, d.receiveInner p z = d.receiveHead p z := fun z => by rw [receiveInner, hs]
  unfold receiveHead at h
  split at h
  · cases h
  · rename_i hb
    cases h
    refine .idle (by simp [wantsStep, hs]) fun y d' s h => ?_
    rw [hi, receiveHead] at h
    split at h
    · cases h
    · cases h
      exact .inl rfl
    · rename_i stop hb'
      split at h
      · cases h
      · rw [takeHead_consumed h]
        exact .inr (boundary_beyond (block_none hb) (block_some hb').1)
  · rename_i stop hb
    obtain ⟨ht, -, -⟩ := block_some hb
    obtain ⟨hf, hl⟩ := boundary_some ht
    split at h
    · cases h
    · rename_i he cl te hr
      have hc := takeHead_consumed h
      refine .settled (by omega) (by omega) fun y => ?_
      rw [hi, receiveHead, block_append hb]
      simp only [take_append_of_le_length hl, hr, h]

lemma receiveChunkSize_moves (hs : d.state = .ChunkSize) (h : d.receiveChunkSize x = (d', .ok s)) :
    Moves p d x d' s := by
  have hi : ∀ z, d.receiveInner p z = d.receiveChunkSize z := fun z => by rw [receiveInner, hs]
  unfold receiveChunkSize at h
  split_ifs at h with hl
  · cases h
  split at h
  · rename_i ht
    cases h
    refine .idle (by simp [wantsStep, hs]) fun y d' s h => ?_
    rw [hi, receiveChunkSize] at h
    split_ifs at h
    · cases h
    split at h
    · cases h
      exact .inl rfl
    · rename_i ht'
      split at h <;> cases h
      exact .inr (position_beyond ht ht' (by simp [CRLF]))
  · rename_i n ht
    have he : n + 2 ≤ x.length := position_le ht
    split at h
    · cases h
    · rename_i size hb
      cases h
      refine .settled (Nat.succ_pos _) he fun y => ?_
      rw [ht, Option.getD_some] at hl
      rw [hi, receiveChunkSize, position_append ht, Option.getD_some, if_neg hl]
      simp only [take_append_of_le_length (Nat.le_of_add_right_le he), hb]

lemma receiveChunkEnd_moves (hs : d.state = .ChunkEnd) (h : d.receiveChunkEnd x = (d', .ok s)) : Moves p d x d' s := by
  have hi : ∀ z, d.receiveInner p z = d.receiveChunkEnd z := fun z => by rw [receiveInner, hs]
  unfold receiveChunkEnd at h
  split_ifs at h with hw hc
  · cases h
  · cases h
    refine .settled (Nat.succ_pos _) hw fun y => ?_
    rw [hi, receiveChunkEnd, if_pos (by rw [length_append]; omega), take_append_of_le_length hw, if_neg hc]
  · cases h
    refine .idle (by simp [wantsStep, hs]) fun y d' s h => ?_
    rw [hi, receiveChunkEnd] at h
    split_ifs at h <;> cases h
    · exact .inr (not_le.mp hw)
    · exact .inl rfl

lemma not_crlf (h : ¬ CRLF <+: x) (hx : x ≠ [CR]) (hn : x ≠ []) {y : Bytes} : ¬ CRLF <+: x ++ y := by
  intro hl
  match x, hn with
  | [b], _ =>
    obtain ⟨z, hz⟩ := hl
    simp only [CRLF, cons_append, nil_append, cons.injEq] at hz
    exact hx (by rw [hz.1])
  | b :: c :: x, _ => exact h (prefix_of_prefix_length_le hl ⟨y, rfl⟩ (Nat.le_add_left 2 x.length))

lemma receiveTrailers_moves (hs : d.state = .Trailers) (h : d.receiveTrailers p x = (d', .ok s)) :
    Moves p d x d' s := by
  have hi : ∀ z, d.receiveInner p z = d.receiveTrailers p z := fun z => by rw [receiveInner, hs]
  unfold receiveTrailers at h
  split_ifs at h with hc
  · cases h
    refine .settled (Nat.succ_pos _) hc.length_le fun y => ?_
    rw [hi, receiveTrailers, if_pos (hc.trans ⟨y, rfl⟩)]
  · split at h
    · cases h
    · rename_i hb
      cases h
      refine .idle (by simp [wantsStep, hs]) fun y d' s h => ?_
      rw [hi, receiveTrailers] at h
      split_ifs at h with hc'
      · cases h
        refine .inr (not_le.mp fun hl => hc ?_)
        exact prefix_of_prefix_length_le hc' ⟨y, rfl⟩ hl
      · split at h
        · cases h
        · cases h
          exact .inl rfl
        · rename_i hb'
          split at h <;> cases h
          exact .inr (boundary_beyond (block_none hb) (block_some hb').1)
    · rename_i n hb
      obtain ⟨ht, -, -⟩ := block_some hb
      obtain ⟨hf, hl⟩ := boundary_some ht
      split at h
      · cases h
      · rename_i trailers hr
        cases h
        refine .settled (by simp only; omega) hl fun y => ?_
        have hg : ¬ CRLF <+: x ++ y := by
          refine not_crlf hc ?_ ?_
          · rintro rfl
            simp only [length_cons, length_nil] at hl
            omega
          · rintro rfl
            simp only [length_nil] at hl
            omega
        rw [hi, receiveTrailers, if_neg hg, block_append hb]
        simp only [take_append_of_le_length hl, hr]

lemma receiveSlice_moves (hi : ∀ z, d.receiveInner p z = d.receiveSlice left next z)
    (hn : ∀ n ≠ 0, ∀ z, { d with state := next n }.receiveInner p z = { d with state := next n }.receiveSlice n next z)
    (hw : d.wantsStep = false) (hw' : ∀ n ≠ 0, { d with state := next n }.wantsStep = false)
    (h : d.receiveSlice left next x = (d', .ok s)) : Moves p d x d' s := by
  unfold receiveSlice at h
  split_ifs at h with hp
  · obtain ⟨rfl, hs⟩ := Prod.mk.inj h
    cases hs
    by_cases ha : left ≤ x.length
    · refine .settled hp (min_le_left _ _) fun y => ?_
      have hm : min (x ++ y).length left = left := min_eq_right (ha.trans (by simp))
      rw [hi, receiveSlice, hm, min_eq_right ha, if_pos (by omega), take_append_of_le_length ha]
    · -- the body goes on behind the slice
      have hm : min x.length left = x.length := min_eq_left (by omega)
      have hr : left - x.length ≠ 0 := by omega
      rw [hm, take_length]
      refine .slice ?_ (hw' _ hr) ?_ fun y hy => ?_
      · rintro rfl
        simp at hp
      · rw [hn _ hr, receiveSlice]
        rfl
      · have hl : 0 < y.length := length_pos_of_ne_nil hy
        have ho : min (x ++ y).length left = x.length + min y.length (left - x.length) := by
          rw [length_append]
          omega
        refine ⟨min y.length (left - x.length),
          { d with state := next (left - x.length - min y.length (left - x.length)) }, by omega, ?_, ?_⟩
        · rw [hn _ hr, receiveSlice, if_pos (by omega)]
        · rw [hi, receiveSlice, ho, if_pos (by omega), take_append, take_of_length_le (by omega),
            Nat.add_sub_cancel_left, Nat.sub_add_eq]
  · cases h
    refine .idle hw fun y d' s h => ?_
    rw [hi, receiveSlice] at h
    split_ifs at h with hp'
    · cases h
      exact .inr (by simp only; omega)
    · cases h
      exact .inl rfl

lemma receiveInner_moves (h : d.receiveInner p x = (d', .ok s)) : Moves p d x d' s := by
  unfold receiveInner at h
  split at h <;> rename_i hs
  · exact receiveHead_moves hs h
  · rename_i left
    refine receiveSlice_moves (fun z => by rw [receiveInner, hs]) (fun n hn z => ?_) (by simp [wantsStep, hs])
      (fun n hn => by simp [wantsStep, hn]) h
    simp only [receiveInner, if_neg hn]
  · rename_i left
    refine receiveSlice_moves (fun z => by rw [receiveInner, hs]) (fun n hn z => ?_) (by simp [wantsStep, hs])
      (fun n hn => by simp [wantsStep, hn]) h
    simp only [receiveInner, if_neg hn]
  · exact receiveChunkSize_moves hs h
  · exact receiveChunkEnd_moves hs h
  · exact receiveTrailers_moves hs h
  · have hi : ∀ z, d.receiveInner p z =
        if z.isEmpty then (d, .ok ⟨0, none⟩) else (d, .ok ⟨z.length, some (.Body z)⟩) :=
          fun z => by rw [receiveInner, hs]
    cases x with
    | nil =>
      cases h
      refine .idle (by simp [wantsStep, hs]) fun y d' s h => ?_
      rw [nil_append, hi] at h
      split_ifs at h with hy <;> cases h
      · exact .inl rfl
      · exact .inr (length_pos_of_ne_nil (by simpa using hy))
    | cons b x =>
      cases h
      refine .slice (cons_ne_nil b x) (by simp [wantsStep, hs]) (hi []) fun y hy => ?_
      have he : y.isEmpty = false := by simpa using hy
      refine ⟨y.length, d, length_pos_of_ne_nil hy, ?_, ?_⟩
      · rw [hi, he, take_length]
        rfl
      · rw [hi, take_length, length_append]
        rfl
  · cases h
    exact .owed (by simp [wantsStep, hs]) (by simp [wantsStep]) fun y => by rw [receiveInner, hs]
  · cases h
    exact .owed (by simp [wantsStep, hs]) (by simp [wantsStep]) fun y => by rw [receiveInner, hs]
  · cases h
    refine .idle (by simp [wantsStep, hs]) fun y d' s h => .inl ?_
    rw [receiveInner, hs] at h
    cases h
    rfl
  · cases h

/-- A chunk-size line of just the limit, cut between its CR and its LF. -/
def Tears (d : Decoder) (x y : Bytes) : Prop :=
  d.state = .ChunkSize ∧ position CRLF (x ++ y) = some d.limits.lineBytes ∧ x.length = d.limits.lineBytes + 1

lemma Tears.error (h : Tears d x y) : ∃ d' e, d.receiveInner p x = (d', .error e) := by
  obtain ⟨hs, ht, hl⟩ := h
  have hn : position CRLF x = none := by
    cases hx : position CRLF x with
    | none => rfl
    | some n =>
      have hm := Option.some.inj ((position_append hx).symm.trans ht)
      have : n + 2 ≤ x.length := position_le hx
      omega
  refine ⟨d, invalid "chunk line limit", ?_⟩
  simp only [receiveInner, hs]
  rw [receiveChunkSize, hn, Option.getD_none, if_pos (by omega)]

structure Sound (d : Decoder) : Prop where
  head : d.state ≠ .Head → 0 < d.limits.headBytes
  line : d.state = .Trailers → 0 < d.limits.lineBytes

lemma receiveHead_error (h : d.receiveHead p x = (d', .error e)) :
    ∃ d'' e', d.receiveHead p (x ++ y) = (d'', .error e') := by
  unfold receiveHead at h
  split at h
  · rename_i e' hb
    obtain ⟨e'', hb'⟩ := block_error hb y
    exact ⟨d, e'', by rw [receiveHead, hb']⟩
  · cases h
  · rename_i stop hb
    obtain ⟨hs, -, -⟩ := block_some hb
    have hl := (boundary_some hs).2
    refine ⟨d', e, ?_⟩
    rw [receiveHead, block_append hb]
    simp only [take_append_of_le_length hl]
    exact h

lemma receiveChunkSize_error (hs : d.state = .ChunkSize) (h : d.receiveChunkSize x = (d', .error e)) :
    (∃ d'' e', d.receiveChunkSize (x ++ y) = (d'', .error e')) ∨ Tears d x y := by
  cases ht : position CRLF x with
  | some n =>
    have hl : n + 2 ≤ x.length := position_le ht
    refine .inl ⟨d', e, ?_⟩
    rw [receiveChunkSize, ht] at h
    rw [receiveChunkSize, position_append ht]
    simp only [take_append_of_le_length (Nat.le_of_add_right_le hl)]
    exact h
  | none =>
    rw [receiveChunkSize, ht, Option.getD_none] at h
    split_ifs at h with hi
    · by_cases hl' : (position CRLF (x ++ y)).getD (x ++ y).length > d.limits.lineBytes
      · exact .inl ⟨d, _, by rw [receiveChunkSize, if_pos hl']⟩
      · -- the line ends within the limit after all, so what is there is the line and one byte more
        cases hs' : position CRLF (x ++ y) with
        | none =>
          rw [hs', Option.getD_none, length_append] at hl'
          omega
        | some m =>
          rw [hs', Option.getD_some] at hl'
          have hb : x.length < m + 2 := position_beyond ht hs' (by simp [CRLF])
          obtain rfl : m = d.limits.lineBytes := by omega
          exact .inr ⟨hs, hs', by omega⟩
    · cases h

lemma receiveChunkEnd_error (h : d.receiveChunkEnd x = (d', .error e)) :
    ∃ d'' e', d.receiveChunkEnd (x ++ y) = (d'', .error e') := by
  unfold receiveChunkEnd at h
  split_ifs at h with hw hc
  · refine ⟨d, invalid "missing chunk CRLF", ?_⟩
    rw [receiveChunkEnd, if_pos (by rw [length_append]; omega), take_append_of_le_length hw, if_pos hc]
  · cases h
  · cases h

lemma block_cr {limits : Limits} (hh : 0 < limits.headBytes) (hl : 0 < limits.lineBytes) :
    block limits overflow [CR] = .ok none := by
  have hv : linesValid [CR] limits.lineBytes = .ok () := by
    rw [linesValid, linesFrom, if_neg (by decide), if_neg (by decide), linesFrom, if_neg (by omega)]
  rw [block, show extent [CR] = 1 from by decide, if_neg (by omega)]
  simp only [take_succ_cons, take_zero, hv]
  decide

lemma block_nil (limits : Limits) (overflow : Error) : block limits overflow [] = .ok none := by
  have hv : linesValid [] limits.lineBytes = .ok () := by rw [linesValid, linesFrom, if_neg (Nat.not_lt_zero _)]
  rw [block, show extent [] = 0 from by decide, if_neg (Nat.not_lt_zero _)]
  simp only [take_nil, hv]
  decide

lemma receiveTrailers_error (hd : d.Sound) (hs : d.state = .Trailers) (h : d.receiveTrailers p x = (d', .error e)) :
    ∃ d'' e', d.receiveTrailers p (x ++ y) = (d'', .error e') := by
  have hh : 0 < d.limits.headBytes := hd.head (by simp [hs])
  unfold receiveTrailers at h
  split_ifs at h with hc
  · cases h
  have hl : ¬ CRLF <+: x ++ y := by
    -- the first byte of an empty line alone is no error, so it is not what is there
    refine not_crlf hc ?_ ?_
    · rintro rfl
      rw [block_cr hh (hd.line hs)] at h
      cases h
    · rintro rfl
      rw [block_nil] at h
      cases h
  split at h
  · rename_i e' hb
    obtain ⟨e'', hb'⟩ := block_error hb y
    exact ⟨d, e'', by rw [receiveTrailers, if_neg hl, hb']⟩
  · cases h
  · rename_i n hb
    obtain ⟨ht, -, -⟩ := block_some hb
    have he := (boundary_some ht).2
    refine ⟨d', e, ?_⟩
    rw [receiveTrailers, if_neg hl, block_append hb]
    simp only [take_append_of_le_length he]
    exact h

lemma receiveInner_error (hd : d.Sound) (h : d.receiveInner p x = (d', .error e)) (y : Bytes) :
    (∃ d'' e', d.receiveInner p (x ++ y) = (d'', .error e')) ∨ Tears d x y := by
  cases hs : d.state <;> simp only [receiveInner, hs] at h ⊢
  case Head => exact .inl (receiveHead_error h)
  case Fixed left =>
    unfold receiveSlice at h
    split_ifs at h <;> cases h
  case ChunkSize => exact receiveChunkSize_error hs h
  case Chunk left =>
    unfold receiveSlice at h
    split_ifs at h <;> cases h
  case ChunkEnd => exact .inl (receiveChunkEnd_error h)
  case Trailers => exact .inl (receiveTrailers_error hd hs h)
  case Eof => split_ifs at h <;> cases h
  case End => cases h
  case Done => cases h
  case Upgrade => cases h
  case Failed => exact .inl ⟨d', e, h⟩

lemma enter_sound {he : Head} : (d.enter he cl te).limits = d.limits ∧ (d.enter he cl te).state ≠ .Trailers := by
  unfold enter
  split_ifs
  · exact ⟨rfl, by simp⟩
  · exact ⟨rfl, by simp⟩
  · exact ⟨rfl, by simp⟩
  all_goals
    cases cl with
    | none => exact ⟨rfl, by simp⟩
    | some =>
      refine ⟨rfl, ?_⟩
      dsimp only
      split_ifs <;> simp

/-- What a step that does not fail leaves and shows. -/
inductive Goes (d : Decoder) : Decoder → Option Event → Prop
  | waits : Goes d d none
  | head (hs : d.state = .Head) (room : 0 < d.limits.headBytes) :
      Goes d ((d.noteHead he).enter he cl te) (some (.Head h))
  | informed (hs : d.state = .Head) (room : 0 < d.limits.headBytes) : Goes d (d.noteHead he) (some (.Informational h))
  | sized (hs : d.state = .ChunkSize) (room : 0 < d.limits.lineBytes) : Goes d { d with state := st } none
  | body (hs : d.state ≠ .Head) (hb : bytes ≠ []) (hn : st ≠ .Trailers) :
      Goes d { d with state := st } (some (.Body bytes))
  | on (hs : d.state ≠ .Head) (hn : st ≠ .Trailers)
      (he : ∀ bytes, event ≠ some (.Body bytes)) : Goes d { d with state := st } event

lemma receiveSlice_goes (hs : d.state ≠ .Head) (hn : ∀ n, next n ≠ .Trailers)
    (h : d.receiveSlice left next x = (d', .ok ⟨n, event⟩)) : Goes d d' event := by
  unfold receiveSlice at h
  split_ifs at h with hp <;> cases h
  · refine .body hs ?_ (hn _)
    rw [ne_eq, take_eq_nil_iff]
    rintro (hz | rfl)
    · omega
    · simp at hp
  · exact .waits

lemma receiveChunkSize_goes (hs : d.state = .ChunkSize) (h : d.receiveChunkSize x = (d', .ok ⟨n, event⟩)) :
    Goes d d' event := by
  unfold receiveChunkSize at h
  split_ifs at h with hl
  · cases h
  split at h
  · cases h
    exact .waits
  · rename_i n ht
    split at h
    · cases h
    · rename_i size hi
      cases h
      -- a line of no bytes gives no size
      rw [ht, Option.getD_some] at hl
      have hn : n ≠ 0 := by
        rintro rfl
        simp [chunkSize] at hi
      exact .sized hs (by omega)

lemma receiveInner_goes (h : d.receiveInner p x = (d', .ok ⟨n, event⟩)) : Goes d d' event := by
  cases hs : d.state <;> simp only [receiveInner, hs] at h
  case Head =>
    unfold receiveHead at h
    split at h
    · cases h
    · cases h
      exact .waits
    · rename_i stop hb
      obtain ⟨ht, hy, -⟩ := block_some hb
      have hf := (boundary_some ht).1
      split at h
      · cases h
      · unfold takeHead at h
        split_ifs at h <;> cases h
        · exact .informed hs (by omega)
        · exact .head hs (by omega)
  case Fixed | Chunk => exact receiveSlice_goes (by simp [hs]) (fun n => by split_ifs <;> simp) h
  case ChunkSize => exact receiveChunkSize_goes hs h
  case ChunkEnd =>
    unfold receiveChunkEnd at h
    split_ifs at h <;> cases h
    · exact .on (by simp [hs]) (by simp) (by simp)
    · exact .waits
  case Trailers =>
    unfold receiveTrailers at h
    split_ifs at h
    · cases h
      exact .on (by simp [hs]) (by simp) (by simp)
    · split at h
      · cases h
      · cases h
        exact .waits
      · split at h <;> cases h
        exact .on (by simp [hs]) (by simp) (by simp)
  case Eof =>
    split_ifs at h with he <;> cases h
    · exact .waits
    · exact (.body (by simp [hs]) (by simpa using he) (by simp [hs]) : Goes d { d with state := d.state } _)
  case End =>
    cases h
    exact .on (by simp [hs]) (by simp) (by cases d.upgradeRequest <;> simp)
  case Upgrade =>
    cases h
    exact .on (by simp [hs]) (by simp) (by simp)
  case Done =>
    cases h
    exact .waits
  case Failed => cases h

lemma Sound.step (hd : d.Sound) (h : d.receiveInner p x = (d', .ok s)) : d'.Sound := by
  obtain ⟨n, event⟩ := s
  cases receiveInner_goes h with
  | waits => exact hd
  | head _ room => exact ⟨fun _ => enter_sound.1.symm ▸ room, fun hc => absurd hc enter_sound.2⟩
  | informed hs room => exact ⟨fun _ => room, fun hc => absurd (hs.symm.trans hc) (by simp)⟩
  | sized hs room => exact ⟨fun _ => hd.head (by simp [hs]), fun _ => room⟩
  | body hs _ hn | on hs hn => exact ⟨fun _ => hd.head hs, fun hc => absurd hc hn⟩

lemma receiveInner_body (h : d.receiveInner p x = (d', .ok ⟨n, some (.Body bytes)⟩)) : bytes ≠ [] := by
  cases receiveInner_goes h with
  | body _ hb => exact hb
  | on _ _ he => exact absurd rfl (he bytes)

def step (p : Parser) (d : Decoder) (input : Bytes) : Option (ℕ × Option Event × Decoder) :=
  match d.receive p input with
  | (d, .ok s) => some (s.consumed, s.event, d)
  | (_, .error _) => none

lemma step_some : d.step p x = some (n, event, d') ↔ d.receiveInner p x = (d', .ok ⟨n, event⟩) := by
  unfold step receive
  match hi : d.receiveInner p x with
  | (d'', .ok s) =>
    simp only [Option.some.injEq, Prod.mk.injEq, Except.ok.injEq]
    constructor
    · rintro ⟨rfl, rfl, rfl⟩
      exact ⟨rfl, rfl⟩
    · rintro ⟨rfl, rfl⟩
      exact ⟨rfl, rfl, rfl⟩
  | (d'', .error e) => simp

lemma step_none : d.step p x = none ↔ ∃ d' e, d.receiveInner p x = (d', .error e) := by
  unfold step receive
  match hi : d.receiveInner p x with
  | (d'', .ok s) => simp
  | (d'', .error e) => simp

def progressed (n : ℕ) (event : Option Event) (d : Decoder) : Bool := 0 < n || event.isSome || d.wantsStep

def cost (d : Decoder) (input : Bytes) : ℕ := 2 * input.length + if d.wantsStep then 1 else 0

lemma cost_lt (h : d.step p x = some (n, event, d')) (hp : progressed n event d' = true) :
    cost d' (x.drop n) < cost d x := by
  have hm := receiveInner_moves (step_some.mp h)
  have hr : ∀ d : Decoder, (if d.wantsStep then 1 else 0) ≤ 1 := fun d => by split_ifs <;> omega
  have ha : ∀ {d' : Decoder} {n : ℕ}, 0 < n → n ≤ x.length → cost d' (x.drop n) < cost d x := by
    intro d' n ho hl
    have := hr d'
    unfold cost
    rw [length_drop]
    omega
  generalize hs : (⟨n, event⟩ : Step) = s at hm
  cases hm with
  | idle hw =>
    cases hs
    simp [progressed, hw] at hp
  | settled ho hl =>
    subst hs
    exact ha ho hl
  | owed hw hw' =>
    cases hs
    simp [cost, hw, hw']
  | slice hx =>
    cases hs
    exact ha (length_pos_of_ne_nil hx) le_rfl

def host (p : Parser) : Stepper Decoder UInt8 Event where
  step := step p
  more := progressed
  cost := cost
  cost_lt := cost_lt

end Decoder

end Turnloop.Http1
