import Turnloop.Redis.Resp

/-! Laws of the codec. -/

namespace Turnloop.Redis

open Lib
open List hiding count

variable {D : Doubles} {limits : Limits} {build : Bool}
variable {m : Bytes → Pass (Value D.F64)} {m' : Pass (Value D.F64)} {v : Value D.F64} {x : Bytes}

abbrev Steady {β : Type} (m : Bytes → Pass β) : Prop := Incremental DecodeError.Incomplete Cursor.p m

lemma spend_steady : Steady (fun _ => spend) := by
  refine .still fun c b c' h => ?_
  unfold spend at h
  obtain ⟨_, _, hg, h⟩ := Incremental.of_bind h
  cases hg
  split_ifs at h
  · cases h
  · cases h
    rfl

lemma withinBudget_steady : Steady (fun _ => withinBudget n) := by
  refine .still fun c b c' h => ?_
  unfold withinBudget at h
  obtain ⟨_, _, hg, h⟩ := Incremental.of_bind h
  cases hg
  split_ifs at h
  · cases h
  · cases h
    rfl

def kindAt (c : Cursor) (tail : Bytes) : Except DecodeError (Char × Cursor) :=
  match tail[0]? with
  | none => .error .Incomplete
  | some b => .ok (Char.ofNat b.toNat, { c with p := c.p + 1 })

lemma kindOf_apply (input : Bytes) (c : Cursor) : kindOf input c = kindAt c (input.drop c.p) := by
  unfold kindOf kindAt
  rw [getElem?_drop, Nat.add_zero]
  change (match input[c.p]? with
    | none => _
    | some b => _ : Pass Char) c = _
  cases input[c.p]? <;> rfl

lemma kindOf_steady : Steady kindOf := by
  refine .of_tail kindOf_apply (fun c t u h => ?_) fun c t b c' h => ?_
  · cases t with
    | nil => exact (h rfl).elim
    | cons => rfl
  · cases t with
    | nil => cases h
    | cons =>
      cases h
      exact ⟨1, by simp, rfl, rfl⟩

def lineAt (c : Cursor) (tail : Bytes) : Except DecodeError (Bytes × Cursor) :=
  match tail.findIdx? (· == LF) with
  | none => .error .Incomplete
  | some e =>
    if e = 0 ∨ tail[e - 1]? ≠ some CR then .error .Invalid else .ok (tail.take (e - 1), { c with p := c.p + e + 1 })

lemma line_apply (input : Bytes) (c : Cursor) : line input c = lineAt c (input.drop c.p) := by
  unfold line lineAt
  change (match (input.drop c.p).findIdx? (· == LF) with
    | none => _
    | some e => _ : Pass Bytes) c = _
  cases (input.drop c.p).findIdx? (· == LF) with
  | none => rfl
  | some =>
    dsimp only
    split_ifs <;> rfl

lemma line_steady : Steady line := by
  refine .of_tail line_apply (fun c t u h => ?_) fun c t b c' h => ?_
  · cases hf : t.findIdx? (· == LF) with
    | none => exact (h (by unfold lineAt; rw [hf])).elim
    | some e =>
      have hl : e < t.length := (findIdx?_eq_some_iff_getElem.mp hf).1
      unfold lineAt
      rw [findIdx?_append, hf, Option.some_or]
      dsimp only
      rw [getElem?_append_left (by omega), take_append_of_le_length (by omega)]
  · unfold lineAt at h
    cases hf : t.findIdx? (· == LF) with
    | none => rw [hf] at h; cases h
    | some e =>
      rw [hf] at h
      obtain ⟨hl, ho, hb⟩ := findIdx?_eq_some_iff_getElem.mp hf
      have hf' : (t.take (e + 1)).findIdx? (· == LF) = some e := by
        rw [findIdx?_eq_some_iff_getElem]
        refine ⟨by rw [length_take]; omega, by rw [getElem_take]; exact ho, fun j hj => ?_⟩
        rw [getElem_take]
        exact hb j hj
      dsimp only at h
      split_ifs at h with ha
      cases h
      refine ⟨e + 1, hl, by dsimp only; omega, ?_⟩
      unfold lineAt
      rw [hf']
      dsimp only
      rw [getElem?_take_of_lt (by omega), if_neg ha, take_take, Nat.min_eq_left (by omega)]

def blobAt (D : Doubles) (limits : Limits) (build : Bool) (kind : Char) (len : ℕ) (c : Cursor) (tail : Bytes) :
    Except DecodeError (Value D.F64 × Cursor) :=
  if len > limits.bytes then .error .Limit
  else if c.p + len + 2 > USIZE_MAX then .error .Limit
  else if len + 2 > tail.length then .error .Incomplete
  else if (tail.drop len).take 2 ≠ [CR, LF] then .error .Invalid
  else if kind = '=' ∧ (len < 4 ∨ (tail.take len)[3]? ≠ some 58) then .error .Invalid
  else .ok (blobValue D kind (copied build (tail.take len)), { c with p := c.p + len + 2 })

lemma blob_apply {kind : Char} {len : ℕ} (input : Bytes) (c : Cursor) :
    blob D limits build input kind len c = blobAt D limits build kind len c (input.drop c.p) := by
  have he : c.p + len > input.length ∨ c.p + len + 2 > input.length ↔ len + 2 > (input.drop c.p).length := by
    rw [length_drop]
    omega
  unfold blob blobAt
  change (if len > limits.bytes then _ else _ : Pass (Value D.F64)) c = _
  by_cases hl : len > limits.bytes
  · rw [if_pos hl, if_pos hl]
    rfl
  rw [if_neg hl, if_neg hl]
  by_cases hm : c.p + len + 2 > USIZE_MAX
  · rw [if_pos hm, if_pos hm]
    rfl
  rw [if_neg hm, if_neg hm]
  by_cases ho : len + 2 > (input.drop c.p).length
  · rw [if_pos ho]
    by_cases hn : c.p + len > input.length
    · rw [if_pos hn]
      rfl
    · rw [if_neg hn, if_pos ((he.mpr ho).resolve_left hn)]
      rfl
  obtain ⟨hn, hl₂⟩ := not_or.mp (mt he.mp ho)
  rw [if_neg ho, if_neg hn, if_neg hl₂, drop_drop]
  by_cases hc : (input.drop (c.p + len)).take 2 ≠ [CR, LF]
  · rw [if_pos hc, if_pos hc]
    rfl
  rw [if_neg hc, if_neg hc]
  by_cases hf : kind = '=' ∧ (len < 4 ∨ ((input.drop c.p).take len)[3]? ≠ some 58)
  · rw [if_pos hf, if_pos hf]
    rfl
  rw [if_neg hf, if_neg hf]
  rfl

lemma blob_steady : Steady (fun input => blob D limits build input kind len) := by
  refine .of_tail blob_apply (fun c t u h => ?_) fun c t b c' h => ?_
  · unfold blobAt at h ⊢
    by_cases hl : len > limits.bytes
    · rw [if_pos hl, if_pos hl]
    rw [if_neg hl] at h ⊢
    rw [if_neg hl]
    by_cases hm : c.p + len + 2 > USIZE_MAX
    · rw [if_pos hm, if_pos hm]
    rw [if_neg hm] at h ⊢
    rw [if_neg hm]
    by_cases he : len + 2 > t.length
    · rw [if_pos he] at h
      exact (h rfl).elim
    have hn : len + 2 ≤ t.length := Nat.not_lt.mp he
    rw [if_neg he, if_neg (by rw [length_append]; omega), drop_append_of_le_length (by omega),
      take_append_of_le_length (by rw [length_drop]; omega), take_append_of_le_length (by omega)]
  · unfold blobAt at h
    split_ifs at h with hl hm he hc hf
    cases h
    have hn : len + 2 ≤ t.length := Nat.not_lt.mp he
    refine ⟨len + 2, hn, by dsimp only; omega, ?_⟩
    unfold blobAt
    rw [if_neg hl, if_neg hm, if_neg (by rw [length_take]; omega), drop_take, Nat.add_sub_cancel_left, take_take,
      take_take, Nat.min_self, Nat.min_eq_left (by omega), if_neg hc, if_neg hf]

lemma values_steady (hm : Steady m) : Steady (fun input => values D (m input) n) := by
  induction n with
  | zero => exact .pure _
  | succ n ih => exact .bind hm fun a => .bind ih fun rest => .pure _

lemma entries_steady (hm : Steady m) : Steady (fun input => entries D (m input) n) := by
  induction n with
  | zero => exact .pure _
  | succ n ih =>
    exact .bind hm fun a => .bind hm fun b => .bind ih fun rest => .pure _

lemma aggregate_steady (hm : Steady m) : Steady (fun input => aggregate D build (m input) kind count) := by
  unfold aggregate
  refine Incremental.ite (fun _ => ?_) fun _ => ?_
  · refine Incremental.bind withinBudget_steady fun _ => Incremental.bind (entries_steady hm) fun pairs => ?_
    exact Incremental.ite (fun _ => Incremental.pure _) fun _ => Incremental.bind hm fun value => Incremental.pure _
  · exact Incremental.bind withinBudget_steady fun _ => Incremental.bind (values_steady hm)
      fun items => Incremental.pure _

lemma node_steady : Steady (fun input => node D limits build input depth) := by
  induction depth with
  | zero => exact .throw _
  | succ depth ih =>
    unfold node
    refine .bind spend_steady fun _ => .bind kindOf_steady fun kind => .bind line_steady fun he => ?_
    refine .ite (fun _ => ?_) fun _ => .ite (fun _ => ?_) fun _ => .lift _
    · refine .bind (.lift _) fun len => ?_
      cases len with
      | none => exact .pure _
      | some len => exact blob_steady
    · refine .bind (.lift _) fun count => ?_
      cases count with
      | none => exact .pure _
      | some count => exact aggregate_steady ih

def Twin {β : Type} (p q : Pass β) : Prop := ∀ c, (p c).map Prod.snd = (q c).map Prod.snd

namespace Twin

variable {β γ : Type} {p q : Pass β}

lemma refl (p : Pass β) : Twin p p := fun _ => rfl

lemma pure (a b : β) : Twin (Pure.pure a) (Pure.pure b) := fun _ => rfl

lemma bind (h : Twin p q) (hk : ∀ a b, Twin (k a) (l b)) : Twin (p >>= k) (q >>= l) := by
  intro c
  have hc := h c
  rw [Incremental.bind_apply, Incremental.bind_apply]
  cases hp : p c with
  | error =>
    cases hq : q c with
    | error =>
      rw [hp, hq] at hc
      cases hc
      rfl
    | ok =>
      rw [hp, hq] at hc
      cases hc
  | ok r =>
    cases hq : q c with
    | error =>
      rw [hp, hq] at hc
      cases hc
    | ok r' =>
      rw [hp, hq] at hc
      have hr : r.2 = r'.2 := Except.ok.inj hc
      dsimp only
      rw [hr]
      exact hk r.1 r'.1 r'.2

lemma bind_same (hk : ∀ a, Twin (k a) (l a)) : Twin (p >>= k) (p >>= l) := by
  intro c
  rw [Incremental.bind_apply, Incremental.bind_apply]
  cases p c with
  | error => rfl
  | ok r => exact hk r.1 r.2

lemma ite {a : Prop} [Decidable a] (h : a → Twin p q) (h' : ¬ a → Twin p' q') :
    Twin (if a then p else p') (if a then q else q') := by
  split_ifs with ha
  · exact h ha
  · exact h' ha

lemma lift {r r' : Except DecodeError β} (h : r.map (fun _ => ()) = r'.map fun _ => ()) :
    Twin (liftM r) (liftM r') := by
  intro c
  cases r with
  | error =>
    cases r' with
    | error =>
      cases h
      rfl
    | ok => cases h
  | ok =>
    cases r' with
    | error => cases h
    | ok => rfl

end Twin

lemma scalar_twin {he : Bytes} : (scalar D true kind he).map (fun _ => ()) =
    (scalar D false kind he).map fun _ => () := by
  unfold scalar
  split
  case h_5 =>
    split_ifs <;> rfl
  all_goals rfl

lemma blob_twin : Twin (blob D limits true input kind len) (blob D limits false input kind len) := by
  intro c
  rw [blob_apply, blob_apply]
  unfold blobAt
  split_ifs <;> rfl

lemma values_twin {m : Pass (Value D.F64)} (hm : Twin m m') : Twin (values D m n) (values D m' n) := by
  induction n with
  | zero => exact .refl _
  | succ n ih => exact .bind hm fun _ _ => .bind ih fun _ _ => .pure _ _

lemma entries_twin {m : Pass (Value D.F64)} (hm : Twin m m') : Twin (entries D m n) (entries D m' n) := by
  induction n with
  | zero => exact .refl _
  | succ n ih => exact .bind hm fun _ _ => .bind hm fun _ _ => .bind ih fun _ _ => .pure _ _

lemma aggregate_twin {m : Pass (Value D.F64)} (hm : Twin m m') :
    Twin (aggregate D true m kind count) (aggregate D false m' kind count) := by
  unfold aggregate
  refine Twin.ite (fun _ => ?_) fun _ => ?_
  · refine Twin.bind_same fun _ => Twin.bind (entries_twin hm) fun pairs pairs' => ?_
    exact Twin.ite (fun _ => Twin.pure _ _) fun _ => Twin.bind hm fun _ _ => Twin.pure _ _
  · exact Twin.bind_same fun _ => Twin.bind (values_twin hm) fun _ _ => Twin.pure _ _

lemma node_twin (input : Bytes) (depth : ℕ) :
    Twin (node D limits true input depth) (node D limits false input depth) := by
  induction depth with
  | zero => exact .refl _
  | succ depth ih =>
    unfold node
    refine .bind_same fun _ => .bind_same fun kind => .bind_same fun he => ?_
    refine .ite (fun _ => ?_) fun _ => .ite (fun _ => ?_) fun _ => .lift scalar_twin
    · refine .bind_same fun len => ?_
      cases len with
      | none => exact .refl _
      | some len => exact blob_twin
    · refine .bind_same fun count => ?_
      cases count with
      | none => exact .refl _
      | some count => exact aggregate_twin ih

lemma decode_eq (x : Bytes) : decode D limits x = match pass D limits true x with
      | .error .Incomplete => if x.length ≤ limits.bytes then .ok none else .error .Limit
      | .error e => .error e
      | .ok (v, c) => if c.p > limits.bytes then .error .Limit else .ok (some (v, c.p)) := by
  have hw : (pass D limits true x).map Prod.snd = (pass D limits false x).map Prod.snd := node_twin x _ _
  unfold decode frameLen
  cases hm : pass D limits false x with
  | error e =>
    rw [hm] at hw
    cases ht : pass D limits true x with
    | ok => rw [ht] at hw; cases hw
    | error =>
      rw [ht] at hw
      cases hw
      cases e with
      | Incomplete =>
        split_ifs <;> rfl
      | _ => rfl
  | ok r =>
    rw [hm] at hw
    cases ht : pass D limits true x with
    | error => rw [ht] at hw; cases hw
    | ok r' =>
      rw [ht] at hw
      have hr : r'.2 = r.2 := Except.ok.inj hw
      dsimp only
      rw [hr]
      split_ifs <;> rfl

lemma decode_some : decode D limits x = .ok (some (v, n)) ↔ ∃ c, pass D limits true x = .ok (v, c) ∧ c.p = n ∧
    n ≤ limits.bytes := by
  rw [decode_eq]
  constructor
  · intro h
    split at h
    · split_ifs at h
      cases h
    · cases h
    · rename_i v' c hp
      split_ifs at h with hl
      cases h
      exact ⟨c, hp, rfl, Nat.not_lt.mp hl⟩
  · rintro ⟨c, hp, rfl, hl⟩
    rw [hp]
    dsimp only
    rw [if_neg (Nat.not_lt.mpr hl)]

lemma decode_none : decode D limits x = .ok none ↔ pass D limits true x = .error .Incomplete ∧
    x.length ≤ limits.bytes := by
  rw [decode_eq]
  constructor
  · intro h
    split at h
    · rename_i hp
      split_ifs at h with hl
      exact ⟨hp, hl⟩
    · cases h
    · split_ifs at h
      cases h
  · rintro ⟨hp, hl⟩
    rw [hp]
    rw [if_pos hl]

lemma decode_length (h : decode D limits x = .ok (some (v, n))) : n ≤ x.length := by
  obtain ⟨c, hp, rfl, -⟩ := decode_some.mp h
  exact node_steady.within x _ v c (Nat.zero_le _) hp

lemma decode_extend (h : decode D limits x = .ok (some (v, n))) (hy : x.take n <+: y) :
    decode D limits y = .ok (some (v, n)) := by
  obtain ⟨c, hp, rfl, hl⟩ := decode_some.mp h
  exact decode_some.mpr ⟨c, node_steady.extend hp hy, rfl, hl⟩

lemma decode_part (h : decode D limits x = .ok (some (v, n))) (hz : z <+: x) (hl : z.length < n) :
    decode D limits z = .ok none := by
  obtain ⟨c, hp, rfl, _⟩ := decode_some.mp h
  exact decode_none.mpr ⟨node_steady.incomplete hp hz (Nat.zero_le _) hl, by omega⟩

lemma decode_error (h : decode D limits x = .error e) : ∃ e', decode D limits (x ++ y) = .error e' := by
  cases hy : decode D limits (x ++ y) with
  | error e' => exact ⟨e', rfl⟩
  | ok r =>
    exfalso
    cases r with
    | none =>
      obtain ⟨hp, hl⟩ := decode_none.mp hy
      have hx : pass D limits true x = .error .Incomplete := by
        by_contra hne
        exact hne ((node_steady.settled x (x ++ y) _ (prefix_append x y) hne).symm.trans hp)
      have hl' : x.length ≤ limits.bytes := by
        rw [length_append] at hl
        omega
      cases h.symm.trans (decode_none.mpr ⟨hx, hl'⟩)
    | some r =>
      rcases Nat.lt_or_ge x.length r.2 with ht | hg
      · cases h.symm.trans (decode_part hy (prefix_append x y) ht)
      · have hr : (x ++ y).take r.2 <+: x := by
          rw [take_append_of_le_length hg]
          exact take_prefix _ _
        cases h.symm.trans (decode_extend hy hr)

section

variable {n : ℕ} {c : Cursor}

lemma isAsciiDigit_ofNat (hd : d < 10) : isAsciiDigit (UInt8.ofNat (48 + d)) = true := by
  interval_cases d <;> rfl

lemma decimal_digit (hb : b ∈ decimal n) : isAsciiDigit b = true := by
  obtain ⟨d, hd, rfl⟩ := mem_map.mp hb
  exact isAsciiDigit_ofNat (numeral_lt (by norm_num) hd)

lemma decimal_ne_nil : decimal n ≠ [] := fun h => numeral_ne_nil 10 n (map_eq_nil_iff.mp h)

lemma decimal_head (hb : isAsciiDigit b = false) : (decimal n).head? ≠ some b := by
  intro h
  have hm : b ∈ decimal n := mem_of_mem_head? h
  rw [decimal_digit hm] at hb
  cases hb

lemma decimal_value : numeralValue 10 ((decimal n).map fun b => b.toNat - 48) = n := by
  unfold decimal
  rw [map_map]
  have he : ∀ d ∈ numeral 10 n, (fun b : UInt8 => b.toNat - 48) (UInt8.ofNat (48 + d)) = d := by
    intro d hd
    have hl : d < 10 := numeral_lt (by norm_num) hd
    interval_cases d <;> rfl
  have hm : (numeral 10 n).map ((fun b : UInt8 => b.toNat - 48) ∘ fun d => UInt8.ofNat (48 + d)) = numeral 10 n := by
    conv_rhs => rw [← map_id (numeral 10 n)]
    exact map_congr_left he
  rw [hm, numeralValue_numeral]

lemma number_decimal (hn : n ≤ I64_MAX) : number (decimal n) = .ok n := by
  unfold number
  rw [if_neg]
  · unfold parseI64
    rw [if_neg (decimal_head rfl)]
    rw [if_neg (by simpa using decimal_ne_nil), if_neg (decimal_head rfl), decimal_value, if_pos hn]
  · simp only [Bool.or_eq_true, not_or, Bool.not_eq_true]
    refine ⟨⟨by simpa using decimal_ne_nil, ?_⟩, ?_⟩
    · rw [beq_eq_false_iff_ne]
      exact decimal_head rfl
    · rw [any_eq_false]
      rintro ⟨b, i⟩ hb
      have hd : isAsciiDigit b = true := decimal_digit (fst_mem_of_mem_zipIdx hb)
      simp [hd]

lemma lineAt_decimal (c : Cursor) (t : Bytes) :
    lineAt c (decimal n ++ (CR :: LF :: t)) = .ok (decimal n, { c with p := c.p + (decimal n).length + 2 }) := by
  have hf : (decimal n ++ (CR :: LF :: t)).findIdx? (· == LF) = some ((decimal n).length + 1) := by
    have hn : (decimal n).findIdx? (· == LF) = none := by
      rw [findIdx?_eq_none_iff]
      intro b hb
      rw [beq_eq_false_iff_ne]
      rintro rfl
      exact Bool.false_ne_true (decimal_digit hb)
    rw [findIdx?_append, hn, Option.none_or]
    have hc : (CR :: LF :: t).findIdx? (· == LF) = some 1 := rfl
    rw [hc]
    simp [Nat.add_comm]
  unfold lineAt
  rw [hf]
  dsimp only
  rw [Nat.add_sub_cancel, getElem?_append_right (Nat.le_refl _), Nat.sub_self, if_neg (by simp), take_left]
  rfl

lemma extent_decimal (hn : n ≤ I64_MAX) : extent kind nullable (decimal n) = .ok (some n) := by
  unfold extent
  have hh : decimal n ≠ ascii "?" := by
    intro h
    exact absurd (show (decimal n).head? = some 63 by rw [h]; rfl) (decimal_head rfl)
  rw [if_neg hh, number_decimal hn]
  have hu : usize n = .ok n := by
    unfold usize
    rw [if_neg (by omega), Int.toNat_natCast]
  change (if (n : ℤ) = -1 ∧
    kind = nullable then pure none else usize n >>= fun n => pure (some n) : Except DecodeError (Option ℕ)) = _
  rw [if_neg (by omega), hu]
  rfl

lemma bind_ok {β γ : Type} {p : Pass β} {q : β → Pass γ} {c' : Cursor} {b : β} (h : p c = .ok (b, c')) :
    (p >>= q) c = q b c' := by
  rw [Incremental.bind_apply, h]

lemma spend_ok (h : 0 < c.budget) : spend c = .ok ((), { c with budget := c.budget - 1 }) := by
  change (if c.budget = 0 then throw .Limit else set { c with budget := c.budget - 1 } : Pass Unit) c = _
  rw [if_neg (by omega)]
  rfl

lemma length_encodeArg (arg : Bytes) : (encodeArg arg).length = (decimal arg.length).length + arg.length + 5 := by
  simp [encodeArg, ascii]
  omega

lemma node_encodeArg (hi : input.drop c.p = encodeArg arg ++ t)
    (hb : 0 < c.budget) (hl : arg.length ≤ limits.bytes) (hm : c.p + (encodeArg arg).length ≤ I64_MAX) :
    node D limits true input (depth + 1) c = .ok (.bulk arg, ⟨c.p + (encodeArg arg).length, c.budget - 1⟩) := by
  rw [length_encodeArg] at hm ⊢
  have hk : kindOf input { c with budget := c.budget - 1 } = .ok ('$', ⟨c.p + 1, c.budget - 1⟩) := by
    rw [kindOf_apply, hi]
    rfl
  have hn : line input ⟨c.p + 1, c.budget - 1⟩ =
    .ok (decimal arg.length, ⟨c.p + 1 + (decimal arg.length).length + 2, c.budget - 1⟩) := by
    have hd : input.drop (c.p + 1) = decimal arg.length ++ (CR :: LF :: (arg ++ [CR, LF] ++ t)) := by
      rw [← drop_drop, hi]
      simp [encodeArg, ascii]
    rw [line_apply, hd, lineAt_decimal]
  have hd : input.drop (c.p + 1 + (decimal arg.length).length + 2) = arg ++ ([CR, LF] ++ t) := by
    have hu : c.p + 1 + (decimal arg.length).length + 2 =
      c.p + (ascii "$" ++ decimal arg.length ++ [CR, LF]).length := by
      simp [ascii]
      omega
    rw [hu, ← drop_drop, hi]
    unfold encodeArg
    rw [append_assoc (_ ++ _ ++ _), append_assoc (_ ++ _ ++ _), drop_left]
  have hc : blob D limits true input '$' arg.length ⟨c.p + 1 + (decimal arg.length).length + 2, c.budget - 1⟩ =
      .ok (.bulk arg, ⟨c.p + 1 + (decimal arg.length).length + 2 + arg.length + 2, c.budget - 1⟩) := by
    have hs : I64_MAX + 2 ≤ USIZE_MAX := by decide
    rw [blob_apply, hd]
    unfold blobAt
    rw [if_neg (by omega), if_neg (by dsimp only; omega), if_neg (by simp), drop_left, if_neg (by simp),
      if_neg (by simp), take_left]
    rfl
  unfold node
  rw [bind_ok (spend_ok hb), bind_ok hk, bind_ok hn, if_pos (.inl rfl), extent_decimal (by omega)]
  change blob D limits true input '$' arg.length _ = _
  rw [hc]
  simp only [Except.ok.injEq, Prod.mk.injEq, Cursor.mk.injEq, true_and, and_true]
  omega

lemma values_encodeArg {input t : Bytes} {args : List Bytes} {depth : ℕ}
    (hi : input.drop c.p = args.flatMap encodeArg ++ t)
    (hb : args.length ≤ c.budget) (hl : (args.flatMap encodeArg).length ≤ limits.bytes)
    (hm : c.p + (args.flatMap encodeArg).length ≤ I64_MAX) :
    values D (node D limits true input (depth + 1)) args.length c =
      .ok (args.map .bulk, ⟨c.p + (args.flatMap encodeArg).length, c.budget - args.length⟩) := by
  induction args generalizing c with
  | nil => rfl
  | cons arg args ih =>
    rw [flatMap_cons, length_append] at hl hm
    rw [length_cons] at hb
    have hn := length_encodeArg arg
    have hh : node D limits true input (depth + 1) c =
      .ok (.bulk arg, ⟨c.p + (encodeArg arg).length, c.budget - 1⟩) := by
      refine node_encodeArg (t := args.flatMap encodeArg ++ t) ?_ (by omega) (by omega) (by omega)
      rw [hi, flatMap_cons, append_assoc]
    have ha := ih (c := ⟨c.p + (encodeArg arg).length, c.budget - 1⟩)
      (by rw [← drop_drop, hi, flatMap_cons, append_assoc, drop_left]) (by dsimp only; omega) (by omega)
      (by dsimp only; omega)
    rw [length_cons]
    unfold values
    rw [bind_ok hh, bind_ok ha]
    change Except.ok (_, _) = _
    simp only [flatMap_cons, length_append, map_cons, Except.ok.injEq, Prod.mk.injEq, Cursor.mk.injEq, true_and]
    omega

lemma length_le_encodeArgs (args : List Bytes) : args.length ≤ (args.flatMap encodeArg).length := by
  induction args with
  | nil => exact Nat.le_refl _
  | cons arg args ih =>
    rw [flatMap_cons, length_append, length_cons, length_encodeArg]
    omega

/-- Commands within the limits: of items, depth and bytes, and of what a buffer can hold. -/
structure Admitted (limits : Limits) (args : List Bytes) : Prop where
  items : args.length + 1 ≤ limits.items
  depth : args ≠ [] → 1 ≤ limits.depth
  bytes : (encodeCommand args).length ≤ limits.bytes
  buffer : (encodeCommand args).length ≤ I64_MAX

lemma decode_encodeCommand (h : Admitted limits args) (rest : Bytes) :
    decode D limits (encodeCommand args ++ rest) =
      .ok (some (.array (args.map .bulk), (encodeCommand args).length)) := by
  have hl : (encodeCommand args).length = (decimal args.length).length + 3 + (args.flatMap encodeArg).length := by
    simp [encodeCommand, ascii]
    omega
  obtain ⟨_, he, hb, hu⟩ := h
  rw [hl] at hb hu
  set input := encodeCommand args ++ rest with hi
  have hk : kindOf input ⟨0, limits.items - 1⟩ = .ok ('*', ⟨1, limits.items - 1⟩) := by
    rw [kindOf_apply, hi]
    rfl
  have hf : line input ⟨1, limits.items - 1⟩ =
    .ok (decimal args.length, ⟨1 + (decimal args.length).length + 2, limits.items - 1⟩) := by
    have hr : input.drop 1 = decimal args.length ++ (CR :: LF :: (args.flatMap encodeArg ++ rest)) := by
      simp [hi, encodeCommand, ascii]
    rw [line_apply, hr, lineAt_decimal]
  have hc : args.length ≤ I64_MAX := by
    have hg := length_le_encodeArgs args
    omega
  have hv : values D (node D limits true input limits.depth) args.length
    ⟨1 + (decimal args.length).length + 2, limits.items - 1⟩ =
      .ok (args.map .bulk, ⟨(encodeCommand args).length, limits.items - 1 - args.length⟩) := by
    rcases hd : limits.depth with _ | depth
    · obtain rfl : args = [] := by
        by_contra hne
        have := he hne
        omega
      rfl
    · have hr : input.drop (1 + (decimal args.length).length + 2) = args.flatMap encodeArg ++ rest := by
        have hs : 1 + (decimal args.length).length + 2 = (ascii "*" ++ decimal args.length ++ [CR, LF]).length := by
          simp [ascii]
          omega
        rw [hs, hi, encodeCommand, append_assoc (_ ++ _ ++ _), drop_left]
      rw [values_encodeArg hr (by dsimp only; omega) (by omega) (by dsimp only; omega)]
      simp only [Except.ok.injEq, Prod.mk.injEq, Cursor.mk.injEq, true_and, and_true]
      omega
  refine decode_some.mpr ⟨⟨(encodeCommand args).length, limits.items - 1 - args.length⟩, ?_, rfl, hl ▸ hb⟩
  unfold pass node
  rw [bind_ok (spend_ok (by dsimp only; omega)), bind_ok hk, bind_ok hf, if_neg (by decide), if_pos (.inl rfl),
    extent_decimal hc]
  change aggregate D true _ '*' args.length _ = _
  unfold aggregate
  have hm : withinBudget args.length ⟨1 + (decimal args.length).length + 2, limits.items - 1⟩ =
      .ok ((), ⟨1 + (decimal args.length).length + 2, limits.items - 1⟩) := by
    change (if args.length > limits.items - 1 then throw .Limit else pure () : Pass Unit) _ = _
    rw [if_neg (by omega)]
    rfl
  rw [if_neg (by decide), bind_ok hm, bind_ok hv]
  rfl

end

theorem resp_codec_laws (D : Doubles) (limits : Limits) :
    (∀ x v n, decode D limits x = .ok (some (v, n)) → n ≤ x.length ∧
      (∀ y, x.take n <+: y → decode D limits y = .ok (some (v, n))) ∧
        ∀ z, z <+: x.take n → z ≠ x.take n → decode D limits z = .ok none) ∧
    (∀ x e, decode D limits x = .error e → ∀ y, ∃ e', decode D limits (x ++ y) = .error e') ∧
    (∀ input depth c, (node D limits true input depth c).map Prod.snd =
      (node D limits false input depth c).map Prod.snd) ∧
    ∀ args rest, Admitted limits args →
      decode D limits (encodeCommand args ++ rest) =
        .ok (some (.array (args.map .bulk), (encodeCommand args).length)) := by
  refine ⟨fun x v n h => ⟨decode_length h, fun y hy => decode_extend h hy, fun z hz hn => ?_⟩,
    fun x e h y => decode_error h,
    fun input depth c => node_twin input depth c, fun args rest h => decode_encodeCommand h rest⟩
  have hl : z.length ≤ (x.take n).length := hz.length_le
  have ht : z.length < n := by
    rcases Nat.lt_or_ge z.length (x.take n).length with ht | hg
    · rw [length_take] at ht
      omega
    · exact (hn (hz.eq_of_length (Nat.le_antisymm hl hg))).elim
  exact decode_part h (hz.trans ( take_prefix n x)) ht

theorem resp_codec_laws_ping :
    let D : Doubles := ⟨ℕ, 0, 0, 0, fun _ => none⟩
    let limits : Limits := ⟨64, 8, 2⟩
    decode D limits (encodeCommand [ascii "PING"] ++ ascii "+") = .ok (some (.array [.bulk (ascii "PING")], 14)) ∧
      decode D limits (ascii "*1\r") = .ok none ∧ ∃ e, decode D limits (ascii "*x\r\n" ++ ascii "0") = .error e := by
  intro D limits
  obtain ⟨h₁, h₂, -, h₄⟩ := resp_codec_laws D limits
  have hp := h₄ [ascii "PING"] (ascii "+") ⟨by decide, by decide, by decide, by decide⟩
  refine ⟨hp, ?_, h₂ _ .Invalid rfl _⟩
  exact (h₁ _ _ _ hp).2.2 _ (by decide) (by decide)

end Turnloop.Redis
