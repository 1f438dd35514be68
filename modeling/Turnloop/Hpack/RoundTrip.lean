import Turnloop.Hpack.Table

/-! An encoder and a decoder that stay in step. -/

namespace Turnloop.Hpack

open Lib Http2 List

def total (es : List Header) : ℕ := (es.map fieldSize).sum

def fit (limit : ℕ) : List Header → List Header
  | [] => []
  | h :: es => if fieldSize h ≤ limit then h :: fit (limit - fieldSize h) es else []

section

variable {limit a b : ℕ} {es : List Header} {h : Header}

lemma total_append (es es' : List Header) : total (es ++ es') = total es + total es' := by
  rw [total, map_append, sum_append]
  rfl

lemma total_fit (limit : ℕ) (es : List Header) : total (fit limit es) ≤ limit := by
  induction es generalizing limit with
  | nil => exact Nat.zero_le _
  | cons h es ih =>
    rw [fit]
    split_ifs with hl
    · have := ih (limit - fieldSize h)
      simp only [total, map_cons, sum_cons] at this ⊢
      omega
    · exact Nat.zero_le _

lemma fit_all (h : total es ≤ limit) : fit limit es = es := by
  induction es generalizing limit with
  | nil => rfl
  | cons h es ih =>
    simp only [total, map_cons, sum_cons] at h
    rw [fit, if_pos (by omega), ih (by simp only [total]; omega)]

lemma fit_concat (ho : total (es ++ [h]) > limit) : fit limit (es ++ [h]) = fit limit es := by
  induction es generalizing limit with
  | nil =>
    have hl : limit < fieldSize h := by simpa [total] using ho
    simp [fit, Nat.not_le.mpr hl]
  | cons e es ih =>
    rw [cons_append, fit, fit]
    split_ifs with he
    · rw [ih]
      simp only [total, cons_append, map_cons, sum_cons] at ho ⊢
      omega
    · rfl

lemma fit_fit (a b : ℕ) (es : List Header) : fit a (fit b es) = fit (min a b) es := by
  induction es generalizing a b with
  | nil => rfl
  | cons h es ih =>
    rw [fit]
    split_ifs with hb
    · rw [fit, fit]
      by_cases ha : fieldSize h ≤ a
      · rw [if_pos ha, if_pos (le_min ha hb), ih, Nat.sub_min_sub_right]
      · rw [if_neg ha, if_neg (by omega)]
    · rw [fit, fit, if_neg (by omega)]

end

namespace Table

variable {t : Table}

structure Sound (t : Table) : Prop where
  bytes : t.bytes = total t.entries
  bound : t.bytes ≤ t.max

lemma evictWhile_fit (he : ∀ bytes, excess bytes = decide (bytes > limit)) (hb : t.bytes = total t.entries)
    (hn : t.entries.length ≤ n) :
    evictWhile excess n t = { t with entries := fit limit t.entries, bytes := total (fit limit t.entries) } := by
  induction n generalizing t with
  | zero =>
    have hl : t.entries = [] := length_eq_zero_iff.mp (by omega)
    obtain ⟨entries, bytes, _⟩ := t
    obtain rfl : entries = [] := hl
    obtain rfl : bytes = 0 := hb
    rfl
  | succ n ih =>
    rw [evictWhile, he, hb]
    by_cases ho : total t.entries > limit
    · rw [decide_eq_true ho, if_pos rfl]
      rcases eq_nil_or_concat t.entries with hl | ⟨es, h, hs⟩
      · rw [hl] at ho
        exact (Nat.not_lt_zero _ ho).elim
      · have hv : t.evict = { t with entries := es, bytes := total es } := by
          unfold evict
          rw [hs, concat_eq_append, getLast?_concat]
          rw [dropLast_concat, hb, hs, concat_eq_append, total_append]
          simp [total]
        rw [hs, length_concat] at hn
        rw [hv, ih rfl (by dsimp only; omega), hs, concat_eq_append, fit_concat (concat_eq_append ▸ hs ▸ ho)]
    · rw [decide_eq_false ho, if_neg Bool.false_ne_true, fit_all (Nat.not_lt.mp ho), ← hb]

lemma resize_eq (hb : t.bytes = total t.entries) (max : ℕ) :
    t.resize max = ⟨fit max t.entries, total (fit max t.entries), max⟩ := by
  rw [resize, evictWhile_fit (t := { t with max := max }) (fun _ => rfl) hb (Nat.le_refl _)]

lemma resize_sound (hb : t.bytes = total t.entries) (max : ℕ) : (t.resize max).Sound := by
  rw [resize_eq hb]
  exact ⟨rfl, total_fit _ _⟩

lemma resize_resize (hb : t.bytes = total t.entries) (a b : ℕ) :
    (t.resize a).resize b = ⟨fit (min b a) t.entries, total (fit (min b a) t.entries), b⟩ := by
  rw [resize_eq (resize_sound hb a).bytes, resize_eq hb, fit_fit]

lemma add_eq (hs : t.Sound) : t.add h = if fieldSize h > t.max then ⟨[], 0, t.max⟩
    else ⟨h :: fit (t.max - fieldSize h) t.entries, total
      (fit (t.max - fieldSize h) t.entries) + fieldSize h, t.max⟩ := by
  unfold add
  split_ifs with hb
  · rfl
  · rw [evictWhile_fit (fun bytes => ?_) hs.bytes (Nat.le_refl _)]
    rw [decide_eq_decide]
    omega

lemma add_sound (hs : t.Sound) : (t.add h).Sound := by
  have hf := total_fit (t.max - fieldSize h) t.entries
  rw [add_eq hs]
  split_ifs with hb
  · exact ⟨rfl, Nat.zero_le _⟩
  · exact ⟨Nat.add_comm _ _, by dsimp only; omega⟩

lemma add_max (hs : t.Sound) : (t.add h).max = t.max := by
  rw [add_eq hs]
  split_ifs <;> rfl

lemma find_get (h : t.find name value = some i) :
    1 ≤ i ∧ i ≤ 61 + t.entries.length ∧ ∃ e, t.get i = .ok e ∧ e.name = name ∧ ∀ v, value = some v → e.value = v := by
  have hm := mem_of_find?_eq_some h
  have ha := find?_some h
  rw [mem_range'_1] at hm
  refine ⟨hm.1, by omega, ?_⟩
  unfold matches? at ha
  cases hg : t.get i with
  | error => rw [hg] at ha; cases ha
  | ok e =>
    rw [hg] at ha
    simp only [Bool.and_eq_true, beq_iff_eq] at ha
    refine ⟨e, rfl, ha.1, fun v hv => ?_⟩
    subst hv
    exact (show v = e.value by simpa using ha.2).symm

lemma index_le (hs : t.Sound) (hm : t.max ≤ USIZE_MAX) (hi : i ≤ 61 + t.entries.length) : i ≤ USIZE_MAX := by
  have hl : ∀ es : List Header, 32 * es.length ≤ total es := by
    intro es
    induction es with
    | nil => exact Nat.le_refl _
    | cons h es ih =>
      simp only [total, map_cons, sum_cons, length_cons] at ih ⊢
      have : 32 ≤ fieldSize h := Nat.le_add_left _ _
      omega
  have := hl t.entries
  have := hs.bytes
  have := hs.bound
  have : USIZE_MAX = 2 ^ 64 - 1 := rfl
  omega

end Table

section

variable {t : Table} {size maxListSize : ℕ} {h : Header} {rest : Bytes}

lemma marks : (∀ u < 2 ^ 7, (UInt8.ofNat (128 ||| u)).toNat &&& 0xe0 ≠ 0x20 ∧
    (UInt8.ofNat (128 ||| u)).toNat &&& 128 ≠ 0) ∧
    (∀ u < 2 ^ 6, (UInt8.ofNat (64 ||| u)).toNat &&& 0xe0 ≠ 0x20 ∧ (UInt8.ofNat (64 ||| u)).toNat &&& 128 = 0 ∧
      (UInt8.ofNat (64 ||| u)).toNat &&& 64 ≠ 0) ∧
    (∀ u < 2 ^ 4, (UInt8.ofNat (16 ||| u)).toNat &&& 0xe0 ≠ 0x20 ∧ (UInt8.ofNat (16 ||| u)).toNat &&& 128 = 0 ∧
      (UInt8.ofNat (16 ||| u)).toNat &&& 64 = 0) ∧
    ∀ u < 2 ^ 5, (UInt8.ofNat (0x20 ||| u)).toNat &&& 0xe0 = 0x20 := by
  decide +kernel

lemma literal_eq (hs : ∀ rest, integer (if indexed then 6 else 4) (start ++ rest) = .ok (index, rest))
    (hi : t.find h.name none = some index ∨ index = 0) (hf : size + fieldSize h ≤ maxListSize)
    (hm : maxListSize ≤ USIZE_MAX) :
    Decoder.literal maxListSize size t indexed
        (start ++ (if index = 0 then emitString (nameBytes h.name) else []) ++ emitString h.value ++ rest) =
      .ok (h, rest, if indexed then t.add h else t) := by
  have hb : fieldSize h = (nameBytes h.name).length + h.value.length + 32 := rfl
  have hv : string (maxListSize - (size + (nameBytes h.name).length)) (emitString h.value ++ rest) =
    .ok (h.value, rest) :=
    string_emitString (by omega) (by omega)
  unfold Decoder.literal
  rw [append_assoc, append_assoc, hs]
  by_cases hz : index = 0
  · rw [if_pos hz]
    have hn : string (maxListSize - size) (emitString (nameBytes h.name) ++ (emitString h.value ++ rest)) =
        .ok (nameBytes h.name, emitString h.value ++ rest) := string_emitString (by omega) (by omega)
    simp only [Bind.bind, Except.bind, if_pos hz, hn, fromUtf8_nameBytes, Pure.pure, Except.pure, hv]
  · rw [if_neg hz, nil_append]
    obtain ⟨-, -, e, hg, hn, -⟩ := Table.find_get (hi.resolve_right hz)
    simp only [Bind.bind, Except.bind, if_neg hz, hg, hn, Pure.pure, Except.pure, hv]

lemma indexed_eq (hs : t.Sound) (ha : t.max ≤ USIZE_MAX) (hf : t.find h.name (some h.value) = some index) :
    ∃ b tail, encodeInteger index 7 128 = b :: tail ∧ b.toNat &&& 0xe0 ≠ 0x20 ∧
      Decoder.field maxListSize size t b (encodeInteger index 7 128 ++ rest) = .ok (h, rest, t) := by
  obtain ⟨u, hu, tail, hc⟩ := encodeInteger_cons index 7 128
  obtain ⟨hp, hm⟩ := marks.1 u hu
  obtain ⟨-, hl, e, hg, hn, hv⟩ := Table.find_get hf
  have he : e = h := by
    cases e
    cases h
    cases hn
    cases hv _ rfl
    rfl
  refine ⟨_, tail, hc, hp, ?_⟩
  have hi : integer 7 (encodeInteger index 7 128 ++ rest) = .ok (index, rest) :=
    integer_encodeInteger (a := 1) rfl (by norm_num) (Table.index_le hs ha hl)
  unfold Decoder.field
  rw [if_pos hm, hi]
  simp only [Bind.bind, Except.bind, hg, Pure.pure, Except.pure, he]

lemma field_eq (rest : Bytes) (hs : t.Sound) (ha : t.max ≤ USIZE_MAX) (hi : size + fieldSize h ≤ maxListSize)
    (hm : maxListSize ≤ USIZE_MAX) :
    ∃ b tail, (Encoder.field t h).1 = b :: tail ∧ b.toNat &&& 0xe0 ≠ 0x20 ∧
      Decoder.field maxListSize size t b ((Encoder.field t h).1 ++ rest) = .ok (h, rest, (Encoder.field t h).2) := by
  have hx : t.find h.name none = some ((t.find h.name none).getD 0) ∨ (t.find h.name none).getD 0 = 0 := by
    cases t.find h.name none with
    | none => exact .inr rfl
    | some => exact .inl rfl
  have hb : (t.find h.name none).getD 0 ≤ USIZE_MAX := by
    cases hf : t.find h.name none with
    | none => exact Nat.zero_le _
    | some => exact Table.index_le hs ha (Table.find_get hf).2.1
  unfold Encoder.field
  by_cases he : Encoder.sensitive h.name = true
  · simp only [if_pos he]
    obtain ⟨u, hu, tail, hc⟩ := encodeInteger_cons ((t.find h.name none).getD 0) 4 16
    obtain ⟨hp, hr, hl⟩ := marks.2.2.1 u hu
    refine ⟨_, _, by rw [hc]; rfl, hp, ?_⟩
    unfold Decoder.field
    rw [if_neg (not_not.mpr hr), decide_eq_false (not_not.mpr hl)]
    exact literal_eq (fun rest => integer_encodeInteger (a := 1) rfl (by norm_num) hb) hx hi hm
  · simp only [if_neg he]
    cases hn : t.find h.name (some h.value) with
    | some => exact indexed_eq hs ha hn
    | none =>
      obtain ⟨u, hu, tail, hc⟩ := encodeInteger_cons ((t.find h.name none).getD 0) 6 64
      obtain ⟨hp, hr, hl⟩ := marks.2.1 u hu
      refine ⟨_, _, by rw [hc]; rfl, hp, ?_⟩
      unfold Decoder.field
      rw [if_neg (not_not.mpr hr), decide_eq_true hl]
      exact literal_eq (fun rest => integer_encodeInteger (a := 1) rfl (by norm_num) hb) hx hi hm

lemma field_sound (hs : t.Sound) : (Encoder.field t h).2.Sound ∧ (Encoder.field t h).2.max = t.max := by
  unfold Encoder.field
  split
  · exact ⟨hs, rfl⟩
  · dsimp only
    split_ifs
    · exact ⟨hs, rfl⟩
    · exact ⟨Table.add_sound hs, Table.add_max hs⟩

lemma fields_sound (headers : List Header) (ht : t.Sound) : (Encoder.fields t headers).2.Sound ∧
    (Encoder.fields t headers).2.max = t.max := by
  induction headers generalizing t with
  | nil => exact ⟨ht, rfl⟩
  | cons h headers ih =>
    obtain ⟨hd, hm⟩ := field_sound (h := h) ht
    obtain ⟨hs', hm'⟩ := ih hd
    exact ⟨hs', hm'.trans hm⟩

lemma block_fields {d : Decoder} (hs : t.Sound) (ha : t.max ≤ USIZE_MAX)
    (hf : size + total headers ≤ d.maxListSize) (hm : d.maxListSize ≤ USIZE_MAX)
    (hu : (Encoder.fields t headers).1.length ≤ fuel) :
    d.block fuel t size out (Encoder.fields t headers).1 = (.ok (out ++ headers), (Encoder.fields t headers).2) := by
  induction headers generalizing t size out fuel with
  | nil =>
    rw [append_nil]
    cases fuel <;> rfl
  | cons h headers ih =>
    simp only [total, map_cons, sum_cons] at hf
    obtain ⟨b, _, hc, hp, hl⟩ := field_eq (Encoder.fields (Encoder.field t h).2 headers).1 hs ha
      (show size + fieldSize h ≤ d.maxListSize by omega) hm
    obtain ⟨hd, hm'⟩ := field_sound (h := h) hs
    rw [Encoder.fields, length_append, hc, length_cons] at hu
    obtain ⟨fuel, rfl⟩ : ∃ n, fuel = n + 1 := ⟨fuel - 1, by omega⟩
    rw [Encoder.fields]
    rw [hc] at hl ⊢
    rw [cons_append] at hl ⊢
    rw [Decoder.block, if_neg hp, hl]
    dsimp only
    rw [if_neg (by omega), if_neg (by omega), ih hd (hm'.trans_le ha) (by rw [total]; omega) (by omega), append_assoc]
    rfl

end

lemma block_update {d : Decoder} (hn : n ≤ d.allowed) (ha : d.allowed ≤ USIZE_MAX)
    (hf : (encodeInteger n 5 0x20 ++ rest).length ≤ fuel) :
    ∃ k, rest.length ≤ k ∧ d.block fuel t 0 [] (encodeInteger n 5 0x20 ++ rest) = d.block k (t.resize n) 0 [] rest := by
  obtain ⟨u, hu, _, hc⟩ := encodeInteger_cons n 5 0x20
  have hi : integer 5 (encodeInteger n 5 0x20 ++ rest) = .ok (n, rest) :=
    integer_encodeInteger (a := 1) rfl (by norm_num) (by omega)
  rw [hc, cons_append] at hi hf ⊢
  rw [length_cons, length_append] at hf
  obtain ⟨k, rfl⟩ : ∃ k, fuel = k + 1 := ⟨fuel - 1, by omega⟩
  refine ⟨k, by omega, ?_⟩
  rw [Decoder.block, if_pos (marks.2.2.2 u hu), hi, if_neg (by simp)]
  exact if_neg (by omega)

structure InStep (e : Encoder) (d : Decoder) : Prop where
  live : d.failed = false
  sound : d.table.Sound
  bound : d.table.max ≤ d.allowed
  table : match e.pending with
    | none => e.table = d.table
    | some (least, last) => least ≤ last ∧ last ≤ d.allowed ∧ e.table = (d.table.resize least).resize last

namespace InStep

variable {e : Encoder} {d : Decoder}

lemma setTableSize (h : InStep e d) (hn : n ≤ d.allowed) : InStep (e.setTableSize n) d := by
  have ha := h.table
  refine ⟨h.live, h.sound, h.bound, ?_⟩
  unfold Encoder.setTableSize
  cases hp : e.pending with
  | none =>
    rw [hp] at ha
    obtain ha : e.table = d.table := ha
    refine ⟨Nat.le_refl _, hn, ?_⟩
    rw [Option.map_none, Option.getD_none, Table.resize_resize h.sound.bytes, ha,
      Table.resize_eq h.sound.bytes, Nat.min_self]
  | some p =>
    rw [hp] at ha
    obtain ⟨_, -, ha⟩ := ha
    refine ⟨Nat.min_le_right _ _, hn, ?_⟩
    have hf : (d.table.resize p.1).bytes = total (d.table.resize p.1).entries :=
      (Table.resize_sound h.sound.bytes _).bytes
    rw [ha, Table.resize_resize hf, Option.map_some, Option.getD_some, Table.resize_resize h.sound.bytes,
      Table.resize_eq h.sound.bytes, fit_fit]
    have hm : min (min n p.2) p.1 = min n (min p.1 n) := by omega
    rw [hm]

lemma updates (h : InStep e d) (rest : Bytes) (ha : d.allowed ≤ USIZE_MAX)
    (hf : (Encoder.updates e.pending ++ rest).length ≤ fuel) :
    ∃ k, rest.length ≤ k ∧ d.block fuel d.table 0 [] (Encoder.updates e.pending ++ rest) =
      d.block k e.table 0 [] rest := by
  have ht := h.table
  cases hp : e.pending with
  | none =>
    rw [hp] at ht hf
    obtain ht : e.table = d.table := ht
    exact ⟨fuel, hf, by rw [ht]; rfl⟩
  | some p =>
    obtain ⟨le, _⟩ := p
    rw [hp] at ht hf
    obtain ⟨_, hl, ht⟩ := ht
    rw [Encoder.updates, append_assoc] at hf ⊢
    obtain ⟨k, hk, hi⟩ := block_update (t := d.table) (show le ≤ d.allowed by omega) ha hf
    rw [hi]
    split_ifs at hk ⊢ with he
    · refine ⟨k, hk, ?_⟩
      rw [nil_append, ht, he, Table.resize_resize h.sound.bytes, Table.resize_eq h.sound.bytes, Nat.min_self]
    · obtain ⟨k', hk', hs⟩ := block_update (t := d.table.resize le) hl ha hk
      exact ⟨k', hk', by rw [hs, ht]⟩

lemma encoder_sound (h : InStep e d) : e.table.Sound ∧ e.table.max ≤ d.allowed := by
  have ha := h.table
  cases hp : e.pending with
  | none =>
    rw [hp] at ha
    obtain ha : e.table = d.table := ha
    rw [ha]
    exact ⟨h.sound, h.bound⟩
  | some =>
    rw [hp] at ha
    obtain ⟨-, hl, ha⟩ := ha
    rw [ha]
    refine ⟨Table.resize_sound (Table.resize_sound h.sound.bytes _).bytes _, ?_⟩
    rw [Table.resize_resize h.sound.bytes]
    exact hl

lemma encode (h : InStep e d) (ha : d.allowed ≤ USIZE_MAX) (hm : d.maxListSize ≤ USIZE_MAX)
    (hf : total headers ≤ d.maxListSize) :
    d.decode (e.encode headers).1 = (.ok headers, { d with table := (e.encode headers).2.table }) ∧
      InStep (e.encode headers).2 { d with table := (e.encode headers).2.table } := by
  obtain ⟨hd, hb⟩ := h.encoder_sound
  obtain ⟨hs', hm'⟩ := fields_sound headers hd
  constructor
  · obtain ⟨k, hk, hl⟩ := h.updates (Encoder.fields e.table headers).1 ha (Nat.le_refl _)
    have hc : d.block k e.table 0 [] (Encoder.fields e.table headers).1 =
      (.ok ([] ++ headers), (Encoder.fields e.table headers).2) :=
      block_fields hd (hb.trans ha) (by omega) hm hk
    unfold Decoder.decode
    rw [if_neg (by rw [h.live]; exact Bool.false_ne_true)]
    rw [show (e.encode headers).1 = Encoder.updates e.pending ++ (Encoder.fields e.table headers).1 from rfl, hl, hc]
    rfl
  · exact ⟨h.live, hs', hm'.trans_le hb, rfl⟩

end InStep

inductive Op where
  | setTableSize (size : ℕ)
  | encode (headers : List Header)

def Agrees (e : Encoder) (d : Decoder) : List Op → Prop
  | [] => True
  | .setTableSize size :: ops => Agrees (e.setTableSize size) d ops
  | .encode headers :: ops =>
    (d.decode (e.encode headers).1).1 = .ok headers ∧
      (e.encode headers).2.table = (d.decode (e.encode headers).1).2.table ∧
      (e.encode headers).2.table.bytes ≤ (e.encode headers).2.table.max ∧ Agrees (e.encode headers).2
      (d.decode (e.encode headers).1).2 ops

lemma InStep.agrees (h : InStep e d) (ha : d.allowed ≤ USIZE_MAX) (hb : d.maxListSize ≤ USIZE_MAX)
    (ops : List Op) (sizes : ∀ n, .setTableSize n ∈ ops → n ≤ d.allowed)
    (lists : ∀ hs, .encode hs ∈ ops → total hs ≤ d.maxListSize) :
    Agrees e d ops := by
  induction ops generalizing e d with
  | nil => trivial
  | cons op ops ih =>
    have hi : ∀ n, .setTableSize n ∈ ops → n ≤ d.allowed := fun n hn => sizes n (mem_cons_of_mem _ hn)
    have hl : ∀ hs, .encode hs ∈ ops → total hs ≤ d.maxListSize := fun hs hm => lists hs (mem_cons_of_mem _ hm)
    cases op with
    | setTableSize n => exact ih (h.setTableSize (sizes n mem_cons_self)) ha hb hi hl
    | encode headers =>
      obtain ⟨hd, hp⟩ := h.encode ha hb (lists headers mem_cons_self)
      unfold Agrees
      rw [hd]
      exact ⟨rfl, rfl, hp.sound.bound, ih hp ha hb hi hl⟩

theorem hpack_round_trip (tableSize maxListSize : ℕ) (table : tableSize ≤ USIZE_MAX) (list : maxListSize ≤ USIZE_MAX)
    (ops : List Op)
    (sizes : ∀ n, .setTableSize n ∈ ops → n ≤ tableSize)
    (lists : ∀ headers, .encode headers ∈ ops → total headers ≤ maxListSize) :
    Agrees (.new tableSize) (.new tableSize maxListSize) ops :=
  InStep.agrees ⟨rfl, ⟨rfl, Nat.zero_le _⟩, Nat.le_refl _, rfl⟩ table list ops sizes lists

theorem hpack_round_trip_resized :
    Agrees (.new 4096) (.new 4096 65536)
      [.encode [⟨":method", ascii "GET"⟩, ⟨"x-a", ascii "1"⟩], .setTableSize 0, .setTableSize 100,
      .encode [⟨"cookie", ascii "a=b"⟩, ⟨"x-a", ascii "1"⟩]] := by
  refine hpack_round_trip 4096 65536 (by decide) (by decide) _ (fun n hn => ?_) fun headers hm => ?_
  · simp only [mem_cons, Op.setTableSize.injEq, reduceCtorEq, not_mem_nil, false_or, or_false] at hn
    omega
  · simp only [mem_cons, Op.encode.injEq, reduceCtorEq, not_mem_nil, false_or, or_false] at hm
    rcases hm with rfl | rfl
    · decide +kernel
    · decide +kernel

end Turnloop.Hpack
