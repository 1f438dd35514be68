import Turnloop.Hpack.RoundTrip

/-! What a peer can make a decoder keep, and what an encoder never keeps. -/

namespace Turnloop.Hpack

open Lib Http2 List

namespace Decoder

structure Within (allowed : ℕ) (t : Table) : Prop where
  sound : t.Sound
  bound : t.max ≤ allowed

lemma Within.add (h : Within n t) : Within n (t.add f) :=
  ⟨Table.add_sound h.sound, (Table.add_max h.sound).trans_le h.bound⟩

lemma Within.resize (h : Within n t) (hm : k ≤ n) : Within n (t.resize k) := by
  refine ⟨Table.resize_sound h.sound.bytes k, ?_⟩
  rw [Table.resize_eq h.sound.bytes]
  exact hm

lemma literal_within (h : Within n t) (hr : literal m size t indexed input = .ok (f, rest, t')) : Within n t' := by
  unfold literal at hr
  simp only [bind, Except.bind, pure, Except.pure] at hr
  split at hr
  · cases hr
  · split at hr
    · cases hr
    · split at hr
      · cases hr
      · cases hr
        split_ifs
        · exact h.add
        · exact h

lemma field_within (h : Within n t) (hr : field m size t b input = .ok (f, rest, t')) : Within n t' := by
  unfold field at hr
  split_ifs at hr
  · simp only [bind, Except.bind, pure, Except.pure] at hr
    split at hr
    · cases hr
    · split at hr
      · cases hr
      · cases hr
        exact h
  · exact literal_within h hr

lemma block_within {d : Decoder} (fuel : ℕ) (input : Bytes) (h : Within d.allowed t) (hs : total out = size)
    (hm : size ≤ d.maxListSize) :
    Within d.allowed (d.block fuel t size out input).2 ∧ ∀ fs, (d.block fuel t size out input).1 = .ok fs →
      total fs ≤ d.maxListSize := by
  have hd : ∀ fs, (.ok out : Result (List Header)) = .ok fs → total fs ≤ d.maxListSize := by
    rintro _ ⟨⟩
    exact hs.trans_le hm
  induction fuel generalizing t size out input with
  | zero => exact ⟨h, hd⟩
  | succ fuel ih =>
    cases input with
    | nil => exact ⟨h, hd⟩
    | cons b input =>
      rw [block]
      split_ifs with hu ho
      · exact ⟨h, by rintro _ ⟨⟩⟩
      · cases integer 5 (b :: input) with
        | error e => exact ⟨h, by rintro _ ⟨⟩⟩
        | ok r =>
          dsimp only
          split_ifs with hn
          · exact ⟨h, by rintro _ ⟨⟩⟩
          · exact ih _ (h.resize (not_lt.mp hn)) hs hm hd
      · cases hf : field d.maxListSize size t b (b :: input) with
        | error e => exact ⟨h, by rintro _ ⟨⟩⟩
        | ok r =>
          have hw := field_within h hf
          dsimp only
          split_ifs with ha hb
          · exact ⟨hw, by rintro _ ⟨⟩⟩
          · exact ⟨hw, by rintro _ ⟨⟩⟩
          · have ht : total (out ++ [r.1]) = size + fieldSize r.1 := by rw [total_append, hs]; rfl
            have hl := not_lt.mp hb
            exact ih _ hw ht hl fun fs he => Except.ok.inj he ▸ ht.trans_le hl

/-- All the input of a connection: a peer's blocks in turn. -/
def decodeAll (d : Decoder) (inputs : List Bytes) : Decoder := inputs.foldl (fun d input => (d.decode input).2) d

structure Bounded (tableSize maxListSize : ℕ) (d : Decoder) : Prop where
  within : Within tableSize d.table
  allowed : d.allowed = tableSize
  list : d.maxListSize = maxListSize

lemma decode_bounded (h : Bounded n m d) (input : Bytes) : Bounded n m (d.decode input).2 ∧
    match (d.decode input).1 with
    | .ok fs => total fs ≤ m
    | .error _ => (d.decode input).2.failed = true := by
  obtain ⟨hw, rfl, rfl⟩ := h
  obtain ⟨hb, hl⟩ := block_within input.length input hw (rfl : total [] = 0) (Nat.zero_le _)
  unfold decode
  split_ifs with hf
  · exact ⟨⟨hw, rfl, rfl⟩, hf⟩
  · dsimp only
    cases hr : (d.block input.length d.table 0 [] input).1 with
    | ok out => exact ⟨⟨hb, rfl, rfl⟩, hl out hr⟩
    | error e => exact ⟨⟨hb, rfl, rfl⟩, rfl⟩

lemma decode_failed (hf : failed d = true) (input : Bytes) :
    d.decode input = (.error bad, d) := by rw [decode, if_pos hf]

lemma decodeAll_failed (hf : failed d = true) (inputs : List Bytes) : d.decodeAll inputs = d := by
  induction inputs with
  | nil => rfl
  | cons input inputs ih => rwa [decodeAll, foldl_cons, decode_failed hf]

theorem decoder_bounded (tableSize maxListSize : ℕ) (inputs : List Bytes) :
    let d := (new tableSize maxListSize).decodeAll inputs
    total d.table.entries = d.table.bytes ∧ d.table.bytes ≤ d.table.max ∧ d.table.max ≤ tableSize ∧
    ∀ input, match (d.decode input).1 with
      | .ok fs => total fs ≤ maxListSize
      | .error _ => ∀ inputs input', (((d.decode input).2.decodeAll inputs).decode input').1 = .error bad := by
  have hd : Bounded tableSize maxListSize ((new tableSize maxListSize).decodeAll inputs) :=
    foldlRecOn inputs _ ⟨⟨⟨rfl, Nat.zero_le _⟩, le_rfl⟩, rfl, rfl⟩ fun _ h input _ => (decode_bounded h input).1
  refine ⟨hd.within.sound.bytes.symm, hd.within.sound.bound, hd.within.bound, fun input => ?_⟩
  have hr := (decode_bounded hd input).2
  revert hr
  cases (decode input _).1 with
  | ok fs => exact id
  | error e =>
    intro hf inputs' input'
    rw [decodeAll_failed hf, decode_failed hf]

end Decoder

lemma mem_fit (hx : x ∈ fit limit es) : x ∈ es := by
  induction es generalizing limit with
  | nil => exact hx
  | cons h es ih =>
    rw [fit] at hx
    split_ifs at hx
    · exact (mem_cons.mp hx).elim (fun he => he ▸ mem_cons_self) fun hm => mem_cons_of_mem _ (ih hm)
    · cases hx

namespace Encoder

/-- Sensitive values are in no table, so that no later block can refer to one. -/
structure Discreet (t : Table) : Prop where
  sound : t.Sound
  plain : ∀ f ∈ t.entries, sensitive f.name = false

lemma field_discreet (h : Discreet t) (f : Header) : Discreet (field t f).2 := by
  refine ⟨(field_sound h.sound).1, ?_⟩
  unfold field
  split
  · exact h.plain
  · dsimp only
    split_ifs with hf
    · exact h.plain
    · rw [Table.add_eq h.sound]
      split_ifs
      · exact nofun
      · exact forall_mem_cons.mpr ⟨Bool.eq_false_iff.mpr hf, fun x hx => h.plain x (mem_fit hx)⟩

lemma fields_discreet (h : Discreet t) (headers : List Header) : Discreet (fields t headers).2 := by
  induction headers generalizing t with
  | nil => exact h
  | cons f headers ih => exact ih (field_discreet h f)

def exec (e : Encoder) : Op → Encoder
  | .setTableSize size => e.setTableSize size
  | .encode headers => (e.encode headers).2

lemma exec_discreet (h : Discreet e.table) (op : Op) : Discreet (exec e op).table := by
  cases op with
  | setTableSize size =>
    refine ⟨Table.resize_sound h.sound.bytes size, ?_⟩
    rw [exec, Encoder.setTableSize, Table.resize_eq h.sound.bytes]
    exact fun f hf => h.plain f (mem_fit hf)
  | encode headers => exact fields_discreet h headers

theorem sensitive_never_stored (tableSize : ℕ) (ops : List Op) : let e := ops.foldl exec (new tableSize)
    (∀ f ∈ e.table.entries, sensitive f.name = false) ∧ ∀ h, sensitive h.name = true →
      ∃ b rest, (field e.table h).1 = b :: rest ∧ b.toNat &&& 0xf0 = 0x10 := by
  have h0 : Discreet (new tableSize).table := ⟨⟨rfl, Nat.zero_le _⟩, nofun⟩
  have hd := foldlRecOn (motive := fun e => Discreet e.table) ops exec h0 fun _ h op _ => exec_discreet h op
  refine ⟨hd.plain, fun h hs => ?_⟩
  have hm : ∀ u < 2 ^ 4, (UInt8.ofNat (16 ||| u)).toNat &&& 0xf0 = 0x10 := by decide
  simp only [field, hs, if_true]
  obtain ⟨u, hu, tail, he⟩ := encodeInteger_cons ((Table.find _ h.name none).getD 0) 4 16
  rw [he]
  exact ⟨_, _, rfl, hm u hu⟩

end Encoder

end Turnloop.Hpack
