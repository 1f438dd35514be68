import Turnloop.Hpack.Table
import Turnloop.Http2.Connection

/-! The codec of a connection's header blocks. -/

namespace Turnloop.Hpack

open Lib Http2

variable {α β : Type} {r : Result α} {e : Error} {limit size : ℕ} {t : Table} {input : Bytes}

/-- The only error of `r` is that of an invalid block. -/
def Blames (r : Result α) : Prop := ∀ e, r = .error e → e = bad

namespace Blames

lemma ok (a : α) : Blames (.ok a) := fun _ h => by cases h

lemma bad : Blames (.error Hpack.bad : Result α) := by
  rintro _ ⟨⟩
  rfl

lemma bind {f : α → Result β} (h : Blames r) (hf : ∀ a, Blames (f a)) : Blames (r >>= f) := by
  cases r with
  | ok a => exact hf a
  | error e => exact fun e' he => h e' (by cases he; rfl)

end Blames

lemma moreGroups_blames (n shift : ℕ) (input : Bytes) : Blames (moreGroups n shift input) := by
  induction input generalizing n shift with
  | nil => exact .bad
  | cons b rest ih =>
    unfold moreGroups
    dsimp only
    split_ifs
    · exact .bad
    · exact .bad
    · exact .ok _
    · exact ih _ _

lemma integer_blames (bits : ℕ) (input : Bytes) : Blames (integer bits input) := by
  cases input with
  | nil => exact .bad
  | cons b rest =>
    unfold integer
    dsimp only
    split_ifs
    · exact .ok _
    · exact moreGroups_blames _ _ _

lemma bit_blames (w : Walk) (value : Bool) : Blames (w.bit limit value) := by
  unfold Walk.bit
  split
  · exact .bad
  · split_ifs
    · exact .bad
    · exact .ok _
  · exact .ok _

lemma foldlM_bit_blames (bs : List Bool) (w : Walk) : Blames (bs.foldlM (Walk.bit limit) w) := by
  induction bs generalizing w with
  | nil => exact .ok _
  | cons b bs ih => exact (bit_blames w b).bind ih

lemma huffmanDecode_blames (input : Bytes) (limit : ℕ) : Blames (huffmanDecode input limit) := by
  refine (foldlM_bit_blames _ _).bind fun w => ?_
  split_ifs
  · exact .bad
  · exact .ok _

lemma string_blames (limit : ℕ) (input : Bytes) : Blames (string limit input) := by
  cases input with
  | nil => exact .bad
  | cons b rest =>
    refine (integer_blames 7 _).bind fun p => ?_
    dsimp only
    split_ifs
    · exact .bad
    · exact (huffmanDecode_blames _ _).bind fun _ => .ok _
    · exact .bad
    · exact .ok _

lemma get_blames (t : Table) (index : ℕ) : Blames (t.get index) := by
  unfold Table.get
  split_ifs
  · exact .bad
  · split
    · exact .ok _
    · exact .bad
  · split
    · exact .ok _
    · exact .bad

namespace Decoder

lemma literal_blames (indexed : Bool) : Blames (literal limit size t indexed input) := by
  refine (integer_blames _ _).bind fun p => Blames.bind ?_ fun q => (string_blames _ _).bind fun _ => .ok _
  split_ifs
  · refine (string_blames _ _).bind fun s => ?_
    dsimp only
    split
    · exact .ok _
    · exact .bad
  · exact (get_blames _ _).bind fun _ => .ok _

lemma field_blames (b : UInt8) : Blames (field limit size t b input) := by
  unfold field
  split_ifs
  · exact (integer_blames _ _).bind fun p => (get_blames _ _).bind fun _ => .ok _
  · exact literal_blames _

/-- A refused block is an invalid one, or one whose list is too long. -/
lemma block_code (d : Decoder) (fuel : ℕ) (t : Table) (size : ℕ) (out : List Header) (input : Bytes)
    (h : (d.block fuel t size out input).1 = .error e) :
    e.code = .COMPRESSION_ERROR ∨ e.code = .ENHANCE_YOUR_CALM := by
  have hb : ∀ {e : Error}, e = bad → e.code = .COMPRESSION_ERROR ∨ e.code = .ENHANCE_YOUR_CALM := by
    rintro _ rfl
    exact .inl rfl
  induction fuel generalizing t size out input with
  | zero => cases h
  | succ fuel ih =>
    cases input with
    | nil => cases h
    | cons b input =>
      unfold block at h
      split_ifs at h
      · exact hb (Blames.bad _ h)
      · split at h
        · next hi =>
          cases h
          exact hb (integer_blames _ _ _ hi)
        · split_ifs at h
          · exact hb (Blames.bad _ h)
          · exact ih _ _ _ _ h
      · split at h
        · next hf =>
          cases h
          exact hb (field_blames b _ hf)
        · split_ifs at h
          · exact hb (Blames.bad _ h)
          · cases h
            exact .inr rfl
          · exact ih _ _ _ _ h

lemma decode_code (d : Decoder) (input : Bytes) (h : (d.decode input).1 = .error e) :
    e.code = .COMPRESSION_ERROR ∨ e.code = .ENHANCE_YOUR_CALM := by
  unfold decode at h
  split_ifs at h
  · cases h
    exact .inl rfl
  · dsimp only at h
    split at h
    · cases h
    · next hb => exact block_code d _ _ _ _ _ (hb.trans h)

end Decoder

end Turnloop.Hpack

namespace Turnloop.Http2

def Codec.hpack : Codec where
  Decoder := Hpack.Decoder
  Encoder := Hpack.Encoder
  decoder := Hpack.Decoder.new
  decode d block := d.decode block
  setMaxListSize d size := { d with maxListSize := size }
  encoder := Hpack.Encoder.new
  encode e headers := e.encode headers
  setTableSize e size := e.setTableSize size
  decode_code d block _ := d.decode_code block

end Turnloop.Http2
