import Turnloop.Lib.Bytes

/-! HTTP/2 frames and SETTINGS parameters, and their bytes. -/

namespace Turnloop.Http2

open List

export Lib (Bytes ascii)

inductive Code where
  | PROTOCOL_ERROR
  | FLOW_CONTROL_ERROR
  | FRAME_SIZE_ERROR
  | COMPRESSION_ERROR
  | ENHANCE_YOUR_CALM
  | REFUSED_STREAM
  | STREAM_CLOSED
  | SETTINGS_TIMEOUT
  deriving DecidableEq

structure Error where
  code : Code
  message : String
  deriving DecidableEq

abbrev Result (α : Type) := Except Error α

def protocol (message : String) : Error := ⟨.PROTOCOL_ERROR, message⟩

def frameError : Error := ⟨.FRAME_SIZE_ERROR, "invalid frame size"⟩

def u16be : Bytes → ℕ
  | a :: b :: _ => a.toNat * 2 ^ 8 + b.toNat
  | _ => 0

def u32be : Bytes → ℕ
  | a :: b :: c :: d :: _ => a.toNat * 2 ^ 24 + b.toNat * 2 ^ 16 + c.toNat * 2 ^ 8 + d.toNat
  | _ => 0

def be16 (n : ℕ) : Bytes := [UInt8.ofNat (n / 2 ^ 8), UInt8.ofNat n]

def be24 (n : ℕ) : Bytes := [UInt8.ofNat (n / 2 ^ 16), UInt8.ofNat (n / 2 ^ 8), UInt8.ofNat n]

def be32 (n : ℕ) : Bytes :=
  [UInt8.ofNat (n / 2 ^ 24), UInt8.ofNat (n / 2 ^ 16), UInt8.ofNat (n / 2 ^ 8), UInt8.ofNat n]

lemma u16be_be16 (h : n < 2 ^ 16) : u16be (be16 n ++ rest) = n := by
  simp only [be16, cons_append, u16be, UInt8.toNat_ofNat']
  omega

lemma u32be_be32 (h : n < 2 ^ 32) (rest : Bytes) : u32be (be32 n ++ rest) = n := by
  simp only [be32, cons_append, u32be, UInt8.toNat_ofNat']
  omega

structure Frame where
  kind : ℕ
  flags : ℕ
  stream : ℕ
  payload : Bytes
  deriving DecidableEq

namespace Frame

def END_STREAM (f : Frame) : Bool := f.flags.testBit 0

def ACK (f : Frame) : Bool := f.flags.testBit 0

def END_HEADERS (f : Frame) : Bool := f.flags.testBit 2

def PADDED (f : Frame) : Bool := f.flags.testBit 3

def PRIORITY (f : Frame) : Bool := f.flags.testBit 5

end Frame

def Frame.encode (f : Frame) : Bytes :=
  be24 f.payload.length ++ [UInt8.ofNat f.kind, UInt8.ofNat f.flags] ++ be32 f.stream ++ f.payload

structure Frame.Encodable (f : Frame) : Prop where
  kind : f.kind < 2 ^ 8
  flags : f.flags < 2 ^ 8
  stream : f.stream ≤ 0x7fffffff
  payload : f.payload.length ≤ 0xffffff

def decodeFrame (input : Bytes) (max : ℕ) : Result (Option Frame) :=
  match input with
  | l₂ :: l₁ :: l₀ :: kind :: flags :: s₃ :: s₂ :: s₁ :: s₀ :: rest =>
    let len := l₂.toNat * 2 ^ 16 + l₁.toNat * 2 ^ 8 + l₀.toNat
    if len > max then .error frameError
    else if rest.length < len then .ok none
    else .ok (some ⟨kind.toNat, flags.toNat, u32be [s₃, s₂, s₁, s₀] % 2 ^ 31, rest.take len⟩)
  | _ => .ok none

lemma decodeFrame_encode (h : f.Encodable) (rest : Bytes) (max : ℕ) :
    decodeFrame (f.encode ++ rest) max = if f.payload.length > max then .error frameError else .ok (some f) := by
  obtain ⟨_, _, stream, payload⟩ := f
  obtain ⟨hk, hf, hs, hp⟩ := h
  dsimp only at hk hf hs hp
  have hl : payload.length / 2 ^ 16 % 256 * 2 ^ 16 + payload.length / 2 ^ 8 % 256 * 2 ^ 8 + payload.length % 256 =
    payload.length := by omega
  have hi : (stream / 2 ^ 24 % 256 * 2 ^ 24 + stream / 2 ^ 16 % 256 * 2 ^ 16 + stream / 2 ^ 8 % 256 * 2 ^ 8 +
      stream % 256) % 2 ^ 31 = stream := by omega
  simp only [Frame.encode, be24, be32, cons_append, nil_append, decodeFrame, u32be, UInt8.toNat_ofNat', hl, hi]
  rw [Nat.mod_eq_of_lt hk, Nat.mod_eq_of_lt hf]
  simp

def unpadded (f : Frame) : Result Bytes :=
  if !f.PADDED then .ok f.payload
  else match f.payload with
    | [] => .error frameError
    | pad :: rest =>
      if pad.toNat ≥ f.payload.length then .error (protocol "invalid padding")
      else .ok (rest.take (f.payload.length - 1 - pad.toNat))

structure Limits where
  frameSize : ℕ
  headerBlock : ℕ
  headerList : ℕ
  continuations : ℕ
  streams : ℕ
  deriving DecidableEq

def Limits.default : Limits where
  frameSize := 16384
  headerBlock := 65536
  headerList := 32768
  continuations := 16
  streams := 100

/-- At most one value per identifier, in ascending order of the identifiers. -/
structure Settings where
  entries : List (UInt16 × UInt32)
  ascending : entries.Pairwise (fun a b => a.1 < b.1)
  deriving DecidableEq

namespace Settings

def HEADER_TABLE_SIZE : UInt16 := 1
def ENABLE_PUSH : UInt16 := 2
def MAX_CONCURRENT_STREAMS : UInt16 := 3
def INITIAL_WINDOW_SIZE : UInt16 := 4
def MAX_FRAME_SIZE : UInt16 := 5
def MAX_HEADER_LIST_SIZE : UInt16 := 6
def ENABLE_CONNECT_PROTOCOL : UInt16 := 8

def new : Settings := ⟨[], .nil⟩

def insert (id : UInt16) (value : UInt32) : List (UInt16 × UInt32) → List (UInt16 × UInt32)
  | [] => [(id, value)]
  | e :: es =>
    if e.1 = id then (id, value) :: es
    else if e.1 < id then e :: insert id value es
    else (id, value) :: e :: es

variable {id : UInt16} {value : UInt32}

lemma mem_insert (h : e ∈ insert id value es) : e = (id, value) ∨ e ∈ es := by
  induction es with
  | nil => exact .inl (mem_singleton.mp h)
  | cons x es ih =>
    unfold insert at h
    split_ifs at h
    · rcases mem_cons.mp h with h | h
      · exact .inl h
      · exact .inr (mem_cons_of_mem _ h)
    · rcases mem_cons.mp h with rfl | h
      · exact .inr mem_cons_self
      · exact (ih h).imp_right (mem_cons_of_mem _)
    · exact mem_cons.mp h

lemma ascending_insert (h : es.Pairwise (fun a b => a.1 < b.1)) : (insert id value es).Pairwise
    (fun a b => a.1 < b.1) := by
  induction es with
  | nil => exact pairwise_singleton _ _
  | cons x es ih =>
    obtain ⟨hx, hs⟩ := List.pairwise_cons.mp h
    unfold insert
    split_ifs with hq hl
    · exact List.pairwise_cons.mpr ⟨fun e he => hq ▸ hx e he, hs⟩
    · refine List.pairwise_cons.mpr ⟨fun e he => ?_, ih hs⟩
      rcases mem_insert he with rfl | he
      · exact hl
      · exact hx e he
    · have hi : id < x.1 := by
        rw [UInt16.lt_iff_toNat_lt] at hl ⊢
        have hn : x.1.toNat ≠ id.toNat := fun h => hq (UInt16.toNat_inj.mp h)
        omega
      refine List.pairwise_cons.mpr ⟨fun e he => ?_, h⟩
      rcases List.mem_cons.mp he with rfl | he
      · exact hi
      · exact UInt16.lt_trans hi (hx e he)

def set (s : Settings) (id : UInt16) (value : UInt32) : Settings :=
  ⟨insert id value s.entries, ascending_insert s.ascending⟩

def get (s : Settings) (id : UInt16) : Option UInt32 := (s.entries.find? (·.1 == id)).map (·.2)

def fromLimits (limits : Limits) : Settings :=
  ((new.set MAX_CONCURRENT_STREAMS (.ofNat limits.streams)).set MAX_FRAME_SIZE (.ofNat limits.frameSize)).set
    MAX_HEADER_LIST_SIZE (.ofNat limits.headerList)

def merge (s : Settings) (entries : List (UInt16 × UInt32)) : Settings :=
  entries.foldl (fun s e => s.set e.1 e.2) s

def encode (s : Settings) : Bytes := s.entries.flatMap (fun e => be16 e.1.toNat ++ be32 e.2.toNat)

def valid (e : UInt16 × UInt32) : Bool :=
  if e.1 = HEADER_TABLE_SIZE then e.2 ≤ 4096
  else if e.1 = ENABLE_PUSH then e.2 = 0
  else if e.1 = INITIAL_WINDOW_SIZE then e.2 ≤ 0x7fffffff
  else if e.1 = MAX_FRAME_SIZE then 16384 ≤ e.2 && e.2 ≤ 0xffffff
  else if e.1 = ENABLE_CONNECT_PROTOCOL then e.2 ≤ 1
  else true

def validate (s : Settings) : Result Unit :=
  if s.entries.all valid then .ok () else .error (protocol "invalid SETTINGS value")

end Settings

def SettingsFrame.iter : Bytes → List (UInt16 × UInt32)
  | a :: b :: c :: d :: e :: f :: rest =>
    (UInt16.ofNat (u16be [a, b]), UInt32.ofNat (u32be [c, d, e, f])) :: SettingsFrame.iter rest
  | _ => []

lemma SettingsFrame.iter_encode (s : Settings) : SettingsFrame.iter s.encode = s.entries := by
  suffices h : ∀ es : List (UInt16 × UInt32), iter (es.flatMap (fun e => be16 e.1.toNat ++ be32 e.2.toNat)) = es from
    h s.entries
  intro es
  induction es with
  | nil => rfl
  | cons e es ih =>
    have hi : u16be (be16 e.1.toNat ++ []) = e.1.toNat := u16be_be16 e.1.toNat_lt
    have hv : u32be (be32 e.2.toNat ++ []) = e.2.toNat := u32be_be32 e.2.toNat_lt []
    simp only [append_nil, be16, be32] at hi hv
    simp only [flatMap_cons, be16, be32, cons_append, nil_append, iter, hi, hv, UInt16.ofNat_toNat,
      UInt32.ofNat_toNat, Prod.mk.eta, cons.injEq, true_and]
    simpa only [be16, be32, cons_append, nil_append] using ih

end Turnloop.Http2
