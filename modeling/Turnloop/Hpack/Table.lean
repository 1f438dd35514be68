import Turnloop.Hpack.Strings

/-! The header tables, and the encoder and decoder that keep them. -/

namespace Turnloop.Hpack

open Lib Http2

def STATIC : List Header :=
  [(":authority", ""), (":method", "GET"), (":method", "POST"), (":path", "/"), (":path", "/index.html"),
   (":scheme", "http"), (":scheme", "https"), (":status", "200"), (":status", "204"), (":status", "206"),
   (":status", "304"), (":status", "400"), (":status", "404"), (":status", "500"), ("accept-charset", ""),
   ("accept-encoding", "gzip, deflate"), ("accept-language", ""), ("accept-ranges", ""), ("accept", ""),
   ("access-control-allow-origin", ""), ("age", ""), ("allow", ""), ("authorization", ""), ("cache-control", ""),
   ("content-disposition", ""), ("content-encoding", ""), ("content-language", ""), ("content-length", ""),
   ("content-location", ""), ("content-range", ""), ("content-type", ""), ("cookie", ""), ("date", ""),
   ("etag", ""), ("expect", ""), ("expires", ""), ("from", ""), ("host", ""), ("if-match", ""),
   ("if-modified-since", ""), ("if-none-match", ""), ("if-range", ""), ("if-unmodified-since", ""),
   ("last-modified", ""), ("link", ""), ("location", ""), ("max-forwards", ""), ("proxy-authenticate", ""),
   ("proxy-authorization", ""), ("range", ""), ("referer", ""), ("refresh", ""), ("retry-after", ""),
   ("server", ""), ("set-cookie", ""), ("strict-transport-security", ""), ("transfer-encoding", ""),
   ("user-agent", ""), ("vary", ""), ("via", ""), ("www-authenticate", "")].map fun e => ⟨e.1, ascii e.2⟩

def nameBytes (name : String) : Bytes := name.toUTF8.data.toList

def fromUtf8 (bytes : Bytes) : Option String := String.fromUTF8? ⟨bytes.toArray⟩

lemma fromUtf8_nameBytes (name : String) : fromUtf8 (nameBytes name) = some name := by
  unfold fromUtf8 nameBytes String.fromUTF8?
  rw [Array.toArray_toList]
  exact (dif_pos (show (⟨name.toUTF8.data⟩ : ByteArray).IsValidUTF8 from name.isValidUTF8)).trans rfl

def fieldSize (h : Header) : ℕ := (nameBytes h.name).length + h.value.length + 32

structure Table where
  entries : List Header
  bytes : ℕ
  max : ℕ

namespace Table

def new (max : ℕ) : Table := ⟨[], 0, max⟩

def evict (t : Table) : Table :=
  match t.entries.getLast? with
  | none => t
  | some h => { t with entries := t.entries.dropLast, bytes := t.bytes - fieldSize h }

def evictWhile (excess : ℕ → Bool) : ℕ → Table → Table
  | 0, t => t
  | n + 1, t => if excess t.bytes then evictWhile excess n t.evict else t

def resize (max : ℕ) (t : Table) : Table := evictWhile (fun bytes => bytes > max) t.entries.length { t with max := max }

def add (h : Header) (t : Table) : Table :=
  if fieldSize h > t.max then { t with entries := [], bytes := 0 }
  else
    let t := evictWhile (fun bytes => bytes + fieldSize h > t.max) t.entries.length t
    { t with entries := h :: t.entries, bytes := t.bytes + fieldSize h }

def get (t : Table) (index : ℕ) : Result Header :=
  if index = 0 then .error bad
  else if index ≤ 61 then
    match STATIC[index - 1]? with
    | some h => .ok h
    | none => .error bad
  else
    match t.entries[index - 62]? with
    | some h => .ok h
    | none => .error bad

def matches? (t : Table) (name : String) (value : Option Bytes) (i : ℕ) : Bool :=
  match t.get i with
  | .ok h => h.name == name && value.all (· == h.value)
  | .error _ => false

def find (t : Table) (name : String) (value : Option Bytes) : Option ℕ :=
  (List.range' 1 (61 + t.entries.length)).find? (t.matches? name value)

end Table

structure Encoder where
  table : Table
  pending : Option (ℕ × ℕ)

namespace Encoder

def new (tableSize : ℕ) : Encoder := ⟨.new tableSize, none⟩

def setTableSize (size : ℕ) (e : Encoder) : Encoder :=
  { table := e.table.resize size
    pending := some ((e.pending.map fun p => min p.1 size).getD size, size) }

def sensitive (name : String) : Bool :=
  name == "authorization" || name == "proxy-authorization" || name == "cookie" || name == "set-cookie"

def field (t : Table) (h : Header) : Bytes × Table :=
  match if sensitive h.name then none else t.find h.name (some h.value) with
  | some index => (encodeInteger index 7 128, t)
  | none =>
    let index := (t.find h.name none).getD 0
    let start := if sensitive h.name then encodeInteger index 4 16 else encodeInteger index 6 64
    let name := if index = 0 then emitString (nameBytes h.name) else []
    (start ++ name ++ emitString h.value, if sensitive h.name then t else t.add h)

def fields (t : Table) : List Header → Bytes × Table
  | [] => ([], t)
  | h :: headers => ((field t h).1 ++ (fields (field t h).2 headers).1, (fields (field t h).2 headers).2)

def updates : Option (ℕ × ℕ) → Bytes
  | none => []
  | some (least, last) => encodeInteger least 5 0x20 ++ if last = least then [] else encodeInteger last 5 0x20

def encode (headers : List Header) (e : Encoder) : Bytes × Encoder :=
  (updates e.pending ++ (fields e.table headers).1, ⟨(fields e.table headers).2, none⟩)

end Encoder

structure Decoder where
  table : Table
  allowed : ℕ
  maxListSize : ℕ
  failed : Bool

namespace Decoder

def new (tableSize maxListSize : ℕ) : Decoder := ⟨.new tableSize, tableSize, maxListSize, false⟩

def literal (maxListSize size : ℕ) (t : Table) (indexed : Bool) (input : Bytes) : Result (Header × Bytes × Table) := do
  let (index, rest) ← integer (if indexed then 6 else 4) input
  let (name, rest) ← (if index = 0 then do
      let (bytes, rest) ← string (maxListSize - size) rest
      match fromUtf8 bytes with
      | some name => pure (name, rest)
      | none => throw bad
    else do
      let h ← t.get index
      pure (h.name, rest) : Result (String × Bytes))
  let (value, rest) ← string (maxListSize - (size + (nameBytes name).length)) rest
  pure (⟨name, value⟩, rest, if indexed then t.add ⟨name, value⟩ else t)

def field (maxListSize size : ℕ) (t : Table) (b : UInt8) (input : Bytes) : Result (Header × Bytes × Table) :=
  if b.toNat &&& 128 ≠ 0 then do
    let (index, rest) ← integer 7 input
    let h ← t.get index
    pure (h, rest, t)
  else literal maxListSize size t (b.toNat &&& 64 ≠ 0) input

def block (d : Decoder) : ℕ → Table → ℕ → List Header → Bytes → Result (List Header) × Table
  | 0, t, _, out, _ => (.ok out, t)
  | _ + 1, t, _, out, [] => (.ok out, t)
  | fuel + 1, t, size, out, b :: input =>
    if b.toNat &&& 0xe0 = 0x20 then
      if !out.isEmpty then (.error bad, t)
      else match integer 5 (b :: input) with
        | .error e => (.error e, t)
        | .ok (n, rest) => if n > d.allowed then (.error bad, t) else block d fuel (t.resize n) size out rest
    else match field d.maxListSize size t b (b :: input) with
      | .error e => (.error e, t)
      | .ok (h, rest, t') =>
        if size + fieldSize h > USIZE_MAX then (.error bad, t')
        else if size + fieldSize h > d.maxListSize then (.error ⟨.ENHANCE_YOUR_CALM, "header list limit"⟩, t')
        else block d fuel t' (size + fieldSize h) (out ++ [h]) rest

def decode (input : Bytes) (d : Decoder) : Result (List Header) × Decoder :=
  if d.failed then (.error bad, d)
  else
    let r := d.block input.length d.table 0 [] input
    match r.1 with
    | .ok out => (.ok out, { d with table := r.2 })
    | .error e => (.error e, { d with table := r.2, failed := true })

end Decoder

end Turnloop.Hpack
