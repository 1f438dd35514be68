import Turnloop.Lib.Bytes

/-! Messages of a PostgreSQL backend: their frames, and the cursor their bodies are read with. -/

namespace Turnloop.Postgres

export Lib (Bytes)

inductive Error
  | protocol (text : String)
  | state (text : String)
  | limit
  | timeout
  | transport (failure : Option String)
  | connectionAborted (fields : Bytes)
  | cancelled
  deriving DecidableEq

namespace Error

/-- `From<std::io::Error>` -/
def invalid : Error := .protocol "invalid PostgreSQL message"

end Error

def ascii (s : String) : Bytes := s.toUTF8.data.toList

def validUtf8 (bytes : Bytes) : Bool := (String.fromUTF8? ⟨bytes.toArray⟩).isSome

def be (bytes : Bytes) : ℕ := bytes.foldl (fun n b => 256 * n + b.toNat) 0

def signed (width n : ℕ) : ℤ := if n < 2 ^ (width - 1) then n else (n : ℤ) - 2 ^ width

namespace Cursor

def take (n : ℕ) (c : Bytes) : Except Error (Bytes × Bytes) :=
  if n > c.length then .error (.protocol "truncated message") else .ok (c.take n, c.drop n)

def u8 : Bytes → Except Error (UInt8 × Bytes)
  | [] => .error (.protocol "truncated message")
  | b :: rest => .ok (b, rest)

def u16 (c : Bytes) : Except Error (ℕ × Bytes) := (take 2 c).map fun r => (be r.1, r.2)

def u32 (c : Bytes) : Except Error (ℕ × Bytes) := (take 4 c).map fun r => (be r.1, r.2)

def i16 (c : Bytes) : Except Error (ℤ × Bytes) := (u16 c).map fun r => (signed 16 r.1, r.2)

def i32 (c : Bytes) : Except Error (ℤ × Bytes) := (u32 c).map fun r => (signed 32 r.1, r.2)

def cstr (c : Bytes) : Except Error (Bytes × Bytes) :=
  let text := c.takeWhile (· ≠ 0)
  if text.length = c.length then .error (.protocol "missing terminator")
  else if validUtf8 text then .ok (text, c.drop (text.length + 1))
  else .error (.protocol "invalid UTF-8")

def end_ (c : Bytes) : Except Error Unit :=
  if c.isEmpty then .ok () else .error (.protocol "trailing message bytes")

end Cursor

open Cursor

def columns : ℕ → Bytes → Except Error Bytes
  | 0, c => .ok c
  | n + 1, c => do
    let name ← cstr c
    let tableId ← u32 name.2
    let columnId ← i16 tableId.2
    let dataTypeId ← u32 columnId.2
    let dataTypeSize ← i16 dataTypeId.2
    let dataTypeModifier ← i32 dataTypeSize.2
    let format ← i16 dataTypeModifier.2
    columns n format.2

def values : ℕ → Bytes → Except Error Bytes
  | 0, c => .ok c
  | n + 1, c => do
    let size ← i32 c
    if size.1 = -1 then values n size.2
    else if size.1 < 0 then .error (.protocol "invalid field length")
    else do
      let value ← take size.1.toNat size.2
      values n value.2

structure Items where
  data : Bytes
  remaining : ℕ
  deriving DecidableEq

def Items.parse (read : ℕ → Bytes → Except Error Bytes) (body : Bytes) : Except Error Items := do
  let count ← u16 body
  let rest ← read count.1 count.2
  end_ rest
  pure ⟨count.2, count.1⟩

namespace ServerError

-- The fields are read one by one up to a zero. Each takes at least one byte, so that the length of the body bounds
-- their number.
def check : ℕ → Bytes → Except Error Bytes
  | 0, _ => .error (.protocol "truncated message")
  | n + 1, c => do
    let tag ← u8 c
    if tag.1 = 0 then .ok tag.2
    else do
      let value ← cstr tag.2
      check n value.2

def parse (body : Bytes) : Except Error Bytes := do
  let rest ← check (body.length + 1) body
  end_ rest
  pure body

def fields : ℕ → Bytes → List (UInt8 × Bytes)
  | 0, _ => []
  | n + 1, c =>
    match u8 c with
    | .error _ => []
    | .ok (tag, rest) =>
      if tag = 0 then []
      else match cstr rest with
        | .error _ => []
        | .ok (value, rest) => (tag, value) :: fields n rest

def get (body : Bytes) (tag : UInt8) : Option Bytes :=
  ((fields (body.length + 1) body).find? fun f => f.1 = tag).map Prod.snd

def terminal (body : Bytes) : Bool :=
  match (get body 86).orElse fun _ => get body 83 with
  | some severity => severity = ascii "FATAL" || severity = ascii "PANIC"
  | none => false

end ServerError

def header (maxBuffer : ℕ) (available : Bytes) : Except Error (Option (UInt8 × Bytes × ℕ)) :=
  match available with
  | tag :: b₀ :: b₁ :: b₂ :: b₃ :: rest =>
    let len := signed 32 (be [b₀, b₁, b₂, b₃])
    if len < 4 then .error .invalid
    else if len.toNat + 1 > maxBuffer then .error .limit
    else if available.length < len.toNat + 1 then .ok none
    else .ok (some (tag, rest.take (len.toNat - 4), len.toNat + 1))
  | _ => .ok none

inductive Tag
  | authentication | parameterStatus | keyData | ready | fields | row | commandComplete | emptyQuery | error | notice
  | notification | parseComplete | progress | copyIn | copyOut | copyData | copyDone | other
  deriving DecidableEq

def Tag.of (tag : UInt8) : Tag :=
  if tag = 82 then .authentication else if tag = 83 then .parameterStatus else if tag = 75 then .keyData
  else if tag = 90 then .ready else if tag = 84 then .fields else if tag = 68 then .row
  else if tag = 67 then .commandComplete else if tag = 73 then .emptyQuery else if tag = 69 then .error
  else if tag = 78 then .notice else if tag = 65 then .notification else if tag = 49 then .parseComplete
  else if tag = 50 ∨ tag = 51 ∨ tag = 110 then .progress else if tag = 71 then .copyIn else if tag = 72 then .copyOut
  else if tag = 100 then .copyData else if tag = 99 then .copyDone else .other

def mechanisms : ℕ → Bytes → Except Error (List Bytes × Bytes)
  | 0, _ => .error (.protocol "missing terminator")
  | n + 1, c => do
    let name ← cstr c
    if name.1.isEmpty then pure ([], name.2)
    else do
      let rest ← mechanisms n name.2
      pure (name.1 :: rest.1, rest.2)

def parseDecimal (bound : ℕ) (text : Bytes) : Option ℕ :=
  let digits := if text.head? = some 43 then text.tail else text
  if digits.isEmpty || digits.any (fun b => b < 48 || 57 < b) then none
  else
    let n := digits.foldl (fun n b => 10 * n + (b.toNat - 48)) 0
    if n < bound then some n else none

def iterations (text : Bytes) : Option ℕ :=
  if validUtf8 text then
    ((text.splitOn 44).findSome? fun part => if part.take 2 = [105, 61] then some (part.drop 2) else none).bind
      (parseDecimal (2 ^ 32))
  else none

def rowCount (tag : Bytes) : Option ℕ := (tag.splitOn 32).getLast?.bind (parseDecimal (2 ^ 64))

end Turnloop.Postgres
