import Turnloop.Http1.Message
import Turnloop.Lib.Feed

/-! The HTTP/1 decoder, and a host that steps it. -/

namespace Turnloop.Http1

open Http2 (Header isAsciiDigit decimal)
open Lib (Bytes ascii position)

inductive Mode where
  | Request
  | Response
  deriving DecidableEq

inductive State where
  | Head
  | Fixed (left : ℕ)
  | ChunkSize
  | Chunk (left : ℕ)
  | ChunkEnd
  | Trailers
  | Eof
  | End
  | Done
  | Upgrade
  | Failed
  deriving DecidableEq

inductive Event where
  | Head (head : Head)
  | Informational (head : Head)
  | Body (bytes : Bytes)
  | Trailers (headers : List Header)
  | End
  | Upgrade
  deriving DecidableEq

structure Step where
  consumed : ℕ
  event : Option Event

structure Decoder where
  mode : Mode
  limits : Limits
  state : State
  headRequest : Bool
  connectRequest : Bool
  keepAlive : Bool
  upgradeRequest : Bool

def hexDigit (b : UInt8) : Option ℕ :=
  if 48 ≤ b ∧ b ≤ 57 then some (b.toNat - 48)
  else if 65 ≤ b ∧ b ≤ 70 then some (b.toNat - 55)
  else if 97 ≤ b ∧ b ≤ 102 then some (b.toNat - 87)
  else none

def hexadecimal (digits : Bytes) : Option ℕ :=
  digits.foldlM (fun v b => do
    let d ← hexDigit b
    if v * 16 + d < 2 ^ 64 then some (v * 16 + d) else none) 0

def chunkSize (line : Bytes) : Result ℕ :=
  let digits := line.takeWhile (· ≠ 59)
  if digits.isEmpty || !digits.all (fun b => (hexDigit b).isSome) then .error (invalid "invalid chunk size")
  else if line.any (fun b => b < 32 || b == 127) then .error (invalid "invalid chunk extension")
  else match hexadecimal digits with
    | none => .error (invalid "chunk overflow")
    | some size => .ok size

def extent (input : Bytes) : ℕ := (boundary input).getD input.length

def block (limits : Limits) (overflow : Error) (input : Bytes) : Result (Option ℕ) :=
  if extent input > limits.headBytes then .error overflow
  else match linesValid (input.take (extent input)) limits.lineBytes with
    | .error e => .error e
    | .ok () => .ok (boundary input)

namespace Decoder

def new (mode : Mode) (limits : Limits) : Decoder := ⟨mode, limits, .Head, false, false, false, false⟩

variable (p : Parser) (d : Decoder)

def responseTo (method : String) : Decoder :=
  { d with headRequest := method = "HEAD", connectRequest := method = "CONNECT" }

def reusable : Bool := d.state = .Done && d.keepAlive

def wantsStep : Bool := d.state = .End || d.state = .Upgrade

def eofIsClean : Bool := d.state = .Eof || d.state = .End || d.state = .Done

def reset : Result Decoder :=
  if d.reusable then .ok { d with state := .Head } else .error (invalid "connection is not reusable")

def parseHead (bytes : Bytes) : Result Head :=
  match d.mode with
  | .Response => do
    let some parsed := p.response bytes | throw (invalid "invalid response head")
    let some status := parsed.code | throw (invalid "missing status")
    let fields ← headers parsed.headers d.limits
    return ⟨"", "", status, parsed.version.getD 1, fields, false⟩
  | .Request => do
    let some parsed := p.request bytes | throw (invalid "invalid request head")
    let some method := parsed.method | throw (invalid "missing method")
    let some target := parsed.path | throw (invalid "missing target")
    let fields ← headers parsed.headers d.limits
    return ⟨method, target, 0, parsed.version.getD 1, fields, false⟩

def hostless (head : Head) : Bool :=
  d.mode = .Request && head.version = 1 &&
    ((head.headers.filter fun h => h.name = "host").length ≠ 1 || (head.get "host").all List.isEmpty)

def tunnel (head : Head) : Bool := d.mode = .Response && d.connectRequest && (200 ≤ head.status && head.status < 300)

def framing (head : Head) : Result (Option ℕ × Bool) := if d.tunnel head then .ok (none, false) else lengths head

def persistent (head : Head) : Bool :=
  !head.token "connection" "close" && (head.version = 1 || head.token "connection" "keep-alive")

def asksUpgrade (head : Head) : Bool :=
  d.mode = .Request && (head.method = "CONNECT" ||
    (head.version = 1 && (head.get "upgrade").isSome && head.token "connection" "upgrade"))

def enter (head : Head) (cl : Option ℕ) (te : Bool) : Decoder :=
  if d.mode = .Response && (head.status = 101 || (d.connectRequest && (200 ≤ head.status && head.status < 300))) then
    { d with keepAlive := false, state := .Upgrade }
  else if d.mode = .Response && (d.headRequest || head.status = 204 || head.status = 304) then { d with state := .End }
  else if te then { d with state := .ChunkSize }
  else match cl with
    | some n => { d with state := if n = 0 then .End else .Fixed n }
    | none =>
      if d.mode = .Request then { d with state := .End }
      else { d with keepAlive := false, state := .Eof }

def noteHead (head : Head) : Decoder := { d with keepAlive := persistent head, upgradeRequest := d.asksUpgrade head }

def takeHead (head : Head) (cl : Option ℕ) (te : Bool) (stop : ℕ) : Decoder × Result Step :=
  if d.mode = .Response && (100 ≤ head.status && head.status < 200) && head.status ≠ 101 then
    if cl.isSome || te then (d.noteHead head, .error (invalid "informational response has body framing"))
    else (d.noteHead head, .ok ⟨stop, some (.Informational { head with keepAlive := persistent head })⟩)
  else if d.mode = .Response && head.status = 204 && (cl.isSome || te) then
    ((d.noteHead head).enter head cl te, .error (invalid "204 has body framing"))
  else ((d.noteHead head).enter head cl te, .ok ⟨stop, some (.Head { head with keepAlive := persistent head })⟩)

def readHead (bytes : Bytes) : Result (Head × Option ℕ × Bool) := do
  let head ← d.parseHead p bytes
  if d.hostless head then throw (invalid "HTTP/1.1 requires exactly one Host")
  let (cl, te) ← d.framing head
  return (head, cl, te)

def receiveHead (input : Bytes) : Decoder × Result Step :=
  match block d.limits ⟨.HPE_HEADER_OVERFLOW, "head size limit"⟩ input with
  | .error e => (d, .error e)
  | .ok none => (d, .ok ⟨0, none⟩)
  | .ok (some stop) =>
    match d.readHead p (input.take stop) with
    | .error e => (d, .error e)
    | .ok (head, cl, te) => d.takeHead head cl te stop

/-- A slice of a body of which `left` bytes are to come: the state is `next` of what then is. -/
def receiveSlice (left : ℕ) (next : ℕ → State) (input : Bytes) : Decoder × Result Step :=
  if min input.length left > 0 then
    ({ d with state := next (left - min input.length left) },
      .ok ⟨min input.length left, some (.Body (input.take (min input.length left)))⟩)
  else (d, .ok ⟨0, none⟩)

def receiveChunkSize (input : Bytes) : Decoder × Result Step :=
  if (position CRLF input).getD input.length > d.limits.lineBytes then (d, .error (invalid "chunk line limit"))
  else match position CRLF input with
    | none => (d, .ok ⟨0, none⟩)
    | some n =>
      match chunkSize (input.take n) with
      | .error e => (d, .error e)
      | .ok size => ({ d with state := if size = 0 then .Trailers else .Chunk size }, .ok ⟨n + 2, none⟩)

def receiveChunkEnd (input : Bytes) : Decoder × Result Step :=
  if input.length ≥ 2 then
    if input.take 2 ≠ CRLF then (d, .error (invalid "missing chunk CRLF"))
    else ({ d with state := .ChunkSize }, .ok ⟨2, none⟩)
  else (d, .ok ⟨0, none⟩)

def readTrailers (bytes : Bytes) : Result (List Header) := do
  let some found := p.headers bytes | throw (invalid "invalid trailers")
  let some raw := found | throw (invalid "incomplete trailers")
  let trailers ← headers raw d.limits
  if trailers.any (fun h => forbiddenTrailer h.name) then throw (invalid "forbidden trailer")
  return trailers

def receiveTrailers (input : Bytes) : Decoder × Result Step :=
  if CRLF <+: input then ({ d with state := .End }, .ok ⟨2, none⟩)
  else match block d.limits (invalid "trailer size limit") input with
    | .error e => (d, .error e)
    | .ok none => (d, .ok ⟨0, none⟩)
    | .ok (some n) =>
      match d.readTrailers p (input.take n) with
      | .error e => (d, .error e)
      | .ok trailers => ({ d with state := .End }, .ok ⟨n, some (.Trailers trailers)⟩)

def receiveInner (input : Bytes) : Decoder × Result Step :=
  match d.state with
  | .Head => d.receiveHead p input
  | .Fixed left => d.receiveSlice left (fun n => if n = 0 then .End else .Fixed n) input
  | .Chunk left => d.receiveSlice left (fun n => if n = 0 then .ChunkEnd else .Chunk n) input
  | .ChunkSize => d.receiveChunkSize input
  | .ChunkEnd => d.receiveChunkEnd input
  | .Trailers => d.receiveTrailers p input
  | .Eof => if input.isEmpty then (d, .ok ⟨0, none⟩) else (d, .ok ⟨input.length, some (.Body input)⟩)
  | .End => ({ d with state := .Done }, .ok ⟨0, some (if d.upgradeRequest then .Upgrade else .End)⟩)
  | .Upgrade => ({ d with state := .Done }, .ok ⟨0, some .Upgrade⟩)
  | .Done => (d, .ok ⟨0, none⟩)
  | .Failed => (d, .error (invalid "failed connection"))

def receive (input : Bytes) : Decoder × Result Step :=
  match d.receiveInner p input with
  | (d, .ok step) => (d, .ok step)
  | (d, .error e) => ({ d with state := .Failed }, .error e)

def eof : Decoder × Result Unit :=
  if !d.eofIsClean then ({ d with state := .Failed }, .error ⟨.UND_ERR_SOCKET, "unexpected EOF"⟩)
  else if d.state = .Eof then ({ d with state := .End }, .ok ())
  else (d, .ok ())

end Decoder

end Turnloop.Http1
