import Turnloop.Http1.Message
import Turnloop.Hpack.Table
import Turnloop.Lib.Numeral

/-! The HTTP/1 encoder. -/

namespace Turnloop.Http1

open Http2 (Header validToken)
open Lib (Bytes ascii)
open Hpack (nameBytes)
open Lib (numeral)

inductive BodyLength where
  | Empty
  | Known (n : ℕ)
  | Chunked
  | CloseDelimited
  | Omitted
  deriving DecidableEq

structure Encoder where
  left : BodyLength
  finished : Bool
  deriving DecidableEq

def digitByte (d : ℕ) : UInt8 := UInt8.ofNat (if d < 10 then 48 + d else 87 + d)

def written (base n : ℕ) : Bytes := (numeral base n).map digitByte

def isText (b : UInt8) : Bool := !((b < 32 && b != 9) || b == 127)

def isVisible (b : UInt8) : Bool := !(b ≤ 32 || b == 127)

def validateField (h : Header) : Result Unit :=
  if !validToken h.name || !h.value.all isText then .error (invalid "invalid header field") else .ok ()

def fieldLine (h : Header) : Bytes := nameBytes h.name ++ ascii ": " ++ h.value

def linesText (lines : List Bytes) : Bytes := lines.flatMap (· ++ CRLF)

def requestLine (method target : String) : Bytes :=
  nameBytes method ++ ascii " " ++ nameBytes target ++ ascii " HTTP/1.1"

def statusLine (status : ℕ) (reason : String) : Bytes :=
  ascii "HTTP/1.1 " ++ written 10 status ++ ascii " " ++ nameBytes reason

namespace BodyLength

def conflicts (head : Head) (cl : Option ℕ) (te : Bool) : BodyLength → Bool
  | Known n => te || cl.any (· ≠ n)
  | Empty => te || cl.any (· ≠ 0)
  | Chunked => cl.isSome
  | CloseDelimited => te || cl.isSome
  | Omitted => (cl.isSome || te) && (head.status < 200 || head.status = 204)

def framingField : BodyLength → List Header
  | Known n => [⟨"content-length", written 10 n⟩]
  | Chunked => [⟨"transfer-encoding", ascii "chunked"⟩]
  | _ => []

def added (body : BodyLength) (cl : Option ℕ) (te : Bool) : List Header :=
  if cl.isNone && !te then body.framingField else []

end BodyLength

namespace Encoder

abbrev Reasons := ℕ → Option String

variable (reasons : Reasons)

def startLine (head : Head) (reason : Option String) : Result Bytes :=
  if head.status = 0 then
    if !validToken head.method then .error (invalid "invalid method")
    else if head.target.isEmpty || !(nameBytes head.target).all isVisible then .error (invalid "invalid request target")
    else .ok (requestLine head.method head.target)
  else if head.status < 100 || 1000 ≤ head.status then .error (invalid "invalid status")
  else .ok (statusLine head.status (reason.getD ((reasons head.status).getD "")))

def encode (head : Head) (reason : Option String) (body : BodyLength) : Result (Bytes × Encoder) := do
  head.headers.forM validateField
  let (cl, te) ← lengths head
  if body.conflicts head cl te then throw (invalid "body length conflicts with headers")
  if (body = .CloseDelimited || body = .Omitted) && head.status = 0 then
    throw (invalid "body length is only valid for a response")
  if body = .CloseDelimited && (head.status < 200 || head.status = 204 || head.status = 304) then
    throw (invalid "status forbids a body")
  let first ← startLine reasons head reason
  return (linesText (first :: (head.headers ++ body.added cl te).map fieldLine) ++ CRLF, ⟨body, false⟩)

def start (head : Head) (body : BodyLength) : Result (Bytes × Encoder) := encode reasons head none body

def chunk (bytes : Bytes) : Bytes := if bytes.isEmpty then [] else written 16 bytes.length ++ CRLF ++ bytes ++ CRLF

def body (e : Encoder) (bytes : Bytes) : Result (Bytes × Encoder) :=
  if e.finished then .error (invalid "body already finished")
  else match e.left with
    | .Empty | .Omitted => if bytes.isEmpty then .ok ([], e) else .error (invalid "unexpected body")
    | .CloseDelimited => .ok (bytes, e)
    | .Known n =>
      if bytes.length > n then .error (invalid "body exceeds content-length")
      else .ok (bytes, { e with left := .Known (n - bytes.length) })
    | .Chunked => .ok (chunk bytes, e)

def validateTrailer (h : Header) : Result Unit :=
  if forbiddenTrailer h.name then .error (invalid "forbidden trailer") else validateField h

def incomplete (e : Encoder) : Bool :=
  match e.left with
  | .Known n => n ≠ 0
  | _ => false

def closing (e : Encoder) (trailers : List Header) : Bytes :=
  if e.left = .Chunked then ascii "0" ++ CRLF ++ linesText (trailers.map fieldLine) ++ CRLF else []

def finish (e : Encoder) (trailers : List Header) : Result (Bytes × Encoder) := do
  if e.finished || e.incomplete then throw (invalid "incomplete or already finished body")
  if !trailers.isEmpty && e.left ≠ .Chunked then throw (invalid "trailers require chunked body")
  trailers.forM validateTrailer
  return (e.closing trailers, { e with finished := true })

/-- Calls of `body`: the bytes written and the body they make up. A refused call writes nothing. -/
def bodies (e : Encoder) : List Bytes → Encoder × Bytes × Bytes
  | [] => (e, [], [])
  | bytes :: later =>
    match e.body bytes with
    | .error _ => e.bodies later
    | .ok (out, e') => ((e'.bodies later).1, out ++ (e'.bodies later).2.1, bytes ++ (e'.bodies later).2.2)

end Encoder

end Turnloop.Http1
