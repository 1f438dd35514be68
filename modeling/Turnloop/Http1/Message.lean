import Turnloop.Http2.Headers
import Turnloop.Lib.Window
import Mathlib.Data.List.DropRight

/-! HTTP/1 heads: their lines, their fields and what they say of the body. -/

namespace Turnloop.Http1

open Http2 (Header isAsciiDigit decimal)
open Lib (Bytes ascii position)

inductive Code where
  | HPE_INVALID_HEADER_TOKEN
  | HPE_HEADER_OVERFLOW
  | HPE_UNEXPECTED_CONTENT_LENGTH
  | HPE_INVALID_TRANSFER_ENCODING
  | UND_ERR_SOCKET
  deriving DecidableEq

structure Error where
  code : Code
  message : String
  deriving DecidableEq

abbrev Result (α : Type) := Except Error α

def invalid (message : String) : Error := ⟨.HPE_INVALID_HEADER_TOKEN, message⟩

structure Limits where
  headers : ℕ
  headBytes : ℕ
  lineBytes : ℕ

def Limits.default : Limits := ⟨128, 32768, 8192⟩

def CR : UInt8 := 13

def LF : UInt8 := 10

def CRLF : Bytes := [CR, LF]

/-- `Header::new`. -/
def header (name : String) (value : Bytes) : Header := ⟨name.toLower, value⟩

def lowerByte (b : UInt8) : UInt8 := if 65 ≤ b ∧ b ≤ 90 then b + 32 else b

def eqIgnoreCase (v w : Bytes) : Bool := v.map lowerByte == w.map lowerByte

def isSpace (b : UInt8) : Bool := b == 32 || b == 9 || b == 10 || b == 12 || b == 13

def trim (v : Bytes) : Bytes := (v.dropWhile isSpace).rdropWhile isSpace

def tokens (v : Bytes) : List Bytes := (v.splitOn 44).map trim

structure Head where
  method : String
  target : String
  status : ℕ
  version : ℕ
  headers : List Header
  keepAlive : Bool
  deriving DecidableEq

namespace Head

variable (head : Head)

def get (name : String) : Option Bytes := (head.headers.find? fun h => h.name.toLower = name.toLower).map Header.value

def token (name token : String) : Bool :=
  (head.headers.filter fun h => h.name.toLower = name.toLower).any fun h =>
    (tokens h.value).any fun t => eqIgnoreCase t (ascii token)

end Head

def boundary (input : Bytes) : Option ℕ := (position (CRLF ++ CRLF) input).map (· + 4)

def lineLimit : Error := ⟨.HPE_HEADER_OVERFLOW, "line limit"⟩

/-- The loop of `lines_valid`, with the byte before and the bytes of the line so far. -/
def linesFrom (max : ℕ) (prev : Option UInt8) (len : ℕ) : Bytes → Result Unit
  | [] => if len > max then .error lineLimit else .ok ()
  | b :: rest =>
    if b = LF then
      if prev ≠ some CR then .error (invalid "bare LF")
      else if len > max then .error lineLimit
      else linesFrom max (some b) 0 rest
    else if b = CR ∧ rest.head?.any (· ≠ LF) then .error (invalid "bare CR")
    else linesFrom max (some b) (len + 1) rest

def linesValid (input : Bytes) (max : ℕ) : Result Unit := linesFrom max none 0 input

def headers (raw : List Header) (limits : Limits) : Result (List Header) :=
  if raw.length > limits.headers then .error ⟨.HPE_HEADER_OVERFLOW, "header count limit"⟩
  else .ok (raw.map fun h => header h.name h.value)

def lengthOf (cl : Option ℕ) (h : Header) : Result (Option ℕ) :=
  if h.name.toLower = "content-length" then
    if cl.isSome || h.value.isEmpty || !h.value.all isAsciiDigit then
      .error ⟨.HPE_UNEXPECTED_CONTENT_LENGTH, "invalid or duplicate content-length"⟩
    else match decimal h.value with
      | none => .error (invalid "content-length overflow")
      | some n => .ok (some n)
  else .ok cl

def codingOf (te : Bool) (h : Header) : Result Bool :=
  if h.name.toLower = "transfer-encoding" then
    if te || !eqIgnoreCase h.value (ascii "chunked") then
      .error ⟨.HPE_INVALID_TRANSFER_ENCODING, "unsupported or duplicate transfer coding"⟩
    else .ok true
  else .ok te

/-- The loop of `lengths`. -/
def lengthsFrom (cl : Option ℕ) (te : Bool) : List Header → Result (Option ℕ × Bool)
  | [] => .ok (cl, te)
  | h :: hs => do
    let cl ← lengthOf cl h
    let te ← codingOf te h
    lengthsFrom cl te hs

def lengths (head : Head) : Result (Option ℕ × Bool) := do
  let (cl, te) ← lengthsFrom none false head.headers
  if cl.isSome && te then throw ⟨.HPE_UNEXPECTED_CONTENT_LENGTH, "transfer-encoding with content-length"⟩
  if te && head.version = 0 then throw (invalid "transfer-encoding on HTTP/1.0")
  return (cl, te)

def forbiddenTrailer (name : String) : Bool :=
  name ∈ ["content-length", "transfer-encoding", "host", "connection", "trailer", "upgrade"]

structure Parsed where
  method : Option String
  path : Option String
  code : Option ℕ
  version : Option ℕ
  headers : List Header

/-- The head parser, with 256 header slots; `none` is an error. A field section may also be incomplete. -/
structure Parser where
  request : Bytes → Option Parsed
  response : Bytes → Option Parsed
  headers : Bytes → Option (Option (List Header))

end Turnloop.Http1
