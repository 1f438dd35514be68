import Turnloop.Http2.Frame

/-! Header lists and their checks. -/

namespace Turnloop.Http2

structure Header where
  name : String
  value : Bytes
  deriving DecidableEq

def isAsciiDigit (b : UInt8) : Bool := 48 ≤ b && b ≤ 57

def validToken (name : String) : Bool :=
  !name.isEmpty && name.toList.all (fun c => c.isAlphanum || "!#$%&'*+-.^_`|~".toList.contains c)

def decimal (value : Bytes) : Option ℕ :=
  value.foldlM (fun n b => let m := n * 10 + (b.toNat - 48); if m < 2 ^ 64 then some m else none) 0

def contentLengthFrom (found : Option ℕ) : List Header → Result (Option ℕ)
  | [] => .ok found
  | h :: hs =>
    if h.name = "content-length" then
      if found.isSome || h.value.isEmpty || !h.value.all isAsciiDigit then .error (protocol "invalid content-length")
      else match decimal h.value with
        | none => .error (protocol "content-length overflow")
        | some n => contentLengthFrom (some n) hs
    else contentLengthFrom found hs

def contentLength (headers : List Header) : Result (Option ℕ) := contentLengthFrom none headers

inductive Pseudo where
  | method
  | scheme
  | path
  | authority
  | status
  deriving DecidableEq

def Pseudo.of (name : String) (request : Bool) : Option Pseudo :=
  if name = ":method" && request then some .method
  else if name = ":scheme" && request then some .scheme
  else if name = ":path" && request then some .path
  else if name = ":authority" && request then some .authority
  else if name = ":status" && !request then some .status
  else none

def isBlank (b : UInt8) : Bool := b == 32 || b == 9

/-- The loop of `validate_headers`; `pseudo` are the pseudo-headers so far. -/
def validateFields (request trailers : Bool) : List Header → Bool → List Pseudo → Result (List Pseudo)
  | [], _, pseudo => .ok pseudo
  | h :: hs, regular, pseudo =>
    if h.name.isEmpty || h.name.toList.any Char.isUpper || h.value.any (fun b => b == 0 || b == 10 || b == 13) ||
        h.value.head?.any isBlank || h.value.getLast?.any isBlank then
      .error (protocol "invalid header field")
    else if h.name.startsWith ":" then
      if regular || trailers then .error (protocol "pseudo-header ordering")
      else match Pseudo.of h.name request with
        | none => .error (protocol "invalid pseudo-header")
        | some p =>
          if p ∈ pseudo then .error (protocol "duplicate pseudo-header")
          else validateFields request trailers hs regular (p :: pseudo)
    else if !validToken h.name then .error (protocol "invalid header name")
    else if h.name ∈ ["connection", "proxy-connection", "keep-alive", "transfer-encoding", "upgrade"] ||
        (h.name = "te" && h.value ≠ ascii "trailers") then
      .error (protocol "connection-specific field")
    else validateFields request trailers hs true pseudo

def incomplete (headers : List Header) (pseudo : List Pseudo) : Bool :=
  .method ∉ pseudo ||
    if headers.any (fun h => h.name = ":method" && h.value = ascii "CONNECT") then
      .authority ∉ pseudo || .scheme ∈ pseudo || .path ∈ pseudo
    else
      .scheme ∉ pseudo || .path ∉ pseudo || headers.any (fun h => h.name = ":path" && h.value.isEmpty)

def validateStatus (headers : List Header) : Result Unit :=
  match headers.find? (·.name = ":status") with
  | none => .error (protocol "missing status")
  | some status =>
    if status.value.length ≠ 3 || !status.value.all isAsciiDigit || status.value < ascii "100" ||
        status.value = ascii "101" then
      .error (protocol "invalid status")
    else .ok ()

def validateHead (headers : List Header) (request trailers : Bool) (pseudo : List Pseudo) : Result Unit :=
  if trailers then
    if headers.any (·.name = "content-length") then .error (protocol "content-length in trailers") else .ok ()
  else if request then
    if incomplete headers pseudo then .error (protocol "missing request pseudo-header") else .ok ()
  else validateStatus headers

def validateHeaders (headers : List Header) (request trailers : Bool) : Result Unit := do
  let pseudo ← validateFields request trailers headers false []
  validateHead headers request trailers pseudo
  let _ ← contentLength headers
  pure ()

def informational (headers : List Header) : Bool :=
  (headers.find? (·.name = ":status")).any (fun h => h.value.head? == some 49)

def bodyless (headers : List Header) : Bool :=
  headers.any (fun h => h.name = ":status" && (h.value = ascii "204" || h.value = ascii "304"))

def isHead (headers : List Header) : Bool := headers.any (fun h => h.name = ":method" && h.value = ascii "HEAD")

end Turnloop.Http2
