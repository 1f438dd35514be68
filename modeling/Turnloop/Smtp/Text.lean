import Turnloop.Lib.Bytes
import Turnloop.Lib.Numeral

/-! What SMTP puts on the wire. -/

namespace Turnloop.Smtp

open Lib

export Lib (Bytes ascii)

def crlf : Bytes := [13, 10]

def isAscii (text : Bytes) : Bool := text.all (· < 128)

def isDigit (b : UInt8) : Bool := 48 ≤ b && b ≤ 57

def upper (b : UInt8) : UInt8 := if 97 ≤ b ∧ b ≤ 122 then b - 32 else b

def eqIgnoreAsciiCase (a b : Bytes) : Bool := a.map upper == b.map upper

/-- `str::get(n..)`: nothing past the end or inside of a character. -/
def getFrom (n : ℕ) (text : Bytes) : Option Bytes :=
  if n = 0 ∨ n = text.length ∨ ∃ b ∈ text[n]?, ¬ (128 ≤ b ∧ b < 192) then some (text.drop n) else none

def stripCr (line : Bytes) : Bytes := if line.getLast? = some 13 then line.dropLast else line

/-- `str::lines` -/
def lines (text : Bytes) : List Bytes :=
  let all := text.splitOn 10
  all.dropLast.map stripCr ++ all.getLast?.toList.filter (· ≠ [])

/-- `str::split_ascii_whitespace` -/
def words (text : Bytes) : List Bytes :=
  (text.splitOnP fun b => b = 32 ∨ b = 9 ∨ b = 10 ∨ b = 12 ∨ b = 13).filter (· ≠ [])

/-- `str::parse::<u64>` -/
def parseU64 (v : Bytes) : Option ℕ :=
  let digits := if v.head? = some 43 then v.tail else v
  let n := numeralValue 10 (digits.map fun b => b.toNat - 48)
  if digits ≠ [] ∧ digits.all isDigit ∧ n < 2 ^ 64 then some n else none

def decimal (n : ℕ) : Bytes := (numeral 10 n).map fun d => UInt8.ofNat (48 + d)

structure Capabilities where
  starttls : Bool := false
  pipelining : Bool := false
  size : Option ℕ := none
  sizeSupported : Bool := false
  eightBitMime : Bool := false
  smtpUtf8 : Bool := false
  authPlain : Bool := false
  authLogin : Bool := false
  authXoauth2 : Bool := false

namespace Capabilities

def authWord (caps : Capabilities) (word : Bytes) : Capabilities :=
  { caps with
    authPlain := caps.authPlain || eqIgnoreAsciiCase word (ascii "PLAIN")
    authLogin := caps.authLogin || eqIgnoreAsciiCase word (ascii "LOGIN")
    authXoauth2 := caps.authXoauth2 || eqIgnoreAsciiCase word (ascii "XOAUTH2") }

def offer (caps : Capabilities) (line : Bytes) : Capabilities :=
  match (getFrom 4 line).map words with
  | some (name :: rest) =>
    if eqIgnoreAsciiCase name (ascii "STARTTLS") then { caps with starttls := true }
    else if eqIgnoreAsciiCase name (ascii "PIPELINING") then { caps with pipelining := true }
    else if eqIgnoreAsciiCase name (ascii "8BITMIME") then { caps with eightBitMime := true }
    else if eqIgnoreAsciiCase name (ascii "SMTPUTF8") then { caps with smtpUtf8 := true }
    else if eqIgnoreAsciiCase name (ascii "SIZE") then
      { caps with sizeSupported := true, size := rest.head?.bind parseU64 }
    else if eqIgnoreAsciiCase name (ascii "AUTH") || (ascii "AUTH=").isPrefixOf (name.map upper) then
      ((getFrom 5 name).toList ++ rest).foldl authWord caps
    else caps
  | _ => caps

def parse (response : Bytes) : Capabilities := ((lines response).drop 1).foldl offer {}

end Capabilities

structure Envelope where
  from_ : Bytes
  to_ : List Bytes
  deriving DecidableEq

def utf8 (envelope : Envelope) : Bool := !isAscii envelope.from_ || envelope.to_.any fun s => !isAscii s

/-- What the client writes. `authAnswer` goes on with an AUTH command, `content` is a part of a message. -/
inductive Command
  | ehlo (name : Bytes)
  | helo (name : Bytes)
  | starttls
  | authPlain (encoded : Bytes)
  | authLogin
  | authXoauth2 (encoded : Bytes)
  | authAnswer (encoded : Bytes)
  | mail (from_ : Bytes) (size : Option ℕ) (eightBit utf8 : Bool)
  | rcpt (recipient : Bytes)
  | data
  | content (bytes : Bytes)
  | rset
  | quit
  deriving DecidableEq

def Command.bytes : Command → Bytes
  | .ehlo name => ascii "EHLO " ++ name ++ crlf
  | .helo name => ascii "HELO " ++ name ++ crlf
  | .starttls => ascii "STARTTLS" ++ crlf
  | .authPlain encoded => ascii "AUTH PLAIN " ++ encoded ++ crlf
  | .authLogin => ascii "AUTH LOGIN" ++ crlf
  | .authXoauth2 encoded => ascii "AUTH XOAUTH2 " ++ encoded ++ crlf
  | .authAnswer encoded => encoded ++ crlf
  | .mail from_ size eightBit utf8 =>
    ascii "MAIL FROM:<" ++ from_ ++ ascii ">" ++ (size.elim [] fun n => ascii " SIZE=" ++ decimal n)
      ++ (if eightBit then ascii " BODY=8BITMIME" else []) ++ (if utf8 then ascii " SMTPUTF8" else []) ++ crlf
  | .rcpt recipient => ascii "RCPT TO:<" ++ recipient ++ ascii ">" ++ crlf
  | .data => ascii "DATA" ++ crlf
  | .content bytes => bytes
  | .rset => ascii "RSET" ++ crlf
  | .quit => ascii "QUIT" ++ crlf

structure DataEncoder where
  atLineStart : Bool := true
  afterCr : Bool := false
  size : ℕ := 0

namespace DataEncoder

def byte (e : DataEncoder) (b : UInt8) : DataEncoder × Bytes :=
  if b = 10 ∧ e.afterCr then ({ e with afterCr := false }, [])
  else if b = 13 ∨ b = 10 then (⟨true, b = 13, e.size + 2⟩, crlf)
  else (⟨false, false, e.size + 1⟩, if e.atLineStart ∧ b = 46 then [46, b] else [b])

def encode (e : DataEncoder) : Bytes → DataEncoder × Bytes
  | [] => (e, [])
  | b :: rest => ((e.byte b).1.encode rest).map id ((e.byte b).2 ++ ·)

/-- Where the last line ends, with the terminator of the message, and its octets. -/
def finish (e : DataEncoder) : Bytes × ℕ :=
  if e.atLineStart then (ascii "." ++ crlf, e.size) else (crlf ++ ascii "." ++ crlf, e.size + 2)

end DataEncoder

def encodeData (content : Bytes) : Bytes × ℕ :=
  let encoded := ({} : DataEncoder).encode content
  (encoded.2 ++ encoded.1.finish.1, encoded.1.finish.2)

end Turnloop.Smtp
