import Turnloop.Lib.Bytes
import Turnloop.Lib.Incremental
import Turnloop.Lib.Numeral

/-! The RESP2 and RESP3 codec. -/

namespace Turnloop.Redis

open Lib

export Lib (Bytes ascii USIZE_MAX U32_MAX)

def CR : UInt8 := 13

def LF : UInt8 := 10

/-- What the codec takes from the platform's double-precision numbers. -/
structure Doubles where
  F64 : Type
  INFINITY : F64
  NEG_INFINITY : F64
  NAN : F64
  parse : Bytes → Option F64

inductive Value (F64 : Type) where
  | simple (v : Bytes)
  | error (v : Bytes)
  | bulk (v : Bytes)
  | integer (n : ℤ)
  | double (d : F64)
  | boolean (b : Bool)
  | null
  | array (v : List (Value F64))
  | map (v : List (Value F64 × Value F64))
  | set (v : List (Value F64))
  | push (v : List (Value F64))
  | verbatim (v : Bytes)
  | bigNumber (v : Bytes)
  | attribute (v : List (Value F64 × Value F64)) (value : Value F64)

namespace Value

variable {F64 : Type}

def bytes : Value F64 → Option Bytes
  | .simple v | .error v | .bulk v | .verbatim v | .bigNumber v => some v
  | _ => none

def items : Value F64 → Option (List (Value F64))
  | .array v | .set v | .push v => some v
  | _ => none

def integer? : Value F64 → Option ℤ
  | .integer n => some n
  | _ => none

end Value

inductive DecodeError where
  | Incomplete
  | Invalid
  | Limit
  | StreamingUnsupported

structure Limits where
  bytes : ℕ
  items : ℕ
  depth : ℕ

def I64_MAX : ℕ := 2 ^ 63 - 1

structure Cursor where
  p : ℕ
  budget : ℕ

abbrev Pass (β : Type) := StateT Cursor (Except DecodeError) β

def line (input : Bytes) : Pass Bytes := do
  let c ← get
  let tail := input.drop c.p
  match tail.findIdx? (· == LF) with
  | none => throw .Incomplete
  | some e =>
    if e = 0 ∨ tail[e - 1]? ≠ some CR then throw .Invalid
    else do
      set { c with p := c.p + e + 1 }
      pure (tail.take (e - 1))

def isAsciiDigit (b : UInt8) : Bool := 48 ≤ b && b ≤ 57

def parseI64 (v : Bytes) : Except DecodeError ℤ :=
  let digits := if v.head? = some 45 then v.tail else v
  let n := numeralValue 10 (digits.map fun b => b.toNat - 48)
  if digits.isEmpty then .error .Invalid
  else if v.head? = some 45 then if n ≤ I64_MAX + 1 then .ok (-n) else .error .Invalid
  else if n ≤ I64_MAX then .ok n else .error .Invalid

def number (v : Bytes) : Except DecodeError ℤ :=
  if v.isEmpty || v.head? == some 43 ||
    v.zipIdx.any (fun (b, i) => !isAsciiDigit b && !(i == 0 && b == 45)) then .error .Invalid
  else parseI64 v

def usize (n : ℤ) : Except DecodeError ℕ := if n < 0 then .error .Invalid else .ok n.toNat

def copied {α : Type} (build : Bool) (items : List α) : List α := if build then items else []

section

variable (D : Doubles) (limits : Limits) (build : Bool) (input : Bytes)

def unsigned (head : Bytes) : Bytes :=
  match head with
  | 45 :: rest => rest
  | 43 :: rest => rest
  | _ => head

def scalar (kind : Char) (head : Bytes) : Except DecodeError (Value D.F64) :=
  let copy := copied build head
  match kind with
  | '+' => .ok (.simple copy)
  | '-' => .ok (.error copy)
  | ':' => (number head).map .integer
  | ',' =>
    if head = ascii "inf" ∨ head = ascii "+inf" then .ok (.double D.INFINITY)
    else if head = ascii "-inf" then .ok (.double D.NEG_INFINITY)
    else if head = ascii "nan" then .ok (.double D.NAN)
    else match D.parse head with
      | some d => .ok (.double d)
      | none => .error .Invalid
  | '(' => if (unsigned head).isEmpty ||
      !(unsigned head).all isAsciiDigit then .error .Invalid else .ok (.bigNumber copy)
  | '#' =>
    if head = ascii "t" then .ok (.boolean true)
    else if head = ascii "f" then .ok (.boolean false)
    else .error .Invalid
  | '_' => if head.isEmpty then .ok .null else .error .Invalid
  | _ => .error .Invalid

def extent (kind nullable : Char) (head : Bytes) : Except DecodeError (Option ℕ) := do
  if head = ascii "?" then throw .StreamingUnsupported
  else
    let n ← number head
    if n = -1 ∧ kind = nullable then pure none
    else
      let n ← usize n
      pure (some n)

def blobValue (kind : Char) (value : Bytes) : Value D.F64 :=
  match kind with
  | '$' => .bulk value
  | '!' => .error value
  | _ => .verbatim value

def blob (kind : Char) (len : ℕ) : Pass (Value D.F64) := do
  let c ← get
  if len > limits.bytes then throw .Limit
  else if c.p + len + 2 > USIZE_MAX then throw .Limit
  else if c.p + len > input.length then throw .Incomplete
  else if c.p + len + 2 > input.length then throw .Incomplete
  else if (input.drop (c.p + len)).take 2 ≠ [CR, LF] then throw .Invalid
  else
    let bytes := (input.drop c.p).take len
    if kind = '=' ∧ (len < 4 ∨ bytes[3]? ≠ some 58) then throw .Invalid
    else do
      set { c with p := c.p + len + 2 }
      pure (blobValue D kind (copied build bytes))

def values (m : Pass (Value D.F64)) : ℕ → Pass (List (Value D.F64))
  | 0 => pure []
  | n + 1 => do
    let a ← m
    let rest ← values m n
    pure (a :: rest)

def entries (m : Pass (Value D.F64)) : ℕ → Pass (List (Value D.F64 × Value D.F64))
  | 0 => pure []
  | n + 1 => do
    let a ← m
    let b ← m
    let rest ← entries m n
    pure ((a, b) :: rest)

def withinBudget (total : ℕ) : Pass Unit := do
  let c ← get
  if total > c.budget then throw .Limit else pure ()

def listValue (kind : Char) (items : List (Value D.F64)) : Value D.F64 :=
  match kind with
  | '*' => .array items
  | '~' => .set items
  | _ => .push items

def aggregate (m : Pass (Value D.F64)) (kind : Char) (count : ℕ) : Pass (Value D.F64) :=
  if kind = '%' ∨ kind = '|' then do
    withinBudget (count * 2)
    let pairs ← entries D m count
    if kind = '%' then pure (.map (copied build pairs))
    else do
      let value ← m
      pure (if build then .attribute pairs value else .null)
  else do
    withinBudget count
    let items ← values D m count
    pure (listValue D kind (copied build items))

def spend : Pass Unit := do
  let c ← get
  if c.budget = 0 then throw .Limit else set { c with budget := c.budget - 1 }

def kindOf : Pass Char := do
  let c ← get
  match input[c.p]? with
  | none => throw .Incomplete
  | some b => do
    set { c with p := c.p + 1 }
    pure (Char.ofNat b.toNat)

/-- A node and all below it; the number is how much deeper the limit lets it go. -/
def node : ℕ → Pass (Value D.F64)
  | 0 => throw .Limit
  | depth + 1 => do
    spend
    let kind ← kindOf input
    let head ← line input
    if kind = '$' ∨ kind = '!' ∨ kind = '=' then do
      let len ← (extent kind '$' head : Except DecodeError _)
      match len with
      | none => pure .null
      | some len => blob D limits build input kind len
    else if kind = '*' ∨ kind = '~' ∨ kind = '>' ∨ kind = '%' ∨ kind = '|' then do
      let count ← (extent kind '*' head : Except DecodeError _)
      match count with
      | none => pure .null
      | some count => aggregate D build (node depth) kind count
    else (scalar D build kind head : Except DecodeError _)

end

variable (D : Doubles) (limits : Limits)

def pass (build : Bool) (input : Bytes) : Except DecodeError (Value D.F64 × Cursor) :=
  node D limits build input (limits.depth + 1) ⟨0, limits.items⟩

def frameLen (input : Bytes) : Except DecodeError (Option ℕ) :=
  match pass D limits false input with
  | .error .Incomplete => if input.length ≤ limits.bytes then .ok none else .error .Limit
  | .error e => .error e
  | .ok (_, c) => if c.p > limits.bytes then .error .Limit else .ok (some c.p)

def decode (input : Bytes) : Except DecodeError (Option (Value D.F64 × ℕ)) := do
  match ← frameLen D limits input with
  | none => pure none
  | some e =>
    let r ← pass D limits true input
    pure (some (r.1, e))

def decimal (n : ℕ) : Bytes := (numeral 10 n).map fun d => UInt8.ofNat (48 + d)

def encodeArg (arg : Bytes) : Bytes := ascii "$" ++ decimal arg.length ++ [CR, LF] ++ arg ++ [CR, LF]

def encodeCommand (args : List Bytes) : Bytes := ascii "*" ++ decimal args.length ++ [CR, LF] ++ args.flatMap encodeArg

structure Message where
  pattern : Option Bytes
  channel : Bytes
  payload : Bytes

def textAt (input : Bytes) (pos : ℕ) : Option (Bytes × ℕ) := do
  let kind ← input[pos]?
  let (head, c) ← (line input ⟨pos + 1, 0⟩).toOption
  if kind = 43 then pure (head, c.p)
  else if kind = 36 then do
    let len ← (number head).toOption
    let len ← (usize len).toOption
    if c.p + len ≤ input.length then pure ((input.drop c.p).take len, c.p + len + 2) else none
  else none

def messageAt (input : Bytes) (pos : ℕ) (patterned : Bool) : Option Message := do
  if patterned then do
    let (pattern, pos) ← textAt input pos
    let (channel, pos) ← textAt input pos
    let (payload, _) ← textAt input pos
    pure ⟨some pattern, channel, payload⟩
  else do
    let (channel, pos) ← textAt input pos
    let (payload, _) ← textAt input pos
    pure ⟨none, channel, payload⟩

def messageIn (input : Bytes) : Except DecodeError (Option Message) := do
  let (head, c) ← line input ⟨1, 0⟩
  let count ← number head
  if count ≠ 3 ∧ count ≠ 4 then pure none
  else match textAt input c.p with
    | none => pure none
    | some (tag, pos) =>
      if (count = 3 ∧ tag = ascii "message") ∨ (count = 4 ∧ tag = ascii "pmessage") then
        match messageAt input pos (count == 4) with
        | none => throw .Invalid
        | some m => pure (some m)
      else pure none

def message (input : Bytes) : Except DecodeError (Option (Message × ℕ)) :=
  if ¬ (input.head? = some 62 ∨ input.head? = some 42) then .ok none
  else match frameLen D limits input with
    | .error e => .error e
    | .ok none => .ok none
    | .ok (some e) => (messageIn input).map (Option.map (·, e))

end Turnloop.Redis
