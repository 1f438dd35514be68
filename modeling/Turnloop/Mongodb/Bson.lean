import Mathlib.Tactic
import Mathlib.Data.Prod.Lex
import Mathlib.Order.WithBot

/-! BSON documents, with the typed getters the driver reads them by, and the driver's errors. -/

namespace Turnloop.Mongodb

abbrev ObjectId := Fin (2 ^ 96)

-- A double is its bits. `other` stands for the kinds that no getter of the driver asks for.
inductive Bson
  | double (bits : UInt64)
  | string (text : String)
  | document (fields : List (String × Bson))
  | array (items : List Bson)
  | objectId (id : ObjectId)
  | boolean (value : Bool)
  | dateTime (millis : ℤ)
  | int32 (value : ℤ)
  | int64 (value : ℤ)
  | other (tag : UInt8)

abbrev Document := List (String × Bson)

namespace Bson

def asStr : Bson → Option String
  | .string text => some text
  | _ => none

def nonzero (bits : UInt64) : Bool := bits.toNat % 2 ^ 63 != 0

end Bson

namespace Document

variable (d : Document)

def get (key : String) : Option Bson := List.lookup key d

def containsKey (key : String) : Bool := (get d key).isSome

def getStr (key : String) : Option String := (get d key).bind Bson.asStr

def getBool (key : String) : Option Bool :=
  match get d key with
  | some (.boolean value) => some value
  | _ => none

def getI32 (key : String) : Option ℤ :=
  match get d key with
  | some (.int32 value) => some value
  | _ => none

def getI64 (key : String) : Option ℤ :=
  match get d key with
  | some (.int64 value) => some value
  | _ => none

def getF64 (key : String) : Option UInt64 :=
  match get d key with
  | some (.double bits) => some bits
  | _ => none

def getArray (key : String) : Option (List Bson) :=
  match get d key with
  | some (.array items) => some items
  | _ => none

def getDocument (key : String) : Option Document :=
  match get d key with
  | some (.document fields) => some fields
  | _ => none

def getObjectId (key : String) : Option ObjectId :=
  match get d key with
  | some (.objectId id) => some id
  | _ => none

def getDatetime (key : String) : Option ℤ :=
  match get d key with
  | some (.dateTime millis) => some millis
  | _ => none

def integer (key : String) : Option ℤ := (getI64 d key).or (getI32 d key)

/-- `ok` as a number that is not zero, a double or a 32-bit integer; a reply without it did not succeed. -/
def succeeded : Bool :=
  match getF64 d "ok" with
  | some bits => Bson.nonzero bits
  | none => (getI32 d "ok").getD 0 != 0

end Document

/-- A tuple of optional values as Rust orders it: `None` comes first and the first component decides. -/
def ranked {α β : Type} (a : Option α) (b : Option β) : WithBot α ×ₗ WithBot β := toLex (a, b)

inductive ErrorKind
  | parse | protocol | authentication | server | bulkWrite | network | timeout | waitQueueTimeout
  | serverSelectionTimeout | operationTimeout | poolCleared | poolClosed | invalidArgument | cancelled

structure Error where
  kind : ErrorKind
  message : String
  code : Option ℤ
  codeName : Option String
  labels : List String
  response : Option Document

def Error.new (kind : ErrorKind) (message : String) : Error := ⟨kind, message, none, none, [], none⟩

def Error.protocol (message : String) : Error := Error.new .protocol message

end Turnloop.Mongodb
