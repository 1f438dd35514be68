import Turnloop.Lib.Bytes
import Turnloop.Lib.Program
import Turnloop.Mongodb.Bson

/-! One connection to a server. -/

namespace Turnloop.Mongodb

open Lib Lib.Program

export Lib (Bytes)

structure RawDocument where
  document : Document
  size : ℕ

structure Message where
  responseTo : ℤ
  flags : ℕ
  body : RawDocument
  sequences : List (List RawDocument)

inductive Mechanism
  | sha1 | sha256

structure Credential where
  username : String
  password : String
  source : String
  mechanism : Option Mechanism

structure ConnectionOptions where
  credential : Option Credential
  tls : Bool
  appName : Option String
  connectTimeout : ℕ
  socketTimeout : ℕ
  compressors : List String

/-- The parts of a connection: messages (`Message::parse`, `wire::encode`), one zlib stream each, SCRAM, and the
names the client gives itself. -/
structure Wire where
  parse : Bytes → ℕ → Except Error Message
  encode : ℤ → ℕ → RawDocument → List (String × List RawDocument) → ℕ → Except Error Bytes
  raw : Document → Option RawDocument
  deflate : Bytes → Except String Bytes
  /-- The bytes, and whether the stream ended with both sizes as announced. -/
  inflate : Bytes → ℕ → Option (Bytes × Bool)
  Scram : Type
  scramNew : Credential → Mechanism → String → Except Error Scram
  scramStart : Scram → String → Bool → Scram × Document
  scramReceive : Scram → Document → String → Except Error (Scram × Option Document)
  version : String
  os : String

namespace Wire

def opMsg : ℤ := 2013

def opCompressed : ℤ := 2012

def moreToCome : ℕ := 2

def defaultMaxMessage : ℕ := 48000000

def le32 (n : ℕ) : Bytes := [n, n / 256, n / 65536, n / 16777216].map UInt8.ofNat

def i32At (bytes : Bytes) (at_ : ℕ) : Except Error ℤ :=
  match bytes.drop at_ with
  | b₀ :: b₁ :: b₂ :: b₃ :: _ =>
    let n : ℕ := b₀.toNat + 256 * b₁.toNat + 65536 * b₂.toNat + 16777216 * b₃.toNat
    .ok (if n < 2 ^ 31 then n else n - 2 ^ 32)
  | _ => .error (Error.protocol "Truncated int32")

def length (bytes : Bytes) (at_ min : ℕ) : Except Error ℕ :=
  match i32At bytes at_ with
  | .error e => .error e
  | .ok n => if n < min then .error (Error.protocol "Invalid BSON or message length") else .ok n.toNat

end Wire

structure Decoder where
  bytes : Bytes
  max : ℕ

namespace Decoder

def tooLong : Error := Error.protocol "Message exceeds maxMessageSizeBytes"

def target (d : Decoder) : Except Error ℕ := if d.bytes.length < 4 then .ok 4 else Wire.length d.bytes 0 16

def checkLength (d : Decoder) : Except Error Unit :=
  if d.bytes.length < 4 then .ok ()
  else match Wire.length d.bytes 0 16 with
    | .error e => .error e
    | .ok n => if n > d.max then .error tooLong else .ok ()

def extended (d : Decoder) (input : Bytes) (n : ℕ) : Decoder := { d with bytes := d.bytes ++ input.take n }

def complete (d : Decoder) : Bool :=
  decide (d.bytes.length ≥ 4) && match Wire.i32At d.bytes 0 with
    | .ok n => n = d.bytes.length
    | .error _ => false

end Decoder

inductive ConnectionEvent
  | upgradeTls
  | ready
  | reply (token : ℕ)
  | unacknowledged (token : ℕ)
  | failed (token : Option ℕ) (error : Error)
  | closed

inductive ConnectionState
  | new | tls | handshake | auth | ready | command | unackSending | reply | closed
  deriving DecidableEq

structure Connection (W : Wire) where
  options : ConnectionOptions
  state : ConnectionState
  tx : Bytes
  txAt : ℕ
  decoder : Decoder
  expanded : Bytes
  zlib : Bool
  events : List ConnectionEvent
  requestId : ℤ
  expected : ℤ
  token : Option ℕ
  deadline : Option ℕ
  scram : Option W.Scram
  nonce : String
  hello : Option Document
  maxMessageSize : ℕ
  maxBsonSize : ℕ
  maxWriteBatchSize : ℕ

/-- A call that fails gives its error; an `unwrap` of nothing ends the program. -/
inductive Fault
  | error (e : Error)
  | panic

namespace Connection

variable {W : Wire}

abbrev M (W : Wire) (α : Type) := Program Fault (Connection W) α

def new (options : ConnectionOptions) : Connection W where
  options := options
  state := .new
  tx := []
  txAt := 0
  decoder := ⟨[], Wire.defaultMaxMessage⟩
  expanded := []
  zlib := false
  events := []
  requestId := 0
  expected := 0
  token := none
  deadline := none
  scram := none
  nonce := ""
  hello := none
  maxMessageSize := Wire.defaultMaxMessage
  maxBsonSize := 16 * 1024 * 1024
  maxWriteBatchSize := 100000

def protocol (message : String) : Fault := .error (Error.protocol message)

def check {α : Type} : Except Error α → M W α
  | .ok a => pure a
  | .error e => throw (.error e)

def unwrap {α : Type} : Option α → M W α
  | some a => pure a
  | none => throw .panic

def uncompressed : List String :=
  ["hello", "isMaster", "ismaster", "saslStart", "saslContinue", "authenticate", "getnonce", "createUser", "updateUser",
    "copydbSaslStart", "copydbgetnonce", "copydb"]

def compressedFrame (tx stream : Bytes) : Bytes :=
  Wire.le32 (25 + stream.length) ++ (tx.take 12).drop 4 ++ Wire.le32 2012 ++ Wire.le32 2013 ++
    Wire.le32 (tx.length - 16) ++ [2] ++ stream

def compress (command : String) : M W Unit := do
  let c ← get
  when (c.zlib && !uncompressed.contains command) do
    let stream ← check ((W.deflate (c.tx.drop 16)).mapError Error.protocol)
    modify fun c => { c with tx := compressedFrame c.tx stream }

def nextRequest (id : ℤ) : ℤ := max (if id + 1 = 2 ^ 31 then -2 ^ 31 else id + 1) 1

def firstKey (d : Document) : Except Error String :=
  match d with
  | [] => .error (Error.protocol "Empty command")
  | (key, _) :: _ => .ok key

def send (body : RawDocument) (sequences : List (String × List RawDocument)) (flags : ℕ) : M W Unit := do
  let c ← get
  modify fun c => { c with tx := [] }
  let bytes ← check (W.encode (nextRequest c.requestId) flags body sequences c.maxMessageSize)
  modify fun c =>
    { c with tx := bytes, requestId := nextRequest c.requestId, expected := nextRequest c.requestId, txAt := 0 }
  let command ← check (firstKey body.document)
  compress command

def sendDocument (d : Document) : M W Unit := do
  let raw ← check ((W.raw d).elim (.error (Error.protocol "Cannot encode BSON command")) .ok)
  send raw [] 0

def clientDocument (W : Wire) (options : ConnectionOptions) : Document :=
  [("driver", .document [("name", .string "turnloop-mongodb"), ("version", .string W.version)]),
    ("os", .document [("type", .string W.os)])] ++
  match options.appName with
  | some app => [("application", .document [("name", .string app)])]
  | none => []

def helloDocument (W : Wire) (options : ConnectionOptions) : Document :=
  [("isMaster", .int32 1), ("helloOk", .boolean true), ("client", .document (clientDocument W options)),
    ("compression", .array (options.compressors.map .string)), ("$db", .string "admin")]

def speculate (c : Credential) (start : Document) : Document :=
  (if c.mechanism.isNone then [("saslSupportedMechs", .string (c.source ++ "." ++ c.username))] else []) ++
    [("speculativeAuthenticate", .document start)]

def handshake : M W Unit := do
  let c ← get
  match c.options.credential with
  | none => do
    modify fun c => { c with state := .handshake }
    sendDocument (helloDocument W c.options)
  | some credential => do
    let scram ← check (W.scramNew credential (credential.mechanism.getD .sha256) c.nonce)
    let started := W.scramStart scram credential.source true
    modify fun c => { c with scram := some started.1, state := .handshake }
    sendDocument (helloDocument W c.options ++ speculate credential started.2)

def after (timeout now : ℕ) : Option ℕ := if timeout = 0 then none else some (now + timeout)

def connected (now : ℕ) (nonce : String) : M W Unit := do
  let c ← get
  refuse (c.state ≠ .new) (protocol "Connection already started")
  modify fun c => { c with nonce := c.nonce ++ nonce, deadline := after c.options.connectTimeout now }
  if c.options.tls then
    modify fun c => { c with state := .tls, events := c.events ++ [ConnectionEvent.upgradeTls] }
  else handshake

def tlsEstablished : M W Unit := do
  let c ← get
  refuse (c.state ≠ .tls) (protocol "Unexpected TLS completion")
  handshake

def acknowledge : M W Unit := do
  let c ← get
  let token ← unwrap c.token
  modify fun c =>
    { c with
      state := .ready
      deadline := none
      token := none
      events := c.events ++ [ConnectionEvent.unacknowledged token] }

def drained : M W Unit := do
  let c ← get
  modify fun c => { c with tx := [], txAt := 0 }
  when (c.state = .unackSending) acknowledge

def consumeTransmit (n : ℕ) : M W Unit := do
  let c ← get
  refuse (n > c.tx.length - c.txAt) (protocol "Transmit consumption exceeds bytes")
  modify fun c => { c with txAt := c.txAt + n }
  when (c.txAt + n = c.tx.length) drained

def acceptsReceive (c : Connection W) : Bool := c.state = .handshake || c.state = .auth || c.state = .command

def frame (c : Connection W) : Bytes := if c.expanded.isEmpty then c.decoder.bytes else c.expanded

def feed (input : Bytes) : M W ℕ := do
  let c ← get
  let target ← check c.decoder.target
  refuse (target > c.decoder.max) (.error Decoder.tooLong)
  let n := min input.length (target - c.decoder.bytes.length)
  modify fun c => { c with decoder := c.decoder.extended input n }
  let c ← get
  check c.decoder.checkLength
  pure n

def expandedFrame (b : Bytes) (size : ℕ) (payload : Bytes) : Bytes :=
  Wire.le32 (size + 16) ++ (b.take 12).drop 4 ++ Wire.le32 2013 ++ payload

def expand : M W Unit := do
  let c ← get
  modify fun c => { c with expanded := [] }
  let b := c.decoder.bytes
  let opcode ← check (Wire.i32At b 12)
  when (opcode = Wire.opCompressed) do
    refuse (!c.zlib) (protocol "Unnegotiated compressed reply")
    refuse (b.length < 25) (protocol "Invalid compressed envelope")
    let original ← check (Wire.i32At b 16)
    refuse (original ≠ Wire.opMsg || b[24]? ≠ some 2) (protocol "Invalid compressed envelope")
    let size ← check (Wire.i32At b 20)
    refuse (decide (size < 10) || decide (size.toNat > c.maxMessageSize - 16))
      (protocol "Decompressed size out of range")
    let payload ← check ((W.inflate (b.drop 25) size.toNat).elim (.error (Error.protocol "Invalid zlib reply")) .ok)
    refuse (!payload.2) (protocol "Compressed reply size mismatch")
    modify fun c => { c with expanded := expandedFrame b size.toNat payload.1 }

def number (d : Document) (key : String) : Bool :=
  match Document.get d key with
  | some (.double bits) => Bson.nonzero bits
  | some (.int32 n) => n != 0
  | some (.int64 n) => n != 0
  | _ => false

/-- `Error::from_response`: the server's error, of the command or of its first failed write. -/
def responseError (d : Document) : Except Error Unit :=
  let writes := (Document.getArray d "writeErrors").getD []
  let concern := Document.getDocument d "writeConcernError"
  if number d "ok" && writes.isEmpty && concern.isNone then .ok ()
  else
    let first : Option Document := match writes.head? with
      | some (.document e) => some e
      | _ => none
    let detail := if writes.isEmpty then concern.getD d else first.getD d
    .error
      { kind := if writes.isEmpty then .server else .bulkWrite
        message := (Document.getStr detail "errmsg").getD "MongoDB command failed"
        code := Document.getI32 detail "code"
        codeName := Document.getStr detail "codeName"
        labels := ((Document.getArray d "errorLabels").getD []).filterMap Bson.asStr
        response := some d }

def sizeLimit (d : Document) (key : String) (default min : ℕ) : Except Error ℕ :=
  match Document.getI32 d key with
  | none => .ok default
  | some v => if v < min then .error (Error.protocol "Invalid handshake size limit") else .ok v.toNat

def negotiate (d : Document) : M W Unit := do
  let c ← get
  refuse (decide ((Document.getI32 d "maxWireVersion").getD 0 < 6) ||
    decide ((Document.getI32 d "minWireVersion").getD 0 > 27))
    (protocol "MongoDB server wire version is incompatible (client supports 6 through 27)")
  let message ← check (sizeLimit d "maxMessageSizeBytes" c.maxMessageSize 26)
  modify fun c => { c with maxMessageSize := message }
  let bson ← check (sizeLimit d "maxBsonObjectSize" c.maxBsonSize 5)
  modify fun c => { c with maxBsonSize := bson }
  let batch ← check (sizeLimit d "maxWriteBatchSize" c.maxWriteBatchSize 1)
  modify fun c =>
    { c with
      maxWriteBatchSize := batch
      maxMessageSize := min c.maxMessageSize Wire.defaultMaxMessage
      decoder := { c.decoder with max := min c.maxMessageSize Wire.defaultMaxMessage }
      zlib := c.options.compressors.contains "zlib" &&
        ((Document.getArray d "compression").getD []).any fun b => b.asStr = some "zlib"
      hello := some d }

def becomeReady : M W Unit :=
  modify fun c =>
    { c with
      scram := none
      nonce := ""
      state := .ready
      deadline := none
      events := c.events ++ [ConnectionEvent.ready] }

def proceed : Option Document → M W Unit
  | some next => sendDocument next
  | none => becomeReady

def scramStep (d : Document) (source : String) : M W (Option Document) := do
  let c ← get
  let scram ← unwrap c.scram
  let stepped ← check (W.scramReceive scram d source)
  modify fun c => { c with scram := some stepped.1 }
  pure stepped.2

def scramRestart (d : Document) (credential : Credential) : M W (Option Document) := do
  let c ← get
  let offered := ((Document.getArray d "saslSupportedMechs").getD []).any fun b => b.asStr = some "SCRAM-SHA-256"
  let scram ← check (W.scramNew credential (credential.mechanism.getD (if offered then .sha256 else .sha1)) c.nonce)
  let started := W.scramStart scram credential.source false
  modify fun c => { c with scram := some started.1 }
  pure (some started.2)

def firstStep (d : Document) (credential : Credential) : M W (Option Document) :=
  match Document.getDocument d "speculativeAuthenticate" with
  | some spec => scramStep spec credential.source
  | none => scramRestart d credential

def authenticate (d : Document) (credential : Credential) : M W Unit := do
  modify fun c => { c with state := .auth }
  let next ← firstStep d credential
  proceed next

def receiveHello (d : Document) : M W Unit := do
  negotiate d
  let c ← get
  match c.options.credential with
  | some credential =>
    if (Document.getBool d "arbiterOnly").getD false then becomeReady else authenticate d credential
  | none => becomeReady

def receiveAuth (d : Document) : M W Unit := do
  let c ← get
  let credential ← unwrap c.options.credential
  let next ← scramStep d credential.source
  proceed next

def receiveSetup (m : Message) : M W Unit := do
  let c ← get
  check (responseError m.body.document)
  modify fun c => { c with decoder := { c.decoder with bytes := [] }, expanded := [] }
  if c.state = .handshake then receiveHello m.body.document else receiveAuth m.body.document

def receiveReply : M W Unit := do
  let c ← get
  let token ← unwrap c.token
  modify fun c => { c with state := .reply, deadline := none, events := c.events ++ [ConnectionEvent.reply token] }

def receiveMessage : M W Unit := do
  expand
  let c ← get
  let m ← check (W.parse c.frame c.maxMessageSize)
  refuse (m.responseTo ≠ c.expected) (protocol "MongoDB responseTo does not match request")
  refuse (m.flags &&& Wire.moreToCome ≠ 0) (protocol "Unexpected exhaust reply")
  if c.state = .command then receiveReply else receiveSetup m

def receiveInner (input : Bytes) : M W ℕ := do
  let n ← feed input
  let c ← get
  when c.decoder.complete receiveMessage
  pure n

def fail (c : Connection W) (error : Error) : Connection W :=
  if c.state = .closed then c
  else
    let revoked := if c.state = .reply then
        { c with
          decoder := { c.decoder with bytes := [] }
          expanded := []
          events := c.events.filter fun e => match e with
            | .reply token => c.token != some token
            | _ => true }
      else c
    { revoked with
      token := none
      events := revoked.events ++ [ConnectionEvent.failed c.token error, .closed]
      state := .closed
      deadline := none
      tx := []
      txAt := 0 }

def receive (input : Bytes) : M W ℕ := do
  let c ← get
  refuse (!c.acceptsReceive) (protocol "Connection is not expecting a reply")
  tryCatch (receiveInner input) fun fault => match fault with
    | .panic => throw .panic
    | .error e => do
      modify (fail · e)
      throw (.error e)

def readable (c : Connection W) : Bool :=
  c.state = .reply || (c.state = .closed && c.token.isSome && c.decoder.complete)

def reply (c : Connection W) : Except Error RawDocument :=
  if !c.readable then .error (Error.protocol "No reply available")
  else (W.parse c.frame c.maxMessageSize).map Message.body

def releaseReply : M W Unit := do
  let c ← get
  refuse (!c.readable) (protocol "No reply to release")
  modify fun c =>
    { c with
      token := none
      decoder := { c.decoder with bytes := [] }
      expanded := []
      state := if c.state ≠ .closed then .ready else c.state }

def unacknowledged (d : Document) : Bool :=
  match Document.getDocument d "writeConcern" with
  | none => false
  | some concern => match Document.get concern "w" with
    | some (.int32 0) => true
    | some (.int64 0) => true
    | _ => false

def accept (token now : ℕ) (state : ConnectionState) : M W Unit :=
  modify fun c => { c with token := some token, state := state, deadline := after c.options.socketTimeout now }

def command (token : ℕ) (body : RawDocument) (sequences : List (String × List RawDocument)) (now : ℕ) : M W Unit := do
  let c ← get
  refuse (c.state ≠ .ready || !c.tx.isEmpty) (protocol "Connection busy")
  refuse (Document.getStr body.document "$db").isNone (protocol "Command requires $db")
  refuse (decide (body.size > c.maxBsonSize) || sequences.any fun (_, docs) =>
      decide (docs.length > c.maxWriteBatchSize) || docs.any fun d => decide (d.size > c.maxBsonSize))
    (protocol "Command exceeds negotiated BSON or batch size")
  let unack := unacknowledged body.document
  send body sequences (if unack then Wire.moreToCome else 0)
  accept token now (if unack then .unackSending else .command)

def withRequest (frame : Bytes) (id : ℤ) : Bytes := frame.take 4 ++ Wire.le32 id.toNat ++ frame.drop 8

def transmitFrame (frame : Bytes) (key : String) : M W Unit := do
  modify fun c =>
    { c with
      tx := withRequest frame (nextRequest c.requestId)
      requestId := nextRequest c.requestId
      expected := nextRequest c.requestId
      txAt := 0 }
  tryCatch (compress key) fun fault => do
    modify fun c => { c with tx := [] }
    throw fault

def commandEncoded (token : ℕ) (frame : Bytes) (now : ℕ) : M W Unit := do
  let c ← get
  refuse (c.state ≠ .ready || !c.tx.isEmpty) (protocol "Connection busy")
  let m ← check (W.parse frame c.maxMessageSize)
  refuse (m.flags ≠ 0 || (Document.getStr m.body.document "$db").isNone)
    (protocol "Operation template requires $db and no wire flags")
  refuse (unacknowledged m.body.document) (protocol "Unacknowledged writes require Connection::command")
  refuse (decide (m.body.size > c.maxBsonSize)) (protocol "Command exceeds maxBsonObjectSize")
  refuse (m.sequences.any fun docs => decide (docs.length > c.maxWriteBatchSize) ||
    docs.any fun d => decide (d.size > c.maxBsonSize))
    (protocol "Write sequence exceeds server limits")
  let key ← check (firstKey m.body.document)
  transmitFrame frame key
  accept token now .command

def handleTimeout (c : Connection W) (now : ℕ) : Connection W :=
  if c.deadline.any (· ≤ now) then c.fail (Error.new .timeout "MongoDB connection timed out") else c

def close (c : Connection W) : Connection W :=
  if c.state = .closed then c
  else
    let settled := if c.token.isSome && c.state ≠ .reply then
        { c with
          token := none
          events := c.events ++ [.failed c.token (Error.new .cancelled "Operation cancelled by connection close")] }
      else c
    { settled with
      state := .closed
      deadline := none
      tx := []
      txAt := 0
      events := settled.events ++ [ConnectionEvent.closed] }

def pollEvent (c : Connection W) : Connection W × Option ConnectionEvent :=
  ({ c with events := c.events.tail }, c.events.head?)

end Connection

end Turnloop.Mongodb
