import Turnloop.Lib.Program
import Turnloop.Redis.Resp

/-! A Redis connection: handshake, pipelined commands, subscriptions, timeouts and reconnects. -/

namespace Turnloop.Redis

open Lib.Program (refuse when)

structure Config where
  username : Option Bytes
  password : Option Bytes
  database : ℕ
  clientName : Option Bytes
  tls : Bool
  preferResp3 : Bool
  offlineQueue : Bool
  autoResubscribe : Bool
  autoResendUnfulfilled : Bool
  maxRetriesPerRequest : Option ℕ
  connectTimeout : ℕ
  limits : Limits

inductive Error where
  | new (message : String)
  | reply (bytes : Bytes)

def DecodeError.display : DecodeError → String
  | .Incomplete => "RESP Incomplete"
  | .Invalid => "RESP Invalid"
  | .Limit => "RESP Limit"
  | .StreamingUnsupported => "RESP StreamingUnsupported"

inductive State where
  | Disconnected
  | Connecting
  | Tls
  | Handshake
  | Ready
  | RetryDecision
  | WaitingRetry
  | Closed
  deriving DecidableEq

inductive Event (F64 : Type) where
  | connect
  | upgradeTls
  | ready (resp3 : Bool)
  | reply (token : ℕ) (result : Except Error (Value F64))
  | message (m : Message)
  | push (v : Value F64)
  | retry (attempt : ℕ)
  | error (e : Error)
  | closeTransport
  | closed

inductive Kind where
  | Normal
  | Subscribe
  | Psubscribe
  | Unsubscribe
  | Punsubscribe
  | Quit
  deriving DecidableEq

def lower (b : UInt8) : UInt8 := if 65 ≤ b ∧ b ≤ 90 then b + 32 else b

def eqIgnoreAsciiCase (a b : Bytes) : Bool := a.map lower == b.map lower

namespace Kind

def of (name : Bytes) : Kind :=
  if eqIgnoreAsciiCase name (ascii "SUBSCRIBE") then .Subscribe
  else if eqIgnoreAsciiCase name (ascii "PSUBSCRIBE") then .Psubscribe
  else if eqIgnoreAsciiCase name (ascii "UNSUBSCRIBE") then .Unsubscribe
  else if eqIgnoreAsciiCase name (ascii "PUNSUBSCRIBE") then .Punsubscribe
  else if eqIgnoreAsciiCase name (ascii "QUIT") then .Quit
  else .Normal

def subscription : Kind → Bool
  | .Subscribe | .Psubscribe | .Unsubscribe | .Punsubscribe => true
  | _ => false

def subscribes : Kind → Bool
  | .Subscribe | .Psubscribe => true
  | _ => false

end Kind

structure Pending where
  token : Option ℕ
  wire : Bytes
  deadline : Option ℕ
  kind : Kind
  acks : ℕ

inductive Handshake where
  | Hello
  | Auth
  | Select
  | Name
  | Restore
  deriving DecidableEq

structure Connection (D : Doubles) where
  config : Config
  state : State := .Disconnected
  resp3 : Bool := false
  handshake : Handshake := .Hello
  tx : Bytes := []
  txPos : ℕ := 0
  rx : Bytes := []
  events : List (Event D.F64) := []
  pending : List Pending := []
  offline : List Pending := []
  channels : List Bytes := []
  patterns : List Bytes := []
  subscriber : Bool := false
  deadline : Option ℕ := none
  attempt : ℕ := 0

abbrev M (D : Doubles) (α : Type) := Lib.Program Error (Connection D) α

namespace Connection

variable {D : Doubles}

def new (config : Config) : Connection D := { config := config }

def emit (e : Event D.F64) (c : Connection D) : Connection D := { c with events := c.events ++ [e] }

def write (bytes : Bytes) (c : Connection D) : Connection D := { c with tx := c.tx ++ bytes }

def output (c : Connection D) : Bytes := c.tx.drop c.txPos

/-- The assertion on the count comes before anything changes. -/
def consumeOutput (count : ℕ) (c : Connection D) : Connection D :=
  if count > c.output.length then c
  else if c.txPos + count = c.tx.length then { c with tx := [], txPos := 0 }
  else { c with txPos := c.txPos + count }

def connect (now : ℕ) : M D Unit := do
  let c ← get
  refuse (!(c.state == .Disconnected || c.state == .Closed || c.state == .WaitingRetry))
    (.new "Redis is already connecting/connected")
  modify fun c => emit .connect
    { c with rx := [], state := .Connecting, deadline := some (now + c.config.connectTimeout) }

def refreshSubscriber (c : Connection D) : Connection D :=
  { c with
    subscriber := !c.channels.isEmpty || !c.patterns.isEmpty ||
      (c.pending ++ c.offline).any (fun p => p.kind.subscribes) }

def ready (c : Connection D) : Connection D :=
  let c := emit (.ready c.resp3) (refreshSubscriber { c with state := .Ready, deadline := none, attempt := 0 })
  { c with
    tx := c.tx ++ c.offline.flatMap Pending.wire
    pending := c.pending ++ c.offline
    offline := [] }

def resubscription (kind : Kind) (item : Bytes) : Pending :=
  { token := none
    wire := encodeCommand [if kind = .Subscribe then ascii "SUBSCRIBE" else ascii "PSUBSCRIBE", item]
    deadline := none
    kind := kind
    acks := 1 }

def resubscribe (c : Connection D) : Connection D :=
  if c.config.autoResubscribe then
    let restored := c.channels.map (resubscription .Subscribe) ++ c.patterns.map (resubscription .Psubscribe)
    { c with
      tx := c.tx ++ restored.flatMap Pending.wire
      pending := c.pending ++ restored
      subscriber := !(c.pending ++ restored).isEmpty }
  else { c with channels := [], patterns := [] }

def restore (c : Connection D) : Connection D :=
  let c := resubscribe { c with handshake := .Restore }
  if c.pending.isEmpty then ready c else c

def name (c : Connection D) : Connection D :=
  let c := { c with handshake := .Name }
  match c.config.clientName with
  | some name => write (encodeCommand [ascii "CLIENT", ascii "SETNAME", name]) c
  | none => restore c

def select (c : Connection D) : Connection D :=
  let c := { c with handshake := .Select }
  if c.config.database ≠ 0 then write (encodeCommand [ascii "SELECT", decimal c.config.database]) c else name c

def auth (c : Connection D) : Connection D :=
  let c := { c with handshake := .Auth }
  match c.config.password, c.config.username with
  | some password, some user => write (encodeCommand [ascii "AUTH", user, password]) c
  | some password, none => write (encodeCommand [ascii "AUTH", password]) c
  | none, _ => select c

def beginHandshake (c : Connection D) : Connection D :=
  let c := { c with state := .Handshake, resp3 := false, subscriber := false }
  if c.config.preferResp3 then
    let c := { c with handshake := .Hello }
    match c.config.password with
    | some password =>
      write (encodeCommand [ascii "HELLO", ascii "3", ascii "AUTH",
        c.config.username.getD (ascii "default"), password]) c
    | none => write (encodeCommand [ascii "HELLO", ascii "3"]) c
  else auth c

def transportConnected : M D Unit := do
  let c ← get
  refuse (c.state != .Connecting) (.new "Unexpected connection")
  if c.config.tls then modify fun c => emit .upgradeTls { c with state := .Tls } else modify beginHandshake

def tlsEstablished : M D Unit := do
  let c ← get
  refuse (c.state != .Tls) (.new "Unexpected TLS completion")
  modify beginHandshake

def acksFor (kind : Kind) (args : List Bytes) : ℕ :=
  if args.length > 1 then args.length - 1
  else match kind with
    | .Unsubscribe | .Punsubscribe => USIZE_MAX
    | _ => 1

def enqueue (p : Pending) (c : Connection D) : Connection D :=
  if c.state = .Ready then { c with tx := c.tx ++ p.wire, pending := c.pending ++ [p] }
  else { c with offline := c.offline ++ [p] }

def command (token : ℕ) (args : List Bytes) (deadline : Option ℕ) : M D Unit := do
  let c ← get
  match args with
  | [] => throw (.new "Empty command")
  | name :: _ => do
    refuse ((c.pending ++ c.offline).any (fun p => p.token == some token)) (.new "Duplicate command token")
    refuse (c.state == .Closed) (.new "Connection is closed.")
    refuse (c.state != .Ready && !c.config.offlineQueue)
      (.new "Stream isn't writeable and enableOfflineQueue options is false")
    let kind := Kind.of name
    refuse (c.subscriber && !(kind.subscription || kind == .Quit || eqIgnoreAsciiCase name (ascii "PING")))
      (.new "Connection in subscriber mode, only subscriber commands may be used")
    when kind.subscribes (modify fun c => { c with subscriber := true })
    modify (enqueue
      { token := some token
        wire := encodeCommand args
        deadline := deadline
        kind := kind
        acks := acksFor kind args })

def owed (message : String) (p : Pending) : List (Event D.F64) :=
  match p.token with
  | some token => [.reply token (.error (.new message))]
  | none => []

def close (c : Connection D) : Connection D :=
  if c.state = .Closed then c
  else
    { c with
      events := c.events ++ (c.pending ++ c.offline).flatMap (owed "Connection is closed.") ++
        [.closeTransport, .closed]
      pending := []
      offline := []
      state := .Closed
      deadline := none
      tx := []
      txPos := 0
      channels := []
      patterns := []
      subscriber := false }

def result : Value D.F64 → Except Error (Value D.F64)
  | .error bytes => .error (.reply bytes)
  | value => .ok value

def answer (p : Pending) (value : Value D.F64) : List (Event D.F64) :=
  match p.token with
  | some token => [.reply token (result value)]
  | none => []

def complete (value : Value D.F64) : M D Unit := do
  let c ← get
  match c.pending with
  | [] => throw (.new "Unexpected Redis reply")
  | p :: rest => do
    modify fun c => refreshSubscriber { c with pending := rest, events := c.events ++ answer p value }
    when (p.kind == .Quit) (modify close)

def takeBytes : Value D.F64 → Except Error Bytes
  | .bulk v | .simple v => .ok v
  | _ => .error (.new "Invalid pub/sub message")

def published (items : List (Value D.F64)) : Except Error Message :=
  match items with
  | [_, channel, payload] => do
    let payload ← takeBytes payload
    let channel ← takeBytes channel
    pure ⟨none, channel, payload⟩
  | [_, pattern, channel, payload] => do
    let payload ← takeBytes payload
    let channel ← takeBytes channel
    let pattern ← takeBytes pattern
    pure ⟨some pattern, channel, payload⟩
  | _ => .error (.new "Invalid pub/sub message")

def resubscribed (kind : Kind) (channel : Option Bytes) (target : List Bytes) : List Bytes :=
  match channel with
  | none => target
  | some channel =>
    if kind.subscribes then if target.contains channel then target else target ++ [channel]
    else target.filter (· != channel)

def retarget (kind : Kind) (channel : Option Bytes) (c : Connection D) : Connection D :=
  if kind = .Psubscribe ∨ kind = .Punsubscribe then { c with patterns := resubscribed kind channel c.patterns }
  else { c with channels := resubscribed kind channel c.channels }

def target (kind : Kind) (c : Connection D) : List Bytes :=
  if kind = .Psubscribe ∨ kind = .Punsubscribe then c.patterns else c.channels

def acknowledged (kind : Kind) (count : ℤ) : M D Unit := do
  let c ← get
  match c.pending with
  | p :: rest =>
    if p.kind = kind then do
      let acks := if p.acks = USIZE_MAX then p.acks else p.acks - 1
      modify fun c => { c with pending := { p with acks := acks } :: rest }
      when (if p.acks = USIZE_MAX then (c.target kind).isEmpty else acks == 0) (complete (.integer count))
      modify fun c => if c.state = .Handshake ∧ c.pending.isEmpty then ready c else c
    else throw (.new "Unexpected subscription acknowledgement")
  | [] => throw (.new "Unexpected subscription acknowledgement")

def pubsub (items : List (Value D.F64)) : M D Bool := do
  let c ← get
  let tag := (items.head?.bind Value.bytes).getD []
  if (tag = ascii "message" ∧ items.length = 3) ∨ (tag = ascii "pmessage" ∧ items.length = 4) then do
    let m ← (Lib.Program.lift (published items) : M D Message)
    modify (emit (.message m))
    pure true
  else if (Kind.of tag).subscription = true ∧ items.length = 3 then do
    modify (retarget (Kind.of tag) (items[1]?.bind Value.bytes))
    match items[2]?.bind Value.integer? with
    | none => throw (.new "Invalid subscription count")
    | some count => do
      modify fun c => { c with subscriber := count != 0 }
      acknowledged (Kind.of tag) count
      pure true
  else if tag = ascii "pong" ∧ c.resp3 = false then do
    complete (.bulk ((items[1]?.bind Value.bytes).getD []))
    pure true
  else pure false

def advance (c : Connection D) : Connection D :=
  match c.handshake with
  | .Hello => select { c with resp3 := true }
  | .Auth => select c
  | .Select => name c
  | .Name => restore c
  | .Restore => c

def handshakeError (bytes : Bytes) (c : Connection D) : Connection D :=
  if c.handshake = .Hello ∧
    ((ascii "ERR unknown command").isPrefixOf bytes ∨ (ascii "NOPROTO").isPrefixOf bytes) then auth c
  else close (emit (.error (.reply bytes)) c)

def plainFrame (value : Value D.F64) : M D Unit := do
  let c ← get
  if c.state = .Handshake ∧ c.handshake ≠ .Restore then
    match value with
    | .error bytes => modify (handshakeError bytes)
    | _ => modify advance
  else match value with
    | .push items => do
      let taken ← pubsub items
      when (!taken) (modify (emit (.push value)))
    | .array items =>
      if c.subscriber then do
        let taken ← pubsub items
        when (!taken) (complete value)
      else complete value
    | _ => complete value

def frame : Value D.F64 → M D Unit
  | .attribute _ value => frame value
  | value => plainFrame value

def closing (m : M D Unit) : M D Unit :=
  tryCatch m fun e => do
    modify close
    throw e

def messageFirst (c : Connection D) (input : Bytes) : Except DecodeError (Option (Message × ℕ)) :=
  if c.state = .Ready ∧ (c.subscriber = true ∨ input.head? = some 62) then message D c.config.limits input else .ok none

/-- The frames of the buffer from `consumed` on, none once closed. The number is at least the bytes left. -/
def frames : ℕ → ℕ → M D (Option ℕ)
  | 0, consumed => pure (some consumed)
  | fuel + 1, consumed => do
    let c ← get
    let input := c.rx.drop consumed
    match messageFirst c input with
    | .error e => do
      modify close
      throw (.new e.display)
    | .ok (some (m, len)) => do
      modify (emit (.message m))
      frames fuel (consumed + len)
    | .ok none =>
      match decode D c.config.limits input with
      | .error e => do
        modify close
        throw (.new e.display)
      | .ok none => pure (some consumed)
      | .ok (some (value, n)) => do
        closing (frame value)
        let c ← get
        if c.state = .Closed then pure none else frames fuel (consumed + n)

def receiveChunks : List Bytes → M D Unit
  | [] => pure ()
  | chunk :: chunks => do
    modify fun c => { c with rx := c.rx ++ chunk }
    let c ← get
    match ← frames (c.rx.length + 1) 0 with
    | none => pure ()
    | some consumed => do
      modify fun c => { c with rx := c.rx.drop consumed }
      receiveChunks chunks

def receive (bytes : Bytes) : M D Unit := do
  let c ← get
  refuse (!(c.state == .Ready || c.state == .Handshake)) (.new "Bytes outside Redis protocol state")
  receiveChunks (bytes.toChunks 4096)

def due (now : ℕ) (deadline : Option ℕ) : Bool := deadline.any (· ≤ now)

def transportLost (c : Connection D) : Connection D :=
  if c.state = .Closed ∨ c.state = .RetryDecision ∨ c.state = .WaitingRetry then c
  else
    let resent := c.pending.filter (fun p => c.config.autoResendUnfulfilled && p.token.isSome)
    -- the queue is taken apart from its end
    let dropped := c.pending.reverse.filter (fun p => !(c.config.autoResendUnfulfilled && p.token.isSome))
    let attempt := min (c.attempt + 1) U32_MAX
    let exhausted := c.config.maxRetriesPerRequest.any (fun n => attempt > n)
    { c with
      tx := []
      txPos := 0
      rx := []
      deadline := none
      pending := []
      offline := if exhausted then [] else resent ++ c.offline
      attempt := attempt
      state := .RetryDecision
      events := c.events ++ dropped.flatMap (owed "Connection is closed.") ++
        (if exhausted then (resent ++ c.offline).flatMap (owed "Reached the max retries per request limit") else []) ++
        [.closeTransport, .retry attempt] }

def expire (now : ℕ) (p : Pending) : Pending :=
  if due now p.deadline then { p with deadline := none, token := none } else p

def handleTimeout (now : ℕ) (c : Connection D) : Connection D :=
  let c :=
    { c with
      events := c.events ++ (c.pending.filter (fun p => due now p.deadline)).flatMap (owed "Command timed out") ++
        (c.offline.filter (fun p => due now p.deadline)).flatMap (owed "Command timed out")
      pending := c.pending.map (expire now)
      offline := c.offline.filter (fun p => !due now p.deadline) }
  if due now c.deadline then
    let c := { c with deadline := none }
    if c.state = .WaitingRetry then (connect now c).2
    else transportLost (emit (.error (.new "connect ETIMEDOUT")) c)
  else c

def retry (now : ℕ) (delay : Option ℕ) : M D Unit := do
  let c ← get
  refuse (c.state != .RetryDecision) (.new "No retry decision requested")
  match delay with
  | some delay => modify fun c => { c with state := .WaitingRetry, deadline := some (now + delay) }
  | none => modify close

end Connection

end Turnloop.Redis
