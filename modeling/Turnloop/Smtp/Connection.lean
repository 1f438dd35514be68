import Turnloop.Lib.Program
import Turnloop.Smtp.Text

/-! The SMTP connection. -/

namespace Turnloop.Smtp

open Lib Program

/-- From outside: the text that `String::from_utf8_lossy` makes of bytes, Base64, and the latest instant. -/
structure Library where
  lossy : Bytes → Bytes
  base64 : Bytes → Bytes
  horizon : ℕ

/-- `Instant::checked_add` -/
def Library.checkedAdd (L : Library) (now duration : ℕ) : Option ℕ :=
  if now + duration ≤ L.horizon then some (now + duration) else none

inductive Tls
  | None
  | Opportunistic
  | Required
  | Implicit
  deriving DecidableEq

inductive Auth
  | Plain (user password : Bytes)
  | Login (user password : Bytes)
  | Xoauth2 (user accessToken : Bytes)

structure Config where
  name : Bytes := ascii "[127.0.0.1]"
  tls : Tls := .Opportunistic
  auth : Option Auth := none
  greetingTimeout : ℕ := 30000
  socketTimeout : ℕ := 600000
  maxResponseBytes : ℕ := 64 * 1024

structure Error where
  code : String
  message : Bytes
  response : Bytes
  responseCode : Option ℕ
  command : String
  deriving DecidableEq

def error (code command message : String) (responseCode : Option ℕ) (response : Bytes) : Error where
  code
  command
  message := if response = [] then ascii message else ascii message ++ ascii ": " ++ response
  responseCode
  response

structure Rejection where
  recipient : Bytes
  error : Error
  deriving DecidableEq

structure SendInfo where
  response : Bytes
  responseCode : ℕ
  accepted : List Bytes
  rejected : List Rejection
  envelope : Envelope
  messageId : Bytes
  deriving DecidableEq

inductive Event
  | UpgradeTls
  | Ready
  | Sent (token : ℕ) (info : SendInfo)
  | BodyReady (token : ℕ)
  | Failed (token : Option ℕ) (error : Error) (envelope : Option Envelope) (accepted : List Bytes)
      (rejected : List Rejection)
  | Reset
  | CloseTransport
  | Closed
  deriving DecidableEq

inductive State
  | Disconnected
  | Tls
  | Greeting
  | Ehlo
  | Helo
  | StartTls
  | Auth
  | LoginUser
  | LoginPassword
  | OAuthFailure
  | Ready
  | Mail
  | Recipients
  | Data
  | Body
  | Reset
  | Quit
  | Closed
  deriving DecidableEq

structure StreamBody where
  size : Option ℕ := none
  eightBit : Bool := false

/-- What a connection went through. -/
inductive Entry
  | piece (state : State) (bytes : Bytes)
  | line (bytes : Bytes)
  | reply (code : ℕ) (response : Bytes)
  | excess (state : State)
  | began (token : ℕ) (envelope : Envelope)
  | said (command : Command)
  | told (event : Event)
  | upgraded
  deriving DecidableEq

structure Connection (L : Library) where
  config : Config
  state : State := .Disconnected
  secure : Bool := false
  implicitPending : Bool := false
  capabilities : Capabilities := {}
  tx : Bytes := []
  txPos : ℕ := 0
  rx : Bytes := []
  response : Bytes := []
  responseCode : Option ℕ := none
  authRaw : Bytes := []
  authEncoded : Bytes := []
  body : Bytes := []
  streaming : Option StreamBody := none
  encoder : DataEncoder := {}
  bodyOpen : Bool := false
  events : List Event := []
  deadline : Option ℕ := none
  token : Option ℕ := none
  envelope : Option Envelope := none
  messageId : Bytes := []
  accepted : List Bytes := []
  rejected : List Rejection := []
  recipientIndex : ℕ := 0
  mailError : Option Error := none
  automaticReset : Bool := false
  -- A history variable: it is only ever added to, and nothing reads it.
  log : List Entry := []

/-- Why a call does not return: an error, or an `unwrap`, index or assertion that panics. -/
inductive Stop
  | err (e : Error)
  | panic
  deriving DecidableEq

abbrev Action (L : Library) (α : Type) := Program Stop (Connection L) α

namespace Connection

variable {L : Library}

def new (config : Config) : Except Error (Connection L) :=
  if config.name = [] ∨ ∃ b ∈ config.name, b ≤ 32 ∨ b = 127 then
    .error (Smtp.error "EINVAL" "EHLO" "Invalid client hostname" none [])
  else .ok { config }

def note (entry : Entry) (c : Connection L) : Connection L := { c with log := c.log ++ [entry] }

def tell (event : Event) (c : Connection L) : Connection L :=
  { c with events := c.events ++ [event], log := c.log ++ [Entry.told event] }

def say (command : Command) (c : Connection L) : Connection L :=
  { c with tx := c.tx ++ command.bytes, log := c.log ++ [Entry.said command] }

def setState (state : State) (c : Connection L) : Connection L := { c with state }

def setCapabilities (capabilities : Capabilities) (c : Connection L) : Connection L := { c with capabilities }

def output (c : Connection L) : Bytes := c.tx.drop c.txPos

def arm (now : ℕ) (c : Connection L) : Connection L :=
  { c with deadline := L.checkedAdd now c.config.socketTimeout }

def commandName (c : Connection L) : String :=
  match c.state with
  | .Ehlo => "EHLO"
  | .Helo => "HELO"
  | .StartTls | .Tls => "STARTTLS"
  | .Auth | .LoginUser | .LoginPassword | .OAuthFailure =>
    match c.config.auth with
    | some (.Plain ..) => "AUTH PLAIN"
    | some (.Login ..) => "AUTH LOGIN"
    | some (.Xoauth2 ..) => "AUTH XOAUTH2"
    | none => "AUTH"
  | .Mail => "MAIL FROM"
  | .Recipients => "RCPT TO"
  | .Data | .Body => "DATA"
  | .Reset => "RSET"
  | .Quit => "QUIT"
  | _ => "CONN"

def fail (e : Error) (c : Connection L) : Connection L :=
  { c.tell (.Failed c.token e c.envelope c.accepted c.rejected) with
    token := none, envelope := none, accepted := [], rejected := [] }

def closeTransport (c : Connection L) : Connection L :=
  if c.state = .Closed then c
  else
    (({ c with state := .Closed, bodyOpen := false, deadline := none, tx := [], txPos := 0 } : Connection L).tell
      .CloseTransport).tell .Closed

def failAndReset (e : Error) (c : Connection L) : Connection L :=
  { (c.fail e).say .rset with state := .Reset, automaticReset := true }

def unexpected (code : ℕ) (response : Bytes) (c : Connection L) : Connection L :=
  let auth := c.state = .Auth ∨ c.state = .LoginUser ∨ c.state = .LoginPassword ∨ c.state = .OAuthFailure
  let e := Smtp.error
    (if c.state = .Body then "EMESSAGE" else if auth then "EAUTH" else if c.state =
      .StartTls then "ETLS" else "EENVELOPE")
    c.commandName
    (if c.state = .Body then "Message failed"
      else if c.state = .Data then "Data command failed"
      else if auth then "Invalid login"
      else if c.state = .StartTls then "Error upgrading connection with STARTTLS"
      else "Unexpected SMTP response")
    (some code) response
  if (c.state = .Data ∨ c.state = .Body) ∧ c.bodyOpen = false then c.failAndReset e else (c.fail e).closeTransport

def ehlo (c : Connection L) : Connection L := (c.setState .Ehlo).say (.ehlo c.config.name)

/-- Encodes `auth_raw` and writes it as an answer, or at the end of a command. -/
def authLine (command : Bytes → Command) (c : Connection L) : Connection L :=
  ({ c with authEncoded := L.base64 c.authRaw } : Connection L).say (command (L.base64 c.authRaw))

def tlsMandatory (c : Connection L) : Bool := c.config.tls == .Required || c.config.tls == .Implicit

def ready (c : Connection L) : Connection L :=
  if c.tlsMandatory ∧ c.secure = false then
    (c.fail
      (Smtp.error "ETLS" "STARTTLS" "TLS is required but the SMTP session was never encrypted" none [])).closeTransport
  else (c.setState .Ready).tell .Ready

def authenticate (c : Connection L) : Connection L :=
  let c : Connection L := { c with authRaw := [] }
  let unsupported := (c.fail (Smtp.error "EAUTH" "AUTH" "No supported authentication method" none [])).closeTransport
  match c.config.auth with
  | none => c.ready
  | some (.Plain user password) =>
    if c.capabilities.authPlain then
      (({ c with authRaw := [0] ++ user ++ [0] ++ password } : Connection L).authLine .authPlain).setState .Auth
    else unsupported
  | some (.Login ..) => if c.capabilities.authLogin then (c.say .authLogin).setState .Auth else unsupported
  | some (.Xoauth2 user accessToken) =>
    if c.capabilities.authXoauth2 then
      (({ c with
          authRaw := ascii "user=" ++ user ++ [1] ++ ascii "auth=Bearer " ++ accessToken ++ [1, 1] } :
        Connection L).authLine .authXoauth2).setState .Auth
    else unsupported

def afterEhlo (c : Connection L) : Connection L :=
  if c.secure = false ∧ c.config.tls ≠ .None ∧ c.capabilities.starttls then (c.say .starttls).setState .StartTls
  else if c.secure = false ∧ c.config.tls = .Required then
    (c.fail (Smtp.error "ETLS" "STARTTLS"
      "Error upgrading connection with STARTTLS: server does not support STARTTLS" none [])).closeTransport
  else c.authenticate

def rcpt (index : ℕ) (c : Connection L) : Option (Connection L) := do
  let envelope ← c.envelope
  let recipient ← envelope.to_[index]?
  return c.say (.rcpt recipient)

def mailAnswered (code : ℕ) (response : Bytes) (c : Connection L) : Connection L :=
  { c with
    state := .Recipients
    mailError := if code = 250 then c.mailError
      else some (Smtp.error "EENVELOPE" "MAIL FROM" "Mail command failed" (some code) response) }

/-- `mail_error.take()` -/
def takeMailError (c : Connection L) : Connection L := { c with mailError := none }

def replyMail (code : ℕ) (response : Bytes) (c : Connection L) : Option (Connection L) :=
  let c := c.mailAnswered code response
  if c.capabilities.pipelining then some c
  else
    match c.mailError with
    | some e => some (c.takeMailError.failAndReset e)
    | none => c.rcpt 0

def recipientError (code : ℕ) (response : Bytes) : Error :=
  Smtp.error "EENVELOPE" "RCPT TO" "Recipient command failed" (some code) response

def settleRecipient (code : ℕ) (response recipient : Bytes) (c : Connection L) : Connection L :=
  if (250 ≤ code ∧ code ≤ 252) ∧ c.mailError = none then
    { c with accepted := c.accepted ++ [recipient], recipientIndex := c.recipientIndex + 1 }
  else
    { c with
      rejected := c.rejected ++ [⟨recipient, recipientError code response⟩]
      recipientIndex := c.recipientIndex + 1 }

def endRecipients (code : ℕ) (response : Bytes) (c : Connection L) : Connection L :=
  match c.mailError with
  | some e => c.takeMailError.failAndReset e
  | none =>
    if c.accepted = [] then
      c.failAndReset (Smtp.error "EENVELOPE" "RCPT TO" "Can't send mail - all recipients were rejected"
        (some code) response)
    else (c.say .data).setState .Data

def replyRecipients (code : ℕ) (response : Bytes) (c : Connection L) : Option (Connection L) := do
  let envelope ← c.envelope
  let recipient ← envelope.to_[c.recipientIndex]?
  let c := c.settleRecipient code response recipient
  if c.recipientIndex = envelope.to_.length then return c.endRecipients code response
  else if c.capabilities.pipelining then return c
  else c.rcpt c.recipientIndex

def openStream (token : ℕ) (c : Connection L) : Connection L :=
  ({ c with state := .Body, encoder := {}, bodyOpen := true } : Connection L).tell (.BodyReady token)

def openBody (c : Connection L) : Option (Connection L) :=
  if c.streaming.isSome then c.token.map fun token => c.openStream token
  else some ((c.setState .Body).say (.content c.body))

def settle (token : ℕ) (info : SendInfo) (c : Connection L) : Connection L :=
  { c.tell (.Sent token info) with
    state := .Ready, token := none, envelope := none, accepted := [], rejected := [], messageId := [] }

def complete (code : ℕ) (response : Bytes) (c : Connection L) : Option (Connection L) := do
  let token ← c.token
  let envelope ← c.envelope
  return c.settle token ⟨response, code, c.accepted, c.rejected, envelope, c.messageId⟩

def reply (code : ℕ) (response : Bytes) (c : Connection L) : Option (Connection L) :=
  if code = 421 then
    some (c.fail (Smtp.error "ECONNECTION" c.commandName "Server closed connection"
      (some code) response)).closeTransport
  else
    match c.state with
    | .Greeting => if code = 220 then some c.ehlo else some (c.unexpected code response)
    | .Ehlo =>
      if code = 250 then some (c.setCapabilities (.parse response)).afterEhlo
      else if code = 500 ∨ code = 502 ∨ code = 504 then some ((c.setState .Helo).say (.helo c.config.name))
      else some (c.unexpected code response)
    | .Helo =>
      if code = 250 then some (c.setCapabilities {}).afterEhlo
      else some (c.unexpected code response)
    | .StartTls =>
      if code = 220 then some ((c.setState .Tls).tell .UpgradeTls) else some (c.unexpected code response)
    | .Auth =>
      if code = 235 then some c.ready
      else if code = 334 then
        match c.config.auth with
        | some (.Login user _) =>
          some ((({ c with authRaw := user } : Connection L).authLine .authAnswer).setState .LoginUser)
        | some (.Plain ..) => some ((c.authLine .authAnswer).setState .LoginPassword)
        | some (.Xoauth2 ..) => some ((c.say (.authAnswer [])).setState .OAuthFailure)
        | none => some (c.unexpected code response)
      else some (c.unexpected code response)
    | .LoginUser =>
      if code = 334 then
        match c.config.auth with
        | some (.Login _ password) =>
          some ((({ c with authRaw := password } : Connection L).authLine .authAnswer).setState .LoginPassword)
        | _ => some c
      else some (c.unexpected code response)
    | .LoginPassword => if code = 235 then some c.ready else some (c.unexpected code response)
    | .Mail => c.replyMail code response
    | .Recipients => c.replyRecipients code response
    | .Data => if code = 354 then c.openBody else some (c.unexpected code response)
    | .Body =>
      if code = 250 ∧ c.bodyOpen = false then c.complete code response else some (c.unexpected code response)
    | .Reset =>
      if code = 250 then
        let c := c.setState .Ready
        if c.automaticReset then some { c with automaticReset := false } else some (c.tell .Reset)
      else some (c.unexpected code response)
    | .Quit => if code = 221 then some c.closeTransport else some (c.unexpected code response)
    | _ => some (c.unexpected code response)

end Connection

open Connection

variable {L : Library}

def become (next : Option (Connection L)) : Action L Unit :=
  match next with
  | some c => modify fun _ => c
  | none => throw .panic

def protocolError (message : String) : Action L Unit := do
  let c ← get
  let e := Smtp.error "EPROTOCOL" c.commandName message none []
  modify fun c => (c.fail e).closeTransport
  throw (.err e)

/-- The line that ends before the line feed at `end_` is none of a reply. -/
def malformed (rx : Bytes) (end_ : ℕ) : Bool :=
  end_ < 4 || rx[end_ - 1]? != some 13 || !(rx.take 3).all isDigit || !(rx[3]? == some 32 || rx[3]? == some 45)

def lineCode (rx : Bytes) : ℕ :=
  (rx.getD 0 0 - 48).toNat * 100 + (rx.getD 1 0 - 48).toNat * 10 + (rx.getD 2 0 - 48).toNat

def Connection.takeLine (end_ code : ℕ) (c : Connection L) : Connection L :=
  { c with
    responseCode := some code
    response := (if c.response = [] then [] else c.response ++ [10]) ++ L.lossy (c.rx.take (end_ - 1))
    rx := c.rx.drop (end_ + 1)
    log := c.log ++ [Entry.line (c.rx.take (end_ + 1))] }

def Connection.takeResponse (code : ℕ) (c : Connection L) : Connection L :=
  { c with responseCode := none, response := [], log := c.log ++ [Entry.reply code c.response] }

def answer (now code : ℕ) : Action L Bool := do
  let response := (← get).response
  modify (takeResponse code)
  let c ← get
  become (c.reply code response)
  modify fun c => if c.state = .Closed ∨ c.state = .Greeting then c else c.arm now
  let c ← get
  when (c.state == .Tls && !c.rx.isEmpty) (protocolError "Unexpected plaintext after STARTTLS")
  return c.state != .Closed

def receiveLine (now end_ : ℕ) : Action L Bool := do
  let c ← get
  when (malformed c.rx end_) (protocolError "Invalid SMTP response")
  let code := lineCode c.rx
  when (!(200 ≤ code && code < 600) || c.responseCode.any (· != code))
    (protocolError "Inconsistent SMTP response code")
  let complete := c.rx[3]? == some 32
  modify (takeLine end_ code)
  let c ← get
  when (c.response.length > c.config.maxResponseBytes) (protocolError "SMTP response too large")
  if complete then answer now code else return true

/-- The loop over the lines in `rx`: each turn takes one of them, so the length of `rx` is turns enough. -/
def receiveLines (now : ℕ) : ℕ → Action L Unit
  | 0 => return ()
  | n + 1 => do
    let c ← get
    match c.rx.findIdx? (· == 10) with
    | none => return ()
    | some end_ =>
      let more ← receiveLine now end_
      when more (receiveLines now n)

def Connection.takePiece (chunk : Bytes) (c : Connection L) : Connection L :=
  { c with rx := c.rx ++ chunk, log := c.log ++ [Entry.piece c.state chunk] }

def receiveChunk (now : ℕ) (chunk : Bytes) : Action L Unit := do
  modify (takePiece chunk)
  let c ← get
  receiveLines now c.rx.length
  let c ← get
  when (c.rx.length + c.response.length > c.config.maxResponseBytes) do
    modify (note (.excess c.state))
    protocolError "SMTP response too large"

/-- `slice::chunks` -/
def chunks (size : ℕ) (bytes : Bytes) : List Bytes :=
  (List.range ((bytes.length + size - 1) / size)).map fun i => (bytes.drop (size * i)).take size

def receive (bytes : Bytes) (now : ℕ) : Action L Unit := do
  let c ← get
  refuse (c.state == .Disconnected || c.state == .Tls || c.state == .Closed)
    (.err (error "ESTATE" "CONN" "Bytes outside SMTP protocol state" none []))
  when (c.state != .Greeting) (modify (arm now))
  (chunks 4096 bytes).forM (receiveChunk now)

def connected (now : ℕ) : Action L Unit := do
  let c ← get
  refuse (c.state != .Disconnected) (.err (error "ESTATE" "CONN" "Already connected" none []))
  modify fun c => { c with deadline := L.checkedAdd now c.config.greetingTimeout }
  if c.config.tls = .Implicit then
    modify fun c => ({ c with state := .Tls, implicitPending := true } : Connection L).tell .UpgradeTls
  else modify (setState .Greeting)

def Connection.secured (c : Connection L) : Connection L :=
  ({ c with secure := true, capabilities := {} } : Connection L).note .upgraded

def tlsEstablished (now : ℕ) : Action L Unit := do
  let c ← get
  refuse (c.state != .Tls) (.err (error "ESTATE" "STARTTLS" "Unexpected TLS completion" none []))
  modify secured
  if c.implicitPending then
    modify fun c => { c with
      implicitPending := false, state := .Greeting, deadline := L.checkedAdd now c.config.greetingTimeout }
  else modify fun c => c.ehlo.arm now

def validAddress (s : Bytes) : Bool := !s.any fun b => b ≤ 32 || b == 60 || b == 62 || b == 127

def checkSend (envelope : Envelope) (eightBit : Bool) : Action L Unit := do
  let c ← get
  refuse (c.state != .Ready) (.err (error "ESTATE" "MAIL FROM" "SMTP connection is not ready" none []))
  refuse (!validAddress envelope.from_ || envelope.to_.isEmpty ||
      envelope.to_.any fun s => s.isEmpty || !validAddress s)
    (.err (error "EENVELOPE" "MAIL FROM" "Invalid envelope" none []))
  refuse (utf8 envelope && !c.capabilities.smtpUtf8)
    (.err (error "EENVELOPE" "MAIL FROM" "SMTPUTF8 is required but not supported" none []))
  refuse (eightBit && !c.capabilities.eightBitMime)
    (.err (error "EMESSAGE" "MAIL FROM" "8BITMIME is required but not supported" none []))

def Connection.startMessage (token : ℕ) (envelope : Envelope) (messageId : Bytes) (c : Connection L) : Connection L :=
  { c with
    accepted := [], rejected := [], mailError := none, recipientIndex := 0, bodyOpen := false
    envelope := some envelope, messageId, token := some token, log := c.log ++ [Entry.began token envelope] }

def begin_ (token : ℕ) (envelope : Envelope) (messageId : Bytes) (size : Option ℕ) (eightBit : Bool) (now : ℕ) :
    Action L Unit := do
  let c ← get
  refuse (size.any fun size => c.capabilities.size.any fun limit => limit != 0 && limit < size)
    (.err (error "EMESSAGE" "MAIL FROM" "Message exceeds server SIZE limit" none []))
  modify (startMessage token envelope messageId)
  modify (say (.mail envelope.from_ (if c.capabilities.sizeSupported then size else none) eightBit (utf8 envelope)))
  when c.capabilities.pipelining
    ((List.range envelope.to_.length).forM fun i => do
      let c ← get
      become (c.rcpt i))
  modify (setState .Mail)
  modify (arm now)

def send (token : ℕ) (envelope : Envelope) (messageId content : Bytes) (now : ℕ) : Action L Unit := do
  let eightBit := !isAscii content
  checkSend envelope eightBit
  modify fun c => { c with body := (encodeData content).1 }
  begin_ token envelope messageId (some (encodeData content).2) eightBit now
  modify fun c => { c with streaming := none }

def startSend (token : ℕ) (envelope : Envelope) (messageId : Bytes) (body : StreamBody) (now : ℕ) : Action L Unit := do
  checkSend envelope body.eightBit
  begin_ token envelope messageId body.size body.eightBit now
  modify fun c => { c with streaming := some body }

def checkBody : Action L Unit := do
  let c ← get
  refuse (!(c.bodyOpen && c.state == .Body))
    (.err (error "ESTATE" "DATA" "No streamed SMTP message body is open" none []))

def sendChunk (chunk : Bytes) (now : ℕ) : Action L Unit := do
  checkBody
  let c ← get
  when (!isAscii chunk && !c.streaming.any (·.eightBit)) do
    let e := error "EMESSAGE" "DATA" "8-bit content in a body not declared eight_bit" none []
    modify fun c => (c.fail e).closeTransport
    throw (.err e)
  modify fun c => { c.say (.content (c.encoder.encode chunk).2) with encoder := (c.encoder.encode chunk).1 }
  modify (arm now)

def finishBody (now : ℕ) : Action L Unit := do
  checkBody
  modify fun c => { c.say (.content c.encoder.finish.1) with encoder := {}, bodyOpen := false }
  modify (arm now)

def reset (now : ℕ) : Action L Unit := do
  let c ← get
  refuse (c.state != .Ready) (.err (error "ESTATE" "RSET" "SMTP connection is not ready" none []))
  modify fun c => { c.say .rset with state := .Reset, automaticReset := false }
  modify (arm now)

def quit (now : ℕ) : Action L Unit := do
  let c ← get
  refuse (c.state != .Ready) (.err (error "ESTATE" "QUIT" "SMTP connection is not ready" none []))
  modify fun c => (c.say .quit).setState .Quit
  modify (arm now)

def handleTimeout (now : ℕ) : Action L Unit := do
  let c ← get
  when (c.deadline.any (· ≤ now)) do
    modify fun c => (c.fail (error "ETIMEDOUT" c.commandName
      (if c.state = .Greeting then "Greeting never received" else "Timeout") none [])).closeTransport

def transportLost : Action L Unit := do
  let c ← get
  when (c.state != .Closed) do
    modify fun c => (c.fail (error "ECONNECTION" c.commandName "Connection closed unexpectedly" none [])).closeTransport

def close : Action L Unit := do
  let c ← get
  when c.token.isSome (modify fun c => c.fail (error "ECANCELLED" c.commandName "Cancelled" none []))
  modify closeTransport

def consumeOutput (count : ℕ) : Action L Unit := do
  let c ← get
  refuse (count > c.output.length) .panic
  modify fun c =>
    if c.txPos + count = c.tx.length then { c with tx := [], txPos := 0 } else { c with txPos := c.txPos + count }

def pollEvent : Action L (Option Event) := do
  let c ← get
  modify fun c => { c with events := c.events.tail }
  return c.events.head?

inductive Call
  | connected (now : ℕ)
  | tlsEstablished (now : ℕ)
  | receive (bytes : Bytes) (now : ℕ)
  | send (token : ℕ) (envelope : Envelope) (messageId content : Bytes) (now : ℕ)
  | startSend (token : ℕ) (envelope : Envelope) (messageId : Bytes) (body : StreamBody) (now : ℕ)
  | sendChunk (chunk : Bytes) (now : ℕ)
  | finishBody (now : ℕ)
  | reset (now : ℕ)
  | quit (now : ℕ)
  | handleTimeout (now : ℕ)
  | transportLost
  | close
  | consumeOutput (count : ℕ)
  | pollEvent

def Call.run : Call → Action L Unit
  | .connected now => Smtp.connected now
  | .tlsEstablished now => Smtp.tlsEstablished now
  | .receive bytes now => Smtp.receive bytes now
  | .send token envelope messageId content now => Smtp.send token envelope messageId content now
  | .startSend token envelope messageId body now => Smtp.startSend token envelope messageId body now
  | .sendChunk chunk now => Smtp.sendChunk chunk now
  | .finishBody now => Smtp.finishBody now
  | .reset now => Smtp.reset now
  | .quit now => Smtp.quit now
  | .handleTimeout now => Smtp.handleTimeout now
  | .transportLost => Smtp.transportLost
  | .close => Smtp.close
  | .consumeOutput count => Smtp.consumeOutput count
  | .pollEvent => do
    let _ ← Smtp.pollEvent

def Connection.after (calls : List Call) (c : Connection L) : Connection L :=
  calls.foldl (fun c call => (call.run c).2) c

end Turnloop.Smtp
