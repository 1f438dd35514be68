import Turnloop.Lib.Program
import Turnloop.Postgres.Wire

/-! One connection to a PostgreSQL server. -/

namespace Turnloop.Postgres

open Lib Lib.Program Cursor

inductive SslMode
  | disable | prefer | require
  deriving DecidableEq

-- Instants are counted in nanoseconds.
structure Config where
  user : String
  password : Bytes
  database : String
  applicationName : String
  ssl : SslMode
  channelBindingRequired : Bool
  maxBuffer : ℕ
  maxPending : ℕ
  maxScramIterations : ℕ
  connectDeadline : Option ℕ

def Config.default : Config where
  user := "postgres"
  password := []
  database := "postgres"
  applicationName := "turnloop"
  ssl := .disable
  channelBindingRequired := false
  maxBuffer := 64 * 1024 * 1024
  maxPending := 1024
  maxScramIterations := 1000000
  connectDeadline := none

structure Parameter where
  value : Option Bytes
  format : ℤ

structure ExtendedQuery where
  name : String
  sql : String
  oids : List ℕ
  params : List Parameter
  resultFormats : List ℤ

inductive Frontend
  | password (text : Bytes)
  | saslInitial (mechanism : String) (data : Bytes)
  | saslResponse (data : Bytes)
  | query (sql : String)
  | parse (name sql : String) (oids : List ℕ)
  | bind (name : String) (params : List Parameter) (resultFormats : List ℤ)
  | describe
  | execute
  | sync
  | copyData (data : Bytes)
  | copyDone
  | copyFail (message : String)
  | terminate

/-- The crate `postgres_protocol`: how messages are written, and the client's side of SCRAM. -/
structure Upstream where
  startupMessage : List (String × String) → Bytes
  encode : Frontend → Bytes × Bool
  md5Hash : Bytes → Bytes → Bytes → Bytes
  Scram : Type
  message : Scram → Bytes
  update : Scram → Bytes → Scram × Bool
  finish : Scram → Bytes → Bool

inductive TransactionStatus
  | idle | inTransaction | failed
  deriving DecidableEq

inductive Outcome
  | success
  | serverError
  | aborted (error : Error)
  deriving DecidableEq

inductive Event
  | upgradeTls
  | scramNeeded (plus : Bool)
  | connected
  | parameterStatus (name value : Bytes)
  | fields (token : ℕ) (fields : Items)
  | row (token : ℕ) (row : Items)
  | commandComplete (token : ℕ) (tag : Bytes) (rowCount : Option ℕ)
  | error (token : Option ℕ) (error : Bytes)
  | notice (error : Bytes)
  | notification (processId : ℤ) (channel payload : Bytes)
  | copyIn (token : ℕ) (binary : Bool) (columnFormats : Bytes)
  | copyOut (token : ℕ) (binary : Bool) (columnFormats : Bytes)
  | copyData (token : ℕ) (data : Bytes)
  | copyDone (token : ℕ)
  | completed (token : ℕ) (outcome : Outcome) (transaction : TransactionStatus)
  | closed (reason : Error)
  deriving DecidableEq

inductive State
  | ssl | tls | auth
  | scram (plus : Bool)
  | ready | closing | closed
  deriving DecidableEq

structure Pending where
  token : ℕ
  deadline : Option ℕ
  failed : Bool
  extended : Bool
  parse : Option ℕ

structure Statement where
  name : String
  sql : String
  oids : List ℕ
  parsed : Bool

structure Connection (U : Upstream) where
  config : Config
  state : State
  input : Bytes
  inputAt : ℕ
  output : Bytes
  outputAt : ℕ
  pending : List Pending
  statements : List Statement
  scram : Option U.Scram
  authOk : Bool
  tls : Bool
  bindingAvailable : Bool
  scramPlus : Bool
  copyIn : Bool
  transaction : TransactionStatus
  key : Option (ℤ × ℤ)
  reason : Error

abbrev M (U : Upstream) := Program Error (Connection U)

namespace Connection

variable {U : Upstream}

def sslRequest : Bytes := [0, 0, 0, 8, 4, 210, 22, 47]

def startupParameters (config : Config) : List (String × String) :=
  [("user", config.user), ("database", config.database), ("application_name", config.applicationName),
    ("client_encoding", "UTF8"), ("DateStyle", "ISO")]

def startup (c : Connection U) : Connection U :=
  { c with output := c.output ++ U.startupMessage (startupParameters c.config), state := .auth }

def fresh (config : Config) : Connection U where
  config := config
  state := .auth
  input := []
  inputAt := 0
  output := []
  outputAt := 0
  pending := []
  statements := []
  scram := none
  authOk := false
  tls := false
  bindingAvailable := false
  scramPlus := false
  copyIn := false
  transaction := .idle
  key := none
  reason := .transport none

def hasNul (s : String) : Bool := s.toList.contains (Char.ofNat 0)

def new (config : Config) : Except Error (Connection U) :=
  if config.maxBuffer < 1024 ∨ config.maxBuffer > 2 ^ 31 - 1 ∨ config.maxPending = 0 then .error .limit
  else if hasNul config.user || hasNul config.database || hasNul config.applicationName then
    .error (.state "NUL in startup parameter")
  else if config.channelBindingRequired && config.ssl = .disable then .error (.state "channel binding requires TLS")
  else if config.ssl = .disable then .ok (fresh config).startup
  else .ok { (fresh config : Connection U) with state := .ssl, output := sslRequest }

def unsent (c : Connection U) : Bytes := c.output.drop c.outputAt

def consumeOutput (n : ℕ) : M U Unit := do
  let c ← get
  refuse (decide (n > c.unsent.length)) (.state "invalid output acknowledgement")
  if c.outputAt + n = c.output.length then modify fun c => { c with output := [], outputAt := 0 }
  else modify fun c => { c with outputAt := c.outputAt + n }

def abort (c : Connection U) (reason : Error) : Connection U :=
  if c.state = .closing ∨ c.state = .closed then c
  else { c with reason := reason, state := .closing, output := [], outputAt := 0, copyIn := false }

def receive (bytes : Bytes) : M U Unit := do
  let c ← get
  refuse (c.state = .tls || c.state = .closing || c.state = .closed) (.state "connection cannot receive plaintext now")
  if bytes.length > c.config.maxBuffer - (c.input.length - c.inputAt) then do
    modify fun c => c.abort .limit
    throw .limit
  else modify fun c => { c with input := c.input.drop c.inputAt ++ bytes, inputAt := 0 }

def tlsEstablished (available : Bool) : M U Unit := do
  let c ← get
  refuse (c.state ≠ .tls || !c.unsent.isEmpty) (.state "TLS transition not ready")
  refuse (c.config.channelBindingRequired && !available)
    (.state "channel binding required but certificate binding is unavailable")
  modify fun c => { c with tls := true, bindingAvailable := available }
  modify startup

def write (f : Frontend) : M U Unit := do
  modify fun c => { c with output := c.output ++ (U.encode f).1 }
  refuse (!(U.encode f).2) .invalid

def plusPrefix : Bytes := ascii "p=tls-server-end-point,"

def startScram (scram : U.Scram) : M U Unit := do
  let c ← get
  match c.state with
  | .scram plus => do
    refuse (plus ≠ plusPrefix.isPrefixOf (U.message scram)) (.state "SCRAM channel binding mismatch")
    write (.saslInitial (if plus then "SCRAM-SHA-256-PLUS" else "SCRAM-SHA-256") (U.message scram))
    modify fun c => { c with scram := some scram, state := .auth }
  | _ => throw (.state "SCRAM was not requested")

def accept (c : Connection U) (token : ℕ) : Except Error Unit :=
  if c.state ≠ .ready || c.copyIn then .error (.state "Client is not queryable")
  else if c.pending.length ≥ c.config.maxPending then .error .limit
  else if c.pending.any fun p => p.token = token then .error (.state "duplicate operation token")
  else .ok ()

def truncate (before : ℕ) (c : Connection U) : Connection U := { c with output := c.output.take before }

def finishCommand (token : ℕ) (deadline : Option ℕ) (parse : Option ℕ) (before : ℕ) (result : Option Error)
    (extended : Bool) : M U Unit := do
  match result with
  | some e => do
    modify (truncate before)
    throw e
  | none => do
    let c ← get
    if c.output.length > c.config.maxBuffer then do
      modify (truncate before)
      throw .limit
    else modify fun c => { c with pending := c.pending ++ [⟨token, deadline, false, extended, parse⟩] }

def encodeAll (U : Upstream) : List (Frontend × Error) → Bytes × Option Error
  | [] => ([], none)
  | (f, e) :: rest =>
    if (U.encode f).2 then ((U.encode f).1 ++ (encodeAll U rest).1, (encodeAll U rest).2) else ((U.encode f).1, some e)

def query (token : ℕ) (sql : String) (deadline : Option ℕ) : M U Unit := do
  let c ← get
  lift (c.accept token)
  refuse (decide (sql.utf8ByteSize + 6 > c.config.maxBuffer - c.output.length)) .limit
  let written := encodeAll U [(.query sql, .invalid)]
  modify fun c => { c with output := c.output ++ written.1 }
  finishCommand token deadline none c.output.length written.2 false

def extendedSize (q : ExtendedQuery) : ℕ :=
  64 + 2 * q.name.utf8ByteSize + q.sql.utf8ByteSize + 4 * q.oids.length + 2 * q.resultFormats.length +
    (q.params.map fun p => 6 + p.value.elim 0 List.length).sum

def cached (c : Connection U) (name : String) : Option ℕ :=
  if name.isEmpty then none else c.statements.findIdx? fun s => s.name = name

def extendedMessages (q : ExtendedQuery) (parses : Bool) : List (Frontend × Error) :=
  (if parses then [(.parse q.name q.sql q.oids, .invalid)] else []) ++
    [(.bind q.name q.params q.resultFormats, .protocol "invalid Bind message"), (.describe, .invalid),
      (.execute, .invalid), (.sync, .invalid)]

def badFormat (f : ℤ) : Bool := f ≠ 0 && f ≠ 1

def checkCached (c : Connection U) (q : ExtendedQuery) : Except Error Unit :=
  match (c.cached q.name).bind fun i => c.statements[i]? with
  | none => .ok ()
  | some s =>
    if s.sql ≠ q.sql || s.oids ≠ q.oids then
      .error (.state "Prepared statements must be unique - a different statement was used for this name")
    else if !s.parsed then .error (.state "named statement parse still pending")
    else .ok ()

def execute (token : ℕ) (q : ExtendedQuery) (deadline : Option ℕ) : M U Unit := do
  let c ← get
  lift (c.accept token)
  refuse (decide (extendedSize q > c.config.maxBuffer - c.output.length)) .limit
  refuse ((q.params.any fun p => badFormat p.format) || q.resultFormats.any badFormat) (.state "invalid format")
  lift (c.checkCached q)
  let written := encodeAll U (extendedMessages q (c.cached q.name).isNone)
  modify fun c => { c with output := c.output ++ written.1 }
  let registers := written.2.isNone && decide ((c.output ++ written.1).length ≤ c.config.maxBuffer) &&
    (c.cached q.name).isNone && !q.name.isEmpty
  when registers do
    modify fun c => { c with statements := c.statements ++ [⟨q.name, q.sql, q.oids, false⟩] }
  finishCommand token deadline (if registers then some c.statements.length else none) c.output.length written.2 true

def copyData (bytes : Bytes) : M U Unit := do
  let c ← get
  refuse (!c.copyIn) (.state "COPY IN is not active")
  refuse (decide (bytes.length + 5 > c.config.maxBuffer - c.output.length)) .limit
  refuse (!(U.encode (.copyData bytes)).2) .invalid
  modify fun c => { c with output := c.output ++ (U.encode (.copyData bytes)).1 }

def copyFinish (error : Option String) : M U Unit := do
  let c ← get
  refuse (!c.copyIn) (.state "COPY IN is not active")
  let last : Frontend := error.elim .copyDone .copyFail
  let extended := c.pending.head?.any Pending.extended
  let written := encodeAll U ((last, .invalid) :: if extended then [(.sync, .invalid)] else [])
  refuse (written.2.isSome || decide ((c.output ++ written.1).length > c.config.maxBuffer)) .limit
  modify fun c => { c with output := c.output ++ written.1, copyIn := false }

def nextTimeout (c : Connection U) : Option ℕ :=
  if c.state = .closing ∨ c.state = .closed then none
  else (c.pending.filterMap Pending.deadline ++ if c.state ≠ .ready then c.config.connectDeadline.toList else []).min?

def handleTimeout (c : Connection U) (now : ℕ) : Connection U :=
  if c.nextTimeout.any fun t => decide (t ≤ now) then c.abort .timeout else c

def end_ : M U Unit := do
  let c ← get
  refuse (!c.pending.isEmpty || c.state ≠ .ready) (.state "drain queries before end")
  modify fun c => { c with output := c.output ++ (U.encode .terminate).1, state := .closing, reason := .cancelled }

def token (c : Connection U) : Except Error ℕ :=
  match c.pending.head? with
  | some p => .ok p.token
  | none => .error (.protocol "unsolicited query response")

def closingEvent : M U (Option Event) := do
  let c ← get
  match c.pending with
  | p :: rest => do
    modify fun c => { c with pending := rest }
    pure (some (.completed p.token (.aborted c.reason) c.transaction))
  | [] =>
    if !c.unsent.isEmpty then pure none
    else do
      modify fun c => { c with state := .closed }
      pure (some (.closed c.reason))

def authenticated (rest : Bytes) : M U (Option Event) := do
  lift (Cursor.end_ rest)
  let c ← get
  refuse c.scram.isSome (.protocol "SCRAM final verification missing")
  refuse (c.config.channelBindingRequired && !c.scramPlus)
    (.protocol "channel binding required but SCRAM-PLUS was not authenticated")
  modify fun c => { c with authOk := true }
  pure none

def cleartextPassword (rest : Bytes) : M U (Option Event) := do
  lift (Cursor.end_ rest)
  let c ← get
  refuse c.config.channelBindingRequired (.protocol "server did not offer channel binding")
  write (.password c.config.password)
  pure none

def md5Password (rest : Bytes) : M U (Option Event) := do
  let salt ← lift (take 4 rest)
  lift (Cursor.end_ salt.2)
  let c ← get
  refuse c.config.channelBindingRequired (.protocol "server did not offer channel binding")
  write (.password (U.md5Hash (ascii c.config.user) c.config.password salt.1))
  pure none

def sasl (rest : Bytes) : M U (Option Event) := do
  let offered ← lift (mechanisms (rest.length + 1) rest)
  lift (Cursor.end_ offered.2)
  let c ← get
  let plain := offered.1.contains (ascii "SCRAM-SHA-256")
  let plus := c.tls && c.bindingAvailable && offered.1.contains (ascii "SCRAM-SHA-256-PLUS")
  refuse (c.config.channelBindingRequired && !plus)
    (.protocol "channel binding required but server did not offer SCRAM-SHA-256-PLUS")
  refuse (!plus && !plain) (.protocol "unsupported SASL mechanisms")
  modify fun c => { c with scramPlus := plus, state := .scram plus }
  pure (some (.scramNeeded plus))

def saslContinue (rest : Bytes) : M U (Option Event) := do
  let c ← get
  let count ← lift ((iterations rest).elim (.error (.protocol "invalid SCRAM iterations")) .ok)
  refuse (decide (count = 0) || decide (count > c.config.maxScramIterations)) .limit
  let scram ← lift (c.scram.elim (.error (.protocol "unexpected SASL continuation")) .ok)
  let updated := U.update scram rest
  modify fun c => { c with scram := some updated.1 }
  refuse (!updated.2) .invalid
  write (.saslResponse (U.message updated.1))
  pure none

def saslFinal (rest : Bytes) : M U (Option Event) := do
  let c ← get
  let scram ← lift (c.scram.elim (.error (.protocol "unexpected SASL final")) .ok)
  modify fun c => { c with scram := none }
  refuse (!U.finish scram rest) .invalid
  pure none

def authentication (body : Bytes) : M U (Option Event) := do
  let code ← lift (u32 body)
  if code.1 = 0 then authenticated code.2
  else if code.1 = 3 then cleartextPassword code.2
  else if code.1 = 5 then md5Password code.2
  else if code.1 = 10 then sasl code.2
  else if code.1 = 11 then saslContinue code.2
  else if code.1 = 12 then saslFinal code.2
  else throw (.protocol "unsupported authentication method")

def parameterStatus (body : Bytes) : M U (Option Event) := do
  let name ← lift (cstr body)
  let value ← lift (cstr name.2)
  lift (Cursor.end_ value.2)
  pure (some (.parameterStatus name.1 value.1))

def keyData (body : Bytes) : M U (Option Event) := do
  let pid ← lift (i32 body)
  let secret ← lift (i32 pid.2)
  modify fun c => { c with key := some (pid.1, secret.1) }
  lift (Cursor.end_ secret.2)
  pure none

def transactionStatus (b : UInt8) : Except Error TransactionStatus :=
  if b = 73 then .ok .idle else if b = 84 then .ok .inTransaction else if b = 69 then .ok .failed
  else .error (.protocol "invalid transaction status")

def released (statements : List Statement) (parse : Option ℕ) : List Statement :=
  match parse with
  | none => statements
  | some i => statements.modify i fun s => if s.parsed then s else { s with name := "" }

def commandDone : M U (Option Event) := do
  let c ← get
  match c.pending with
  | [] => throw (.protocol "unsolicited ReadyForQuery")
  | p :: rest => do
    modify fun c => { c with pending := rest, statements := released c.statements p.parse }
    pure (some (.completed p.token (if p.failed then .serverError else .success) c.transaction))

def readyForQuery (body : Bytes) : M U (Option Event) := do
  let status ← lift (u8 body)
  let transaction ← lift (transactionStatus status.1)
  modify fun c => { c with transaction := transaction }
  lift (Cursor.end_ status.2)
  modify fun c => { c with copyIn := false }
  let c ← get
  if c.state = .auth then do
    refuse (!c.authOk) (.protocol "Ready before authentication")
    modify fun c => { c with state := .ready }
    pure (some .connected)
  else commandDone

def rowDescription (body : Bytes) : M U (Option Event) := do
  let c ← get
  let token ← lift c.token
  let fields ← lift (Items.parse columns body)
  pure (some (.fields token fields))

def dataRow (body : Bytes) : M U (Option Event) := do
  let c ← get
  let token ← lift c.token
  let row ← lift (Items.parse values body)
  pure (some (.row token row))

def commandComplete (body : Bytes) : M U (Option Event) := do
  let tag ← lift (cstr body)
  lift (Cursor.end_ tag.2)
  let c ← get
  let token ← lift c.token
  pure (some (.commandComplete token tag.1 (rowCount tag.1)))

def emptyQuery (body : Bytes) : M U (Option Event) := do
  lift (Cursor.end_ body)
  let c ← get
  let token ← lift c.token
  pure (some (.commandComplete token [] none))

def failFront : List Pending → List Pending
  | [] => []
  | p :: rest => { p with failed := true } :: rest

def errorResponse (body : Bytes) : M U (Option Event) := do
  let error ← lift (ServerError.parse body)
  let c ← get
  let token := c.pending.head?.map Pending.token
  modify fun c => { c with pending := failFront c.pending }
  if token.isNone || ServerError.terminal error then do
    modify fun c =>
      { c with state := .closing, reason := .connectionAborted error, output := [], outputAt := 0, copyIn := false }
    throw (.connectionAborted error)
  else pure (some (.error token error))

def notice (body : Bytes) : M U (Option Event) := do
  let error ← lift (ServerError.parse body)
  pure (some (.notice error))

def notification (body : Bytes) : M U (Option Event) := do
  let pid ← lift (i32 body)
  let channel ← lift (cstr pid.2)
  let payload ← lift (cstr channel.2)
  lift (Cursor.end_ payload.2)
  pure (some (.notification pid.1 channel.1 payload.1))

def parsedAt (statements : List Statement) (parse : Option ℕ) : List Statement :=
  match parse with
  | none => statements
  | some i => statements.modify i fun s => { s with parsed := true }

def parseComplete (body : Bytes) : M U (Option Event) := do
  lift (Cursor.end_ body)
  let c ← get
  match c.pending with
  | [] => throw (.protocol "unsolicited ParseComplete")
  | p :: _ => do
    modify fun c => { c with statements := parsedAt c.statements p.parse }
    pure none

def progress (body : Bytes) : M U (Option Event) := do
  lift (Cursor.end_ body)
  let c ← get
  let _ ← lift c.token
  pure none

def copyFormats (body : Bytes) : Except Error (Bool × Bytes) := do
  let format ← u8 body
  let binary ← if format.1 = 0 then .ok false else if format.1 =
    1 then .ok true else .error (.protocol "invalid COPY format")
  let count ← u16 format.2
  let columnFormats ← take (count.1 * 2) count.2
  Cursor.end_ columnFormats.2
  pure (binary, columnFormats.1)

def copyInResponse (body : Bytes) : M U (Option Event) := do
  let formats ← lift (copyFormats body)
  let c ← get
  let token ← lift c.token
  refuse (c.pending.length ≠ 1) (.protocol "COPY IN requires an exclusive query")
  modify fun c => { c with copyIn := true }
  pure (some (.copyIn token formats.1 formats.2))

def copyOutResponse (body : Bytes) : M U (Option Event) := do
  let formats ← lift (copyFormats body)
  let c ← get
  let token ← lift c.token
  pure (some (.copyOut token formats.1 formats.2))

def copyDataMessage (body : Bytes) : M U (Option Event) := do
  let c ← get
  let token ← lift c.token
  pure (some (.copyData token body))

def copyDoneMessage (body : Bytes) : M U (Option Event) := do
  lift (Cursor.end_ body)
  let c ← get
  let token ← lift c.token
  pure (some (.copyDone token))

def unexpected : M U (Option Event) := throw (.protocol "unexpected backend message")

def handle (tag : Tag) (body : Bytes) : M U (Option Event) := do
  let c ← get
  match tag with
  | .authentication => if c.state = .auth then authentication body else unexpected
  | .parameterStatus => parameterStatus body
  | .keyData => keyData body
  | .ready => readyForQuery body
  | .fields => rowDescription body
  | .row => dataRow body
  | .commandComplete => commandComplete body
  | .emptyQuery => emptyQuery body
  | .error => errorResponse body
  | .notice => notice body
  | .notification => notification body
  | .parseComplete => parseComplete body
  | .progress => progress body
  | .copyIn => copyInResponse body
  | .copyOut => copyOutResponse body
  | .copyData => copyDataMessage body
  | .copyDone => copyDoneMessage body
  | .other => unexpected

def available (c : Connection U) : Bytes := c.input.drop c.inputAt

def advanced (n : ℕ) (c : Connection U) : Connection U := { c with inputAt := c.inputAt + n }

def orNext (next : M U (Option Event)) : Option Event → M U (Option Event)
  | some e => pure (some e)
  | none => next

-- A message takes at least five bytes, so that the length of the input bounds the number of rounds.
def messages : ℕ → M U (Option Event)
  | 0 => pure none
  | n + 1 => do
    let c ← get
    let frame ← lift (header c.config.maxBuffer c.available)
    match frame with
    | none => pure none
    | some (tag, body, length) => do
      modify (advanced length)
      let event ← handle (Tag.of tag) body
      orNext (messages n) event

def sslReply (reply : UInt8) : M U (Option Event) := do
  modify (advanced 1)
  let c ← get
  if reply = 83 then do
    refuse (c.input.length ≠ c.inputAt) (.protocol "plaintext after TLS acceptance")
    modify fun c => { c with state := .tls }
    pure (some .upgradeTls)
  else if reply = 78 then do
    refuse (c.config.ssl ≠ .prefer) (.protocol "The server does not support SSL connections")
    modify startup
    messages c.input.length
  else throw (.protocol "invalid SSLRequest response")

def nextEvent : M U (Option Event) := do
  let c ← get
  match c.state with
  | .closing => closingEvent
  | .scram _ => throw (.state "SCRAM authentication pending: answer ScramNeeded with start_scram")
  | .closed => pure none
  | .tls => pure none
  | .ssl =>
    match c.available with
    | [] => pure none
    | reply :: _ => sslReply reply
  | .auth => messages c.input.length
  | .ready => messages c.input.length

end Connection

end Turnloop.Postgres
