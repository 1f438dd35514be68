import Turnloop.Http2.Headers
import Turnloop.Lib.Program

/-! One endpoint of an HTTP/2 connection, and what its host asks of it. -/

namespace Turnloop.Http2

open Lib (Program)
open Lib.Program (refuse when lift)

structure Codec where
  Decoder : Type
  Encoder : Type
  decoder : (tableSize maxListSize : ℕ) → Decoder
  decode : Decoder → Bytes → Result (List Header) × Decoder
  setMaxListSize : Decoder → ℕ → Decoder
  encoder : (tableSize : ℕ) → Encoder
  encode : Encoder → List Header → Bytes × Encoder
  setTableSize : Encoder → ℕ → Encoder
  decode_code : ∀ d block e, (decode d block).1 = .error e → e.code = .COMPRESSION_ERROR ∨ e.code = .ENHANCE_YOUR_CALM

inductive Role where
  | client
  | server
  deriving DecidableEq

inductive HeadersKind where
  | head
  | informational
  | trailers
  deriving DecidableEq

inductive Event where
  | settings (entries : List (UInt16 × UInt32))
  | settingsAck (settings : Settings)
  | headers (stream : ℕ) (headers : List Header) (endStream : Bool) (kind : HeadersKind)
  | data (stream : ℕ) (bytes : Bytes) (endStream : Bool)
  | reset (stream code : ℕ)
  | unprocessed (stream : ℕ)
  | goaway (lastStream code : ℕ) (debug : Option Bytes)
  | ping (ack : Bool) (data : Bytes)
  | windowUpdate (stream : ℕ)
  deriving DecidableEq

structure Step where
  consumed : ℕ
  event : Option Event
  deriving DecidableEq

inductive Disposal where
  | refuse (code : ℕ)
  | unprocessed
  | discard
  deriving DecidableEq

structure Stream where
  id : ℕ
  sendWindow : ℤ
  recvWindow : ℤ
  unreleased : ℕ
  credited : Bool
  localEnd : Bool
  remoteEnd : Bool
  receivedHead : Bool
  sentHead : Bool
  recvLength : Option ℕ
  received : ℕ
  headRequest : Bool
  recvNoBody : Bool
  sendNoBody : Bool
  sendLength : Option ℕ
  sent : ℕ
  deriving DecidableEq

def Stream.new (id : ℕ) (sendWindow recvWindow : ℤ) : Stream where
  id := id
  sendWindow := sendWindow
  recvWindow := recvWindow
  unreleased := 0
  credited := false
  localEnd := false
  remoteEnd := false
  receivedHead := false
  sentHead := false
  recvLength := none
  received := 0
  headRequest := false
  recvNoBody := false
  sendNoBody := false
  sendLength := none
  sent := 0

def Stream.closed (s : Stream) : Bool := s.localEnd && s.remoteEnd

/-- `output` are the frames written so far, in order. -/
structure Connection (K : Codec) where
  role : Role
  limits : Limits
  streams : List Stream
  nextId : ℕ
  lastRemote : ℕ
  highestRemote : ℕ
  sendWindow : ℤ
  recvWindow : ℤ
  initialSend : ℤ
  peerFrame : ℕ
  peerStreams : ℕ
  preface : Bool
  settingsReceived : Bool
  settingsPending : List Settings
  localSettings : Settings
  remoteSettings : Settings
  ackedLimits : Limits
  ackedRecvInitial : ℤ
  recvInitial : ℤ
  decoder : K.Decoder
  encoder : K.Encoder
  block : Bytes
  continuation : Option (ℕ × Bool × ℕ)
  disposal : Option Disposal
  output : List Frame
  draining : Bool
  failed : Bool
  settingsDeadline : Option ℕ

namespace Connection

variable {K : Codec}

abbrev M (K : Codec) := Program Error (Connection K)

/-- `encode_frame` into the output -/
def frame (kind flags stream : ℕ) (payload : Bytes) : M K Unit := do
  refuse (payload.length > 0xffffff || stream > 0x7fffffff) frameError
  modify fun c => { c with output := c.output ++ [⟨kind, flags, stream, payload⟩] }

def index (c : Connection K) (id : ℕ) : Option (Fin c.streams.length) := c.streams.findFinIdx? (·.id == id)

def update (i : ℕ) (f : Stream → Stream) (c : Connection K) : Connection K :=
  { c with streams := c.streams.modify i f }

def active (c : Connection K) : ℕ := c.streams.countP (fun s => !s.closed)

def seen (c : Connection K) (id : ℕ) : Bool :=
  if id = 0 then false
  else if (id % 2 == 1) == (c.role == .client) then id < c.nextId
  else id ≤ c.highestRemote

def gone (c : Connection K) (id : ℕ) : Error :=
  if c.seen id then ⟨.STREAM_CLOSED, "stream already terminated"⟩ else protocol "unknown or idle stream"

def loosen (acc : Limits × ℤ) (e : UInt16 × UInt32) : Limits × ℤ :=
  let value := e.2.toNat
  if e.1 = Settings.MAX_CONCURRENT_STREAMS then ({ acc.1 with streams := max acc.1.streams value }, acc.2)
  else if e.1 = Settings.INITIAL_WINDOW_SIZE then (acc.1, max acc.2 value)
  else if e.1 = Settings.MAX_FRAME_SIZE then ({ acc.1 with frameSize := max acc.1.frameSize value }, acc.2)
  else if e.1 = Settings.MAX_HEADER_LIST_SIZE then ({ acc.1 with headerList := max acc.1.headerList value }, acc.2)
  else acc

def enforceSettings (c : Connection K) : Connection K :=
  let (limits, recvInitial) :=
    c.settingsPending.foldl (fun acc settings => settings.entries.foldl loosen acc) (c.ackedLimits, c.ackedRecvInitial)
  let delta := recvInitial - c.recvInitial
  { c with
    streams := if delta ≠ 0 then c.streams.map (fun s => { s with recvWindow := s.recvWindow + delta }) else c.streams
    recvInitial := recvInitial
    decoder := K.setMaxListSize c.decoder limits.headerList
    limits := limits }

def sendSettings (settings : Settings) : M K Unit := do
  let c ← get
  refuse (settings.encode.length > c.peerFrame) frameError
  frame 4 0 0 settings.encode
  modify fun c => { c with settingsPending := c.settingsPending ++ [settings] }
  modify enforceSettings

def settings (settings : Settings) : M K Unit := do
  let c ← get
  refuse c.failed (protocol "failed connection")
  lift settings.validate
  sendSettings settings

def start (role : Role) (limits : Limits) : Connection K where
  role := role
  limits := limits
  streams := []
  nextId := if role = .client then 1 else 2
  lastRemote := 0
  highestRemote := 0
  sendWindow := 65535
  recvWindow := 65535
  initialSend := 65535
  peerFrame := 16384
  peerStreams := 2 ^ 64 - 1
  preface := role = .client
  settingsReceived := false
  settingsPending := []
  localSettings := Settings.new
  remoteSettings := Settings.new
  ackedLimits := limits
  ackedRecvInitial := 65535
  recvInitial := 65535
  decoder := K.decoder 4096 limits.headerList
  encoder := K.encoder 4096
  block := []
  continuation := none
  disposal := none
  output := []
  draining := false
  failed := false
  settingsDeadline := none

/-- A client that does not name ENABLE_PUSH sends `0`. -/
def announced (role : Role) (settings : Settings) : Settings :=
  if role = .client && (settings.get Settings.ENABLE_PUSH).isNone then settings.set Settings.ENABLE_PUSH 0 else settings

def withSettings (role : Role) (limits : Limits) (settings : Settings) : Result (Connection K) :=
  if !(16384 ≤ limits.frameSize && limits.frameSize ≤ 0xffffff) || limits.streams = 0 ||
    limits.streams > 2 ^ 32 - 1 then
    .error (protocol "invalid limits")
  else
    match (announced role settings).validate with
    | .error e => .error e
    | .ok () =>
      match sendSettings (announced role settings) (start role limits) with
      | (.error e, _) => .error e
      | (.ok (), c) => .ok c

def new (role : Role) (limits : Limits) : Result (Connection K) := withSettings role limits (Settings.fromLimits limits)

def nextTimeout (c : Connection K) : Option ℕ :=
  if !c.settingsPending.isEmpty && !c.failed then c.settingsDeadline else none

def handleTimeout (now : ℕ) : M K (Option Error) := do
  let c ← get
  if c.nextTimeout.any (· ≤ now) then do
    modify fun c => { c with failed := true }
    frame 7 0 0 (be32 c.lastRemote ++ be32 4)
    pure (some ⟨.SETTINGS_TIMEOUT, "SETTINGS acknowledgement timeout"⟩)
  else pure none

def eof (c : Connection K) : Connection K := { c with failed := true }

def pollFailedStream (c : Connection K) : Option ℕ × Connection K :=
  if !c.failed then (none, c)
  else match c.streams.findFinIdx? (fun s => !s.remoteEnd) with
    | none => (none, c)
    | some i => (some c.streams[i].id, c.update i (fun s => { s with localEnd := true, remoteEnd := true }))

/-- `return_credit`; the record at `i` is there. -/
def returnCredit (i : ℕ) : M K Unit := do
  let c ← get
  let n := c.streams[i]?.elim 0 (·.unreleased)
  if n = 0 then pure ()
  else do
    modify (update i (fun s => { s with unreleased := 0 }))
    modify fun c => { c with recvWindow := c.recvWindow + n }
    frame 8 0 0 (be32 n)

def discardData (flow : ℕ) : M K Unit := do
  let c ← get
  refuse (flow > c.recvWindow) ⟨.FLOW_CONTROL_ERROR, "receive window exceeded"⟩
  if flow = 0 then pure () else frame 8 0 0 (be32 flow)

def addStream (id : ℕ) : M K ℕ := do
  let c ← get
  refuse (c.active ≥ c.limits.streams) ⟨.REFUSED_STREAM, "stream limit"⟩
  let stream := Stream.new id c.initialSend c.recvInitial
  match c.streams.findIdx? (fun s => s.closed && s.unreleased == 0) with
  | some i => do
    modify fun c => { c with streams := c.streams.set i stream }
    pure i
  | none => do
    refuse (c.streams.length ≥ c.limits.streams) ⟨.REFUSED_STREAM, "release consumed capacity before opening streams"⟩
    modify fun c => { c with streams := c.streams ++ [stream] }
    pure c.streams.length

def sendBlock (id : ℕ) (scratch : Bytes) (endStream : Bool) (peerFrame : ℕ) : M K Unit :=
  let count := (max scratch.length 1 + peerFrame - 1) / peerFrame
  (List.range count).forM fun n =>
    frame (if n = 0 then 1 else 9) ((if n + 1 = count then 4 else 0) ||| (if n = 0 ∧ endStream then 1 else 0)) id
      ((scratch.drop (n * peerFrame)).take peerFrame)

def sendHeaders (id : ℕ) (headers : List Header) (endStream : Bool) : M K Unit := do
  let c ← get
  refuse c.failed (protocol "failed connection")
  match c.index id with
  | none => throw (c.gone id)
  | some i => do
    let s := c.streams[i]
    refuse s.localEnd ⟨.STREAM_CLOSED, "local stream closed"⟩
    lift (validateHeaders headers (c.role == .client) s.sentHead)
    refuse (informational headers && endStream) (protocol "informational END_STREAM")
    refuse (s.sentHead && !endStream) (protocol "trailers must end stream")
    let noBody := c.role == .server && (s.headRequest || bodyless headers)
    let length ← lift (if s.sentHead then .ok s.sendLength else if noBody then .ok none else contentLength headers)
    refuse (endStream && length.any (· != s.sent)) (protocol "outgoing content-length mismatch")
    modify fun c => { c with encoder := (K.encode c.encoder headers).2 }
    sendBlock id (K.encode c.encoder headers).1 endStream c.peerFrame
    modify (update i fun s =>
      { s with
        sentHead := s.sentHead || !informational headers
        sendNoBody := noBody
        sendLength := length
        localEnd := endStream
        headRequest := if c.role = .client then isHead headers else s.headRequest })

/-- The `open` of a client. -/
def openStream (headers : List Header) (endStream : Bool) : M K ℕ := do
  let c ← get
  refuse (c.role != .client || c.draining || c.failed) (protocol "cannot open stream")
  refuse (c.active ≥ c.peerStreams) ⟨.REFUSED_STREAM, "peer stream limit"⟩
  lift (validateHeaders headers true false)
  refuse (c.nextId + 2 > 0x7fffffff) (protocol "stream IDs exhausted")
  modify fun c => { c with nextId := c.nextId + 2 }
  let _ ← addStream c.nextId
  sendHeaders c.nextId headers endStream
  pure c.nextId

def sendData (id : ℕ) (bytes : Bytes) (endStream : Bool) : M K ℕ := do
  let c ← get
  match c.index id with
  | none => throw (c.gone id)
  | some i => do
    let s := c.streams[i]
    refuse (c.failed || s.localEnd || !s.sentHead) ⟨.STREAM_CLOSED, "cannot send DATA"⟩
    let n := min (min (min bytes.length c.peerFrame) c.sendWindow.toNat) s.sendWindow.toNat
    if n = 0 ∧ bytes ≠ [] then pure 0
    else do
      let last := endStream && n == bytes.length
      refuse (s.sendNoBody && !bytes.isEmpty) (protocol "DATA on bodyless response")
      refuse (s.sendLength.any (fun length => s.sent + n > length || (last && s.sent + n != length)))
        (protocol "outgoing content-length mismatch")
      frame 0 last.toNat id (bytes.take n)
      modify fun c => { c with sendWindow := c.sendWindow - n }
      modify (update i fun s => { s with sendWindow := s.sendWindow - n, sent := s.sent + n, localEnd := last })
      pure n

def releaseCapacity (id n : ℕ) : M K Unit := do
  let c ← get
  match c.index id with
  | none => refuse (!c.seen id) (protocol "unknown or idle stream")
  | some i =>
    let s := c.streams[i]
    if n = 0 ∨ s.credited then pure ()
    else do
      refuse (n > s.unreleased) (protocol "capacity exceeds received DATA")
      modify (update i fun s => { s with unreleased := s.unreleased - n, recvWindow := s.recvWindow + n })
      modify fun c => { c with recvWindow := c.recvWindow + n }
      frame 8 0 0 (be32 n)
      when (!s.remoteEnd) (frame 8 0 id (be32 n))

/-- `Vec::swap_remove` -/
def swapRemove (l : List Stream) (i : ℕ) : List Stream :=
  match l.getLast? with
  | none => []
  | some last => (l.set i last).dropLast

def reset (id code : ℕ) : M K Unit := do
  let c ← get
  match c.index id with
  | none => do
    refuse (!c.seen id) (protocol "unknown or idle stream")
    frame 3 0 id (be32 code)
  | some i => do
    returnCredit i
    modify fun c => { c with streams := swapRemove c.streams i }
    frame 3 0 id (be32 code)

def ping (data : Bytes) : M K Unit := frame 6 0 0 data

def goaway (code lastStream : ℕ) (debug : Bytes) : M K Unit := do
  refuse (lastStream > 0x7fffffff) (protocol "invalid last stream")
  let c ← get
  refuse (8 + debug.length > c.peerFrame) frameError
  modify fun c => { c with draining := true }
  frame 7 0 0 (be32 lastStream ++ be32 code ++ debug)

def shutdown : M K Unit := do
  let c ← get
  goaway 0 c.lastRemote []

end Connection

end Turnloop.Http2
