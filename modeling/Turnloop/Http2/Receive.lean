import Turnloop.Http2.Connection

/-! What an endpoint does with the bytes of its peer, and whole histories of a connection. -/

namespace Turnloop.Http2

open Lib.Program (refuse when lift)

def PREFACE : Bytes := ascii "PRI * HTTP/2.0\r\n\r\nSM\r\n\r\n"

def Code.number : Code → ℕ
  | .FLOW_CONTROL_ERROR => 3
  | .FRAME_SIZE_ERROR => 6
  | .COMPRESSION_ERROR => 9
  | .ENHANCE_YOUR_CALM => 11
  | _ => 1

namespace Connection

variable {K : Codec}

def receiveData (f : Frame) : M K (Option Event) := do
  refuse (f.stream == 0) (protocol "DATA on connection")
  let c ← get
  match c.index f.stream with
  | none => do
    refuse (!c.seen f.stream) (protocol "unknown or idle stream")
    discardData f.payload.length
    pure none
  | some i => do
    let s := c.streams.get i
    refuse (s.remoteEnd || !s.receivedHead) (protocol "DATA in invalid stream state")
    let payload ← lift (unpadded f)
    let flow := f.payload.length
    refuse (flow > c.recvWindow || flow > s.recvWindow) ⟨.FLOW_CONTROL_ERROR, "receive window exceeded"⟩
    modify fun c => { c with recvWindow := c.recvWindow - flow }
    modify (update i fun s =>
      { s with
        recvWindow := s.recvWindow - flow
        unreleased := s.unreleased + flow
        received := s.received + payload.length })
    refuse (s.recvNoBody && !payload.isEmpty) (protocol "DATA on bodyless response")
    let received := s.received + payload.length
    refuse (s.recvLength.any (fun n => received > n || (f.END_STREAM && n != received)))
      (protocol "content-length mismatch")
    modify (update i fun s => { s with remoteEnd := f.END_STREAM })
    -- padding is consumed by the protocol, never charged to the application
    when (f.payload.length - payload.length > 0) (releaseCapacity f.stream (f.payload.length - payload.length))
    pure (some (.data f.stream payload f.END_STREAM))

def admitRemote (id : ℕ) : M K Unit := fun c =>
  match addStream id c with
  | (.ok _, c') => (.ok (), { c' with lastRemote := id })
  | (.error e, c') =>
    if e.code = .REFUSED_STREAM then (.ok (), { c' with disposal := some (.refuse 7) }) else (.error e, c')

def openRemote (id : ℕ) : M K Unit := do
  let c ← get
  match c.role with
  | .client => do
    refuse (!c.seen id) (protocol "invalid new stream")
    modify fun c => { c with disposal := some .discard }
  | .server => do
    refuse (id % 2 == 0 || id ≤ c.highestRemote) (protocol "invalid new stream")
    modify fun c => { c with highestRemote := id }
    if c.draining then modify fun c => { c with disposal := some .unprocessed } else admitRemote id

def prioritized (f : Frame) (payload : Bytes) : Result Bytes :=
  if !f.PRIORITY then .ok payload
  else if payload.length < 5 then .error frameError
  else if u32be payload % 2 ^ 31 = f.stream then .error (protocol "stream depends on itself")
  else .ok (payload.drop 5)

def appendBlock (bytes : Bytes) : M K Unit := do
  let c ← get
  refuse (bytes.length > c.limits.headerBlock - c.block.length) ⟨.ENHANCE_YOUR_CALM, "compressed header block limit"⟩
  modify fun c => { c with block := c.block ++ bytes }

def decodeBlock : M K (List Header) := fun c =>
  ((K.decode c.decoder c.block).1, { c with decoder := (K.decode c.decoder c.block).2 })

def takeHead (i : ℕ) (headers : List Header) (noBody : Bool) : M K Unit := do
  modify (update i fun s => { s with recvNoBody := noBody })
  let length ← lift (if noBody then .ok none else contentLength headers)
  modify fun c => c.update i fun s =>
    { s with
      recvLength := length
      headRequest := if c.role = .server then isHead headers else s.headRequest
      receivedHead := true }

def setRemoteEnd (i : ℕ) (endStream : Bool) : M K Unit := do
  let c ← get
  refuse (endStream && c.streams[i]?.any (fun s => s.recvLength.any (· != s.received)))
    (protocol "content-length mismatch")
  modify (update i fun s => { s with remoteEnd := endStream })

def finishHeaders (id : ℕ) (endStream : Bool) : M K Event := do
  let headers ← decodeBlock
  let c ← get
  match c.index id with
  | none => throw (protocol "unknown or idle stream")
  | some i => do
    let s := c.streams.get i
    refuse s.remoteEnd ⟨.STREAM_CLOSED, "headers after END_STREAM"⟩
    lift (validateHeaders headers (c.role == .server) s.receivedHead)
    refuse (informational headers && endStream) (protocol "informational END_STREAM")
    refuse (s.receivedHead && !endStream) (protocol "trailers without END_STREAM")
    let kind := if informational headers then .informational else if s.receivedHead then .trailers else .head
    when (!s.receivedHead && !informational headers)
      (takeHead i headers (c.role == .client && (s.headRequest || bodyless headers)))
    setRemoteEnd i endStream
    pure (.headers id headers endStream kind)

def finishBlock (id : ℕ) (endStream : Bool) : M K (Option Event) := do
  let c ← get
  match c.disposal with
  | none => do
    let event ← finishHeaders id endStream
    pure (some event)
  | some disposal => do
    modify fun c => { c with disposal := none }
    let _ ← decodeBlock
    match disposal with
    | .refuse code => do
      frame 3 0 id (be32 code)
      pure (some (.reset id code))
    | .unprocessed => pure (some (.unprocessed id))
    | .discard => pure none

def startBlock (f : Frame) : M K (Option Event) := do
  let payload ← lift (unpadded f)
  let payload ← lift (prioritized f payload)
  modify fun c => { c with block := [] }
  appendBlock payload
  if f.END_HEADERS then finishBlock f.stream f.END_STREAM
  else do
    modify fun c => { c with continuation := some (f.stream, f.END_STREAM, 0) }
    pure none

def receiveHeaders (f : Frame) : M K (Option Event) := do
  refuse (f.stream == 0) (protocol "HEADERS on connection")
  modify fun c => { c with disposal := none }
  let c ← get
  when (c.index f.stream).isNone (openRemote f.stream)
  startBlock f

def receiveContinuation (f : Frame) (id : ℕ) (endStream : Bool) (count : ℕ) : M K (Option Event) := do
  let c ← get
  refuse (count ≥ c.limits.continuations) ⟨.ENHANCE_YOUR_CALM, "CONTINUATION limit"⟩
  appendBlock f.payload
  if f.END_HEADERS then do
    modify fun c => { c with continuation := none }
    finishBlock id endStream
  else do
    modify fun c => { c with continuation := some (id, endStream, count + 1) }
    pure none

def receivePriority (f : Frame) : M K (Option Event) := do
  refuse (f.stream == 0) (protocol "PRIORITY on connection")
  refuse (f.payload.length != 5) frameError
  refuse (u32be f.payload % 2 ^ 31 == f.stream) (protocol "stream depends on itself")
  pure none

def receiveReset (f : Frame) : M K (Option Event) := do
  refuse (f.stream == 0) (protocol "RST_STREAM on connection")
  refuse (f.payload.length != 4) frameError
  let c ← get
  match c.index f.stream with
  | none => do
    refuse (!c.seen f.stream) (protocol "unknown or idle stream")
    pure none
  | some i => do
    returnCredit i
    modify (update i fun s => { s with credited := true, remoteEnd := true, localEnd := true })
    pure (some (.reset f.stream (u32be f.payload)))

def acknowledge (acc : Limits × ℤ) (e : UInt16 × UInt32) : Limits × ℤ :=
  let value := e.2.toNat
  if e.1 = Settings.MAX_CONCURRENT_STREAMS then ({ acc.1 with streams := value }, acc.2)
  else if e.1 = Settings.INITIAL_WINDOW_SIZE then (acc.1, value)
  else if e.1 = Settings.MAX_FRAME_SIZE then ({ acc.1 with frameSize := value }, acc.2)
  else if e.1 = Settings.MAX_HEADER_LIST_SIZE then ({ acc.1 with headerList := value }, acc.2)
  else acc

def receiveAck (f : Frame) : M K (Option Event) := do
  refuse (!f.payload.isEmpty) frameError
  let c ← get
  match c.settingsPending with
  | [] => throw (protocol "unsolicited SETTINGS ack")
  | acked :: rest => do
    let inForce := acked.entries.foldl acknowledge (c.ackedLimits, c.ackedRecvInitial)
    modify fun c =>
      { c with
        settingsPending := rest
        ackedLimits := inForce.1
        ackedRecvInitial := inForce.2
        localSettings := c.localSettings.merge acked.entries }
    modify enforceSettings
    modify fun c => { c with settingsDeadline := none }
    pure (some (.settingsAck acked))

def shiftWindows (delta : ℤ) : List Stream → Bool × List Stream
  | [] => (true, [])
  | s :: rest =>
    if s.sendWindow + delta > 0x7fffffff then (false, s :: rest)
    else ((shiftWindows delta rest).1, { s with sendWindow := s.sendWindow + delta } :: (shiftWindows delta rest).2)

def applySetting (e : UInt16 × UInt32) : M K Unit := do
  let c ← get
  let value := e.2.toNat
  if e.1 = Settings.HEADER_TABLE_SIZE then
    modify fun c => { c with encoder := K.setTableSize c.encoder (min value 4096) }
  else if e.1 = Settings.ENABLE_PUSH then
    refuse (value > 1 || c.role == .client) (protocol "invalid ENABLE_PUSH")
  else if e.1 = Settings.MAX_CONCURRENT_STREAMS then
    modify fun c => { c with peerStreams := value }
  else if e.1 = Settings.INITIAL_WINDOW_SIZE then do
    refuse (value > 0x7fffffff) ⟨.FLOW_CONTROL_ERROR, "invalid initial window"⟩
    let shifted := shiftWindows (value - c.initialSend) c.streams
    modify fun c => { c with streams := shifted.2 }
    refuse (!shifted.1) ⟨.FLOW_CONTROL_ERROR, "window overflow"⟩
    modify fun c => { c with initialSend := value }
  else if e.1 = Settings.MAX_FRAME_SIZE then do
    refuse (!(16384 ≤ value && value ≤ 0xffffff)) (protocol "invalid MAX_FRAME_SIZE")
    modify fun c => { c with peerFrame := value }
  else pure ()

def receiveSettings (f : Frame) : M K (Option Event) := do
  refuse (f.payload.length % 6 != 0) frameError
  (SettingsFrame.iter f.payload).forM applySetting
  modify fun c =>
    { c with
      settingsReceived := true
      remoteSettings := c.remoteSettings.merge (SettingsFrame.iter f.payload) }
  frame 4 1 0 []
  pure (some (.settings (SettingsFrame.iter f.payload)))

def receivePing (f : Frame) : M K (Option Event) := do
  refuse (f.stream != 0) (protocol "PING on stream")
  refuse (f.payload.length != 8) frameError
  when (!f.ACK) (frame 6 1 0 f.payload)
  pure (some (.ping f.ACK f.payload))

def receiveGoaway (f : Frame) : M K (Option Event) := do
  refuse (f.stream != 0) (protocol "GOAWAY on stream")
  refuse (f.payload.length < 8) frameError
  modify fun c => { c with draining := true }
  pure (some (.goaway (u32be f.payload % 2 ^ 31) (u32be (f.payload.drop 4))
    (if (f.payload.drop 8).isEmpty then none else some (f.payload.drop 8))))

def receiveWindowUpdate (f : Frame) : M K (Option Event) := do
  refuse (f.payload.length != 4) frameError
  let c ← get
  let n : ℕ := u32be f.payload % 2 ^ 31
  if f.stream = 0 then do
    refuse (n == 0) (protocol "zero WINDOW_UPDATE")
    refuse (c.sendWindow + n > 0x7fffffff) ⟨.FLOW_CONTROL_ERROR, "window overflow"⟩
    modify fun c => { c with sendWindow := c.sendWindow + n }
    pure (some (.windowUpdate 0))
  else match c.index f.stream with
    | none => do
      refuse (!c.seen f.stream) (protocol "unknown or idle stream")
      pure none
    | some i =>
      if n = 0 then do
        reset f.stream 1
        pure (some (.reset f.stream 1))
      else if (c.streams.get i).sendWindow + n > 0x7fffffff then do
        reset f.stream 3
        pure (some (.reset f.stream 3))
      else do
        modify (update i fun s => { s with sendWindow := s.sendWindow + n })
        pure (some (.windowUpdate f.stream))

/-- `9` is CONTINUATION, of the header block under way. -/
def receiveFrame (f : Frame) (continuation : Option (ℕ × Bool × ℕ)) : M K (Option Event) :=
  match f.kind, continuation with
  | 0, _ => receiveData f
  | 1, _ => receiveHeaders f
  | 2, _ => receivePriority f
  | 3, _ => receiveReset f
  | 4, _ => do
    refuse (f.stream != 0) (protocol "SETTINGS on stream")
    if f.ACK then receiveAck f else receiveSettings f
  | 5, _ => throw (protocol "server push disabled")
  | 6, _ => receivePing f
  | 7, _ => receiveGoaway f
  | 8, _ => receiveWindowUpdate f
  | 9, some (id, endStream, count) => receiveContinuation f id endStream count
  | _, _ => pure none

def inOrder (c : Connection K) (f : Frame) : Result Unit :=
  if !c.settingsReceived && (f.kind != 4 || f.ACK) then .error (protocol "first frame must be SETTINGS")
  else match c.continuation with
    | some (id, _, _) => if f.kind ≠ 9 || f.stream ≠ id then .error (protocol "interleaved header block") else .ok ()
    | none => if f.kind = 9 then .error (protocol "unexpected CONTINUATION") else .ok ()

def receivePreface (input : Bytes) : M K Step := do
  let n := min input.length PREFACE.length
  refuse (input.take n != PREFACE.take n) (protocol "invalid client preface")
  if n < PREFACE.length then pure ⟨0, none⟩
  else do
    modify fun c => { c with preface := true }
    pure ⟨PREFACE.length, none⟩

def receiveInner (input : Bytes) : M K Step := do
  let c ← get
  if c.preface then do
    let decoded ← lift (decodeFrame input c.limits.frameSize)
    match decoded with
    | none => pure ⟨0, none⟩
    | some f => do
      lift (c.inOrder f)
      let event ← receiveFrame f c.continuation
      pure ⟨9 + f.payload.length, event⟩
  else receivePreface input

def fail (e : Error) : M K Unit := do
  modify fun c => { c with failed := true }
  let c ← get
  frame 7 0 0 (be32 c.lastRemote ++ be32 e.code.number)

def receive (input : Bytes) : M K Step := do
  let c ← get
  refuse c.failed (protocol "failed connection")
  tryCatch (receiveInner input) fun e => do
    fail e
    throw e

end Connection

inductive Call where
  | settings (settings : Settings)
  | openStream (headers : List Header) (endStream : Bool)
  | sendHeaders (id : ℕ) (headers : List Header) (endStream : Bool)
  | sendData (id : ℕ) (bytes : Bytes) (endStream : Bool)
  | releaseCapacity (id n : ℕ)
  | reset (id code : ℕ)
  | ping (data : Bytes)
  | shutdown
  | goaway (code lastStream : ℕ) (debug : Bytes)
  | setSettingsDeadline (deadline : Option ℕ)
  | handleTimeout (now : ℕ)
  | eof
  | pollFailedStream
  | receive (input : Bytes)
  deriving DecidableEq

def Call.exec {K : Codec} (call : Call) (c : Connection K) : Connection K :=
  match call with
  | .settings s => (Connection.settings s c).2
  | .openStream headers endStream => (Connection.openStream headers endStream c).2
  | .sendHeaders id headers endStream => (Connection.sendHeaders id headers endStream c).2
  | .sendData id bytes endStream => (Connection.sendData id bytes endStream c).2
  | .releaseCapacity id n => (Connection.releaseCapacity id n c).2
  | .reset id code => (Connection.reset id code c).2
  | .ping data => (Connection.ping data c).2
  | .shutdown => (Connection.shutdown c).2
  | .goaway code lastStream debug => (Connection.goaway code lastStream debug c).2
  | .setSettingsDeadline deadline => { c with settingsDeadline := deadline }
  | .handleTimeout now => (Connection.handleTimeout now c).2
  | .eof => c.eof
  | .pollFailedStream => c.pollFailedStream.2
  | .receive input => (Connection.receive input c).2

def Call.hears {K : Codec} (call : Call) (c : Connection K) : Option Frame :=
  match call with
  | .receive input =>
    if c.failed || !c.preface then none
    else match decodeFrame input c.limits.frameSize with
      | .ok decoded => decoded
      | .error _ => none
  | _ => none

structure History (K : Codec) where
  conn : Connection K
  heard : List Frame

namespace History

variable {K : Codec}

def step (h : History K) (call : Call) : History K := ⟨call.exec h.conn, h.heard ++ (call.hears h.conn).toList⟩

def run (c : Connection K) (calls : List Call) : History K := calls.foldl step ⟨c, []⟩

end History

end Turnloop.Http2
