import Turnloop.Driver.Calls

/-! The turn: one native poll, then due timers, finished work and posts, then the delivery to the host. -/

namespace Turnloop

open Table (Key)
open Timer

structure Surroundings where
  validated : Result Unit
  notified : Bool
  start : Instant
  cancelledAtStart : OpId → Result Unit
  posterEmpty : Bool
  portEmpty : Bool
  parks : Bool
  events : List Event
  polled : Result PollInfo
  attached : Handle → Result Unit
  now : Instant
  cancelledAfterPoll : OpId → Result Unit
  work : List WorkResult
  posts : List Post
  parked : Result Unit
  finish : Instant

namespace Driver

/-- `none` where an output `Opened` has no handle to name (`expect`). -/
def fsResult (handle : Option Handle) (output : FsOutput) (lease : Option BufLease) : Option OpResult :=
  match output with
  | .opened => handle.map fun h => .fs (.opened h)
  | .read n => some (.fs (.read n (lease.map (·.setLen n))))
  | .wrote n => some (.fs (.wrote n))
  | .metadata m => some (.fs (.metadata m))
  | .directory n eof => some (.fs (.directory n (lease.map (·.setLen n)) eof))
  | .bytes n => some (.fs (.bytes n (lease.map (·.setLen n))))
  | .done => some (.fs .done)

def drainOne (d : Driver) (q : Queued) (rest : List Queued) : Driver :=
  let c := q.completion
  let d := { d with queued := rest }
  let d := d.subRefs (if q.referenced then 1 else 0)
  let d := match q.eventClass with
    | none => d
    | some k =>
      { d.check (1 ≤ d.buffered k) .underflow with buffered := Function.update d.buffered k (d.buffered k - 1) }
  let d := if c.terminal && c.op.isSome then d.subOutstanding else d
  let d := d.note (.appended c)
  match (if c.result = .closed then c.handle else none) with
  | none => d
  | some h =>
    match d.freeHandle h with
    | (d, none) => d
    | (d, some r) =>
      let d := match r.kind with
        | .socket => d.releaseBackend h
        | .file => d.releaseFile h
        | .timer .. => d
      if r.referenced then d.subRefs 1 else d

def drain : ℕ → Driver → Driver × List Completion
  | 0, d => (d, [])
  | n + 1, d =>
    match d.queued with
    | [] => (d, [])
    | q :: rest =>
      let drained := drain n (d.drainOne q rest)
      (drained.1, q.completion :: drained.2)

def outcomeResult (d : Driver) (id : OpId) (op : Op) (attached : Handle → Result Unit) (outcome : Outcome) :
    Driver × Option OpResult :=
  let housed (f : Handle → OpResult) : Driver × Option OpResult :=
    match d.attachReserved id attached with
    | (d, .ok h) => (d, some (f h))
    | (d, .error e) => (d, some (.err e))
  match outcome with
  | .resolved addresses => (d, some (.resolved addresses))
  | .exited status => (d, some (.exited status))
  | .signal signal => (d, some (.signal signal))
  | .pipeAccepted _ => housed .pipeAccepted
  | .handleReceived _ => housed .handleReceived
  | .handleSent => (d, some .handleSent)
  | .connected => (d, some .connected)
  | .accepted _ peer => housed (.accepted · peer)
  | .read n lease => (d, some (.read n lease))
  | .eof => (d, some .eof)
  | .wrote n => (d, some (.wrote n))
  | .recvFrom n sender lease => (d, some (.recvFrom n sender lease))
  | .shutdown => (d, some .shutdown)
  | .watch events overflow => (d, some (.watch events overflow))
  | .fs output lease => (d, fsResult op.handle output lease)
  | .cancelled => (d, some .cancelled)

def acceptEvent (attached : Handle → Result Unit) (d : Driver) (e : Event) : Driver :=
  if e.op.owner ≠ d.owner then d
  else
    match d.ops.get e.op.key with
    | none => d
    | some op =>
      if op.fs && e.terminal then
        let result := if op.cancel then some .cancelled else
          match e.result with
          | .ok (.fs output lease) => fsResult op.handle output lease
          | .error e => some (.err e)
          | .ok _ => some (.err (.new .other))
        match result with
        | none => d
        | some result => d.finishFs e.op result
      else if op.cancel then
        if e.terminal then
          d.finish e.op (if op.timedOut then .err (.new .timedOut) else if op.stop then .stopped else .cancelled) true
        else d
      else
        match e.result with
        | .error error => d.finish e.op (.err error) e.terminal
        | .ok outcome =>
          match d.outcomeResult e.op op attached outcome with
          | (d, none) => d
          | (d, some result) => d.finish e.op result e.terminal

/-- The loop of `expire_connects`; each round takes one deadline, so their number is fuel enough. -/
def expireFrom (now : Instant) (cancelled : OpId → Result Unit) : ℕ → Driver → Driver × Result Unit
  | 0, d => (d, .ok ())
  | n + 1, d =>
    match d.connectDeadlines.popExpired now with
    | (_, none) => (d, .ok ())
    | (connectDeadlines, some (key, due)) =>
      match cancelled ⟨d.owner, key⟩ with
      | .error e => ({ d with connectDeadlines := connectDeadlines.insert key due }, .error e)
      | .ok () =>
        expireFrom now cancelled n { d with
          connectDeadlines := connectDeadlines
          ops := d.ops.modify key fun op => { op with cancel := true, timedOut := true } }

def expireConnects (d : Driver) (now : Instant) (cancelled : OpId → Result Unit) : Driver × Result Unit :=
  expireFrom now cancelled d.connectDeadlines.heap.length d

def poll (d : Driver) (deadline : Option Instant) (queued : Bool) (s : Surroundings) : Driver × Result PollInfo :=
  let timeout := deadline.map (· - s.start)
  let timeout := if timeout = some 0 ∨ queued ∨ s.notified ∨ !s.parks then some 0 else timeout
  let d := d.check (d.multishotReserved ≤ d.reservedHandles) .underflow
  let d := d.check (d.reservedHandles - d.multishotReserved ≤ d.handles.remaining) .underflow
  let d := note { d with events := s.events } (.polled timeout d.budget)
  match s.polled with
  | .error e => (d, .error e)
  | .ok info => (s.events.foldl (acceptEvent s.attached) { d with events := [] }, .ok info)

def expireTimer (d : Driver) (now : Instant) (key : Key) : Driver :=
  match (d.handles.get key).map Resource.kind with
  | some (.timer (some op) repeats) =>
    match repeats with
    | none => d.finish op .timer true
    | some interval =>
      match checkedAdd now interval with
      | some due => finish { d with timers := d.timers.insert key due } op .timer false
      | none => d.finish op (.err (.new .invalidInput)) true
  | _ => d

def expireTimers (now : Instant) : ℕ → Driver → Driver
  | 0, d => d
  | n + 1, d =>
    if d.buffered .timer = d.config.eventsPerTurn then d
    else
      match d.timers.popExpired now with
      | (_, none) => d
      | (timers, some (key, _)) => expireTimers now n (expireTimer { d with timers := timers } now key)

def takeWork (d : Driver) (work : WorkResult) : Driver :=
  match d.ops.get work.op.key with
  | none => d
  | some op =>
    if op.fs then
      let result := if op.cancel then some .cancelled else
        match work.result with
        | .ok (.fs output) => fsResult op.handle output work.lease
        | .ok _ => some (.err (.new .other))
        | .error e => some (.err e)
      match result with
      | none => d
      | some result => d.finishFs work.op result
    else
      let result := if op.cancel then (if op.stop then .stopped else .cancelled) else
        match work.result with
        | .ok (.fs _) => .err (.new .other)
        | .ok (.externalWait result) => .externalWait result
        | .ok (.blocking payload) => .blocking payload
        | .ok (.resolved addresses) => .resolved addresses
        | .error e => .err e
      d.finish work.op result true

def takePosts : ℕ → List Post → Driver → Driver
  | 0, _, d => d
  | _, [], d => d
  | n + 1, p :: rest, d =>
    if d.buffered .post = d.config.eventsPerTurn then d
    else takePosts n rest (d.enqueue ⟨p.token, none, none, true, .posted p.payload⟩ false)

def collect (d : Driver) (s : Surroundings) (capacity : ℕ) : Driver × List Completion :=
  let d := expireTimers s.now d.config.eventsPerTurn d
  let d := (s.work.take d.config.eventsPerTurn).foldl takeWork d
  let d := takePosts d.config.eventsPerTurn s.posts d
  drain capacity d

def discover (d : Driver) (timeout : Timeout) (s : Surroundings) : Driver × Result PollInfo :=
  let deadline := earlier (timeout.deadline s.start) d.nextDeadline
  let queued := !d.queued.isEmpty || !s.posterEmpty || !s.portEmpty
  if d.buffered .native = 0 ∧ (queued = false ∨ d.nativePending ≠ 0) then d.poll deadline queued s
  else (d, .ok ⟨0, 0, 0⟩)

/-- `capacity` is that of the host's output buffer, which the turn has cleared. -/
def turn (d : Driver) (timeout : Timeout) (capacity : ℕ) (s : Surroundings) :
    Driver × Result TurnInfo × List Completion :=
  match s.validated with
  | .error e => (d, .error e, [])
  | .ok () =>
    match d.expireConnects s.start s.cancelledAtStart with
    | (d, .error e) => (d, .error e, [])
    | (d, .ok ()) =>
      match d.discover timeout s with
      | (d, .error e) => (d, .error e, [])
      | (d, .ok info) =>
        match d.expireConnects s.now s.cancelledAfterPoll with
        | (d, .error e) => (d, .error e, [])
        | (d, .ok ()) =>
          match d.collect s capacity with
          | (d, out) =>
            match (if d.external then s.parked else .ok ()) with
            | .error e => (d, .error e, out)
            | .ok () =>
              (d, .ok ⟨out.length, s.finish - s.start, d.alive, info.waits, info.discoveryPolls, info.zeroEventWaits⟩,
                out)

end Driver

inductive Call where
  | setRef (h : Handle) (referenced : Bool)
  | timer (due : Instant) (repeats : Option Duration) (token : Token)
  | timerReset (h : Handle) (due : Instant)
  | openSocket (opened : Result Unit)
  | connect (deadline : Option Instant) (token : Token) (opened submitted : Result Unit)
  | tcpConnect (connectTimeout : Option Duration) (now : Instant) (token : Token) (opened submitted : Result Unit)
  | tcpConnectAdopted (token : Token) (attached submitted : Result Unit)
  | submit (h : Handle) (operation : Operation) (token : Token) (submitted : Result Unit)
  | sendHandle (pipe h : Handle) (token : Token) (submitted : Result Unit)
  | spawnExtra (spec : ProcessSpec) (slots : ℕ) (token : Token) (spawned : Result ℕ) (submitted : Result Unit)
  | watch (operation : Operation) (token : Token) (bound submitted : Result Unit)
  | cancel (id : OpId) (stop : Bool) (cancelled : OpId → Result Unit)
  | close (h : Handle) (token : Token) (prepared : Result Unit) (cancelled : OpId → Result Unit)
  | signalStop (h : Handle) (token : Token) (prepared : Result Unit) (stopped cancelled : OpId → Result Unit)
  | detach (h : Handle) (cancelled : OpId → Result Unit) (detached : Result Transport)
  | attach (attached : Handle → Result Unit)
  | externalWait (token : Token) (submitted : Result Unit)
  | submitJob (token : Token) (submitted : Result Unit)
  | resolve (token : Token) (resolved submitted : Result Unit)
  | fs (request : FsRequest) (token : Token) (submitted : Result Unit)
  | integration (answer parked : Result Unit)
  | turn (timeout : Timeout) (capacity : ℕ) (s : Surroundings)

inductive Reply where
  | unit (result : Result Unit)
  | flag (result : Bool)
  | handle (result : Result Handle)
  | op (result : Result OpId)
  | adopted (result : Result (Handle × OpId))
  | process (result : Result Process)
  | transport (result : Result Transport)
  | turn (result : Result TurnInfo) (out : List Completion)

def Reply.returned : Reply → Option OpId
  | .op (.ok id) | .adopted (.ok (_, id)) => some id
  | _ => none

namespace Driver

def exec (d : Driver) : Call → Driver × Reply
  | .setRef h referenced => (d.setRef h referenced).map id .unit
  | .timer due repeats token => (d.timer due repeats token).map id .handle
  | .timerReset h due => (d.timerReset h due).map id .flag
  | .openSocket opened => (d.openSocket opened).map id .handle
  | .connect deadline token opened submitted => (d.connect deadline token opened submitted).map id .handle
  | .tcpConnect connectTimeout now token opened submitted =>
    (d.tcpConnect connectTimeout now token opened submitted).map id .handle
  | .tcpConnectAdopted token attached submitted => (d.tcpConnectAdopted token attached submitted).map id .adopted
  | .submit h operation token submitted => (d.submit h operation token submitted).map id .op
  | .sendHandle pipe h token submitted => (d.sendHandle pipe h token submitted).map id .op
  | .spawnExtra spec slots token spawned submitted =>
    (d.spawnExtra spec slots token spawned submitted).map id .process
  | .watch operation token bound submitted => (d.watch operation token bound submitted).map id .handle
  | .cancel op stop cancelled => (d.cancelInner op stop cancelled).map id .flag
  | .close h token prepared cancelled => (d.close h token prepared cancelled).map id .unit
  | .signalStop h token prepared stopped cancelled => (d.signalStop h token prepared stopped cancelled).map id .unit
  | .detach h cancelled detached => (d.detach h cancelled detached).map id .transport
  | .attach attached => (d.attach attached).map id .handle
  | .externalWait token submitted => (d.externalWait token submitted).map id .op
  | .submitJob token submitted => (d.submitJob token submitted).map id .op
  | .resolve token resolved submitted => (d.resolve token resolved submitted).map id .op
  | .fs request token submitted => (d.fs request token submitted).map id .op
  | .integration answer parked => (d.integration answer parked).map id .unit
  | .turn timeout capacity s => (d.turn timeout capacity s).map id fun r => .turn r.1 r.2

def run (d : Driver) (calls : List Call) : Driver := calls.foldl (fun d call => (d.exec call).1) d

end Driver

end Turnloop
