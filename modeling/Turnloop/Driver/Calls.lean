import Turnloop.Driver.State

/-! The calls a host makes between turns. -/

namespace Turnloop

open Table (Key)
open Timer

def Operation.reserve : Operation → ℕ
  | .accept _ | .recvHandle => 1
  | _ => 0

def Operation.multishotAccept : Operation → Bool
  | .accept multishot => multishot
  | _ => false

def Resource.weight (r : Resource) : ℕ := r.pending + if !r.kind.isTimer || r.closing.isSome then 1 else 0

def ProcessSpec.valid (spec : ProcessSpec) (slots : ℕ) : Bool :=
  slots = spec.extra.length && spec.extra.all (fun fd => 3 ≤ fd.number && fd.number ≤ MAX_CHILD_FD) &&
    (spec.extra.map ChildFd.number).Nodup && !(spec.controllingTerminal && !spec.detached)

namespace Driver

/-- The loop over the queue in `set_ref`, with its additions or subtractions taken together. -/
def recount (d : Driver) (h : Handle) (referenced : Bool) : Driver :=
  let stale (q : Queued) : Bool :=
    q.completion.handle = some h && q.completion.terminal && q.completion.op.isSome && q.referenced != referenced
  let n := d.queued.countP stale
  let d := if referenced then { d with refs := d.refs + n } else d.subRefs n
  { d with queued := d.queued.map fun q => if stale q then { q with referenced := referenced } else q }

def setRef (d : Driver) (h : Handle) (referenced : Bool) : Driver × Result Unit :=
  match d.resource h with
  | .error e => (d, .error e)
  | .ok r =>
    if r.referenced = referenced then (d, .ok ())
    else
      let d := if referenced then { d with refs := d.refs + r.weight } else d.subRefs r.weight
      let d := { d with handles := d.handles.modify h.key fun r => { r with referenced := referenced } }
      (d.recount h referenced, .ok ())

def timer (d : Driver) (due : Instant) (repeats : Option Duration) (token : Token) : Driver × Result Handle :=
  if repeats = some 0 then (d, .error (.new .invalidInput))
  else
    match d.newHandle (.timer none repeats) with
    | (d, .error e) => (d, .error e)
    | (d, .ok h) =>
      match d.newOp (some h) token with
      | (d, .error e) => ((d.freeHandle h).1, .error e)
      | (d, .ok id) =>
        (note { d with
            handles := d.handles.modify h.key fun r => { r with kind := .timer (some id) repeats }
            timers := d.timers.insert h.key due } (.accepted id), .ok h)

def timerReset (d : Driver) (h : Handle) (due : Instant) : Driver × Bool :=
  match d.resource h with
  | .error _ => (d, false)
  | .ok r =>
    match r.closing, r.kind with
    | none, .timer (some _) _ => ({ d with timers := (d.timers.cancel h.key).1.insert h.key due }, true)
    | _, _ => (d, false)

def removeSocket (d : Driver) (h : Handle) : Driver := (d.freeHandle h).1.subRefs 1

/-- `open`; the listeners, UDP sockets and standard streams differ in the spec they hand to the backend. -/
def openSocket (d : Driver) (opened : Result Unit) : Driver × Result Handle :=
  match d.newHandle .socket with
  | (d, .error e) => (d, .error e)
  | (d, .ok h) =>
    match opened with
    | .error e => (d.removeSocket h, .error e)
    | .ok () => (d, .ok h)

def submit (d : Driver) (h : Handle) (operation : Operation) (token : Token) (submitted : Result Unit) :
    Driver × Result OpId :=
  match d.resource h with
  | .error e => (d, .error e)
  | .ok r =>
    if r.closing ≠ none ∨ r.kind ≠ .socket then (d, .error (.new .invalidInput))
    else if operation.reserve ≠ 0 ∧ d.handles.remaining < d.reservedHandles + operation.reserve then
      (d, .error (.new .resourceLimit))
    else
      match d.newOp (some h) token with
      | (d, .error e) => (d, .error e)
      | (d, .ok id) =>
        let d := { d with reservedHandles := d.reservedHandles + operation.reserve }
        let d :=
          if operation.multishotAccept then
            { d with
              ops := d.ops.modify id.key fun op => { op with multishot := true }
              multishotArmed := d.multishotArmed + 1
              multishotReserved := d.multishotReserved + 1 }
          else { d with ops := d.ops.modify id.key fun op => { op with reservedHandles := operation.reserve } }
        match submitted with
        | .error e => (d.abandon id, .error e)
        | .ok () => ((d.note (.requested id operation)).note (.accepted id), .ok id)

def withdraw (d : Driver) (h : Handle) : Driver := (d.releaseBackend h).removeSocket h

def submitFresh (d : Driver) (h : Handle) (operation : Operation) (token : Token) (submitted : Result Unit) :
    Driver × Result OpId :=
  match d.submit h operation token submitted with
  | (d, .ok id) => (d, .ok id)
  | (d, .error e) => (d.withdraw h, .error e)

def expectConnect (d : Driver) (id : OpId) : Option Instant → Driver
  | none => d
  | some due => { d with connectDeadlines := d.connectDeadlines.insert id.key due }

/-- `pipe_connect_inner`, and `tcp_connect` once its deadline is computed -/
def connect (d : Driver) (deadline : Option Instant) (token : Token) (opened submitted : Result Unit) :
    Driver × Result Handle :=
  match d.openSocket opened with
  | (d, .error e) => (d, .error e)
  | (d, .ok h) =>
    match d.submitFresh h .connect token submitted with
    | (d, .error e) => (d, .error e)
    | (d, .ok id) => (d.expectConnect id deadline, .ok h)

def tcpConnect (d : Driver) (connectTimeout : Option Duration) (now : Instant) (token : Token)
    (opened submitted : Result Unit) : Driver × Result Handle :=
  if connectTimeout = some 0 then (d, .error (.new .invalidInput))
  else d.connect (connectTimeout.bind (checkedAdd now)) token opened submitted

def tcpConnectAdopted (d : Driver) (token : Token) (attached submitted : Result Unit) :
    Driver × Result (Handle × OpId) :=
  match d.newHandle .socket with
  | (d, .error e) => (d, .error e)
  | (d, .ok h) =>
    match attached with
    | .error e => (d.removeSocket h, .error e)
    | .ok () =>
      match d.submitFresh h .connect token submitted with
      | (d, .error e) => (d, .error e)
      | (d, .ok id) => (d, .ok (h, id))

def sendHandle (d : Driver) (pipe h : Handle) (token : Token) (submitted : Result Unit) : Driver × Result OpId :=
  match d.resource h with
  | .error e => (d, .error e)
  | .ok r =>
    if r.closing ≠ none then (d, .error (.new .invalidInput)) else d.submit pipe (.sendHandle h) token submitted

def parentEnds (d : Driver) : List ChildEnd → Driver × List (Option Handle) × Result Unit
  | [] => (d, [], .ok ())
  | .absent :: rest =>
    let made := d.parentEnds rest
    (made.1, none :: made.2.1, made.2.2)
  | .lent source :: rest =>
    match d.resource source with
    | .error e => (d, none :: rest.map fun _ => none, .error e)
    | .ok _ =>
      let made := d.parentEnds rest
      (made.1, none :: made.2.1, made.2.2)
  | .made :: rest =>
    match d.newHandle .socket with
    | (d, .error e) => (d, none :: rest.map fun _ => none, .error e)
    | (d, .ok h) =>
      let made := d.parentEnds rest
      (made.1, some h :: made.2.1, made.2.2)

/-- `spawned` is the answer of `backend.spawn`, `submitted` that of the submission that follows it. -/
def spawnInner (d : Driver) (h : Handle) (spec : ProcessSpec) (token : Token) (spawned : Result ℕ)
    (submitted : Result Unit) : Driver × List (Option Handle) × List (Option Handle) × Result ℕ :=
  match d.parentEnds spec.stdio with
  | (d, pipes, .error e) => (d, pipes, spec.extra.map fun _ => none, .error e)
  | (d, pipes, .ok ()) =>
    match d.parentEnds (spec.extra.map ChildFd.source) with
    | (d, parents, .error e) => (d, pipes, parents, .error e)
    | (d, parents, .ok ()) =>
      match d.newOp (some h) token with
      | (d, .error e) => (d, pipes, parents, .error e)
      | (d, .ok id) =>
        match spawned, submitted with
        | .ok pid, .ok () => ((d.note (.requested id .processExit)).note (.accepted id), pipes, parents, .ok pid)
        | .ok _, .error e | .error e, _ => (d.abandon id, pipes, parents, .error e)

def releaseFresh (d : Driver) (h : Handle) : Driver :=
  match (d.releaseBackend h).freeHandle h with
  | (d, none) => d
  | (d, some _) => d.subRefs 1

/-- `slots` is the length of `parents`; `spawn` passes none. -/
def spawnExtra (d : Driver) (spec : ProcessSpec) (slots : ℕ) (token : Token) (spawned : Result ℕ)
    (submitted : Result Unit) : Driver × Result Process :=
  if spec.valid slots then
    match d.newHandle .socket with
    | (d, .error e) => (d, .error e)
    | (d, .ok h) =>
      match d.spawnInner h spec token spawned submitted with
      | (d, pipes, parents, .ok pid) => (d, .ok ⟨h, pid, pipes, parents⟩)
      | (d, pipes, parents, .error e) =>
        ((h :: (pipes.reduceOption ++ parents.reduceOption)).foldl releaseFresh d, .error e)
  else (d, .error (.new .invalidInput))

/-- `signal_start` and `fs_watch`: bind a fresh socket to a source and subscribe to it. -/
def watch (d : Driver) (operation : Operation) (token : Token) (bound submitted : Result Unit) :
    Driver × Result Handle :=
  match d.newHandle .socket with
  | (d, .error e) => (d, .error e)
  | (d, .ok h) =>
    match bound with
    | .error e => (d.withdraw h, .error e)
    | .ok () =>
      match d.submitFresh h operation token submitted with
      | (d, .error e) => (d, .error e)
      | (d, .ok _) => (d, .ok h)

def cancelInner (d : Driver) (id : OpId) (stop : Bool) (cancelled : OpId → Result Unit) : Driver × Bool :=
  if id.owner ≠ d.owner then (d, false)
  else
    match d.ops.get id.key with
    | none => (d, false)
    | some op =>
      if op.cancel then (d, false)
      else
        let timer := op.handle.bind fun h => if (d.handles.get h.key).any (·.kind.isTimer) then some h else none
        match timer with
        | some h =>
          let d := { d with timers := (d.timers.cancel h.key).1 }
          let d := d.finish id (if stop then .stopped else .cancelled) true
          ({ d with connectDeadlines := (d.connectDeadlines.cancel id.key).1 }, true)
        | none =>
          let loopOwned := op.externalWait || (op.fs && d.filesystem = .pool)
          let asked := if loopOwned || op.jobCancel.isSome then .ok () else cancelled id
          match asked with
          | .error _ => (d, false)
          | .ok () =>
            ({ d with
                ops := d.ops.modify id.key fun op =>
                  { op with
                    cancel := true
                    stop := stop
                    jobCancel := if loopOwned then op.jobCancel else op.jobCancel.map fun _ => true }
                connectDeadlines := (d.connectDeadlines.cancel id.key).1 }, true)

def cancelFrom (stop : Bool) (cancelled : OpId → Result Unit) : ℕ → Driver → Option OpId → Driver
  | 0, d, _ => d
  | _, d, none => d
  | n + 1, d, some id =>
    let next := (d.ops.get id.key).bind Op.next
    cancelFrom stop cancelled n (d.cancelInner id stop cancelled).1 next

def cancelAll (d : Driver) (r : Resource) (stop : Bool) (cancelled : OpId → Result Unit) : Driver :=
  cancelFrom stop cancelled d.config.maxOperations d r.head

def beginClose (d : Driver) (h : Handle) (r : Resource) (token : Token) : Driver :=
  note { d with
    handles := d.handles.modify h.key fun r => { r with closing := some token }
    refs := d.refs + if r.kind.isTimer && r.referenced then 1 else 0 } (.closing h r.kind)

def close (d : Driver) (h : Handle) (token : Token) (prepared : Result Unit) (cancelled : OpId → Result Unit) :
    Driver × Result Unit :=
  match d.resource h with
  | .error e => (d, .error e)
  | .ok r =>
    if r.closing ≠ none then (d, .error (.new .invalidInput))
    else
      match (if r.kind = .file then .ok () else prepared) with
      | .error e => (d, .error e)
      | .ok () => (((d.beginClose h r token).cancelAll r false cancelled).maybeClosed h, .ok ())

/-- `signal_stop` and `fs_watch_stop` -/
def signalStop (d : Driver) (h : Handle) (token : Token) (prepared : Result Unit)
    (stopped cancelled : OpId → Result Unit) : Driver × Result Unit :=
  match d.resource h with
  | .error e => (d, .error e)
  | .ok r => (d.cancelAll r true stopped).close h token prepared cancelled

def detach (d : Driver) (h : Handle) (cancelled : OpId → Result Unit) (detached : Result Transport) :
    Driver × Result Transport :=
  match d.resource h with
  | .error e => (d, .error e)
  | .ok r =>
    if r.closing ≠ none ∨ r.kind ≠ .socket then (d, .error (.new .invalidInput))
    else
      let d := d.cancelAll r false cancelled
      match d.resource h with
      | .error e => (d, .error e)
      | .ok r =>
        if r.pending ≠ 0 ∨ d.queued.any (fun q => q.completion.handle = some h) then (d, .error (.new .wouldBlock))
        else
          match detached with
          | .error e => (d, .error e)
          | .ok transport =>
            let d := (d.freeHandle h).1
            (if r.referenced then d.subRefs 1 else d, .ok transport)

def attach (d : Driver) (attached : Handle → Result Unit) : Driver × Result Handle :=
  match d.newHandle .socket with
  | (d, .error e) => (d, .error e)
  | (d, .ok h) =>
    match attached h with
    | .error e => (d.removeSocket h, .error e)
    | .ok () => (d, .ok h)

/-- The loop that renews the promises to the multishot accepts; `multishot_armed` is fuel enough. -/
def refill : ℕ → Driver → Driver
  | 0, d => d
  | n + 1, d =>
    if d.multishotReserved < d.multishotArmed ∧ d.reservedHandles < d.handles.remaining then
      refill n { d with
        multishotReserved := d.multishotReserved + 1
        reservedHandles := d.reservedHandles + 1 }
    else d

/-- `attach` for a connection that an accept has already taken from the kernel -/
def house (d : Driver) (attached : Handle → Result Unit) : Driver × Result Handle :=
  (d.check ((d.newHandle .socket).2.isOk) .noRoom).attach attached

def attachReserved (d : Driver) (id : OpId) (attached : Handle → Result Unit) : Driver × Result Handle :=
  let op := d.ops.get id.key
  if op.any Op.multishot then
    let d := if d.multishotReserved ≠ 0 then d.subMultishotReserved else d
    let housed := d.house attached
    (refill housed.1.multishotArmed housed.1, housed.2)
  else
    let held := (op.map Op.reservedHandles).getD 0
    let d := { d with ops := d.ops.modify id.key fun op => { op with reservedHandles := 0 } }
    (d.subReserved held).house attached

def externalWait (d : Driver) (token : Token) (submitted : Result Unit) : Driver × Result OpId :=
  match d.admitPort with
  | .error e => (d, .error e)
  | .ok () =>
    match d.newOp none token with
    | (d, .error e) => (d, .error e)
    | (d, .ok id) =>
      let d := { d with ops := d.ops.modify id.key fun op => { op with externalWait := true } }
      let d := d.chargePort id
      match submitted with
      | .error e => (d.abandon id, .error e)
      | .ok () => (d.note (.accepted id), .ok id)

/-- `blocking`, `blocking_with` and a pool lookup -/
def submitJob (d : Driver) (token : Token) (submitted : Result Unit) : Driver × Result OpId :=
  match d.admitPort with
  | .error e => (d, .error e)
  | .ok () =>
    match d.newOp none token with
    | (d, .error e) => (d, .error e)
    | (d, .ok id) =>
      let d := d.chargePort id
      let d := { d with ops := d.ops.modify id.key fun op => { op with jobCancel := some false } }
      match submitted with
      | .error e => (d.abandon id, .error e)
      | .ok () => (d.note (.accepted id), .ok id)

def markNative (d : Driver) (id : OpId) : Driver :=
  { d with
    ops := d.ops.modify id.key fun op => { op with native := true }
    nativePending := d.nativePending + 1 }

def resolve (d : Driver) (token : Token) (resolved submitted : Result Unit) : Driver × Result OpId :=
  match d.newOp none token with
  | (d, .error e) => (d, .error e)
  | (d, .ok id) =>
    match resolved with
    | .ok () => ((d.markNative id).note (.accepted id), .ok id)
    | .error e =>
      let d := d.abandon id
      if e.kind = .unsupported then d.submitJob token submitted else (d, .error e)

/-- `fs` once its handle is known; `opened` is the hidden handle of a request that opens. -/
def submitFs (d : Driver) (opened handle : Option Handle) (token : Token) (submitted : Result Unit) :
    Driver × Result OpId :=
  let undo (d : Driver) : Driver := match opened with
    | none => d
    | some h => d.discardHidden h false
  match d.newOp handle token with
  | (d, .error e) => (undo d, .error e)
  | (d, .ok id) =>
    let d := { d with ops := d.ops.modify id.key fun op => { op with fs := true } }
    let d := if d.filesystem = .pool then d.chargePort id else d
    match submitted with
    | .error e => (undo (d.abandon id), .error e)
    | .ok () =>
      let counted := (d.ops.get id.key).any Op.native
      let d := if d.filesystem = .backend ∧ counted = false then d.markNative id else d
      (d.note (.accepted id), .ok id)

def fsTarget (d : Driver) (kind : Kind) : Option Handle → Result Unit
  | none => .ok ()
  | some h =>
    match d.resource h with
    | .error e => .error e
    | .ok r => if r.closing ≠ none ∨ r.kind ≠ kind then .error (.new .invalidInput) else .ok ()

def fs (d : Driver) (request : FsRequest) (token : Token) (submitted : Result Unit) : Driver × Result OpId :=
  if d.filesystem = .unsupported then (d, .error (.new .unsupported))
  else
    let kind := if d.filesystem = .pool then Kind.file else Kind.socket
    match (if d.filesystem = .pool then d.admitPort else .ok ()) with
    | .error e => (d, .error e)
    | .ok () =>
      match d.fsTarget kind request.handle with
      | .error e => (d, .error e)
      | .ok () =>
        if request.opens then
          match d.newHandle kind with
          | (d, .error e) => (d, .error e)
          | (d, .ok h) =>
            let d := { d with handles := d.handles.modify h.key fun r => { r with hidden := true } }
            d.submitFs (some h) (some h) token submitted
        else d.submitFs none request.handle token submitted

/-- `parked` is the answer of `external_park`. -/
def integration (d : Driver) (answer parked : Result Unit) : Driver × Result Unit :=
  match answer with
  | .error e => (d, .error e)
  | .ok () => ({ d with external := true }, parked)

end Driver

end Turnloop
