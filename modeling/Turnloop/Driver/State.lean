import Turnloop.Driver.Types

/-! The driver's tables, counters and completion queue, and the private steps every public call is made of. -/

namespace Turnloop

open Table (Key)
open Timer

inductive Kind where
  | socket
  | file
  | timer (op : Option OpId) (repeats : Option Duration)
  deriving DecidableEq

def Kind.isTimer : Kind → Bool
  | .timer .. => true
  | .socket | .file => false

structure Resource where
  kind : Kind
  hidden : Bool
  referenced : Bool
  pending : ℕ
  closing : Option Token
  closedQueued : Bool
  head : Option OpId
  tail : Option OpId
  deriving DecidableEq

structure Op where
  handle : Option Handle
  token : Token
  cancel : Bool
  timedOut : Bool
  stop : Bool
  externalWait : Bool
  fs : Bool
  reservedHandles : ℕ
  multishot : Bool
  native : Bool
  port : Bool
  jobCancel : Option Bool
  previous : Option OpId
  next : Option OpId
  deriving DecidableEq

def Resource.link (r : Resource) (id : OpId) : Resource :=
  { r with
    head := if r.head = none then some id else r.head
    tail := some id
    pending := r.pending + 1 }

def Resource.unlink (r : Resource) (id : OpId) (op : Op) : Resource :=
  { r with
    head := if r.head = some id then op.next else r.head
    tail := if r.tail = some id then op.previous else r.tail
    pending := r.pending - 1
    kind := match r.kind with
      | .timer _ repeats => .timer none repeats
      | kind => kind }

/-- `NATIVE_EVENTS`, `TIMER_EVENTS` and `POST_EVENTS` -/
inductive EventClass where
  | native
  | timer
  | post
  deriving DecidableEq

structure Queued where
  completion : Completion
  referenced : Bool
  eventClass : Option EventClass
  deriving DecidableEq

inductive Effect where
  | created (h : Handle)
  | accepted (id : OpId)
  | requested (id : OpId) (operation : Operation)
  | closing (h : Handle) (kind : Kind)
  | appended (c : Completion)
  | freed (h : Handle)
  | released (h : Handle)
  | fileReleased (h : Handle)
  | polled (timeout : Option Duration) (accepts : ℕ)
  deriving DecidableEq

inductive Fault where
  | underflow
  | classFull
  | queueFull
  | portFull
  | noRoom
  deriving DecidableEq

/-- `filesystem` is `B::FILESYSTEM`; `trace` and `faults` record what happened and are never read. -/
structure Driver where
  filesystem : Filesystem
  config : Config
  owner : ℕ
  external : Bool
  handles : Table Resource
  ops : Table Op
  timers : Heap
  connectDeadlines : Heap
  queued : List Queued
  completionCapacity : ℕ
  buffered : EventClass → ℕ
  events : List Event
  refs : ℕ
  outstanding : ℕ
  reservedHandles : ℕ
  multishotArmed : ℕ
  multishotReserved : ℕ
  nativePending : ℕ
  undelivered : ℕ
  trace : List Effect
  faults : List Fault

namespace Driver

def checkedUsize (n : ℕ) : Option ℕ := if n < 2 ^ 64 then some n else none

/-- `built` is the backend's constructor, `next` the process-wide `NEXT_OWNER`. -/
def new (filesystem : Filesystem) (config : Config) (built : Result Unit) (next : ℕ) : Result Driver :=
  if config.maxHandles = 0 ∨ 2 ^ 32 - 1 < config.maxHandles ∨ config.maxOperations = 0 ∨
      2 ^ 32 - 1 < config.maxOperations ∨ config.eventsPerTurn = 0 ∨ config.postCapacity = 0 ∨
      config.pooledBufferSize = 0 ∨ config.maxUndelivered = 0 then
    .error (.new .invalidInput)
  else
    match ((checkedUsize (config.eventsPerTurn * 3)).bind fun n => checkedUsize (n + config.maxOperations)).bind
        fun n => checkedUsize (n + config.maxHandles) with
    | none => .error (.new .invalidInput)
    | some completionCapacity =>
      match built with
      | .error e => .error e
      | .ok () =>
        match checkedUsize (next + 1) with
        | none => .error (.new .resourceLimit)
        | some _ => .ok {
            filesystem := filesystem
            config := config
            owner := next
            external := false
            handles := .new config.maxHandles
            ops := .new config.maxOperations
            timers := .new
            connectDeadlines := .new
            queued := []
            completionCapacity := completionCapacity
            buffered := fun _ => 0
            events := []
            refs := 0
            outstanding := 0
            reservedHandles := 0
            multishotArmed := 0
            multishotReserved := 0
            nativePending := 0
            undelivered := 0
            trace := []
            faults := [] }

def check (d : Driver) (ok : Prop) [Decidable ok] (fault : Fault) : Driver :=
  if ok then d else { d with faults := d.faults ++ [fault] }

def note (d : Driver) (e : Effect) : Driver := { d with trace := d.trace ++ [e] }

def subRefs (d : Driver) (n : ℕ) : Driver := { d.check (n ≤ d.refs) .underflow with refs := d.refs - n }

def subOutstanding (d : Driver) : Driver :=
  { d.check (1 ≤ d.outstanding) .underflow with outstanding := d.outstanding - 1 }

def subReserved (d : Driver) (n : ℕ) : Driver :=
  { d.check (n ≤ d.reservedHandles) .underflow with reservedHandles := d.reservedHandles - n }

def subMultishotReserved (d : Driver) : Driver :=
  let d := { d.check (1 ≤ d.multishotReserved) .underflow with multishotReserved := d.multishotReserved - 1 }
  d.subReserved 1

def resource (d : Driver) (h : Handle) : Result Resource :=
  if h.owner ≠ d.owner then .error (.new .notFound)
  else
    match d.handles.get h.key with
    | some r => if r.hidden then .error (.new .notFound) else .ok r
    | none => .error (.new .notFound)

def newHandle (d : Driver) (kind : Kind) : Driver × Result Handle :=
  if d.handles.remaining ≤ d.reservedHandles then (d, .error (.new .resourceLimit))
  else
    match d.handles.insert ⟨kind, false, true, 0, none, false, none, none⟩ with
    | (_, none) => (d, .error (.new .resourceLimit))
    | (handles, some key) =>
      let h : Handle := ⟨d.owner, key⟩
      (note { d with
          handles := handles
          refs := d.refs + if kind.isTimer then 0 else 1 } (.created h), .ok h)

def freeHandle (d : Driver) (h : Handle) : Driver × Option Resource :=
  match d.handles.remove h.key with
  | (_, none) => (d, none)
  | (handles, some r) => (note { d with handles := handles } (.freed h), some r)

def releaseBackend (d : Driver) (h : Handle) : Driver := d.note (.released h)

def releaseFile (d : Driver) (h : Handle) : Driver := d.note (.fileReleased h)

def newOp (d : Driver) (h : Option Handle) (token : Token) : Driver × Result OpId :=
  if d.outstanding = d.config.maxOperations then (d, .error (.new .resourceLimit))
  else
    let r := h.bind fun h => d.handles.get h.key
    let previous := r.bind Resource.tail
    let native := r.any fun r => r.kind = .socket
    match d.ops.insert ⟨h, token, false, false, false, false, false, 0, false, native, false, none, previous, none⟩ with
    | (_, none) => (d, .error (.new .resourceLimit))
    | (ops, some key) =>
      let id : OpId := ⟨d.owner, key⟩
      ({ d with
          ops := match previous with
            | none => ops
            | some p => ops.modify p.key fun op => { op with next := some id }
          handles := match h with
            | none => d.handles
            | some h => d.handles.modify h.key fun r => r.link id
          refs := d.refs + match h with
            | none => 1
            | some _ => if r.any Resource.referenced then 1 else 0
          nativePending := d.nativePending + if native then 1 else 0
          outstanding := d.outstanding + 1 }, .ok id)

def admitPort (d : Driver) : Result Unit :=
  if d.config.maxUndelivered ≤ d.undelivered then .error (.new .resourceLimit) else .ok ()

def chargePort (d : Driver) (id : OpId) : Driver :=
  let d := { d with
    ops := d.ops.modify id.key fun op => { op with port := true }
    undelivered := d.undelivered + 1 }
  d.check (d.undelivered ≤ d.config.maxUndelivered) .portFull

def retireMultishot (d : Driver) (op : Op) : Driver :=
  if op.multishot then
    let d := { d.check (1 ≤ d.multishotArmed) .underflow with multishotArmed := d.multishotArmed - 1 }
    if d.multishotArmed < d.multishotReserved then d.subMultishotReserved else d
  else d

def retireCounters (d : Driver) (op : Op) : Driver :=
  let d := if op.native then { d.check (1 ≤ d.nativePending) .underflow with nativePending := d.nativePending - 1 }
    else d
  if op.port then { d.check (1 ≤ d.undelivered) .underflow with undelivered := d.undelivered - 1 } else d

def relinkOps (d : Driver) (op : Op) : Driver :=
  let ops := match op.previous with
    | none => d.ops
    | some p => d.ops.modify p.key fun o => { o with next := op.next }
  let ops := match op.next with
    | none => ops
    | some n => ops.modify n.key fun o => { o with previous := op.previous }
  { d with ops := ops }

def retireHandle (d : Driver) (id : OpId) (op : Op) : Driver :=
  match op.handle with
  | none => d.subRefs 1
  | some h =>
    match d.handles.get h.key with
    | none => d
    | some r =>
      let d := { d.check (1 ≤ r.pending) .underflow with handles := d.handles.modify h.key fun r => r.unlink id op }
      if r.referenced then d.subRefs 1 else d

def retire (d : Driver) (id : OpId) : Driver × Option Op :=
  match d.ops.remove id.key with
  | (_, none) => (d, none)
  | (ops, some op) =>
    let d := { d with
      ops := ops
      connectDeadlines := (d.connectDeadlines.cancel id.key).1 }
    let d := d.subReserved op.reservedHandles
    let d := d.retireMultishot op
    let d := d.retireCounters op
    let d := d.relinkOps op
    (d.retireHandle id op, some op)

/-- A submission that is refused after `new_op` owes no completion. -/
def abandon (d : Driver) (id : OpId) : Driver := (d.retire id).1.subOutstanding

def eventClass (c : Completion) : Option EventClass :=
  match c.result with
  | .posted _ => some .post
  | .timer => if c.terminal then none else some .timer
  | _ => if c.terminal then none else some .native

def enqueue (d : Driver) (completion : Completion) (referenced : Bool) : Driver :=
  let d := match eventClass completion with
    | none => d
    | some c =>
      { d.check (d.buffered c < d.config.eventsPerTurn) .classFull with
        buffered := Function.update d.buffered c (d.buffered c + 1) }
  { d.check (d.queued.length < d.completionCapacity) .queueFull with
    refs := d.refs + if referenced then 1 else 0
    queued := d.queued ++ [⟨completion, referenced, eventClass completion⟩] }

def maybeClosed (d : Driver) (h : Handle) : Driver :=
  match d.handles.get h.key with
  | none => d
  | some r =>
    match r.closing with
    | none => d
    | some token =>
      if r.pending = 0 ∧ r.closedQueued = false then
        let d := { d with handles := d.handles.modify h.key fun r => { r with closedQueued := true } }
        d.enqueue ⟨token, none, some h, true, .closed⟩ false
      else d

def finish (d : Driver) (id : OpId) (result : OpResult) (terminal : Bool) : Driver :=
  match d.ops.get id.key with
  | none => d
  | some op =>
    let referenced := terminal && match op.handle with
      | none => true
      | some h => (d.handles.get h.key).any Resource.referenced
    let d := d.enqueue ⟨op.token, some id, op.handle, terminal, result⟩ referenced
    if terminal then
      let d := (d.retire id).1
      match op.handle with
      | none => d
      | some h => d.maybeClosed h
    else d

def alive (d : Driver) : Bool := d.refs ≠ 0

def nextDeadline (d : Driver) : Option Instant := earlier d.timers.nextDeadline d.connectDeadlines.nextDeadline

def discardHidden (d : Driver) (h : Handle) (native : Bool) : Driver :=
  match d.freeHandle h with
  | (d, none) => d -- `expect`: the hidden handle is live
  | (d, some r) =>
    let d := if r.referenced then d.subRefs 1 else d
    if native then (if r.kind = .file then d.releaseFile h else d.releaseBackend h) else d

def forgetHandle (d : Driver) : Driver :=
  match d.queued.getLast? with
  | none => d
  | some q =>
    { d with queued := d.queued.dropLast ++ [{ q with completion := { q.completion with handle := none } }] }

def finishFs (d : Driver) (id : OpId) (result : OpResult) : Driver :=
  match (d.ops.get id.key).bind Op.handle with
  | none => d.finish id result true
  | some h =>
    if (d.handles.get h.key).any Resource.hidden then
      match result with
      | .fs (.opened _) =>
        finish { d with handles := d.handles.modify h.key fun r => { r with hidden := false } } id result true
      | _ => ((d.finish id result true).forgetHandle).discardHidden h true
    else d.finish id result true

def budget (d : Driver) : ℕ := d.handles.remaining - (d.reservedHandles - d.multishotReserved)

end Driver

end Turnloop
