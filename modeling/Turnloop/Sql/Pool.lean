import Mathlib.Tactic

/-! The pool policy of the SQL clients; `mysql` tells which of the two a pool belongs to. -/

namespace Turnloop.Sql

-- Instants and durations are counted in nanoseconds.
structure Config where
  max : ℕ
  min : ℕ
  maxIdle : ℕ
  idleTimeout : Option ℕ
  waitForConnections : Bool
  queueLimit : Option ℕ
  maxUses : Option ℕ
  maxLifetime : Option ℕ

def Config.default (mysql : Bool) : Config where
  max := 10
  min := 0
  maxIdle := 10
  idleTimeout := some ((if mysql then 60 else 10) * 10 ^ 9)
  waitForConnections := true
  queueLimit := none
  maxUses := none
  maxLifetime := none

structure ConnectionId where
  slot : ℕ
  generation : ℕ
  deriving DecidableEq

structure Lease where
  connection : ConnectionId
  token : ℕ
  deriving DecidableEq

inductive PoolError
  | closed | queueLimit | noConnections | timeout | connectionFailed | invalidLease | duplicateToken | invalidConfig

inductive PoolEvent
  | connect (id : ConnectionId)
  | connected (id : ConnectionId)
  | acquired (lease : Lease)
  | checkoutFailed (token : ℕ) (error : PoolError)
  | released (id : ConnectionId)
  | close (id : ConnectionId)
  | removed (id : ConnectionId)
  | ended

structure Request where
  token : ℕ
  deadline : Option ℕ

def Request.due (r : Request) (now : ℕ) : Bool := r.deadline.any fun t => decide (t ≤ now)

def Request.fail (r : Request) (error : PoolError) : PoolEvent := .checkoutFailed r.token error

inductive SlotState
  | empty
  | connecting (r : Request)
  | busy (token : ℕ)
  | idle (since : ℕ)
  | closing

namespace SlotState

def isEmpty : SlotState → Bool
  | .empty => true
  | _ => false

def isIdle : SlotState → Bool
  | .idle _ => true
  | _ => false

def isLive : SlotState → Bool
  | .empty | .closing => false
  | _ => true

def holds (token : ℕ) : SlotState → Bool
  | .connecting r => r.token = token
  | .busy t => t = token
  | _ => false

end SlotState

-- Generations and uses are 64-bit counters that only ever grow by one; here they do not wrap.
structure Slot where
  generation : ℕ
  state : SlotState
  born : ℕ
  uses : ℕ

structure Pool where
  config : Config
  slots : List Slot
  idle : List ConnectionId
  waiting : List Request
  events : List PoolEvent
  ending : Bool
  ended : Bool

namespace Pool

def new (config : Config) : Except PoolError Pool :=
  if config.max = 0 ∨ config.min > config.max ∨ config.maxUses = some 0 then .error .invalidConfig
  else .ok ⟨config, [], [], [], [], false, false⟩

variable (p : Pool)

def emit (events : List PoolEvent) : Pool := { p with events := p.events ++ events }

def withWaiting (waiting : List Request) : Pool := { p with waiting := waiting }

def withIdle (idle : List ConnectionId) : Pool := { p with idle := idle }

def withSlot (i : ℕ) (s : Slot) : Pool := { p with slots := p.slots.set i s }

def nextEvent : Pool × Option PoolEvent := ({ p with events := p.events.tail }, p.events.head?)

def totalCount : ℕ := p.slots.countP fun s => !s.state.isEmpty

def liveCount : ℕ := p.slots.countP fun s => s.state.isLive

def slot (id : ConnectionId) : Except PoolError Slot :=
  match p.slots[id.slot]? with
  | none => .error .invalidLease
  | some s => if s.generation ≠ id.generation || s.state.isEmpty then .error .invalidLease else .ok s

def idAt (i : ℕ) (s : Slot) : ConnectionId := ⟨i, s.generation⟩

def close (id : ConnectionId) (s : Slot) : Pool :=
  ((p.withIdle (p.idle.filter (· ≠ id))).withSlot id.slot { s with state := .closing }).emit [.close id]

def vacant : ℕ := p.slots.findIdx fun s => s.state.isEmpty

def grown (now : ℕ) : List Slot := if p.vacant = p.slots.length then p.slots ++ [⟨0, .empty, now, 0⟩] else p.slots

def nextGeneration (now : ℕ) : ℕ := ((p.grown now)[p.vacant]?.elim 0 Slot.generation) + 1

def openSlot (r : Request) (now : ℕ) : Pool :=
  ({ p with slots := (p.grown now).set p.vacant ⟨p.nextGeneration now, .connecting r, now, 0⟩ } : Pool).emit
    [.connect ⟨p.vacant, p.nextGeneration now⟩]

def serve (r : Request) (id : ConnectionId) (s : Slot) : Pool :=
  ((p.withIdle p.idle.dropLast).withSlot id.slot { s with state := .busy r.token, uses := s.uses + 1 }).emit
    [.acquired ⟨id, r.token⟩]

def scheduleLoop (now : ℕ) : List Request → Pool → Pool
  | [], p => p.withWaiting []
  | r :: rest, p =>
    if r.due now then scheduleLoop now rest ((p.withWaiting rest).emit [r.fail .timeout])
    else match p.idle.getLast? with
      | some id =>
        match p.slots[id.slot]? with
        | some s => scheduleLoop now rest ((p.withWaiting rest).serve r id s)
        | none => p.withWaiting (r :: rest)
      | none =>
        if p.totalCount ≥ p.config.max then p.withWaiting (r :: rest)
        else scheduleLoop now rest ((p.withWaiting rest).openSlot r now)

def schedule (now : ℕ) : Pool := if p.ending then p else scheduleLoop now p.waiting p

def maybeEnded : Pool :=
  if p.ending && !p.ended && p.totalCount = 0 then ({ p with ended := true } : Pool).emit [.ended] else p

def knows (token : ℕ) : Bool :=
  p.waiting.any (fun r => r.token = token) || p.slots.any fun s => s.state.holds token

def queueFull : Bool := p.config.queueLimit.any fun max => max ≠ 0 && decide (p.waiting.length ≥ max)

def checkout (token now : ℕ) (deadline : Option ℕ) : Except PoolError Pool :=
  if p.ending then .error .closed
  else if p.knows token then .error .duplicateToken
  else if p.idle.isEmpty && decide (p.totalCount ≥ p.config.max) && !p.config.waitForConnections then
    .error .noConnections
  else if p.idle.isEmpty && decide (p.totalCount ≥ p.config.max) && p.queueFull then .error .queueLimit
  else .ok ((p.withWaiting (p.waiting ++ [⟨token, deadline⟩])).schedule now)

def visit (closes : Pool → Slot → Option (List PoolEvent)) (p : Pool) (i : ℕ) : Pool :=
  match p.slots[i]? with
  | none => p
  | some s =>
    match closes p s with
    | none => p
    | some told => (p.emit told).close (idAt i s) s

def visitAll (closes : Pool → Slot → Option (List PoolEvent)) : Pool :=
  (List.range p.slots.length).foldl (visit closes) p

def cancels (token : ℕ) (s : Slot) : Option (List PoolEvent) :=
  match s.state with
  | .connecting r => if r.token = token then some [] else none
  | _ => none

def unqueued (token : ℕ) : Pool :=
  match p.waiting.findIdx? fun r => r.token = token with
  | some i => p.withWaiting (p.waiting.eraseIdx i)
  | none => p

def cancelCheckout (token now : ℕ) : Pool :=
  ((p.unqueued token).visitAll fun _ => cancels token).schedule now

def connected (id : ConnectionId) (now : ℕ) : Except PoolError Pool :=
  match p.slot id with
  | .error e => .error e
  | .ok s =>
    match s.state with
    | .closing => .ok p
    | .connecting r =>
      if r.due now then .ok ((p.emit [r.fail .timeout]).close id s)
      else .ok ((p.withSlot id.slot { s with born := now, state := .busy r.token, uses := 1 }).emit
        [.connected id, .acquired ⟨id, r.token⟩])
    | _ => .error .invalidLease

def remove (id : ConnectionId) (s : Slot) (now : ℕ) (failed : List PoolEvent) : Pool :=
  (((p.withSlot id.slot { s with state := .empty }).emit (failed ++ [PoolEvent.removed id])).schedule now).maybeEnded

def connectFailed (id : ConnectionId) (now : ℕ) : Except PoolError Pool :=
  match p.slot id with
  | .error e => .error e
  | .ok s =>
    match s.state with
    | .connecting r => .ok (p.remove id s now [r.fail .connectionFailed])
    | .closing => .ok (p.remove id s now [])
    | _ => .error .invalidLease

def retires (s : Slot) (now : ℕ) (destroy : Bool) : Bool :=
  destroy || p.ending || p.config.maxUses.any (fun m => decide (s.uses ≥ m)) ||
    p.config.maxLifetime.any (fun d => d ≠ 0 && decide (now - s.born ≥ d)) ||
    (p.waiting.isEmpty && decide (p.idle.length ≥ p.config.maxIdle))

def rest (id : ConnectionId) (s : Slot) (now : ℕ) : Pool :=
  (p.withSlot id.slot { s with state := .idle now }).withIdle (p.idle ++ [id])

def checkin (lease : Lease) (now : ℕ) (destroy : Bool) : Except PoolError Pool :=
  match p.slot lease.connection with
  | .error e => .error e
  | .ok s =>
    match s.state with
    | .busy t =>
      if t ≠ lease.token then .error .invalidLease
      else
        let released := p.emit [.released lease.connection]
        if p.retires s now destroy then .ok ((released.close lease.connection s).schedule now)
        else .ok ((released.rest lease.connection s now).schedule now)
    | _ => .error .invalidLease

def closed (id : ConnectionId) (now : ℕ) : Except PoolError Pool :=
  match p.slot id with
  | .error e => .error e
  | .ok s =>
    match s.state with
    | .closing => .ok (p.remove id s now [])
    | _ => .error .invalidLease

def connectionError (id : ConnectionId) : Except PoolError Pool :=
  match p.slot id with
  | .error e => .error e
  | .ok s =>
    match s.state with
    | .closing => .ok p
    | .connecting r => .ok ((p.emit [r.fail .connectionFailed]).close id s)
    | _ => .ok (p.close id s)

def checkedAdd (horizon t d : ℕ) : Option ℕ := if t + d ≤ horizon then some (t + d) else none

def slotTimeout (horizon : ℕ) (s : Slot) : Option ℕ :=
  match s.state with
  | .connecting r => r.deadline
  | .idle since =>
    let idle := if p.liveCount > p.config.min then (p.config.idleTimeout.filter (· ≠ 0)).bind
      (checkedAdd horizon since) else none
    let lifetime := (p.config.maxLifetime.filter (· ≠ 0)).bind (checkedAdd horizon s.born)
    (idle.toList ++ lifetime.toList).min?
  | _ => none

def nextTimeout (horizon : ℕ) : Option ℕ :=
  (p.waiting.filterMap Request.deadline ++ p.slots.filterMap (p.slotTimeout horizon)).min?

def outlived (limit : Option ℕ) (start now : ℕ) : Bool := limit.any fun d => d ≠ 0 && decide (now - start ≥ d)

def expire (now : ℕ) : Pool :=
  (p.withWaiting (p.waiting.filter fun r => !r.due now)).emit
    ((p.waiting.filter fun r => r.due now).map fun r => r.fail .timeout)

def timesOut (now : ℕ) (p : Pool) (s : Slot) : Option (List PoolEvent) :=
  match s.state with
  | .connecting r => if r.due now then some [r.fail .timeout] else none
  | .idle since =>
    if (decide (p.liveCount > p.config.min) && outlived p.config.idleTimeout since now) ||
        outlived p.config.maxLifetime s.born now then some []
    else none
  | _ => none

def handleTimeout (now : ℕ) : Pool := ((p.expire now).visitAll (timesOut now)).schedule now

/-- At the end a connection is closed unless it is in use; those of `mysql` are closed even so. -/
def ends (mysql : Bool) (s : Slot) : Option (List PoolEvent) :=
  match s.state with
  | .connecting r => some [r.fail .closed]
  | .idle _ => some []
  | .busy _ => if mysql then some [] else none
  | _ => none

def dismissed : Pool :=
  ({ p with ending := true, waiting := [] } : Pool).emit (p.waiting.map fun r => r.fail .closed)

def end_ (mysql : Bool) : Except PoolError Pool :=
  if p.ending then .error .closed
  else .ok (p.dismissed.visitAll fun _ => ends mysql).maybeEnded

end Pool

end Turnloop.Sql
