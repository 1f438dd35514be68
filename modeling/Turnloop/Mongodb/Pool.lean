import Turnloop.Lib.Sweep
import Turnloop.Mongodb.Bson

/-! The connection pool of one server. -/

namespace Turnloop.Mongodb

open Lib

structure Lease where
  id : ℕ
  generation : ℕ
  deriving DecidableEq

inductive PoolEvent
  | connect (lease : Lease)
  | close (lease : Lease)
  | checkedOut (token : ℕ) (connection : Lease)
  | checkoutFailed (token : ℕ) (error : Error)
  | cleared (generation : ℕ)
  | closed

-- Instants and durations are counted in nanoseconds; a duration of zero switches its limit off.
structure PoolOptions where
  minSize : ℕ
  maxSize : ℕ
  maxConnecting : ℕ
  waitTimeout : ℕ
  maxIdle : ℕ

inductive Status
  | connecting | idle | out
  deriving DecidableEq

structure Entry where
  lease : Lease
  status : Status
  lastUsed : ℕ

structure Waiter where
  token : ℕ
  deadline : Option ℕ

structure Pool where
  options : PoolOptions
  entries : List Entry
  waiters : List Waiter
  events : List PoolEvent
  generation : ℕ
  nextId : ℕ
  isReady : Bool
  isClosed : Bool

namespace Pool

def new (options : PoolOptions) : Except Error Pool :=
  if options.maxConnecting = 0 ∨ (options.maxSize ≠ 0 ∧ options.minSize > options.maxSize) then
    .error (Error.new .invalidArgument "Invalid pool size")
  else .ok ⟨options, [], [], [], 0, 0, false, false⟩

variable (p : Pool)

def emit (events : List PoolEvent) : Pool := { p with events := p.events ++ events }

def withEntries (entries : List Entry) : Pool := { p with entries := entries }

def withWaiters (waiters : List Waiter) : Pool := { p with waiters := waiters }

def expired (now : ℕ) (e : Entry) : Bool :=
  e.status = .idle && p.options.maxIdle != 0 && decide (now ≥ e.lastUsed + p.options.maxIdle)

def closeSwept (gone : Entry → Bool) : Pool :=
  (p.withEntries (sweep gone p.entries 0).1).emit ((sweep gone p.entries 0).2.map fun e => .close e.lease)

def serve : List Waiter → Pool → Pool
  | [], p => p.withWaiters []
  | w :: rest, p =>
    match rposition (fun e : Entry => e.status = .idle) p.entries with
    | none => p.withWaiters (w :: rest)
    | some i =>
      match p.entries[i]? with
      | none => p.withWaiters (w :: rest)
      | some e =>
        serve rest ((p.withEntries (p.entries.set i { e with status := .out })).emit [.checkedOut w.token e.lease])

def connectingCount : ℕ := p.entries.countP fun e => e.status = .connecting

def wantsMore (connecting : ℕ) : Bool :=
  (decide (p.entries.length < p.options.minSize) || decide (connecting < p.waiters.length)) &&
    decide (connecting < p.options.maxConnecting) &&
    (p.options.maxSize = 0 || decide (p.entries.length < p.options.maxSize))

def nextLease : Lease := ⟨p.nextId + 1, p.generation⟩

def openOne (now : ℕ) : Pool :=
  ({ p with
    nextId := p.nextId + 1
    entries := p.entries ++ [⟨p.nextLease, .connecting, now⟩] } : Pool).emit [.connect p.nextLease]

def openMore (p : Pool) (now connecting : ℕ) : Pool :=
  if h : p.wantsMore connecting then openMore (p.openOne now) now (connecting + 1) else p
termination_by p.options.maxConnecting - connecting
decreasing_by
  have hmax : connecting < p.options.maxConnecting := by
    simp only [wantsMore, Bool.and_eq_true, decide_eq_true_eq] at h
    exact h.1.2
  simp only [openOne, emit]
  omega

def drive (now : ℕ) : Pool :=
  if !p.isReady || p.isClosed then p
  else
    let expiring := p.closeSwept (p.expired now)
    let served := serve expiring.waiters expiring
    served.openMore now served.connectingCount

def withReady : Pool := { p with isReady := true }

def ready (now : ℕ) : Pool := if p.isClosed then p else p.withReady.drive now

def notReady : Error := Error.new (if p.isClosed then .poolClosed else .poolCleared) "Connection pool is not ready"

def waitUntil (now : ℕ) : Option ℕ := if p.options.waitTimeout = 0 then none else some (now + p.options.waitTimeout)

def checkout (token now : ℕ) : Except Error Pool :=
  if p.waiters.any fun w => w.token = token then .error (Error.new .invalidArgument "Duplicate checkout token")
  else if p.isClosed || !p.isReady then .ok (p.emit [.checkoutFailed token p.notReady])
  else .ok ((p.withWaiters (p.waiters ++ [⟨token, p.waitUntil now⟩])).drive now)

def find (lease : Lease) (status : Status) : Option ℕ :=
  p.entries.findIdx? fun e => e.lease = lease && e.status = status

def rest (i now : ℕ) : Pool :=
  p.withEntries (p.entries.modify i fun e => { e with status := .idle, lastUsed := now })

def connected (lease : Lease) (now : ℕ) : Except Error Pool :=
  match p.find lease .connecting with
  | none => .error (Error.protocol "Unknown connecting pool connection")
  | some i => .ok ((p.rest i now).drive now)

def failWaiters (waiters : List Waiter) (error : Error) : Pool :=
  p.emit (waiters.map fun w => .checkoutFailed w.token error)

def outdate : Pool :=
  ({ p with generation := p.generation + 1, isReady := false } : Pool).emit [.cleared (p.generation + 1)]

def clear : Pool :=
  if p.isClosed then p
  else
    let emptied := p.outdate.closeSwept fun e => e.status ≠ .out
    (emptied.withWaiters []).failWaiters emptied.waiters (Error.new .poolCleared "Connection pool was cleared")

def drop (i : ℕ) (lease : Lease) : Pool := (p.withEntries (swapRemove p.entries i)).emit [.close lease]

def connectFailed (lease : Lease) (error : Error) : Except Error Pool :=
  match p.find lease .connecting with
  | none => .error (Error.protocol "Unknown connecting pool connection")
  | some i =>
    let dropped := p.drop i lease
    .ok ((dropped.withWaiters dropped.waiters.tail).failWaiters (dropped.waiters.take 1) error).clear

def checkin (lease : Lease) (now : ℕ) : Except Error Pool :=
  match p.find lease .out with
  | none => .error (Error.protocol "Unknown or already checked-in connection")
  | some i =>
    if p.isClosed || lease.generation ≠ p.generation then .ok ((p.drop i lease).drive now)
    else .ok ((p.rest i now).drive now)

def discard (lease : Lease) (now : ℕ) : Except Error Pool :=
  match p.find lease .out with
  | none => .error (Error.protocol "Unknown checked-out connection")
  | some i => .ok ((p.drop i lease).drive now)

def shut : Pool := ({ p with isClosed := true } : Pool).emit [.closed]

def close : Pool :=
  if p.isClosed then p
  else ((p.withWaiters []).failWaiters p.waiters (Error.new .poolClosed "Connection pool is closed")).clear.shut

def cancelCheckout (token : ℕ) : Pool × Bool :=
  match p.waiters.findIdx? fun w => w.token = token with
  | none => (p, false)
  | some i =>
    ((p.withWaiters (p.waiters.eraseIdx i)).emit
      [.checkoutFailed token (Error.new .cancelled "Connection checkout cancelled")], true)

def overdue (now : ℕ) (w : Waiter) : Bool := w.deadline.any (· ≤ now)

/-- The walk over the queue takes the waiters whose time is up out of it, in their order. -/
def handleTimeout (now : ℕ) : Pool :=
  ((p.withWaiters (p.waiters.filter fun w => !overdue now w)).failWaiters (p.waiters.filter (overdue now)) (Error.new
    .waitQueueTimeout "Timed out while checking out a connection from connection pool")).drive now

def nextTimeout : Option ℕ :=
  (p.waiters.filterMap Waiter.deadline ++ (p.entries.filter fun e => e.status = .idle && p.options.maxIdle != 0).map
      fun e => e.lastUsed + p.options.maxIdle).min?

def pollEvent : Pool × Option PoolEvent := ({ p with events := p.events.tail }, p.events.head?)

end Pool

inductive PoolCall
  | ready (now : ℕ)
  | checkout (token now : ℕ)
  | connected (lease : Lease) (now : ℕ)
  | connectFailed (lease : Lease) (error : Error)
  | checkin (lease : Lease) (now : ℕ)
  | discard (lease : Lease) (now : ℕ)
  | clear
  | close
  | cancelCheckout (token : ℕ)
  | handleTimeout (now : ℕ)
  | pollEvent

/-- A pool with what its host has seen of it: the checkouts it accepted and the events it was given. -/
structure PoolHistory where
  pool : Pool
  accepted : List ℕ
  polled : List PoolEvent

namespace PoolHistory

variable (h : PoolHistory)

def log : List PoolEvent := h.polled ++ h.pool.events

def result : Except Error Pool → PoolHistory
  | .ok p => { h with pool := p }
  | .error _ => h

def accept (token : ℕ) : Except Error Pool → PoolHistory
  | .ok p => { h with pool := p, accepted := h.accepted ++ [token] }
  | .error _ => h

def exec : PoolCall → PoolHistory
  | .ready now => { h with pool := h.pool.ready now }
  | .checkout token now => h.accept token (h.pool.checkout token now)
  | .connected lease now => h.result (h.pool.connected lease now)
  | .connectFailed lease error => h.result (h.pool.connectFailed lease error)
  | .checkin lease now => h.result (h.pool.checkin lease now)
  | .discard lease now => h.result (h.pool.discard lease now)
  | .clear => { h with pool := h.pool.clear }
  | .close => { h with pool := h.pool.close }
  | .cancelCheckout token => { h with pool := (h.pool.cancelCheckout token).1 }
  | .handleTimeout now => { h with pool := h.pool.handleTimeout now }
  | .pollEvent => { h with pool := h.pool.pollEvent.1, polled := h.polled ++ h.pool.pollEvent.2.toList }

def run (calls : List PoolCall) : PoolHistory := calls.foldl exec h

end PoolHistory

end Turnloop.Mongodb
