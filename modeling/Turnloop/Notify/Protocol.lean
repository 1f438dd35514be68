import Mathlib.Tactic

/-! The parking handshake of a loop's owner and any number of producers, one atomic step at a time. -/

namespace Turnloop.Notify

/-- The notifier's state word; `RUNNING` is the word with no bit set. -/
structure Bits where
  parked : Bool
  notified : Bool
  closed : Bool
  deriving DecidableEq

def Bits.RUNNING : Bits := ⟨false, false, false⟩

def Bits.PARKED : Bits := ⟨true, false, false⟩

def Bits.CLOSED : Bits := ⟨false, false, true⟩

/-- The word, the number of parks so far, and the native wakes: for each the park its `notify` had found
and the park it fell into. -/
structure Notifier where
  bits : Bits
  parks : ℕ
  wakes : List (ℕ × ℕ)

inductive Call where
  | bit
  | waking (park : ℕ)
  | rollback
  | ok
  | err
  deriving DecidableEq

/-- The next atomic step of `notify`; `woke` is the answer of `wake()`. -/
def Call.step (n : Notifier) (woke : Bool) : Call → Notifier × Call
  | .bit =>
    let n' := { n with bits := { n.bits with notified := true } }
    if n.bits.closed then (n', .err)
    else if n.bits.parked && !n.bits.notified then (n', .waking n.parks)
    else (n', .ok)
  | .waking park =>
    if woke then ({ n with wakes := (park, n.parks) :: n.wakes }, .ok) else (n, .rollback)
  | .rollback => ({ n with bits := { n.bits with notified := false } }, .err)
  | .ok => (n, .ok)
  | .err => (n, .err)

inductive Producer where
  | start
  | pushing
  | refused
  | notify (call : Call)
  deriving DecidableEq

/-- Where the owner stands in `turn`, `integration` or `drop`. -/
inductive Owner where
  | idle
  | begun (notified : Bool)
  | looked (mayWait : Bool)
  | blocked
  | polled
  | collecting
  | settling
  | parking (work : Bool)
  | notify (call : Call)
  | closing
  | closed
  deriving DecidableEq

/-- `marked` and `answered`: since the last `begin`, some producer's `notify` has set the bit, or returned Ok.
`owing`: some `notify` has returned Ok after a park that no native wake has followed. -/
structure Machine (P : Type) where
  notifier : Notifier
  closed : Bool
  posts : List P
  producers : P → Producer
  owner : Owner
  external : Bool
  marked : Bool
  answered : Bool
  parkedSinceBegin : Bool
  owing : Bool

inductive Kind where
  | post
  | notify

inductive Move where
  | turn
  | integration
  | drop
  | fail
  | look (otherWork : Bool)
  | skip
  | now
  | park
  | wait
  | running
  | finish
  | swap
  | notify (woke : Bool)
  deriving DecidableEq

inductive Action (P : Type) where
  | producer (p : P) (accepted woke : Bool)
  | owner (move : Move)
  | pop (p : P)

namespace Machine

variable {P : Type} [DecidableEq P]

def init (kind : P → Kind) : Machine P where
  notifier := ⟨.RUNNING, 0, []⟩
  closed := false
  posts := []
  producers p := match kind p with
    | .post => .start
    | .notify => .notify .bit
  owner := .idle
  external := false
  marked := false
  answered := false
  parkedSinceBegin := false
  owing := false

def woken (s : Machine P) : Bool := s.notifier.wakes.any (fun w => w.2 == s.notifier.parks)

def notified (s : Machine P) (p : P) (n : Notifier) (call call' : Call) : Machine P :=
  { s with
    notifier := n
    producers := Function.update s.producers p (.notify call')
    marked := s.marked || call == .bit
    answered := s.answered || (call' == .ok && call != .ok)
    owing := if call' == .ok && call != .ok then
        call == .bit && (s.owing || (s.parkedSinceBegin && !s.woken))
      else s.owing }

def producerStep (s : Machine P) (p : P) (accepted woke : Bool) : Machine P :=
  match s.producers p with
  | .start => { s with producers := Function.update s.producers p (if s.closed then .refused else .pushing) }
  | .pushing =>
    if accepted then
      { s with posts := p :: s.posts, producers := Function.update s.producers p (.notify .bit) }
    else { s with producers := Function.update s.producers p .refused }
  | .refused => s
  | .notify call => s.notified p (call.step s.notifier woke).1 call (call.step s.notifier woke).2

/-- `self.bits.swap(PARKED)` or the successful exchange in `park` -/
def parkNow (s : Machine P) : Machine P :=
  { s with
    notifier := { s.notifier with bits := .PARKED, parks := s.notifier.parks + 1 }
    parkedSinceBegin := true }

def ownerStep (s : Machine P) : Move → Machine P
  | .turn =>
    match s.owner with
    | .idle =>
      { s with
        notifier := { s.notifier with bits := .RUNNING }
        owner := .begun s.notifier.bits.notified
        marked := false
        answered := false
        parkedSinceBegin := false
        owing := false }
    | _ => s
  | .integration =>
    match s.owner with
    | .idle => { s with external := true, owner := .settling }
    | _ => s
  | .drop =>
    match s.owner with
    | .idle => { s with closed := true, owner := .closing }
    | .closing => { s with notifier := { s.notifier with bits := .CLOSED }, owner := .closed }
    | _ => s
  | .fail =>
    match s.owner with
    | .begun _ | .collecting => { s with owner := .idle }
    | _ => s
  | .look otherWork =>
    match s.owner with
    | .begun notified => { s with owner := .looked (!(notified || otherWork || !s.posts.isEmpty)) }
    | .settling => { s with owner := .parking (otherWork || !s.posts.isEmpty) }
    | _ => s
  | .skip =>
    match s.owner with
    | .looked _ => { s with owner := .collecting }
    | _ => s
  | .now =>
    match s.owner with
    | .looked _ => { s with owner := .polled }
    | _ => s
  | .park =>
    match s.owner with
    | .looked true =>
      if s.notifier.bits = .RUNNING then { s.parkNow with owner := .blocked } else { s with owner := .polled }
    | _ => s
  | .wait =>
    match s.owner with
    | .blocked => { s with owner := .polled }
    | _ => s
  | .running =>
    match s.owner with
    | .polled =>
      { s with
        notifier := { s.notifier with bits := { s.notifier.bits with parked := false } }
        owner := .collecting }
    | _ => s
  | .finish =>
    match s.owner with
    | .collecting => { s with owner := if s.external then .settling else .idle }
    | _ => s
  | .swap =>
    match s.owner with
    | .parking work =>
      { s.parkNow with owner := if work || s.notifier.bits.notified then .notify .bit else .idle }
    | _ => s
  | .notify woke =>
    match s.owner with
    | .notify call =>
      let r := call.step s.notifier woke
      { s with
        notifier := r.1
        owner := if r.2 = .ok ∨ r.2 = .err then .idle else .notify r.2
        owing := s.owing && !(call != .bit && r.2 == .ok) }
    | _ => s

def step (s : Machine P) : Action P → Machine P
  | .producer p accepted woke => s.producerStep p accepted woke
  | .owner move => s.ownerStep move
  | .pop p =>
    match s.owner with
    | .collecting => { s with posts := s.posts.erase p }
    | _ => s

def run (kind : P → Kind) (actions : List (Action P)) : Machine P := actions.foldl step (init kind)

def Waiting (s : Machine P) : Prop :=
  s.owner = .blocked ∨ (s.external = true ∧ s.owner = .idle ∧ s.notifier.bits.parked = true)

def HasPost (s : Machine P) : Prop := ∃ p ∈ s.posts, s.producers p = .notify .ok

end Machine

end Turnloop.Notify
