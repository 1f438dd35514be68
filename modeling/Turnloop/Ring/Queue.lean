import Mathlib.Tactic

/-! The bounded slot queue, one atomic step at a time. -/

namespace Turnloop.Ring

inductive Tag where
  | empty
  | producing
  | published
  | consuming
  deriving DecidableEq

structure Slot (T : Type) where
  state : Tag
  value : Option T

/-- `usize` arithmetic wraps here. -/
def word : ℕ := 2 ^ 64

/-- The shared memory of a queue of `2 ^ k` slots. -/
structure Queue (k : ℕ) (T : Type) where
  slots : Fin (2 ^ k) → Slot T
  enqueue : ℕ
  dequeue : ℕ
  occupied : ℕ

namespace Queue

variable {k : ℕ} {T : Type}

def new : Queue k T := ⟨fun _ => ⟨.empty, none⟩, 0, 0, 0⟩

def isEmpty (q : Queue k T) : Bool := q.occupied == 0

def setState (q : Queue k T) (i : Fin (2 ^ k)) (state : Tag) : Queue k T :=
  { q with slots := Function.update q.slots i { q.slots i with state := state } }

def setValue (q : Queue k T) (i : Fin (2 ^ k)) (value : Option T) : Queue k T :=
  { q with slots := Function.update q.slots i { q.slots i with value := value } }

end Queue

/-- `start.wrapping_add(offset) & (self.slots.len() - 1)` -/
def probed (k start offset : ℕ) : Fin (2 ^ k) :=
  ⟨(start + offset) % word &&& (2 ^ k - 1), Nat.and_lt_two_pow _ (by have := Nat.two_pow_pos k; omega)⟩

inductive Push (k : ℕ) (T : Type) where
  | start (value : T)
  | probe (value : T) (first offset : ℕ)
  | claimed (value : T) (i : Fin (2 ^ k))
  | counted (value : T) (i : Fin (2 ^ k))
  | written (i : Fin (2 ^ k))
  | ok
  | err (value : T)
  deriving DecidableEq

/-- Where a call of `pop` stands. A read of a slot that holds no value is undefined behaviour. -/
inductive Pop (k : ℕ) (T : Type) where
  | check
  | start
  | probe (first offset : ℕ)
  | claimed (i : Fin (2 ^ k))
  | taken (i : Fin (2 ^ k)) (value : T)
  | uncounted (i : Fin (2 ^ k)) (value : T)
  | done (result : Option T)
  | undefined
  deriving DecidableEq

section

variable {k : ℕ} {T : Type}

def Push.step (q : Queue k T) : Push k T → Queue k T × Push k T
  | .start v => ({ q with enqueue := (q.enqueue + 1) % word }, .probe v q.enqueue 0)
  | .probe v first offset =>
    let i := probed k first offset
    if (q.slots i).state = .empty then (q.setState i .producing, .claimed v i)
    else if offset + 1 < 2 ^ k then (q, .probe v first (offset + 1))
    else (q, .err v)
  | .claimed v i => ({ q with occupied := (q.occupied + 1) % word }, .counted v i)
  | .counted v i => (q.setValue i (some v), .written i)
  | .written i => (q.setState i .published, .ok)
  | .ok => (q, .ok)
  | .err v => (q, .err v)

def Pop.step (q : Queue k T) : Pop k T → Queue k T × Pop k T
  | .check => if q.isEmpty then (q, .done none) else (q, .start)
  | .start => ({ q with dequeue := (q.dequeue + 1) % word }, .probe q.dequeue 0)
  | .probe first offset =>
    let i := probed k first offset
    if (q.slots i).state = .published then (q.setState i .consuming, .claimed i)
    else if offset + 1 < 2 ^ k then (q, .probe first (offset + 1))
    else (q, .done none)
  | .claimed i =>
    match (q.slots i).value with
    | some v => (q.setValue i none, .taken i v)
    | none => (q, .undefined)
  | .taken i v => ({ q with occupied := (q.occupied + word - 1) % word }, .uncounted i v)
  | .uncounted i v => (q.setState i .empty, .done (some v))
  | .done r => (q, .done r)
  | .undefined => (q, .undefined)

end

/-- Any number of calls in flight: `P` names the calls of `push`, `C` those of `pop`. -/
structure Machine (k : ℕ) (P C T : Type) where
  queue : Queue k T
  pushes : P → Push k T
  pops : C → Pop k T

inductive Action (P C : Type) where
  | push (p : P)
  | pop (c : C)
  deriving DecidableEq

namespace Machine

variable {k : ℕ} {P C T : Type} [DecidableEq P] [DecidableEq C]

def init (arg : P → T) : Machine k P C T := ⟨.new, fun p => .start (arg p), fun _ => .check⟩

def step (m : Machine k P C T) : Action P C → Machine k P C T
  | .push p =>
    let r := (m.pushes p).step m.queue
    { m with queue := r.1, pushes := Function.update m.pushes p r.2 }
  | .pop c =>
    let r := (m.pops c).step m.queue
    { m with queue := r.1, pops := Function.update m.pops c r.2 }

def exec (m : Machine k P C T) (actions : List (Action P C)) : Machine k P C T := actions.foldl step m

def state (m : Machine k P C T) (i : Fin (2 ^ k)) : Tag := (m.queue.slots i).state

def value (m : Machine k P C T) (i : Fin (2 ^ k)) : Option T := (m.queue.slots i).value

end Machine

end Turnloop.Ring
