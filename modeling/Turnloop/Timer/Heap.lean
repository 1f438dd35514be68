import Turnloop.Table.Definitions

/-! The indexed four-ary timer heap. -/

namespace Turnloop

open Table (Key index)

abbrev Instant := ℕ

abbrev Duration := ℕ

def instantLimit : ℕ := 2 ^ 63 * 10 ^ 9

def checkedAdd (t : Instant) (d : Duration) : Option Instant := if t + d < instantLimit then some (t + d) else none

def earlier : Option Instant → Option Instant → Option Instant
  | some a, some b => some (min a b)
  | some a, none => some a
  | none, b => b

namespace Timer

structure Entry where
  due : Instant
  id : Key
  deriving DecidableEq

namespace Entry

def before (a b : Entry) : Bool := a.due < b.due || (a.due == b.due && a.id < b.id)

def notAfter (a b : Entry) : Bool := !b.before a

end Entry

/-- `positions` is where each armed slot stands in `heap`. -/
structure Heap where
  heap : List Entry
  positions : ℕ → Option ℕ

namespace Heap

def new : Heap := ⟨[], fun _ => none⟩

def nextDeadline (q : Heap) : Option Instant := q.heap.head?.map Entry.due

def place (q : Heap) (e : Entry) (p : ℕ) : Heap :=
  { q with positions := Function.update q.positions (index e.id) (some p) }

def swap (q : Heap) (a b : ℕ) : Heap :=
  match q.heap[a]?, q.heap[b]? with
  | some x, some y => ((⟨(q.heap.set a y).set b x, q.positions⟩ : Heap).place y a).place x b
  | _, _ => q

/-- The loop of `up`; `p` shrinks in each round, so it is fuel enough. -/
def upFrom : ℕ → Heap → ℕ → Heap
  | 0, q, _ => q
  | n + 1, q, p =>
    let parent := (p - 1) / 4
    match q.heap[parent]?, q.heap[p]? with
    | some x, some y => if p = 0 || x.notAfter y then q else upFrom n (q.swap p parent) parent
    | _, _ => q

def up (q : Heap) (p : ℕ) : Heap := upFrom p q p

/-- The first of the smallest children, from `best` on. -/
def smallest (heap : List Entry) (best : ℕ) : List ℕ → ℕ
  | [] => best
  | c :: rest =>
    match heap[c]?, heap[best]? with
    | some x, some y => smallest heap (if x.before y then c else best) rest
    | _, _ => smallest heap best rest

/-- The loop of `down`; `p` grows in each round, so the length is fuel enough. -/
def downFrom : ℕ → Heap → ℕ → Heap
  | 0, q, _ => q
  | n + 1, q, p =>
    let first := p * 4 + 1
    if q.heap.length ≤ first then q
    else
      let best := smallest q.heap first (List.range' (first + 1) (min (first + 4) q.heap.length - (first + 1)))
      match q.heap[p]?, q.heap[best]? with
      | some x, some y => if x.notAfter y then q else downFrom n (q.swap p best) best
      | _, _ => q

def down (q : Heap) (p : ℕ) : Heap := downFrom q.heap.length q p

/-- The slot has no timer yet (`assert!`). -/
def insert (q : Heap) (id : Key) (due : Instant) : Heap :=
  let e : Entry := ⟨due, id⟩
  ((⟨q.heap ++ [e], q.positions⟩ : Heap).place e q.heap.length).up q.heap.length

/-- `Vec::swap_remove` -/
def swapRemove (heap : List Entry) (p : ℕ) : List Entry :=
  match heap.getLast? with
  | none => heap
  | some e => (heap.set p e).dropLast

def cancel (q : Heap) (id : Key) : Heap × Bool :=
  match q.positions (index id) with
  | none => (q, false)
  | some p =>
    if (q.heap[p]?).map Entry.id ≠ some id then (q, false)
    else
      let q : Heap := ⟨swapRemove q.heap p, Function.update q.positions (index id) none⟩
      match q.heap[p]? with
      | none => (q, true)
      | some e =>
        let q := q.place e p
        match q.heap[(p - 1) / 4]? with
        | some parent => if p ≠ 0 && e.before parent then (q.up p, true) else (q.down p, true)
        | none => (q, true)

def popExpired (q : Heap) (now : Instant) : Heap × Option (Key × Instant) :=
  match q.heap.head? with
  | none => (q, none)
  | some e => if now < e.due then (q, none) else ((q.cancel e.id).1, some (e.id, e.due))

example : (((new.insert 3 20).insert 1 10).insert 2 10).nextDeadline = some 10 ∧
    ((((new.insert 3 20).insert 1 10).insert 2 10).popExpired 15).2 = some (1, 10) := by decide +kernel

end Heap

end Timer

end Turnloop
