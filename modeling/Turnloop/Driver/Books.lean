import Turnloop.Lib.Keyed
import Turnloop.Driver.Turn

/-! The books of a driver: live handles, active operations, queue and counters, and all that can happen to them. -/

namespace Turnloop

namespace Effect

def Lets (h : Handle) : Effect → Prop
  | .freed h' | .released h' | .fileReleased h' => h' = h
  | _ => False

def release (h : Handle) : Kind → List Effect
  | .socket => [.freed h, .released h]
  | .file => [.freed h, .fileReleased h]
  | .timer .. => [.freed h]

end Effect

def OpResult.Ordinary : OpResult → Prop
  | .closed | .posted _ => False
  | _ => True

def Resource.due (r : Resource) : ℕ := if r.referenced then r.weight else 0

namespace Kind

def Same : Kind → Kind → Prop
  | .timer .., .timer .. => True
  | a, b => a = b

lemma same_refl {kind : Kind} : kind.Same kind := by
  cases kind <;> simp [Same]

lemma same_symm {a d : Kind} (same : a.Same d) : d.Same a := by
  cases a <;> cases d <;> simp_all [Same]

lemma same_trans {a d e : Kind} (h₁ : a.Same d) (h₂ : d.Same e) : a.Same e := by
  cases a <;> cases d <;> cases e <;> simp_all [Same]

lemma isTimer_same {a d : Kind} (same : a.Same d) : d.isTimer = a.isTimer := by
  cases a <;> cases d <;> simp_all [Same, isTimer]

end Kind

structure Leave where
  take : OpId → Prop
  crowd : Prop
  noRoom : Prop
  opens : Prop
  issues : Prop
  closes : Prop
  notifies : Prop
  delivers : Prop

def Leave.all : Leave := ⟨fun _ => True, True, True, True, True, True, True, True⟩

def Leave.none : Leave := ⟨fun _ => False, False, False, False, False, False, False, False⟩

structure Books where
  config : Config
  completionCapacity : ℕ
  remaining : ℕ
  handles : Multiset (Handle × Resource)
  ops : Multiset (OpId × Op)
  queued : List Queued
  buffered : EventClass → ℕ
  refs : ℕ
  outstanding : ℕ
  reservedHandles : ℕ
  multishotArmed : ℕ
  multishotReserved : ℕ
  nativePending : ℕ
  undelivered : ℕ
  trace : List Effect
  faults : List Fault

namespace Books

open Lib

def appended : Effect → Option Completion
  | .appended c => some c
  | _ => none

def delivered (b : Books) : List Completion := b.trace.filterMap appended

def stream (b : Books) : List Completion := b.delivered ++ b.queued.map Queued.completion

/-- The assertions of `enqueue` that fail for `c`. -/
def crowded (b : Books) (c : Completion) : List Fault :=
  (match Driver.eventClass c with
    | none => []
    | some k => if b.buffered k < b.config.eventsPerTurn then [] else [.classFull]) ++
  if b.queued.length < b.completionCapacity then [] else [.queueFull]

def push (b : Books) (c : Completion) (referenced : Bool) : Books :=
  { b with
    buffered := match Driver.eventClass c with
      | none => b.buffered
      | some k => Function.update b.buffered k (b.buffered k + 1)
    refs := b.refs + referenced.toNat
    queued := b.queued ++ [⟨c, referenced, Driver.eventClass c⟩]
    faults := b.faults ++ b.crowded c }

def enter (b : Books) (id : OpId) (o : Op) : Books :=
  { b with
    ops := (id, o) ::ₘ b.ops
    outstanding := b.outstanding + 1
    reservedHandles := b.reservedHandles + o.reservedHandles + o.multishot.toNat
    multishotArmed := b.multishotArmed + o.multishot.toNat
    multishotReserved := b.multishotReserved + o.multishot.toNat
    nativePending := b.nativePending + o.native.toNat
    undelivered := b.undelivered + o.port.toNat }

def leave (b : Books) (o : Op) (R : Multiset (OpId × Op)) : Books :=
  let kept := min b.multishotReserved (b.multishotArmed - o.multishot.toNat)
  { b with
    ops := R
    reservedHandles := b.reservedHandles - o.reservedHandles - (b.multishotReserved - kept)
    multishotArmed := b.multishotArmed - o.multishot.toNat
    multishotReserved := kept
    nativePending := b.nativePending - o.native.toNat
    undelivered := b.undelivered - o.port.toNat }

structure Admits (b : Books) (id : OpId) (o : Op) : Prop where
  unused : .accepted id ∉ b.trace
  slot : b.outstanding < b.config.maxOperations
  room : b.reservedHandles + o.reservedHandles + o.multishot.toNat ≤ b.remaining
  port : b.undelivered + o.port.toNat ≤ b.config.maxUndelivered
  pooled : o.multishot = true → o.reservedHandles = 0

def Asks (id : OpId) (o : Op) (es : List Effect) : Prop :=
  ∀ e ∈ es, ∃ operation, e = .requested id operation ∧ o.multishot = operation.multishotAccept ∧
    (o.multishot = false → o.reservedHandles = operation.reserve)

def Introduces (b : Books) (result : OpResult) : Prop :=
  ∀ h, result.handle = some h → ∃ r, (h, r) ∈ b.handles ∧ r.closedQueued = false

def restamp (h : Handle) (referenced : Bool) (q : Queued) : Queued :=
  if q.completion.handle = some h ∧ q.completion.terminal = true ∧ q.completion.op.isSome = true then
    { q with referenced := referenced }
  else q

def shift (b : Books) (q : Queued) (rest : List Queued) : Books :=
  { b with
    queued := rest
    refs := b.refs - q.referenced.toNat
    buffered := match q.eventClass with
      | none => b.buffered
      | some k => Function.update b.buffered k (b.buffered k - 1)
    outstanding := b.outstanding - (q.completion.terminal && q.completion.op.isSome).toNat
    trace := b.trace ++ [Effect.appended q.completion] }

inductive Step (A : Leave) : Books → Books → Prop
  | opened {b : Books} (h : Handle) (kind : Kind) (unused : .created h ∉ b.trace)
      (unarmed : ∀ op repeats, kind ≠ .timer (some op) repeats) (room : b.reservedHandles < b.remaining)
      (leave : A.opens) :
      Step A b { b with
        handles := (h, ⟨kind, false, true, 0, none, false, none, none⟩) ::ₘ b.handles
        remaining := b.remaining - 1
        refs := b.refs + (!kind.isTimer).toNat
        trace := b.trace ++ [Effect.created h] }
  | dropped {b : Books} {h : Handle} {r : Resource} {S : Multiset (Handle × Resource)} (remaining : ℕ)
      (es : List Effect) (live : b.handles = (h, r) ::ₘ S) (idle : r.pending = 0) (kept : r.closing = none)
      (lets : ∀ e ∈ es, e.Lets h) (least : b.remaining ≤ remaining) (most : remaining ≤ b.remaining + 1) :
      Step A b { b with
        handles := S
        remaining := remaining
        refs := b.refs - (r.referenced && !r.kind.isTimer).toNat
        trace := b.trace ++ es }
  | tuned {b : Books} {h : Handle} {r : Resource} {S : Multiset (Handle × Resource)} (kind : Kind) (hidden : Bool)
      (live : b.handles = (h, r) ::ₘ S) (same : r.kind.Same kind)
      (owned : ∀ op repeats, kind = .timer (some op) repeats → op.owner = h.owner)
      (idle : hidden = true → r.pending = 0 ∧ r.closing = none ∧ r.kind.isTimer = false) :
      Step A b { b with handles := (h, { r with kind := kind, hidden := hidden }) ::ₘ S }
  | issued {b : Books} {h : Handle} {r : Resource} {S : Multiset (Handle × Resource)} {id : OpId} {o : Op}
      (es : List Effect) (live : b.handles = (h, r) ::ₘ S) (on : o.handle = some h) (unclosed : r.closing = none)
      (first : r.hidden = true → r.pending = 0) (admits : b.Admits id o) (asks : Asks id o es)
      (leave : A.issues) :
      Step A b { b.enter id o with
        handles := (h, { r with pending := r.pending + 1 }) ::ₘ S
        refs := b.refs + r.referenced.toNat
        trace := b.trace ++ (es ++ [Effect.accepted id]) }
  | issuedLoose {b : Books} {id : OpId} {o : Op} (loose : o.handle = none) (admits : b.Admits id o)
      (leave : A.issues) :
      Step A b { b.enter id o with
        refs := b.refs + 1
        trace := b.trace ++ [Effect.accepted id] }
  | flagged {b : Books} {id : OpId} {o : Op} {R : Multiset (OpId × Op)} (cancel timedOut stop : Bool)
      (jobCancel : Option Bool) (active : b.ops = (id, o) ::ₘ R) :
      Step A b { b with
        ops := (id, { o with cancel := cancel, timedOut := timedOut, stop := stop, jobCancel := jobCancel }) ::ₘ R }
  | took {b : Books} {id : OpId} {o : Op} {R : Multiset (OpId × Op)} (leave : A.take id)
      (active : b.ops = (id, o) ::ₘ R) :
      Step A b { b with
        ops := (id, { o with reservedHandles := 0 }) ::ₘ R
        reservedHandles := b.reservedHandles - o.reservedHandles }
  | pooled {b : Books} (reservedHandles multishotReserved : ℕ)
      (even : reservedHandles + b.multishotReserved = b.reservedHandles + multishotReserved)
      (armed : multishotReserved ≤ b.multishotArmed) (room : reservedHandles ≤ b.remaining) :
      Step A b { b with
        reservedHandles := reservedHandles
        multishotReserved := multishotReserved }
  | refused {b : Books} (leave : A.noRoom) : Step A b { b with faults := b.faults ++ [Fault.noRoom] }
  | polled {b : Books} (timeout : Option Duration) (accepts : ℕ) :
      Step A b { b with trace := b.trace ++ [Effect.polled timeout accepts] }
  | notified {b : Books} {id : OpId} {o : Op} {result : OpResult} (active : (id, o) ∈ b.ops)
      (ordinary : result.Ordinary) (introduces : b.Introduces result)
      (room : ∀ k, Driver.eventClass ⟨o.token, some id, o.handle, false, result⟩ = some k →
        A.crowd ∨ b.buffered k < b.config.eventsPerTurn) (leave : A.notifies) :
      Step A b (b.push ⟨o.token, some id, o.handle, false, result⟩ false)
  | posted {b : Books} (p : Post) (room : A.crowd ∨ b.buffered .post < b.config.eventsPerTurn)
      (leave : A.notifies) :
      Step A b (b.push ⟨p.token, none, none, true, .posted p.payload⟩ false)
  | finished {b : Books} {h : Handle} {r : Resource} {S : Multiset (Handle × Resource)} {id : OpId} {o : Op}
      {R : Multiset (OpId × Op)} {result : OpResult} (shown : Option Handle) (kind : Kind)
      (active : b.ops = (id, o) ::ₘ R) (live : b.handles = (h, r) ::ₘ S) (on : o.handle = some h)
      (ordinary : result.Ordinary) (introduces : b.Introduces result) (shows : shown = some h ∨ shown = none)
      (same : r.kind.Same kind) (unarmed : ∀ op repeats, kind ≠ .timer (some op) repeats) :
      Step A b { (b.push ⟨o.token, some id, shown, true, result⟩ r.referenced).leave o R with
        handles := (h, { r with pending := r.pending - 1, kind := kind }) ::ₘ S
        refs := b.refs }
  | finishedLoose {b : Books} {id : OpId} {o : Op} {R : Multiset (OpId × Op)} {result : OpResult}
      (active : b.ops = (id, o) ::ₘ R) (loose : o.handle = none) (ordinary : result.Ordinary)
      (introduces : b.Introduces result) :
      Step A b { (b.push ⟨o.token, some id, none, true, result⟩ true).leave o R with refs := b.refs }
  | closeQueued {b : Books} {h : Handle} {r : Resource} {S : Multiset (Handle × Resource)} {token : Token}
      (live : b.handles = (h, r) ::ₘ S) (closing : r.closing = some token) (idle : r.pending = 0)
      (first : r.closedQueued = false) :
      Step A b ({ b with handles := (h, { r with closedQueued := true }) ::ₘ S }.push
        ⟨token, none, some h, true, .closed⟩ false)
  | referenced {b : Books} {h : Handle} {r : Resource} {S : Multiset (Handle × Resource)} (referenced : Bool)
      (live : b.handles = (h, r) ::ₘ S) (refs : ℕ)
      (even : refs + (r.due + total (·.referenced.toNat) b.queued) =
        b.refs + (({ r with referenced := referenced } : Resource).due +
          total (·.referenced.toNat) (b.queued.map (restamp h referenced)))) :
      Step A b { b with
        handles := (h, { r with referenced := referenced }) ::ₘ S
        queued := b.queued.map (restamp h referenced)
        refs := refs }
  | closing {b : Books} {h : Handle} {r : Resource} {S : Multiset (Handle × Resource)} (token : Token)
      (live : b.handles = (h, r) ::ₘ S) (shown : r.hidden = false) (first : r.closing = none)
      (leave : A.closes) :
      Step A b { b with
        handles := (h, { r with closing := some token }) ::ₘ S
        refs := b.refs + (r.kind.isTimer && r.referenced).toNat
        trace := b.trace ++ [Effect.closing h r.kind] }
  | drained {b : Books} {q : Queued} {rest : List Queued} (oldest : b.queued = q :: rest)
      (open_ : q.completion.result ≠ .closed) (leave : A.delivers) :
      Step A b (b.shift q rest)
  | drainedClosed {b : Books} {q : Queued} {rest : List Queued} {h : Handle} {r : Resource}
      {S : Multiset (Handle × Resource)} (remaining : ℕ) (oldest : b.queued = q :: rest)
      (closes : q.completion.closes h) (live : b.handles = (h, r) ::ₘ S) (last : r.closedQueued = true)
      (least : b.remaining ≤ remaining) (most : remaining ≤ b.remaining + 1) (leave : A.delivers) :
      Step A b { b.shift q rest with
        handles := S
        remaining := remaining
        refs := b.refs - q.referenced.toNat - r.referenced.toNat
        trace := b.trace ++ (Effect.appended q.completion :: Effect.release h r.kind) }

abbrev Steps (A : Leave) : Books → Books → Prop := Relation.ReflTransGen (Step A)

end Books

end Turnloop
