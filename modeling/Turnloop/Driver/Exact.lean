import Turnloop.Driver.Kept

/-! The counters say exactly what the tables and the queue hold. -/

namespace Turnloop

open Multiset

def Queued.final (q : Queued) : Bool := q.completion.terminal && q.completion.op.isSome

namespace Books

open Lib

variable {A : Leave} {b b' : Books} {h : Handle} {r : Resource} {S : Multiset (Handle × Resource)} {id : OpId} {o : Op}
  {R : Multiset (OpId × Op)}

def due (p : Handle × Resource) : ℕ := p.2.due

def loose (p : OpId × Op) : ℕ := p.2.handle.isNone.toNat

def ofClass (k : EventClass) (q : Queued) : ℕ := (decide (q.eventClass = some k)).toNat

structure Exact (b : Books) : Prop where
  refs : b.refs = tally due b.handles + tally loose b.ops + total (·.referenced.toNat) b.queued
  outstanding : b.outstanding = b.ops.card + total (·.final.toNat) b.queued
  outstanding_le : b.outstanding ≤ b.config.maxOperations
  reserved : b.reservedHandles = tally (·.2.reservedHandles) b.ops + b.multishotReserved
  armed : b.multishotArmed = tally (·.2.multishot.toNat) b.ops
  pooled : b.multishotReserved ≤ b.multishotArmed
  room : b.reservedHandles ≤ b.remaining
  native : b.nativePending = tally (·.2.native.toNat) b.ops
  undelivered : b.undelivered = tally (·.2.port.toNat) b.ops
  undelivered_le : b.undelivered ≤ b.config.maxUndelivered
  slots : b.remaining + b.handles.card ≤ b.config.maxHandles
  buffered : ∀ k, b.buffered k = total (ofClass k) b.queued

lemma push_buffered (b : Books) (c : Completion) (referenced : Bool) (k : EventClass) :
    (b.push c referenced).buffered k = b.buffered k + (decide (Driver.eventClass c = some k)).toNat := by
  unfold push
  cases hc : Driver.eventClass c with
  | none => simp
  | some k' =>
    by_cases hk : k' = k
    · subst hk
      simp
    · simp [hk, Ne.symm hk]

lemma shift_buffered (b : Books) (q : Queued) (rest : List Queued) (k : EventClass) :
    (b.shift q rest).buffered k = b.buffered k - ofClass k q := by
  unfold shift ofClass
  cases hq : q.eventClass with
  | none => simp
  | some k' =>
    by_cases hk : k' = k
    · subst hk
      simp
    · simp [hk, Ne.symm hk]

lemma due_fresh (kind : Kind) : due (h, ⟨kind, false, true, 0, none, false, none, none⟩) = (!kind.isTimer).toNat := by
  cases kind <;> simp [due, Resource.due, Resource.weight, Kind.isTimer]

lemma due_idle (idle : r.pending = 0) (kept : r.closing = none) :
    due (h, r) = (r.referenced && !r.kind.isTimer).toNat := by
  cases hr : r.referenced <;> cases hk : r.kind.isTimer <;> simp [due, Resource.due, Resource.weight, *]

lemma due_closing (idle : r.pending = 0) (closing : r.closing ≠ none) : due (h, r) = r.referenced.toNat := by
  have hc : r.closing.isSome = true := Option.isSome_iff_ne_none.mpr closing
  cases hr : r.referenced <;> simp [due, Resource.due, Resource.weight, *]

lemma due_issued : due (h, { r with pending := r.pending + 1 }) = due (h, r) + r.referenced.toNat := by
  cases hr : r.referenced <;> simp [due, Resource.due, Resource.weight, hr, Nat.add_right_comm]

lemma due_same {hidden : Bool} (same : r.kind.Same kind) :
    due (h, { r with kind := kind, hidden := hidden }) = due (h, r) := by
  simp [due, Resource.due, Resource.weight, Kind.isTimer_same same]

lemma due_finished (same : r.kind.Same kind) (pos : 0 < r.pending) :
    due (h, { r with pending := r.pending - 1, kind := kind }) + r.referenced.toNat = due (h, r) := by
  cases hr : r.referenced
  · simp [due, Resource.due, hr]
  · simp only [due, Resource.due, Resource.weight, hr, if_true, Kind.isTimer_same same, Bool.toNat_true]
    omega

lemma due_closes (token : Token) (first : r.closing = none) :
    due (h, { r with closing := some token }) = due (h, r) + (r.kind.isTimer && r.referenced).toNat := by
  cases hr : r.referenced <;> cases hk : r.kind.isTimer <;> simp [due, Resource.due, Resource.weight, *]

lemma restamp_completion (h : Handle) (referenced : Bool) (q : Queued) : (restamp h referenced q).completion =
    q.completion := by
  rw [restamp]
  split <;> rfl

lemma restamp_class (h : Handle) (referenced : Bool) (q : Queued) : (restamp h referenced q).eventClass =
    q.eventClass := by
  rw [restamp]
  split <;> rfl

lemma restamp_final (h : Handle) (referenced : Bool) (q : Queued) : (restamp h referenced q).final = q.final := by
  rw [Queued.final, restamp_completion, Queued.final]

lemma total_restamp (same : ∀ q, f (restamp h referenced q) = f q) :
    total f (l.map (restamp h referenced)) = total f l := by
  simp [total, Function.comp_def, same]

namespace Exact

variable {handles : Multiset (Handle × Resource)} {trace : List Effect} {refs : ℕ}

section

variable (e : Exact b)
include e

lemma issued (admits : b.Admits id o) (card : handles.card = b.handles.card)
    (due : refs = tally due handles + (loose (id, o) + tally loose b.ops) + total (·.referenced.toNat) b.queued) :
    Exact { b.enter id o with handles := handles, refs := refs, trace := trace } := by
  obtain ⟨-, _, -, _, _, hp, -, _, _, -, hl, hb⟩ := e
  constructor
  case refs => simpa only [enter, tally_cons] using due
  case outstanding =>
    simp only [enter, card_cons]
    omega
  case outstanding_le => exact admits.slot
  case reserved | armed | native | undelivered =>
    simp only [enter, tally_cons]
    omega
  case pooled => exact Nat.add_le_add_right hp _
  case room => exact admits.room
  case undelivered_le => exact admits.port
  case slots =>
    simp only [enter, card]
    exact hl
  case buffered => exact hb

lemma push_queued (c : Completion) (referenced : Bool) (k : EventClass) :
    (b.push c referenced).buffered k = total (ofClass k) (b.push c referenced).queued := by
  rw [push_buffered, e.buffered k]
  simp [push, ofClass]

lemma finished (active : b.ops = (id, o) ::ₘ R) (final : c.terminal = true) (named : c.op = some id)
    (card : handles.card = b.handles.card)
    (due : tally due handles + referenced.toNat = tally due b.handles + loose (id, o)) :
    Exact { (b.push c referenced).leave o R with handles := handles, refs := b.refs } := by
  have hq := e.push_queued c referenced
  obtain ⟨_, _, houtstanding_le, _, _, _, _, _, _, _, hl, -⟩ := e
  simp only [active, tally_cons, Multiset.card_cons] at *
  constructor
  case refs =>
    simp only [leave, push, total_append, total_cons, total_nil]
    omega
  case outstanding =>
    have hf : (⟨c, referenced, Driver.eventClass c⟩ : Queued).final = true := by simp [Queued.final, final, named]
    simp only [leave, push, total_append, total_cons, total_nil, hf, Bool.toNat_true]
    omega
  case outstanding_le => exact houtstanding_le
  case reserved | armed | pooled | room | native | undelivered | undelivered_le =>
    simp only [leave, push]
    omega
  case slots =>
    simp only [leave, push, card]
    exact hl
  case buffered => exact hq

lemma pushed (open_ : (⟨c, false, Driver.eventClass c⟩ : Queued).final = false) (card : handles.card = b.handles.card)
    (due : tally due handles = tally due b.handles) : Exact { b.push c false with handles := handles } := by
  have hr := e.refs
  have ho := e.outstanding
  refine { e with refs := ?_, outstanding := ?_, slots := card ▸ e.slots, buffered := e.push_queued c false }
  · simp only [push, total_append, total_cons, total_nil, due, Bool.toNat_false]
    omega
  · simp only [push, total_append, total_cons, total_nil, open_, Bool.toNat_false]
    omega

lemma rehandled {remaining : ℕ} (due : refs + tally due b.handles = b.refs + tally due handles)
    (slots : remaining + handles.card ≤ b.remaining + b.handles.card) (room : b.reservedHandles ≤ remaining) :
    Exact { b with handles := handles, remaining := remaining, refs := refs, trace := trace } := by
  have hr := e.refs
  have hl := e.slots
  exact { e with refs := by dsimp only; omega, room := room, slots := by dsimp only; omega }

lemma shift (oldest : b.queued = q :: rest) {remaining : ℕ}
    (due : refs + tally due b.handles + q.referenced.toNat = b.refs + tally due handles)
    (slots : remaining + handles.card ≤ b.remaining + b.handles.card) (room : b.reservedHandles ≤ remaining) :
    Exact { b.shift q rest with handles := handles, remaining := remaining, refs := refs, trace := trace } := by
  have hr := e.refs
  have ho := e.outstanding
  have hl := e.slots
  simp only [oldest, total_cons, Queued.final] at hr ho
  refine { e with
    refs := ?_, outstanding := ?_, outstanding_le := (Nat.sub_le _ _).trans e.outstanding_le, room := room, slots :=
      ?_, buffered := fun k => ?_ }
  · simp only [Books.shift]
    omega
  · simp only [Books.shift, Queued.final]
    omega
  · simp only [Books.shift]
    omega
  · have hb := shift_buffered b q rest k
    rw [e.buffered k, oldest, total_cons, Nat.add_sub_cancel_left] at hb
    exact hb

lemma retuned (active : b.ops = (id, o) ::ₘ R) {reserved : ℕ} (on : o'.handle = o.handle)
    (multishot : o'.multishot = o.multishot) (native : o'.native = o.native) (port : o'.port = o.port)
    (less : reserved + o.reservedHandles = b.reservedHandles + o'.reservedHandles) (le : reserved ≤ b.reservedHandles) :
    Exact { b with ops := (id, o') ::ₘ R, reservedHandles := reserved } := by
  obtain ⟨_, _, houtstanding_le, _, _, hp, hr, _, _, hundelivered_le, hl, hb⟩ := e
  simp only [active, tally_cons, card_cons, loose] at *
  refine ⟨?_, ?_, houtstanding_le, ?_, ?_, hp, le.trans hr, ?_, ?_, hundelivered_le, hl, hb⟩ <;>
    simp only [tally_cons, card_cons, loose, on, multishot, native, port] <;> omega

end

lemma step (k : Kept b) (e : Exact b) (step : Step A b b') : Exact b' := by
  have hr := e.refs
  cases step with
  | opened h kind unused un room =>
    refine e.rehandled ?_ ?_ (by omega)
    · rw [tally_cons, due_fresh]
      omega
    · rw [card_cons]
      omega
  | @dropped h r S remaining es live idle kept lets least most =>
    have hd : due (h, r) = _ := due_idle idle kept
    rw [live, tally_cons] at hr
    refine e.rehandled ?_ ?_ (e.room.trans least)
    · rw [live, tally_cons]
      omega
    · rw [live, card_cons]
      omega
  | tuned kind hidden live same =>
    refine e.rehandled ?_ ?_ e.room
    · rw [live, tally_cons, tally_cons, due_same same]
    · rw [live, card_cons, card_cons]
  | @issued h r S id o es live on unclosed first admits asks =>
    have hl : loose (id, o) = 0 := by simp [loose, on]
    refine e.issued admits ?_ ?_
    · rw [live, card_cons, card_cons]
    · rw [live, tally_cons] at hr
      rw [tally_cons, due_issued, hl]
      omega
  | @issuedLoose id o loose_ admits =>
    have hl : loose (id, o) = 1 := by simp [loose, loose_]
    refine e.issued admits rfl ?_
    rw [hl]
    simp only [enter]
    omega
  | flagged cancel timedOut stop jobCancel active => exact e.retuned active rfl rfl rfl rfl rfl le_rfl
  | @took id o R leave active =>
    have he : o.reservedHandles ≤ b.reservedHandles := by
      rw [e.reserved, active, tally_cons]
      dsimp only
      omega
    exact e.retuned active rfl rfl rfl rfl (Nat.sub_add_cancel he) (Nat.sub_le _ _)
  | pooled reservedHandles multishotReserved ev armed room =>
    have hs := e.reserved
    exact { e with reserved := by dsimp only; omega, pooled := armed, room := room }
  | refused | polled => exact { e with }
  | notified | posted => exact e.pushed (by simp [Queued.final]) rfl rfl
  | @finished h r S id o R result shown kind active live on ordinary introduces shows same un =>
    have hl : loose (id, o) = 0 := by simp [loose, on]
    have hp : 0 < r.pending := by
      rw [k.pending h r (mem_head live), countP_pos]
      exact ⟨(id, o), mem_head active, on⟩
    have hd := due_finished (h := h) same hp
    refine e.finished active rfl rfl ?_ ?_
    · rw [live, card_cons, card_cons]
    · rw [live, tally_cons, tally_cons, hl]
      omega
  | @finishedLoose id o R result active loose_ =>
    have hl : loose (id, o) = 1 := by simp [loose, loose_]
    refine e.finished active rfl rfl rfl ?_
    rw [hl]
    rfl
  | @closeQueued h r S token live =>
    refine e.pushed (by simp [Queued.final]) ?_ ?_
    · rw [live, card_cons, card_cons]
    · rw [live, tally_cons, tally_cons]
      rfl
  | @referenced h r S referenced live refs ev =>
    have ho := e.outstanding
    have hb := e.slots
    rw [live, tally_cons] at hr
    rw [live, card_cons] at hb
    refine { e with refs := ?_, outstanding := ?_, slots := ?_, buffered := fun k => ?_ }
    · simp only [tally_cons, due] at hr ⊢
      omega
    · rw [ho, total_restamp (fun q => by rw [restamp_final])]
    · rwa [card_cons]
    · rw [total_restamp (fun q => by rw [ofClass, ofClass, restamp_class])]
      exact e.buffered k
  | @closing h r S token live shown first =>
    refine e.rehandled ?_ ?_ e.room
    · rw [live, tally_cons, tally_cons, due_closes token first]
      omega
    · rw [live, card_cons, card_cons]
  | @drained q rest oldest open_ =>
    rw [oldest, total_cons] at hr
    have hd : b.refs - q.referenced.toNat + tally due b.handles + q.referenced.toNat =
      b.refs + tally due b.handles := by omega
    exact e.shift oldest hd le_rfl e.room
  | @drainedClosed q rest h r S remaining oldest closes live last least most =>
    obtain ⟨hc, hi⟩ := k.closed h r (mem_head live) last
    have hd : due (h, r) = _ := due_closing hi hc
    rw [oldest, total_cons, live, tally_cons] at hr
    refine e.shift oldest ?_ ?_ (e.room.trans least)
    · rw [live, tally_cons]
      omega
    · rw [live, card_cons]
      omega

end Exact

end Books

end Turnloop
