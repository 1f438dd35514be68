import Mathlib.Data.UInt
import Turnloop.Driver.Run

/-! The bounds that hold over any run. -/

namespace Turnloop

open Lib
open List hiding after

namespace Books

variable {A : Leave} {b b' : Books} {id : OpId} {X : OpId → Prop}

lemma Calm.steps (hA : ¬A.crowd) (g : Balanced b) (m : Calm b) (steps : Steps A b b') : Calm b' := by
  have ha : Balanced b' ∧ Calm b' := by
    induction steps with
    | refl => exact ⟨g, m⟩
    | tail _ step ih => exact ⟨ih.1.step step, ih.2.step hA ih.1.exact_ ih.1.stamped ih.1.closing step⟩
  exact ha.2

lemma Calm.length_le (g : Balanced b) (m : Calm b) : b.queued.length ≤ b.completionCapacity := by
  have hq := queue_le g.exact_ g.stamped g.closing
  have hl := g.exact_.slots
  have hm : b.handles.countP (·.2.closedQueued = true) ≤ b.handles.card := Multiset.countP_le_card _ _
  have hn := m.reserve .native
  have ht := m.reserve .timer
  have hp := m.reserve .post
  have hc := m.capacity
  omega

/-- An operation keeps what its request was promised; those in `X` may have spent it. -/
structure Promised (X : OpId → Prop) (b : Books) : Prop where
  known : ∀ id operation, .requested id operation ∈ b.trace → .accepted id ∈ b.trace
  kept : ∀ id operation o, .requested id operation ∈ b.trace → (id, o) ∈ b.ops →
    o.multishot = operation.multishotAccept ∧ (¬X id → o.multishot = false → o.reservedHandles = operation.reserve)

def Retains (X : OpId → Prop) (b b' : Books) : Prop :=
  ∀ id o', (id, o') ∈ b'.ops → ∃ o, (id, o) ∈ b.ops ∧ o'.multishot = o.multishot ∧
    (¬X id → o'.reservedHandles = o.reservedHandles)

namespace Retains

lemma frame (ops : b'.ops = b.ops) : Retains X b b' := fun _ o' ho' => ⟨o', ops ▸ ho', rfl, fun _ => rfl⟩

lemma set (active : b.ops = (id, o) ::ₘ R) (ops : b'.ops = (id, o') ::ₘ R)
    (multishot : o'.multishot = o.multishot) (reserved : ¬X id → o'.reservedHandles = o.reservedHandles) :
    Retains X b b' := by
  intro _ o'' ho''
  rw [ops] at ho''
  rcases mem_replaced ho'' with ⟨rfl, rfl⟩ | ho''
  · exact ⟨o, mem_head active, multishot, reserved⟩
  · exact ⟨o'', mem_rest active ho'', rfl, fun _ => rfl⟩

lemma drop (active : b.ops = (id, o) ::ₘ R) (ops : b'.ops = R) :
    Retains X b b' := fun _ o' ho' => ⟨o', mem_rest active (ops ▸ ho'), rfl, fun _ => rfl⟩

lemma trans (r : Retains X b b') (r' : Retains X b' b'') : Retains X b b'' := by
  intro id o'' ho''
  obtain ⟨o', ho', hm', hr'⟩ := r' id o'' ho''
  obtain ⟨o, ho, hm, hr⟩ := r id o' ho'
  exact ⟨o, ho, hm'.trans hm, fun hX => (hr' hX).trans (hr hX)⟩

end Retains

lemma Step.retains (hX : ∀ id, A.take id → X id) (step : Step A b b') :
    (A.issues ∧ ∃ id o es, .accepted id ∉ b.trace ∧ Asks id o es ∧ b'.ops = (id, o) ::ₘ b.ops ∧
      b'.trace = b.trace ++ (es ++ [Effect.accepted id])) ∨
    Retains X b b' ∧ ∀ id operation, .requested id operation ∈ b'.trace → .requested id operation ∈ b.trace := by
  cases step with
  | issued es live on unclosed first ad ask leave => exact .inl ⟨leave, _, _, es, ad.unused, ask, rfl, rfl⟩
  | issuedLoose loose ad leave => exact .inl ⟨leave, _, _, [], ad.unused, by simp [Asks], rfl, rfl⟩
  | flagged cancel timedOut stop jobCancel active => exact .inr ⟨.set active rfl rfl fun _ => rfl, fun _ _ hr => hr⟩
  | took leave active => exact .inr ⟨.set active rfl rfl fun hn => absurd (hX _ leave) hn, fun _ _ hr => hr⟩
  | finished shown kind active | finishedLoose active => exact .inr ⟨.drop active rfl, fun _ _ hr => hr⟩
  | dropped remaining es live idle kept lets =>
    refine .inr ⟨.frame rfl, fun id operation hr => ?_⟩
    exact (mem_append.mp hr).resolve_right fun he => lets _ he
  | @drainedClosed q rest h r =>
    refine .inr ⟨.frame rfl, fun id operation hr => ?_⟩
    cases hk : r.kind <;> simpa [hk, Effect.release] using hr
  | tuned | pooled | refused | notified | posted | closeQueued | referenced => exact .inr ⟨.frame rfl, fun _ _ hr => hr⟩
  | opened | polled | closing | drained => exact .inr ⟨.frame rfl, fun _ _ hr => by simpa [shift] using hr⟩

lemma Steps.retains (issues : ¬A.issues) (hX : ∀ id, A.take id → X id) (steps : Steps A b b') : Retains X b b' := by
  induction steps with
  | refl => exact .frame rfl
  | tail _ step ih => exact ih.trans ((step.retains hX).resolve_left fun h => issues h.1).1

namespace Promised

lemma retained (p : Promised X b) (retains : Retains X b b') (trace : b.trace ⊆ b'.trace)
    (back : ∀ id operation, .requested id operation ∈ b'.trace → .requested id operation ∈ b.trace) :
    Promised X b' where
  known := fun id operation hr => trace (p.known id operation (back id operation hr))
  kept := by
    intro id operation o' hr ho'
    obtain ⟨o, ho, hm, he⟩ := retains id o' ho'
    obtain ⟨hu, hk⟩ := p.kept id operation o (back id operation hr) ho
    refine ⟨hm.trans hu, fun hX hi => ?_⟩
    rw [he hX]
    exact hk hX (hm.symm.trans hi)

lemma issued (p : Promised X b) (k : Kept b) (unused : .accepted id ∉ b.trace) (asks : Asks id o es)
    (ops : b'.ops = (id, o) ::ₘ b.ops) (trace : b'.trace = b.trace ++ (es ++ [Effect.accepted id])) :
    Promised X b' := by
  have hb : ∀ id' operation, .requested id' operation ∈ b'.trace → .requested id' operation ∈ b.trace ∨
    (id' = id ∧ o.multishot = operation.multishotAccept ∧
        (o.multishot = false → o.reservedHandles = operation.reserve)) := by
    intro id' operation hr
    simp only [trace, mem_append, mem_singleton, reduceCtorEq, or_false] at hr
    refine hr.imp_right fun he => ?_
    obtain ⟨_, hq, hp⟩ := asks _ he
    obtain ⟨rfl, rfl⟩ := Effect.requested.inj hq
    exact ⟨rfl, hp⟩
  constructor
  · intro id' operation hr
    rw [trace]
    rcases hb id' operation hr with hr | ⟨rfl, -⟩
    · exact mem_append_left _ (p.known id' operation hr)
    · simp
  · intro id' operation o' hr ho'
    rw [ops] at ho'
    rcases mem_replaced ho' with ⟨hi, rfl⟩ | ho'
    · rcases hb id' operation hr with hr | ⟨-, hp⟩
      · exact absurd (hi ▸ p.known id' operation hr) unused
      · exact ⟨hp.1, fun _ => hp.2⟩
    · rcases hb id' operation hr with hr | ⟨hi, -⟩
      · exact p.kept id' operation o' hr ho'
      · exact absurd (hi ▸ k.accepted id' o' ho') unused

lemma step (k : Kept b) (p : Promised X b) (hX : ∀ id, A.take id → X id) (step : Step A b b') : Promised X b' := by
  rcases step.retains hX with ⟨-, id, o, _, unused, asks, ops, trace⟩ | ⟨hr, hb⟩
  · exact p.issued k unused asks ops trace
  · exact p.retained hr step.since.trace_sub hb

lemma steps (g : Balanced b) (p : Promised X b) (hX : ∀ id, A.take id → X id) (steps : Steps A b b') :
    Promised X b' := by
  have ha : Balanced b' ∧ Promised X b' := by
    induction steps with
    | refl => exact ⟨g, p⟩
    | tail _ step ih => exact ⟨ih.1.step step, ih.2.step ih.1.kept hX step⟩
  exact ha.2

lemma weaken (p : Promised (fun _ => False) b) : Promised X b :=
  ⟨p.known, fun id operation o hr ho => (p.kept id operation o hr ho).imp_right fun hk _ => hk fun hf => hf⟩

lemma settle (p : Promised X b) (settled : ∀ id o, X id → (id, o) ∈ b.ops → o.multishot = true) :
    Promised (fun _ => False) b where
  known := p.known
  kept := by
    intro id operation o hr ho
    obtain ⟨hm, hk⟩ := p.kept id operation o hr ho
    refine ⟨hm, fun _ hi => hk (fun hX => ?_) hi⟩
    rw [settled id o hX ho] at hi
    cases hi

end Promised

end Books

namespace Driver

variable {A : Leave} {d d₀ : Driver} {e : Event} {id : OpId} {raw : Op} {filesystem : Filesystem} {config : Config}
  {built : Result Unit} {next : ℕ} {calls : List Call}

lemma maybeClosed_active (d : Driver) (h : Handle) : (d.maybeClosed h).active = d.active := by
  rw [maybeClosed]
  split
  · rfl
  · split
    · rfl
    · split
      · simp only [enqueue_eq]
        rfl
      · rfl

lemma finish_gone (g : d.Good) (mine : id.owner = d.owner) : (id, o) ∉ (d.finish id result true).active := by
  rw [finish]
  cases hr : d.ops.get id.key with
  | none =>
    intro ho
    obtain ⟨-, raw, hr', -⟩ := g.sound.mem_active.mp ho
    simp [hr] at hr'
  | some raw =>
    have he {R : Multiset (OpId × Op)} (hR : d.active = (id, raw.bare) ::ₘ R) : (id, o) ∉ R := by
      have hk : Keyed d.active := g.balanced.kept.ops
      rw [hR] at hk
      exact hk.absent o
    cases hh : raw.handle with
    | none =>
      obtain ⟨R, hR, hs⟩ := settle_loose g mine hr hh ⟨raw.token, some id, none, true, result⟩
      have hp : Driver.active _ = R := congrArg Books.ops hs.books
      simp only [Bool.true_and, if_true, hh, hp]
      exact he hR
    | some h =>
      obtain ⟨r, S, hS, hg⟩ := g.placed (g.sound.mem_active.mpr ⟨mine, raw, hr, rfl⟩) hh
      obtain ⟨-, ra, hw, hb⟩ := g.sound.mem_live.mp (mem_head hS)
      have hc : ra.referenced = r.referenced := by rw [← hb]; rfl
      obtain ⟨R, hR, hs⟩ := settle_on g mine hr hh hS hg ⟨raw.token, some id, some h, true, result⟩
      have hp : Driver.active _ = R := congrArg Books.ops hs.books
      simp only [Bool.true_and, if_true, hh, hw, Option.any_some, hc, maybeClosed_active, hp]
      exact he hR

def Answered (trace : List Effect) (e : Event) : Prop :=
  e.connection = true → ∃ operation, .requested e.op operation ∈ trace ∧ operation.reserve = 1 ∧
    (operation.multishotAccept = false → e.terminal = true)

def shot (d : Driver) (e : Event) : Bool := e.connection && (d.ops.get e.op.key).any Op.multishot

lemma answered_roomy (p : d.books.Promised fun _ => False) (s : d.Sound) (answered : Answered d.trace e)
    (mine : e.op.owner = d.owner) (conn : e.connection = true) (ha : d.ops.get e.op.key = some raw) :
    (raw.multishot = false → raw.reservedHandles = 1 ∧ e.terminal = true) ∧ d.shot e = raw.multishot := by
  obtain ⟨operation, hr, he, hi⟩ := answered conn
  have hc : (e.op, raw.bare) ∈ d.active := s.mem_active.mpr ⟨mine, raw, ha, rfl⟩
  obtain ⟨hm, hk⟩ := p.kept e.op operation raw.bare hr hc
  refine ⟨fun hs => ⟨(hk (fun hf => hf) hs).trans he, hi (hm.symm.trans hs)⟩, ?_⟩
  simp [shot, conn, ha]

lemma acceptEvent_promised (g : d.Good) (p : d.books.Promised fun _ => False) (answered : Answered d.trace e)
    (attached : Handle → Result Unit) :
    (acceptEvent attached d e).books.Promised (fun _ => False) ∧
      d.books.spare ≤ (acceptEvent attached d e).books.spare + (d.shot e).toNat := by
  rcases acceptEvent_cases g e attached with hq | ⟨raw, f, mine, hr, conn, ha, he⟩
  · have hb := (hq { Leave.none with notifies := True, crowd := True } fun _ => ⟨trivial, .inl trivial⟩).refines
    exact ⟨p.steps g.balanced (fun _ hf => hf) hb.steps,
      (Books.Steps.spare_le (fun hf => hf) (fun hf => hf) hb.steps).trans (Nat.le_add_right _ _)⟩
  · obtain ⟨hi, hh⟩ := answered_roomy p g.sound answered mine conn hr
    have hk : Refines .all d (d.attachReserved e.op attached).1 :=
      attachReserved_refines g mine hr trivial trivial (.inl trivial) attached
    rw [he]
    constructor
    · have hs : Reported { Leave.all with take := (· = e.op), issues := False } d _ e.terminal :=
        houses_reported g mine hr trivial rfl (.inl trivial) (fun _ => ⟨trivial, .inl trivial⟩) attached ha
      have hp := p.weaken.steps (X := (· = e.op)) g.balanced (fun _ hd => hd) hs.refines.steps
      refine hp.settle ?_
      rintro _ o rfl ho
      cases hm : raw.multishot with
      | false =>
        rw [houses, (hi hm).2] at ho
        exact absurd ho (finish_gone hk.good (mine.trans hk.owner.symm))
      | true =>
        have ht := Books.Steps.retains (X := (· = e.op)) (fun hf => hf) (fun _ hd => hd) hs.refines.steps
        obtain ⟨_, ho₀, hu, -⟩ := ht e.op o ho
        have hc : (e.op, raw.bare) ∈ d.active := g.sound.mem_active.mpr ⟨mine, raw, hr, rfl⟩
        obtain rfl := g.balanced.kept.ops.unique ho₀ hc
        exact hu.trans hm
    · have hn := attachReserved_spare g mine hr attached
      have hl : Reported { Leave.none with notifies := True, crowd := True } _ _ e.terminal :=
        housed_reported g mine hr attached rfl (fun _ => ⟨trivial, .inl trivial⟩) ha
      have hg := Books.Steps.spare_le (fun hf => hf) (fun hf => hf) hl.refines.steps
      rw [hh]
      cases hm : raw.multishot with
      | false =>
        rw [hm, (hi hm).1] at hn
        simp only [Bool.false_eq_true, if_false] at hn
        simp only [Bool.toNat_false]
        omega
      | true =>
        rw [hm] at hn
        simp only [if_true] at hn
        simp only [Bool.toNat_true]
        omega

lemma Answered.later {trace : List Effect} (answered : Answered trace e) (sub : trace ⊆ trace') :
    Answered trace' e := by
  intro hc
  obtain ⟨operation, hr, he⟩ := answered hc
  exact ⟨operation, sub hr, he⟩

lemma shot_of_refines (g : d.Good) (refines : Refines { Leave.all with issues := False } d d')
    (mine : e.op.owner = d.owner) (hh : d'.shot e = true) : d.shot e = true := by
  obtain ⟨hc, ha⟩ := Bool.and_eq_true_iff.mp hh
  obtain ⟨raw', hr', hm⟩ := (Option.any_eq_true _ _).mp ha
  have hb : (e.op, raw'.bare) ∈ d'.active :=
    refines.good.sound.mem_active.mpr ⟨mine.trans refines.owner.symm, raw', hr', rfl⟩
  have hr := Books.Steps.retains (X := fun _ => True) (fun hf => hf) (fun _ _ => trivial) refines.steps
  obtain ⟨o, ho, hu, -⟩ := hr e.op _ hb
  obtain ⟨-, raw, hd, rfl⟩ := g.sound.mem_active.mp ho
  have hraw_multishot : raw.multishot = true := hu.symm.trans hm
  simp [shot, hc, hd, hraw_multishot]

lemma acceptEvents_promised {events : List Event} (g : d.Good) (p : d.books.Promised fun _ => False)
    (answered : ∀ e ∈ events, Answered d.trace e) (attached : Handle → Result Unit) :
    (events.foldl (acceptEvent attached) d).books.Promised (fun _ => False) ∧ (events.countP d.shot ≤ d.budget →
        Refines { Leave.all with noRoom := False } d (events.foldl (acceptEvent attached) d)) := by
  induction events generalizing d with
  | nil => exact ⟨p, fun _ => .refl g⟩
  | cons e rest ih =>
    have he := answered e mem_cons_self
    have hc : e.connection = true → e.op.owner = d.owner := by
      intro hn
      obtain ⟨operation, hr, -⟩ := he hn
      exact (g.sound.accepted e.op (p.known e.op operation hr)).1
    obtain ⟨hp, hs⟩ := acceptEvent_promised g p he attached
    have ho : Reported { Leave.all with issues := False } d (acceptEvent attached d e) e.terminal :=
      acceptEvent_reported g ⟨fun _ => ⟨trivial, trivial⟩, .inl trivial, fun _ => ⟨trivial, .inl trivial⟩⟩ attached
    have hu : d.trace ⊆ (acceptEvent attached d e).trace := (Books.Steps.since ho.refines.steps).trace_sub
    obtain ⟨hd, hh⟩ := ih ho.refines.good hp fun e' he' =>
      (answered e' (mem_cons_of_mem _ he')).later hu
    refine ⟨hd, fun hb => ?_⟩
    rw [countP_cons, ite_toNat] at hb
    have ha : Allows { Leave.all with noRoom := False } d e := by
      refine ⟨fun _ => ⟨trivial, trivial⟩, .inr fun hn raw hf => ?_, fun _ => ⟨trivial, .inl trivial⟩⟩
      obtain ⟨hi, hg⟩ := answered_roomy p g.sound he (hc hn) hn hf
      rw [Roomy]
      cases hm : raw.multishot with
      | false => simp [(hi hm).1]
      | true =>
        rw [hg, hm, Bool.toNat_true] at hb
        simp only [if_true]
        omega
    refine (acceptEvent_reported g ha attached).refines.trans (hh ?_)
    have ht : rest.countP (shot (acceptEvent attached d e)) ≤ rest.countP d.shot := by
      refine countP_mono_left fun e' he' hg => ?_
      have hc' : e'.connection = true := (Bool.and_eq_true_iff.mp hg).1
      obtain ⟨operation, hr, -⟩ := answered e' (mem_cons_of_mem _ he') hc'
      exact shot_of_refines g ho.refines (g.sound.accepted e'.op (p.known e'.op operation hr)).1 hg
    change d.budget ≤ budget _ + _ at hs
    omega

def polling (d : Driver) (s : Surroundings) : Option Driver :=
  match s.validated, d.expireConnects s.start s.cancelledAtStart with
  | .ok _, (d, .ok _) => if d.Discovers s then some d else none
  | _, _ => none

def Faithful (d : Driver) : Call → Prop
  | .turn _ _ s => ∀ d₁, d.polling s = some d₁ → ∀ e ∈ s.events, Answered d₁.trace e
  | _ => True

def Along (P : Driver → Call → Prop) : Driver → List Call → Prop
  | _, [] => True
  | d, call :: rest => P d call ∧ Along P (d.exec call).1 rest

lemma turn_promised (g : d.Good) (p : d.books.Promised fun _ => False)
    (own : (Call.turn timeout capacity s).Local d.owner)
    (faithful : d.Faithful (.turn timeout capacity s)) :
    (d.turn timeout capacity s).1.books.Promised
    (fun _ => False) ∧ ((∀ d₁, d.polling s = some d₁ → s.events.countP d₁.shot ≤ d₁.budget) →
        Refines { Leave.all with noRoom := False } d (d.turn timeout capacity s).1) := by
  -- Outside the poll nothing takes a promise; the poll is the batch of its events.
  have hq {d₁ d₂ : Driver} {W : Prop} (h : Refines .all d d₁ ∧ d₁.books.Promised (fun _ => False) ∧
      (W → Refines { Leave.all with noRoom := False } d d₁)) (ho : ∀ A : Leave, A.notifies → A.crowd → A.delivers →
        Refines A d₁ d₂) : Refines .all d d₂ ∧ d₂.books.Promised (fun _ => False) ∧
      (W → Refines { Leave.all with noRoom := False } d d₂) := by
    obtain ⟨h₁, hp, hw⟩ := h
    have ha := ho { Leave.all with take := fun _ => False } trivial trivial trivial
    exact ⟨h₁.trans (ho .all trivial trivial trivial), hp.steps h₁.good.balanced (fun _ hf => hf) ha.steps,
      fun hi => (hw hi).trans (ho _ trivial trivial trivial)⟩
  refine (turn_rule (fun d' _ => Refines .all d d' ∧ d'.books.Promised (fun _ => False) ∧
    ((∀ d₁, d.polling s = some d₁ → s.events.countP d₁.shot ≤ d₁.budget) →
      Refines { Leave.all with noRoom := False } d d')) timeout capacity s ⟨.refl g, p, fun _ => .refl g⟩ ?_ ?_ ?_).2
  · exact fun d₁ now cancelled h => hq h fun A _ _ _ => expireConnects_refines h.1.good now cancelled
  · intro d₁ hv he h
    refine discover_rule _ h.1.good timeout (fun d₂ h₂ => hq h fun A _ _ _ => h₂ A) fun hc d₂ h₂ => ?_
    have hl : d.polling s = some d₁ := by simp [polling, hv, he, hc]
    obtain ⟨h₁, hp₂, hw₂⟩ := hq h fun A _ _ _ => h₂ A
    have hn : ∀ e ∈ s.events, Answered d₂.trace e := fun e hm =>
      (faithful d₁ hl e hm).later (Books.Steps.since (h₂ .none).steps).trace_sub
    obtain ⟨hd, hh⟩ := acceptEvents_promised h₁.good hp₂ hn s.attached
    refine ⟨h₁.trans (acceptEvents_refines h₁.good trivial (fun _ => trivial) trivial trivial (.inl trivial)
      s.attached), hd, fun hi => (hw₂ hi).trans (hh ?_)⟩
    have hb : d₁.budget ≤ d₂.budget := Books.Steps.spare_le (fun hf => hf) (fun hf => hf) (h₂ .none).steps
    refine le_trans (countP_mono_left fun e hm hs => ?_) ((hi d₁ hl).trans hb)
    obtain ⟨operation, hr, -⟩ := hn e hm (Bool.and_eq_true_iff.mp hs).1
    have hg := (h₁.good.sound.accepted e.op (hp₂.known e.op operation hr)).1
    exact shot_of_refines h.1.good (h₂ _) (hg.trans (h₂ .none).owner) hs
  · intro d₁ h
    have hg : ∀ work ∈ s.work, work.op.owner = d₁.owner := fun work hw => (own work hw).trans h.1.owner.symm
    exact hq h fun A no cr delivers =>
      collect_refines h.1.good (.inl cr) no delivers hg capacity

lemma exec_promised (g : d.Good) (p : d.books.Promised fun _ => False) (own : call.Local d.owner)
    (faithful : d.Faithful call) : (d.exec call).1.books.Promised fun _ => False := by
  by_cases hu : ∃ timeout capacity s, call = .turn timeout capacity s
  · obtain ⟨timeout, capacity, s, rfl⟩ := hu
    exact (turn_promised g p own faithful).1
  · have hq : Refines { Leave.all with take := fun _ => False } d (d.exec call).1 := by
      refine exec_refines g trivial trivial (fun _ => trivial) fun timeout capacity s hc => ?_
      exact absurd ⟨timeout, capacity, s, hc⟩ hu
    exact p.steps g.balanced (fun _ hf => hf) hq.steps

lemma run_promised (g : d.Good) (p : d.books.Promised fun _ => False) (own : ∀ call ∈ calls, call.Local d.owner)
    (faithful : Along Faithful d calls) : (d.run calls).books.Promised fun _ => False := by
  induction calls generalizing d with
  | nil => exact p
  | cons call rest ih =>
    have hc := own call mem_cons_self
    have ho := exec_all g hc
    exact ih ho.good (exec_promised g p hc faithful.1) (ho.local_rest own) faithful.2

lemma tally_reserved (d : Driver) :
    tally (·.2.reservedHandles) d.active = (d.ops.entries.map fun p => p.2.reservedHandles).sum := by
  simp [tally, active, Table.view, Op.bare, Function.comp_def]

lemma tally_multishot (d : Driver) : tally (·.2.multishot.toNat) d.active = d.ops.entries.countP (·.2.multishot) := by
  rw [active, Table.view, tally, Multiset.map_map, Multiset.map_coe, Multiset.sum_coe]
  induction d.ops.entries with
  | nil => rfl
  | cons p l ih =>
    rw [map_cons, sum_cons, ih, countP_cons, ite_toNat, Nat.add_comm]
    rfl

lemma Refines.count_noRoom (refines : Refines A d d') (noRoom : ¬A.noRoom) :
    d'.faults.count .noRoom = d.faults.count .noRoom := by
  obtain ⟨fs, ha, hl⟩ := (Books.Steps.since refines.steps).faults
  have hb : d'.faults = d.faults ++ fs := ha
  have hn : fs.count .noRoom = 0 := count_eq_zero.mpr fun hf => noRoom (hl _ hf)
  rw [hb, count_append, hn, Nat.add_zero]

theorem reservations_hold (hn : Driver.new filesystem config built next = .ok d₀)
    (own : ∀ call ∈ calls, call.Local next) :
    let d := d₀.run calls
    d.reservedHandles = (d.ops.entries.map fun p => p.2.reservedHandles).sum + d.multishotReserved ∧
    d.multishotReserved ≤ d.multishotArmed ∧
    d.multishotArmed = d.ops.entries.countP (·.2.multishot) ∧
    d.reservedHandles ≤ d.handles.remaining ∧
    .underflow ∉ d.faults ∧
    (Along Faithful d₀ calls → ∀ timeout capacity s, (Call.turn timeout capacity s).Local next →
      d.Faithful (.turn timeout capacity s) →
      (∀ d₁, d.polling s = some d₁ → s.events.countP d₁.shot ≤ d₁.budget) →
        (d.turn timeout capacity s).1.faults.count .noRoom = d.faults.count .noRoom) := by
  have hh := new_fresh hn
  have ho : ∀ call ∈ calls, call.Local d₀.owner := by rwa [hh.owner]
  have hr := run_refines hh.good ho
  have he := hr.good.balanced.exact_
  refine ⟨?_, he.pooled, ?_, he.room, hh.no_underflow hr, fun ha timeout capacity s hl hu hw => ?_⟩
  · rw [← tally_reserved]
    exact he.reserved
  · rw [← tally_multishot]
    exact he.armed
  · have hs : d₀.books.Promised fun _ => False := by
      constructor <;> simp [books, hh.trace]
    have hp := run_promised hh.good hs ho ha
    have hl' : (Call.turn timeout capacity s).Local (d₀.run calls).owner := by rwa [hr.owner, hh.owner]
    exact ((turn_promised hr.good hp hl' hu).2 hw).count_noRoom fun hf => hf

def acceptTwice : List Call :=
  [.openSocket (.ok ()), .submit ⟨1, 2 ^ 32⟩ (.accept true) 7 (.ok ()), .submit ⟨1, 2 ^ 32⟩ (.accept false) 8 (.ok ())]

def twoConnections : Surroundings :=
  { Surroundings.quiet with
    events := [⟨⟨1, 2 ^ 32⟩, false, .ok (.accepted 0 0)⟩, ⟨⟨1, 2 ^ 32 + 1⟩, true, .ok (.accepted 1 0)⟩] }

lemma twoConnections_polled (hn : Driver.new .pool ⟨4, 2, 2, 1, 1, 1⟩ (.ok ()) 1 = .ok d₀)
    (hp : (d₀.run acceptTwice).polling twoConnections = some d₁) :
    [Effect.requested ⟨1, 2 ^ 32⟩ (.accept true), .requested ⟨1, 2 ^ 32 + 1⟩ (.accept false)] ⊆ d₁.trace ∧
      twoConnections.events.countP d₁.shot ≤ d₁.budget := by
  have ha : ((Driver.new .pool ⟨4, 2, 2, 1, 1, 1⟩ (.ok ()) 1).toOption.bind fun d₀ =>
      (d₀.run acceptTwice).polling twoConnections).all (fun d₁ => decide (
        [Effect.requested ⟨1, 2 ^ 32⟩ (.accept true), .requested ⟨1, 2 ^ 32 + 1⟩ (.accept false)] ⊆ d₁.trace ∧
          twoConnections.events.countP d₁.shot ≤ d₁.budget)) = true := by decide +kernel
  simpa only [hn, Except.toOption, Option.bind_some, hp, Option.all_some, decide_eq_true_eq] using ha

theorem reservations_hold_accept :
    ∃ d₀, Driver.new .pool ⟨4, 2, 2, 1, 1, 1⟩ (.ok ()) 1 = .ok d₀ ∧ (d₀.run acceptTwice).reservedHandles = 2 ∧
    ((d₀.run acceptTwice).turn .now 4 twoConnections).1.faults.count .noRoom =
      (d₀.run acceptTwice).faults.count .noRoom := by
  have hl : ∀ call ∈ acceptTwice, call.Local 1 := by simp [acceptTwice, Call.Local]
  have hp {d₀ : Driver} (hn : Driver.new .pool ⟨4, 2, 2, 1, 1, 1⟩ (.ok ()) 1 = .ok d₀) := reservations_hold hn hl
  refine ⟨_, rfl, by decide +kernel, (hp rfl).2.2.2.2.2 ⟨trivial, trivial, trivial, trivial⟩ .now 4 twoConnections
    (by simp [Call.Local, twoConnections, Surroundings.quiet])
    (fun d₁ ho e he _ => ?_) (fun d₁ ho => (twoConnections_polled rfl ho).2)⟩
  have hr := (twoConnections_polled rfl ho).1
  simp only [twoConnections, mem_cons, not_mem_nil, or_false] at he
  rcases he with rfl | rfl
  · exact ⟨.accept true, hr (by simp), rfl, nofun⟩
  · exact ⟨.accept false, hr (by simp), rfl, fun _ => rfl⟩

def Bounded (n : ℕ) : Call → Prop
  | .turn _ _ s => s.events.length ≤ n
  | _ => True

lemma run_calm (g : d.Good) (calm : d.books.Calm) (own : ∀ call ∈ calls, call.Local d.owner)
    (bounded : ∀ call ∈ calls, Bounded d.config.eventsPerTurn call) :
    (d.run calls).Good ∧ (d.run calls).books.Calm := by
  have ha : Refines { Leave.all with crowd := False } d (d.run calls) := by
    refine run_rule (Refines { Leave.all with crowd := False } d) calls (.refl g) fun d' call hm h => ?_
    refine h.trans (exec_refines h.good trivial trivial (fun _ => trivial) ?_)
    rintro timeout capacity s rfl
    have hc := calm.steps (fun hf => hf) g.balanced h.steps
    have hg : d'.config = d.config := Books.Steps.config h.steps
    have hi : (Call.turn timeout capacity s).Local d'.owner := h.owner ▸ own _ hm
    have hb : s.events.length ≤ d'.config.eventsPerTurn := by
      rw [hg]
      exact bounded _ hm
    exact turn_refines h.good (.inr hc.reserve) trivial (fun _ => trivial) trivial trivial trivial
      hi (.inr hb)
  exact ⟨ha.good, calm.steps (fun hf => hf) g.balanced ha.steps⟩

lemma total_class (k : EventClass) (l : List Queued) :
    total (Books.ofClass k) l = l.countP (fun q => q.eventClass = some k) := by
  induction l with
  | nil => rfl
  | cons q l ih => rw [total_cons, ih, countP_cons, ite_toNat, Nat.add_comm, Books.ofClass]

theorem queue_bounded (hn : Driver.new filesystem config built next = .ok d₀) (own : ∀ call ∈ calls, call.Local next)
    (bounded : ∀ call ∈ calls, Bounded config.eventsPerTurn call) :
    let d := d₀.run calls
    d.completionCapacity = 3 * config.eventsPerTurn + config.maxOperations + config.maxHandles ∧
    d.queued.length ≤ d.completionCapacity ∧
    (∀ k, d.buffered k = d.queued.countP (fun q => q.eventClass = some k) ∧ d.buffered k ≤ config.eventsPerTurn) ∧
    .classFull ∉ d.faults ∧ .queueFull ∉ d.faults := by
  have hf := new_fresh hn
  have ho : ∀ call ∈ calls, call.Local d₀.owner := by rwa [hf.owner]
  have hb : ∀ call ∈ calls, Bounded d₀.config.eventsPerTurn call := by rwa [hf.config]
  have hc : (d₀.run calls).config = config :=
    (Books.Steps.config (run_refines hf.good ho).steps).trans hf.config
  obtain ⟨hg, ha⟩ := run_calm hf.good hf.calm ho hb
  have hp := ha.capacity
  have hr := ha.reserve
  simp only [books, hc] at hp hr
  refine ⟨hp, ha.length_le hg.balanced, fun k => ⟨?_, hr k⟩, ha.classes, ha.queue⟩
  rw [← total_class]
  exact hg.balanced.exact_.buffered k

def readOnward : List Call :=
  [.openSocket (.ok ()), .submit ⟨1, 2 ^ 32⟩ (.read true) 7 (.ok ()),
    .turn .now 0 { Surroundings.quiet with events := [⟨⟨1, 2 ^ 32⟩, false, .ok (.read 3 none)⟩] }]

theorem queue_bounded_read : ∃ d₀, Driver.new .pool .small (.ok ()) 1 = .ok d₀ ∧
    (d₀.run readOnward).queued.length = 1 ∧
      (d₀.run readOnward).queued.length ≤ (d₀.run readOnward).completionCapacity := by
  have hl : ∀ call ∈ readOnward, call.Local 1 := by simp [readOnward, Call.Local, Surroundings.quiet]
  have hb : ∀ call ∈ readOnward, Bounded 1 call := by simp [readOnward, Bounded]
  have hp {d₀ : Driver} (hn : Driver.new .pool .small (.ok ()) 1 = .ok d₀) := queue_bounded hn hl hb
  exact ⟨_, rfl, by decide +kernel, (hp rfl).2.1⟩

end Driver

end Turnloop
