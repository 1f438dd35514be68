import Turnloop.Driver.Spawn

/-! The calls that change, cancel, close and detach what is there. -/

namespace Turnloop

open Lib List Multiset Bool

namespace Books

variable {A : Leave} {b b' : Books} {h : Handle} {referenced : Bool}

def stale (h : Handle) (referenced : Bool) (q : Queued) : Bool :=
  q.completion.handle = some h && q.completion.terminal && q.completion.op.isSome && q.referenced != referenced

lemma restamp_stale {h : Handle} {referenced : Bool} {q : Queued} :
    (if stale h referenced q = true then { q with referenced := referenced } else q) = restamp h referenced q := by
  rw [restamp]
  by_cases hq : q.completion.handle = some h ∧ q.completion.terminal = true ∧ q.completion.op.isSome = true
  · rw [if_pos hq]
    by_cases hr : q.referenced = referenced
    · rw [if_neg (by simp [stale, hr]), ← hr]
    · rw [if_pos (by simp [stale, hq, hr])]
  · rw [if_neg hq, if_neg]
    simp only [stale, and_eq_true, decide_eq_true_eq]
    tauto

lemma total_stale (h : Handle) (referenced : Bool) (l : List Queued) :
    total (·.referenced.toNat) (l.map (restamp h referenced)) +
      (if referenced then 0 else l.countP (stale h referenced)) =
      total (·.referenced.toNat) l + if referenced then l.countP (stale h referenced) else 0 := by
  induction l with
  | nil => cases referenced <;> rfl
  | cons q l ih =>
    rw [List.map_cons, total_cons, total_cons, List.countP_cons, ← restamp_stale]
    by_cases hs : stale h referenced q = true
    · have hn : q.referenced ≠ referenced := by
        simp only [stale, and_eq_true, bne_iff_ne] at hs
        exact hs.2
      cases referenced <;> cases hq : q.referenced <;> simp_all <;> omega
    · cases referenced <;> simp_all <;> omega

lemma countP_stale_le (h : Handle) (l : List Queued) : l.countP (stale h false) ≤ total (·.referenced.toNat) l := by
  have hu := total_stale h false l
  simp only [false_eq_true, if_false] at hu
  omega

lemma Step.unclosed (opens : ¬A.opens) (closes : ¬A.closes) (step : Step A b b') {r' : Resource}
    (live : (h, r') ∈ b'.handles) : ∃ r, (h, r) ∈ b.handles ∧ r'.closing = r.closing ∧ r.kind.Same r'.kind := by
  have he {h₀ : Handle} {r₀ r₁ : Resource} {S : Multiset (Handle × Resource)} (before : b.handles = (h₀, r₀) ::ₘ S)
      (after : (h, r') ∈ (h₀, r₁) ::ₘ S) (closing : r₁.closing = r₀.closing) (same : r₀.kind.Same r₁.kind) :
      ∃ r, (h, r) ∈ b.handles ∧ r'.closing = r.closing ∧ r.kind.Same r'.kind := by
    rcases mem_replaced after with ⟨rfl, rfl⟩ | hm
    · exact ⟨r₀, mem_head before, closing, same⟩
    · exact ⟨r', mem_rest before hm, rfl, Kind.same_refl⟩
  cases step with
  | opened _ _ _ _ _ leave => exact absurd leave opens
  | closing _ _ _ _ leave => exact absurd leave closes
  | dropped _ _ before | drainedClosed _ _ _ before => exact ⟨r', mem_rest before live, rfl, Kind.same_refl⟩
  | tuned _ _ before same | finished _ _ _ before _ _ _ _ same => exact he before live rfl same
  | issued _ before | closeQueued before | referenced _ before => exact he before live rfl Kind.same_refl
  | issuedLoose | flagged | took | pooled | refused | polled | notified | posted | finishedLoose | drained =>
    exact ⟨r', live, rfl, Kind.same_refl⟩

lemma Steps.unclosed (opens : ¬A.opens) (closes : ¬A.closes) (steps : Steps A b b') {r' : Resource}
    (live : (h, r') ∈ b'.handles) : ∃ r, (h, r) ∈ b.handles ∧ r'.closing = r.closing ∧ r.kind.Same r'.kind := by
  induction steps generalizing r' with
  | refl => exact ⟨r', live, rfl, Kind.same_refl⟩
  | tail _ step ih =>
    obtain ⟨r, hr, hc, he⟩ := step.unclosed opens closes live
    obtain ⟨r₀, hr₀, hc₀, hs₀⟩ := ih hr
    exact ⟨r₀, hr₀, hc.trans hc₀, Kind.same_trans hs₀ he⟩

end Books

namespace Driver

variable {A : Leave} {d d' : Driver} {h : Handle} {r : Resource} {id : OpId} {o : Op}

lemma recount_eq {referenced : Bool} (hr : referenced = false → d.queued.countP (Books.stale h false) ≤ d.refs) :
    d.recount h referenced = { d with
      refs := if referenced then d.refs + d.queued.countP (Books.stale h referenced)
        else d.refs - d.queued.countP (Books.stale h referenced)
      queued := d.queued.map (Books.restamp h referenced) } := by
  have hm (l : List Queued) : (l.map fun q => if Books.stale h referenced q = true then
      { q with referenced := referenced } else q) = l.map (Books.restamp h referenced) :=
    List.map_congr_left fun q _ => Books.restamp_stale
  cases referenced with
  | true =>
    simp only [recount, if_true]
    rw [← hm]
    rfl
  | false =>
    simp only [recount, false_eq_true, if_false]
    rw [subRefs_eq (by exact hr rfl), ← hm]
    rfl

lemma setRef_refines (g : d.Good) : Refines A d (d.setRef h referenced).1 := by
  rw [setRef]
  cases hr : d.resource h with
  | error => exact .refl g
  | ok r =>
    simp only
    split
    case isTrue => exact .refl g
    case isFalse hn =>
      obtain ⟨hl, ha, -⟩ := resource_ok g.sound hr
      obtain ⟨S, hS⟩ := exists_cons_of_mem hl
      have he := g.sound.set_handle hS { r.bare with referenced := referenced }
        (f := fun r => { r with referenced := referenced }) fun raw ha =>
          congrArg (fun r : Resource => { r with referenced := referenced }) ha
      have hb (refs : ℕ) : Becomes d { d with
            handles := d.handles.modify h.key fun r => { r with referenced := referenced }
            queued := d.queued.map (Books.restamp h referenced)
            refs := refs } { d.books with
          handles := (h, { r.bare with referenced := referenced }) ::ₘ S
          queued := d.queued.map (Books.restamp h referenced)
          refs := refs } :=
        ⟨{ he.sound with }, he.owner, congrArg (fun b : Books => { b with
          queued := d.queued.map (Books.restamp h referenced)
          refs := refs }) he.books⟩
      have hu := Books.total_stale h referenced d.queued
      cases referenced with
      | true =>
        have hr₀ : r.referenced = false := by simpa using hn
        simp only [if_true]
        rw [recount_eq (by simp)]
        refine .of_step g (hb _) (.referenced true hS _ ?_)
        simp only [Resource.due, Resource.bare, hr₀, false_eq_true, if_false, if_true] at hu ⊢
        change d.refs + r.weight + _ + (0 + total _ d.queued) =
          d.refs + (r.weight + total _ (d.queued.map (Books.restamp h true)))
        omega
      | false =>
        have hr₀ : r.referenced = true := by simpa using hn
        have hd : Books.due (h, r.bare) = r.weight := by
          simp only [Books.due, Resource.due, Resource.bare, hr₀, if_true]
          rfl
        have hw := Books.le_tally (f := Books.due) hl
        have hs := Books.countP_stale_le h d.queued
        have hc : d.refs = tally Books.due d.live + tally Books.loose d.active + total _ d.queued :=
          g.balanced.exact_.refs
        rw [hd] at hw
        simp only [false_eq_true, if_false]
        rw [subRefs_eq (by omega), recount_eq (fun _ => by simp only; omega)]
        refine .of_step g (hb _) (.referenced false hS _ ?_)
        simp only [Resource.due, Resource.bare, hr₀, false_eq_true, if_false, if_true] at hu ⊢
        change d.refs - r.weight - d.queued.countP (Books.stale h false) + (r.weight + total _ d.queued) =
          d.refs + (0 + total _ (d.queued.map (Books.restamp h false)))
        omega

lemma timerReset_refines (g : d.Good) : Refines A d (d.timerReset h due).1 := by
  rw [timerReset]
  cases d.resource h with
  | error => exact .refl g
  | ok =>
    simp only
    split
    · exact .of_same g ⟨{ g.sound with }, rfl, rfl⟩
    · exact .refl g

lemma flag_refines (g : d.Good) (active : (id, o) ∈ d.active) (f : Op → Op) (bare : ∀ raw, (f raw).bare = f raw.bare)
    (same : f o = { o with
      cancel := (f o).cancel
      timedOut := (f o).timedOut
      stop := (f o).stop
      jobCancel := (f o).jobCancel }) : Refines A d { d with ops := d.ops.modify id.key f } := by
  obtain ⟨R, hR⟩ := exists_cons_of_mem active
  have he := g.sound.set_op hR (f o) fun raw hr => hr ▸ bare raw
  rw [same] at he
  exact .of_step g he (.flagged _ _ _ _ hR)

lemma cancelInner_refines (g : d.Good) (id : OpId) (stop : Bool) (cancelled : OpId → Result Unit) :
    Refines A d (d.cancelInner id stop cancelled).1 := by
  rw [cancelInner]
  split
  case isTrue => exact .refl g
  case isFalse ho =>
    have mine : id.owner = d.owner := by simpa using ho
    cases hr : d.ops.get id.key with
    | none => exact .refl g
    | some raw =>
      simp only
      split
      case isTrue => exact .refl g
      case isFalse =>
        split
        case h_1 h hi =>
          have he : Refines A d { d with timers := (d.timers.cancel h.key).1 } :=
            .of_same g ⟨{ g.sound with }, rfl, rfl⟩
          have hf : Refines A { d with timers := (d.timers.cancel h.key).1 } (finish _ id
              (if stop then .stopped else .cancelled) true) :=
            finish_refines he.good mine (by cases stop <;> trivial) (by cases stop <;> exact fun _ hh => by cases hh)
              true nofun
          exact (he.trans hf).trans (.of_same hf.good ⟨{ hf.good.sound with }, rfl, rfl⟩)
        case h_2 =>
          split
          case h_1 => exact .refl g
          case h_2 =>
            have hl := flag_refines (A := A) g (g.sound.mem_active.mpr ⟨mine, raw, hr, rfl⟩) (fun op => { op with
              cancel := true
              stop := stop
              jobCancel := if (raw.externalWait || (raw.fs && d.filesystem = .pool)) = true then op.jobCancel
                else op.jobCancel.map fun _ => true }) (fun _ => rfl) rfl
            exact hl.trans (.of_same hl.good ⟨{ hl.good.sound with }, rfl, rfl⟩)

lemma cancelFrom_refines (stop : Bool) (cancelled : OpId → Result Unit) (n : ℕ) (g : d.Good) (next : Option OpId) :
    Refines A d (cancelFrom stop cancelled n d next) := by
  induction n generalizing d next with
  | zero => exact .refl g
  | succ n ih =>
    cases next with
    | none => exact .refl g
    | some id =>
      have hf : Refines A d _ := cancelInner_refines g id stop cancelled
      exact hf.trans (ih hf.good _)

variable (g : d.Good)
include g

lemma cancelAll_refines (r : Resource) (stop : Bool) (cancelled : OpId → Result Unit) :
    Refines A d (d.cancelAll r stop cancelled) :=
  cancelFrom_refines stop cancelled _ g _

lemma beginClose_refines (hr : d.resource h = .ok r) (ho : r.closing = none) (leave : A.closes)
    (token : Token) : Refines A d (d.beginClose h r token) := by
  obtain ⟨hl, -, hh⟩ := resource_ok g.sound hr
  obtain ⟨S, hS⟩ := exists_cons_of_mem hl
  have he := g.sound.set_handle hS { r.bare with closing := some token }
    (f := fun r => { r with closing := some token }) fun raw ha =>
      congrArg (fun r : Resource => { r with closing := some token }) ha
  rw [beginClose, ite_toNat, note]
  refine .of_step g ⟨?_, he.owner, ?_⟩ (.closing token hS hh ho leave)
  · exact g.sound.edit rfl (Table.modify_later g.sound.handles _ _) (.refl g.sound.ops) (by simp) (by simp)
  · exact congrArg (fun b : Books => { b with
      refs := d.refs + (r.kind.isTimer && r.referenced).toNat
      trace := d.trace ++ [Effect.closing h r.kind] }) he.books

lemma close_refines (leave : A.closes) (h : Handle) (token : Token) (prepared : Result Unit)
    (cancelled : OpId → Result Unit) : Refines A d (d.close h token prepared cancelled).1 := by
  rw [close]
  cases hr : d.resource h with
  | error => exact .refl g
  | ok r =>
    simp only
    split
    case isTrue => exact .refl g
    case isFalse ho =>
      split
      case h_1 => exact .refl g
      case h_2 =>
        have mine := (g.sound.mem_live.mp (resource_ok g.sound hr).1).1
        have hb : Refines A d _ := beginClose_refines g hr (by simpa using ho) leave token
        have hc := hb.trans (cancelAll_refines hb.good r false cancelled)
        exact hc.trans (maybeClosed_refines hc.good (mine.trans hc.owner.symm))

lemma signalStop_refines (leave : A.closes) (h : Handle) (token : Token) (prepared : Result Unit)
    (stopped cancelled : OpId → Result Unit) :
    Refines A d (d.signalStop h token prepared stopped cancelled).1 := by
  rw [signalStop]
  cases hr : d.resource h with
  | error => exact .refl g
  | ok r =>
    have hs : Refines A d _ := cancelAll_refines g r true stopped
    exact hs.trans (close_refines hs.good leave h token prepared cancelled)

lemma detach_refines (h : Handle) (cancelled : OpId → Result Unit) (detached : Result Transport) :
    Refines A d (d.detach h cancelled detached).1 := by
  rw [detach]
  cases hr : d.resource h with
  | error => exact .refl g
  | ok r =>
    simp only
    split
    case isTrue => exact .refl g
    case isFalse ho =>
      have hc : Refines A d _ := cancelAll_refines g r false cancelled
      cases hr' : (d.cancelAll r false cancelled).resource h with
      | error => exact hc
      | ok r' =>
        simp only
        split
        case isTrue => exact hc
        case isFalse hi =>
          cases detached with
          | error => exact hc
          | ok =>
            push Not at ho hi
            -- the cancellations leave the handle open and a socket, whatever they finish
            have hq : Refines .none d _ := cancelAll_refines g r false cancelled
            obtain ⟨hl, -, -⟩ := resource_ok g.sound hr
            obtain ⟨hl', ha', -⟩ := resource_ok hc.good.sound hr'
            obtain ⟨r₀, hr₀, hg, he⟩ := Books.Steps.unclosed (fun hf => hf) (fun hf => hf) hq.steps hl'
            obtain rfl := g.balanced.kept.handles.unique hr₀ hl
            have hu : r'.closing = none := hg.trans ho.1
            have hd : r'.kind.isTimer = false := (Kind.isTimer_same he).trans (by
              change r.kind.isTimer = false
              rw [ho.2]
              rfl)
            have hk := hc.good.referenced_le hl' hi.1 hu hd
            have ht : ∀ e ∈ [Effect.freed h], e.Lets h := by simp [Effect.Lets]
            have hm : Refines A _ _ := drop_refines hc.good hl' hi.1 hu ht
            simp only
            rw [freeHandle_eq hc.good.sound ha', subRefs_if (by exact hk)]
            refine hc.trans ?_
            have hb : (r'.bare.referenced && !r'.bare.kind.isTimer) = r'.referenced := by
              change (r'.referenced && !r'.kind.isTimer) = r'.referenced
              rw [hd, Bool.not_false, Bool.and_true]
            rw [hb] at hm
            exact hm

lemma integration_refines (answer parked : Result Unit) : Refines A d (d.integration answer parked).1 := by
  cases answer with
  | error => exact .refl g
  | ok => exact .of_same g ⟨{ g.sound with }, rfl, rfl⟩

end Driver

end Turnloop
