import Turnloop.Driver.Retire

/-! Operations finish: the ways a completion enters the queue. -/

namespace Turnloop

open Table (Key)
open Lib List Multiset Option

lemma Driver.eventClass_open (open_ : c.terminal = false) (ordinary : c.result.Ordinary) :
    eventClass c = some (if c.result = .timer then .timer else .native) := by
  rw [eventClass]
  cases hr : c.result <;> simp_all [OpResult.Ordinary]

namespace Driver

variable {A : Leave} {d : Driver} {id : OpId} {o raw : Op} {h : Handle} {r : Resource} {result : OpResult}

lemma maybeClosed_refines (g : d.Good) (mine : h.owner = d.owner) : Refines A d (d.maybeClosed h) := by
  rw [maybeClosed]
  cases hr : d.handles.get h.key with
  | none => exact .refl g
  | some raw =>
    cases hc : raw.closing with
    | none =>
      simp only [hc]
      exact .refl g
    | some =>
      simp only [hc]
      split
      case isFalse => exact .refl g
      case isTrue hi =>
        obtain ⟨S, hS⟩ := exists_cons_of_mem (g.sound.mem_live.mpr ⟨mine, raw, hr, rfl⟩)
        have hw := g.sound.set_handle hS { raw.bare with closedQueued := true }
          (f := fun r => { r with closedQueued := true }) fun raw' hr' => by rw [← hr']; rfl
        exact .of_step g (hw.enqueue _ false) (.closeQueued hS hc hi.1 hi.2)

lemma maybeClosed_open (s : d.Sound) (live : (h, r) ∈ d.live) (unclosed : r.closing = none) : d.maybeClosed h = d := by
  obtain ⟨-, raw, hr, rfl⟩ := s.mem_live.mp live
  have hc : raw.closing = none := unclosed
  simp [maybeClosed, hr, hc]

lemma Good.placed (g : d.Good) (active : (id, o) ∈ d.active) (on : o.handle = some h) :
    ∃ r S, d.live = (h, r) ::ₘ S ∧ 1 ≤ r.pending := by
  obtain ⟨r, hr⟩ := g.balanced.kept.placed id o h active on
  obtain ⟨S, hS⟩ := exists_cons_of_mem hr
  refine ⟨r, S, hS, ?_⟩
  rw [g.balanced.kept.pending h r hr]
  exact countP_pos.mpr ⟨_, active, on⟩

lemma settle_on (g : d.Good) (mine : id.owner = d.owner)
    (hr : d.ops.get id.key = some raw) (on : raw.handle = some h) (live : d.live = (h, r) ::ₘ S)
    (pending : 1 ≤ r.pending) (c : Completion) :
    ∃ R, d.active = (id, raw.bare) ::ₘ R ∧
      Becomes d ((d.enqueue c r.referenced).retire id).1 { (d.books.push c r.referenced).leave raw.bare R with
        handles := (h, { r with pending := r.pending - 1, kind := Books.disarmed r.kind }) ::ₘ S
        refs := d.refs } := by
  have ha := g.sound.mem_active.mpr ⟨mine, raw, hr, rfl⟩
  have covers := g.balanced.exact_.covers ha
  have hp := (Becomes.refl g.sound).enqueue c r.referenced
  rw [enqueue_eq] at hp ⊢
  obtain ⟨R, hR, he⟩ := retire_on hp.sound mine hr ⟨covers.1, covers.2, covers.3, covers.4, covers.5⟩ on
    live pending (Nat.le_add_left ..)
  refine ⟨R, hR, he.sound, he.owner, ?_⟩
  rw [he.books, Nat.add_sub_cancel]
  rfl

lemma settle_loose (g : d.Good) (mine : id.owner = d.owner) (hr : d.ops.get id.key = some raw)
    (loose : raw.handle = none) (c : Completion) :
    ∃ R, d.active = (id, raw.bare) ::ₘ R ∧
      Becomes d ((d.enqueue c true).retire id).1 { (d.books.push c true).leave raw.bare R with refs := d.refs } := by
  have ha := g.sound.mem_active.mpr ⟨mine, raw, hr, rfl⟩
  have covers := g.balanced.exact_.covers ha
  have hp := (Becomes.refl g.sound).enqueue c true
  rw [enqueue_eq] at hp ⊢
  obtain ⟨R, hR, he⟩ := retire_loose hp.sound mine hr ⟨covers.1, covers.2, covers.3, covers.4, covers.5⟩
    loose (Nat.le_add_left ..)
  refine ⟨R, hR, he.sound, he.owner, ?_⟩
  rw [he.books]
  rfl

lemma finish_refines (g : d.Good) (mine : id.owner = d.owner) (ordinary : result.Ordinary)
    (introduces : d.books.Introduces result) (terminal : Bool)
    (room : terminal = false → A.notifies ∧
      (A.crowd ∨ d.buffered (if result = .timer then .timer else .native) < d.config.eventsPerTurn)) :
    Refines A d (d.finish id result terminal) := by
  rw [finish]
  cases hr : d.ops.get id.key with
  | none => exact .refl g
  | some raw =>
    have ha := g.sound.mem_active.mpr ⟨mine, raw, hr, rfl⟩
    cases terminal with
    | false =>
      obtain ⟨hl, ho⟩ := room rfl
      refine .of_step g ((Becomes.refl g.sound).enqueue _ false)
        (.notified (o := raw.bare) ha ordinary introduces (fun k hk => ?_) hl)
      rw [eventClass_open rfl ordinary] at hk
      exact Option.some.inj hk ▸ ho
    | true =>
      cases hh : raw.handle with
      | none =>
        obtain ⟨R, hR, he⟩ := settle_loose g mine hr hh ⟨raw.token, some id, none, true, result⟩
        simp only [Bool.true_and, if_true, hh]
        exact .of_step g he (.finishedLoose (o := raw.bare) hR hh ordinary introduces)
      | some h =>
        obtain ⟨r, S, hS, hp⟩ := g.placed ha hh
        obtain ⟨hm, ra, hw, hb⟩ := g.sound.mem_live.mp (mem_head hS)
        have hc : ra.referenced = r.referenced := by rw [← hb]; rfl
        obtain ⟨R, hR, he⟩ := settle_on g mine hr hh hS hp ⟨raw.token, some id, some h, true, result⟩
        have hf : Refines A d _ := .of_step g he (.finished (o := raw.bare) (some h)
          (Books.disarmed r.kind) hR hS hh ordinary introduces (.inl rfl)
            (Books.disarmed_same _) Books.disarmed_unarmed)
        simp only [Bool.true_and, if_true, hh, hw, any_some, hc]
        exact hf.trans (maybeClosed_refines hf.good (hm.trans hf.owner.symm))

lemma freeHandle_eq (s : d.Sound) {raw : Resource} (hr : d.handles.get h.key = some raw) : d.freeHandle h = ({ d with
      handles := (d.handles.remove h.key).1
      trace := d.trace ++ [Effect.freed h] }, some raw) := by
  have hp : d.handles.remove h.key = ((d.handles.remove h.key).1, some raw) :=
    Prod.ext rfl (Table.remove_removed s.handles hr).1
  rw [freeHandle, hp]
  rfl

lemma remove_live (s : d.Sound) (live : (h, r) ∈ d.live) :
    d.live = (h, r) ::ₘ (d.handles.remove h.key).1.view (Handle.mk d.owner) Resource.bare := by
  obtain ⟨mine, raw, hr, rfl⟩ := s.mem_live.mp live
  have hv : d.live = (⟨d.owner, h.key⟩, raw.bare) ::ₘ _ := (Table.remove_removed s.handles hr).2.view
  rwa [Sound.handle_mk mine] at hv

lemma drop_refines (g : d.Good) (live : (h, r) ∈ d.live) (idle : r.pending = 0) (unclosed : r.closing = none)
    (lets : ∀ e ∈ es, e.Lets h) :
    Refines A d { d with
      handles := (d.handles.remove h.key).1
      refs := d.refs - (r.referenced && !r.kind.isTimer).toNat
      trace := d.trace ++ es } := by
  obtain ⟨_, _, hr, rfl⟩ := g.sound.mem_live.mp live
  have removed := (Table.remove_removed g.sound.handles hr).2
  have hl := remove_live g.sound live
  have ho := removed.remaining
  have hp : ∀ e ∈ d.trace ++ es, (∀ h', ¬e.Lets h') → e ∈ d.trace := by
    intro e he hn
    exact (List.mem_append.mp he).resolve_right fun hs => hn h (lets e hs)
  refine .of_step g ⟨g.sound.edit rfl removed.later (.refl g.sound.ops) ?_ ?_, rfl, rfl⟩
    (.dropped _ es hl idle unclosed lets ho.1 ho.2)
  · exact fun h' hh' => hp _ hh' fun _ hn => hn
  · exact fun id hi => hp _ hi fun _ hn => hn

lemma Good.referenced_le (g : d.Good) (live : (h, r) ∈ d.live) (idle : r.pending = 0) (unclosed : r.closing = none)
    (untimed : r.kind.isTimer = false) : r.referenced.toNat ≤ d.refs := by
  have hd : r.due ≤ d.refs := g.balanced.exact_.due_le live
  have hi := Books.due_idle (h := h) idle unclosed
  simp only [Books.due, untimed, Bool.not_false, Bool.and_true] at hi
  omega

lemma discardHidden_refines (g : d.Good) (live : (h, r) ∈ d.live) (idle : r.pending = 0) (unclosed : r.closing = none)
    (untimed : r.kind.isTimer = false) (native : Bool) : Refines A d (d.discardHidden h native) := by
  have hr := g.referenced_le live idle unclosed untimed
  have hd (es : List Effect) (lets : ∀ e ∈ es, e.Lets h) : Refines A d _ := drop_refines g live idle unclosed lets
  obtain ⟨_, _, ha, rfl⟩ := g.sound.mem_live.mp live
  simp only [untimed, Bool.not_false, Bool.and_true] at hd
  rw [discardHidden, freeHandle_eq g.sound ha]
  simp only
  rw [subRefs_if (by exact hr)]
  cases native with
  | false => exact hd [.freed h] (by simp [Effect.Lets])
  | true =>
    simp only [if_true]
    split
    · simp only [releaseFile, note, append_assoc]
      exact hd [.freed h, .fileReleased h] (by simp [Effect.Lets])
    · simp only [releaseBackend, note, append_assoc]
      exact hd [.freed h, .released h] (by simp [Effect.Lets])

lemma forgetHandle_eq (hq : d.queued = l ++ [q]) : d.forgetHandle = { d with
      queued := l ++ [{ q with completion := { q.completion with handle := none } }] } := by
  simp [forgetHandle, hq]

lemma finish_hidden (g : d.Good) (mine : id.owner = d.owner) (hr : d.ops.get id.key = some raw)
    (on : raw.handle = some h) (live : (h, r) ∈ d.live) (hidden : r.hidden = true) (ordinary : result.Ordinary)
    (introduces : d.books.Introduces result) :
    Refines A d (((d.finish id result true).forgetHandle).discardHidden h true) := by
  obtain ⟨hm, hu, hd⟩ := g.balanced.kept.hidden h r live hidden
  have ha := g.sound.mem_active.mpr ⟨mine, raw, hr, rfl⟩
  obtain ⟨_, S, hS, hp⟩ := g.placed ha on
  obtain rfl := g.balanced.kept.handles.unique live (mem_head hS)
  obtain ⟨_, ra, hw, hb⟩ := g.sound.mem_live.mp live
  have he : ra.referenced = r.referenced := by rw [← hb]; rfl
  obtain ⟨R, hR, hs⟩ := settle_on g mine hr on hS hp ⟨raw.token, some id, some h, true, result⟩
  have hl : Driver.live _ = _ := congrArg Books.handles hs.books
  have hq : Driver.queued _ = _ := congrArg Books.queued hs.books
  have hf : d.finish id result true =
    ((d.enqueue ⟨raw.token, some id, some h, true, result⟩ r.referenced).retire id).1 := by
    simp only [finish, hr, Bool.true_and, if_true, on, hw, Option.any_some, he]
    exact maybeClosed_open hs.sound (mem_head hl) hu
  have ho : Becomes d (d.finish id result true).forgetHandle
      { (d.books.push ⟨raw.token, some id, none, true, result⟩ r.referenced).leave raw.bare R with
        handles := (h, { r with pending := r.pending - 1, kind := Books.disarmed r.kind }) ::ₘ S
        refs := d.refs } := by
    rw [hf, forgetHandle_eq hq]
    refine ⟨{ hs.sound with }, hs.owner, ?_⟩
    let forgotten : Completion := ⟨raw.token, some id, none, true, result⟩
    let last : Queued := ⟨forgotten, r.referenced, eventClass forgotten⟩
    exact congrArg (fun b : Books => { b with queued := d.queued ++ [last] }) hs.books
  have hn : Refines A d _ := .of_step g ho (.finished (o := raw.bare) none (Books.disarmed r.kind) hR hS on
    ordinary introduces (.inr rfl) (Books.disarmed_same _) Books.disarmed_unarmed)
  have hl' : Driver.live _ = _ := congrArg Books.handles ho.books
  exact hn.trans (discardHidden_refines hn.good (mem_head hl') (Nat.sub_eq_zero_of_le hm) hu
    ((Kind.isTimer_same (Books.disarmed_same r.kind)).trans hd) true)

lemma Good.introduces (g : d.Good) (mine : id.owner = d.owner)
    (names : ∀ h, result.handle = some h → (d.ops.get id.key).bind Op.handle = some h) :
    d.books.Introduces result := by
  intro h hh
  obtain ⟨raw, hr, on⟩ := bind_eq_some_iff.mp (names h hh)
  exact Books.working g.balanced.kept (g.sound.mem_active.mpr ⟨mine, raw, hr, rfl⟩) on

lemma finishFs_refines (g : d.Good) (mine : id.owner = d.owner) (ordinary : result.Ordinary)
    (names : ∀ h, result.handle = some h → (d.ops.get id.key).bind Op.handle = some h) :
    Refines A d (d.finishFs id result) := by
  have introduces := g.introduces mine names
  have hp : Refines A d (d.finish id result true) := finish_refines g mine ordinary introduces true nofun
  rw [finishFs]
  cases ho : (d.ops.get id.key).bind Op.handle with
  | none => exact hp
  | some h =>
    obtain ⟨raw, hr, on⟩ := bind_eq_some_iff.mp ho
    obtain ⟨r, S, hS, hg⟩ := g.placed (g.sound.mem_active.mpr ⟨mine, raw, hr, rfl⟩) on
    obtain ⟨hm, rawr, hw, hb⟩ := g.sound.mem_live.mp (mem_head hS)
    simp only [hw, any_some]
    split
    case isFalse => exact hp
    case isTrue hh =>
      have hidden : r.hidden = true := hb ▸ hh
      split
      case h_1 =>
        have hs := g.sound.set_handle hS { r with hidden := false } (f := fun r => { r with hidden := false })
          fun raw' hr' => by rw [← hr']; rfl
        have hc := fun op repeats => g.balanced.kept.timers h r op repeats (mem_head hS)
        have hu : Refines A d _ :=
          .of_step g hs (.tuned r.kind false hS Kind.same_refl hc nofun)
        exact hu.trans (finish_refines hu.good mine ordinary (hu.good.introduces mine names) true nofun)
      case h_2 => exact finish_hidden g mine hr on (mem_head hS) hidden ordinary introduces

end Driver

end Turnloop
