import Turnloop.Driver.Finish

/-! Handles are created and operations enter. -/

namespace Turnloop

open Table (Key)
open Lib List Multiset Option

abbrev Resource.fresh (kind : Kind) : Resource := ⟨kind, false, true, 0, none, false, none, none⟩

abbrev Op.fresh (handle : Option Handle) (token : Token) (native : Bool) : Op :=
  ⟨handle, token, false, false, false, false, false, 0, false, native, false, none, none, none⟩

namespace Books

inductive Seat (b : Books) : Option Handle → Multiset (Handle × Resource) → ℕ → Prop
  | loose : Seat b none b.handles (b.refs + 1)
  | on {h : Handle} {r : Resource} {S : Multiset (Handle × Resource)} (live : b.handles = (h, r) ::ₘ S)
      (unclosed : r.closing = none) (first : r.hidden = true → r.pending = 0) :
      Seat b (some h) ((h, { r with pending := r.pending + 1 }) ::ₘ S) (b.refs + r.referenced.toNat)

end Books

namespace Driver

variable {A : Leave} {d d' : Driver} {id : OpId} {o : Op} {h : Handle} {r : Resource} {kind : Kind} {token : Token}

lemma newHandle_cases (d : Driver) (kind : Kind) : (∃ e, d.newHandle kind = (d, .error e)) ∨
    ∃ d' h, d.newHandle kind = (d', .ok h) := by
  rw [newHandle]
  split
  · exact .inl ⟨_, rfl⟩
  · split
    · exact .inl ⟨_, rfl⟩
    · exact .inr ⟨_, _, rfl⟩

lemma newHandle_ok (g : d.Good) (unarmed : ∀ op repeats, kind ≠ .timer (some op) repeats)
    (hn : d.newHandle kind = (d', .ok h)) :
    (∃ handles refs trace, handles.remaining = d.handles.remaining - 1 ∧
      d' = { d with handles := handles, refs := refs, trace := trace }) ∧
      (∀ A : Leave, A.opens → Refines A d d') ∧ d'.live = (h, .fresh kind) ::ₘ d.live := by
  rw [newHandle] at hn
  split at hn
  case isTrue => cases (Prod.mk.inj hn).2
  case isFalse hr =>
    cases hi : d.handles.insert (.fresh kind) with
    | mk handles key =>
      rw [hi] at hn
      cases key with
      | none => cases (Prod.mk.inj hn).2
      | some key =>
        have inserted := Table.insert_eq_some g.sound.handles hi
        obtain ⟨rfl, he⟩ := Prod.mk.inj hn
        cases he
        have hv : handles.view (.mk d.owner) Resource.bare = (⟨d.owner, key⟩, .fresh kind) ::ₘ d.live :=
          inserted.view
        have hu : .created ⟨d.owner, key⟩ ∉ d.trace := fun hc => inserted.fresh (g.sound.created _ hc).2
        refine ⟨⟨_, _, _, inserted.remaining, rfl⟩,
          fun A leave => .of_step g ⟨⟨inserted.valid, g.sound.ops, ?_, ?_⟩, rfl, ?_⟩
          (.opened ⟨d.owner, key⟩ kind hu unarmed (Nat.lt_of_not_le hr) leave), hv⟩
        · intro h hh
          rcases mem_append.mp hh with hh | hh
          · exact (g.sound.created h hh).imp_right (inserted.mono _)
          · obtain rfl := Effect.created.inj (List.mem_singleton.mp hh)
            exact ⟨rfl, inserted.used⟩
        · intro id hd
          exact g.sound.accepted id (by simpa [note] using hd)
        · have hb : (if kind.isTimer = true then 0 else 1) = (!kind.isTimer).toNat := by
            cases kind.isTimer <;> rfl
          simp only [books, live, Driver.active, note, hv, inserted.remaining, hb]

lemma newOp_cases (d : Driver) (handle : Option Handle) (token : Token) :
    (∃ e, d.newOp handle token = (d, .error e)) ∨ ∃ d' id, d.newOp handle token = (d', .ok id) := by
  rw [newOp]
  split
  · exact .inl ⟨_, rfl⟩
  · simp only
    split
    · exact .inl ⟨_, rfl⟩
    · exact .inr ⟨_, _, rfl⟩

/-- `d'` is `d` with the operation `o`, which nobody has been told of yet. -/
structure Entered (d d' : Driver) (id : OpId) (o : Op) : Prop where
  sound : d'.Sound
  owner : d'.owner = d.owner
  filesystem : d'.filesystem = d.filesystem
  unused : .accepted id ∉ d.trace
  slot : d.outstanding < d.config.maxOperations
  books : ∃ handles refs, d.books.Seat o.handle handles refs ∧
    d'.books = { d.books.enter id o with handles := handles, refs := refs }

namespace Entered

variable (e : Entered d d' id o)
include e

lemma active : d'.active = (id, o) ::ₘ d.active := by
  obtain ⟨_, _, -, hb⟩ := e.books
  exact congrArg Books.ops hb

lemma mine : id.owner = d'.owner := (e.sound.mem_active.mp (mem_head e.active)).1

lemma trace : d'.trace = d.trace := by
  obtain ⟨_, _, -, hb⟩ := e.books
  exact congrArg Books.trace hb

lemma config : d'.config = d.config := by
  obtain ⟨_, _, -, hb⟩ := e.books
  exact congrArg Books.config hb

lemma undelivered : d'.undelivered = d.undelivered + o.port.toNat := by
  obtain ⟨_, _, -, hb⟩ := e.books
  exact congrArg Books.undelivered hb

lemma edit (f : Op → Op) (bare : ∀ raw, (f raw).bare = f raw.bare) (handle : (f o).handle = o.handle)
    (hr : reserved + (o.reservedHandles + o.multishot.toNat) =
      d'.reservedHandles + ((f o).reservedHandles + (f o).multishot.toNat))
    (ha : armed + o.multishot.toNat = d'.multishotArmed + (f o).multishot.toNat)
    (hp : pooled + o.multishot.toNat = d'.multishotReserved + (f o).multishot.toNat)
    (hn : native + o.native.toNat = d'.nativePending + (f o).native.toNat)
    (hd : port + o.port.toNat = d'.undelivered + (f o).port.toNat) :
    Entered d { d' with
      ops := d'.ops.modify id.key f
      reservedHandles := reserved
      multishotArmed := armed
      multishotReserved := pooled
      nativePending := native
      undelivered := port } id (f o) := by
  obtain ⟨handles, refs, he, hb⟩ := e.books
  have hs := e.sound.set_op e.active (f o) fun raw hf => hf ▸ bare raw
  refine ⟨{ hs.sound with }, e.owner, e.filesystem, e.unused, e.slot, handles, refs, handle ▸ he, ?_⟩
  have hr' : d'.reservedHandles = _ := congrArg Books.reservedHandles hb
  have ha' : d'.multishotArmed = _ := congrArg Books.multishotArmed hb
  have hp' : d'.multishotReserved = _ := congrArg Books.multishotReserved hb
  have hn' : d'.nativePending = _ := congrArg Books.nativePending hb
  have hb' : d'.undelivered = _ := congrArg Books.undelivered hb
  simp only [Books.enter] at hr' ha' hp' hn' hb'
  have hc := congrArg (fun b : Books => { b with
    reservedHandles := reserved
    multishotArmed := armed
    multishotReserved := pooled
    nativePending := native
    undelivered := port }) (hs.books.trans (congrArg (fun b : Books => { b with
      ops := (id, f o) ::ₘ d.active }) hb))
  refine hc.trans ?_
  simp only [Books.enter, Books.mk.injEq, true_and, and_true]
  refine ⟨rfl, ?_, ?_, ?_, ?_, ?_⟩ <;> omega

end Entered

lemma next_relinked {ops : Table Op} (h : ops.Valid) (id : OpId) (p : Option OpId) :
    Table.Relinked Op.bare ops (match p with
    | none => ops
    | some p => ops.modify p.key fun op => { op with next := some id }) := by
  cases p with
  | none => exact .refl h
  | some => exact Table.modify_relinked h _ fun _ => rfl

lemma newOp_ok (g : d.Good) (hn : d.newOp handle token = (d', .ok id))
    (target : ∀ h, handle = some h → ∃ r, (h, r) ∈ d.live ∧ r.closing = none ∧ (r.hidden = true → r.pending = 0)) :
    ∃ native, Entered d d' id (.fresh handle token native) ∧ (handle = none → native = false) := by
  rw [newOp] at hn
  split at hn
  case isTrue => cases (Prod.mk.inj hn).2
  case isFalse hl =>
    simp only at hn
    split at hn
    case h_1 => cases (Prod.mk.inj hn).2
    case h_2 ops key hi =>
      have inserted := Table.insert_eq_some g.sound.ops hi
      obtain ⟨rfl, he⟩ := Prod.mk.inj hn
      cases he
      have ho (p : Option OpId) := inserted.later.trans (next_relinked inserted.valid ⟨d.owner, key⟩ p).toLater
      have hu : .accepted ⟨d.owner, key⟩ ∉ d.trace := fun hc => inserted.fresh (g.sound.accepted _ hc).2
      have ht : d.outstanding < d.config.maxOperations :=
        Nat.lt_of_le_of_ne g.balanced.exact_.outstanding_le hl
      cases handle with
      | none =>
        refine ⟨false, ⟨g.sound.edit rfl (.refl g.sound.handles) inserted.later (fun _ hh => hh) fun _ hh => hh, rfl,
          rfl, hu, ht, _, _, .loose, ?_⟩, fun _ => rfl⟩
        simp only [books, Driver.active, bind_none]
        rw [inserted.view]
        rfl
      | some h =>
        obtain ⟨r, hr, hd, hf⟩ := target h rfl
        obtain ⟨S, hS⟩ := exists_cons_of_mem hr
        obtain ⟨-, raw, ha, rfl⟩ := g.sound.mem_live.mp hr
        have hs := g.sound.set_handle hS { raw.bare with pending := raw.bare.pending + 1 }
          (f := fun r => r.link ⟨d.owner, key⟩) fun raw' hr' => by rw [← hr']; rfl
        have hg := Table.modify_later g.sound.handles h.key fun r => r.link ⟨d.owner, key⟩
        refine ⟨decide (raw.kind = .socket), ⟨g.sound.edit rfl hg (ho _) (fun _ hh => hh) fun _ hh => hh,
          rfl, rfl, hu, ht, _, _, .on hS hd hf, ?_⟩, by rintro ⟨⟩⟩
        have hv : Table.view _ _ _ = _ := congrArg Books.handles hs.books
        simp only [bind_some, ha, any_some] at inserted
        simp only [books, Driver.live, Driver.active, bind_some, ha, any_some, Books.enter, ite_toNat]
        generalize hk : Table.view (OpId.mk d.owner) Op.bare _ = view at *
        have hv' : view = _ := hk.symm.trans ((next_relinked inserted.valid ⟨d.owner, key⟩ raw.tail).view _)
        rw [hv', inserted.view, hv, Table.modify_remaining]
        rfl

namespace Entered

lemma accept (g : d.Good) (e : Entered d d' id o) (leave : A.issues)
    (room : d.reservedHandles + o.reservedHandles + o.multishot.toNat ≤ d.handles.remaining)
    (port : d.undelivered + o.port.toNat ≤ d.config.maxUndelivered)
    (pooled : o.multishot = true → o.reservedHandles = 0) (asks : Books.Asks id o es)
    (loose : o.handle = none → es = []) :
    Refines A d { d' with trace := d'.trace ++ (es ++ [Effect.accepted id]) } := by
  have admits : d.books.Admits id o := ⟨e.unused, e.slot, room, port, pooled⟩
  obtain ⟨hm, _, hr, -⟩ := e.sound.mem_active.mp (mem_head e.active)
  have hd : Sound { d' with trace := d'.trace ++ (es ++ [Effect.accepted id]) } := by
    refine ⟨e.sound.handles, e.sound.ops, fun h hh => e.sound.created h ?_, fun id' hi' => ?_⟩
    · rcases mem_append.mp hh with hh | hh
      · exact hh
      · rcases List.mem_append.mp hh with hh | hh
        · obtain ⟨_, he, -⟩ := asks _ hh
          cases he
        · cases List.mem_singleton.mp hh
    · rcases mem_append.mp hi' with hh | hh
      · exact e.sound.accepted id' hh
      · rcases mem_append.mp hh with hh | hh
        · obtain ⟨_, he, -⟩ := asks _ hh
          cases he
        · obtain rfl := Effect.accepted.inj (List.mem_singleton.mp hh)
          exact ⟨hm, Table.Used.of_get e.sound.ops.toShaped hr⟩
  have ht := e.trace
  obtain ⟨handles, _, hs, hb⟩ := e.books
  have hc := congrArg (fun b : Books => { b with trace := d'.trace ++ (es ++ [Effect.accepted id]) }) hb
  rw [ht] at hc hd ⊢
  refine .of_step g ⟨hd, e.owner, hc⟩ ?_
  generalize ho : o.handle = handle at hs
  cases hs with
  | loose =>
    obtain rfl := loose ho
    exact .issuedLoose ho admits leave
  | on live unclosed first => exact .issued es live ho unclosed first admits asks leave

lemma retired (g : d.Good) (e : Entered d d' id o)
    (untimed : ∀ h r, o.handle = some h → (h, r) ∈ d.live → r.kind.isTimer = false) :
    Becomes d' (d'.retire id).1 { d'.books.leave o d.active with
      handles := d.live
      refs := d.refs } := by
  obtain ⟨hm, raw, hr, rfl⟩ := e.sound.mem_active.mp (mem_head e.active)
  have ha := e.active
  obtain ⟨handles, refs, he, hb⟩ := e.books
  have hc : d'.books.Covers raw.bare := by
    have hd := g.balanced.exact_.reserved
    have hp := g.balanced.exact_.pooled
    rw [hb]
    constructor <;> simp only [Books.enter] <;> omega
  have hf : d'.refs = refs := congrArg Books.refs hb
  have hh : d'.live = handles := congrArg Books.handles hb
  generalize ho : raw.bare.handle = handle at he
  cases he with
  | loose =>
    obtain ⟨R, hR, ht⟩ := retire_loose e.sound hm hr hc ho (hf ▸ Nat.le_add_left _ _)
    obtain rfl : d.active = R := (Multiset.cons_inj_right _).mp (ha.symm.trans hR)
    refine ⟨ht.sound, ht.owner, ht.books.trans ?_⟩
    have hs : (d'.books.leave raw.bare d.active).handles = d.live := hh
    rw [hf, ← hs]
    rfl
  | @on h r S live =>
    obtain ⟨R, hR, ht⟩ := retire_on e.sound hm hr hc ho hh (Nat.le_add_left _ _)
      (hf ▸ Nat.le_add_left _ _)
    obtain rfl : d.active = R := (Multiset.cons_inj_right _).mp (ha.symm.trans hR)
    refine ⟨ht.sound, ht.owner, ht.books.trans ?_⟩
    have hl : d.live = (h, r) ::ₘ S := live
    have hi : Books.disarmed r.kind = r.kind := by
      have hg := untimed h r ho (mem_head hl)
      cases hk : r.kind with
      | timer =>
        rw [hk] at hg
        cases hg
      | _ => rfl
    simp only [hf, hl, hi, Nat.add_sub_cancel]
    rfl

lemma abandon (g : d.Good) (e : Entered d d' id o)
    (room : d.reservedHandles + o.reservedHandles + o.multishot.toNat ≤ d.handles.remaining)
    (untimed : ∀ h r, o.handle = some h → (h, r) ∈ d.live → r.kind.isTimer = false) :
    (∀ A, Refines A d (d'.abandon id)) ∧ (d'.abandon id).live = d.live := by
  have hr := e.retired g untimed
  obtain ⟨handles, _, -, hs⟩ := e.books
  have ho : (d'.retire id).1.outstanding = d.outstanding + 1 :=
    (congrArg Books.outstanding hr.books).trans (congrArg Books.outstanding hs)
  have hp : d.multishotReserved ≤ d.multishotArmed := g.balanced.exact_.pooled
  let kept := min (d.multishotReserved + o.multishot.toNat) d.multishotArmed
  have hb : Becomes d (d'.abandon id) { d.books with
      reservedHandles := d.reservedHandles + (kept - d.multishotReserved)
      multishotReserved := kept } := by
    rw [Driver.abandon, subOutstanding_eq (by rw [ho]; exact Nat.le_add_left _ _)]
    refine ⟨{ hr.sound with }, hr.owner.trans e.owner, ?_⟩
    have hc := congrArg (fun b : Books => { b with outstanding := (d'.retire id).1.outstanding - 1 })
      hr.books
    refine hc.trans ?_
    rw [hs, ho]
    simp only [Books.leave, Books.enter, Nat.add_sub_cancel]
    have hk : min (d.books.multishotReserved + o.multishot.toNat) d.books.multishotArmed = kept := rfl
    have hu : d.books.reservedHandles + o.reservedHandles + o.multishot.toNat - o.reservedHandles -
        (d.books.multishotReserved + o.multishot.toNat - kept) = d.reservedHandles + (kept - d.multishotReserved) := by
      change d.reservedHandles + _ + _ - _ - (d.multishotReserved + _ - _) = _
      omega
    rw [hk, hu]
    rfl
  refine ⟨fun A => .of_step g hb (.pooled _ _ ?_ ?_ ?_), congrArg Books.handles hb.books⟩
  · change d.reservedHandles + (kept - d.multishotReserved) + d.multishotReserved = d.reservedHandles + kept
    omega
  · exact min_le_right _ _
  · change d.reservedHandles + (kept - d.multishotReserved) ≤ d.handles.remaining
    omega

end Entered

end Driver

end Turnloop
