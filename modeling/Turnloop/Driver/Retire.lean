import Turnloop.Driver.Refines

/-! An operation leaves the tables: what `retire` and `enqueue` do to the books. -/

namespace Turnloop

open Table (Key)
open Lib Multiset

namespace Books

variable {b : Books} {id : OpId} {o : Op} {h : Handle} {r : Resource}

structure Covers (b : Books) (o : Op) : Prop where
  reserved : o.reservedHandles + b.multishotReserved ≤ b.reservedHandles
  armed : o.multishot.toNat ≤ b.multishotArmed
  pooled : b.multishotReserved ≤ b.multishotArmed
  native : o.native.toNat ≤ b.nativePending
  port : o.port.toNat ≤ b.undelivered

lemma le_tally {α : Type} {f : α → ℕ} {m : Multiset α} {a : α} (ha : a ∈ m) : f a ≤ tally f m :=
  single_le_sum (fun _ _ => Nat.zero_le _) _ (mem_map_of_mem f ha)

lemma Exact.covers (e : Exact b) (active : (id, o) ∈ b.ops) : b.Covers o where
  reserved := by
    have hl := le_tally (f := fun p : OpId × Op => p.2.reservedHandles) active
    have he := e.reserved
    simp only at hl
    omega
  armed := e.armed ▸ le_tally (f := fun p : OpId × Op => p.2.multishot.toNat) active
  pooled := e.pooled
  native := e.native ▸ le_tally (f := fun p : OpId × Op => p.2.native.toNat) active
  port := e.undelivered ▸ le_tally (f := fun p : OpId × Op => p.2.port.toNat) active

lemma Exact.due_le (e : Exact b) (live : (h, r) ∈ b.handles) : r.due ≤ b.refs := by
  have hl := le_tally (f := due) live
  have he := e.refs
  change r.due ≤ _ at hl
  omega

def disarmed : Kind → Kind
  | .timer _ repeats => .timer none repeats
  | kind => kind

lemma disarmed_same (kind : Kind) : kind.Same (disarmed kind) := by
  cases kind <;> simp [disarmed, Kind.Same]

lemma disarmed_unarmed (op : OpId) (repeats : Option Duration) : disarmed kind ≠ .timer (some op) repeats := by
  cases kind <;> simp [disarmed]

end Books

namespace Driver

variable {A : Leave} {d : Driver} {id : OpId} {o raw : Op} {h : Handle} {r : Resource}

lemma check_eq {ok : Prop} [Decidable ok] (ho : ok) {f : Fault} : d.check ok f = d := if_pos ho

lemma subRefs_eq (hn : n ≤ d.refs) : d.subRefs n = { d with refs := d.refs - n } := by
  rw [subRefs, check_eq hn]

lemma subRefs_if (hn : referenced.toNat ≤ d.refs) :
    (if referenced = true then d.subRefs 1 else d) = { d with refs := d.refs - referenced.toNat } := by
  cases referenced with
  | false => rfl
  | true => exact subRefs_eq hn

lemma subOutstanding_eq (hn : 1 ≤ d.outstanding) : d.subOutstanding = { d with outstanding := d.outstanding - 1 } := by
  rw [subOutstanding, check_eq hn]

lemma subReserved_eq (hn : n ≤ d.reservedHandles) :
    d.subReserved n = { d with reservedHandles := d.reservedHandles - n } := by
  rw [subReserved, check_eq hn]

lemma subMultishotReserved_eq (hn : 1 ≤ d.multishotReserved) (hr : 1 ≤ d.reservedHandles) :
    d.subMultishotReserved = { d with
      multishotReserved := d.multishotReserved - 1
      reservedHandles := d.reservedHandles - 1 } := by
  rw [subMultishotReserved, check_eq hn, subReserved_eq (by exact hr)]

lemma retireMultishot_eq (armed : o.multishot.toNat ≤ d.multishotArmed)
    (pooled : d.multishotReserved ≤ d.multishotArmed) (covered : d.multishotReserved ≤ d.reservedHandles) :
    d.retireMultishot o = { d with
      multishotArmed := d.multishotArmed - o.multishot.toNat
      multishotReserved := min d.multishotReserved (d.multishotArmed - o.multishot.toNat)
      reservedHandles := d.reservedHandles -
        (d.multishotReserved - min d.multishotReserved (d.multishotArmed - o.multishot.toNat)) } := by
  rw [retireMultishot]
  cases hm : o.multishot with
  | false => simp [min_eq_left pooled]
  | true =>
    rw [hm, Bool.toNat_true] at armed
    simp only [if_true, check_eq armed, Bool.toNat_true]
    split
    case isTrue hl =>
      rw [subMultishotReserved_eq (by simp only; omega) (by simp only; omega)]
      have hi : min d.multishotReserved (d.multishotArmed - 1) = d.multishotReserved - 1 := by omega
      have ho : d.multishotReserved - (d.multishotReserved - 1) = 1 := by omega
      simp only [hi, ho]
    case isFalse hl =>
      have hi : min d.multishotReserved (d.multishotArmed - 1) = d.multishotReserved := by omega
      simp only [hi, Nat.sub_self, Nat.sub_zero]

lemma retireCounters_eq (native : o.native.toNat ≤ d.nativePending) (port : o.port.toNat ≤ d.undelivered) :
    d.retireCounters o = { d with
      nativePending := d.nativePending - o.native.toNat
      undelivered := d.undelivered - o.port.toNat } := by
  rw [retireCounters]
  cases hn : o.native <;> cases hp : o.port <;> simp_all [check]

lemma relinkOps_relinked (hv : d.ops.Valid) (o : Op) : Table.Relinked Op.bare d.ops (d.relinkOps o).ops := by
  unfold relinkOps
  generalize o.previous = p
  generalize o.next = n
  have hl (q m : Option OpId) {t : Table Op} (ht : t.Valid) (k : Key) :
      Table.Relinked Op.bare t (t.modify k fun op => { op with next := m }) ∧
        Table.Relinked Op.bare t (t.modify k fun op => { op with previous := q }) :=
    ⟨Table.modify_relinked ht k fun _ => rfl, Table.modify_relinked ht k fun _ => rfl⟩
  rcases p with _ | p <;> rcases n with _ | n
  · exact .refl hv
  · exact (hl none none hv _).2
  · exact (hl none none hv _).1
  · have hf := (hl none (some n) hv p.key).1
    exact hf.trans (hl (some p) none hf.valid _).2

lemma retire_eq (s : d.Sound) (mine : id.owner = d.owner) (hr : d.ops.get id.key = some raw)
    (covers : d.books.Covers raw.bare) :
    ∃ ops connectDeadlines, Table.Later d.ops ops ∧ d.active = (id, raw.bare) ::ₘ ops.view (OpId.mk d.owner) Op.bare ∧
      d.retire id = (retireHandle { d with
        ops := ops
        connectDeadlines := connectDeadlines
        reservedHandles := d.reservedHandles - raw.reservedHandles -
          (d.multishotReserved - min d.multishotReserved (d.multishotArmed - raw.multishot.toNat))
        multishotArmed := d.multishotArmed - raw.multishot.toNat
        multishotReserved := min d.multishotReserved (d.multishotArmed - raw.multishot.toNat)
        nativePending := d.nativePending - raw.native.toNat
        undelivered := d.undelivered - raw.port.toNat } id raw, some raw) := by
  obtain ⟨ho, removed⟩ := Table.remove_removed s.ops hr
  have he : raw.reservedHandles + d.multishotReserved ≤ d.reservedHandles := covers.reserved
  have relinked : Table.Relinked Op.bare (d.ops.remove id.key).1 _ :=
    relinkOps_relinked (d := { d with ops := (d.ops.remove id.key).1 }) removed.valid raw
  refine ⟨_, (d.connectDeadlines.cancel id.key).1, removed.later.trans relinked.toLater, ?_, ?_⟩
  · rw [relinked.view]
    exact Sound.op_mk mine ▸ removed.view
  · have hp : d.ops.remove id.key = ((d.ops.remove id.key).1, some raw) := Prod.ext rfl ho
    unfold retire
    rw [hp]
    simp only
    rw [subReserved_eq (by simp only; omega), retireMultishot_eq (by exact covers.armed) (by exact covers.pooled)
      (by simp only; omega), retireCounters_eq (by exact covers.native) (by exact covers.port)]
    rfl

lemma retire_loose (s : d.Sound) (mine : id.owner = d.owner) (hr : d.ops.get id.key = some raw)
    (covers : d.books.Covers raw.bare) (loose : raw.handle = none) (refs : 1 ≤ d.refs) :
    ∃ R, d.books.ops = (id, raw.bare) ::ₘ R ∧
      Becomes d (d.retire id).1 { d.books.leave raw.bare R with refs := d.refs - 1 } := by
  obtain ⟨ops, _, later, ha, he⟩ := retire_eq s mine hr covers
  refine ⟨_, ha, ?_⟩
  rw [he, retireHandle, loose]
  simp only
  rw [subRefs_eq (by exact refs)]
  exact ⟨s.edit rfl (.refl s.handles) later (fun _ hh => hh) (fun _ hh => hh), rfl, rfl⟩

lemma retire_on (s : d.Sound) (mine : id.owner = d.owner)
    (hr : d.ops.get id.key = some raw) (covers : d.books.Covers raw.bare) (on : raw.handle = some h)
    (live : d.books.handles = (h, r) ::ₘ S) (pending : 1 ≤ r.pending) (refs : r.referenced.toNat ≤ d.refs) :
    ∃ R, d.books.ops = (id, raw.bare) ::ₘ R ∧ Becomes d (d.retire id).1 { d.books.leave raw.bare R with
        handles := (h, { r with pending := r.pending - 1, kind := Books.disarmed r.kind }) ::ₘ S
        refs := d.refs - r.referenced.toNat } := by
  obtain ⟨ops, _, later, ha, he⟩ := retire_eq s mine hr covers
  obtain ⟨-, ra, hw, hb⟩ := s.mem_live.mp (mem_head live)
  have hp : 1 ≤ ra.pending := by
    rw [← hb] at pending
    exact pending
  have hc : ra.referenced = r.referenced := by rw [← hb]; rfl
  have hd : (d.handles.modify h.key fun r => r.unlink id raw).view (.mk d.owner) Resource.bare =
      (h, { r with pending := r.pending - 1, kind := Books.disarmed r.kind }) ::ₘ S := by
    refine s.live_modify live fun raw' hr' => ?_
    rw [← hr']
    cases hk : raw'.kind <;> simp [Resource.unlink, Resource.bare, Books.disarmed, hk]
  have hl := Table.modify_later s.handles h.key fun r => r.unlink id raw
  refine ⟨_, ha, ?_⟩
  rw [he, retireHandle, on]
  simp only [hw]
  rw [check_eq hp, hc, subRefs_if (by exact refs)]
  refine ⟨s.edit rfl hl later (fun _ hh => hh) (fun _ hh => hh), rfl, ?_⟩
  simp only [books, Driver.live, active]
  rw [hd, Table.modify_remaining]
  rfl

lemma enqueue_eq (d : Driver) (c : Completion) (referenced : Bool) : d.enqueue c referenced = { d with
      buffered := (d.books.push c referenced).buffered
      refs := d.refs + referenced.toNat
      queued := d.queued ++ [⟨c, referenced, eventClass c⟩]
      faults := d.faults ++ d.books.crowded c } := by
  simp only [enqueue, Books.push, Books.crowded, books, ite_toNat]
  cases hc : eventClass c with
  | none =>
    by_cases hq : d.queued.length < d.completionCapacity <;> simp [check, hq]
  | some k =>
    by_cases hk : d.buffered k < d.config.eventsPerTurn <;>
      by_cases hq : d.queued.length < d.completionCapacity <;> simp [check, hk, hq]

lemma Becomes.enqueue (p : Becomes d d' b) (c : Completion) (referenced : Bool) :
    Becomes d (d'.enqueue c referenced) (b.push c referenced) := by
  obtain ⟨s, owner, rfl⟩ := p
  rw [enqueue_eq]
  exact ⟨{ s with }, owner, rfl⟩

end Driver

end Turnloop
