import Turnloop.Table.View
import Turnloop.Driver.Calm

/-! The books that a driver keeps, and the drivers that keep them. -/

namespace Turnloop

open Table (Key)
open Lib

def Resource.bare (r : Resource) : Resource := { r with head := none, tail := none }

def Op.bare (o : Op) : Op := { o with previous := none, next := none }

namespace Books

structure Balanced (b : Books) : Prop where
  kept : Kept b
  exact_ : Exact b
  stamped : Stamped b
  ledger : Ledger b
  closing : Closing b

variable {A : Leave} {b b' : Books}

lemma Balanced.step (g : Balanced b) (step : Step A b b') : Balanced b' where
  kept := g.kept.step step
  exact_ := g.exact_.step g.kept step
  stamped := g.stamped.step g.kept step
  ledger := g.ledger.step g.kept step
  closing := g.closing.step g.kept step

lemma Balanced.steps (g : Balanced b) (steps : Steps A b b') : Balanced b' := by
  induction steps with
  | refl => exact g
  | tail _ step ih => exact ih.step step

end Books

namespace Driver

variable {A : Leave} {d d' d'' : Driver} {h : Handle} {r : Resource} {id : OpId} {o : Op}

def live (d : Driver) : Multiset (Handle × Resource) := d.handles.view (Handle.mk d.owner) Resource.bare

def active (d : Driver) : Multiset (OpId × Op) := d.ops.view (OpId.mk d.owner) Op.bare

def books (d : Driver) : Books where
  config := d.config
  completionCapacity := d.completionCapacity
  remaining := d.handles.remaining
  handles := d.live
  ops := d.active
  queued := d.queued
  buffered := d.buffered
  refs := d.refs
  outstanding := d.outstanding
  reservedHandles := d.reservedHandles
  multishotArmed := d.multishotArmed
  multishotReserved := d.multishotReserved
  nativePending := d.nativePending
  undelivered := d.undelivered
  trace := d.trace
  faults := d.faults

structure Sound (d : Driver) : Prop where
  handles : d.handles.Valid
  ops : d.ops.Valid
  created : ∀ h, .created h ∈ d.trace → h.owner = d.owner ∧ d.handles.Used h.key
  accepted : ∀ id, .accepted id ∈ d.trace → id.owner = d.owner ∧ d.ops.Used id.key

structure Good (d : Driver) : Prop where
  sound : d.Sound
  balanced : d.books.Balanced

lemma Good.reserve (g : d.Good) : d.multishotReserved ≤ d.reservedHandles ∧ d.reservedHandles ≤ d.handles.remaining :=
  ⟨(Nat.le_add_left _ _).trans_eq g.balanced.exact_.reserved.symm, g.balanced.exact_.room⟩

structure Becomes (d d' : Driver) (b : Books) : Prop where
  sound : d'.Sound
  owner : d'.owner = d.owner
  books : d'.books = b

/-- `d'` keeps its books in order, and they follow from those of `d`. -/
structure Refines (A : Leave) (d d' : Driver) : Prop where
  good : d'.Good
  owner : d'.owner = d.owner
  steps : Books.Steps A d.books d'.books

namespace Becomes

lemma refl (s : d.Sound) : Becomes d d d.books := ⟨s, rfl, rfl⟩

end Becomes

namespace Refines

lemma refl (g : d.Good) : Refines A d d := ⟨g, rfl, .refl⟩

lemma trans (p : Refines A d d') (p' : Refines A d' d'') : Refines A d d'' :=
  ⟨p'.good, p'.owner.trans p.owner, p.steps.trans p'.steps⟩

lemma of_steps (g : d.Good) (becomes : Becomes d d' b) (steps : Books.Steps A d.books b) : Refines A d d' := by
  obtain ⟨sound, owner, rfl⟩ := becomes
  exact ⟨⟨sound, g.balanced.steps steps⟩, owner, steps⟩

lemma of_step (g : d.Good) (becomes : Becomes d d' b) (step : Books.Step A d.books b) : Refines A d d' :=
  of_steps g becomes (.single step)

lemma of_same (g : d.Good) (becomes : Becomes d d' d.books) : Refines A d d' := of_steps g becomes .refl

end Refines

namespace Sound

lemma edit (s : d.Sound) (owner : d'.owner = d.owner) (handles : Table.Later d.handles d'.handles)
    (ops : Table.Later d.ops d'.ops) (created : ∀ h, .created h ∈ d'.trace → .created h ∈ d.trace)
    (accepted : ∀ id, .accepted id ∈ d'.trace → .accepted id ∈ d.trace) : d'.Sound where
  handles := handles.valid
  ops := ops.valid
  created := fun h hh => (s.created h (created h hh)).imp (·.trans owner.symm) (handles.used _)
  accepted := fun id hi => (s.accepted id (accepted id hi)).imp (·.trans owner.symm) (ops.used _)

lemma handle_mk (mine : h.owner = d.owner) : Handle.mk d.owner h.key = h := by rw [← mine]

lemma op_mk (mine : id.owner = d.owner) : OpId.mk d.owner id.key = id := by rw [← mine]

lemma handle_injective {owner : ℕ} : (Handle.mk owner).Injective := fun _ _ he => (Handle.mk.inj he).2

lemma op_injective {owner : ℕ} : (OpId.mk owner).Injective := fun _ _ he => (OpId.mk.inj he).2

variable (s : d.Sound)
include s

lemma mem_live : (h, r) ∈ d.live ↔ h.owner = d.owner ∧ ∃ raw, d.handles.get h.key = some raw ∧ raw.bare = r := by
  constructor
  · intro hm
    obtain ⟨k, raw, he, hr⟩ := Table.exists_of_mem_view s.handles hm
    obtain ⟨rfl, rfl⟩ := Prod.mk.inj he
    exact ⟨rfl, raw, hr, rfl⟩
  · rintro ⟨mine, hr⟩
    rw [← handle_mk mine]
    exact (Table.mem_view s.handles handle_injective).mpr hr

lemma mem_active : (id, o) ∈ d.active ↔ id.owner = d.owner ∧ ∃ raw, d.ops.get id.key = some raw ∧ raw.bare = o := by
  constructor
  · intro hm
    obtain ⟨k, raw, he, hr⟩ := Table.exists_of_mem_view s.ops hm
    obtain ⟨rfl, rfl⟩ := Prod.mk.inj he
    exact ⟨rfl, raw, hr, rfl⟩
  · rintro ⟨mine, hr⟩
    rw [← op_mk mine]
    exact (Table.mem_view s.ops op_injective).mpr hr

lemma live_modify (live : d.live = (h, r) ::ₘ S)
    (hf : ∀ raw, raw.bare = r → (f raw).bare = r') :
    (d.handles.modify h.key f).view (Handle.mk d.owner) Resource.bare = (h, r') ::ₘ S := by
  have mine := (s.mem_live.mp (mem_head live)).1
  have hv := handle_mk mine ▸ live
  rw [Table.view_modify s.handles handle_injective hv fun raw _ => hf raw, handle_mk mine]

lemma active_modify (active : d.active = (id, o) ::ₘ R)
    (hf : ∀ raw, raw.bare = o → (f raw).bare = o') :
    (d.ops.modify id.key f).view (OpId.mk d.owner) Op.bare = (id, o') ::ₘ R := by
  have mine := (s.mem_active.mp (mem_head active)).1
  have hv := op_mk mine ▸ active
  rw [Table.view_modify s.ops op_injective hv fun raw _ => hf raw, op_mk mine]

lemma set_handle (live : d.live = (h, r) ::ₘ S) (r' : Resource)
    (hf : ∀ raw, raw.bare = r → (f raw).bare = r') :
    Becomes d { d with handles := d.handles.modify h.key f } { d.books with handles := (h, r') ::ₘ S } := by
  refine ⟨s.edit rfl (Table.modify_later s.handles _ _) (.refl s.ops) (fun _ hh => hh) (fun _ hh => hh), rfl, ?_⟩
  simp only [books, Driver.live, active]
  rw [s.live_modify live hf, Table.modify_remaining]

lemma set_op (active : d.active = (id, o) ::ₘ R) (o' : Op)
    (hf : ∀ raw, raw.bare = o → (f raw).bare = o') :
    Becomes d { d with ops := d.ops.modify id.key f } { d.books with ops := (id, o') ::ₘ R } := by
  refine ⟨s.edit rfl (.refl s.handles) (Table.modify_later s.ops _ _) (fun _ hh => hh) (fun _ hh => hh), rfl, ?_⟩
  simp only [books, Driver.live, Driver.active]
  rw [s.active_modify active hf]

end Sound

end Driver

end Turnloop
