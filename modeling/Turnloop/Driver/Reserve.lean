import Turnloop.Driver.Host

/-! Connections take the slots promised to the operations that accept them. -/

namespace Turnloop

open Lib Option

namespace Books

variable {A : Leave} {b b' : Books} {h : Handle}

def spare (b : Books) : ℕ := b.remaining - (b.reservedHandles - b.multishotReserved)

lemma spare_leave (b : Books) (o : Op) (R : Multiset (OpId × Op)) : b.spare ≤ (b.leave o R).spare := by
  simp only [spare, leave]
  omega

lemma Step.spare_le (opens : ¬A.opens) (issues : ¬A.issues) (step : Step A b b') : b.spare ≤ b'.spare := by
  cases step with
  | opened _ _ _ _ _ leave => exact absurd leave opens
  | issued _ _ _ _ _ _ _ leave | issuedLoose _ _ leave => exact absurd leave issues
  | dropped _ _ _ _ _ _ le | drainedClosed _ _ _ _ _ le => exact Nat.sub_le_sub_right le _
  | took => exact Nat.sub_le_sub_left (Nat.sub_le_sub_right (Nat.sub_le _ _) _) _
  | pooled _ _ even =>
    simp only [spare]
    omega
  | @finished _ _ _ _ o R | @finishedLoose _ o R => exact spare_leave b o R
  | tuned | flagged | refused | polled | notified | posted | closeQueued | referenced | closing | drained =>
    exact le_rfl

lemma Steps.spare_le (opens : ¬A.opens) (issues : ¬A.issues) (steps : Steps A b b') : b.spare ≤ b'.spare := by
  induction steps with
  | refl => exact le_rfl
  | tail _ step ih => exact ih.trans (step.spare_le opens issues)

lemma Step.buffered_le (notifies : ¬A.notifies) (step : Step A b b') (k : EventClass) :
    b'.buffered k ≤ b.buffered k := by
  have hi {c : Completion} (none : Driver.eventClass c = none) : (b.push c false).buffered k ≤ b.buffered k := by
    simp [push_buffered, none]
  cases step with
  | notified _ _ _ _ leave | posted _ _ leave => exact absurd leave notifies
  | finished _ _ _ _ _ ordinary | finishedLoose _ _ ordinary => exact hi (class_of_final rfl ordinary)
  | @closeQueued h _ _ token => exact hi (c := ⟨token, none, some h, true, .closed⟩) rfl
  | @drained q rest | @drainedClosed q rest => exact (shift_buffered b q rest k).le.trans (Nat.sub_le _ _)
  | opened | dropped | tuned | issued | issuedLoose | flagged | took | pooled | refused | polled | referenced
  | closing => exact le_rfl

lemma Steps.buffered_le (notifies : ¬A.notifies) (steps : Steps A b b') (k : EventClass) :
    b'.buffered k ≤ b.buffered k := by
  induction steps with
  | refl => exact le_rfl
  | tail _ step ih => exact (step.buffered_le notifies k).trans ih

lemma Step.config (step : Step A b b') : b'.config = b.config := by
  cases step <;> rfl

lemma Steps.config (steps : Steps A b b') : b'.config = b.config := by
  induction steps with
  | refl => rfl
  | tail _ step ih => exact step.config.trans ih

end Books

namespace Driver

variable {A : Leave} {d d' : Driver} {h : Handle} {r : Resource} {id : OpId} {raw : Op}

lemma newHandle_isOk (s : d.Sound) (room : d.reservedHandles < d.handles.remaining) :
    (d.newHandle kind).2.isOk = true := by
  obtain ⟨key, hk, -⟩ := Table.insert_inserted s.handles (.fresh kind) (Nat.zero_lt_of_lt room)
  have hp : d.handles.insert (.fresh kind) = ((d.handles.insert (.fresh kind)).1, some key) := Prod.ext rfl hk
  rw [newHandle, if_neg (Nat.not_le_of_lt room), hp]
  rfl

lemma refuse_refines (g : d.Good) (leave : A.noRoom) : Refines A d { d with faults := d.faults ++ [Fault.noRoom] } :=
  .of_step g ⟨{ g.sound with }, rfl, rfl⟩ (.refused leave)

lemma house_refines (g : d.Good) (opens : A.opens) (room : A.noRoom ∨ d.reservedHandles < d.handles.remaining)
    (attached : Handle → Result Unit) : Refines A d (d.house attached).1 := by
  rw [house]
  by_cases ho : (d.newHandle .socket).2.isOk = true
  · rw [check_eq ho]
    exact attach_refines g attached A opens
  · have hl : A.noRoom := room.resolve_right fun ht => ho (newHandle_isOk g.sound ht)
    have hr := refuse_refines g hl
    rw [check, if_neg ho]
    exact hr.trans (attach_refines hr.good attached A opens)

lemma house_ok (g : d.Good) (hn : d.house attached = (d', .ok h)) : (h, .fresh .socket) ∈ d'.live := by
  rw [house, check] at hn
  split at hn
  · exact mem_head (attach_ok g hn)
  · exact mem_head (attach_ok (refuse_refines (A := .all) g trivial).good hn)

lemma refill_refines (n : ℕ) (g : d.Good) : Refines A d (refill n d) := by
  induction n generalizing d with
  | zero => exact .refl g
  | succ n ih =>
    rw [refill]
    split
    case isFalse => exact .refl g
    case isTrue hr =>
      have hp : Refines A d { d with
          multishotReserved := d.multishotReserved + 1
          reservedHandles := d.reservedHandles + 1 } :=
        .of_step g ⟨{ g.sound with }, rfl, rfl⟩
          (.pooled _ _ (Nat.add_right_comm d.reservedHandles 1 d.multishotReserved) hr.1 hr.2)
      exact hp.trans (ih hp.good)

def Roomy (d : Driver) (raw : Op) : Prop := if raw.multishot = true then 0 < d.budget else 0 < raw.reservedHandles

lemma yield_refines (g : d.Good) : Refines A d (if d.multishotReserved ≠ 0 then d.subMultishotReserved else d) := by
  split
  case isFalse => exact .refl g
  case isTrue hp =>
    obtain ⟨hr, ho⟩ := g.reserve
    have hb : d.multishotReserved ≤ d.multishotArmed := g.balanced.exact_.pooled
    rw [subMultishotReserved_eq (by omega) (by omega)]
    refine .of_step g ⟨{ g.sound with }, rfl, rfl⟩ (.pooled _ _ ?_ ?_ ?_)
    · change d.reservedHandles - 1 + d.multishotReserved = d.reservedHandles + (d.multishotReserved - 1)
      omega
    · exact (Nat.sub_le _ _).trans hb
    · exact (Nat.sub_le _ _).trans ho

lemma yield_room (g : d.Good) (room : 0 < d.budget) :
    Driver.reservedHandles (if d.multishotReserved ≠ 0 then d.subMultishotReserved else d) <
      Table.remaining (Driver.handles (if d.multishotReserved ≠ 0 then d.subMultishotReserved else d)) := by
  obtain ⟨hr, ho⟩ := g.reserve
  rw [budget] at room
  split
  case isTrue hp =>
    rw [subMultishotReserved_eq (by omega) (by omega)]
    simp only
    omega
  case isFalse hz => omega

lemma spend_eq (g : d.Good) (mine : id.owner = d.owner) (hr : d.ops.get id.key = some raw) :
    subReserved { d with ops := d.ops.modify id.key fun op => { op with reservedHandles := 0 } } raw.reservedHandles =
      { d with
        ops := d.ops.modify id.key fun op => { op with reservedHandles := 0 }
        reservedHandles := d.reservedHandles - raw.reservedHandles } := by
  have hc := g.balanced.exact_.covers (g.sound.mem_active.mpr ⟨mine, raw, hr, rfl⟩)
  exact subReserved_eq (Nat.le_of_add_right_le hc.reserved)

lemma spend_refines (g : d.Good) (mine : id.owner = d.owner) (hr : d.ops.get id.key = some raw) (take : A.take id) :
    Refines A d { d with
      ops := d.ops.modify id.key fun op => { op with reservedHandles := 0 }
      reservedHandles := d.reservedHandles - raw.reservedHandles } := by
  obtain ⟨R, hR⟩ := Multiset.exists_cons_of_mem (g.sound.mem_active.mpr ⟨mine, raw, hr, rfl⟩)
  have he := g.sound.set_op hR { raw.bare with reservedHandles := 0 }
    (f := fun op => { op with reservedHandles := 0 }) fun raw' hr' =>
      congrArg (fun o : Op => { o with reservedHandles := 0 }) hr'
  exact .of_step g ⟨{ he.sound with }, he.owner, congrArg (fun b : Books => { b with
    reservedHandles := d.reservedHandles - raw.reservedHandles }) he.books⟩ (.took take hR)

lemma attachReserved_refines (g : d.Good) (mine : id.owner = d.owner) (hr : d.ops.get id.key = some raw)
    (opens : A.opens) (take : A.take id) (room : A.noRoom ∨ d.Roomy raw) (attached : Handle → Result Unit) :
    Refines A d (d.attachReserved id attached).1 := by
  rw [attachReserved]
  simp only [hr, any_some, map_some, getD_some]
  rw [Roomy] at room
  split
  case isTrue hm =>
    rw [if_pos hm] at room
    have hy : Refines A d _ := yield_refines g
    have hh := hy.trans (house_refines hy.good opens (room.imp_right (yield_room g)) attached)
    exact hh.trans (refill_refines _ hh.good)
  case isFalse hm =>
    rw [if_neg hm] at room
    have hp : Refines A d _ := spend_refines g mine hr take
    have hc := g.balanced.exact_.covers (g.sound.mem_active.mpr ⟨mine, raw, hr, rfl⟩)
    have hf := g.reserve.2
    have hl : raw.reservedHandles ≤ d.reservedHandles := Nat.le_of_add_right_le hc.reserved
    rw [spend_eq g mine hr]
    refine hp.trans (house_refines hp.good opens (room.imp_right fun ho => ?_) attached)
    simp only
    omega

lemma refill_live (n : ℕ) (d : Driver) : (refill n d).live = d.live := by
  induction n generalizing d with
  | zero => rfl
  | succ n ih =>
    rw [refill]
    split
    · exact ih _
    · rfl

lemma attachReserved_ok (g : d.Good) (mine : id.owner = d.owner) (hr : d.ops.get id.key = some raw)
    (hn : d.attachReserved id attached = (d', .ok h)) :
    (h, .fresh .socket) ∈ d'.live := by
  rw [attachReserved] at hn
  simp only [hr, any_some, map_some, getD_some] at hn
  split at hn
  · obtain ⟨rfl, hh⟩ := Prod.mk.inj hn
    have hy : Refines .none d _ := yield_refines g
    rw [refill_live]
    exact house_ok hy.good (Prod.ext rfl hh)
  · rw [spend_eq g mine hr] at hn
    exact house_ok (spend_refines (A := .all) g mine hr trivial).good hn

lemma house_spare (g : d.Good) (attached : Handle → Result Unit) :
    d.books.spare ≤ (d.house attached).1.books.spare + 1 := by
  have ha {d : Driver} (g : d.Good) : d.books.spare ≤ (d.attach attached).1.books.spare + 1 := by
    rw [attach]
    rcases newHandle_cases d .socket with ⟨e, hn⟩ | ⟨d₁, h, hn⟩ <;> rw [hn]
    · exact Nat.le_succ _
    · obtain ⟨⟨_, _, _, hr, hd₁⟩, ho, hl⟩ := newHandle_ok g (by simp) hn
      have hp : d.books.spare ≤ d₁.books.spare + 1 := by
        rw [hd₁]
        simp only [books, Books.spare, hr]
        omega
      simp only
      cases attached h with
      | ok => exact hp
      | error e =>
        have hm : Refines .none d₁ _ := removeSocket_refines (ho .all trivial).good (mem_head hl)
        exact hp.trans (Nat.succ_le_succ (Books.Steps.spare_le (fun hf => hf) (fun hf => hf) hm.steps))
  rw [house, check]
  split
  · exact ha g
  · exact ha (refuse_refines (A := .all) g trivial).good

lemma attachReserved_spare (g : d.Good) (mine : id.owner = d.owner) (hr : d.ops.get id.key = some raw)
    (attached : Handle → Result Unit) :
    d.books.spare + (if raw.multishot = true then 0 else raw.reservedHandles) ≤
      (d.attachReserved id attached).1.books.spare + 1 := by
  have hg {d d' : Driver} (refines : Refines .none d d') : d.books.spare ≤ d'.books.spare :=
    Books.Steps.spare_le (fun hf => hf) (fun hf => hf) refines.steps
  rw [attachReserved]
  simp only [hr, any_some, map_some, getD_some]
  split
  case isTrue hm =>
    have hy : Refines .none d _ := yield_refines g
    have hh : Refines .all _ _ := house_refines hy.good trivial (.inl trivial) attached
    have he (n : ℕ) : Refines .none _ _ := refill_refines n hh.good
    exact (hg hy).trans ((house_spare hy.good attached).trans (Nat.succ_le_succ (hg (he _))))
  case isFalse hm =>
    have hp := spend_refines (A := .all) g mine hr trivial
    have hs := house_spare hp.good attached
    have hc := g.balanced.exact_.covers (g.sound.mem_active.mpr ⟨mine, raw, hr, rfl⟩)
    have hb : raw.reservedHandles + d.multishotReserved ≤ d.reservedHandles := hc.reserved
    have ho := g.reserve.2
    rw [spend_eq g mine hr]
    refine le_trans ?_ hs
    simp only [books, Books.spare]
    omega

end Driver

end Turnloop
