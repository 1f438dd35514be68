import Turnloop.Driver.Closing

/-! The completion queue never outgrows its capacity while every class keeps to its reserve. -/

namespace Turnloop.Books

open Lib List Multiset

variable {A : Leave} {b b' : Books} {c : Completion} {h : Handle} {r : Resource} {S : Multiset (Handle × Resource)}

structure Calm (b : Books) : Prop where
  reserve : ∀ k, b.buffered k ≤ b.config.eventsPerTurn
  capacity : b.completionCapacity = 3 * b.config.eventsPerTurn + b.config.maxOperations + b.config.maxHandles
  classes : .classFull ∉ b.faults
  queue : .queueFull ∉ b.faults

def closer (q : Queued) : Option Handle := if q.completion.result = .closed then q.completion.handle else none

lemma closer_eq_some {q : Queued} : closer q = some h ↔ q.completion.closes h := by
  rw [closer]
  split
  case isTrue hc => simp [Completion.closes, hc]
  case isFalse hc => simp [Completion.closes, hc]

def closers (b : Books) : List Handle := b.queued.filterMap closer

lemma closers_nodup (l : Closing b) : b.closers.Nodup := by
  have hl := (pairwise_append.mp l.last).2.1
  rw [closers, List.Nodup, pairwise_filterMap]
  rw [pairwise_map] at hl
  refine hl.imp fun {q q'} hf h hq h' hq' he => ?_
  subst he
  exact hf h (closer_eq_some.mp hq) (.inl (closer_eq_some.mp hq').2)

lemma closers_le (l : Closing b) : b.closers.length ≤ b.handles.countP (·.2.closedQueued = true) := by
  have hl : (b.closers : Multiset Handle) ≤ (b.handles.filter (·.2.closedQueued = true)).map Prod.fst := by
    rw [le_iff_subset (coe_nodup.mpr (closers_nodup l))]
    intro h hh
    obtain ⟨q, hq, hc⟩ := mem_filterMap.mp (mem_coe.mp hh)
    obtain ⟨r, hr, hd⟩ := (l.queued h).mp ⟨q, hq, closer_eq_some.mp hc⟩
    exact mem_map.mpr ⟨(h, r), mem_filter.mpr ⟨hr, hd⟩, rfl⟩
  have ha := card_le_card hl
  rwa [coe_card, card_map, ← countP_eq_card_filter] at ha

lemma proper_counted {q : Queued} (p : Proper b q) :
    1 ≤ q.final.toNat + (closer q).isSome.toNat + (ofClass .native q + ofClass .timer q + ofClass .post q) := by
  cases p.shaped with
  | ordinary id named ordinary =>
    cases ht : q.completion.terminal with
    | true =>
      have hf : q.final = true := by simp [Queued.final, ht, named]
      simp only [hf, Bool.toNat_true]
      omega
    | false =>
      have hl : q.eventClass = some .timer ∨ q.eventClass = some .native := by
        rw [p.sorted, Driver.eventClass]
        cases hr : q.completion.result <;> simp_all [OpResult.Ordinary]
      rcases hl with hc | hc <;> simp [ofClass, hc]
  | closed h un final closes =>
    simp only [closer_eq_some.mpr closes, Option.isSome_some, Bool.toNat_true]
    omega
  | posted p' un unplaced final result =>
    have hl : q.eventClass = some .post := by rw [p.sorted, Driver.eventClass, result]
    simp [ofClass, hl]

lemma length_le (s : Stamped b) : b.queued.length ≤ total (·.final.toNat) b.queued + b.closers.length +
      (total (ofClass .native) b.queued + total (ofClass .timer) b.queued + total (ofClass .post) b.queued) := by
  have ha : ∀ l : List Queued, (∀ q ∈ l, Proper b q) → l.length ≤
      total (·.final.toNat) l + (l.filterMap closer).length +
        (total (ofClass .native) l + total (ofClass .timer) l + total (ofClass .post) l) := by
    intro l
    induction l with
    | nil => simp
    | cons q l ih =>
      intro hl
      have hq := proper_counted (hl q (mem_cons_self ..))
      have hr := ih fun q' hq' => hl q' (mem_cons_of_mem _ hq')
      rw [List.filterMap_cons]
      cases hc : closer q with
      | none =>
        simp only [hc, length_cons, total_cons, Option.isSome_none, Bool.toNat_false] at hq ⊢
        omega
      | some h =>
        simp only [hc, length_cons, total_cons, Option.isSome_some, Bool.toNat_true] at hq ⊢
        omega
  exact ha b.queued s

lemma class_of_open (open_ : c.terminal = false) : ∃ k, Driver.eventClass c = some k := by
  rw [Driver.eventClass]
  cases c.result <;> simp [open_]

lemma class_of_final (final : c.terminal = true) (ordinary : c.result.Ordinary) : Driver.eventClass c = none := by
  rw [Driver.eventClass]
  cases hr : c.result <;> simp_all [OpResult.Ordinary]

lemma queue_le (e : Exact b) (s : Stamped b) (l : Closing b) :
    b.queued.length + b.ops.card ≤ b.config.maxOperations + b.handles.countP (·.2.closedQueued = true) +
      (b.buffered .native + b.buffered .timer + b.buffered .post) := by
  have hl := length_le s
  have hc := closers_le l
  have ho := e.outstanding
  have hm := e.outstanding_le
  rw [e.buffered .native, e.buffered .timer, e.buffered .post]
  omega

namespace Calm

lemma frame (m : Calm b) (config : b'.config = b.config) (capacity : b'.completionCapacity = b.completionCapacity)
    (buffered : ∀ k, b'.buffered k ≤ b.buffered k) {es : List Fault} (faults : b'.faults = b.faults ++ es)
    (calm : ∀ f ∈ es, f ≠ .classFull ∧ f ≠ .queueFull) : Calm b' where
  reserve := fun k => config ▸ (buffered k).trans (m.reserve k)
  capacity := by rw [capacity, config]; exact m.capacity
  classes := by
    rw [faults, mem_append, not_or]
    exact ⟨m.classes, fun hf => (calm _ hf).1 rfl⟩
  queue := by
    rw [faults, mem_append, not_or]
    exact ⟨m.queue, fun hf => (calm _ hf).2 rfl⟩

lemma push (m : Calm b) (room : ∀ k, Driver.eventClass c = some k → b.buffered k < b.config.eventsPerTurn)
    (space : b.queued.length < b.completionCapacity) (config : b'.config = b.config)
    (capacity : b'.completionCapacity = b.completionCapacity)
    (buffered : ∀ k, b'.buffered k = (b.push c false).buffered k)
    (faults : b'.faults = (b.push c false).faults) : Calm b' := by
  have hr : b.crowded c = [] := by
    rw [crowded, if_pos space]
    cases hc : Driver.eventClass c with
    | none => rfl
    | some k => simp [room k hc]
  have hf : b'.faults = b.faults := by rw [faults, Books.push, hr, append_nil]
  refine ⟨fun k => ?_, by rw [capacity, config]; exact m.capacity, hf ▸ m.classes, hf ▸ m.queue⟩
  rw [buffered, push_buffered, config]
  by_cases hk : Driver.eventClass c = some k
  · simpa [hk] using room k hk
  · simpa [hk] using m.reserve k

lemma step (hA : ¬A.crowd) (e : Exact b) (s : Stamped b) (l : Closing b) (m : Calm b)
    (step : Step A b b') : Calm b' := by
  have hq := queue_le e s l
  have hl := e.slots
  have hn := m.reserve .native
  have ht := m.reserve .timer
  have hp := m.reserve .post
  have hc := m.capacity
  have hm : b.handles.countP (·.2.closedQueued = true) ≤ b.handles.card := countP_le_card _ _
  cases step with
  | opened | dropped | tuned | issued | issuedLoose | flagged | took | pooled | polled | referenced | closing =>
    exact m.frame rfl rfl (fun _ => le_rfl) (append_nil _).symm (by simp)
  | refused => exact m.frame rfl rfl (fun _ => le_rfl) rfl (by simp)
  | @notified id o result active ordinary introduces room =>
    have hr := fun k hk => (room k hk).resolve_left hA
    refine m.push hr ?_ rfl rfl (fun _ => rfl) rfl
    obtain ⟨k, hk⟩ := class_of_open (c := ⟨o.token, some id, o.handle, false, result⟩) rfl
    have hb := hr k hk
    cases k <;> omega
  | posted p room =>
    have hr := room.resolve_left hA
    refine m.push (fun k hk => ?_) (by omega) rfl rfl (fun _ => rfl) rfl
    obtain rfl : EventClass.post = k := by simpa [Driver.eventClass] using hk
    exact hr
  | finished shown kind active live on ordinary | finishedLoose active loose ordinary =>
    rw [active, card_cons] at hq
    refine m.push (fun k hk => ?_) (by omega) rfl rfl (fun _ => rfl) rfl
    rw [class_of_final rfl ordinary] at hk
    cases hk
  | @closeQueued h r S token live closing idle first =>
    rw [live, card_cons] at hl
    have hf : b.handles.countP (·.2.closedQueued = true) ≤ S.card := by
      rw [live, countP_cons_of_neg _ (by simp [first])]
      exact countP_le_card _ _
    exact m.push (c := ⟨token, none, some h, true, .closed⟩) (by simp [Driver.eventClass]) (by omega) rfl rfl
      (fun _ => rfl) rfl
  | drained =>
    refine m.frame rfl rfl (fun k => ?_) (append_nil _).symm (by simp)
    rw [shift_buffered]
    exact Nat.sub_le _ _
  | @drainedClosed q rest =>
    refine m.frame rfl rfl (fun k => ?_) (append_nil _).symm (by simp)
    exact (shift_buffered b q rest k).le.trans (Nat.sub_le _ _)

end Calm

end Turnloop.Books
