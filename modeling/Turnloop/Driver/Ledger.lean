import Turnloop.Driver.Stamped

/-! Every accepted operation is active or has finished, once, and nothing follows its terminal completion. -/

namespace Turnloop.Books

open Lib List

variable {A : Leave} {b b' : Books} {c : Completion} {id : OpId} {o : Op} {R : Multiset (OpId × Op)}

def Active (b : Books) (id : OpId) : Prop := ∃ o, (id, o) ∈ b.ops

def Continues (c c' : Completion) : Prop := ∀ id, c.finishes id → c'.op ≠ some id

structure Ledger (b : Books) : Prop where
  once : b.stream.Pairwise Continues
  unfinished : ∀ id, b.Active id → ∀ c ∈ b.stream, ¬c.finishes id
  settled : ∀ id, .accepted id ∈ b.trace → b.Active id ∨ ∃ c ∈ b.stream, c.finishes id
  known : ∀ c ∈ b.stream, ∀ id, c.op = some id → .accepted id ∈ b.trace

lemma active_cons {ops : Multiset (OpId × Op)} (active : b.ops = (id, o) ::ₘ ops) (id' : OpId) :
    b.Active id' ↔ id' = id ∨ ∃ o', (id', o') ∈ ops := by
  constructor
  · rintro ⟨o', ho'⟩
    rw [active] at ho'
    exact (mem_replaced ho').imp And.left (fun hm => ⟨o', hm⟩)
  · rintro (rfl | ⟨o', ho'⟩)
    · exact ⟨o, mem_head active⟩
    · exact ⟨o', mem_rest active ho'⟩

lemma delivered_append {trace : List Effect} {es : List Effect} (none : ∀ e ∈ es, appended e = none) :
    (trace ++ es).filterMap appended = trace.filterMap appended := by
  rw [filterMap_append, filterMap_eq_nil_iff.mpr none, append_nil]

lemma stream_quiet (queued : b'.queued = b.queued) (trace : b'.trace = b.trace ++ es)
    (none : ∀ e ∈ es, appended e = none) : b'.stream = b.stream := by
  rw [stream, delivered, queued, trace, delivered_append none, stream, delivered]

lemma stream_push (queued : b'.queued = b.queued ++ [⟨c, referenced, k⟩]) (trace : b'.trace = b.trace) :
    b'.stream = b.stream ++ [c] := by
  simp [stream, delivered, queued, trace]

lemma stream_shift (oldest : b.queued = q :: rest) (queued : b'.queued = rest)
    (trace : b'.trace = b.trace ++ (.appended q.completion :: es))
    (none : ∀ e ∈ es, appended e = none) : b'.stream = b.stream := by
  have he : es.filterMap appended = [] := filterMap_eq_nil_iff.mpr none
  simp [stream, delivered, queued, trace, oldest, he, appended]

lemma stream_restamp (queued : b'.queued = b.queued.map (restamp h referenced)) (trace : b'.trace = b.trace) :
    b'.stream = b.stream := by
  simp [stream, delivered, queued, trace, restamp_completion, Function.comp_def]

lemma lets_appended (lets : e.Lets h) : appended e = none := by
  cases e <;> first | rfl | exact lets.elim

lemma release_appended : ∀ e ∈ Effect.release h kind, appended e = none := by
  cases kind <;> simp [Effect.release, appended]

lemma asks_appended (asks : Asks id o es) : ∀ e ∈ es, appended e = none := by
  intro e he
  obtain ⟨_, rfl, -⟩ := asks e he
  rfl

namespace Ledger

lemma frame (l : Ledger b) (stream : b'.stream = b.stream) (ops : ∀ id, b'.Active id ↔ b.Active id)
    (trace : ∀ id, .accepted id ∈ b'.trace ↔ .accepted id ∈ b.trace) : Ledger b' where
  once := by rw [stream]; exact l.once
  unfinished := fun id ha => by rw [stream]; exact l.unfinished id ((ops id).mp ha)
  settled := fun id hi => by rw [stream, ops]; exact l.settled id ((trace id).mp hi)
  known := fun c hc id hi => (trace id).mpr (l.known c (stream ▸ hc) id hi)

lemma issued (l : Ledger b) (unused : .accepted id ∉ b.trace) (stream : b'.stream = b.stream)
    (ops : b'.ops = (id, o) ::ₘ b.ops) (trace : ∀ id', .accepted id' ∈ b'.trace ↔ id' = id ∨ .accepted id' ∈ b.trace) :
    Ledger b' := by
  refine ⟨by rw [stream]; exact l.once, ?_, ?_, ?_⟩
  · intro id' ha c hc hf
    rw [stream] at hc
    rcases (active_cons ops id').mp ha with rfl | ha
    · exact unused (l.known c hc _ hf.2)
    · exact l.unfinished id' ha c hc hf
  · intro id' hi
    rw [stream, active_cons ops]
    rcases (trace id').mp hi with rfl | hi
    · exact .inl (.inl rfl)
    · exact (l.settled id' hi).imp .inr (fun h => h)
  · intro c hc id' hi
    exact (trace id').mpr (.inr (l.known c (stream ▸ hc) id' hi))

lemma push (l : Ledger b) (k : Kept b) (stream : b'.stream = b.stream ++ [c]) (open_ : ∀ id, ¬c.finishes id)
    (named : ∀ id, c.op = some id → b.Active id) (ops : b'.ops = b.ops) (trace : b'.trace = b.trace) : Ledger b' := by
  have hc : ∀ id, b'.Active id ↔ b.Active id := fun id => by rw [Active, ops, Active]
  refine ⟨?_, ?_, ?_, ?_⟩
  · rw [stream, pairwise_append]
    refine ⟨l.once, pairwise_singleton _ _, fun c₀ hc₀ c₁ hc₁ id hf hp => ?_⟩
    obtain rfl := mem_singleton.mp hc₁
    exact l.unfinished id (named id hp) c₀ hc₀ hf
  · intro id ha c' hc'
    rw [stream, mem_append, mem_singleton] at hc'
    rcases hc' with hc' | rfl
    · exact l.unfinished id ((hc id).mp ha) c' hc'
    · exact open_ id
  · intro id hi
    rw [trace] at hi
    rw [hc, stream]
    refine (l.settled id hi).imp (fun h => h) ?_
    rintro ⟨c', hc', hf⟩
    exact ⟨c', mem_append_left _ hc', hf⟩
  · intro c' hc' id hi
    rw [stream, mem_append, mem_singleton] at hc'
    rw [trace]
    rcases hc' with hc' | rfl
    · exact l.known c' hc' id hi
    · obtain ⟨o, ho⟩ := named id hi
      exact k.accepted id o ho

lemma finished (l : Ledger b) (k : Kept b) (active : b.ops = (id, o) ::ₘ R) (stream : b'.stream = b.stream ++ [c])
    (finishes : c.finishes id) (ops : b'.ops = R) (trace : b'.trace = b.trace) : Ledger b' := by
  have ha := k.ops
  rw [active] at ha
  have hc : ∀ id', b'.Active id' → id' ≠ id ∧ b.Active id' := by
    rintro id' ⟨o', ho'⟩
    rw [ops] at ho'
    exact ⟨ha.ne_of_mem ho', o', mem_rest active ho'⟩
  refine ⟨?_, ?_, ?_, ?_⟩
  · rw [stream, pairwise_append]
    refine ⟨l.once, pairwise_singleton _ _, fun c₀ hc₀ c₁ hc₁ id₀ hf ho => ?_⟩
    obtain rfl := mem_singleton.mp hc₁
    obtain rfl := Option.some.inj (finishes.2.symm.trans ho)
    exact l.unfinished id ⟨o, mem_head active⟩ c₀ hc₀ hf
  · intro id' ha' c' hc' hf
    obtain ⟨hn, ha'⟩ := hc id' ha'
    rw [stream, mem_append, mem_singleton] at hc'
    rcases hc' with hc' | rfl
    · exact l.unfinished id' ha' c' hc' hf
    · exact hn (Option.some.inj (hf.2.symm.trans finishes.2))
  · intro id' hi
    rw [trace] at hi
    rw [stream]
    rcases l.settled id' hi with hb' | ⟨c', hc', hf⟩
    · rcases (active_cons active id').mp hb' with rfl | ⟨o', ho'⟩
      · exact .inr ⟨c, by simp, finishes⟩
      · exact .inl ⟨o', ops ▸ ho'⟩
    · exact .inr ⟨c', mem_append_left _ hc', hf⟩
  · intro c' hc' id' hi
    rw [stream, mem_append, mem_singleton] at hc'
    rw [trace]
    rcases hc' with hc' | rfl
    · exact l.known c' hc' id' hi
    · obtain rfl := Option.some.inj (finishes.2.symm.trans hi)
      exact k.accepted id o (mem_head active)

lemma step (k : Kept b) (l : Ledger b) (step : Step A b b') : Ledger b' := by
  cases step with
  | opened | polled | closing => exact l.frame (stream_quiet rfl rfl (by simp [appended])) (fun _ => .rfl) (by simp)
  | dropped remaining es live idle kept lets =>
    refine l.frame (stream_quiet rfl rfl fun e he => lets_appended (lets e he)) (fun _ => .rfl) fun id => ?_
    simp only [mem_append, or_iff_left_iff_imp]
    exact fun he => (lets _ he).elim
  | tuned | pooled | refused => exact l.frame rfl (fun _ => .rfl) (fun _ => .rfl)
  | @issued h r S id o es live on unclosed first ad asks =>
    refine l.issued ad.unused (stream_quiet rfl rfl ?_) rfl fun id' => ?_
    · intro e he
      rcases mem_append.mp he with he | he
      · exact asks_appended asks e he
      · rw [mem_singleton.mp he]
        rfl
    · simp only [mem_append, mem_singleton, Effect.accepted.injEq]
      constructor
      · rintro (he | he | rfl)
        · exact .inr he
        · obtain ⟨_, he, -⟩ := asks _ he
          cases he
        · exact .inl rfl
      · rintro (rfl | he)
        · exact .inr (.inr rfl)
        · exact .inl he
  | issuedLoose loose ad =>
    exact l.issued ad.unused (stream_quiet rfl rfl (by simp [appended])) rfl (by simp [or_comm])
  | @flagged id o R cancel timedOut stop jobCancel active | @took id o R leave active =>
    exact l.frame rfl (fun id' => by rw [active_cons active, active_cons rfl]) (fun _ => .rfl)
  | @notified id o result active =>
    refine l.push k (stream_push rfl rfl) (by simp [Completion.finishes]) (fun id' hi => ?_) rfl rfl
    cases hi
    exact ⟨o, active⟩
  | posted | closeQueued => exact l.push k (stream_push rfl rfl) (by simp [Completion.finishes]) nofun rfl rfl
  | finished shown kind active | finishedLoose active =>
    exact l.finished k active (stream_push rfl rfl) ⟨rfl, rfl⟩ rfl rfl
  | referenced => exact l.frame (stream_restamp rfl rfl) (fun _ => .rfl) (fun _ => .rfl)
  | drained oldest => exact l.frame (stream_shift oldest rfl rfl (by simp)) (fun _ => .rfl) (by simp [shift])
  | @drainedClosed q rest h r S remaining oldest =>
    refine l.frame (stream_shift oldest rfl rfl release_appended) (fun _ => .rfl) ?_
    cases r.kind <;> simp [Effect.release]

end Ledger

end Turnloop.Books
