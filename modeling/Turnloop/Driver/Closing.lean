import Turnloop.Driver.Ledger

/-! `Closed` is the last completion of its handle. -/

namespace Turnloop.Books

open Lib List Multiset

variable {A : Leave} {b b' : Books} {c : Completion} {h : Handle} {r : Resource} {S : Multiset (Handle × Resource)}
variable {es : List Effect} {e : Effect}

def Follows (c c' : Completion) : Prop := ∀ h, c.closes h → ¬c'.names h

def Live (b : Books) (h : Handle) : Prop := ∃ r, (h, r) ∈ b.handles

/-- The `Closed` of `h` was appended to the host's buffer, and `h` let go of at that moment. -/
def Gone (b : Books) (h : Handle) (kind : Kind) : Prop :=
  ∃ before c after, b.trace = before ++ (.appended c :: Effect.release h kind ++ after) ∧ c.closes h ∧
    (∀ e ∈ before, ¬e.Lets h) ∧ ∀ e ∈ after, ¬e.Lets h

def Plain : Effect → Prop
  | .created _ | .accepted _ | .requested .. | .polled .. => True
  | _ => False

structure Closing (b : Books) : Prop where
  last : b.stream.Pairwise Follows
  queued : ∀ h, (∃ q ∈ b.queued, q.completion.closes h) ↔ ∃ r, (h, r) ∈ b.handles ∧ r.closedQueued = true
  delivered : ∀ c ∈ b.delivered, ∀ h, c.closes h → ¬b.Live h ∧ .created h ∈ b.trace
  known : ∀ h, ∀ e ∈ b.trace, e.Lets h → .created h ∈ b.trace
  held : ∀ h, b.Live h → ∀ e ∈ b.trace, ¬e.Lets h
  closing : ∀ h kind, .closing h kind ∈ b.trace →
    (∃ r, (h, r) ∈ b.handles ∧ r.closing ≠ none ∧ r.kind.Same kind) ∨ b.Gone h kind

structure Persists (b b' : Books) : Prop where
  forth : ∀ h r, (h, r) ∈ b.handles → ∃ r', (h, r') ∈ b'.handles ∧ (r.closing ≠ none → r'.closing ≠ none) ∧
    r'.kind.Same r.kind
  back : ∀ h, b'.Live h → b.Live h ∨ (.created h ∉ b.trace ∧ .created h ∈ b'.trace)

lemma plain_lets (plain : Plain e) : ¬e.Lets h := by
  cases e <;> first | exact plain.elim | exact fun lets => lets.elim

lemma plain_appended (plain : Plain e) : appended e = none := by
  cases e <;> first | exact plain.elim | rfl

lemma asks_plain {id : OpId} (asks : Asks id o es) : ∀ e ∈ es, Plain e := by
  intro e he
  obtain ⟨_, rfl, -⟩ := asks e he
  trivial

lemma not_closed {result : OpResult} (ordinary : result.Ordinary) : result ≠ .closed := by
  rintro rfl
  exact ordinary

lemma working (k : Kept b) {id : OpId} (active : (id, o) ∈ b.ops) (on : o.handle = some h) :
    ∃ r, (h, r) ∈ b.handles ∧ r.closedQueued = false := by
  obtain ⟨r, hr⟩ := k.placed id o h active on
  refine ⟨r, hr, ?_⟩
  by_contra hc
  have hi := (k.closed h r hr (by simpa using hc)).2
  rw [k.pending h r hr, Multiset.countP_eq_zero] at hi
  exact hi _ active on

lemma release_same (same : a.Same d) (h : Handle) : Effect.release h a = Effect.release h d := by
  cases a <;> cases d <;> simp_all [Kind.Same, Effect.release]

lemma freed_mem_release (h : Handle) (kind : Kind) : .freed h ∈ Effect.release h kind := by
  cases kind <;> simp [Effect.release]

lemma release_lets {h : Handle} {kind : Kind} : ∀ e ∈ Effect.release h kind, e.Lets h := by
  cases kind <;> simp [Effect.release, Effect.Lets]

lemma Lets.unique (he : e.Lets h) (he' : e.Lets h') : h = h' := by
  cases e <;> first | exact he.elim | exact he.symm.trans he'

lemma Gone.freed (gone : b.Gone h kind) : .freed h ∈ b.trace := by
  obtain ⟨_, c, _, hr, -⟩ := gone
  rw [hr]
  simp [freed_mem_release]

lemma Gone.append (gone : b.Gone h kind) (trace : b'.trace = b.trace ++ es) (quiet : ∀ e ∈ es, ¬e.Lets h) :
    b'.Gone h kind := by
  obtain ⟨before, c, after, hr, hc, hb, ha⟩ := gone
  refine ⟨before, c, after ++ es, by simp [trace, hr], hc, hb, fun e he => ?_⟩
  rcases mem_append.mp he with he | he
  · exact ha e he
  · exact quiet e he

namespace Persists

lemma frame (handles : b'.handles = b.handles) : Persists b b' :=
  ⟨fun _ r hr => ⟨r, handles ▸ hr, fun hc => hc, Kind.same_refl⟩, fun _ hl => .inl (by rwa [Live, ← handles])⟩

lemma set (live : b.handles = (h, r) ::ₘ S) (handles : b'.handles = (h, r') ::ₘ S)
    (closing : r.closing ≠ none → r'.closing ≠ none) (same : r'.kind.Same r.kind) : Persists b b' := by
  refine ⟨fun h₀ r₀ hr₀ => ?_, fun h₀ hl => ?_⟩
  · rw [live] at hr₀
    rcases mem_replaced hr₀ with ⟨rfl, rfl⟩ | hm
    · exact ⟨r', mem_head handles, closing, same⟩
    · exact ⟨r₀, mem_rest handles hm, fun hc => hc, Kind.same_refl⟩
  · obtain ⟨r₀, hr₀⟩ := hl
    rw [handles] at hr₀
    rcases mem_replaced hr₀ with ⟨rfl, -⟩ | hm
    · exact .inl ⟨r, mem_head live⟩
    · exact .inl ⟨r₀, mem_rest live hm⟩

end Persists

namespace Closing

section

variable (l : Closing b)
include l

lemma silent (k : Kept b) (live : (h, r) ∈ b.handles) (first : r.closedQueued = false) :
    ∀ c ∈ b.stream, ¬c.closes h := by
  intro c hc hl
  rcases mem_append.mp hc with hc | hc
  · exact (l.delivered c hc h hl).1 ⟨r, live⟩
  · obtain ⟨q, hq, rfl⟩ := mem_map.mp hc
    obtain ⟨_, hr', hd⟩ := (l.queued h).mp ⟨q, hq, hl⟩
    rw [k.handles.unique live hr', hd] at first
    cases first

lemma last_same (stream : b'.stream = b.stream) : b'.stream.Pairwise Follows := by
  rw [stream]
  exact l.last

lemma last_push (k : Kept b) (stream : b'.stream = b.stream ++ [c])
    (names : ∀ h, c.names h → ∃ r, (h, r) ∈ b.handles ∧ r.closedQueued = false) : b'.stream.Pairwise Follows := by
  rw [stream, List.pairwise_append]
  refine ⟨l.last, List.pairwise_singleton _ _, fun c₀ hc₀ c₁ hc₁ h hc hn => ?_⟩
  rw [List.mem_singleton.mp hc₁] at hn
  obtain ⟨r, hr, hf⟩ := names h hn
  exact l.silent k hr hf c₀ hc₀ hc

lemma persist (p : Persists b b') (trace : b'.trace = b.trace ++ es) (quiet : ∀ h, ∀ e ∈ es, ¬e.Lets h)
    (last : b'.stream.Pairwise Follows)
    (queued : ∀ h, (∃ q ∈ b'.queued, q.completion.closes h) ↔ ∃ r, (h, r) ∈ b'.handles ∧ r.closedQueued = true)
    (delivered : ∀ c ∈ b'.delivered, ∀ h, c.closes h → c ∈ b.delivered)
    (closing : ∀ h kind, .closing h kind ∈ es → ∃ r, (h, r) ∈ b'.handles ∧ r.closing ≠ none ∧ r.kind.Same kind) :
    Closing b' where
  last := last
  queued := queued
  delivered := by
    intro c hc h hb
    obtain ⟨hd, hf⟩ := l.delivered c (delivered c hc h hb) h hb
    refine ⟨fun hi => ?_, by simp [trace, hf]⟩
    rcases p.back h hi with hl | ⟨hn, -⟩
    · exact hd hl
    · exact hn hf
  known := by
    intro h e he ht
    rw [trace] at he ⊢
    rcases mem_append.mp he with he | he
    · exact mem_append_left _ (l.known h e he ht)
    · exact absurd ht (quiet h e he)
  held := by
    intro h hi e he ht
    rw [trace] at he
    rcases mem_append.mp he with he | he
    · rcases p.back h hi with hl | ⟨hn, -⟩
      · exact l.held h hl e he ht
      · exact hn (l.known h e he ht)
    · exact quiet h e he ht
  closing := by
    intro h kind he
    rw [trace] at he
    rcases List.mem_append.mp he with he | he
    · rcases l.closing h kind he with ⟨r, hr, hg, ha⟩ | gone
      · obtain ⟨r', hr', hc, hk⟩ := p.forth h r hr
        exact .inl ⟨r', hr', hc hg, Kind.same_trans hk ha⟩
      · exact .inr (gone.append trace (quiet h))
    · exact .inl (closing h kind he)

lemma quiet (p : Persists b b') (trace : b'.trace = b.trace ++ es) (plain : ∀ e ∈ es, Plain e)
    (stream : b'.stream = b.stream)
    (queued : ∀ h, (∃ q ∈ b'.queued, q.completion.closes h) ↔ ∃ q ∈ b.queued, q.completion.closes h)
    (closed : ∀ h, (∃ r, (h, r) ∈ b'.handles ∧ r.closedQueued = true) ↔ ∃ r, (h, r) ∈ b.handles ∧
      r.closedQueued = true) : Closing b' := by
  refine l.persist p trace (fun h e he hl => plain_lets (plain e he) hl) (l.last_same stream)
    (fun h => ?_) (fun c hc h _ => ?_) (fun h kind he => (plain _ he).elim)
  · rw [queued, closed]
    exact l.queued h
  · rwa [Books.delivered, trace, delivered_append fun e he => plain_appended (plain e he)] at hc

lemma push (k : Kept b) (p : Persists b b')
    (queued : b'.queued = b.queued ++ [⟨c, referenced, Driver.eventClass c⟩]) (trace : b'.trace = b.trace)
    (open_ : c.result ≠ .closed) (names : ∀ h, c.names h → ∃ r, (h, r) ∈ b.handles ∧ r.closedQueued = false)
    (closed : ∀ h, (∃ r, (h, r) ∈ b'.handles ∧ r.closedQueued = true) ↔ ∃ r, (h, r) ∈ b.handles ∧
      r.closedQueued = true) :
    Closing b' := by
  refine l.persist p (show b'.trace = b.trace ++ [] by simp [trace]) (by simp)
    (l.last_push k (stream_push queued trace) names) (fun h => ?_) (fun c' hc' h _ => ?_) (by simp)
  · rw [closed, ← l.queued h, queued]
    constructor
    · rintro ⟨q, hq, hc⟩
      rcases mem_append.mp hq with hq | hq
      · exact ⟨q, hq, hc⟩
      · rw [List.mem_singleton.mp hq] at hc
        exact absurd hc.1 open_
    · rintro ⟨q, hq, hc⟩
      exact ⟨q, mem_append_left _ hq, hc⟩
  · rwa [Books.delivered, trace] at hc'

end

lemma marked_set (live : b.handles = (h, r) ::ₘ S) (handles : b'.handles = (h, r') ::ₘ S)
    (same : r'.closedQueued = r.closedQueued) (h₀ : Handle) :
    (∃ r, (h₀, r) ∈ b'.handles ∧ r.closedQueued = true) ↔ ∃ r, (h₀, r) ∈ b.handles ∧ r.closedQueued = true := by
  simp [live, handles, or_and_right, exists_or, same]

lemma removed (l : Closing b) (k : Kept b) (live : b.handles = (h, r) ::ₘ S) (handles : b'.handles = S)
    (trace : b'.trace = b.trace ++ es) (lets : ∀ e ∈ es, ∀ h', e.Lets h' → h' = h)
    (quiet : ∀ h' kind, .closing h' kind ∉ es)
    (stream : b'.stream = b.stream)
    (queued : ∀ h', (∃ q ∈ b'.queued, q.completion.closes h') ↔ ∃ r, (h', r) ∈ b'.handles ∧ r.closedQueued = true)
    (delivered : ∀ c ∈ b'.delivered, ∀ h', c.closes h' → c ∈ b.delivered ∨ h' = h)
    (gone : ∀ kind, r.closing ≠ none → r.kind.Same kind → b'.Gone h kind) : Closing b' := by
  have hk := k.handles
  rw [live] at hk
  have hi : ∀ h', b'.Live h' → h' ≠ h ∧ b.Live h' := by
    rintro h' ⟨r', hr'⟩
    rw [handles] at hr'
    exact ⟨hk.ne_of_mem hr', r', mem_rest live hr'⟩
  have hr := k.created h r (mem_head live)
  refine ⟨l.last_same stream, queued, fun c hc h' hb => ?_, fun h' e he hl => ?_, fun h' hl e he hl' => ?_,
    fun h' kind he => ?_⟩
  · rcases delivered c hc h' hb with hc | rfl
    · obtain ⟨hd, hr⟩ := l.delivered c hc h' hb
      exact ⟨fun hl => hd (hi h' hl).2, by simp [trace, hr]⟩
    · exact ⟨fun hl => (hi h' hl).1 rfl, by simp [trace, hr]⟩
  · rw [trace] at he ⊢
    rcases mem_append.mp he with he | he
    · exact mem_append_left _ (l.known h' e he hl)
    · rw [lets e he h' hl]
      exact mem_append_left _ hr
  · obtain ⟨hn, hl⟩ := hi h' hl
    rw [trace] at he
    rcases mem_append.mp he with he | he
    · exact l.held h' hl e he hl'
    · exact hn (lets e he h' hl')
  · rw [trace] at he
    rcases l.closing h' kind ((mem_append.mp he).resolve_right (quiet h' kind)) with ⟨r', hr', hg, ha⟩ | ho
    · rw [live] at hr'
      rcases mem_replaced hr' with ⟨rfl, rfl⟩ | hm
      · exact .inr (gone kind hg ha)
      · exact .inl ⟨r', handles ▸ hm, hg, ha⟩
    · refine .inr (ho.append trace fun e he hl => ?_)
      obtain rfl := lets e he h' hl
      exact l.held h' ⟨r, mem_head live⟩ _ ho.freed rfl

lemma dropped (l : Closing b) (k : Kept b) (live : b.handles = (h, r) ::ₘ S) (kept : r.closing = none)
    (lets : ∀ e ∈ es, e.Lets h) (handles : b'.handles = S) (queued : b'.queued = b.queued)
    (trace : b'.trace = b.trace ++ es) : Closing b' := by
  have hf : r.closedQueued = false := by
    by_contra hc
    exact (k.closed h r (mem_head live) (by simpa using hc)).1 kept
  have hn : ∀ e ∈ es, appended e = none := fun e he => lets_appended (lets e he)
  refine l.removed k live handles trace (fun e he h' hl => Lets.unique hl (lets e he))
    (fun h' kind he => (lets _ he).elim)
    (stream_quiet queued trace hn) (fun h' => ?_) (fun c hc _ _ => .inl ?_) fun _ hb _ => absurd kept hb
  · rw [queued, l.queued h', live, handles]
    simp [or_and_right, exists_or, hf]
  · rwa [Books.delivered, trace, delivered_append hn] at hc

lemma drainedClosed (l : Closing b) (k : Kept b) (oldest : b.queued = q :: rest)
    (closes : q.completion.closes h) (live : b.handles = (h, r) ::ₘ S)
    (handles : b'.handles = S) (queued : b'.queued = rest)
    (trace : b'.trace = b.trace ++ (.appended q.completion :: Effect.release h r.kind)) : Closing b' := by
  refine l.removed k live handles trace ?_ ?_ (stream_shift oldest queued trace release_appended) (fun h' => ?_)
    (fun c hc h' hl => ?_) fun kind _ ha => ?_
  · intro e he h' ht
    rcases mem_cons.mp he with rfl | he
    · exact ht.elim
    · exact Lets.unique ht (release_lets e he)
  · intro h' kind he
    rcases mem_cons.mp he with he | he
    · cases he
    · exact (release_lets _ he).elim
  · by_cases hh : h' = h
    · subst hh
      constructor
      · rintro ⟨_, hq', hl⟩
        rw [queued] at hq'
        have hb := (pairwise_append.mp l.last).2.1
        rw [oldest, List.map_cons, List.pairwise_cons] at hb
        exact absurd (.inl hl.2) (hb.1 _ (mem_map_of_mem hq') h' closes)
      · rintro ⟨r', hr', -⟩
        rw [handles] at hr'
        have hk := k.handles
        rw [live] at hk
        exact absurd hr' (hk.absent r')
    · have ho : ¬q.completion.closes h' := fun hc => hh (Option.some.inj (hc.2.symm.trans closes.2))
      have hq := l.queued h'
      rw [oldest, live] at hq
      rw [queued, handles]
      simpa [ho, hh] using hq
  · rw [Books.delivered, trace, filterMap_append, mem_append] at hc
    refine hc.imp_right fun hc => ?_
    have hn : (Effect.release h r.kind).filterMap appended = [] := List.filterMap_eq_nil_iff.mpr release_appended
    obtain rfl : c = q.completion := by simpa [appended, hn] using hc
    exact Option.some.inj (hl.2.symm.trans closes.2)
  · refine ⟨b.trace, q.completion, [], ?_, closes, l.held h ⟨r, mem_head live⟩, by simp⟩
    rw [trace, release_same ha, append_nil]

lemma step (k : Kept b) (l : Closing b) (step : Step A b b') : Closing b' := by
  cases step with
  | opened h kind un =>
    have hp : Persists b { b with
        handles := (h, ⟨kind, false, true, 0, none, false, none, none⟩) ::ₘ b.handles
        remaining := b.remaining - 1
        refs := b.refs + (!kind.isTimer).toNat
        trace := b.trace ++ [Effect.created h] } := by
      refine ⟨fun h₀ r₀ hr₀ => ⟨r₀, Multiset.mem_cons_of_mem hr₀, fun hc => hc, Kind.same_refl⟩, ?_⟩
      rintro h₀ ⟨r₀, hr₀⟩
      rcases mem_replaced hr₀ with ⟨rfl, -⟩ | hm
      · exact .inr ⟨un, by simp⟩
      · exact .inl ⟨r₀, hm⟩
    exact l.quiet hp rfl (by simp [Plain]) (stream_quiet rfl rfl (by simp [appended])) (fun _ => .rfl)
      (by simp [or_and_right, exists_or])
  | dropped remaining es live idle kept lets => exact l.dropped k live kept lets rfl rfl rfl
  | tuned kind hidden live same =>
    exact l.quiet (.set live rfl (fun hc => hc) (Kind.same_symm same)) (List.append_nil _).symm (by simp) rfl
      (fun _ => .rfl) (marked_set live rfl rfl)
  | @issued h r S id o es live on unclosed first admits asks =>
    have hl : ∀ e ∈ es ++ [Effect.accepted id], Plain e := by
      intro e he
      rcases List.mem_append.mp he with he | he
      · exact asks_plain asks e he
      · rw [List.mem_singleton.mp he]
        trivial
    exact l.quiet (.set live rfl (fun hc => hc) Kind.same_refl) rfl hl
      (stream_quiet rfl rfl fun e he => plain_appended (hl e he)) (fun _ => .rfl) (marked_set live rfl rfl)
  | issuedLoose | polled =>
    exact l.quiet (.frame rfl) rfl (by simp [Plain]) (stream_quiet rfl rfl (by simp [appended])) (fun _ => .rfl)
      (fun _ => .rfl)
  | flagged | took | pooled | refused =>
    exact l.quiet (.frame rfl) (List.append_nil _).symm (by simp) rfl (fun _ => .rfl) (fun _ => .rfl)
  | @notified id o result active ordinary introduces =>
    refine l.push k (.frame rfl) rfl rfl (not_closed ordinary) (fun h hn => ?_) (fun _ => .rfl)
    rcases hn with hh | hh
    · exact working k active hh
    · exact introduces h hh
  | posted =>
    refine l.push k (.frame rfl) rfl rfl (by rintro ⟨⟩) (fun h hn => ?_) (fun _ => .rfl)
    simp [Completion.names, OpResult.handle] at hn
  | @finished h r S id o R result shown kind active live on ordinary introduces shows same =>
    refine l.push k (.set live rfl (fun hc => hc) (Kind.same_symm same)) rfl rfl (not_closed ordinary)
      (fun h₀ hn => ?_) (marked_set live rfl rfl)
    rcases hn with hh | hh
    · rcases shows with rfl | rfl
      · cases hh
        exact working k (mem_head active) on
      · cases hh
    · exact introduces h₀ hh
  | finishedLoose active loose ordinary introduces =>
    refine l.push k (.frame rfl) rfl rfl (not_closed ordinary) (fun h hn => ?_) (fun _ => .rfl)
    rcases hn with hh | hh
    · cases hh
    · exact introduces h hh
  | @closeQueued h r S token live closing idle first =>
    have hk := k.handles
    rw [live] at hk
    refine l.persist (.set live rfl (fun hc => hc) Kind.same_refl) (List.append_nil _).symm (by simp)
      (l.last_push k (stream_push rfl rfl) fun h₀ hn => ?_) (fun h₀ => ?_) (fun c hc _ _ => hc) (by simp)
    · obtain rfl : h = h₀ := by simpa [Completion.names, OpResult.handle] using hn
      exact ⟨r, mem_head live, first⟩
    · have hq := l.queued h₀
      rw [live] at hq
      by_cases hh : h₀ = h
      · subst hh
        simp [Books.push, Completion.closes]
      · have hb : h ≠ h₀ := fun he => hh he.symm
        simpa [Books.push, Completion.closes, or_and_right, exists_or, hh, hb] using hq
  | @referenced h r S referenced live =>
    refine l.quiet (.set live rfl (fun hc => hc) Kind.same_refl) (List.append_nil _).symm (by simp)
      (stream_restamp rfl rfl) (fun h₀ => ?_) (marked_set live rfl rfl)
    simp [restamp_completion]
  | @closing h r S token live =>
    refine l.persist (.set live rfl (fun _ => by simp) Kind.same_refl) rfl (by simp [Effect.Lets])
      (l.last_same (stream_quiet rfl rfl (by simp [appended])))
      (fun h₀ => (l.queued h₀).trans (Iff.symm ?_)) (fun c hc _ _ => ?_) (fun h₀ kind he => ?_)
    · exact marked_set live rfl (by rfl) h₀
    · rwa [Books.delivered, delivered_append (by simp [appended])] at hc
    · simp only [List.mem_singleton, Effect.closing.injEq] at he
      obtain ⟨rfl, rfl⟩ := he
      exact ⟨_, mem_head rfl, by simp, Kind.same_refl⟩
  | @drained q rest oldest open_ =>
    have ho : ∀ h, ¬q.completion.closes h := fun h hc => open_ hc.1
    refine l.persist (.frame rfl) rfl (by simp [Effect.Lets]) (l.last_same (stream_shift oldest rfl rfl (by simp)))
      (fun h => ?_) (fun c hc h hd => ?_) (by simp)
    · have hq := l.queued h
      rw [oldest] at hq
      simpa [shift, ho] using hq
    · rw [Books.delivered, shift, List.filterMap_append, List.mem_append] at hc
      rcases hc with hc | hc
      · exact hc
      · obtain rfl : c = q.completion := by simpa [appended] using hc
        exact absurd hd (ho h)
  | @drainedClosed q rest h r S remaining oldest closes live =>
    exact l.drainedClosed k oldest closes live rfl rfl rfl

end Closing

end Turnloop.Books
