import Turnloop.Driver.Exact

/-! What stands in the queue: each completion carries its class and the reference of its handle. -/

namespace Turnloop.Books

open Lib List

variable {A : Leave} {b b' : Books} {q : Queued} {S : Multiset (Handle × Resource)} {r : Resource} {h : Handle}

inductive Shaped (c : Completion) : Prop
  | ordinary (id : OpId) (named : c.op = some id) (ordinary : c.result.Ordinary)
  | closed (h : Handle) (unnamed : c.op = none) (final : c.terminal = true) (closes : c.closes h)
  | posted (p : Payload) (unnamed : c.op = none) (unplaced : c.handle = none) (final : c.terminal = true)
      (result : c.result = .posted p)

structure Proper (b : Books) (q : Queued) : Prop where
  sorted : q.eventClass = Driver.eventClass q.completion
  final : q.referenced = true → q.final = true
  flag : q.final = true → ∀ h r, q.completion.handle = some h → (h, r) ∈ b.handles → q.referenced = r.referenced
  known : ∀ h, q.completion.handle = some h → .created h ∈ b.trace
  shaped : Shaped q.completion

def Stamped (b : Books) : Prop := ∀ q ∈ b.queued, Proper b q

structure Steady (b b' : Books) : Prop where
  trace : b.trace ⊆ b'.trace
  handles : ∀ h r', (h, r') ∈ b'.handles → .created h ∈ b.trace → ∃ r, (h, r) ∈ b.handles ∧ r.referenced = r'.referenced

lemma Proper.steady (p : Proper b q) (s : Steady b b') : Proper b' q where
  sorted := p.sorted
  final := p.final
  flag := by
    intro hq h r' hh hr'
    obtain ⟨r, hr, he⟩ := s.handles h r' hr' (p.known h hh)
    rw [p.flag hq h r hh hr, he]
  known := fun h hh => s.trace (p.known h hh)
  shaped := p.shaped

namespace Steady

lemma frame (handles : b'.handles = b.handles) (trace : b.trace ⊆ b'.trace) : Steady b b' :=
  ⟨trace, fun _ r hr _ => ⟨r, handles ▸ hr, rfl⟩⟩

lemma set {r' : Resource} (live : b.handles = (h, r) ::ₘ S)
    (handles : b'.handles = (h, r') ::ₘ S) (same : r.referenced = r'.referenced) (trace : b.trace ⊆ b'.trace) :
    Steady b b' := by
  refine ⟨trace, fun h₀ r₀ hr₀ _ => ?_⟩
  rw [handles] at hr₀
  rcases mem_replaced hr₀ with ⟨rfl, rfl⟩ | hm
  · exact ⟨r, mem_head live, same⟩
  · exact ⟨r₀, mem_rest live hm, rfl⟩

lemma drop (live : b.handles = (h, r) ::ₘ S) (handles : b'.handles = S) (trace : b.trace ⊆ b'.trace) : Steady b b' :=
  ⟨trace, fun _ r₀ hr₀ _ => ⟨r₀, mem_rest live (handles ▸ hr₀), rfl⟩⟩

end Steady

lemma Step.steady (step : Step A b b') : Steady b b' ∨ ∃ h r S referenced refs, b.handles = (h, r) ::ₘ S ∧ b' = { b with
      handles := (h, { r with referenced := referenced }) ::ₘ S
      queued := b.queued.map (restamp h referenced)
      refs := refs } := by
  have grow (es : List Effect) : b.trace ⊆ b.trace ++ es := subset_append_left _ _
  have same : b.trace ⊆ b.trace := List.Subset.refl _
  cases step with
  | opened h kind un =>
    refine .inl ⟨grow _, fun h₀ r₀ hr₀ hc => ?_⟩
    rcases mem_replaced hr₀ with ⟨rfl, -⟩ | hm
    · exact absurd hc un
    · exact ⟨r₀, hm, rfl⟩
  | dropped remaining es live | drainedClosed remaining oldest closes live => exact .inl (.drop live rfl (grow _))
  | tuned kind hidden live | finished shown kind active live | closeQueued live => exact .inl (.set live rfl rfl same)
  | issued es live | closing token live => exact .inl (.set live rfl rfl (grow _))
  | issuedLoose | polled | drained => exact .inl (.frame rfl (grow _))
  | flagged | took | pooled | refused | notified | posted | finishedLoose => exact .inl (.frame rfl same)
  | @referenced h r S referenced live refs => exact .inr ⟨h, r, S, referenced, refs, live, rfl⟩

namespace Stamped

lemma push (s : Stamped b) (steady : Steady b b') {c : Completion} {referenced : Bool}
    (queued : b'.queued = b.queued ++ [⟨c, referenced, Driver.eventClass c⟩])
    (new : Proper b' ⟨c, referenced, Driver.eventClass c⟩) : Stamped b' := by
  intro q hq
  rw [queued, mem_append, mem_singleton] at hq
  rcases hq with hq | rfl
  · exact (s q hq).steady steady
  · exact new

lemma frame (s : Stamped b) (steady : Steady b b') (queued : b'.queued ⊆ b.queued) : Stamped b' :=
  fun q hq => (s q (queued hq)).steady steady

lemma restamp (s : Stamped b) (k : Kept b) (referenced : Bool) (refs : ℕ) (live : b.handles = (h, r) ::ₘ S) :
    Stamped { b with
      handles := (h, { r with referenced := referenced }) ::ₘ S
      queued := b.queued.map (Books.restamp h referenced)
      refs := refs } := by
  have hk := k.handles
  rw [live] at hk
  intro q' hq'
  obtain ⟨q, hq, rfl⟩ := mem_map.mp hq'
  have p := s q hq
  have hc := restamp_completion h referenced q
  have hf := restamp_final h referenced q
  refine ⟨?_, ?_, ?_, ?_, by rw [hc]; exact p.shaped⟩
  · rw [restamp_class, hc]
    exact p.sorted
  · rw [hf]
    intro hr
    rw [Books.restamp] at hr
    split at hr
    case isTrue hi => simp [Queued.final, hi.2]
    case isFalse => exact p.final hr
  · rw [hf, hc]
    intro hq h₀ r₀ hh hr₀
    have ht : q.completion.terminal = true ∧ q.completion.op.isSome = true := by simpa [Queued.final] using hq
    rcases mem_replaced hr₀ with ⟨rfl, rfl⟩ | hm
    · rw [Books.restamp, if_pos ⟨hh, ht⟩]
    · have hn : h₀ ≠ h := hk.ne_of_mem hm
      have hb : q.completion.handle ≠ some h := fun he => hn (Option.some.inj (hh.symm.trans he))
      rw [Books.restamp, if_neg (fun hi => hb hi.1)]
      exact p.flag hq h₀ r₀ hh (mem_rest live hm)
  · rw [hc]
    exact p.known

lemma step (k : Kept b) (s : Stamped b) (step : Step A b b') : Stamped b' := by
  rcases step.steady with steady | ⟨h, r, S, referenced, refs, live, rfl⟩
  case inr => exact s.restamp k referenced refs live
  cases step with
  | opened | dropped | tuned | issued | issuedLoose | flagged | took | pooled | refused | polled | closing =>
    exact s.frame steady (List.Subset.refl _)
  | @notified id o result active ordinary =>
    refine s.push steady rfl ⟨rfl, by rintro ⟨⟩, by simp [Queued.final], fun h hh => ?_, .ordinary id rfl ordinary⟩
    obtain ⟨r, hr⟩ := k.placed id o h active hh
    exact k.created h r hr
  | posted p =>
    exact s.push steady rfl ⟨rfl,
      by rintro ⟨⟩, by simp [Queued.final], by rintro _ ⟨⟩, .posted p.payload rfl rfl rfl rfl⟩
  | @finished h r S id o R result shown kind active live on ordinary introduces shows =>
    have hk := k.handles
    rw [live] at hk
    refine s.push steady rfl ⟨rfl, fun _ => rfl, fun _ h₀ r₀ hh hr₀ => ?_, fun h₀ hh => ?_, .ordinary id rfl ordinary⟩
    · obtain rfl : h = h₀ := by
        rcases shows with rfl | rfl
        · exact Option.some.inj hh
        · cases hh
      obtain rfl := (hk.set).eq_of_mem hr₀
      rfl
    · rcases shows with rfl | rfl
      · cases hh
        exact k.created h r (mem_head live)
      · cases hh
  | @finishedLoose id o R result active loose ordinary =>
    exact s.push steady rfl ⟨rfl, fun _ => rfl, by simp, by rintro _ ⟨⟩, .ordinary id rfl ordinary⟩
  | @closeQueued h r S token live =>
    refine s.push steady rfl ⟨rfl, by rintro ⟨⟩, by simp [Queued.final], fun h₀ hh => ?_, .closed h rfl rfl ⟨rfl, rfl⟩⟩
    cases hh
    exact k.created h r (mem_head live)
  | referenced referenced live refs => exact s.restamp k referenced refs live
  | drained oldest | drainedClosed remaining oldest =>
    exact s.frame steady (by rw [oldest]; exact subset_cons_self _ _)

end Stamped

end Turnloop.Books
