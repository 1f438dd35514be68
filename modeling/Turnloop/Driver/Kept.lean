import Turnloop.Driver.Books

/-! Every operation sits on a live handle that counts it, and no identity is used twice. -/

namespace Turnloop.Books

open Lib Multiset

variable {A : Leave} {b b' : Books} {h : Handle} {r r' : Resource} {S : Multiset (Handle × Resource)} {id : OpId}
  {o o' : Op} {R : Multiset (OpId × Op)}

def On (h : Handle) (p : OpId × Op) : Prop := p.2.handle = some h

instance (h : Handle) : DecidablePred (On h) := fun p => inferInstanceAs (Decidable (p.2.handle = some h))

structure Kept (b : Books) : Prop where
  handles : Keyed b.handles
  ops : Keyed b.ops
  placed : ∀ id o h, (id, o) ∈ b.ops → o.handle = some h → ∃ r, (h, r) ∈ b.handles
  pending : ∀ h r, (h, r) ∈ b.handles → r.pending = b.ops.countP (On h)
  hidden : ∀ h r, (h, r) ∈ b.handles → r.hidden = true → r.pending ≤ 1 ∧ r.closing = none ∧ r.kind.isTimer = false
  closed : ∀ h r, (h, r) ∈ b.handles → r.closedQueued = true → r.closing ≠ none ∧ r.pending = 0
  timers : ∀ h r op repeats, (h, r) ∈ b.handles → r.kind = .timer (some op) repeats → op.owner = h.owner
  created : ∀ h r, (h, r) ∈ b.handles → .created h ∈ b.trace
  accepted : ∀ id o, (id, o) ∈ b.ops → .accepted id ∈ b.trace

/-- What is kept of one handle. -/
structure Fits (b : Books) (h : Handle) (r : Resource) : Prop where
  pending : r.pending = b.ops.countP (On h)
  hidden : r.hidden = true → r.pending ≤ 1 ∧ r.closing = none ∧ r.kind.isTimer = false
  closed : r.closedQueued = true → r.closing ≠ none ∧ r.pending = 0
  timers : ∀ op repeats, r.kind = .timer (some op) repeats → op.owner = h.owner
  created : .created h ∈ b.trace

lemma Fits.mono (f : Fits b h r) (count : b'.ops.countP (On h) = b.ops.countP (On h))
    (trace : b.trace ⊆ b'.trace) : Fits b' h r :=
  { f with pending := f.pending.trans count.symm, created := trace f.created }

namespace Kept

lemma of_fits (handles : Keyed b.handles) (ops : Keyed b.ops)
    (placed : ∀ id o h, (id, o) ∈ b.ops → o.handle = some h → ∃ r, (h, r) ∈ b.handles)
    (fits : ∀ h r, (h, r) ∈ b.handles → Fits b h r)
    (accepted : ∀ id o, (id, o) ∈ b.ops → .accepted id ∈ b.trace) : Kept b where
  handles := handles
  ops := ops
  placed := placed
  pending h r hr := (fits h r hr).pending
  hidden h r hr := (fits h r hr).hidden
  closed h r hr := (fits h r hr).closed
  timers h r op repeats hr := (fits h r hr).timers op repeats
  created h r hr := (fits h r hr).created
  accepted := accepted

lemma set_placed (live : b.handles = (h, r) ::ₘ S) (handles : b'.handles = (h, r') ::ₘ S) {h' : Handle}
    (hp : ∃ r₀, (h', r₀) ∈ b.handles) : ∃ r₀, (h', r₀) ∈ b'.handles := by
  obtain ⟨r₀, hr₀⟩ := hp
  rw [live] at hr₀
  rcases mem_replaced hr₀ with ⟨rfl, -⟩ | hm
  · exact ⟨_, mem_head handles⟩
  · exact ⟨r₀, by simp [handles, hm]⟩

variable (k : Kept b)
include k

lemma fits (hr : (h, r) ∈ b.handles) : Fits b h r :=
  ⟨k.pending h r hr, k.hidden h r hr, k.closed h r hr, fun op repeats => k.timers h r op repeats hr, k.created h r hr⟩

lemma handle_unused (unused : .created h ∉ b.trace) (r : Resource) : (h, r) ∉ b.handles :=
  fun hr => unused (k.created h r hr)

lemma op_unused (unused : .accepted id ∉ b.trace) (o : Op) : (id, o) ∉ b.ops :=
  fun ho => unused (k.accepted id o ho)

lemma frame (handles : b'.handles = b.handles) (ops : b'.ops = b.ops) (trace : b.trace ⊆ b'.trace) : Kept b' := by
  apply of_fits
  · rw [handles]; exact k.handles
  · rw [ops]; exact k.ops
  · rw [handles, ops]; exact k.placed
  · rw [handles]; exact fun h r hr => (k.fits hr).mono (by rw [ops]) trace
  · rw [ops]; exact fun id o ho => trace (k.accepted id o ho)

lemma set_keyed (live : b.handles = (h, r) ::ₘ S) (handles : b'.handles = (h, r') ::ₘ S) : Keyed b'.handles := by
  have hk := k.handles
  rw [live] at hk
  rw [handles]
  exact hk.set

lemma set_fits (live : b.handles = (h, r) ::ₘ S) (handles : b'.handles = (h, r') ::ₘ S) (fits : Fits b' h r')
    (count : ∀ h', h' ≠ h → b'.ops.countP (On h') = b.ops.countP (On h')) (trace : b.trace ⊆ b'.trace) :
    ∀ h' r'', (h', r'') ∈ b'.handles → Fits b' h' r'' := by
  intro h' r'' hm
  have hk := k.handles
  rw [live] at hk
  rw [handles] at hm
  rcases mem_replaced hm with ⟨rfl, rfl⟩ | hm
  · exact fits
  · exact (k.fits (mem_rest live hm)).mono (count h' (hk.ne_of_mem hm)) trace

lemma retune (live : b.handles = (h, r) ::ₘ S) (handles : b'.handles = (h, r') ::ₘ S)
    (ops : b'.ops = b.ops) (trace : b.trace ⊆ b'.trace) (pending : r'.pending = r.pending)
    (hidden : r'.hidden = true → r'.pending ≤ 1 ∧ r'.closing = none ∧ r'.kind.isTimer = false)
    (closed : r'.closedQueued = true → r'.closing ≠ none ∧ r'.pending = 0)
    (timers : ∀ op repeats, r'.kind = .timer (some op) repeats → op.owner = h.owner) : Kept b' := by
  have hf := k.fits (mem_head live)
  apply of_fits
  · exact k.set_keyed live handles
  · rw [ops]; exact k.ops
  · rw [ops]; exact fun id o h' ho hh => set_placed live handles (k.placed id o h' ho hh)
  · refine k.set_fits live handles ⟨?_, hidden, closed, timers, trace hf.created⟩ (fun _ _ => by rw [ops]) trace
    rw [pending, ops]
    exact hf.pending
  · rw [ops]; exact fun id o ho => trace (k.accepted id o ho)

lemma reflag (active : b.ops = (id, o) ::ₘ R) (ops : b'.ops = (id, o') ::ₘ R)
    (on : o'.handle = o.handle) (handles : b'.handles = b.handles) (trace : b'.trace = b.trace) : Kept b' := by
  have ho := mem_head active
  have he : ∀ id' o'', (id', o'') ∈ b'.ops → (id' = id ∧ o'' = o') ∨ (id', o'') ∈ R := by
    intro id' o'' hm
    rw [ops] at hm
    exact mem_replaced hm
  apply of_fits
  · rw [handles]; exact k.handles
  · have hk := k.ops
    rw [active] at hk
    rw [ops]
    exact hk.set
  · intro id' o'' h' hm hh
    rw [handles]
    rcases he id' o'' hm with ⟨rfl, rfl⟩ | hm
    · exact k.placed _ _ h' ho (on ▸ hh)
    · exact k.placed _ _ h' (mem_rest active hm) hh
  · intro h' r'' hm
    rw [handles] at hm
    have hn : On h' (id, o') ↔ On h' (id, o) := by rw [On, On, on]
    exact (k.fits hm).mono (by simp only [active, ops, countP_cons, hn]) (trace ▸ List.Subset.refl _)
  · intro id' o'' hm
    rw [trace]
    rcases he id' o'' hm with ⟨rfl, rfl⟩ | hm
    · exact k.accepted _ _ ho
    · exact k.accepted _ _ (mem_rest active hm)

lemma opened (unused : .created h ∉ b.trace) (handles : b'.handles = (h, r) ::ₘ b.handles)
    (ops : b'.ops = b.ops) (trace : b'.trace = b.trace ++ [Effect.created h]) (pending : r.pending = 0)
    (hidden : r.hidden = false) (closed : r.closedQueued = false)
    (timers : ∀ op repeats, r.kind ≠ .timer (some op) repeats) : Kept b' := by
  have hg : b.trace ⊆ b'.trace := by simp [trace]
  apply of_fits
  · rw [handles, Keyed.cons]
    exact ⟨k.handle_unused unused, k.handles⟩
  · rw [ops]; exact k.ops
  · intro id o h' ho hh
    rw [ops] at ho
    obtain ⟨r', hr'⟩ := k.placed id o h' ho hh
    exact ⟨r', by simp [handles, hr']⟩
  · intro h' r' hm
    rw [handles] at hm
    rcases mem_replaced hm with ⟨rfl, rfl⟩ | hm
    · refine ⟨?_, by simp [hidden], by simp [closed], fun op repeats hk => absurd hk (timers op repeats),
        by simp [trace]⟩
      rw [pending, ops, eq_comm, countP_eq_zero]
      rintro ⟨id, o⟩ ho hn
      obtain ⟨r₀, hr₀⟩ := k.placed id o h' ho hn
      exact k.handle_unused unused r₀ hr₀
    · exact (k.fits hm).mono (by rw [ops]) hg
  · rw [ops]; exact fun id o ho => hg (k.accepted id o ho)

lemma dropped (live : b.handles = (h, r) ::ₘ S) (idle : r.pending = 0) (handles : b'.handles = S)
    (ops : b'.ops = b.ops) (trace : b.trace ⊆ b'.trace) : Kept b' := by
  have hk := k.handles
  rw [live] at hk
  have hn : ∀ p ∈ b.ops, ¬On h p := countP_eq_zero.mp (by rw [← k.pending h r (mem_head live), idle])
  apply of_fits
  · rw [handles]; exact hk.tail
  · rw [ops]; exact k.ops
  · intro id o h' ho hh
    rw [ops] at ho
    obtain ⟨r', hr'⟩ := k.placed id o h' ho hh
    rw [live] at hr'
    rcases mem_replaced hr' with ⟨rfl, -⟩ | hm
    · exact absurd hh (hn _ ho)
    · exact ⟨r', by rwa [handles]⟩
  · rw [handles]; exact fun h' r' hm => (k.fits (mem_rest live hm)).mono (by rw [ops]) trace
  · rw [ops]; exact fun id o ho => trace (k.accepted id o ho)

lemma issued (unused : .accepted id ∉ b.trace) (live : b.handles = (h, r) ::ₘ S)
    (on : o.handle = some h) (unclosed : r.closing = none) (first : r.hidden = true → r.pending = 0)
    (handles : b'.handles = (h, { r with pending := r.pending + 1 }) ::ₘ S) (ops : b'.ops = (id, o) ::ₘ b.ops)
    (trace : b.trace ⊆ b'.trace) (accepted : .accepted id ∈ b'.trace) : Kept b' := by
  have hf := k.fits (mem_head live)
  apply of_fits
  · exact k.set_keyed live handles
  · rw [ops, Keyed.cons]
    exact ⟨k.op_unused unused, k.ops⟩
  · intro id' o' h' ho hh
    rw [ops] at ho
    rcases mem_replaced ho with ⟨rfl, rfl⟩ | ho
    · obtain rfl := Option.some.inj (on.symm.trans hh)
      exact ⟨_, mem_head handles⟩
    · exact set_placed live handles (k.placed id' o' h' ho hh)
  · refine k.set_fits live handles ⟨?_, fun hh => ?_, fun hc => ?_, hf.timers, trace hf.created⟩ (fun h' hn => ?_) trace
    · rw [ops, countP_cons_of_pos _ (show On h (id, o) from on), ← hf.pending]
    · exact ⟨by simp [first hh], unclosed, (hf.hidden hh).2.2⟩
    · exact absurd unclosed (hf.closed hc).1
    · rw [ops, countP_cons_of_neg _ (fun hb : On h' (id, o) => hn (Option.some.inj (hb.symm.trans on)))]
  · intro id' o' ho
    rw [ops] at ho
    rcases mem_replaced ho with ⟨rfl, rfl⟩ | ho
    · exact accepted
    · exact trace (k.accepted _ _ ho)

lemma issuedLoose (unused : .accepted id ∉ b.trace) (loose : o.handle = none)
    (handles : b'.handles = b.handles) (ops : b'.ops = (id, o) ::ₘ b.ops) (trace : b.trace ⊆ b'.trace)
    (accepted : .accepted id ∈ b'.trace) : Kept b' := by
  apply of_fits
  · rw [handles]; exact k.handles
  · rw [ops, Keyed.cons]
    exact ⟨k.op_unused unused, k.ops⟩
  · intro id' o' h' ho hh
    rw [ops] at ho
    rw [handles]
    rcases mem_replaced ho with ⟨rfl, rfl⟩ | ho
    · cases loose.symm.trans hh
    · exact k.placed id' o' h' ho hh
  · intro h' r' hm
    rw [handles] at hm
    have hf : ¬On h' (id, o) := fun hn => by cases loose.symm.trans hn
    exact (k.fits hm).mono (by rw [ops, countP_cons_of_neg _ hf]) trace
  · intro id' o' ho
    rw [ops] at ho
    rcases mem_replaced ho with ⟨rfl, rfl⟩ | ho
    · exact accepted
    · exact trace (k.accepted _ _ ho)

lemma finished (active : b.ops = (id, o) ::ₘ R) (live : b.handles = (h, r) ::ₘ S)
    (on : o.handle = some h) {kind : Kind} (same : r.kind.Same kind)
    (unarmed : ∀ op repeats, kind ≠ .timer (some op) repeats)
    (handles : b'.handles = (h, { r with pending := r.pending - 1, kind := kind }) ::ₘ S) (ops : b'.ops = R)
    (trace : b'.trace = b.trace) : Kept b' := by
  have hf := k.fits (mem_head live)
  have ha := k.ops
  rw [active] at ha
  apply of_fits
  · exact k.set_keyed live handles
  · rw [ops]; exact ha.tail
  · rw [ops]; exact fun id' o' h' ho hh => set_placed live handles (k.placed id' o' h' (mem_rest active ho) hh)
  · refine k.set_fits live handles
      ⟨?_, fun hh => ?_, fun hc => ?_, fun op repeats hi => absurd hi (unarmed op repeats), ?_⟩
      (fun h' hn => ?_) (trace ▸ List.Subset.refl _)
    · have hp := hf.pending
      rw [active, countP_cons_of_pos _ (show On h (id, o) from on)] at hp
      simp [hp, ops]
    · obtain ⟨hp, hc, ht⟩ := hf.hidden hh
      exact ⟨(Nat.sub_le _ _).trans hp, hc, (Kind.isTimer_same same).trans ht⟩
    · obtain ⟨hl, hp⟩ := hf.closed hc
      exact ⟨hl, by simp [hp]⟩
    · rw [trace]; exact hf.created
    · rw [ops, active, countP_cons_of_neg _ (fun hb : On h' (id, o) => hn (Option.some.inj (hb.symm.trans on)))]
  · rw [ops, trace]; exact fun id' o' ho => k.accepted _ _ (mem_rest active ho)

lemma finishedLoose (active : b.ops = (id, o) ::ₘ R) (loose : o.handle = none)
    (handles : b'.handles = b.handles) (ops : b'.ops = R) (trace : b'.trace = b.trace) : Kept b' := by
  have ha := k.ops
  rw [active] at ha
  apply of_fits
  · rw [handles]; exact k.handles
  · rw [ops]; exact ha.tail
  · rw [ops, handles]; exact fun id' o' h' ho => k.placed id' o' h' (mem_rest active ho)
  · intro h' _ hm
    rw [handles] at hm
    have hf : ¬On h' (id, o) := fun hn => by cases loose.symm.trans hn
    exact (k.fits hm).mono (by rw [active, ops, countP_cons_of_neg _ hf]) (trace ▸ List.Subset.refl _)
  · rw [ops, trace]; exact fun id' o' ho => k.accepted _ _ (mem_rest active ho)

lemma step (step : Step A b b') : Kept b' := by
  have grow (es : List Effect) : b.trace ⊆ b.trace ++ es := List.subset_append_left _ _
  cases step with
  | opened h kind un una => exact k.opened un rfl rfl rfl rfl rfl rfl una
  | dropped remaining es live idle => exact k.dropped live idle rfl rfl (grow es)
  | tuned kind hidden live same ow idle =>
    have hd := k.closed _ _ (mem_head live)
    refine k.retune live rfl rfl (List.Subset.refl _) rfl ?_ hd ow
    intro hh
    obtain ⟨hp, hc, ht⟩ := idle hh
    exact ⟨by simp [hp], hc, (Kind.isTimer_same same).trans ht⟩
  | issued es live on unclosed first ad =>
    exact k.issued ad.unused live on unclosed first rfl rfl (grow _) (by simp)
  | issuedLoose loose ad => exact k.issuedLoose ad.unused loose rfl rfl (grow _) (by simp)
  | flagged cancel timedOut stop jobCancel active | took leave active => exact k.reflag active rfl rfl rfl rfl
  | pooled | refused | notified | posted => exact k.frame rfl rfl (List.Subset.refl _)
  | polled | drained => exact k.frame rfl rfl (grow _)
  | finished shown kind active live on ordinary introduces shows same una =>
    exact k.finished active live on same una rfl rfl rfl
  | finishedLoose active loose => exact k.finishedLoose active loose rfl rfl rfl
  | closeQueued live closing idle =>
    have hi := k.hidden _ _ (mem_head live)
    have hb := fun op repeats => k.timers _ _ op repeats (mem_head live)
    exact k.retune live rfl rfl (List.Subset.refl _) rfl hi (fun _ => ⟨by simp [closing], idle⟩) hb
  | referenced referenced live =>
    have hi := k.hidden _ _ (mem_head live)
    have hd := k.closed _ _ (mem_head live)
    have hb := fun op repeats => k.timers _ _ op repeats (mem_head live)
    exact k.retune live rfl rfl (List.Subset.refl _) rfl hi hd hb
  | closing token live shown first =>
    have hd := k.closed _ _ (mem_head live)
    have hb := fun op repeats => k.timers _ _ op repeats (mem_head live)
    refine k.retune live rfl rfl (grow _) rfl (fun hh => ?_) (fun hc => ?_) hb
    · cases shown.symm.trans hh
    · exact absurd first (hd hc).1
  | drainedClosed remaining oldest closes live last =>
    exact k.dropped live (k.closed _ _ (mem_head live) last).2 rfl rfl (grow _)

end Kept

end Turnloop.Books
