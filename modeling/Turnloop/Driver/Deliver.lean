import Turnloop.Driver.Events

/-! Completions reach the host, and `Closed` takes its handle along. -/

namespace Turnloop.Driver

open Lib List

variable {A : Leave} {d d' : Driver} {h : Handle} {r : Resource} {q : Queued} {rest : List Queued}

def shifted (d : Driver) (q : Queued) (rest : List Queued) : Driver :=
  { d with
    queued := rest
    refs := d.refs - q.referenced.toNat
    buffered := (d.books.shift q rest).buffered
    outstanding := d.outstanding - q.final.toNat
    trace := d.trace ++ [Effect.appended q.completion] }

lemma shifted_becomes (s : d.Sound) (q : Queued) (rest : List Queued) :
    Becomes d (d.shifted q rest) (d.books.shift q rest) :=
  ⟨s.edit rfl (.refl s.handles) (.refl s.ops) (by simp [shifted]) (by simp [shifted]), rfl, rfl⟩

def letGo (d : Driver) (h : Handle) : Driver :=
  match d.freeHandle h with
  | (d, none) => d
  | (d, some r) =>
    let d := match r.kind with
      | .socket => d.releaseBackend h
      | .file => d.releaseFile h
      | .timer .. => d
    if r.referenced then d.subRefs 1 else d

lemma subOutstanding_if {final : Bool} (hn : final.toNat ≤ d.outstanding) :
    (if final = true then d.subOutstanding else d) = { d with outstanding := d.outstanding - final.toNat } := by
  cases final with
  | false => rfl
  | true => exact subOutstanding_eq hn

lemma unbuffered {d e : Driver} {l : List Queued} (same : e.buffered = d.buffered)
    (h : ∀ k, q.eventClass = some k → 1 ≤ d.buffered k) :
    (match q.eventClass with
      | none => e
      | some k =>
        { e.check (1 ≤ e.buffered k) .underflow with
          buffered := Function.update e.buffered k (e.buffered k - 1) }) =
      { e with buffered := (d.books.shift q l).buffered } := by
  simp only [Books.shift, books]
  cases hk : q.eventClass with
  | none => simp [← same]
  | some k =>
    have hn : 1 ≤ e.buffered k := same ▸ h k hk
    simp only
    rw [check_eq hn, same]

lemma drainOne_of {d d₁ d₂ d₃ : Driver}
    (h₁ : d₁ = subRefs { d with queued := rest } (if q.referenced = true then 1 else 0))
    (h₂ : d₂ = match q.eventClass with
      | none => d₁
      | some k => { d₁.check (1 ≤ d₁.buffered k) .underflow with
          buffered := Function.update d₁.buffered k (d₁.buffered k - 1) })
    (h₃ : d₃ = if (q.completion.terminal && q.completion.op.isSome) = true then d₂.subOutstanding else d₂) :
    d.drainOne q rest = match (if q.completion.result = .closed then q.completion.handle else none) with
      | none => d₃.note (.appended q.completion)
      | some h => (d₃.note (.appended q.completion)).letGo h := by
  subst h₁ h₂ h₃
  rfl

lemma drainOne_eq (g : d.Good) (oldest : d.queued = q :: rest) :
    d.drainOne q rest = match (if q.completion.result = .closed then q.completion.handle else none) with
      | none => d.shifted q rest
      | some h => (d.shifted q rest).letGo h := by
  have hr : d.refs = _ + total _ d.queued := g.balanced.exact_.refs
  have ho : d.outstanding = _ + total _ d.queued := g.balanced.exact_.outstanding
  have hb (k : EventClass) : d.buffered k = total _ d.queued := g.balanced.exact_.buffered k
  simp only [oldest, total_cons] at hr ho hb
  have hf : subRefs { d with queued := rest } (if q.referenced = true then 1 else 0) =
      { d with queued := rest, refs := d.refs - q.referenced.toNat } := by
    rw [ite_toNat]
    exact subRefs_eq (by simp only; omega)
  have hh (d₁ : Driver) (same : d₁.outstanding = d.outstanding) :
      (if (q.completion.terminal && q.completion.op.isSome) = true then d₁.subOutstanding else d₁) =
        { d₁ with outstanding := d.outstanding - q.final.toNat } := by
    have hi : (if q.final = true then d₁.subOutstanding else d₁) = _ := subOutstanding_if (by omega)
    rwa [same] at hi
  have h₂ := unbuffered (d := d) (e := { d with queued := rest, refs := d.refs - q.referenced.toNat })
    (l := rest) (q := q) rfl
    fun k hk => by
      rw [hb k, Books.ofClass, hk]
      simp
  have h₃ := hh { d with
    queued := rest
    refs := d.refs - q.referenced.toNat
    buffered := (d.books.shift q rest).buffered } rfl
  rw [drainOne_of hf.symm h₂.symm h₃.symm]
  cases hc : (if q.completion.result = .closed then q.completion.handle else none) with
  | none => rfl
  | some => rfl

lemma Good.closer (g : d.Good) (oldest : d.queued = q :: rest) (closes : q.completion.closes h) :
    ∃ raw, (h, raw.bare) ∈ d.live ∧ d.handles.get h.key = some raw ∧ raw.closedQueued = true ∧
      raw.referenced.toNat ≤ d.refs - q.referenced.toNat := by
  have hm : q ∈ d.queued := oldest ▸ mem_cons_self
  obtain ⟨r, hr, hl⟩ := (g.balanced.closing.queued h).mp ⟨q, hm, closes⟩
  obtain ⟨hc, hi⟩ := g.balanced.kept.closed h r hr hl
  obtain ⟨_, raw, ha, rfl⟩ := g.sound.mem_live.mp hr
  -- A `Closed` is never counted itself, so what its handle is due is still in the count.
  have hf : q.referenced = false := by
    have hp := g.balanced.stamped q hm
    refine Bool.eq_false_iff.mpr fun hq => ?_
    obtain ⟨-, ho⟩ := Bool.and_eq_true_iff.mp (hp.final hq)
    cases hp.shaped with
    | ordinary id named ordinary => exact Books.not_closed ordinary closes.1
    | closed h' un | posted p un => simp [un] at ho
  have hd : (raw.bare).due ≤ d.refs := g.balanced.exact_.due_le hr
  have hd' := Books.due_closing (h := h) hi hc
  refine ⟨raw, hr, ha, hl, ?_⟩
  rw [hf]
  exact hd'.symm.le.trans hd

lemma letGo_eq (g : d.Good) {raw : Resource} (hr : d.handles.get h.key = some raw)
    (referenced : raw.referenced.toNat ≤ d.refs - q.referenced.toNat) :
    (d.shifted q rest).letGo h = { d.shifted q rest with
      handles := (d.handles.remove h.key).1
      refs := d.refs - q.referenced.toNat - raw.referenced.toNat
      trace := d.trace ++ (.appended q.completion :: Effect.release h raw.kind) } := by
  rw [letGo, freeHandle_eq (shifted_becomes g.sound q rest).sound (by exact hr)]
  simp only
  cases raw.kind with
  | socket =>
    rw [subRefs_if (by exact referenced)]
    simp [shifted, releaseBackend, note, Effect.release]
  | file =>
    rw [subRefs_if (by exact referenced)]
    simp [shifted, releaseFile, note, Effect.release]
  | timer =>
    rw [subRefs_if (by exact referenced)]
    simp [shifted, Effect.release]

lemma letGo_refines (g : d.Good) (oldest : d.queued = q :: rest) (closes : q.completion.closes h)
    (leave : A.delivers) : Refines A d ((d.shifted q rest).letGo h) := by
  obtain ⟨raw, hr, ha, hl, he⟩ := g.closer oldest closes
  have removed := (Table.remove_removed g.sound.handles ha).2
  have ho := removed.remaining
  have hp := Books.Step.drainedClosed (A := A) (b := d.books) (d.handles.remove h.key).1.remaining oldest closes
    (remove_live g.sound hr) hl ho.1 ho.2 leave
  rw [letGo_eq g ha he]
  refine .of_step g ⟨g.sound.edit rfl removed.later (.refl g.sound.ops) ?_ ?_, rfl, rfl⟩ hp
  · cases raw.kind <;> simp [Effect.release]
  · cases raw.kind <;> simp [Effect.release]

lemma drainOne_refines (g : d.Good) (oldest : d.queued = q :: rest) (leave : A.delivers) :
    Refines A d (d.drainOne q rest) := by
  rw [drainOne_eq g oldest]
  have ho (open_ : q.completion.result ≠ .closed) : Refines A d (d.shifted q rest) :=
    .of_step g (shifted_becomes g.sound q rest) (.drained oldest open_ leave)
  have hm : q ∈ d.queued := oldest ▸ List.mem_cons_self
  cases (g.balanced.stamped q hm).shaped with
  | ordinary id named ordinary =>
    rw [if_neg (Books.not_closed ordinary)]
    exact ho (Books.not_closed ordinary)
  | closed h un final closes =>
    rw [if_pos closes.1, closes.2]
    exact letGo_refines g oldest closes leave
  | posted p un unplaced final result =>
    rw [if_neg (by simp [result])]
    exact ho (by simp [result])

lemma drain_refines (g : d.Good) (leave : A.delivers) : Refines A d (d.drain n).1 := by
  induction n generalizing d with
  | zero => exact .refl g
  | succ n ih =>
    rw [drain]
    cases hq : d.queued with
    | nil => exact .refl g
    | cons q rest =>
      have ho : Refines A d (d.drainOne q rest) := drainOne_refines g hq leave
      exact ho.trans (ih ho.good)

lemma drainOne_delivered (g : d.Good) (oldest : d.queued = q :: rest) :
    (d.drainOne q rest).books.delivered = d.books.delivered ++ [q.completion] := by
  have ha (es : List Effect) (none : ∀ e ∈ es, Books.appended e = none) :
      (d.trace ++ (.appended q.completion :: es)).filterMap Books.appended = d.trace.filterMap Books.appended ++
        [q.completion] := by
    rw [append_cons, Books.delivered_append none, filterMap_append]
    rfl
  rw [drainOne_eq g oldest]
  cases hc : (if q.completion.result = .closed then q.completion.handle else none) with
  | none => exact ha [] (by simp)
  | some h =>
    have hl : q.completion.closes h := by
      rw [← Books.closer_eq_some]
      exact hc
    obtain ⟨_, -, hr, -, he⟩ := g.closer oldest hl
    simp only
    rw [letGo_eq g hr he]
    exact ha _ Books.release_appended

lemma drain_delivered {n : ℕ} (g : d.Good) : (d.drain n).1.books.delivered = d.books.delivered ++ (d.drain n).2 := by
  induction n generalizing d with
  | zero => exact (append_nil _).symm
  | succ n ih =>
    rw [drain]
    cases hq : d.queued with
    | nil => exact (append_nil _).symm
    | cons q rest =>
      have ho : Refines .all d (d.drainOne q rest) := drainOne_refines g hq trivial
      simp only
      rw [ih ho.good, drainOne_delivered g hq, append_assoc]
      rfl

end Turnloop.Driver
