import Mathlib.Data.UInt
import Turnloop.Driver.Run

/-! Operations, handles and the liveness count over any run. -/

namespace Turnloop

open Lib List Multiset Option

namespace Driver

variable {d d₀ : Driver} {filesystem : Filesystem} {config : Config} {built : Result Unit} {next : ℕ}
  {calls : List Call} {id : OpId} {h : Handle}

def Holds (d : Driver) (id : OpId) : Prop := id.owner = d.owner ∧ (d.ops.get id.key).isSome = true

instance (d : Driver) (id : OpId) : Decidable (d.Holds id) := inferInstanceAs (Decidable (_ ∧ _))

lemma holds_iff (s : d.Sound) : d.Holds id ↔ d.books.Active id := by
  constructor
  · rintro ⟨mine, hs⟩
    obtain ⟨raw, hr⟩ := isSome_iff_exists.mp hs
    exact ⟨raw.bare, s.mem_active.mpr ⟨mine, raw, hr, rfl⟩⟩
  · rintro ⟨o, ho⟩
    obtain ⟨mine, raw, hr, -⟩ := s.mem_active.mp ho
    exact ⟨mine, isSome_iff_exists.mpr ⟨raw, hr⟩⟩

def Placed (d : Driver) (out : List Completion) (id : OpId) : Prop :=
  let queued := (d.queued.map Queued.completion).countP (·.finishes id)
  let appended := out.countP (·.finishes id)
  (d.Holds id ∧ queued = 0 ∧ appended = 0) ∨ (¬d.Holds id ∧ queued = 1 ∧ appended = 0) ∨
    (¬d.Holds id ∧ queued = 0 ∧ appended = 1)

lemma placed_of_accepted (g : d.Good) (accepted : .accepted id ∈ d.trace) : d.Placed d.books.delivered id := by
  have hl := g.balanced.ledger
  have hp : d.books.stream.countP (·.finishes id) =
      d.books.delivered.countP (·.finishes id) + (d.queued.map Queued.completion).countP (·.finishes id) :=
    countP_append
  by_cases ha : d.books.Active id
  · have hn : d.books.stream.countP (·.finishes id) = 0 :=
      countP_eq_zero.mpr fun c hc => by simpa using hl.unfinished id ha c hc
    exact .inl ⟨(holds_iff g.sound).mpr ha, by omega, by omega⟩
  · obtain ⟨c, hc, hf⟩ := (hl.settled id accepted).resolve_left ha
    have ho : 0 < d.books.stream.countP (·.finishes id) :=
      countP_pos_iff.mpr ⟨c, hc, by simpa using hf⟩
    have he : d.books.stream.countP (·.finishes id) ≤ 1 := by
      refine countP_le_one (hl.once.imp fun {c c'} hb hd => ?_)
      have ht := hb id (by simpa using hd)
      simp [Completion.finishes, ht]
    have hi : ¬d.Holds id := fun hh => ha ((holds_iff g.sound).mp hh)
    rcases Nat.eq_zero_or_pos ((d.queued.map Queued.completion).countP (·.finishes id)) with hq | hq
    · exact .inr (.inr ⟨hi, hq, by omega⟩)
    · exact .inr (.inl ⟨hi, by omega, by omega⟩)

lemma total_final (l : List Queued) : total (·.final.toNat) l = l.countP Queued.final := by
  induction l with
  | nil => rfl
  | cons q l ih =>
    rw [total_cons, ih, List.countP_cons, ite_toNat, Nat.add_comm]

lemma active_card (d : Driver) : d.active.card = d.ops.entries.length := by
  simp [active, Table.view]

lemma reach (hn : Driver.new filesystem config built next = .ok d₀) (own : ∀ call ∈ calls, call.Local next) :
    Refines .all d₀ (d₀.run calls) ∧ (d₀.run calls).books.delivered = d₀.outputs calls := by
  have hf := new_fresh hn
  have ho : ∀ call ∈ calls, call.Local d₀.owner := by rwa [hf.owner]
  refine ⟨run_refines hf.good ho, ?_⟩
  have hd := run_delivered hf.good ho
  have hb : d₀.books.delivered = [] := by simp [Books.delivered, books, hf.trace]
  rwa [hb, nil_append] at hd

theorem operations_complete_once (hn : Driver.new filesystem config built next = .ok d₀)
    (own : ∀ call ∈ calls, call.Local next) :
    let d := d₀.run calls
    let stream := d₀.outputs calls ++ d.queued.map Queued.completion
    (∀ id ∈ d₀.returned calls, .accepted id ∈ d.trace) ∧
    (∀ id, .accepted id ∈ d.trace → d.Placed (d₀.outputs calls) id) ∧
    stream.Pairwise (fun c c' => ∀ id, c.finishes id → c'.op ≠ some id) ∧
    (∀ c ∈ stream, ∀ id, c.op = some id → .accepted id ∈ d.trace) ∧
    (∀ call, call.Local next → (d.exec call).2.accepts = false → ∀ id, .accepted id ∈ (d.exec call).1.trace →
      .accepted id ∈ d.trace) ∧
    d.outstanding = d.ops.entries.length + d.queued.countP Queued.final ∧
    d.outstanding ≤ config.maxOperations := by
  have hh := new_fresh hn
  obtain ⟨hr, ho⟩ := reach hn own
  have hw : ∀ call ∈ calls, call.Local d₀.owner := by rwa [hh.owner]
  have hl := hr.good.balanced.ledger
  have he := hr.good.balanced.exact_
  have hc : (d₀.run calls).config = config := (Books.Steps.config hr.steps).trans hh.config
  simp only
  rw [← ho]
  refine ⟨fun id hi => run_returned hh.good hw hi, fun id hi => placed_of_accepted hr.good hi, hl.once,
    hl.known, fun call hb hd id hi => ?_, ?_, ?_⟩
  · have hl' : call.Local (d₀.run calls).owner := by rwa [hr.owner, hh.owner]
    have hs := Books.Steps.since (exec_refused hr.good hl' hd).steps
    exact hs.accepted (fun hf => hf) hi
  · rw [← active_card, ← total_final]
    exact he.outstanding
  · rw [← hc]
    exact he.outstanding_le

def readAndClose : List Call :=
  [.openSocket (.ok ()), .submit ⟨1, 2 ^ 32⟩ (.read false) 7 (.ok ()), .close ⟨1, 2 ^ 32⟩ 8 (.ok ()) fun _ => .ok (),
    .turn .now 1 { Surroundings.quiet with events := [⟨⟨1, 2 ^ 32⟩, true, .ok (.read 3 none)⟩] },
    .turn .now 1 .quiet]

lemma readAndClose_local : ∀ call ∈ readAndClose, call.Local 1 := by
  simp [readAndClose, Call.Local, Surroundings.quiet]

theorem operations_complete_once_read : ∃ d₀, Driver.new .pool .small (.ok ()) 1 = .ok d₀ ∧
    d₀.returned readAndClose = [⟨1, 2 ^ 32⟩] ∧ (d₀.run readAndClose).Placed (d₀.outputs readAndClose) ⟨1, 2 ^ 32⟩ := by
  have hp {d₀ : Driver} (hn : Driver.new .pool .small (.ok ()) 1 = .ok d₀) :=
    operations_complete_once hn readAndClose_local
  refine ⟨_, rfl, by decide +kernel, ?_⟩
  exact (hp rfl).2.1 _ ((hp rfl).1 _ (by decide +kernel))

end Driver

def Call.closes : Call → Option Handle
  | .close h .. | .signalStop h .. => some h
  | _ => none

def Reply.done : Reply → Bool
  | .unit (.ok _) => true
  | _ => false

namespace Driver

variable {d d₀ : Driver} {filesystem : Filesystem} {config : Config} {built : Result Unit} {next : ℕ}
  {calls : List Call} {h : Handle}

def closed : Driver → List Call → List Handle
  | _, [] => []
  | d, call :: rest => (if (d.exec call).2.done then call.closes.toList else []) ++ closed (d.exec call).1 rest

lemma close_closing (g : d.Good) (done : (d.close h token prepared cancelled).2 = .ok ()) :
    ∃ kind, .closing h kind ∈ (d.close h token prepared cancelled).1.trace := by
  rw [close] at done ⊢
  cases hr : d.resource h with
  | error => simp [hr] at done
  | ok r =>
    simp only [hr] at done ⊢
    split at done
    case isTrue => cases done
    case isFalse ho =>
      rw [if_neg ho]
      split at done
      case h_1 => cases done
      case h_2 =>
        have mine := (g.sound.mem_live.mp (resource_ok g.sound hr).1).1
        have hb : Refines .all d _ := beginClose_refines g hr (by simpa using ho) trivial token
        have hc : Refines .all _ _ := cancelAll_refines hb.good r false cancelled
        have hw := mine.trans (hc.owner.trans hb.owner).symm
        have hd := hc.trans (maybeClosed_refines hc.good hw)
        refine ⟨r.kind, (Books.Steps.since hd.steps).trace_sub ?_⟩
        simp [books, beginClose, note]

lemma exec_closing (g : d.Good) (hc : call.closes = some h) (done : (d.exec call).2.done = true) :
    ∃ kind, .closing h kind ∈ (d.exec call).1.trace := by
  have hl {d : Driver} (g : d.Good) {token : Token} {prepared : Result Unit} {cancelled : OpId → Result Unit}
      (hd : ((d.close h token prepared cancelled).map id Reply.unit).2.done = true) :
      ∃ kind, .closing h kind ∈ (d.close h token prepared cancelled).1.trace := by
    refine close_closing g ?_
    cases hp : d.close h token prepared cancelled with
    | mk d' res =>
      rw [hp] at hd
      cases res with
      | error => cases hd
      | ok => rfl
  cases call with
  | close =>
    cases hc
    exact hl g done
  | signalStop h' token prepared stopped =>
    obtain rfl := Option.some.inj hc
    rw [exec, signalStop] at done ⊢
    cases hr : d.resource h' with
    | error => simp [hr, Reply.done] at done
    | ok r =>
      simp only [hr] at done ⊢
      have hs : Refines .all d _ := cancelAll_refines g r true stopped
      exact hl hs.good done
  | _ => cases hc

lemma run_closing (g : d.Good) (own : ∀ call ∈ calls, call.Local d.owner) (hh : h ∈ d.closed calls) :
    ∃ kind, .closing h kind ∈ (d.run calls).trace := by
  induction calls generalizing d with
  | nil => cases hh
  | cons call rest ih =>
    have ho := exec_all g (own call mem_cons_self)
    have hr := ho.local_rest own
    rw [closed, mem_append] at hh
    rcases hh with hh | hh
    · split at hh
      case isTrue hd =>
        obtain ⟨kind, hk⟩ := exec_closing g (mem_toList.mp hh) hd
        exact ⟨kind, (Books.Steps.since (run_refines ho.good hr).steps).trace_sub hk⟩
      case isFalse => cases hh
    · exact ih ho.good hr hh

def HoldsHandle (d : Driver) (h : Handle) : Prop := h.owner = d.owner ∧ (d.handles.get h.key).isSome = true

lemma holdsHandle_iff (s : d.Sound) : d.HoldsHandle h ↔ d.books.Live h := by
  constructor
  · rintro ⟨mine, ho⟩
    obtain ⟨raw, ha⟩ := isSome_iff_exists.mp ho
    exact ⟨raw.bare, s.mem_live.mpr ⟨mine, raw, ha, rfl⟩⟩
  · rintro ⟨r, hr⟩
    obtain ⟨mine, raw, ha, -⟩ := s.mem_live.mp hr
    exact ⟨mine, isSome_iff_exists.mpr ⟨raw, ha⟩⟩

def Releases (d : Driver) (h : Handle) (kind : Kind) : Prop :=
  (d.HoldsHandle h ∧ ∀ e ∈ d.trace, ¬e.Lets h) ∨
    (¬d.HoldsHandle h ∧ ∃ before c after, d.trace = before ++ (.appended c :: Effect.release h kind ++ after) ∧
      c.closes h ∧ (∀ e ∈ before, ¬e.Lets h) ∧ ∀ e ∈ after, ¬e.Lets h)

lemma releases_of_closing (g : d.Good) (hl : .closing h kind ∈ d.trace) : d.Releases h kind := by
  have hc := g.balanced.closing
  rcases hc.closing h kind hl with ⟨r, hr, -⟩ | hg
  · exact .inl ⟨(holdsHandle_iff g.sound).mpr ⟨r, hr⟩, hc.held h ⟨r, hr⟩⟩
  · refine .inr ⟨fun hh => ?_, hg⟩
    obtain ⟨_, c, _, ht, hs, -⟩ := hg
    have hd : c ∈ d.books.delivered := by
      rw [Books.delivered, ht]
      simp [Books.appended]
    exact (hc.delivered c hd h hs).1 ((holdsHandle_iff g.sound).mp hh)

theorem closed_is_last (hn : Driver.new filesystem config built next = .ok d₀)
    (own : ∀ call ∈ calls, call.Local next) (hh : h ∈ d₀.closed calls) :
    let d := d₀.run calls
    let stream := d₀.outputs calls ++ d.queued.map Queued.completion
    stream.countP (·.closes h) ≤ 1 ∧
    ((∃ q ∈ d.queued, q.completion.closes h) → ∀ key op, d.ops.get key = some op → op.handle ≠ some h) ∧
    stream.Pairwise (fun c c' => c.closes h → ¬c'.names h) ∧
    ∃ kind, .closing h kind ∈ d.trace ∧ d.Releases h kind := by
  have hf := new_fresh hn
  obtain ⟨hu, ho⟩ := reach hn own
  have hw : ∀ call ∈ calls, call.Local d₀.owner := by rwa [hf.owner]
  obtain ⟨kind, hi⟩ := run_closing hf.good hw hh
  have hc := hu.good.balanced.closing
  have hk := hu.good.balanced.kept
  simp only
  rw [← ho]
  have hl : (d₀.run calls).books.stream.Pairwise fun c c' => c.closes h → ¬c'.names h :=
    hc.last.imp fun hb => hb h
  refine ⟨?_, fun hq key op hp hd => ?_, hl, kind, hi, releases_of_closing hu.good hi⟩
  · refine countP_le_one (hl.imp fun {c c'} hb hm => ?_)
    have hs := hb (by simpa using hm)
    simp only [decide_eq_true_eq]
    exact fun hc' => hs (.inl hc'.2)
  · obtain ⟨r, hr, ht⟩ := (hc.queued h).mp hq
    obtain ⟨-, _⟩ := hk.closed h r hr ht
    have ha : ((⟨(d₀.run calls).owner, key⟩ : OpId), op.bare) ∈ (d₀.run calls).active :=
      hu.good.sound.mem_active.mpr ⟨rfl, op, hp, rfl⟩
    have hv : 0 < (d₀.run calls).active.countP (Books.On h) := countP_pos.mpr ⟨_, ha, hd⟩
    have hg : r.pending = (d₀.run calls).active.countP (Books.On h) := hk.pending h r hr
    omega

theorem closed_is_last_read : ∃ d₀, Driver.new .pool .small (.ok ()) 1 = .ok d₀ ∧
    d₀.closed readAndClose = [⟨1, 2 ^ 32⟩] ∧ ∃ kind, (d₀.run readAndClose).Releases ⟨1, 2 ^ 32⟩ kind := by
  have hp {d₀ : Driver} (hn : Driver.new .pool .small (.ok ()) 1 = .ok d₀)
      (hh : ⟨1, 2 ^ 32⟩ ∈ d₀.closed readAndClose) := closed_is_last hn readAndClose_local hh
  refine ⟨_, rfl, by decide +kernel, ?_⟩
  obtain ⟨-, -, -, kind, -, hr⟩ := hp rfl (by decide +kernel)
  exact ⟨kind, hr⟩

lemma total_referenced (stamped : d.books.Stamped) :
    total (·.referenced.toNat) d.queued = d.queued.countP (fun q => q.completion.terminal && q.referenced) := by
  have he : ∀ q ∈ d.queued, q.referenced = true → q.completion.terminal = true :=
    fun q hq hr => (Bool.and_eq_true_iff.mp ((stamped q hq).final hr)).1
  revert he
  generalize d.queued = l
  intro he
  induction l with
  | nil => rfl
  | cons q l ih =>
    have hq := he q mem_cons_self
    rw [total_cons, ih fun q' hq' => he q' (List.mem_cons_of_mem _ hq'), List.countP_cons, ite_toNat, Nat.add_comm]
    cases hr : q.referenced with
    | false => simp
    | true => simp [hq hr]

def share (r : Resource) : ℕ :=
  if r.referenced = true then r.pending + (if r.kind = .socket ∨ r.kind = .file ∨ r.closing ≠ none then 1 else 0) else 0

lemma share_eq (r : Resource) : share r = r.bare.due := by
  cases hk : r.kind <;> cases hc : r.closing <;>
    simp [share, Resource.due, Resource.weight, Resource.bare, Kind.isTimer, hk, hc]

lemma share_eq_zero (referenced : r.referenced = true) :
    share r = 0 ↔ r.pending = 0 ∧ r.kind ≠ .socket ∧ r.kind ≠ .file ∧ r.closing = none := by
  rw [share, if_pos referenced, Nat.add_eq_zero_iff]
  refine and_congr_right fun _ => ?_
  simp [not_or]

lemma tally_live (d : Driver) : tally Books.due d.live = (d.handles.entries.map fun p => share p.2).sum := by
  simp [tally, live, Table.view, Books.due, Function.comp_def, share_eq]

lemma tally_active (d : Driver) : tally Books.loose d.active = d.ops.entries.countP (fun p => p.2.handle = none) := by
  rw [active, Table.view, tally, Multiset.map_map, Multiset.map_coe, Multiset.sum_coe]
  induction d.ops.entries with
  | nil => rfl
  | cons p l ih =>
    rw [List.map_cons, List.sum_cons, ih, List.countP_cons, ite_toNat, Nat.add_comm]
    cases hh : p.2.handle <;> simp [Books.loose, Op.bare, hh]

lemma count_on (d : Driver) (h : Handle) :
    d.active.countP (Books.On h) = d.ops.entries.countP (fun p => p.2.handle = some h) := by
  rw [active, Table.view, Multiset.countP_map, ← Multiset.countP_eq_card_filter, Multiset.coe_countP]
  rfl

theorem refs_exact (hn : Driver.new filesystem config built next = .ok d₀) (own : ∀ call ∈ calls, call.Local next) :
    let d := d₀.run calls
    d.refs = (d.handles.entries.map fun p => share p.2).sum + d.ops.entries.countP (fun p => p.2.handle = none) +
        d.queued.countP (fun q => q.completion.terminal && q.referenced) ∧
    (∀ key r, d.handles.get key = some r →
      r.pending = d.ops.entries.countP (fun p => p.2.handle = some ⟨d.owner, key⟩)) ∧
    (∀ q ∈ d.queued, q.completion.terminal = true → q.completion.op ≠ none → ∀ h r, q.completion.handle = some h →
      h.owner = d.owner → d.handles.get h.key = some r → q.referenced = r.referenced) ∧
    .underflow ∉ d.faults ∧
    (d.alive = false ↔ (∀ key r, d.handles.get key = some r → r.referenced = true →
        r.pending = 0 ∧ r.kind ≠ .socket ∧ r.kind ≠ .file ∧ r.closing = none) ∧
      (∀ key op, d.ops.get key = some op → op.handle ≠ none) ∧
      ∀ q ∈ d.queued, q.completion.terminal = true → q.referenced = false) := by
  have hf := new_fresh hn
  obtain ⟨hu, -⟩ := reach hn own
  simp only
  generalize d₀.run calls = d at hu
  have hd := hu.good.sound
  have hb := hu.good.balanced
  have he : d.refs = tally Books.due d.live + tally Books.loose d.active + total (·.referenced.toNat) d.queued :=
    hb.exact_.refs
  rw [tally_live, tally_active, total_referenced hb.stamped] at he
  refine ⟨he, fun key r hr => ?_, fun q hq ht ho h r hh mine hr => ?_, hf.no_underflow hu, ?_⟩
  · rw [← count_on]
    exact hb.kept.pending _ r.bare (hd.mem_live.mpr ⟨rfl, r, hr, rfl⟩)
  · have hi : q.final = true := by simp [Queued.final, ht, isSome_iff_ne_none, ho]
    exact (hb.stamped q hq).flag hi h r.bare hh (hd.mem_live.mpr ⟨mine, r, hr, rfl⟩)
  · have ha : d.alive = false ↔ d.refs = 0 := by simp [alive]
    rw [ha, he, Nat.add_eq_zero_iff, Nat.add_eq_zero_iff, List.sum_eq_zero_iff, List.countP_eq_zero,
      countP_eq_zero, and_assoc]
    refine and_congr ?_ (and_congr ?_ ?_)
    · constructor
      · intro hl key r hr hc
        refine (share_eq_zero hc).mp (hl _ (mem_map.mpr ⟨(key, r), ?_, rfl⟩))
        exact (Table.mem_entries hd.handles).mpr hr
      · intro hl n hn
        obtain ⟨⟨key, r⟩, hr, rfl⟩ := mem_map.mp hn
        cases hc : r.referenced with
        | false => simp [share, hc]
        | true =>
          exact (share_eq_zero hc).mpr (hl key r ((Table.mem_entries hd.handles).mp hr) hc)
    · constructor
      · intro hl key op ho
        simpa using hl (key, op) ((Table.mem_entries hd.ops).mpr ho)
      · rintro hl ⟨key, op⟩ ho
        simpa using hl key op ((Table.mem_entries hd.ops).mp ho)
    · refine forall₂_congr fun q _ => ?_
      cases q.completion.terminal <;> simp

theorem refs_exact_read : ∃ d₀, Driver.new .pool .small (.ok ()) 1 = .ok d₀ ∧
    (d₀.run (readAndClose.take 2)).refs = 2 ∧ .underflow ∉ (d₀.run (readAndClose.take 2)).faults := by
  have hl : ∀ call ∈ readAndClose.take 2, call.Local 1 :=
    fun call hm => readAndClose_local call (mem_of_mem_take hm)
  have hp {d₀ : Driver} (hn : Driver.new .pool .small (.ok ()) 1 = .ok d₀) := refs_exact hn hl
  exact ⟨_, rfl, by decide +kernel, (hp rfl).2.2.2.1⟩

end Driver

end Turnloop
