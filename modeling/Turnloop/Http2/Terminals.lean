import Turnloop.Http2.Goaway

/-! The streams a failed connection reports. -/

namespace Turnloop.Http2

open Lib List Multiset

def Knows (ns : List Note) (id : ℕ) : Prop :=
  .opened id ∈ ns ∨ ∃ headers fin kind, .event (.headers id headers fin kind) ∈ ns

def Ended (ns : List Note) (id : ℕ) : Prop :=
  (∃ e, .event e ∈ ns ∧ e.delivers = some (id, true)) ∨ (∃ code, .event (.reset id code) ∈ ns) ∨ .reset id ∈ ns

def Reported (ns : List Note) (id : ℕ) : Prop := .terminal id ∈ ns

section

variable {ns ns' : List Note} {id : ℕ}

lemma Knows.append : Knows (ns ++ ns') id ↔ Knows ns id ∨ Knows ns' id := by
  simp only [Knows, mem_append, exists_or]
  grind

lemma Ended.append : Ended (ns ++ ns') id ↔ Ended ns id ∨ Ended ns' id := by
  simp only [Ended, mem_append, or_and_right, exists_or]
  grind

lemma Reported.append : Reported (ns ++ ns') id ↔ Reported ns id ∨ Reported ns' id := mem_append

end

namespace Life

variable {L L' : Life} {ls ms : List Label}

def Still (L : Life) (id : ℕ) : Prop := ∃ a, (id, a) ∈ L.streams ∧ a.remoteEnd = false

/-- A stream the host knows of, or one of `M`, is open until its end is told. -/
structure Tabled (M : Set ℕ) (ns : List Note) (L : Life) : Prop where
  tidy : L.Tidy
  known : ∀ id, Knows ns id ∨ Ended ns id ∨ Reported ns id → id ∈ L.seen
  complete : ∀ id, id ∈ M ∨ Knows ns id → ¬ Ended ns id → ¬ Reported ns id → L.Still id
  still : ∀ id, L.Still id → ¬ Ended ns id ∧ ¬ Reported ns id

namespace Tabled

variable {M : Set ℕ} {ns ns' : List Note}

lemma extend (h : Tabled M ns L) (tidy : L'.Tidy) (hs : L.seen ⊆ L'.seen)
    (hn : ∀ id, Knows ns' id ∨ Ended ns' id ∨ Reported ns' id → id ∈ L'.seen)
    (hp : ∀ id, L.Still id ∨ Knows ns' id → ¬ Ended ns' id → ¬ Reported ns' id → L'.Still id)
    (ht : ∀ id, L'.Still id → (L.Still id ∨ id ∉ L.seen) ∧ ¬ Ended ns' id ∧ ¬ Reported ns' id) :
    Tabled M (ns ++ ns') L' where
  tidy := tidy
  known id hid := by
    rw [Knows.append, Ended.append, Reported.append] at hid
    have hb : (Knows ns id ∨ Ended ns id ∨ Reported ns id) ∨ (Knows ns' id ∨ Ended ns' id ∨ Reported ns' id) := by tauto
    exact hb.elim (fun h' => hs (h.known id h')) (hn id)
  complete id hknows hd hreported := by
    rw [Ended.append, not_or] at hd
    rw [Reported.append, not_or] at hreported
    refine hp id ?_ hd.2 hreported.2
    rw [Knows.append, ← or_assoc] at hknows
    exact hknows.imp_left fun hk => h.complete id hk hd.1 hreported.1
  still id hid := by
    obtain ⟨ho, hd, hreported⟩ := ht id hid
    rw [Ended.append, Reported.append, not_or, not_or]
    rcases ho with ho | hf
    · exact ⟨⟨(h.still id ho).1, hd⟩, (h.still id ho).2, hreported⟩
    · exact ⟨⟨fun he => hf (h.known id (.inr (.inl he))), hd⟩, fun hr => hf (h.known id (.inr (.inr hr))), hreported⟩

lemma quiet (h : Tabled M ns L) (tidy : L'.Tidy) (he : L.seen ⊆ L'.seen)
    (hn : ∀ id, ¬ Knows ns' id ∧ ¬ Ended ns' id ∧ ¬ Reported ns' id) (hk : ∀ id, L.Still id → L'.Still id)
    (hs : ∀ id, L'.Still id → L.Still id ∨ id ∉ L.seen) : Tabled M (ns ++ ns') L' := by
  refine h.extend tidy he (fun id hi => ?_) (fun id hi _ _ => ?_) (fun id hi => ⟨hs id hi, (hn id).2⟩)
  · rcases hi with hi | hi | hi
    · exact ((hn id).1 hi).elim
    · exact ((hn id).2.1 hi).elim
    · exact ((hn id).2.2 hi).elim
  · exact hi.elim (hk id) fun hi => ((hn id).1 hi).elim

lemma close (h : Tabled M ns L) (tidy : L'.Tidy) {id : ℕ}
    (hn : n = .reset id ∨ n = .terminal id ∨ ∃ code, n = .event (.reset id code)) (he : L'.seen = L.seen)
    (hd : id ∈ L.seen)
    (ho : ∀ i, L'.Still i ↔ L.Still i ∧ i ≠ id) : Tabled M (ns ++ [n]) L' := by
  have hk : ∀ i, ¬ Knows [n] i := by rcases hn with rfl | rfl | ⟨code, rfl⟩ <;> simp [Knows]
  have hb : ∀ i, Ended [n] i ∨ Reported [n] i ↔ i = id := by
    rcases hn with rfl | rfl | ⟨code, rfl⟩ <;> simp [Ended, Reported, Event.delivers]
  refine h.extend tidy he.ge (fun i hi => ?_) (fun i hi hc hr => (ho i).mpr ?_) (fun i hi => ?_)
  · rw [he, (hb i).mp (hi.resolve_left (hk i))]
    exact hd
  · exact ⟨hi.resolve_right (hk i), fun hq => ((hb i).mpr hq).elim hc hr⟩
  · obtain ⟨hl, hf⟩ := (ho i).mp hi
    exact ⟨.inl hl, not_or.mp (mt (hb i).mp hf)⟩

section

variable {id : ℕ} {a b : Status} {rest : Multiset (ℕ × Status)}

lemma still_set (hi : L.Tidy) (entry : L.streams = (id, a) ::ₘ rest) (i : ℕ) :
    Still { L with streams := (id, b) ::ₘ rest } i ↔ i = id ∧ b.remoteEnd = false ∨ L.Still i ∧ i ≠ id := by
  constructor
  · rintro ⟨s, hs, ht⟩
    rcases hi.mem_set entry hs with he | ⟨hs, hn⟩
    · cases he
      exact .inl ⟨rfl, ht⟩
    · exact .inr ⟨⟨s, hs, ht⟩, hn⟩
  · rintro (⟨rfl, ht⟩ | ⟨⟨s, hs, ht⟩, hn⟩)
    · exact ⟨b, mem_cons_self _ _, ht⟩
    · rw [entry] at hs
      refine ⟨s, mem_cons_of_mem ((mem_cons.mp hs).resolve_left fun he => ?_), ht⟩
      exact hn (congrArg Prod.fst he)

lemma still_remove (hi : L.Tidy) (entry : L.streams = (id, a) ::ₘ rest) (i : ℕ) :
    Still { L with streams := rest } i ↔ L.Still i ∧ i ≠ id := by
  constructor
  · rintro ⟨s, hs, ht⟩
    exact ⟨⟨s, entry ▸ mem_cons_of_mem hs, ht⟩, (entry ▸ hi.keyed).ne_of_mem hs⟩
  · rintro ⟨⟨s, hs, ht⟩, hn⟩
    rw [entry] at hs
    refine ⟨s, (mem_cons.mp hs).resolve_left fun he => ?_, ht⟩
    exact hn (congrArg Prod.fst he)

lemma still_here (hi : L.Tidy) (entry : L.streams = (id, a) ::ₘ rest) : L.Still id ↔ a.remoteEnd = false := by
  constructor
  · rintro ⟨s, hs, ht⟩
    exact hi.keyed.unique (Tidy.here entry) hs ▸ ht
  · exact fun ht => ⟨a, Tidy.here entry, ht⟩

lemma still_absent (hn : ∀ a, (id, a) ∉ L.streams) (i : ℕ) : L.Still i ↔ L.Still i ∧ i ≠ id := by
  refine ⟨fun hi => ⟨hi, ?_⟩, And.left⟩
  rintro rfl
  obtain ⟨a, ha, -⟩ := hi
  exact hn a ha

end

lemma nothing (id : ℕ) : ¬ Knows [] id ∧ ¬ Ended [] id ∧ ¬ Reported [] id := by
  simp [Knows, Ended, Reported]

lemma add (h : Tabled M ns L) (tidy : L'.Tidy) {id : ℕ} (streams : L'.streams = (id, a) ::ₘ L.streams)
    (fresh : id ∉ L.seen) (sub : insert id L.seen ⊆ L'.seen) : Tabled M (ns ++ []) L' := by
  refine h.quiet tidy (fun i hi => sub (Set.mem_insert_of_mem _ hi)) nothing ?_ ?_
  · rintro i ⟨b, hb, hs⟩
    exact ⟨b, streams ▸ mem_cons_of_mem hb, hs⟩
  · rintro i ⟨b, hb, hs⟩
    rw [streams] at hb
    rcases mem_cons.mp hb with he | hb
    · cases he
      exact .inr fresh
    · exact .inl ⟨b, hb, hs⟩

section

variable {e : Event} {i : ℕ}

lemma event_knows (h : Knows [.event e] i) : ∃ fin, e.delivers = some (i, fin) := by
  rcases h with h | ⟨headers, fin, kind, h⟩
  · simp at h
  · obtain rfl : Event.headers i headers fin kind = e := by simpa using h
    exact ⟨fin, rfl⟩

lemma event_ended : Ended [.event e] i ↔ e.delivers = some (i, true) ∨ ∃ code, e = .reset i code := by
  simp [Ended, eq_comm]

lemma event_reported : ¬ Reported [.event e] i := by simp [Reported]

end

lemma event (h : Tabled M ns L) (tidy : L'.Tidy) (hn : e.delivers = none) (hr : ∀ i code, e ≠ .reset i code)
    (he : L'.seen = L.seen) (hs : ∀ i, L'.Still i ↔ L.Still i) : Tabled M (ns ++ [.event e]) L' := by
  refine h.quiet tidy he.ge (fun i => ⟨fun hk => ?_, fun hd => ?_, event_reported⟩) (fun i => (hs i).mpr)
    fun i hi => .inl ((hs i).mp hi)
  · obtain ⟨_, hf⟩ := event_knows hk
    cases hn.symm.trans hf
  · rcases event_ended.mp hd with hd | ⟨code, hd⟩
    · cases hn.symm.trans hd
    · exact hr i code hd

lemma unchanged (h : Tabled M ns L) (tidy : L'.Tidy) (he : L.seen ⊆ L'.seen) (hs : L'.streams = L.streams) :
    Tabled M (ns ++ []) L' := by
  have hl : ∀ i, L'.Still i ↔ L.Still i := fun i => by rw [Still, hs, Still]
  exact h.quiet tidy he nothing (fun i => (hl i).mpr) fun i hi => .inl ((hl i).mp hi)

lemma step (h : Tabled M ns L) (hs : Step L ms L') : Tabled M (ns ++ ms.filterMap Label.note) L' := by
  have tidy := h.tidy.step hs
  cases hs with
  | @touched id a rest b entry same =>
    have hf : ∀ i, Still { L with streams := (id, b) ::ₘ rest } i ↔ L.Still i := by
      intro i
      rw [still_set h.tidy entry]
      by_cases hi : i = id
      · subst hi
        simp [still_here h.tidy entry, same]
      · simp [hi]
    exact h.quiet tidy subset_rfl nothing (fun i => (hf i).mpr) fun i hi => .inl ((hf i).mp hi)
  | @recycled id a rest entry ended =>
    refine h.quiet tidy subset_rfl nothing (fun i hi => ?_) fun i hi => .inl ((still_remove h.tidy entry i).mp hi).1
    refine (still_remove h.tidy entry i).mpr ⟨hi, ?_⟩
    rintro rfl
    cases ended.symm.trans ((still_here h.tidy entry).mp hi)
  | saw s sub => exact h.unchanged tidy sub rfl
  | reserved s client zero bound fresh sub | accepted s server zero bound fresh sub => exact h.add tidy rfl fresh sub
  | @opened id a mem still =>
    have hd : ∀ i, ¬ Ended [.opened id] i ∧ ¬ Reported [.opened id] i := by simp [Ended, Reported]
    have hn : ∀ i, Knows [.opened id] i → i = id := by simp [Knows]
    refine h.extend tidy subset_rfl (fun i hi => ?_) (fun i hi _ _ => ?_) fun i hi => ⟨.inl hi, hd i⟩
    · exact hn i (hi.resolve_right (not_or.mpr (hd i))) ▸ h.tidy.known _ mem
    · exact hi.elim (fun hi => hi) fun hi => hn i hi ▸ ⟨a, mem, still⟩
  | turned d s server bound fresh sub =>
    exact h.unchanged tidy (fun i hi => sub (Set.mem_insert_of_mem _ hi)) rfl
  | disposed | continued | resized | goaway | shutdown | failing | broke => exact h.unchanged tidy subset_rfl rfl
  | @delivered id a b rest e entry still delivers =>
    have hb := h.tidy.known _ (Tidy.here entry)
    have hn : ∀ i, Knows [.event e] i → i = id := by
      intro i hi
      obtain ⟨_, hc⟩ := event_knows hi
      exact congrArg Prod.fst (Option.some.inj (hc.symm.trans delivers))
    have hd : ∀ i, Ended [.event e] i ↔ i = id ∧ b.remoteEnd = true := by
      intro i
      have hr : ¬ ∃ code, e = .reset i code := by
        rintro ⟨code, rfl⟩
        cases delivers
      rw [event_ended, or_iff_left hr, delivers, Option.some.injEq, Prod.mk.injEq, eq_comm]
    change Tabled M (ns ++ [.event e]) _
    refine h.extend tidy subset_rfl (fun i hi => ?_) (fun i hi hg _ => ?_) (fun i hi => ?_)
    · rcases hi with hi | hi | hi
      · exact hn i hi ▸ hb
      · exact ((hd i).mp hi).1 ▸ hb
      · exact (event_reported hi).elim
    · rw [still_set h.tidy entry]
      by_cases hi' : i = id
      · refine .inl ⟨hi', ?_⟩
        rw [hd, not_and] at hg
        exact Bool.not_eq_true _ ▸ hg hi'
      · exact .inr ⟨hi.resolve_right fun hk => hi' (hn i hk), hi'⟩
    · rcases (still_set h.tidy entry i).mp hi with ⟨rfl, ha⟩ | ⟨hi, hg⟩
      · refine ⟨.inl ((still_here h.tidy entry).mpr still), fun he => ?_, event_reported⟩
        cases ((hd i).mp he).2.symm.trans ha
      · exact ⟨.inl hi, fun he => hg ((hd i).mp he).1, event_reported⟩
  | @peerReset id a rest code entry =>
    refine h.close tidy (.inr (.inr ⟨code, rfl⟩)) rfl (h.tidy.known _ (Tidy.here entry)) fun i => ?_
    simp [still_set h.tidy entry]
  | @removed id a rest l entry reset =>
    have hb := h.tidy.known _ (Tidy.here entry)
    rcases reset with rfl | ⟨code, rfl⟩
    · exact h.close tidy (.inl rfl) rfl hb (still_remove h.tidy entry)
    · exact h.close tidy (.inr (.inr ⟨code, rfl⟩)) rfl hb (still_remove h.tidy entry)
  | @resetGone id known none => exact h.close tidy (.inl rfl) rfl known (still_absent none)
  | refused code doomed =>
    obtain ⟨hb, ho⟩ := h.tidy.turned _ doomed nofun
    exact h.close tidy (.inr (.inr ⟨code, rfl⟩)) rfl hb (still_absent ho)
  | unprocessed | drained => exact h.event tidy rfl nofun rfl fun _ => Iff.rfl
  | noted e quiet =>
    refine h.event tidy (Event.quiet_delivers quiet) ?_ rfl fun _ => Iff.rfl
    rintro i code rfl
    cases quiet
  | @terminal id a rest entry =>
    refine h.close tidy (.inr (.inl rfl)) rfl (h.tidy.known _ (Tidy.here entry)) fun i => ?_
    simp [still_set h.tidy entry]

lemma run (h : Tabled M ns L) (ht : Trace Step L ls L') : Tabled M (ns ++ ls.filterMap Label.note) L' := by
  refine ht.invariant (P := fun ls L => Tabled M (ns ++ ls.filterMap Label.note) L) (fun h hs => ?_) (by simpa using h)
  rw [filterMap_append, ← append_assoc]
  exact h.step hs

/-- From now on also the streams open now. -/
lemma now (h : Tabled M ns L) : Tabled {id | L.Still id} ns L :=
  { h with complete := fun id hi he hr => hi.elim (fun hi => hi) fun hk => h.complete id (.inr hk) he hr }

end Tabled

/-- Only a stream accepted or reserved comes to be open. -/
lemma still_new {id : ℕ} (tidy : L.Tidy) (ht : Trace Step L ls L') (hid : L'.Still id) :
    L.Still id ∨ .accepted id ∈ ls ∨ .reserved id ∈ ls := by
  have hi : L'.Tidy ∧ ∀ id, L'.Still id → L.Still id ∨ .accepted id ∈ ls ∨ .reserved id ∈ ls := by
    refine ht.invariant (P := fun ls L' => L'.Tidy ∧ ∀ id, L'.Still id → L.Still id ∨ .accepted id ∈ ls ∨
      .reserved id ∈ ls)
      (fun {ls ms s t} hp hs => ⟨hp.1.step hs, fun i hi => ?_⟩) ⟨tidy, fun _ => .inl⟩
    suffices hk : s.Still i ∨ .accepted i ∈ ms ∨ .reserved i ∈ ms by
      rw [mem_append, mem_append]
      rcases hk with hk | hk | hk
      · exact (hp.2 i hk).imp_right fun hk => hk.imp .inl .inl
      · exact .inr (.inl (.inr hk))
      · exact .inr (.inr (.inr hk))
    cases hs with
    | touched b entry same =>
      rcases (Tabled.still_set hp.1 entry i).mp hi with ⟨rfl, hb⟩ | hi
      · exact .inl ((Tabled.still_here hp.1 entry).mpr (same ▸ hb))
      · exact .inl hi.1
    | delivered e entry still =>
      rcases (Tabled.still_set hp.1 entry i).mp hi with ⟨rfl, -⟩ | hi
      · exact .inl ((Tabled.still_here hp.1 entry).mpr still)
      · exact .inl hi.1
    | peerReset code entry | terminal entry =>
      rcases (Tabled.still_set hp.1 entry i).mp hi with ⟨-, hb⟩ | hi
      · cases hb
      · exact .inl hi.1
    | recycled entry | removed l entry => exact .inl ((Tabled.still_remove hp.1 entry i).mp hi).1
    | reserved | accepted =>
      obtain ⟨a, ha, hs⟩ := hi
      rcases mem_cons.mp ha with he | ha
      · cases he
        simp
      · exact .inl ⟨a, ha, hs⟩
    | _ => exact .inl hi
  exact hi.2 id hid

end Life

variable {K : Codec}

namespace Connection

def stillOpen (c : Connection K) : List ℕ := (c.streams.filter (fun s => !s.remoteEnd)).map Stream.id

lemma mem_stillOpen {c : Connection K} {id : ℕ} : id ∈ c.stillOpen ↔ c.life.Still id := by
  unfold stillOpen
  rw [List.mem_map]
  constructor
  · rintro ⟨s, hs, rfl⟩
    obtain ⟨hs, ho⟩ := List.mem_filter.mp hs
    exact ⟨s.life.2, List.mem_map_of_mem (f := Stream.life) hs, by simpa [Stream.life] using ho⟩
  · rintro ⟨a, ha, ho⟩
    obtain ⟨s, hs, hl⟩ := List.mem_map.mp (show (id, a) ∈ c.streams.map Stream.life from ha)
    obtain ⟨rfl, rfl⟩ := Prod.ext_iff.mp hl
    exact ⟨s, List.mem_filter.mpr ⟨hs, by simpa [Stream.life] using ho⟩, rfl⟩

end Connection

variable {role : Role} {limits : Limits} {settings : Settings} {c : Connection K}

/-- The stream that the call is for: that of a HEADERS frame, or the next one to open. -/
def Call.begins (call : Call) (c : Connection K) : Option ℕ :=
  match call with
  | .openStream _ _ => some c.nextId
  | .receive _ => (call.hears c).bind fun f => if f.kind = 1 then some f.stream else none
  | _ => none

/-- A HEADERS frame or an `open` has left an open record of the stream. -/
def Begun (c : Connection K) (calls : List Call) (id : ℕ) : Prop :=
  ∃ before call after, calls = before ++ call :: after ∧ call.begins (History.run c before).conn = some id ∧
    ∃ s ∈ (call.exec (History.run c before).conn).streams, s.id = id ∧ s.remoteEnd = false

namespace History

lemma run_append (part rest : List Call) : run c (part ++ rest) = rest.foldl step (run c part) := List.foldl_append

variable (new : Connection.withSettings role limits settings = .ok c)
include new

/-- The stream of every open record was begun by a call. -/
lemma begun {id : ℕ} (calls : List Call) (hid : (run c calls).conn.life.Still id) : Begun c calls id := by
  induction calls using List.reverseRecOn with
  | nil =>
    rw [show (run c []).conn.life = (Connection.start role limits : Connection K).life from new_life new] at hid
    obtain ⟨_, hm, -⟩ := hid
    exact absurd hm (notMem_zero _)
  | append_singleton calls call ih =>
    have hid : (call.exec (run c calls).conn).life.Still id := by rwa [run_append] at hid
    have living := living new calls
    obtain ⟨ls, -, ht, hs, -⟩ := (living.went call).lives
    rcases Life.still_new living.tidy ht hid with hi | hi
    · obtain ⟨before, call', after, rfl, hb⟩ := ih hi
      exact ⟨before, call', after ++ [call], by simp, hb⟩
    · obtain ⟨s, hm, rfl⟩ := List.mem_map.mp (Connection.mem_stillOpen.mpr hid)
      obtain ⟨hm, ho⟩ := List.mem_filter.mp hm
      refine ⟨calls, call, [], rfl, ?_, s, hm, rfl, by simpa using ho⟩
      rcases hi with hi | hi
      · have hc := hs _ hi
        cases call with
        | receive input =>
          obtain ⟨f, hf, hk, he⟩ : ∃ f, (Call.receive input).hears (run c calls).conn = some f ∧ f.kind = 1 ∧
            f.stream = s.id := hc
          simp [Call.begins, hf, hk, he]
        | shutdown | handleTimeout => cases (show Life.Label.accepted _ = .announced _ from hc)
        | goaway => cases (show Life.Label.accepted _ = .goaway _ _ from hc)
        | openStream => rcases hc with hc | ⟨_, hc⟩ <;> cases hc
        | _ =>
          obtain ⟨_, hc⟩ := hc
          cases hc
      · have hc := hs _ hi
        cases call with
        | receive input => exact hc.elim
        | shutdown | handleTimeout => cases (show Life.Label.reserved _ = .announced _ from hc)
        | goaway => cases (show Life.Label.reserved _ = .goaway _ _ from hc)
        | openStream =>
          rcases hc with hc | ⟨_, hc⟩
          · injection hc with hc
            rw [hc]
            rfl
          · cases hc
        | _ =>
          obtain ⟨_, hc⟩ := hc
          cases hc

end History

end Turnloop.Http2
