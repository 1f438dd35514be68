import Turnloop.Http2.Histories

/-! What a GOAWAY promises the peer about its streams. -/

namespace Turnloop.Http2

open Lib Lib.Program
open List hiding after

namespace Life

variable {L L' : Life} {ls ms : List Label}

def Clean (ls : List Label) : Prop :=
  (∀ last code debug, .told (.event (.goaway last code debug)) ∉ ls) ∧ ∀ last, .goaway last true ∉ ls

lemma Clean.left (h : Clean (ls ++ ms)) : Clean ls :=
  ⟨fun last code debug hm => h.1 last code debug (mem_append_left _ hm), fun last hm => h.2 last (mem_append_left _ hm)⟩

structure Promised (ls : List Label) (L : Life) : Prop where
  last : L.lastRemote ≤ L.highestRemote
  draining : L.draining = true → ∃ n ∈ ls.filterMap Label.last, n ≤ L.highestRemote
  doom : L.disposal = some .unprocessed → ∃ n ∈ ls.filterMap Label.last, n < L.highestRemote
  told : ∀ id, .told (.event (.unprocessed id)) ∈ ls → ∃ n ∈ ls.filterMap Label.last, n < id

namespace Promised

lemma named (ms : List Label) {p : ℕ → Prop} (h : ∃ n ∈ ls.filterMap Label.last, p n) :
    ∃ n ∈ (ls ++ ms).filterMap Label.last, p n := by
  obtain ⟨n, hn, hp⟩ := h
  exact ⟨n, filterMap_append ▸ mem_append_left _ hn, hp⟩

lemma keep (h : Promised ls L) (hl : L'.lastRemote = L.lastRemote) (hh : L'.highestRemote = L.highestRemote)
    (hr : L'.draining = L.draining) (ho : L'.disposal = L.disposal ∨ L'.disposal ≠ some .unprocessed)
    (hn : ∀ id, .told (.event (.unprocessed id)) ∉ ms) : Promised (ls ++ ms) L' where
  last := by rw [hl, hh]; exact h.last
  draining hd := by
    rw [hh]
    exact named ms (h.draining (hr ▸ hd))
  doom hd := by
    rw [hh]
    rcases ho with he | hb
    · exact named ms (h.doom (he ▸ hd))
    · exact (hb hd).elim
  told id hid := (mem_append.mp hid).elim (fun hid => named ms (h.told id hid)) (fun hid => (hn id hid).elim)

lemma step (h : Promised ls L) (hs : Step L ms L') (clean : Clean (ls ++ ms)) : Promised (ls ++ ms) L' := by
  have hi : ∀ l ∈ ms, l ∈ ls ++ ms := fun l hl => mem_append_right _ hl
  cases hs with
  | accepted s server zero bound fresh sub above calm live clear =>
    refine ⟨le_rfl, fun hd => ?_, fun hd => ?_, fun id hb => ?_⟩
    · cases calm.symm.trans hd
    · cases clear.symm.trans hd
    · rcases mem_append.mp hb with hb | hb
      · exact named _ (h.told id hb)
      · simp at hb
  | @turned id d s server bound fresh sub above alone why =>
    rw [append_nil]
    refine ⟨h.last.trans above.le, fun hd => ?_, fun hd => ?_, h.told⟩
    · obtain ⟨n, hn, he⟩ := h.draining hd
      exact ⟨n, hn, he.trans above.le⟩
    · obtain ⟨n, hn, he⟩ := h.draining (why (Option.some.inj hd))
      exact ⟨n, hn, he.trans_lt above⟩
  | unprocessed doomed =>
    refine ⟨h.last, fun hd => named _ (h.draining hd), nofun, fun id hb => ?_⟩
    rcases mem_append.mp hb with hb | hb
    · exact named _ (h.told id hb)
    · simp only [mem_singleton, Label.told.injEq, Note.event.injEq, Event.unprocessed.injEq] at hb
      rw [hb]
      exact named _ (h.doom doomed)
  | drained last code debug => exact (clean.1 last code debug (hi _ mem_cons_self)).elim
  | goaway last =>
    have he : last ≤ L.highestRemote := by
      by_contra hlt
      refine clean.2 last (hi _ ?_)
      simp [not_le.mp hlt]
    refine ⟨h.last, fun _ => ⟨last, by simp [Label.last], he⟩, fun hd => named _ (h.doom hd), fun id hb => ?_⟩
    rcases mem_append.mp hb with hb | hb
    · exact named _ (h.told id hb)
    · simp at hb
  | shutdown =>
    refine ⟨h.last, fun _ => ⟨L.lastRemote, by simp [Label.last], h.last⟩, fun hd => named _ (h.doom hd),
      fun id hb => ?_⟩
    rcases mem_append.mp hb with hb | hb
    · exact named _ (h.told id hb)
    · simp at hb
  | disposed d ha =>
    refine h.keep rfl rfl rfl (.inr ?_) (by simp)
    rcases ha with rfl | rfl <;> simp
  | delivered e entry still delivers =>
    refine h.keep rfl rfl rfl (.inl rfl) fun id hb => ?_
    simp only [mem_singleton, Label.told.injEq, Note.event.injEq] at hb
    cases hb ▸ delivers
  | removed l entry reset =>
    refine h.keep rfl rfl rfl (.inl rfl) fun id hb => ?_
    rw [mem_singleton] at hb
    rcases reset with rfl | ⟨code, rfl⟩ <;> cases hb
  | noted e quiet =>
    refine h.keep rfl rfl rfl (.inl rfl) fun id hb => ?_
    simp only [mem_singleton, Label.told.injEq, Note.event.injEq] at hb
    cases hb ▸ quiet
  | refused => exact h.keep rfl rfl rfl (.inr nofun) (by simp)
  | _ => exact h.keep rfl rfl rfl (.inl rfl) (by simp)

end Promised

def Turned (ls : List Label) (id : ℕ) : Prop := (∃ code, .refused id code ∈ ls) ∨ .told (.event (.unprocessed id)) ∈ ls

lemma Turned.append {id : ℕ} : Turned (ls ++ ms) id ↔ Turned ls id ∨ Turned ms id := by
  simp only [Turned, mem_append, exists_or]
  tauto

lemma last_of_trace (h : Trace Step L ms L') : L'.lastRemote = L.lastRemote ∨ .accepted L'.lastRemote ∈ ms := by
  refine h.invariant (P := fun ms L' => L'.lastRemote = L.lastRemote ∨ .accepted L'.lastRemote ∈ ms)
    (fun hl hs => ?_) (.inl rfl)
  cases hs with
  | accepted => exact .inr (by simp)
  | _ => exact hl.imp_right (mem_append_left _)

structure Truthful (ls : List Label) (L : Life) : Prop where
  server : L.role = .server
  order : L.lastRemote ≤ L.highestRemote
  below : ∀ id, .accepted id ∈ ls → id ≤ L.lastRemote
  last : L.lastRemote = 0 ∨ .accepted L.lastRemote ∈ ls
  records : ∀ p ∈ L.streams, .accepted p.1 ∈ ls
  told : ∀ e id fin, .told (.event e) ∈ ls → e.delivers = some (id, fin) → .accepted id ∈ ls
  turned : ∀ id, Turned ls id → .accepted id ∉ ls ∧ id ≤ L.highestRemote ∧ 0 < id
  doom : ∀ d, L.disposal = some d → d ≠ .discard → .accepted L.highestRemote ∉ ls ∧ 0 < L.highestRemote
  frozen : ∀ n, .announced n ∈ ls → n = L.lastRemote ∧ (L.draining || L.failed) = true

namespace Truthful

lemma keep (h : Truthful ls L) (hr : L'.role = L.role) (ha : L'.lastRemote = L.lastRemote)
    (hh : L'.highestRemote = L.highestRemote) (hb : ∀ p ∈ L'.streams, .accepted p.1 ∈ ls)
    (ho : ∀ d, L'.disposal = some d → d ≠ .discard → L.disposal = some d)
    (hs : (L.draining || L.failed) = true → (L'.draining || L'.failed) = true)
    (hc : ∀ l ∈ ms, (∀ id, l ≠ .accepted id) ∧
      (∀ n, l = .announced n → n = L.lastRemote ∧ (L'.draining || L'.failed) = true) ∧
      ∀ e, l = .told (.event e) → ∀ id fin, e.delivers = some (id, fin) → .accepted id ∈ ls)
    (hu : ∀ id, Turned ms id → .accepted id ∉ ls ∧ id ≤ L.highestRemote ∧ 0 < id) : Truthful (ls ++ ms) L' := by
  have hf : ∀ id, Label.accepted id ∈ ls ++ ms ↔ .accepted id ∈ ls := by
    intro id
    refine ⟨fun hl => (mem_append.mp hl).elim (fun hl => hl) fun hl => ((hc _ hl).1 id rfl).elim, mem_append_left _⟩
  refine ⟨hr.trans h.server, by rw [ha, hh]; exact h.order, fun id hi => ?_, ?_, fun p hp => ?_,
    fun e id fin he hd => ?_, fun id hi => ?_, fun d hd hg => ?_, fun n hn => ?_⟩
  · rw [ha]
    exact h.below id ((hf id).mp hi)
  · rw [ha, hf]
    exact h.last
  · exact (hf _).mpr (hb p hp)
  · rw [hf]
    rcases mem_append.mp he with he | he
    · exact h.told e id fin he hd
    · exact (hc _ he).2.2 e rfl id fin hd
  · rw [hf, hh]
    exact (Turned.append.mp hi).elim (h.turned id) (hu id)
  · rw [hf, hh]
    exact h.doom d (ho d hd hg) hg
  · rw [ha]
    rcases mem_append.mp hn with hn | hn
    · exact ⟨(h.frozen n hn).1, hs (h.frozen n hn).2⟩
    · exact (hc _ hn).2.1 n rfl

lemma silent (h : Truthful ls L) (hr : L'.role = L.role) (hl : L'.lastRemote = L.lastRemote)
    (hh : L'.highestRemote = L.highestRemote) (he : ∀ p ∈ L'.streams, .accepted p.1 ∈ ls)
    (hd : ∀ d, L'.disposal = some d → d ≠ .discard → L.disposal = some d)
    (hs : (L.draining || L.failed) = true → (L'.draining || L'.failed) = true) : Truthful (ls ++ []) L' :=
  h.keep hr hl hh he hd hs nofun (by simp [Turned])

lemma accept (h : Truthful ls L) {id : ℕ} (above : L.highestRemote < id) (calm : L.draining = false)
    (live : L.failed = false) (clear : L.disposal = none) :
    Truthful (ls ++ [Label.accepted id])
      { L with streams := (id, a) ::ₘ L.streams, seen := s, highestRemote := id, lastRemote := id } := by
  have hs : ∀ i, Label.accepted i ∈ ls ++ [Label.accepted id] ↔ .accepted i ∈ ls ∨ i = id := by simp
  refine ⟨h.server, le_rfl, fun i hi => ?_, .inr ?_, fun p hp => ?_, fun e i fin he hd => ?_, fun i hi => ?_,
    fun d hd => ?_, fun n hn => ?_⟩
  · rcases (hs i).mp hi with hi | rfl
    · exact ((h.below i hi).trans h.order).trans above.le
    · exact le_rfl
  · simp
  · rcases Multiset.mem_cons.mp hp with rfl | hp
    · simp
    · exact mem_append_left _ (h.records p hp)
  · refine mem_append_left _ (h.told e i fin ?_ hd)
    simpa using he
  · have hi' : Turned ls i := by simpa [Turned] using hi
    obtain ⟨ho, hl, hb⟩ := h.turned i hi'
    refine ⟨fun ha => ?_, hl.trans above.le, hb⟩
    rcases (hs i).mp ha with ha | rfl
    · exact ho ha
    · omega
  · cases clear.symm.trans hd
  · have hn' : Label.announced n ∈ ls := by simpa using hn
    have ht := (h.frozen n hn').2
    simp [calm, live] at ht

lemma step (h : Truthful ls L) (hs : Step L ms L') : Truthful (ls ++ ms) L' := by
  have he : ∀ {id : ℕ} {a b : Status} {rest : Multiset (ℕ × Status)}, L.streams = (id, a) ::ₘ rest →
      ∀ p ∈ (id, b) ::ₘ rest, Label.accepted p.1 ∈ ls := by
    intro id a b rest entry p hp
    rcases Multiset.mem_cons.mp hp with rfl | hp
    · exact h.records (id, a) (Tidy.here entry)
    · exact h.records p (entry ▸ Multiset.mem_cons_of_mem hp)
  have hr : ∀ {q : ℕ × Status} {rest : Multiset (ℕ × Status)}, L.streams = q ::ₘ rest →
    ∀ p ∈ rest, Label.accepted p.1 ∈ ls :=
    fun entry p hp => h.records p (entry ▸ Multiset.mem_cons_of_mem hp)
  have ha : ∀ d, L.disposal = some d → d ≠ .discard → L.disposal = some d := fun d hd _ => hd
  cases hs with
  | touched b entry => exact h.silent rfl rfl rfl (he entry) ha (fun hs => hs)
  | recycled entry => exact h.silent rfl rfl rfl (hr entry) ha (fun hs => hs)
  | saw s sub client | reserved s client => cases h.server.symm.trans client
  | opened | resetGone => exact h.keep rfl rfl rfl h.records ha (fun hs => hs) (by simp) (by simp [Turned])
  | accepted s server zero bound fresh sub above calm live clear => exact h.accept above calm live clear
  | @turned id d s server bound fresh sub above alone why =>
    rw [append_nil]
    refine ⟨h.server, h.order.trans above.le, h.below, h.last, h.records, h.told, fun i hi => ?_,
      fun _ _ _ => ⟨fun hc => ?_, Nat.zero_lt_of_lt above⟩, h.frozen⟩
    · exact ⟨(h.turned i hi).1, (h.turned i hi).2.1.trans above.le, (h.turned i hi).2.2⟩
    · have hb : id ≤ L.highestRemote := (h.below id hc).trans h.order
      omega
  | disposed d hm =>
    refine h.silent rfl rfl rfl h.records (fun d' hd hn => ?_) (fun hs => hs)
    obtain rfl : d = some d' := hd
    rcases hm with hd | hd
    · cases hd
    · exact (hn (Option.some.inj hd)).elim
  | continued | resized => exact h.silent rfl rfl rfl h.records ha (fun hs => hs)
  | @delivered id a b rest e entry still delivers =>
    refine h.keep rfl rfl rfl (he entry) ha (fun hs => hs) (fun l hl => ?_) (fun i hi => ?_)
    · rw [mem_singleton] at hl
      subst hl
      refine ⟨by rintro _ ⟨⟩, by rintro _ ⟨⟩, fun e' he' i fin hd => ?_⟩
      cases he'
      cases delivers.symm.trans hd
      exact h.records _ (Tidy.here entry)
    · simp only [Turned, mem_singleton, reduceCtorEq, exists_const, Label.told.injEq, Note.event.injEq, false_or] at hi
      rw [← hi] at delivers
      cases delivers
  | peerReset code entry =>
    exact h.keep rfl rfl rfl (he entry) ha (fun hs => hs) (by simp [Event.delivers]) (by simp [Turned])
  | removed l entry reset =>
    refine h.keep rfl rfl rfl (hr entry) ha (fun hs => hs) ?_ ?_
    · rcases reset with rfl | ⟨code, rfl⟩ <;> simp
    · rcases reset with rfl | ⟨code, rfl⟩ <;> simp [Turned]
  | refused code doomed =>
    refine h.keep rfl rfl rfl h.records (fun d hd => by cases hd) (fun hs => hs) (by simp) fun i hi => ?_
    simp only [Turned, mem_singleton, Label.refused.injEq, exists_eq_right, reduceCtorEq, or_false] at hi
    rw [hi]
    exact ⟨(h.doom _ doomed (by rintro ⟨⟩)).1, le_rfl, (h.doom _ doomed (by rintro ⟨⟩)).2⟩
  | unprocessed doomed =>
    refine h.keep rfl rfl rfl h.records (fun d hd => by cases hd) (fun hs => hs)
      (by simp [Event.delivers]) fun i hi => ?_
    simp only [Turned, mem_singleton, reduceCtorEq, exists_const, Label.told.injEq, Note.event.injEq,
      Event.unprocessed.injEq, false_or] at hi
    rw [hi]
    exact ⟨(h.doom _ doomed (by rintro ⟨⟩)).1, le_rfl, (h.doom _ doomed (by rintro ⟨⟩)).2⟩
  | noted e quiet =>
    refine h.keep rfl rfl rfl h.records ha (fun hs => hs) (fun l hl => ?_) (fun i hi => ?_)
    · rw [mem_singleton] at hl
      subst hl
      refine ⟨by rintro _ ⟨⟩, by rintro _ ⟨⟩, fun e' he' i fin hd => ?_⟩
      cases he'
      cases (Event.quiet_delivers quiet).symm.trans hd
    · simp only [Turned, mem_singleton, reduceCtorEq, exists_const, Label.told.injEq, Note.event.injEq, false_or] at hi
      rw [← hi] at quiet
      cases quiet
  | drained =>
    exact h.keep rfl rfl rfl h.records ha (fun _ => by simp) (by simp [Event.delivers]) (by simp [Turned])
  | goaway | shutdown | failing => exact h.keep rfl rfl rfl h.records ha (fun _ => by simp) (by simp) (by simp [Turned])
  | broke => exact h.silent rfl rfl rfl h.records ha (fun _ => by simp)
  | terminal entry => exact h.keep rfl rfl rfl (he entry) ha (fun hs => hs) (by simp) (by simp [Turned])

end Truthful

end Life

namespace History

variable {K : Codec} {role : Role} {limits : Limits} {settings : Settings} {c : Connection K}

lemma Lived.mem_notes {h : History K} (lived : h.Lived calls ls) : n ∈ h.notes calls ↔ ∃ l ∈ ls, l.note = some n := by
  rw [← lived.noted, mem_filterMap]

lemma Lived.output (new : Connection.withSettings role limits settings = .ok c)
    (lived : Lived ⟨c, []⟩ calls ls) :
    (run c calls).conn.output.filterMap Frame.last = ls.filterMap Life.Label.last := by
  obtain ⟨_, ho, hl⟩ := lived.written
  rw [run, ho, filterMap_append, new_output new, hl]
  rfl

end History

variable {K : Codec} {role : Role} {limits : Limits} {settings : Settings} {c : Connection K}

theorem unprocessed_unannounced :
    let calls : List Call := [.receive PREFACE, .receive (Frame.encode ⟨4, 0, 0, []⟩),
      .receive (Frame.encode ⟨7, 0, 0, be32 0 ++ be32 0⟩), .receive (Frame.encode ⟨1, 5, 1, requestBlock⟩)]
    let c : Connection .hpack := .plain .server
    .event (.unprocessed 1) ∈ (⟨c, []⟩ : History _).notes calls ∧
      (History.run c calls).conn.output.filterMap Frame.last = [] := by
  decide +kernel

theorem unprocessed_announced (new : Connection.withSettings role limits settings = .ok c) (calls : List Call)
    (peer : ∀ last code debug, .event (.goaway last code debug) ∉ (⟨c, []⟩ : History K).notes calls)
    (host : ∀ before code last debug after, calls = before ++ .goaway code last debug :: after →
      last ≤ (History.run c before).conn.highestRemote)
    (id : ℕ) (told : .event (.unprocessed id) ∈ (⟨c, []⟩ : History K).notes calls) :
    ∃ last ∈ (History.run c calls).conn.output.filterMap Frame.last, last < id := by
  obtain ⟨ls, lived⟩ := (History.living new []).lived calls
  have hc : Life.Clean ls := by
    refine ⟨fun last code debug hl => peer last code debug (lived.mem_notes.mpr ⟨_, hl, rfl⟩), fun last hl => ?_⟩
    obtain ⟨before, call, after, ha, hd⟩ := lived.inScope _ hl
    cases call with
    | goaway code last' debug =>
      have hf : Life.Label.goaway last true =
        .goaway last' (decide ((History.run c before).conn.highestRemote < last')) := hd
      injection hf with _ hb
      have he := host before code last' debug after ha
      have ht := of_decide_eq_true hb.symm
      omega
    | receive => exact hd
    | shutdown | handleTimeout => cases (show Life.Label.goaway last true = .announced _ from hd)
    | openStream => rcases hd with hd | ⟨_, hd⟩ <;> cases hd
    | _ =>
      obtain ⟨n, hn⟩ := hd
      cases hn
  have hp : Life.Clean ls → Life.Promised ls (History.run c calls).conn.life := by
    refine lived.trace.invariant (P := fun ls L => Life.Clean ls → Life.Promised ls L)
      (fun h hs cl => (h cl.left).step hs cl) fun _ => ?_
    rw [show (History.run c []).conn.life =
      (Connection.start role limits : Connection K).life from History.new_life new]
    exact ⟨le_rfl, nofun, nofun, nofun⟩
  obtain ⟨l, hl, _⟩ := lived.mem_notes.mp told
  have hg : l = .told (.event (.unprocessed id)) := by
    cases l <;> simp_all [Life.Label.note]
  rw [History.Lived.output new lived]
  exact (hp hc).told id (hg ▸ hl)

theorem unprocessed_announced_shutdown :
    let calls : List Call := [.receive PREFACE, .receive (Frame.encode ⟨4, 0, 0, []⟩), .shutdown,
      .receive (Frame.encode ⟨1, 5, 1, requestBlock⟩)]
    ∃ last ∈ (History.run (.plain .server : Connection .hpack) calls).conn.output.filterMap Frame.last, last < 1 := by
  refine unprocessed_announced (Connection.withSettings_plain .server) _ (fun last code debug hn => ?_)
    (fun before code last debug after hc => ?_) 1 (by decide +kernel)
  · have ht : (⟨.plain .server, []⟩ : History .hpack).notes
        [.receive PREFACE, .receive (Frame.encode ⟨4, 0, 0, []⟩), .shutdown,
          .receive (Frame.encode ⟨1, 5, 1, requestBlock⟩)] =
        [.event (.settings []), .event (.unprocessed 1)] := by decide +kernel
    rw [ht] at hn
    simp at hn
  · have hm : Call.goaway code last debug ∈ before ++ .goaway code last debug :: after :=
      mem_append_right before mem_cons_self
    rw [← hc] at hm
    simp at hm

namespace Connection

variable {c' : Connection K} {id : ℕ}

def Holds (c : Connection K) (id : ℕ) : Prop := ∃ s ∈ c.streams, s.id = id

lemma holds_iff : c.Holds id ↔ ∃ a, (id, a) ∈ c.life.streams := by
  simp only [Holds, life, Multiset.mem_coe, mem_map, Stream.life, Prod.mk.injEq]
  constructor
  · rintro ⟨s, hs, rfl⟩
    exact ⟨_, s, hs, rfl, rfl⟩
  · rintro ⟨_, s, hs, hi, -⟩
    exact ⟨s, hs, hi⟩

/-- Either no stream of the peer was accepted since `lastRemote` was `n`, or there is a record of `id`. -/
def Admits (n id : ℕ) (c : Connection K) : Prop := c.lastRemote = n ∨ c.Holds id

lemma Calm.admits (h : Calm c c') (hi : Admits n id c) : Admits n id c' := by
  have hl : c'.lastRemote = c.lastRemote := congrArg Life.lastRemote h.quiet.1
  rw [Admits, holds_iff, h.quiet.1, ← holds_iff, hl]
  exact hi

lemma Admits.update (h : Admits n id c) {g : Stream → Stream} (hg : ∀ s, (g s).id = s.id) :
    Admits n id (c.update i g) := by
  refine h.imp_right ?_
  rintro ⟨s, hs, hi⟩
  obtain ⟨j, hj, rfl⟩ := mem_iff_getElem.mp hs
  have hm : (c.streams.modify i g)[j]? = some (if i = j then g c.streams[j] else c.streams[j]) := by
    rw [getElem?_modify, getElem?_eq_getElem hj]
    split_ifs <;> rfl
  refine ⟨_, mem_of_getElem? hm, ?_⟩
  split_ifs
  · rw [hg, hi]
  · exact hi

lemma startBlock_admits (h : Admits n id c) : Keeps (startBlock f) c (Admits n id) := by
  have hd : ∀ c₁ : Connection K, Admits n id c₁ → Keeps decodeBlock c₁ (Admits n id) := fun c₁ h₁ =>
    decodeBlock_calm.mono (fun _ _ hc => hc.admits h₁) (fun _ _ hc => hc.admits h₁)
  have he : ∀ {c₁ : Connection K} {i : ℕ} {fin : Bool}, Admits n id c₁ →
    Keeps (setRemoteEnd i fin) c₁ (Admits n id) := fun h₁ =>
    .get (.refuse (fun _ => h₁) fun _ => .modify (h₁.update fun _ => rfl))
  unfold startBlock
  refine .lift (fun _ _ => h) fun _ _ => .lift (fun _ _ => h) fun _ _ => .put (.bind ?_)
  have hb : Admits n id { c with block := [] } := h
  refine appendBlock_calm.mono (fun _ c₁ hc => ?_) (fun _ _ hc => hc.admits hb)
  have h₁ := hc.admits hb
  split_ifs
  · unfold finishBlock
    refine .get ?_
    cases c₁.disposal with
    | none =>
      refine .bind ?_
      unfold finishHeaders
      refine .bind ((hd c₁ h₁).mono (fun _ c₂ h₂ => .get ?_) fun _ _ h₂ => h₂)
      cases c₂.index f.stream with
      | none => exact h₂
      | some j =>
        refine .refuse (fun _ => h₂) fun _ => .lift (fun _ _ => h₂) fun _ _ => ?_
        refine .refuse (fun _ => h₂) fun _ => .refuse (fun _ => h₂) fun _ => .when (fun _ => ?_) fun _ => .bind ?_
        · exact .bind ((he h₂).mono (fun _ _ h₃ => .pure (.pure h₃)) fun _ _ h₃ => h₃)
        · refine (takeHead_calm (getElem?_eq_getElem j.isLt)).mono (fun _ _ h₃ => ?_) fun _ _ h₃ => h₃.admits h₂
          exact .bind ((he (h₃.1.admits h₂)).mono (fun _ _ h₄ => .pure (.pure h₄)) fun _ _ h₄ => h₄)
    | some d =>
      refine .put (.bind ((hd { c₁ with disposal := none } h₁).mono (fun _ _ h₂ => ?_) fun _ _ h₂ => h₂))
      cases d with
      | refuse => exact .bind (frame_post (fun _ _ => .pure h₂) fun _ => h₂)
      | unprocessed | discard => exact .pure h₂
  · exact .put (.pure h₁)

lemma receiveHeaders_admits : Keeps (receiveHeaders f) c (Admits c.lastRemote f.stream) := by
  unfold receiveHeaders
  refine .refuse (fun _ => .inl rfl) fun _ => .put
    (.get (.when (fun hs => startBlock_admits (.inr ?_)) fun _ => .bind ?_))
  · obtain ⟨i, hi⟩ := Option.isSome_iff_exists.mp (Option.isNone_eq_false_iff.mp hs)
    exact ⟨_, getElem_mem i.isLt, index_some hi⟩
  have ho : ∀ {c₁ : Connection K}, c₁.lastRemote = c.lastRemote →
    Keeps (startBlock f) c₁ (Admits c.lastRemote f.stream) := fun hl =>
    startBlock_admits (.inl hl)
  unfold openRemote
  refine .get ?_
  split
  · exact .refuse (fun _ => .inl rfl) fun _ => .modify (ho rfl)
  · refine .refuse (fun _ => .inl rfl) fun _ => .put ?_
    split_ifs
    · exact .modify (ho rfl)
    · have hp : Post (addStream f.stream) { c with disposal := none, highestRemote := f.stream } _ _ := addStream_post
      unfold Post at hp ⊢
      unfold admitRemote
      rcases hq : addStream f.stream { c with disposal := none, highestRemote := f.stream } with ⟨r, c'⟩
      rw [hq] at hp
      cases r with
      | ok =>
        obtain ⟨-, l, _, rfl, hl, -⟩ := hp
        exact startBlock_admits (.inr ⟨_, hl.mem_iff.mpr mem_cons_self, rfl⟩)
      | error =>
        obtain ⟨rfl, he, -⟩ := hp
        simp only [he, if_true]
        exact ho rfl

lemma receive_admits (hh : (Call.receive input).hears c = some f) (hk : f.kind = 1) :
    Keeps (receive input) c (Admits c.lastRemote f.stream) := by
  unfold receive
  refine .get (.refuse (fun _ => .inl rfl) fun hl => .tryCatch ?_)
  have hf : ∀ {e : Error} {c₁ : Connection K}, Admits c.lastRemote f.stream c₁ →
      Post (do fail e; throw e) c₁ (fun _ : Step => Admits c.lastRemote f.stream)
        fun _ => Admits c.lastRemote f.stream := by
    intro e c₁ h₁
    exact .bind (.put (.get (frame_post (fun _ _ => .throw h₁) fun _ => h₁)))
  unfold receiveInner
  refine .get ?_
  split_ifs with hp
  · refine .lift (fun _ _ => hf (.inl rfl)) fun decoded hd => ?_
    obtain rfl : decoded = some f := by simpa [Call.hears, hl, hp, hd] using hh
    refine .lift (fun _ _ => hf (.inl rfl)) fun _ _ => .bind ?_
    unfold receiveFrame
    rw [hk]
    exact receiveHeaders_admits.mono (fun _ _ h => .pure h) fun _ _ h => hf h
  · simp [Call.hears, hp] at hh

end Connection

def Refused (c : Connection K) (calls : List Call) (id : ℕ) : Prop :=
  ∃ before call after f code, calls = before ++ call :: after ∧ call.hears (History.run c before).conn = some f ∧
    (f.kind = 1 ∨ f.kind = 9) ∧ .event (.reset id code) ∈ call.notes (History.run c before).conn

def TurnedAway (c : Connection K) (calls : List Call) (id : ℕ) : Prop :=
  Refused c calls id ∨ .event (.unprocessed id) ∈ (⟨c, []⟩ : History K).notes calls

/-- The HEADERS of `id` left a record of it. -/
def Admitted (c : Connection K) (calls : List Call) (id : ℕ) : Prop :=
  ∃ before call after f, calls = before ++ call :: after ∧
    call.hears (History.run c before).conn = some f ∧ f.kind = 1 ∧
    f.stream = id ∧ (call.exec (History.run c before).conn).Holds id

def Accepted (c : Connection K) (calls : List Call) (id : ℕ) : Prop := Admitted c calls id ∧ ¬ TurnedAway c calls id

def Call.own : Call → Bool
  | .shutdown | .handleTimeout _ | .receive _ => true
  | _ => false

namespace History

lemma admitted_last (new : Connection.withSettings role limits settings = .ok c) (calls : List Call) :
    (run c calls).conn.lastRemote = 0 ∨ Admitted c calls (run c calls).conn.lastRemote := by
  induction calls using reverseRecOn with
  | nil => exact .inl (congrArg Life.lastRemote (new_life new))
  | append_singleton calls call ih =>
    obtain ⟨ms, _, hr, hc, -⟩ := ((living new calls).went call).lives
    have hs : (run c (calls ++ [call])).conn = call.exec (run c calls).conn := by
      rw [run, foldl_append]
      rfl
    rw [hs]
    have hn : (call.exec (run c calls).conn).lastRemote = (run c calls).conn.lastRemote →
        (call.exec (run c calls).conn).lastRemote = 0 ∨
          Admitted c (calls ++ [call]) (call.exec (run c calls).conn).lastRemote := by
      intro hl
      rw [hl]
      refine ih.imp_right ?_
      rintro ⟨before, call', after, f, rfl, hf⟩
      exact ⟨before, call', after ++ [call], f, by simp, hf⟩
    rcases Life.last_of_trace hr with hl | hl
    · exact hn hl
    · have hi := hc _ hl
      cases call with
      | receive input =>
        obtain ⟨f, hf, hk, he⟩ : ∃ f, (Call.receive input).hears (run c calls).conn = some f ∧ f.kind = 1 ∧
          f.stream = ((Call.receive input).exec (run c calls).conn).lastRemote := hi
        rcases Post.snd (Connection.receive_admits hf hk) with ha | ha
        · exact hn ha
        · exact .inr ⟨calls, .receive input, [], f, rfl, hf, hk, he, he ▸ ha⟩
      | shutdown | handleTimeout => cases (show Life.Label.accepted _ = .announced _ from hi)
      | goaway => cases (show Life.Label.accepted _ = .goaway _ _ from hi)
      | openStream => rcases hi with hi | ⟨_, hi⟩ <;> cases hi
      | _ =>
        obtain ⟨n, hn⟩ := hi
        cases hn

variable {calls : List Call} {ls : List Life.Label}

variable (lived : Lived ⟨c, []⟩ calls ls)
include lived

lemma Lived.turned {id : ℕ} : TurnedAway c calls id → Life.Turned ls id := by
  rintro (⟨before, call, after, f, code, hc, hh, _, hn⟩ | hn)
  · obtain ⟨_, hu, hs, ht, -⟩ := lived.each before call after hc
    rw [show call.notes (run c before).conn = _ from ht.symm, mem_filterMap] at hn
    obtain ⟨l, hl, hb⟩ := hn
    refine .inl ⟨code, ?_⟩
    cases l with
    | refused id' code' =>
      obtain ⟨rfl, rfl⟩ : id' = id ∧ code' = code := by simpa [Life.Label.note] using hb
      exact hu hl
    | told n =>
      obtain rfl : n = .event (.reset id code) := by simpa [Life.Label.note] using hb
      have ho := hs _ hl
      cases call with
      | receive input =>
        obtain ⟨f', hf', hk'⟩ : ∃ f', (Call.receive input).hears (run c before).conn = some f' ∧ f'.kind = 3 := ho
        cases hh.symm.trans hf'
        omega
      | _ => cases hh
    | rejected id' code' =>
      have ho := hs _ hl
      cases call with
      | receive input =>
        obtain ⟨f', hf', hk'⟩ : ∃ f', (Call.receive input).hears (run c before).conn = some f' ∧ f'.kind = 8 := ho
        cases hh.symm.trans hf'
        omega
      | _ => cases hh
    | accepted | reserved | goaway | announced => cases hb
  · obtain ⟨l, hl, hb⟩ := lived.mem_notes.mp hn
    have hd : l = .told (.event (.unprocessed id)) := by
      cases l <;> simp_all [Life.Label.note]
    exact .inr (hd ▸ hl)

lemma Lived.announced (hc : calls = before ++ call :: after)
    (own : call.own = true) (hf : f ∈ (call.exec (run c before).conn).output.drop (run c before).conn.output.length)
    (hk : f.kind = 7) : .announced (u32be f.payload) ∈ ls := by
  obtain ⟨ms, hu, hs, -, _, ho, ha⟩ := lived.each before call after hc
  rw [run, ho, drop_left] at hf
  have hm : u32be f.payload ∈ ms.filterMap Life.Label.last := by
    rw [← ha, mem_filterMap]
    exact ⟨f, hf, by simp [Frame.last, hk]⟩
  obtain ⟨l, hl, hb⟩ := mem_filterMap.mp hm
  have hi := hs l hl
  cases l with
  | announced last =>
    obtain rfl : last = u32be f.payload := by simpa [Life.Label.last] using hb
    exact hu hl
  | goaway last above =>
    cases call with
    | receive => exact hi.elim
    | shutdown | handleTimeout => cases (show Life.Label.goaway last above = .announced _ from hi)
    | _ => cases own
  | told | refused | rejected | accepted | reserved => cases hb

end History

theorem goaway_truthful (new : Connection.withSettings .server limits settings = .ok c)
    (before : List Call) (call : Call)
    (own : call.own = true) (after : List Call)
    (f : Frame) (written : f ∈
      (call.exec (History.run c before).conn).output.drop (History.run c before).conn.output.length)
    (goaway : f.kind = 7) :
    let calls := before ++ call :: after
    (∀ e id fin, .event e ∈ (⟨c, []⟩ : History K).notes calls → e.delivers = some (id, fin) → id ≤ u32be f.payload) ∧
    (∀ id, TurnedAway c calls id → id ≤ u32be f.payload → ∃ a, id < a ∧ Accepted c calls a) := by
  obtain ⟨ls, lived⟩ := (History.living new []).lived (before ++ call :: after)
  have hr : Life.Truthful ls (History.run c (before ++ call :: after)).conn.life := by
    refine lived.trace.invariant (P := Life.Truthful) (fun h hs => h.step hs) ?_
    rw [show (History.run c []).conn.life =
      (Connection.start .server limits : Connection K).life from History.new_life new]
    exact ⟨rfl, le_rfl, nofun, .inl rfl, fun p hp => absurd hp (Multiset.notMem_zero p), nofun,
      by simp [Life.Turned], nofun, nofun⟩
  have ha := (hr.frozen _ (lived.announced rfl own written goaway)).1
  refine ⟨fun e id fin he hd => ?_, fun id hi hb => ?_⟩
  · obtain ⟨l, hl, hn⟩ := lived.mem_notes.mp he
    have ht : l = .told (.event e) := by
      cases l with
      | told => exact congrArg _ (Option.some.inj hn)
      | refused id code | rejected id code =>
        obtain rfl : Event.reset id code = e := by simpa [Life.Label.note] using hn
        cases hd
      | accepted | reserved | goaway | announced => cases hn
    rw [ha]
    exact hr.below id (hr.told e id fin (ht ▸ hl) hd)
  · have hu := hr.turned id (lived.turned hi)
    have ho := hu.2.2
    have hc : Life.Label.accepted (u32be f.payload) ∈ ls := by
      rcases hr.last with _ | hc
      · omega
      · rwa [ha]
    refine ⟨u32be f.payload, lt_of_le_of_ne hb ?_, ?_, fun hf => (hr.turned _ (lived.turned hf)).1 hc⟩
    · rintro rfl
      exact hu.1 hc
    · rw [ha]
      refine (History.admitted_last new _).resolve_left fun hz => ?_
      have hl : u32be f.payload = 0 := ha.trans hz
      omega

theorem goaway_truthful_shutdown :
    let before : List Call := [.receive PREFACE, .receive (Frame.encode ⟨4, 0, 0, []⟩),
      .receive (Frame.encode ⟨1, 5, 1, requestBlock⟩)]
    let calls := before ++ .shutdown :: [.receive (Frame.encode ⟨1, 5, 3, requestBlock⟩)]
    let c : Connection .hpack := .plain .server
    .event (.headers 1 requestHead true .head) ∈ (⟨c, []⟩ : History _).notes calls ∧ TurnedAway c calls 3 ∧
    ∀ e id fin, .event e ∈ (⟨c, []⟩ : History _).notes calls → e.delivers = some (id, fin) → id ≤ 1 := by
  refine ⟨by decide +kernel, .inr (by decide +kernel), ?_⟩
  exact (goaway_truthful (Connection.withSettings_plain .server)
    [.receive PREFACE, .receive (Frame.encode ⟨4, 0, 0, []⟩), .receive (Frame.encode ⟨1, 5, 1, requestBlock⟩)]
    .shutdown rfl [.receive (Frame.encode ⟨1, 5, 3, requestBlock⟩)] ⟨7, 0, 0, be32 1 ++ be32 0⟩
    (by decide +kernel) rfl).1

end Turnloop.Http2
