import Turnloop.Http2.Receive
import Turnloop.Lib.Keyed
import Turnloop.Lib.Trace

/-! The life of streams: how they come and go, and what the host and the peer are told about it. -/

namespace Turnloop.Http2

open Lib Multiset

inductive Note where
  | opened (id : ℕ)
  | event (e : Event)
  | reset (id : ℕ)
  | terminal (id : ℕ)
  deriving DecidableEq

namespace Event

def delivers : Event → Option (ℕ × Bool)
  | .headers id _ endStream _ => some (id, endStream)
  | .data id _ endStream => some (id, endStream)
  | _ => none

def quiet : Event → Bool
  | .settings _ | .settingsAck _ | .ping _ _ | .windowUpdate _ => true
  | _ => false

lemma quiet_delivers {e : Event} (h : e.quiet = true) : e.delivers = none := by cases e <;> trivial

end Event

structure Status where
  remoteEnd : Bool
  credited : Bool
  unreleased : ℕ

structure Life where
  role : Role
  streams : Multiset (ℕ × Status)
  seen : Set ℕ
  lastRemote : ℕ
  highestRemote : ℕ
  peerFrame : ℕ
  draining : Bool
  failed : Bool
  continuation : Option ℕ
  disposal : Option Disposal

namespace Life

/-- A note, a refused stream and one reset for its window are told; a stream of the peer is accepted, one of the host is
reserved; a GOAWAY is written, of the host's choice, `above` the streams of the peer or not, or the connection's own. -/
inductive Label where
  | told (n : Note)
  | refused (id code : ℕ)
  | rejected (id code : ℕ)
  | accepted (id : ℕ)
  | reserved (id : ℕ)
  | goaway (last : ℕ) (above : Bool)
  | announced (last : ℕ)

def Label.note : Label → Option Note
  | .told n => some n
  | .refused id code => some (.event (.reset id code))
  | .rejected id code => some (.event (.reset id code))
  | _ => none

def Label.last : Label → Option ℕ
  | .goaway last _ => some last
  | .announced last => some last
  | _ => none

def MAX : ℕ := 0x7fffffff

inductive Step (L : Life) : List Label → Life → Prop where
  | touched {id : ℕ} {a : Status} {rest : Multiset (ℕ × Status)} (b : Status) (entry : L.streams = (id, a) ::ₘ rest)
      (same : b.remoteEnd = a.remoteEnd) (credited : b.credited = a.credited)
      (held : a.remoteEnd = true → b.unreleased ≤ a.unreleased) : Step L [] { L with streams := (id, b) ::ₘ rest }
  | recycled {id : ℕ} {a : Status} {rest : Multiset (ℕ × Status)} (entry : L.streams = (id, a) ::ₘ rest)
      (ended : a.remoteEnd = true) : Step L [] { L with streams := rest }
  | saw (s : Set ℕ) (sub : L.seen ⊆ s) (client : L.role = .client) : Step L [] { L with seen := s }
  | reserved {id : ℕ} (s : Set ℕ) (client : L.role = .client) (zero : id ≠ 0) (bound : id ≤ MAX) (fresh : id ∉ L.seen)
      (sub : insert id L.seen ⊆ s) :
      Step L [.reserved id] { L with streams := (id, ⟨false, false, 0⟩) ::ₘ L.streams, seen := s }
  | opened {id : ℕ} {a : Status} (mem : (id, a) ∈ L.streams)
      (still : a.remoteEnd = false) : Step L [.told (.opened id)] L
  | accepted {id : ℕ} (s : Set ℕ) (server : L.role = .server) (zero : id ≠ 0) (bound : id ≤ MAX) (fresh : id ∉ L.seen)
      (sub : insert id L.seen ⊆ s) (above : L.highestRemote < id) (calm : L.draining = false) (live : L.failed = false)
      (clear : L.disposal = none) :
      Step L [.accepted id]
        { L with
          streams := (id, ⟨false, false, 0⟩) ::ₘ L.streams
          seen := s
          highestRemote := id
          lastRemote := id }
  | turned {id : ℕ} (d : Disposal) (s : Set ℕ) (server : L.role = .server) (bound : id ≤ MAX) (fresh : id ∉ L.seen)
      (sub : insert id L.seen ⊆ s) (above : L.highestRemote < id) (alone : L.continuation = none)
      (why : d = .unprocessed → L.draining = true) :
      Step L [] { L with seen := s, highestRemote := id, disposal := some d }
  | disposed (d : Option Disposal) (harmless : d = none ∨ d = some .discard) : Step L [] { L with disposal := d }
  | continued (k : Option ℕ)
      (doom : ∀ id d, k = some id → L.disposal = some d → d ≠ .discard → id = L.highestRemote) :
      Step L [] { L with continuation := k }
  | resized (v : ℕ) (bound : 0 < v ∧ v ≤ 0xffffff) : Step L [] { L with peerFrame := v }
  | delivered {id : ℕ} {a b : Status} {rest : Multiset (ℕ × Status)} (e : Event) (entry : L.streams = (id, a) ::ₘ rest)
      (still : a.remoteEnd = false) (delivers : e.delivers = some (id, b.remoteEnd))
        (credited : b.credited = a.credited) :
      Step L [.told (.event e)] { L with streams := (id, b) ::ₘ rest }
  | peerReset {id : ℕ} {a : Status} {rest : Multiset (ℕ × Status)} (code : ℕ) (entry : L.streams = (id, a) ::ₘ rest) :
      Step L [.told (.event (.reset id code))] { L with streams := (id, ⟨true, true, 0⟩) ::ₘ rest }
  | removed {id : ℕ} {a : Status} {rest : Multiset (ℕ × Status)} (l : Label) (entry : L.streams = (id, a) ::ₘ rest)
      (reset : l = .told (.reset id) ∨ ∃ code, l = .rejected id code) : Step L [l] { L with streams := rest }
  | resetGone {id : ℕ} (known : id ∈ L.seen) (none : ∀ a, (id, a) ∉ L.streams) : Step L [.told (.reset id)] L
  | refused (code : ℕ) (doom : L.disposal = some (.refuse code)) :
      Step L [.refused L.highestRemote code] { L with disposal := none }
  | unprocessed (doom : L.disposal = some .unprocessed) :
      Step L [.told (.event (.unprocessed L.highestRemote))] { L with disposal := none }
  | noted (e : Event) (quiet : e.quiet = true) : Step L [.told (.event e)] L
  | drained (last code : ℕ) (debug : Option Bytes) :
      Step L [.told (.event (.goaway last code debug))] { L with draining := true }
  | goaway (last : ℕ) : Step L [.goaway last (decide (L.highestRemote < last))] { L with draining := true }
  | shutdown : Step L [.announced L.lastRemote] { L with draining := true }
  | failing : Step L [.announced L.lastRemote] { L with failed := true }
  | broke : Step L [] { L with failed := true }
  | terminal {id : ℕ} {a : Status} {rest : Multiset (ℕ × Status)} (entry : L.streams = (id, a) ::ₘ rest)
      (still : a.remoteEnd = false) :
      Step L [.told (.terminal id)] { L with streams := (id, { a with remoteEnd := true }) ::ₘ rest }

variable {L L' : Life} {ls : List Label}

structure Tidy (L : Life) : Prop where
  keyed : Keyed L.streams
  known : ∀ p ∈ L.streams, p.1 ∈ L.seen
  nonzero : ∀ p ∈ L.streams, p.1 ≠ 0
  bound : ∀ p ∈ L.streams, p.1 ≤ MAX
  last : L.lastRemote ≤ MAX
  frame : 0 < L.peerFrame ∧ L.peerFrame ≤ 0xffffff
  doom : ∀ id d, L.continuation = some id → L.disposal = some d → d ≠ .discard → id = L.highestRemote
  turned : ∀ d, L.disposal = some d → d ≠ .discard → L.highestRemote ∈ L.seen ∧ ∀ a, (L.highestRemote, a) ∉ L.streams

namespace Tidy

variable {rest : Multiset (ℕ × Status)} {a : Status} {id : ℕ}

lemma of_ids (h : L.Tidy) {streams : Multiset (ℕ × Status)} (hi : streams.map Prod.fst ≤ L.streams.map Prod.fst) :
    { L with streams := streams }.Tidy := by
  have hm : ∀ p ∈ streams, ∃ q ∈ L.streams, q.1 = p.1 := fun p hp =>
    mem_map.mp (mem_of_le hi (mem_map_of_mem Prod.fst hp))
  refine ⟨nodup_of_le hi h.keyed, fun p hp => ?_, fun p hp => ?_, fun p hp => ?_, h.last, h.frame, h.doom,
    fun d hd hn => ?_⟩
  · obtain ⟨q, hq, hb⟩ := hm p hp
    exact hb ▸ h.known q hq
  · obtain ⟨q, hq, hb⟩ := hm p hp
    exact hb ▸ h.nonzero q hq
  · obtain ⟨q, hq, hb⟩ := hm p hp
    exact hb ▸ h.bound q hq
  · obtain ⟨he, ho⟩ := h.turned d hd hn
    refine ⟨he, fun a ha => ?_⟩
    obtain ⟨⟨i, b⟩, hq, hb⟩ := hm _ ha
    subst hb
    exact ho b hq

lemma set (h : L.Tidy) (entry : L.streams = (id, a) ::ₘ rest) : { L with streams := (id, b) ::ₘ rest }.Tidy := by
  refine h.of_ids ?_
  rw [entry, map_cons, map_cons]

lemma remove (h : L.Tidy) (entry : L.streams = p ::ₘ rest) : { L with streams := rest }.Tidy := by
  refine h.of_ids ?_
  rw [entry, map_cons]
  exact le_cons_self _ _

lemma add (h : L.Tidy) (zero : id ≠ 0) (bound : id ≤ MAX) (fresh : id ∉ L.seen)
    (sub : insert id L.seen ⊆ s) {last : ℕ} (hl : last ≤ MAX) (hc : L.disposal = none ∨ hg = L.highestRemote) :
    { L with streams := (id, a) ::ₘ L.streams, seen := s, lastRemote := last, highestRemote := hg }.Tidy := by
  refine ⟨Keyed.cons.mpr ⟨fun w hw => fresh (h.known _ hw), h.keyed⟩, fun p hp => ?_, fun p hp => ?_,
    fun p hp => ?_, hl, h.frame,
    fun i d hi hd hn => ?_, fun d hd hn => ?_⟩
  · rcases mem_cons.mp hp with rfl | hp
    · exact sub (Set.mem_insert _ _)
    · exact sub (Set.mem_insert_of_mem _ (h.known p hp))
  · rcases mem_cons.mp hp with rfl | hp
    · exact zero
    · exact h.nonzero p hp
  · rcases mem_cons.mp hp with rfl | hp
    · exact bound
    · exact h.bound p hp
  · rcases hc with hc | rfl
    · cases hc.symm.trans hd
    · exact h.doom i d hi hd hn
  · rcases hc with hc | rfl
    · cases hc.symm.trans hd
    · obtain ⟨he, ho⟩ := h.turned d hd hn
      refine ⟨sub (Set.mem_insert_of_mem _ he), fun a' ha => ?_⟩
      rcases mem_cons.mp ha with hq | ha
      · have hb : L.highestRemote = id := congrArg Prod.fst hq
        exact fresh (hb ▸ he)
      · exact ho a' ha

lemma step (h : L.Tidy) (hs : Step L ls L') : L'.Tidy := by
  cases hs with
  | touched b entry | delivered e entry | peerReset code entry | terminal entry => exact h.set entry
  | recycled entry | removed l entry => exact h.remove entry
  | saw s sub =>
    exact
      { h with
        known := fun p hp => sub (h.known p hp)
        turned := fun d hd hn => (h.turned d hd hn).imp_left fun hd => sub hd }
  | reserved s client zero bound fresh sub => exact h.add zero bound fresh sub h.last (.inr rfl)
  | opened => exact h
  | accepted s server zero bound fresh sub above calm live clear => exact h.add zero bound fresh sub bound (.inl clear)
  | @turned id d s server bound fresh sub above alone =>
    refine ⟨h.keyed, fun p hp => sub (Set.mem_insert_of_mem _ (h.known p hp)), h.nonzero, h.bound, h.last, h.frame,
      fun i d' hi hd hn => ?_, fun d' hd hn => ⟨sub (Set.mem_insert _ _), fun a ha => fresh (h.known _ ha)⟩⟩
    cases alone.symm.trans hi
  | disposed d hr =>
    have ho : ∀ d', d = some d' → d' ≠ .discard → False := by
      rintro d' rfl hn
      rcases hr with h | h
      · cases h
      · exact hn (Option.some.inj h)
    exact { h with doom := fun i d' _ hd hn => (ho d' hd hn).elim, turned := fun d' hd hn => (ho d' hd hn).elim }
  | continued k doom => exact { h with doom := doom }
  | resized v bound => exact { h with frame := bound }
  | resetGone => exact h
  | refused code doom | unprocessed doom => exact { h with doom := nofun, turned := nofun }
  | noted => exact h
  | drained | goaway | shutdown | failing | broke => exact { h with }

lemma mem_set (h : L.Tidy) (entry : L.streams = (id, a) ::ₘ rest)
    (hp : p ∈ (id, b) ::ₘ rest) : p = (id, b) ∨ p ∈ L.streams ∧ p.1 ≠ id := by
  rcases mem_cons.mp hp with hp | hp
  · exact .inl hp
  · exact .inr ⟨entry ▸ mem_cons_of_mem hp, (entry ▸ h.keyed).ne_of_mem hp⟩

lemma here (entry : L.streams = (id, a) ::ₘ rest) : (id, a) ∈ L.streams := entry ▸ mem_cons_self _ _

end Tidy

end Life

end Turnloop.Http2
