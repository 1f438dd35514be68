import Turnloop.Http2.Life
import Turnloop.Http2.Restored
import Turnloop.Lib.Bag

/-! Two pictures of a connection: its flow control, and the life of its streams. -/

namespace Turnloop.Http2

open Lib Lib.Program List Multiset

def Stream.credit (s : Stream) : Credit := ⟨s.sendWindow, s.recvWindow, s.unreleased, s.remoteEnd⟩

def Stream.entry (s : Stream) : ℕ × Credit := (s.id, s.credit)

def Stream.life (s : Stream) : ℕ × Status := (s.id, ⟨s.remoteEnd, s.credited, s.unreleased⟩)

def Frame.spoken (f : Frame) : List Label :=
  if f.kind = 0 then [.sent f.stream f.payload.length]
  else if f.kind = 8 then [.credited f.stream (u32be f.payload)]
  else if f.kind = 4 ∧ f.flags = 0 then [.offered (SettingsFrame.iter f.payload)]
  else []

def Frame.last (f : Frame) : Option ℕ := if f.kind = 7 then some (u32be f.payload) else none

namespace Connection

variable {K : Codec} {c c' c'' : Connection K} {xs ys : List Label} {P : Life.Label → Prop} {ns ns' : List Note}
variable {l : List Stream} {f : Frame} {payload : Bytes} {id i kind flags stream : ℕ}

def flow (c : Connection K) : Flow where
  streams := (c.streams.map Stream.entry : List (ℕ × Credit))
  send := c.sendWindow
  recv := c.recvWindow
  initialSend := c.initialSend
  peerFrame := c.peerFrame
  acked := (c.ackedLimits, c.ackedRecvInitial)
  pending := c.settingsPending.map Settings.entries
  limits := c.limits
  recvInitial := c.recvInitial
  seen := { id | c.seen id = true }
  failed := c.failed

def life (c : Connection K) : Life where
  role := c.role
  streams := (c.streams.map Stream.life : List (ℕ × Status))
  seen := { id | c.seen id = true }
  lastRemote := c.lastRemote
  highestRemote := c.highestRemote
  peerFrame := c.peerFrame
  draining := c.draining
  failed := c.failed
  continuation := c.continuation.map (·.1)
  disposal := c.disposal

def Steady (fs : List Frame) (c c' : Connection K) : Prop :=
  c'.role = c.role ∧ c'.nextId % 2 = c.nextId % 2 ∧ fs.all (fun f => f.kind != 0) = true

/-- From `c` to `c'` by steps that hear `xs` and write what they say, all but the sending of DATA. -/
def Hears (xs : List Label) (c c' : Connection K) : Prop :=
  ∃ ls fs, Flow.Path c.flow ls c'.flow ∧ ls.filter (fun l => !l.said) = xs ∧ c'.output = c.output ++ fs ∧
    fs.flatMap Frame.spoken = ls.filter Label.said ∧ Steady fs c c'

namespace Hears

lemma same (hf : c'.flow = c.flow) (ho : c'.output = c.output) (hs : Steady [] c c') : Hears [] c c' :=
  ⟨[], [], hf ▸ .nil, rfl, by rw [ho, append_nil], rfl, hs⟩

lemma trans (h : Hears xs c c') (h' : Hears ys c' c'') : Hears (xs ++ ys) c c'' := by
  obtain ⟨ls, fs, hp, rfl, ho, hs, ht⟩ := h
  obtain ⟨ls', fs', hp', rfl, ho', hs', ht'⟩ := h'
  refine ⟨ls ++ ls', fs ++ fs', hp.trans hp', filter_append _ _, ?_, ?_, ?_⟩
  · rw [ho', ho, append_assoc]
  · rw [flatMap_append, filter_append, hs, hs']
  · exact ⟨ht'.1.trans ht.1, ht'.2.1.trans ht.2.1, by rw [all_append, ht.2.2, ht'.2.2]; rfl⟩

lemma before (h : Hears xs c c') (h' : Hears [] c' c'') : Hears xs c c'' := by
  have hb := h.trans h'
  rwa [append_nil] at hb

lemma step (fs : List Frame) (h : Flow.Step c.flow ls G) (hf : c'.flow = G)
    (ho : c'.output = c.output ++ fs) (hp : fs.flatMap Frame.spoken = ls.filter Label.said) (hs : Steady fs c c') :
    Hears (ls.filter (fun l => !l.said)) c c' :=
  ⟨ls, fs, hf ▸ .single h, rfl, ho, hp, hs⟩

lemma silent (h : Flow.Step c.flow ls G) (hf : c'.flow = G) (ho : c'.output = c.output)
    (ha : ls.filter Label.said = []) (hs : Steady [] c c') : Hears (ls.filter (fun l => !l.said)) c c' :=
  step [] h hf (by rw [ho, append_nil]) ha.symm hs

lemma writes (hf : c'.flow = c.flow) (ho : c'.output = c.output ++ [f]) (hp : f.spoken = [])
    (hr : c'.role = c.role) (hn : c'.nextId = c.nextId) : Hears [] c c' := by
  refine ⟨[], [f], hf ▸ .nil, rfl, ho, by simp [hp], hr, congrArg (· % 2) hn, ?_⟩
  have hi : f.kind ≠ 0 := fun hk => by simp [Frame.spoken, hk] at hp
  simpa using hi

lemma full (h : Hears xs c c') (full : c.flow.Full) : c'.flow.Full := by
  obtain ⟨_, -, hp, -⟩ := h
  exact hp.keeps (P := Flow.Full) (fun h hs => h.step hs) full

end Hears

/-- From `c` to `c'` by steps with labels in `P` that tell the host of `ns`. -/
def Lives (P : Life.Label → Prop) (ns : List Note) (c c' : Connection K) : Prop :=
  ∃ ls fs, Trace Life.Step c.life ls c'.life ∧ (∀ l ∈ ls, P l) ∧ ls.filterMap Life.Label.note = ns ∧
    c'.output = c.output ++ fs ∧ fs.filterMap Frame.last = ls.filterMap Life.Label.last

def Quiet (c c' : Connection K) : Prop :=
  c'.life = c.life ∧ ∃ fs, c'.output = c.output ++ fs ∧ fs.filterMap Frame.last = []

namespace Quiet

lemma same (hl : c'.life = c.life) (ho : c'.output = c.output) : Quiet c c' :=
  ⟨hl, [], by rw [ho, append_nil], rfl⟩

lemma trans (h : Quiet c c') (h' : Quiet c' c'') : Quiet c c'' := by
  obtain ⟨hl, fs, ho, hn⟩ := h
  obtain ⟨hl', fs', ho', hn'⟩ := h'
  refine ⟨hl'.trans hl, fs ++ fs', ?_, ?_⟩
  · rw [ho', ho, append_assoc]
  · rw [filterMap_append, hn, hn', append_nil]

lemma writes (hl : c'.life = c.life) (ho : c'.output = c.output ++ [f]) (ha : f.last = none) : Quiet c c' :=
  ⟨hl, [f], ho, by simp [ha]⟩

lemma lives (h : Quiet c c') : Lives P [] c c' := by
  obtain ⟨hl, fs, ho, hn⟩ := h
  exact ⟨[], fs, hl ▸ .nil, nofun, rfl, ho, hn⟩

end Quiet

namespace Lives

variable {L : Life}

lemma trans (h : Lives P ns c c') (h' : Lives P ns' c' c'') : Lives P (ns ++ ns') c c'' := by
  obtain ⟨ls, fs, hr, hP, rfl, ho, ha⟩ := h
  obtain ⟨ls', fs', ht', hP', rfl, ho', hl'⟩ := h'
  refine ⟨ls ++ ls', fs ++ fs', hr.trans ht', fun l hl => ?_, filterMap_append, ?_, ?_⟩
  · exact (mem_append.mp hl).elim (hP l) (hP' l)
  · rw [ho', ho, append_assoc]
  · rw [filterMap_append, filterMap_append, ha, hl']

lemma before (h : Lives P ns c c') (h' : Lives P [] c' c'') : Lives P ns c c'' := by
  have hb := h.trans h'
  rwa [append_nil] at hb

lemma after (h : Lives P [] c c') (h' : Lives P ns' c' c'') : Lives P ns' c c'' := h.trans h'

lemma tidy (h : Lives P ns c c') (hi : c.life.Tidy) : c'.life.Tidy := by
  obtain ⟨_, -, hr, -⟩ := h
  exact hr.keeps (P := Life.Tidy) (fun h hs => h.step hs) hi

lemma step (h : Life.Step c.life ls L) (hl : c'.life = L) (hP : ∀ l ∈ ls, P l)
    (ha : ls.filterMap Life.Label.last = []) (ho : c'.output = c.output) :
    Lives P (ls.filterMap Life.Label.note) c c' :=
  ⟨ls, [], hl ▸ .single h, hP, rfl, by rw [ho, append_nil], ha.symm⟩

lemma silent (h : Life.Step c.life [] L) (hl : c'.life = L) (ho : c'.output = c.output) : Lives P [] c c' :=
  step h hl nofun rfl ho

lemma names {l : Life.Label} (rest : Bytes) (h : Life.Step c.life [l] L) (hl : c'.life = L) (hP : P l)
    (hn : l.note = none) (ha : l.last = some last) (hm : last < 2 ^ 32)
    (ho : c'.output = c.output ++ [⟨7, 0, 0, be32 last ++ rest⟩]) : Lives P [] c c' := by
  refine ⟨[l], [⟨7, 0, 0, be32 last ++ rest⟩], hl ▸ .single h, by simpa using hP, by simp [hn], ho, ?_⟩
  simp [ha, Frame.last, u32be_be32 hm]

end Lives

structure Goes (xs : List Label) (P : Life.Label → Prop) (ns : List Note) (c c' : Connection K) : Prop where
  hears : Hears xs c c'
  lives : Lives P ns c c'

structure Calm (c c' : Connection K) : Prop where
  hears : Hears [] c c'
  quiet : Quiet c c'

namespace Calm

lemma same (hf : c'.flow = c.flow) (hl : c'.life = c.life) (ho : c'.output = c.output)
    (hn : c'.nextId = c.nextId) : Calm c c' :=
  ⟨.same hf ho ⟨congrArg Life.role hl, congrArg (· % 2) hn, rfl⟩, .same hl ho⟩

lemma refl (c : Connection K) : Calm c c := same rfl rfl rfl rfl

lemma trans (h : Calm c c') (h' : Calm c' c'') : Calm c c'' := ⟨h.hears.before h'.hears, h.quiet.trans h'.quiet⟩

lemma writes (hp : f.spoken = []) (hl : f.last = none) : Calm c { c with output := c.output ++ [f] } :=
  ⟨.writes rfl rfl hp rfl rfl, .writes rfl rfl hl⟩

lemma goes (h : Calm c c') : Goes [] P [] c c' := ⟨h.hears, h.quiet.lives⟩

end Calm

namespace Goes

lemma refl (c : Connection K) : Goes [] P [] c c := (Calm.refl c).goes

lemma before (h : Goes xs P ns c c') (h' : Goes [] P [] c' c'') : Goes xs P ns c c'' :=
  ⟨h.hears.before h'.hears, h.lives.before h'.lives⟩

lemma after (h : Goes [] P [] c c') (h' : Goes ys P ns' c' c'') : Goes ys P ns' c c'' :=
  ⟨h.hears.trans h'.hears, h.lives.trans h'.lives⟩

end Goes

abbrev Gives {α : Type} (P : Life.Label → Prop) (n : α → List Note) (m : M K α) (c : Connection K) : Prop :=
  Post m c (fun a c' => Goes [] P (n a) c c') (fun _ c' => Goes [] P [] c c')

lemma Goes.gives {α : Type} {n : α → List Note} {m : M K α} (h : Goes [] P [] c c') (hm : Gives P n m c') :
    Post m c' (fun a c'' => Goes [] P (n a) c c'') (fun _ c'' => Goes [] P [] c c'') :=
  hm.mono (fun _ _ h' => h.after h') (fun _ _ h' => h.after h')

lemma Calm.keeps {α : Type} {m : M K α} (h : Calm c c') (hm : Keeps m c' (Calm c')) : Keeps m c' (Calm c) :=
  hm.mono (fun _ _ h' => h.trans h') (fun _ _ h' => h.trans h')

def Fails (xs : List Label) (c c' : Connection K) : Prop := Hears xs c { c' with failed := true }

lemma Hears.fails (h : Hears xs c c') : Fails xs c c' := by
  have he : Flow.Step c'.flow [] { c' with failed := true }.flow := .broke rfl (fun p hp => .inr hp)
  exact h.before (.silent he rfl rfl rfl ⟨rfl, rfl, rfl⟩)

lemma flow_of (h : ((l.map Stream.entry : List (ℕ × Credit)) : Multiset (ℕ × Credit)) = m) :
    { c with streams := l }.flow = { c.flow with streams := m } :=
  congrArg (fun m => { c.flow with streams := m }) h

lemma life_of (h : ((l.map Stream.life : List (ℕ × Status)) : Multiset (ℕ × Status)) = m) :
    { c with streams := l }.life = { c.life with streams := m } :=
  congrArg (fun m => { c.life with streams := m }) h

lemma update_calm {f : Stream → Stream} (he : ∀ s, c.streams[i]? = some s → (f s).entry = s.entry)
    (hl : ∀ s, c.streams[i]? = some s → (f s).life = s.life) : Calm c (c.update i f) := by
  refine .same ?_ ?_ rfl rfl
  · exact flow_of (congrArg _ (map_modify_same Stream.entry f he))
  · exact life_of (congrArg _ (map_modify_same Stream.life f hl))

section

variable {β : Type} (e : Stream → β)

lemma split (c : Connection K) (i : Fin c.streams.length) : ∃ rest : Multiset β,
    ((c.streams.map e : List β) : Multiset β) = e (c.streams.get i) ::ₘ rest ∧
    ∀ f, (((c.streams.modify i f).map e : List β) : Multiset β) = e (f (c.streams.get i)) ::ₘ rest :=
  ⟨((c.streams.eraseIdx i).map e : List β), coe_map_eq_cons _ i.isLt, fun f => coe_map_modify _ f i.isLt⟩

lemma swapRemove_coe (hi : i < l.length) : ((swapRemove l i : List Stream) : Multiset Stream) =
    (l.eraseIdx i : List Stream) := by
  have hn : l ≠ [] := ne_nil_of_length_pos (Nat.zero_lt_of_lt hi)
  have hl : l.getLast? = some (l.getLast hn) := getLast?_eq_some_getLast hn
  simp only [swapRemove, hl]
  exact coe_dropLast_set hl hi

lemma swapRemove_map (hi : i < l.length)
    (h : ((l.map e : List β) : Multiset β) = e l[i] ::ₘ rest) :
    (((swapRemove l i).map e : List β) : Multiset β) = rest := by
  rw [← map_coe, swapRemove_coe hi, map_coe]
  exact (Multiset.cons_inj_right _).mp ((coe_map_eq_cons e hi).symm.trans h)

end

lemma index_some {i : Fin c.streams.length} (h : c.index id = some i) : (c.streams.get i).id = id := by
  have hp := (findFinIdx?_eq_some_iff.mp h).1
  simpa using hp

lemma not_mem_of_index (hi : c.index id = none) : ∀ s ∈ c.streams, s.id ≠ id := by
  intro s hs he
  have hn := findFinIdx?_eq_none_iff.mp hi s hs
  simp [he] at hn

lemma index_none (h : c.index id = none) : ∀ a, (id, a) ∉ c.flow.streams := by
  intro a ha
  obtain ⟨s, hs, he⟩ := mem_map.mp (show (id, a) ∈ c.streams.map Stream.entry from ha)
  exact not_mem_of_index h s hs (congrArg Prod.fst he)

lemma index_life (h : c.index id = none) : ∀ a, (id, a) ∉ c.life.streams := by
  intro a ha
  obtain ⟨s, hs, he⟩ := mem_map.mp (show (id, a) ∈ c.streams.map Stream.life from ha)
  exact not_mem_of_index h s hs (congrArg Prod.fst he)

lemma frame_post {ok : Unit → Connection K → Prop} {err : Error → Connection K → Prop}
    (ho : payload.length ≤ 0xffffff → stream ≤ 0x7fffffff →
      ok () { c with output := c.output ++ [⟨kind, flags, stream, payload⟩] })
    (he : 0xffffff < payload.length ∨ 0x7fffffff < stream → err frameError c) : Post
      (frame kind flags stream payload) c ok err := by
  unfold frame
  refine .refuse (fun h => ?_) fun h => ?_
  · simp only [gt_iff_lt, Bool.or_eq_true, decide_eq_true_eq] at h
    exact he h
  · simp only [gt_iff_lt, Bool.or_eq_false_iff, decide_eq_false_iff_not, not_lt] at h
    exact ho h.1 h.2

lemma frame_ok {ok : Unit → Connection K → Prop} {err : Error → Connection K → Prop}
    (hp : payload.length ≤ 0xffffff) (hs : stream ≤ 0x7fffffff)
    (ho : ok () { c with output := c.output ++ [⟨kind, flags, stream, payload⟩] }) :
    Post (frame kind flags stream payload) c ok err :=
  frame_post (fun _ _ => ho) (fun h => by omega)

lemma frame_calm (hp : Frame.spoken ⟨kind, flags, stream, payload⟩ = [])
    (hl : Frame.last ⟨kind, flags, stream, payload⟩ = none) : Keeps (frame kind flags stream payload) c (Calm c) :=
  frame_post (fun _ _ => .writes hp hl) (fun _ => .refl c)

lemma spoken_credit (h : n < 2 ^ 32) : Frame.spoken ⟨8, 0, id, be32 n⟩ = [.credited id n] := by
  have hn := u32be_be32 h []
  rw [append_nil] at hn
  simp [Frame.spoken, hn]

lemma full_lt (full : c.flow.Full) {i : Fin c.streams.length} : (c.streams.get i).unreleased < 2 ^ 32 := by
  have hm : c.streams[i].entry ∈ c.flow.streams := mem_map_of_mem (getElem_mem i.isLt)
  exact (full.unreleased_le hm).trans_lt (by norm_num)

lemma touched_lives (hg : c.streams[i]? = some s) (f : Stream → Stream) (hd : (f s).id = s.id)
    (he : (f s).remoteEnd = s.remoteEnd) (hc : (f s).credited = s.credited)
    (hh : s.remoteEnd = true → (f s).unreleased ≤ s.unreleased) : Lives P [] c (c.update i f) := by
  obtain ⟨hi, rfl⟩ := List.getElem?_eq_some_iff.mp hg
  obtain ⟨rest, hs, hm⟩ := split Stream.life c ⟨i, hi⟩
  refine .silent (.touched (f c.streams[i]).life.2 hs he hc hh) ?_ rfl
  have hl : (f c.streams[i]).life = (c.streams[i].id, (f c.streams[i]).life.2) := Prod.ext hd rfl
  exact life_of ((hm f).trans (congrArg (· ::ₘ rest) hl))

lemma seen_mono (hr : c'.role = c.role) (hn : c.nextId ≤ c'.nextId) (hh : c.highestRemote ≤ c'.highestRemote)
    (h : c.seen id = true) : c'.seen id = true := by
  unfold seen at h ⊢
  rw [hr]
  split_ifs at h ⊢ with _ _
  · exact decide_eq_true ((of_decide_eq_true h).trans_le hn)
  · exact decide_eq_true ((of_decide_eq_true h).trans hh)

end Connection

end Turnloop.Http2
