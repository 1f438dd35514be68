import Turnloop.Http2.Calls

/-! The frames of the peer, in both pictures of a connection. -/

namespace Turnloop.Http2

open Lib Lib.Program

def tellsSetting (e : UInt16 × UInt32) : List Label :=
  if e.1 = Settings.INITIAL_WINDOW_SIZE then [.initial e.2.toNat]
  else if e.1 = Settings.MAX_FRAME_SIZE then [.frameSize e.2.toNat]
  else []

def Frame.tells (f : Frame) : List Label :=
  if f.kind = 0 then [.got f.stream f.payload.length]
  else if f.kind = 8 then [.grew f.stream (u32be f.payload % 2 ^ 31)]
  else if f.kind = 4 then if f.ACK then [.acked] else (SettingsFrame.iter f.payload).flatMap tellsSetting
  else []

def Life.Label.Of (heard : Option Frame) : Life.Label → Prop
  | .goaway _ _ => False
  | .accepted id => ∃ f, heard = some f ∧ f.kind = 1 ∧ f.stream = id
  | .reserved _ => False
  | .refused _ _ => ∃ f, heard = some f ∧ (f.kind = 1 ∨ f.kind = 9)
  | .rejected _ _ => ∃ f, heard = some f ∧ f.kind = 8
  | .told (.event (.reset _ _)) => ∃ f, heard = some f ∧ f.kind = 3
  | .told (.event _) => True
  | .told _ => False
  | .announced _ => True

namespace Life.Label

lemma of_delivers (h : e.delivers = some p) : Of heard (.told (.event e)) := by
  cases e <;> simp_all [Event.delivers, Of]

lemma of_quiet (h : e.quiet = true) : Of heard (.told (.event e)) := by
  cases e <;> simp_all [Event.quiet, Of]

end Life.Label

namespace Connection

open Life.Label (Of)

variable {K : Codec} {c c' c₁ : Connection K} {f : Frame} {heard : Option Frame} {P : Life.Label → Prop}
    {xs ls : List Label}
variable {s : Stream} {endStream : Bool} {input : Bytes} {id i : ℕ}

def Breaks (ls : List Label) (c c' : Connection K) : Prop := ∃ xs, xs.Sublist ls ∧ Fails xs c c'

lemma Hears.breaks (h : Hears xs c c') (hu : xs.Sublist ls) : Breaks ls c c' := ⟨xs, hu, h.fails⟩

/-- A frame that says `ls` is taken, and the host is told what is returned; or the connection is about to fail on it. -/
abbrev Tells (ls : List Label) (heard : Option Frame) (m : M K (Option Event)) (c : Connection K) : Prop :=
  Post m c (fun e c' => Goes ls (Of heard) (e.toList.map .event) c c')
    (fun _ c' => Breaks ls c c' ∧ Lives (Of heard) [] c c')

lemma Goes.idle (h : Goes [] P [] c c') : Breaks ls c c' ∧ Lives P [] c c' :=
  ⟨h.hears.breaks (List.nil_sublist ls), h.lives⟩

lemma idle (c : Connection K) : Breaks ls c c ∧ Lives P [] c c := (Goes.refl c).idle

lemma noted (e : Event) (he : e.quiet = true) (c : Connection K) : Goes [] (Of heard) [.event e] c c :=
  ⟨(Calm.refl c).hears, .step (.noted e he) rfl (by simpa using Life.Label.of_quiet he) rfl rfl⟩

lemma discardData_took {flow : ℕ} (he : c.seen id = true) (hi : c.index id = none) (hm : flow < 2 ^ 32) :
    Post (discardData flow) c (fun _ c' => Goes [.got id flow] (Of heard) [] c c')
      (fun _ c' => Goes [] (Of heard) [] c c') := by
  unfold discardData
  refine Post.get (Post.refuse (fun _ => .refl c) fun hl => ?_)
  simp only [gt_iff_lt, decide_eq_false_iff_not, not_lt] at hl
  have hp := Flow.Step.discarded (F := c.flow) id flow he (index_none hi) hl
  split_ifs with hz
  · subst hz
    exact Post.pure ⟨.silent hp rfl rfl rfl ⟨rfl, rfl, rfl⟩, (Goes.refl c).lives⟩
  · rw [if_neg hz] at hp
    refine frame_ok (by simp [be32]) (by simp) ⟨?_, Quiet.lives (.writes rfl rfl rfl)⟩
    exact .step [⟨8, 0, 0, be32 flow⟩] hp rfl rfl ((List.append_nil _).trans (spoken_credit hm)) ⟨rfl, rfl, rfl⟩

lemma delivered_goes (hg : c.streams[i]? = some s) (ho : s.remoteEnd = false) {b : Bool}
    (he : e.delivers = some (s.id, b)) :
    Goes [] (Of heard) [.event e] c (c.update i fun s => { s with remoteEnd := b }) := by
  obtain ⟨hi, rfl⟩ := List.getElem?_eq_some_iff.mp hg
  constructor
  · cases b with
    | false =>
      refine .same (flow_of (congrArg _ (map_modify_same Stream.entry _ fun s hs => ?_))) rfl ⟨rfl, rfl, rfl⟩
      obtain rfl := Option.some.inj (hg.symm.trans hs)
      simp [Stream.entry, Stream.credit, ho]
    | true =>
      obtain ⟨rest, ht, hm⟩ := split Stream.entry c ⟨i, hi⟩
      exact .silent (.ended ht) (flow_of (hm _)) rfl rfl ⟨rfl, rfl, rfl⟩
  · obtain ⟨rest, ht, hm⟩ := split Stream.life c ⟨i, hi⟩
    have hp := Life.Step.delivered (L := c.life)
      (b := ⟨b, c.streams[i].credited, c.streams[i].unreleased⟩) e ht ho he rfl
    exact .step hp (life_of (hm _)) (by simpa using Life.Label.of_delivers he) rfl rfl

lemma receiveData_took (full : c.flow.Full) (tidy : c.life.Tidy) (hm : f.payload.length < 2 ^ 32)
    (hb : f.stream ≤ Life.MAX) :
    Tells [.got f.stream f.payload.length] heard (receiveData f) c := by
  unfold receiveData
  refine .refuse (fun _ => idle c) fun _ => .get ?_
  cases hi : c.index f.stream with
  | none =>
    refine .refuse (fun _ => idle c) fun he => ?_
    rw [Bool.not_eq_false'] at he
    exact .bind ((discardData_took he hi hm).mono (fun _ _ h => .pure h) (fun _ _ h => h.idle))
  | some i =>
    refine .refuse (fun _ => idle c) fun hl => .lift (fun _ _ => idle c) fun payload _ => ?_
    refine .refuse (fun _ => idle c) fun hw => .put (.put ?_)
    simp only [gt_iff_lt, Bool.or_eq_false_iff, decide_eq_false_iff_not, not_lt] at hl hw
    have hf : c.streams[i.val]? = some c.streams[i] := List.getElem?_eq_getElem i.isLt
    set g : Stream → Stream := fun s =>
      { s with
        recvWindow := s.recvWindow - f.payload.length
        unreleased := s.unreleased + f.payload.length
        received := s.received + payload.length } with hg
    set c₁ : Connection K := update i g { c with recvWindow := c.recvWindow - f.payload.length } with hc₁
    have ho : Goes [.got f.stream f.payload.length] (Of heard) [] c c₁ := by
      constructor
      · rw [← index_some hi]
        obtain ⟨_, hs, hk⟩ := split Stream.entry c i
        exact .silent (.got f.payload.length hs hw.1 hw.2)
          (congrArg (fun m => { c.flow with streams := m, recv := c.recvWindow - f.payload.length }) (hk g)) rfl rfl
            ⟨rfl, rfl, rfl⟩
      · have hc : Lives (Of heard) [] c (c.update i g) :=
          touched_lives hf g rfl rfl rfl (fun hd => nomatch hl.1.symm.trans hd)
        exact hc.before (Quiet.lives (.same rfl rfl))
    have hg₁ : c₁.streams[i.val]? = some (g c.streams[i]) := by simp [hc₁, update]
    have hr := And.intro (ho.hears.breaks (List.Sublist.refl _)) ho.lives
    refine .refuse (fun _ => hr) fun _ => .refuse (fun _ => hr) fun _ => .put ?_
    set c₂ : Connection K := c₁.update i fun s => { s with remoteEnd := f.END_STREAM } with hc₂
    have hp : (Event.data f.stream payload f.END_STREAM).delivers = some ((g c.streams[i]).id, f.END_STREAM) := by
      rw [← index_some hi]
      rfl
    have hv : Goes [] (Of heard) [.event (.data f.stream payload f.END_STREAM)] c₁ c₂ :=
      delivered_goes hg₁ hl.1 hp
    have hq : Goes [.got f.stream f.payload.length] (Of heard) [.event (.data f.stream payload f.END_STREAM)] c c₂ :=
      ⟨ho.hears.before hv.hears, ho.lives.trans hv.lives⟩
    -- the padding is part of what the stream now holds
    refine .when (fun _ => .pure hq) fun _ => .bind ?_
    refine (releaseCapacity_goes (hq.hears.full full)).mono (fun _ c₃ h => .pure (hq.before h)) (fun _ c₃ h => ?_)
    have hg₂ : c₂.streams[i.val]? = some { g c.streams[i] with remoteEnd := f.END_STREAM } := by simp [hc₂, hc₁, update]
    have ht : (f.stream, ({ g c.streams[i] with remoteEnd := f.END_STREAM } : Stream).life.2) ∈ c₂.life.streams := by
      rw [← index_some hi]
      exact List.mem_map_of_mem (f := Stream.life) (List.mem_of_getElem? hg₂)
    obtain ⟨-, hn | ⟨a, ha, _⟩ | _⟩ := h
    · exact (hn _ ht).elim
    · have hu := (hq.lives.tidy tidy).keyed.unique ha ht
      have hx : f.payload.length ≤ a.unreleased := by
        rw [hu]
        exact Nat.le_add_left _ _
      omega
    · omega

lemma openRemote_goes (hz : id ≠ 0) (hb : id ≤ Life.MAX) (hi : c.failed = false) (hc : c.disposal = none)
    (ha : c.continuation = none) (hP : Of heard (.accepted id)) :
    Post (openRemote id) c
      (fun _ c' => Goes [] (Of heard) [] c c' ∧ ∀ d, c'.disposal = some d → d ≠ .discard → id = c'.highestRemote)
      (fun _ c' => Goes [] (Of heard) [] c c') := by
  unfold openRemote
  refine .get ?_
  cases hr : c.role with
  | client =>
    refine .refuse (fun _ => .refl c) fun _ => .modify
      ⟨⟨.same rfl rfl ⟨rfl, rfl, rfl⟩, .silent (.disposed _ (.inr rfl)) rfl rfl⟩, ?_⟩
    rintro d ⟨rfl⟩ hn
    exact (hn rfl).elim
  | server =>
    refine .refuse (fun _ => .refl c) fun hg => .put ?_
    simp only [Bool.or_eq_false_iff, beq_eq_false_iff_ne, decide_eq_false_iff_not, not_le] at hg
    have hf : id ∉ c.life.seen := by simp [life, seen, hr, hz, hg.2, Nat.mod_two_ne_zero.mp hg.1]
    set c₁ : Connection K := { c with highestRemote := id } with hc₁
    have hk : id ∈ c₁.life.seen := by simp [life, seen, hc₁, hr, hz, Nat.mod_two_ne_zero.mp hg.1]
    have hu : c.life.seen ⊆ c₁.life.seen := fun j (hj : c.seen j = true) =>
      seen_mono (show c₁.role = c.role from rfl) le_rfl hg.2.le hj
    have hm := Set.insert_subset hk hu
    -- the stream is seen, and turned away
    have ht : ∀ d, (d = .unprocessed → c.draining = true) → Goes [] (Of heard) [] c { c₁ with disposal := some d } := by
      intro d hw
      have ha' : c.life.continuation = none := by simp [life, ha]
      exact ⟨.silent (.saw c₁.flow.seen hu) rfl rfl rfl ⟨rfl, rfl, rfl⟩,
        .silent (.turned d c₁.life.seen hr hb hf hm hg.2 ha' hw) rfl rfl⟩
    split_ifs with hd
    · exact .modify ⟨ht .unprocessed fun _ => hd, fun _ _ _ => rfl⟩
    · have hp : Post (addStream id) c₁ _ _ := addStream_post
      unfold Post at hp ⊢
      unfold admitRemote
      rcases hq : addStream id c₁ with ⟨r, c'⟩
      rw [hq] at hp
      cases r with
      | ok =>
        obtain ⟨-, l, others, rfl, hl, he⟩ := hp
        refine ⟨(recycled_goes (c := c) he).after ⟨?_, ?_⟩, fun _ _ _ => rfl⟩
        · have hs := flow_of (c := { c₁ with lastRemote := id }) (Multiset.coe_eq_coe.mpr (hl.map Stream.entry))
          exact .silent (.opened (F := flow { c with streams := others }) c₁.flow.seen hz hf hm) hs rfl rfl
            ⟨rfl, rfl, rfl⟩
        · have hv := life_of (c := { c₁ with lastRemote := id }) (Multiset.coe_eq_coe.mpr (hl.map Stream.life))
          exact .step (.accepted (L := life { c with streams := others }) c₁.life.seen hr hz hb hf hm hg.2
            (Bool.not_eq_true _ ▸ hd) hi hc) hv (by simpa using hP) rfl rfl
      | error =>
        obtain ⟨rfl, ho, -⟩ := hp
        simp only [ho, if_true]
        exact ⟨ht (.refuse 7) (by rintro ⟨⟩), fun _ _ _ => rfl⟩

lemma appendBlock_calm : Keeps (appendBlock bytes) c (Calm c) := by
  unfold appendBlock
  exact .get (.refuse (fun _ => .refl c) fun _ => .modify (.same rfl rfl rfl rfl))

lemma decodeBlock_calm : Keeps decodeBlock c (Calm c) := by
  unfold Keeps Post decodeBlock
  cases (K.decode c.decoder c.block).1 with
  | ok | error => exact .same rfl rfl rfl rfl

lemma takeHead_calm (hg : c.streams[i]? = some s) :
    Post (takeHead i headers noBody) c (fun _ c' => Calm c c' ∧ ∃ s', c'.streams[i]? = some s' ∧ s'.life = s.life)
      (fun _ c' => Calm c c') := by
  unfold takeHead
  have hf : Calm c (c.update i fun s => { s with recvNoBody := noBody }) :=
    update_calm (fun _ _ => rfl) (fun _ _ => rfl)
  refine .put (.lift (fun _ _ => hf) fun length _ => .modify ⟨hf.trans ?_, ?_⟩)
  · exact update_calm (fun _ _ => rfl) (fun _ _ => rfl)
  · simp [update, hg, Stream.life]

lemma setRemoteEnd_goes (hg : c.streams[i]? = some s) (ho : s.remoteEnd = false) :
    Post (setRemoteEnd i endStream) c (fun _ c' => ∀ e, e.delivers = some (s.id, endStream) →
      Goes [] (Of heard) [.event e] c c')
      (fun _ c' => Goes [] (Of heard) [] c c') := by
  unfold setRemoteEnd
  exact .get (.refuse (fun _ => .refl c) fun _ => .modify fun e he => delivered_goes hg ho he)

lemma finishHeaders_goes : Gives (Of heard) (fun e => [.event e]) (finishHeaders id endStream) c := by
  unfold finishHeaders
  refine .bind (decodeBlock_calm.mono (fun headers c₁ hc => ?_) (fun _ _ h => h.goes))
  have hd : Goes [] (Of heard) [] c c₁ := hc.goes
  refine .get ?_
  cases hi : c₁.index id with
  | none => exact .throw hd
  | some i =>
    refine .refuse (fun _ => hd) fun ho => .lift (fun _ _ => hd) fun _ _ => ?_
    refine .refuse (fun _ => hd) fun _ => .refuse (fun _ => hd) fun _ => ?_
    have hg : c₁.streams[i.val]? = some c₁.streams[i] := List.getElem?_eq_getElem i.isLt
    have hf : ∀ {c₂ : Connection K} {s : Stream} {e : Event}, Calm c₁ c₂ → c₂.streams[i.val]? = some s →
        s.life = c₁.streams[i].life → e.delivers = some (id, endStream) →
        Gives (Of heard) (fun e => [.event e]) (do setRemoteEnd i endStream; pure e) c₂ := by
      intro c₂ s e _ hs ha he
      have hb : s.id = id := (congrArg Prod.fst ha).trans (index_some hi)
      have ho' : s.remoteEnd = false := (congrArg (fun p => p.2.remoteEnd) ha).trans ho
      exact .bind ((setRemoteEnd_goes hs ho').mono (fun _ _ h => .pure (h e (hb ▸ he))) (fun _ _ h => h))
    refine .when (fun _ => ?_) fun _ => .bind ?_
    · exact hd.gives (hf (.refl c₁) hg rfl rfl)
    · refine (takeHead_calm hg).mono (fun _ c₂ h => ?_) (fun _ _ h => hd.before h.goes)
      obtain ⟨ht, _, hs', ha⟩ := h
      exact (hd.before ht.goes).gives (hf ht hs' ha rfl)

lemma finishBlock_goes (hb : id ≤ Life.MAX)
    (ho : ∀ d, c.disposal = some d → d ≠ .discard → id = c.highestRemote) (hP : ∀ code, Of heard (.refused id code)) :
    Gives (Of heard) (fun e => e.toList.map .event) (finishBlock id endStream) c := by
  unfold finishBlock
  refine .get ?_
  cases hd : c.disposal with
  | none => exact .bind (finishHeaders_goes.mono (fun _ _ h => .pure h) (fun _ _ h => h))
  | some disposal =>
    have he : Hears [] c { c with disposal := none } := .same rfl rfl ⟨rfl, rfl, rfl⟩
    have ha : Goes [] (Of heard) [] c { c with disposal := none } := ⟨he, .silent (.disposed none (.inl rfl)) rfl rfl⟩
    refine .put (.bind (decodeBlock_calm.mono (fun _ c₁ h => ?_) (fun _ _ h => ha.before h.goes)))
    cases disposal with
    | refuse code =>
      have hi := ho _ hd (by rintro ⟨⟩)
      have hr : Lives (Of heard) [.event (.reset id code)] c { c with disposal := none } := by
        rw [hi]
        exact .step (.refused code hd) rfl (by simpa [life, ← hi] using hP code) rfl rfl
      refine .bind (frame_ok (by simp [be32]) hb (.pure ?_))
      exact (Goes.before ⟨he, hr⟩ h.goes).before (Calm.writes rfl rfl).goes
    | unprocessed =>
      have hi := ho _ hd (by rintro ⟨⟩)
      have hg : Lives (Of heard) [.event (.unprocessed id)] c { c with disposal := none } := by
        rw [hi]
        exact .step (.unprocessed hd) rfl (by simp [Life.Label.Of]) rfl rfl
      exact .pure (.before ⟨he, hg⟩ h.goes)
    | discard => exact .pure (ha.before h.goes)

lemma startBlock_goes (hb : f.stream ≤ Life.MAX)
    (ho : ∀ d, c.disposal = some d → d ≠ .discard → f.stream = c.highestRemote)
    (hP : ∀ code, Of heard (.refused f.stream code)) :
    Gives (Of heard) (fun e => e.toList.map .event) (startBlock f) c := by
  unfold startBlock
  refine .lift (fun _ _ => .refl c) fun _ _ => .lift (fun _ _ => .refl c) fun payload _ => .put ?_
  have hl : Calm c { c with block := [] } := .same rfl rfl rfl rfl
  refine .bind (appendBlock_calm.mono (fun _ c₂ h => ?_) (fun _ _ h => (hl.trans h).goes))
  have ha := hl.trans h
  have hd₂ : ∀ d, c₂.disposal = some d → d ≠ .discard → f.stream = c₂.highestRemote := by
    have hd : c₂.disposal = c.disposal := congrArg Life.disposal ha.quiet.1
    have hh : c₂.highestRemote = c.highestRemote := congrArg Life.highestRemote ha.quiet.1
    rw [hd, hh]
    exact ho
  split_ifs with he
  · exact ha.goes.gives (finishBlock_goes hb hd₂ hP)
  · refine .put (.pure (ha.goes.after ⟨.same rfl rfl ⟨rfl, rfl, rfl⟩, .silent (.continued (some f.stream) ?_) rfl rfl⟩))
    rintro _ d ⟨rfl⟩ hd hn
    exact hd₂ d hd hn

lemma receiveHeaders_goes (hk : f.kind = 1) (hb : f.stream ≤ Life.MAX) (hl : c.failed = false)
    (ha : c.continuation = none) :
    Gives (Of (some f)) (fun e => e.toList.map .event) (receiveHeaders f) c := by
  unfold receiveHeaders
  refine .refuse (fun _ => .refl c) fun hz => .put (.get ?_)
  simp only [beq_eq_false_iff_ne] at hz
  have hr : ∀ code, Of (some f) (.refused f.stream code) := fun code => ⟨f, rfl, .inl hk⟩
  have hf : Goes [] (Of (some f)) [] c { c with disposal := none } :=
    ⟨.same rfl rfl ⟨rfl, rfl, rfl⟩, .silent (.disposed none (.inl rfl)) rfl rfl⟩
  refine .when (fun _ => ?_) fun _ => .bind ?_
  · exact hf.gives (startBlock_goes hb (fun d hd _ => nomatch hd) hr)
  · refine (openRemote_goes (c := { c with disposal := none }) hz hb hl rfl ha ⟨f, rfl, hk, rfl⟩).mono
      (fun _ c₁ h => ?_)
      (fun _ _ h => hf.after h)
    exact (hf.after h.1).gives (startBlock_goes hb h.2 hr)

lemma receiveContinuation_goes (tidy : c.life.Tidy) (hk : f.kind = 9) (hb : id ≤ Life.MAX)
    (hc : c.continuation = some (id, endStream, count)) :
    Gives (Of (some f)) (fun e => e.toList.map .event) (receiveContinuation f id endStream count) c := by
  unfold receiveContinuation
  refine Post.get (Post.refuse (fun _ => .refl c) fun _ => ?_)
  refine Post.bind (appendBlock_calm.mono (fun _ c₁ h => ?_) (fun _ _ h => h.goes))
  have ho : ∀ d, c₁.disposal = some d → d ≠ .discard → id = c₁.highestRemote := by
    intro d hd hn
    have hi : c₁.life.Tidy := h.quiet.1 ▸ tidy
    refine hi.doom id d ?_ hd hn
    rw [h.quiet.1]
    simp [life, hc]
  have hf : ∀ k, (∀ id' d, k.map (fun p : ℕ × Bool × ℕ => p.1) = some id' → c₁.disposal = some d → d ≠ .discard →
    id' = c₁.highestRemote) →
      Goes [] (Of (some f)) [] c { c₁ with continuation := k } := fun k hk =>
    h.goes.after ⟨.same rfl rfl ⟨rfl, rfl, rfl⟩, .silent (.continued _ hk) rfl rfl⟩
  split_ifs with he
  · exact Post.put ((hf none (by simp)).gives (finishBlock_goes hb ho fun code => ⟨f, rfl, .inr hk⟩))
  · refine Post.put (Post.pure (hf _ ?_))
    rintro i d ⟨rfl⟩ hd hn
    exact ho d hd hn

lemma receivePriority_goes : Gives (Of heard) (fun e => e.toList.map .event) (receivePriority f) c := by
  unfold receivePriority
  refine .refuse (fun _ => .refl c) fun _ => .refuse (fun _ => .refl c) fun _ => ?_
  exact .refuse (fun _ => .refl c) fun _ => .pure (.refl c)

lemma receiveReset_goes (full : c.flow.Full) (hk : f.kind = 3) :
    Gives (Of (some f)) (fun e => e.toList.map .event) (receiveReset f) c := by
  unfold receiveReset
  refine .refuse (fun _ => .refl c) fun _ => .refuse (fun _ => .refl c) fun _ => .get ?_
  cases hi : c.index f.stream with
  | none => exact .refuse (fun _ => .refl c) fun _ => .pure (.refl c)
  | some i =>
    refine .bind ((returnCredit_goes (P := Of (some f)) i full).mono (fun _ c₁ h => ?_) (fun _ _ h => h.elim))
    obtain ⟨hc, s, hg, hd, hn⟩ := h
    rw [index_some hi] at hd
    obtain ⟨hi', rfl⟩ := List.getElem?_eq_some_iff.mp hg
    refine .put (.pure (hc.after ⟨?_, ?_⟩))
    · obtain ⟨rest, hs, hm⟩ := split Stream.entry c₁ ⟨i, hi'⟩
      exact .silent (.ended hs) (flow_of (hm _)) rfl rfl ⟨rfl, rfl, rfl⟩
    · obtain ⟨rest, hs, hm⟩ := split Stream.life c₁ ⟨i, hi'⟩
      have he : c₁.life.streams = (f.stream, c₁.streams[i.val].life.2) ::ₘ rest :=
        hs.trans (congrArg (· ::ₘ rest) (Prod.ext hd rfl))
      refine .step (.peerReset (u32be f.payload) he) ?_ (by simpa [Life.Label.Of] using hk) rfl rfl
      refine life_of ((hm _).trans (congrArg (· ::ₘ rest) ?_))
      exact Prod.ext hd (congrArg (fun n => (⟨true, true, n⟩ : Status)) hn)

lemma receiveAck_took : Post (receiveAck f) c (fun e c' => Goes [.acked] (Of heard) (e.toList.map .event) c c')
    (fun _ c' => Goes [] (Of heard) [] c c') := by
  unfold receiveAck
  refine .refuse (fun _ => .refl c) fun _ => .get ?_
  cases hp : c.settingsPending with
  | nil => exact .throw (.refl c)
  | cons acked rest =>
    have hf : c.flow.pending = acked.entries :: rest.map Settings.entries := by simp [flow, hp]
    refine .put (.put (.put (.pure ⟨?_, ?_⟩)))
    · refine .step [] (.acked hf) ?_ (List.append_nil _).symm rfl ⟨rfl, rfl, rfl⟩
      exact enforceSettings_flow
    · have he : ∀ c₁ : Connection K, Quiet c c₁ →
        Quiet c { enforceSettings c₁ with settingsDeadline := none } := fun c₁ h =>
        .trans (.trans h (enforceSettings_quiet c₁)) (.same rfl rfl)
      refine .trans (he _ ?_).lives (noted (.settingsAck acked) rfl _).lives
      exact .same rfl rfl

lemma shiftWindows_spec (delta : ℤ) (l : List Stream) :
    (shiftWindows delta l).2.map (fun s => Flow.unsent s.entry) = l.map (fun s => Flow.unsent s.entry) ∧
    (shiftWindows delta l).2.map Stream.life = l.map Stream.life ∧
    (∀ s ∈ (shiftWindows delta l).2, s.sendWindow ≤ Flow.MAX ∨ s ∈ l) ∧
    ((shiftWindows delta l).1 = true →
      (shiftWindows delta l).2.map Stream.entry = l.map (fun s => Flow.shiftSend delta s.entry) ∧
      ∀ s ∈ l, s.sendWindow + delta ≤ Flow.MAX) := by
  induction l with
  | nil => simp [shiftWindows]
  | cons s rest ih =>
    obtain ⟨he, hl, hm, hh⟩ := ih
    unfold shiftWindows
    split_ifs with ho
    · exact ⟨rfl, rfl, fun t ht => .inr ht, fun h => h.elim⟩
    · refine ⟨?_, ?_, fun t ht => ?_, fun ha => ⟨?_, fun t ht => ?_⟩⟩
      · rw [List.map_cons, List.map_cons, he]
        rfl
      · rw [List.map_cons, List.map_cons, hl]
        rfl
      · rcases List.mem_cons.mp ht with rfl | ht
        · exact .inl (not_lt.mp ho)
        · exact (hm t ht).imp_right (List.mem_cons_of_mem _)
      · rw [List.map_cons, List.map_cons, (hh ha).1]
        rfl
      · rcases List.mem_cons.mp ht with rfl | ht
        · exact not_lt.mp ho
        · exact (hh ha).2 t ht

lemma shiftWindows_fails : Fails [] c { c with streams := (shiftWindows delta c.streams).2 } := by
  obtain ⟨he, -, hm, -⟩ := shiftWindows_spec delta c.streams
  refine Hears.step [] (.broke ?_ fun p hp => ?_) rfl (List.append_nil _).symm rfl ⟨rfl, rfl, rfl⟩
  · simp only [flow, Multiset.map_coe, List.map_map]
    exact congrArg _ he
  · obtain ⟨s, hs, rfl⟩ := List.mem_map.mp (show p ∈ (shiftWindows delta c.streams).2.map Stream.entry from hp)
    exact (hm s hs).imp_right (fun h => List.mem_map_of_mem h)

lemma shiftWindows_took {v : ℕ} (hv : v ≤ Flow.MAX) (ha : (shiftWindows (v - c.initialSend) c.streams).1 = true) :
    Hears [.initial v] c { c with streams := (shiftWindows (v - c.initialSend) c.streams).2, initialSend := v } := by
  obtain ⟨-, -, -, hh⟩ := shiftWindows_spec (v - c.initialSend) c.streams
  obtain ⟨hm, hl⟩ := hh ha
  refine .step [] (.initial v hv fun p hp => ?_) ?_ (List.append_nil _).symm rfl ⟨rfl, rfl, rfl⟩
  · obtain ⟨s, hs, rfl⟩ := List.mem_map.mp (show p ∈ c.streams.map Stream.entry from hp)
    exact hl s hs
  · have ht : (((shiftWindows (v - c.initialSend) c.streams).2.map Stream.entry : List (ℕ × Credit)) :
        Multiset (ℕ × Credit)) = c.flow.streams.map (Flow.shiftSend (v - c.initialSend)) := by
      rw [hm, flow, Multiset.map_coe, List.map_map]
      rfl
    exact congrArg (fun m => { c.flow with streams := m, initialSend := v }) ht

lemma applySetting_took {e : UInt16 × UInt32} :
    Post (applySetting e) c (fun _ c' => Goes (tellsSetting e) (Of heard) [] c c')
      (fun _ c' => Fails [] c c' ∧ Lives (Of heard) [] c c') := by
  have hs : Fails [] c c ∧ Lives (Of heard) [] c c := ⟨(Calm.refl c).hears.fails, (Goes.refl c).lives⟩
  have hq : ∀ {c'}, e.1 ≠ Settings.INITIAL_WINDOW_SIZE → e.1 ≠ Settings.MAX_FRAME_SIZE → Calm c c' →
    Goes (tellsSetting e) (Of heard) [] c c' := by
    intro c' h₄ h₅ h
    rw [tellsSetting, if_neg h₄, if_neg h₅]
    exact h.goes
  unfold applySetting
  refine Post.get ?_
  split_ifs with h₁ h₂ h₃ h₄ h₅
  · exact Post.modify (hq (h₁ ▸ by decide) (h₁ ▸ by decide) (.same rfl rfl rfl rfl))
  · exact Post.refuse_last (fun _ => hs) (fun _ => hq (h₂ ▸ by decide) (h₂ ▸ by decide) (.refl c))
  · exact Post.modify (hq (h₃ ▸ by decide) (h₃ ▸ by decide) (.same rfl rfl rfl rfl))
  · rw [tellsSetting, if_pos h₄]
    have hl : ∀ delta, { c with streams := (shiftWindows delta c.streams).2 }.life = c.life := fun delta =>
      life_of (congrArg _ (shiftWindows_spec delta c.streams).2.1)
    refine Post.refuse (fun _ => hs) fun hv => Post.put ?_
    refine Post.refuse (fun _ => ⟨shiftWindows_fails, Quiet.lives (.same (hl _) rfl)⟩) fun ha => Post.modify ⟨?_, ?_⟩
    · simp only [gt_iff_lt, decide_eq_false_iff_not, not_lt] at hv
      rw [Bool.not_eq_false'] at ha
      have hm : (e.2.toNat : ℤ) ≤ Flow.MAX := by
        unfold Flow.MAX
        exact_mod_cast hv
      exact shiftWindows_took hm ha
    · exact Quiet.lives (.same (hl _) rfl)
  · rw [tellsSetting, if_neg h₄, if_pos h₅]
    refine Post.refuse (fun _ => hs) fun hv => Post.modify ⟨?_, .silent (.resized e.2.toNat ?_) rfl rfl⟩
    · exact Hears.step [] (.frameSize e.2.toNat) rfl (List.append_nil _).symm rfl ⟨rfl, rfl, rfl⟩
    · simp only [Bool.not_eq_false', Bool.and_eq_true, decide_eq_true_eq] at hv
      exact ⟨Nat.lt_of_lt_of_le (by norm_num) hv.1, hv.2⟩
  · exact Post.pure (hq h₄ h₅ (.refl c))

lemma applySettings_took {entries : List (UInt16 × UInt32)} :
    Post (entries.forM applySetting) c (fun _ c' => Goes (entries.flatMap tellsSetting) (Of heard) [] c c')
      (fun _ c' => Breaks (entries.flatMap tellsSetting) c c' ∧ Lives (Of heard) [] c c') := by
  induction entries generalizing c with
  | nil => exact .pure (.refl c)
  | cons e rest ih =>
    refine .bind (applySetting_took.mono (fun _ c₁ h => ?_) (fun _ c' h => ⟨⟨[], List.nil_sublist _, h.1⟩, h.2⟩))
    refine ih.mono (fun _ c' h' => ⟨h.hears.trans h'.hears, h.lives.trans h'.lives⟩)
      (fun _ c' h' => ⟨?_, h.lives.trans h'.2⟩)
    obtain ⟨xs, hu, hf⟩ := h'.1
    exact ⟨tellsSetting e ++ xs, hu.append_left _, .trans h.hears hf⟩

lemma receiveSettings_took :
    Tells ((SettingsFrame.iter f.payload).flatMap tellsSetting) heard (receiveSettings f) c := by
  unfold receiveSettings
  refine .refuse (fun _ => idle c) fun _ => ?_
  refine .bind (applySettings_took.mono (fun _ c₁ h => .put (.bind ?_)) (fun _ _ h => h))
  refine frame_ok (by simp) (by simp) (.pure ⟨h.hears.before (.writes rfl rfl rfl rfl rfl), ?_⟩)
  refine Lives.after ?_ (noted (.settings _) rfl _).lives
  exact h.lives.before (Quiet.lives (.writes rfl rfl rfl))

lemma receivePing_goes : Gives (Of heard) (fun e => e.toList.map .event) (receivePing f) c := by
  unfold receivePing
  refine .refuse (fun _ => .refl c) fun _ => .refuse (fun _ => .refl c) fun _ => ?_
  exact .when (fun _ => .pure (noted (.ping _ _) rfl c)) fun _ =>
    Post.bind ((frame_calm rfl rfl).mono (fun _ _ h => .pure (h.goes.after (noted (.ping _ _) rfl _)))
      (fun _ _ h => h.goes))

lemma receiveGoaway_goes : Gives (Of heard) (fun e => e.toList.map .event) (receiveGoaway f) c := by
  unfold receiveGoaway
  refine .refuse (fun _ => .refl c) fun _ => .refuse (fun _ => .refl c) fun _ => ?_
  exact .put (.pure ⟨.same rfl rfl ⟨rfl, rfl, rfl⟩, .step (.drained _ _ _) rfl (by simp [Life.Label.Of]) rfl rfl⟩)

lemma receiveWindowUpdate_took (full : c.flow.Full) (hk : f.kind = 8) (hb : f.stream ≤ Life.MAX) :
    Post (receiveWindowUpdate f) c
      (fun e c' => (Hears [.grew f.stream (u32be f.payload % 2 ^ 31)] c c' ∨ f.stream ≠ 0 ∧ Hears [] c c') ∧
        Lives (Of (some f)) (e.toList.map .event) c c')
      (fun _ c' => Goes [] (Of (some f)) [] c c') := by
  unfold receiveWindowUpdate
  refine .refuse (fun _ => .refl c) fun _ => .get ?_
  by_cases hz : f.stream = 0
  · rw [if_pos hz]
    refine .refuse (fun _ => .refl c) fun _ => .refuse (fun _ => .refl c) fun hm => ?_
    simp only [gt_iff_lt, decide_eq_false_iff_not, not_lt] at hm
    refine Post.put (Post.pure ⟨.inl ?_, ?_⟩)
    · rw [hz]
      exact Hears.step [] (.grew _ hm) rfl (List.append_nil _).symm rfl ⟨rfl, rfl, rfl⟩
    · exact Lives.trans (Quiet.lives (.same rfl rfl)) (noted (.windowUpdate 0) rfl _).lives
  · rw [if_neg hz]
    cases hi : c.index f.stream with
    | none => exact Post.refuse (fun _ => .refl c) fun _ => Post.pure ⟨.inr ⟨hz, (Calm.refl c).hears⟩,
        (Goes.refl c).lives⟩
    | some i =>
      have hr : ∀ code, Post (reset f.stream code) c
        (fun _ c' => Goes [] (Of (some f)) [.event (.reset f.stream code)] c c') fun _ _ => False :=
        fun code => reset_goes full hi hb (.inr ⟨code, rfl⟩) ⟨f, rfl, hk⟩
      dsimp only
      split_ifs with hn ho
      · exact .bind ((hr 1).mono (fun _ _ h => .pure ⟨.inr ⟨hz, h.hears⟩, h.lives⟩) (fun _ _ h => h.elim))
      · exact .bind ((hr 3).mono (fun _ _ h => .pure ⟨.inr ⟨hz, h.hears⟩, h.lives⟩) (fun _ _ h => h.elim))
      · obtain ⟨_, hs, hc⟩ := split Stream.entry c i
        refine Post.put (Post.pure ⟨.inl ?_, ?_⟩)
        · rw [← index_some hi]
          exact .silent (.grewOn _ hs (not_lt.mp ho)) (flow_of (hc _)) rfl rfl ⟨rfl, rfl, rfl⟩
        · refine Lives.after ?_ (noted (.windowUpdate f.stream) rfl _).lives
          refine Quiet.lives (.same ?_ rfl)
          exact life_of (congrArg _ (map_modify_same Stream.life _ fun _ _ => rfl))

def Took (f : Frame) (c c' : Connection K) : Prop :=
  Hears f.tells c c' ∨ f.kind = 8 ∧ f.stream ≠ 0 ∧ Hears [] c c'

lemma receiveFrame_took (full : c.flow.Full) (tidy : c.life.Tidy) (hm : f.payload.length < 2 ^ 32)
    (hb : f.stream ≤ Life.MAX)
    (hl : c.failed = false) (ho : c.inOrder f = .ok ()) :
    Post (receiveFrame f c.continuation) c (fun e c' => Took f c c' ∧ Lives (Of (some f)) (e.toList.map .event) c c')
      (fun _ c' => Breaks f.tells c c' ∧ Lives (Of (some f)) [] c c') := by
  have ha : f.kind ≠ 9 → c.continuation = none := by
    intro hk
    unfold inOrder at ho
    split_ifs at ho
    split at ho
    · simp [hk] at ho
    · assumption
  have ht : ∀ {m : M K (Option Event)} {ls : List Label}, f.tells = ls → Tells ls (some f) m c →
      Post m c (fun e c' => Took f c c' ∧ Lives (Of (some f)) (e.toList.map .event) c c')
        (fun _ c' => Breaks f.tells c c' ∧ Lives (Of (some f)) [] c c') := by
    rintro m ls rfl h
    exact h.mono (fun _ _ h => ⟨.inl h.hears, h.lives⟩) (fun _ _ h => h)
  have hq : ∀ {m : M K (Option Event)}, f.tells = [] → Gives (Of (some f)) (fun e => e.toList.map .event) m c →
      Post m c (fun e c' => Took f c c' ∧ Lives (Of (some f)) (e.toList.map .event) c c')
        (fun _ c' => Breaks f.tells c c' ∧ Lives (Of (some f)) [] c c') := fun he h =>
    ht he (h.mono (fun _ _ h => h) (fun _ _ h => h.idle))
  unfold receiveFrame
  split
  case h_1 hk => exact ht (by simp [Frame.tells, hk]) (receiveData_took full tidy hm hb)
  case h_2 hk => exact hq (by simp [Frame.tells, hk]) (receiveHeaders_goes hk hb hl (ha (by omega)))
  case h_3 hk => exact hq (by simp [Frame.tells, hk]) receivePriority_goes
  case h_4 hk => exact hq (by simp [Frame.tells, hk]) (receiveReset_goes full hk)
  case h_5 hk =>
    refine Post.refuse (fun _ => idle c) fun _ => ?_
    split_ifs with hd
    · exact ht (by simp [Frame.tells, hk, hd]) (receiveAck_took.mono (fun _ _ h => h) (fun _ _ h => h.idle))
    · exact ht (by simp [Frame.tells, hk, hd]) receiveSettings_took
  case h_6 hk => exact Post.throw (idle c)
  case h_7 hk => exact hq (by simp [Frame.tells, hk]) receivePing_goes
  case h_8 hk => exact hq (by simp [Frame.tells, hk]) receiveGoaway_goes
  case h_9 hk =>
    have he : f.tells = [.grew f.stream (u32be f.payload % 2 ^ 31)] := by simp [Frame.tells, hk]
    refine (receiveWindowUpdate_took full hk hb).mono (fun _ _ h => ⟨?_, h.2⟩) (fun _ _ h => h.idle)
    exact h.1.imp (fun h => he ▸ h) (fun h => ⟨hk, h⟩)
  case h_10 id endStream count hk hc =>
    have hi : f.stream = id := by
      unfold inOrder at ho
      rw [hc] at ho
      split_ifs at ho
      simpa [hk] using ho
    exact hq (by simp [Frame.tells, hk]) (receiveContinuation_goes tidy hk (hi ▸ hb) hc)
  case h_11 h₀ h₁ h₂ h₃ h₄ h₅ h₆ h₇ h₈ h₉ =>
    have he : f.tells = [] := by simp [Frame.tells, show f.kind ≠ 0 from h₀, show f.kind ≠ 4 from h₄,
      show f.kind ≠ 8 from h₈]
    exact hq he (Post.pure (.refl c))

lemma decodeFrame_bounds {max : ℕ} (h : decodeFrame input max = .ok (some f)) :
    f.payload.length < 2 ^ 32 ∧ f.stream ≤ Life.MAX := by
  unfold decodeFrame at h
  split at h
  · rename_i l₂ l₁ l₀ kind flags s₃ s₂ s₁ s₀ rest
    dsimp only at h
    split_ifs at h
    · cases h
    · have hf := Option.some.inj (Except.ok.inj h)
      have h₂ := l₂.toNat_lt
      have h₁ := l₁.toNat_lt
      have h₀ := l₀.toNat_lt
      rw [← hf, List.length_take, Life.MAX]
      dsimp only
      omega
  · cases h

def Takes (heard : Option Frame) (c c' : Connection K) : Prop :=
  match heard with
  | none => Hears [] c c'
  | some f => Took f c c'

lemma receiveInner_takes (full : c.flow.Full) (tidy : c.life.Tidy) (hl : c.failed = false) : Post (receiveInner input) c
      (fun r c' => Takes ((Call.receive input).hears c) c c' ∧
        Lives (Of ((Call.receive input).hears c)) (r.event.toList.map .event) c c')
      (fun _ c' => Breaks (((Call.receive input).hears c).toList.flatMap Frame.tells) c c' ∧
        Lives (Of ((Call.receive input).hears c)) [] c c') := by
  unfold receiveInner
  refine Post.get ?_
  split_ifs with hp
  · refine Post.lift (fun _ _ => idle c) fun decoded hd => ?_
    have hh : (Call.receive input).hears c = decoded := by simp [Call.hears, hl, hp, hd]
    rw [hh]
    cases decoded with
    | none => exact Post.pure ⟨(Calm.refl c).hears, (Goes.refl c).lives⟩
    | some =>
      obtain ⟨hm, hb⟩ := decodeFrame_bounds hd
      refine .lift (fun _ _ => idle c) fun _ ho => ?_
      refine Post.bind ((receiveFrame_took full tidy hm hb hl ho).mono (fun _ _ h => Post.pure h) (fun _ _ h => ?_))
      simpa using h
  · have hh : (Call.receive input).hears c = none := by simp [Call.hears, hp]
    rw [hh]
    unfold receivePreface
    refine Post.refuse (fun _ => idle c) fun _ => ?_
    split_ifs
    · exact Post.pure ⟨(Calm.refl c).hears, (Goes.refl c).lives⟩
    · exact Post.put (Post.pure ⟨.same rfl rfl ⟨rfl, rfl, rfl⟩, Quiet.lives (.same rfl rfl)⟩)

lemma receive_takes (input : Bytes) (full : c.flow.Full) (tidy : c.life.Tidy) : Post (receive input) c
      (fun r c' => Takes ((Call.receive input).hears c) c c' ∧
        Lives (Of ((Call.receive input).hears c)) (r.event.toList.map .event) c c')
      (fun _ c' => (c'.failed = true ∧ ∃ xs, xs.Sublist (((Call.receive input).hears c).toList.flatMap Frame.tells) ∧
        Hears xs c c') ∧
        Lives (Of ((Call.receive input).hears c)) [] c c') := by
  unfold receive
  refine Post.get (Post.refuse (fun hf => ?_) fun hl => ?_)
  · exact ⟨⟨hf, [], List.nil_sublist _, (Calm.refl c).hears⟩, (Goes.refl c).lives⟩
  · refine .tryCatch ((receiveInner_takes full tidy hl).mono (fun _ _ h => h) (fun e c₁ h => ?_))
    obtain ⟨⟨xs, hu, hb⟩, hv⟩ := h
    unfold fail
    refine .bind (.put (.get (frame_ok (by simp [be32]) (by simp) (.throw ⟨⟨rfl, xs, hu, ?_⟩, ?_⟩))))
    · exact .before hb (.writes rfl rfl rfl rfl rfl)
    · exact hv.trans (.names (be32 e.code.number) .failing rfl trivial rfl rfl (last_lt (hv.tidy tidy)) rfl)

end Connection

end Turnloop.Http2
