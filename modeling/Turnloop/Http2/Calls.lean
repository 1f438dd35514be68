import Turnloop.Http2.Refines

/-! The calls of the host, in both pictures of a connection. -/

namespace Turnloop.Http2

open Lib Lib.Program

namespace Connection

variable {K : Codec} {c c' : Connection K} {P : Life.Label → Prop} {endStream : Bool} {id code : ℕ}

lemma returnCredit_goes (i : Fin c.streams.length) (full : c.flow.Full) : Post (returnCredit i) c
      (fun _ c' => Goes [] P [] c c' ∧ ∃ s, c'.streams[i.val]? = some s ∧ s.id = (c.streams.get i).id ∧
        s.unreleased = 0)
      (fun _ _ => False) := by
  have hg : c.streams[i.val]? = some c.streams[i] := List.getElem?_eq_getElem i.isLt
  unfold returnCredit
  refine .get ?_
  simp only [hg, Option.elim_some]
  split_ifs with hn
  · exact .pure ⟨.refl c, _, hg, rfl, hn⟩
  · refine .put (.put (frame_ok (by simp [be32]) (by simp) ?_))
    refine ⟨⟨?_, ?_⟩, { c.streams[i] with unreleased := 0 }, by simp [update], rfl, rfl⟩
    · obtain ⟨_, hs, hm⟩ := split Stream.entry c i
      refine .step [⟨8, 0, 0, be32 c.streams[i].unreleased⟩] (.returned hs)
        (congrArg (fun m => { c.flow with streams := m, recv := c.recvWindow + c.streams[i].unreleased })
          (hm _)) rfl ?_ ⟨rfl, rfl, rfl⟩
      exact (List.append_nil _).trans (spoken_credit (full_lt full))
    · have hc : Lives P [] c (c.update i fun s => { s with unreleased := 0 }) :=
        touched_lives hg _ rfl rfl rfl (fun _ => Nat.zero_le _)
      exact hc.before (Quiet.lives (.writes rfl rfl rfl))

lemma releaseCapacity_goes (full : c.flow.Full) : Post (releaseCapacity id n) c (fun _ c' => Goes [] P [] c c')
      (fun _ c' => Goes [] P [] c c' ∧
        ((∀ a, (id, a) ∉ c.life.streams) ∨ (∃ a, (id, a) ∈ c.life.streams ∧ a.unreleased < n) ∨ Life.MAX < id)) := by
  unfold releaseCapacity
  refine .get ?_
  cases hi : c.index id with
  | none => exact .refuse_last (fun _ => ⟨.refl c, .inl (index_life hi)⟩) (fun _ => .refl c)
  | some i =>
    dsimp only
    split_ifs with hn
    · exact .pure (.refl c)
    · refine .refuse (fun hm => ⟨.refl c, .inr (.inl ?_)⟩) fun hl => ?_
      · simp only [gt_iff_lt, decide_eq_true_eq] at hm
        refine ⟨c.streams[i].life.2, ?_, hm⟩
        rw [← index_some hi]
        exact List.mem_map_of_mem (f := Stream.life) (List.getElem_mem i.isLt)
      · simp only [gt_iff_lt, decide_eq_false_iff_not, not_lt] at hl
        have ht : n < 2 ^ 32 := hl.trans_lt (full_lt full)
        have hg : c.streams[i.val]? = some c.streams[i] := List.getElem?_eq_getElem i.isLt
        obtain ⟨_, hs, ho⟩ := split Stream.entry c i
        set g : Stream → Stream := fun s => { s with unreleased := s.unreleased - n, recvWindow := s.recvWindow + n }
        have hc : Lives P [] c (c.update i g) := touched_lives hg g rfl rfl rfl (fun _ => Nat.sub_le _ _)
        have hf := congrArg (fun m => { c.flow with streams := m, recv := c.recvWindow + n }) (ho g)
        have ha : ∀ (c' : Connection K) (fs : List Frame) (silent : Bool), c'.flow =
          { (c.update i g).flow with recv := c.recvWindow + n } →
            c'.life = (c.update i g).life → c'.output = c.output ++ fs →
            fs.flatMap Frame.spoken = .credited 0 n :: (if silent then [] else [.credited id n]) →
            fs.filterMap Frame.last = [] → Steady fs c c' → Goes [] P [] c c' := by
          intro c' fs silent hc' hb hu hp hd hy
          refine ⟨?_, hc.before (Quiet.lives ⟨hb, fs, hu, hd⟩)⟩
          rw [← index_some hi] at hp
          have he := Flow.Step.released (F := c.flow) n hs hl silent
          cases silent with
          | true => exact .step fs he (hc'.trans hf) hu hp hy
          | false => exact .step fs he (hc'.trans hf) hu hp hy
        -- the stream is told of its credit, unless the peer has ended it
        have hk : [(⟨8, 0, 0, be32 n⟩ : Frame)].flatMap Frame.spoken = [.credited 0 n] :=
          (List.append_nil _).trans (spoken_credit ht)
        refine .put (.put (.bind (frame_ok (by simp [be32]) (by simp) ?_)))
        refine .when_last (fun _ => ha _ _ true rfl rfl rfl hk rfl ⟨rfl, rfl, rfl⟩) fun _ => frame_post
          (fun _ _ => ?_) fun hq => ⟨?_, ?_⟩
        · refine ha _ [⟨8, 0, 0, be32 n⟩, ⟨8, 0, id, be32 n⟩] false rfl rfl (List.append_assoc _ _ _) ?_ rfl
            ⟨rfl, rfl, rfl⟩
          simp only [List.flatMap_cons, spoken_credit ht]
          rfl
        · exact ha _ _ true rfl rfl rfl hk rfl ⟨rfl, rfl, rfl⟩
        · exact .inr (.inr (hq.resolve_left (by simp [be32])))

lemma removed_goes (hg : c.streams[i]? = some s) (hf : s.unreleased = 0) {l : Life.Label}
    (hl : l = .told (.reset s.id) ∨ ∃ code, l = .rejected s.id code) (hP : P l) :
    Goes [] P ([l].filterMap Life.Label.note) c { c with streams := swapRemove c.streams i } := by
  obtain ⟨hi, rfl⟩ := List.getElem?_eq_some_iff.mp hg
  obtain ⟨_, hb, -⟩ := split Stream.entry c ⟨i, hi⟩
  obtain ⟨_, hc, -⟩ := split Stream.life c ⟨i, hi⟩
  refine ⟨.silent (.removed hb hf) (flow_of (swapRemove_map _ hi hb)) rfl rfl ⟨rfl, rfl, rfl⟩, ?_⟩
  refine .step (.removed l hc hl) (life_of (swapRemove_map _ hi hc)) (by simpa using hP) ?_ rfl
  rcases hl with rfl | ⟨code, rfl⟩ <;> rfl

lemma reset_goes (full : c.flow.Full) (hi : c.index id = some i) (hb : id ≤ Life.MAX)
    (hl : l = .told (.reset id) ∨ ∃ code, l = .rejected id code) (hP : P l) :
    Post (reset id code) c (fun _ c' => Goes [] P ([l].filterMap Life.Label.note) c c') (fun _ _ => False) := by
  unfold reset
  refine .get ?_
  rw [hi]
  refine .bind ((returnCredit_goes (P := P) i full).mono (fun _ c₁ h => ?_) (fun _ _ h => h.elim))
  obtain ⟨hc, s, hg, hd, hf⟩ := h
  rw [index_some hi] at hd
  have hr := removed_goes hg hf (hd ▸ hl) hP
  exact Post.put (frame_ok (by simp [be32]) hb ((hc.after hr).before (Calm.writes rfl rfl).goes))

lemma resetGone_goes (hi : c.index id = none) (hP : P (.told (.reset id))) :
    Gives P (fun _ => [.reset id]) (reset id code) c := by
  unfold reset
  refine .get ?_
  rw [hi]
  refine .refuse (fun _ => .refl c) fun he => ?_
  rw [Bool.not_eq_false'] at he
  refine frame_post (fun _ _ => ?_) fun _ => .refl c
  have hg : Lives P [.reset id] c c := .step (.resetGone he (index_life hi)) rfl (by simpa using hP) rfl rfl
  exact ⟨(Calm.writes rfl rfl).hears, hg.before (Calm.writes rfl rfl).quiet.lives⟩

lemma enforceSettings_flow {c : Connection K} : (enforceSettings c).flow = c.flow.enforce := by
  have hl : c.settingsPending.foldl (fun acc settings => settings.entries.foldl loosen acc)
    (c.ackedLimits, c.ackedRecvInitial) =
      Flow.loosened c.flow.acked c.flow.pending := by
    simp only [Flow.loosened, flow, List.foldl_map]
  have hs : ∀ delta : ℤ, (((if delta ≠ 0 then c.streams.map
    (fun s => { s with recvWindow := s.recvWindow + delta }) else c.streams).map Stream.entry :
        List (ℕ × Credit)) : Multiset (ℕ × Credit)) = c.flow.streams.map (Flow.shiftRecv delta) := by
    intro delta
    rw [flow, Multiset.map_coe, List.map_map]
    split_ifs with hd
    · rw [List.map_map]
      rfl
    · obtain rfl : delta = 0 := not_not.mp hd
      have hz : Flow.shiftRecv 0 ∘ Stream.entry = Stream.entry := by
        funext s
        simp [Flow.shiftRecv, Stream.entry, Stream.credit]
      rw [hz]
  unfold enforceSettings
  rw [hl]
  exact congrArg (fun m => { c.flow.enforce with streams := m }) (hs _)

lemma enforceSettings_quiet (c : Connection K) : Quiet c (enforceSettings c) := by
  refine .same ?_ rfl
  have hs : ∀ delta : ℤ, (if delta ≠ 0 then c.streams.map
    (fun s => { s with recvWindow := s.recvWindow + delta }) else c.streams).map Stream.life =
        c.streams.map Stream.life := by
    intro delta
    split_ifs
    · rw [List.map_map]
      rfl
    · rfl
  exact life_of (congrArg _ (hs _))

lemma spoken_settings {settings : Settings} :
    Frame.spoken ⟨4, 0, 0, settings.encode⟩ = [.offered settings.entries] := by
  simp [Frame.spoken, SettingsFrame.iter_encode]

lemma sendSettings_calm {settings : Settings} (valid : settings.entries.all Settings.valid = true) :
    Keeps (sendSettings settings) c (Calm c) := by
  unfold sendSettings
  refine .get (.refuse (fun _ => .refl c) fun _ => ?_)
  refine .bind (frame_post (fun _ _ => .put (.modify ⟨?_, ?_⟩)) fun _ => .refl c)
  · refine .step [⟨4, 0, 0, settings.encode⟩] (.offered settings.entries valid) ?_ rfl ?_ ⟨rfl, rfl, rfl⟩
    · rw [enforceSettings_flow]
      simp only [flow, List.map_append, List.map_singleton]
      rfl
    · exact (List.append_nil _).trans spoken_settings
  · refine .trans ?_ (enforceSettings_quiet _)
    exact .writes rfl rfl rfl

lemma valid_of_validate {settings : Settings} (h : settings.validate = .ok ()) :
    settings.entries.all Settings.valid = true := by
  unfold Settings.validate at h
  split_ifs at h with ha
  exact ha

lemma settings_calm : Keeps (settings s) c (Calm c) := by
  unfold settings
  refine .get (.refuse (fun _ => .refl c) fun _ => ?_)
  exact .lift (fun _ _ => .refl c) fun _ hv => sendSettings_calm (valid_of_validate hv)

lemma withSettings_ok {role : Role} {limits : Limits} {settings : Settings}
    (h : withSettings role limits settings = .ok c) :
    (16384 ≤ limits.frameSize ∧ limits.frameSize ≤ 0xffffff) ∧ Calm (start role limits) c := by
  unfold withSettings at h
  split_ifs at h with hl
  simp only [Bool.or_eq_true, Bool.not_eq_true', Bool.and_eq_false_iff, decide_eq_false_iff_not, decide_eq_true_eq,
    not_or, not_not] at hl
  refine ⟨hl.1.1, ?_⟩
  split at h
  · cases h
  · rename_i hv
    have he : Calm (start role limits : Connection K) (sendSettings (announced role settings) (start role limits)).2 :=
      Post.snd (sendSettings_calm (valid_of_validate hv))
    split at h
    · cases h
    · rename_i hr
      cases h
      rwa [hr] at he

def Sends (c c' : Connection K) : Prop :=
  ∃ f : Frame, f.kind = 0 ∧ c'.output = c.output ++ [f] ∧ Flow.Step c.flow [.sent f.stream f.payload.length] c'.flow ∧
    c'.role = c.role ∧ c'.nextId = c.nextId

lemma sendData_sends : Keeps (sendData id bytes endStream) c (fun c' => (Hears [] c c' ∨ Sends c c') ∧ Quiet c c') := by
  have ho : (Hears [] c c ∨ Sends c c) ∧ Quiet c c := ⟨.inl (Calm.refl c).hears, (Calm.refl c).quiet⟩
  unfold sendData
  refine Post.get ?_
  cases hi : c.index id with
  | none => exact Post.throw ho
  | some i =>
    refine Post.refuse (fun _ => ho) fun hl => ?_
    dsimp only
    split_ifs with hn
    · exact Post.pure ho
    · refine Post.refuse (fun _ => ho) fun _ => Post.refuse (fun _ => ho) fun _ => ?_
      refine Post.bind (frame_post (fun _ _ => ?_) fun _ => ho)
      refine Post.put (Post.put (Post.pure ⟨.inr ?_, ?_⟩))
      · set n := min (min (min bytes.length c.peerFrame) c.sendWindow.toNat) c.streams[i].sendWindow.toNat with hm
        have hb : (bytes.take n).length = n := by
          rw [List.length_take]
          omega
        obtain ⟨_, hs, hd⟩ := split Stream.entry c i
        simp only [Bool.or_eq_false_iff] at hl
        have hf : n ≤ c.flow.peerFrame := by
          change n ≤ c.peerFrame
          omega
        have hc : n ≤ c.flow.send.toNat := by
          change n ≤ c.sendWindow.toNat
          omega
        have hg : n ≤ c.streams[i].credit.send.toNat := by
          change n ≤ c.streams[i].sendWindow.toNat
          omega
        refine ⟨⟨0, _, id, bytes.take n⟩, rfl, rfl, ?_, rfl, rfl⟩
        have hp := Flow.Step.data n hl.1.1 hs hf hc hg
        dsimp only
        rw [hb, ← index_some hi]
        exact hp.to (congrArg (fun m => { c.flow with streams := m, send := c.sendWindow - n }) (hd _))
      · exact .writes (life_of (congrArg _ (map_modify_same Stream.life _ fun _ _ => rfl))) rfl rfl

lemma sendBlock_calm {peerFrame : ℕ} : Keeps (sendBlock id scratch endStream peerFrame) c (Calm c) := by
  unfold sendBlock
  refine .forM (fun n _ c₁ h => h.keeps (frame_calm ?_ ?_)) (.refl c)
  · by_cases hn : n = 0 <;> simp [Frame.spoken, hn]
  · by_cases hn : n = 0 <;> simp [Frame.last, hn]

lemma sendHeaders_calm : Keeps (sendHeaders id headers endStream) c (Calm c) := by
  unfold sendHeaders
  refine .get (.refuse (fun _ => .refl c) fun _ => ?_)
  cases hi : c.index id with
  | none => exact .throw (.refl c)
  | some =>
    refine .refuse (fun _ => .refl c) fun _ => .lift (fun _ _ => .refl c) fun _ _ => ?_
    refine .refuse (fun _ => .refl c) fun _ => .refuse (fun _ => .refl c) fun _ => ?_
    refine .lift (fun _ _ => .refl c) fun length _ => .refuse (fun _ => .refl c) fun _ => ?_
    have hc : Calm c { c with encoder := (K.encode c.encoder headers).2 } := .same rfl rfl rfl rfl
    refine .put (.bind (sendBlock_calm.mono (fun _ c₁ h => ?_) (fun _ _ h => hc.trans h)))
    exact .modify ((hc.trans h).trans (update_calm (fun _ _ => rfl) (fun _ _ => rfl)))

/-- The connection's own limit leaves room for one more record. -/
def Room (c : Connection K) : Prop :=
  c.active < c.limits.streams ∧
    ((∃ s ∈ c.streams, s.closed = true ∧ s.unreleased = 0) ∨ c.streams.length < c.limits.streams)

lemma addStream_post : Post (addStream id) c
      (fun _ c' => c.Room ∧ ∃ l others, c' = { c with streams := l } ∧
        l.Perm (Stream.new id c.initialSend c.recvInitial :: others) ∧
        (c.streams.Perm others ∨ ∃ s, s.closed = true ∧ s.unreleased = 0 ∧ c.streams.Perm (s :: others)))
      (fun e c' => c' = c ∧ e.code = .REFUSED_STREAM ∧ ¬ c.Room) := by
  unfold addStream
  refine .get (.refuse (fun hf => ⟨rfl, rfl, fun h => absurd h.1 (not_lt.mpr (of_decide_eq_true hf))⟩) fun ha => ?_)
  have hr := not_le.mp (of_decide_eq_false ha)
  cases hi : c.streams.findIdx? (fun s => s.closed && s.unreleased == 0) with
  | none =>
    refine .refuse (fun hf => ⟨rfl, rfl, fun h => ?_⟩) fun hf => .put (.pure ?_)
    · rcases h.2 with ⟨s, hs, hc, hr⟩ | hl
      · have hn := List.findIdx?_eq_none_iff.mp hi s hs
        simp [hc, hr] at hn
      · exact absurd hl (not_lt.mpr (of_decide_eq_true hf))
    · exact ⟨⟨hr, .inr (not_le.mp (of_decide_eq_false hf))⟩, _, c.streams, rfl, List.perm_append_singleton _ _,
        .inl (.refl _)⟩
  | some i =>
    obtain ⟨ht, hs, -⟩ := List.findIdx?_eq_some_iff_getElem.mp hi
    rw [Bool.and_eq_true, beq_iff_eq] at hs
    refine .put (.pure ⟨⟨hr, .inl ⟨_, List.getElem_mem ht, hs⟩⟩, _, c.streams.eraseIdx i, rfl,
      List.set_perm_cons_eraseIdx ht _,
      .inr ⟨_, hs.1, hs.2, ?_⟩⟩)
    exact (List.getElem_cons_eraseIdx_perm ht).symm

lemma recycled_goes (h : c.streams.Perm others ∨ ∃ s, s.closed = true ∧ s.unreleased = 0 ∧
    c.streams.Perm (s :: others)) :
    Goes [] P [] c { c with streams := others } := by
  rcases h with h | ⟨s, hc, hf, h⟩
  · exact (Calm.same (flow_of (Multiset.coe_eq_coe.mpr (h.symm.map _)))
      (life_of (Multiset.coe_eq_coe.mpr (h.symm.map _))) rfl rfl).goes
  · simp only [Stream.closed, Bool.and_eq_true] at hc
    have he : c.flow.streams = s.entry ::ₘ (others.map Stream.entry : List (ℕ × Credit)) :=
      Multiset.coe_eq_coe.mpr (h.map Stream.entry)
    have hl : c.life.streams = s.life ::ₘ (others.map Stream.life : List (ℕ × Status)) :=
      Multiset.coe_eq_coe.mpr (h.map Stream.life)
    exact ⟨.silent (.removed he hf) rfl rfl rfl ⟨rfl, rfl, rfl⟩, .silent (.recycled hl hc.2) rfl rfl⟩

lemma openStream_goes (odd : c.role = .client → c.nextId % 2 = 1) (hQ : P (.reserved c.nextId))
    (hP : ∀ id, P (.told (.opened id))) : Gives P (fun id => [.opened id]) (openStream headers endStream) c := by
  unfold openStream
  refine .get (.refuse (fun _ => .refl c) fun hr => ?_)
  refine .refuse (fun _ => .refl c) fun _ => .lift (fun _ _ => .refl c) fun _ _ => ?_
  refine .refuse (fun _ => .refl c) fun hm => .put (.bind ?_)
  simp only [gt_iff_lt, decide_eq_false_iff_not, not_lt] at hm
  have hc : c.role = .client := by
    simp only [Bool.or_eq_false_iff, bne_eq_false_iff_eq] at hr
    exact hr.1.1
  have ho := odd hc
  have hz : c.nextId ≠ 0 := by omega
  have hf : c.nextId ∉ c.life.seen := by simp [life, seen, hc, ho, hz]
  have hp : (c.nextId + 2) % 2 = c.nextId % 2 := Nat.add_mod_right _ 2
  set c₁ : Connection K := { c with nextId := c.nextId + 2 } with hc₁
  have hu : c.life.seen ⊆ c₁.life.seen :=
    fun j (hj : c.seen j = true) => seen_mono (show c₁.role = c.role from rfl) (Nat.le_add_right _ 2) le_rfl hj
  have hk : c.nextId ∈ c₁.life.seen := by simp [life, seen, hc₁, hc, ho, hz]
  refine addStream_post.mono (fun _ c₂ h => ?_) (fun _ c₂ h => ?_)
  · obtain ⟨-, l, others, rfl, hl, he⟩ := h
    have hi := Set.insert_subset hk hu
    have ha : Goes [] P [] { c with streams := others } { c₁ with streams := l } := by
      have hb := flow_of (c := c₁) (Multiset.coe_eq_coe.mpr (hl.map Stream.entry))
      have hd := life_of (c := c₁) (Multiset.coe_eq_coe.mpr (hl.map Stream.life))
      exact ⟨.silent (.opened (F := flow { c with streams := others }) c₁.flow.seen hz hf hi) hb rfl rfl ⟨rfl, hp, rfl⟩,
        .step (.reserved (L := life { c with streams := others }) c₁.life.seen hc hz (by unfold Life.MAX; omega) hf
          hi) hd (by simpa using hQ) rfl rfl⟩
    have hg := (recycled_goes (P := P) (c := c) he).after ha
    refine .bind (sendHeaders_calm.mono (fun _ c₃ h => .pure ?_) (fun _ c₃ h => hg.before h.goes))
    have hn : (c.nextId, (⟨false, false, 0⟩ : Status)) ∈ c₃.life.streams := by
      rw [h.quiet.1]
      exact List.mem_map_of_mem (f := Stream.life) (hl.mem_iff.mpr List.mem_cons_self)
    have ht : Lives P [.opened c.nextId] c₃ c₃ := .step (.opened hn rfl) rfl (by simpa using hP _) rfl rfl
    exact (hg.before h.goes).after ⟨(Calm.refl c₃).hears, ht⟩
  · obtain ⟨rfl, -⟩ := h
    exact ⟨.silent (.saw c₁.flow.seen hu) rfl rfl rfl ⟨rfl, hp, rfl⟩, .silent (.saw c₁.life.seen hu hc) rfl rfl⟩

lemma goaway_goes (tidy : c.life.Tidy)
    (hp : Life.Step c.life [l] { c.life with draining := true }) (hn : l.note = none)
    (hl : l.last = some last) (hP : P l) :
    Keeps (goaway code last debug) c (Goes [] P [] c) := by
  have he : c.peerFrame ≤ 0xffffff := tidy.frame.2
  unfold goaway
  refine .refuse (fun _ => .refl c) fun hm => .get (.refuse (fun _ => .refl c) fun hb => ?_)
  simp only [gt_iff_lt, decide_eq_false_iff_not, not_lt] at hm hb
  refine .put (frame_ok ?_ (by simp) ⟨.writes rfl rfl rfl rfl rfl, ?_⟩)
  · simp only [be32, List.cons_append, List.nil_append, List.length_cons]
    omega
  · refine .names (be32 code ++ debug) hp rfl hP hn hl (by omega) ?_
    rw [List.append_assoc (be32 last)]

lemma last_lt (tidy : c.life.Tidy) : c.lastRemote < 2 ^ 32 := by
  have hl : c.lastRemote ≤ Life.MAX := tidy.last
  unfold Life.MAX at hl
  omega

lemma eof_goes : Goes [] P [] c c.eof := ⟨(Calm.refl c).hears.fails, .silent .broke rfl rfl⟩

lemma handleTimeout_goes (tidy : c.life.Tidy) (hP : P (.announced c.lastRemote)) :
    Keeps (handleTimeout now) c (Goes [] P [] c) := by
  unfold handleTimeout
  refine .get ?_
  split_ifs with hd
  · refine .put (.bind (frame_ok (by simp [be32]) (by simp) (.pure ⟨?_, ?_⟩)))
    · exact (eof_goes (P := P)).hears.before (.writes rfl rfl rfl rfl rfl)
    · exact .names (be32 4) .failing rfl hP rfl rfl (last_lt tidy) rfl
  · exact .pure (.refl c)

lemma pollFailedStream_goes (hP : ∀ id, P (.told (.terminal id))) :
    Goes [] P (c.pollFailedStream.1.toList.map .terminal) c c.pollFailedStream.2 := by
  unfold pollFailedStream
  split_ifs with hf
  · exact .refl c
  · cases hi : c.streams.findFinIdx? (fun s => !s.remoteEnd) with
    | none => exact .refl c
    | some i =>
      have ho := (List.findFinIdx?_eq_some_iff.mp hi).1
      simp only [Bool.not_eq_true'] at ho
      obtain ⟨_, hl, hm⟩ := split Stream.entry c i
      obtain ⟨_, hb, hm'⟩ := split Stream.life c i
      exact ⟨.silent (.ended hl) (flow_of (hm _)) rfl rfl ⟨rfl, rfl, rfl⟩,
        .step (.terminal hb ho) (life_of (hm' _)) (by simpa using hP _) rfl rfl⟩

end Connection

end Turnloop.Http2
