import Turnloop.Http2.Histories

/-! What `open` leaves behind. -/

namespace Turnloop.Http2

open Lib Program List

def continued (id : ℕ) : List Frame → Option Bytes
  | [] => none
  | f :: fs =>
    if f.kind ≠ 9 ∨ f.stream ≠ id then none
    else if f.flags &&& 4 ≠ 0 then if fs = [] then some f.payload else none
    else (continued id fs).map (f.payload ++ ·)

/-- One whole header block: HEADERS, and CONTINUATION up to END_HEADERS. Its stream, END_STREAM and bytes. -/
def wholeBlock : List Frame → Option (ℕ × Bool × Bytes)
  | [] => none
  | f :: fs =>
    if f.kind ≠ 1 then none
    else ((continued f.stream ({ f with kind := 9 } :: fs)).map
      fun block => (f.stream, decide (f.flags &&& 1 ≠ 0), block))

section

variable {id p count n k : ℕ} {scratch : Bytes} {endStream : Bool}

def blockFrame (id : ℕ) (scratch : Bytes) (endStream : Bool) (p count n : ℕ) : Frame :=
  ⟨if n = 0 then 1 else 9, (if n + 1 = count then 4 else 0) ||| (if n = 0 ∧ endStream then 1 else 0), id,
    (scratch.drop (n * p)).take p⟩

lemma flags_block : (blockFrame id scratch endStream p count n).flags &&& 4 ≠ 0 ↔ n + 1 = count := by
  rw [blockFrame]
  by_cases h : n + 1 = count
  · rw [if_pos h]
    split_ifs <;> simp [h]
  · rw [if_neg h]
    split_ifs <;> simp [h]

lemma continued_blocks (hc : n + k + 1 = count) (hl : scratch.length ≤ count * p) :
    continued id ((List.range' n (k + 1)).map fun n => { blockFrame id scratch endStream p count n with kind := 9 }) =
      some (scratch.drop (n * p)) := by
  induction k generalizing n with
  | zero =>
    have ha : (scratch.drop (n * p)).take p = scratch.drop (n * p) := by
      apply take_of_length_le
      rw [← hc, Nat.add_zero, Nat.succ_mul] at hl
      rw [length_drop]
      omega
    rw [range'_one, map_singleton, continued, if_neg (by simp [blockFrame]), if_pos (flags_block.mpr hc), if_pos rfl]
    exact congrArg some ha
  | succ k ih =>
    rw [range'_succ, map_cons, continued, if_neg (by simp [blockFrame]),
      if_neg (mt flags_block.mp (by omega)), ih (by omega)]
    simp only [blockFrame, Option.map_some, Nat.succ_mul]
    rw [← drop_drop, take_append_drop]

lemma wholeBlock_blocks (hc : 0 < count) (hl : scratch.length ≤ count * p) :
    wholeBlock ((List.range count).map (blockFrame id scratch endStream p count)) = some (id, endStream, scratch) := by
  obtain ⟨k, rfl⟩ : ∃ k, count = k + 1 := ⟨count - 1, by omega⟩
  have hr : (range' 1 k).map (blockFrame id scratch endStream p (k + 1)) =
      (range' 1 k).map fun n => { blockFrame id scratch endStream p (k + 1) n with kind := 9 } := by
    apply map_congr_left
    intro n hn
    have hp : n ≠ 0 := by
      have := (mem_range'_1.mp hn).1
      omega
    simp [blockFrame, hp]
  have he : continued id ((range' 0 (k + 1)).map
    fun n => { blockFrame id scratch endStream p (k + 1) n with kind := 9 }) = _ :=
    continued_blocks (by omega) hl
  rw [range'_succ, map_cons, Nat.zero_mul, drop_zero] at he
  have hd : decide ((blockFrame id scratch endStream p (k + 1) 0).flags &&& 1 ≠ 0) = endStream := by
    rw [blockFrame]
    cases endStream <;> split_ifs <;> simp_all
  rw [range_eq_range', range'_succ, map_cons, hr, wholeBlock, if_neg (by simp [blockFrame]), hd]
  exact congrArg (Option.map _) he

end

lemma no_status (h : validateFields true trailers headers regular pseudo = .ok ps) :
    ∀ f ∈ headers, f.name ≠ ":status" := by
  induction headers generalizing regular pseudo with
  | nil => exact fun f hf => absurd hf not_mem_nil
  | cons f headers ih =>
    rw [validateFields] at h
    intro g hg hn
    rcases mem_cons.mp hg with rfl | hg
    · have hc : ":status".startsWith ":" = true := by decide +kernel
      have ho : Pseudo.of ":status" true = none := by decide
      simp only [hn, hc, ho, if_true] at h
      split_ifs at h
    · split_ifs at h
      · cases hp : Pseudo.of f.name true with
        | none =>
          rw [hp] at h
          cases h
        | some =>
          rw [hp] at h
          dsimp only at h
          split_ifs at h
          exact ih h g hg hn
      · exact ih h g hg hn

lemma validated (h : validateHeaders headers true trailers = .ok ()) :
    informational headers = false ∧ ∃ length, contentLength headers = .ok length := by
  simp only [validateHeaders, bind, Except.bind] at h
  split at h
  case h_1 => cases h
  case h_2 ps hi =>
    split at h
    case h_1 => cases h
    case h_2 =>
      split at h
      case h_1 => cases h
      case h_2 length hl =>
        have hn : headers.find? (·.name = ":status") = none :=
          find?_eq_none.mpr fun f hf => by simpa using no_status hi f hf
        refine ⟨?_, length, hl⟩
        rw [informational, hn]
        rfl

namespace Connection

variable {K : Codec} {c c' : Connection K} {id p : ℕ} {scratch : Bytes} {headers : List Header} {endStream : Bool}

lemma sendBlock_exact (hi : id ≤ 0x7fffffff) (hp : 0 < p ∧ p ≤ 0xffffff) : Post (sendBlock id scratch endStream p) c
      (fun _ c' => ∃ fs, c' = { c with output := c.output ++ fs } ∧ wholeBlock fs = some (id, endStream, scratch))
      fun _ _ => False := by
  set count := (max scratch.length 1 + p - 1) / p with hc
  have hforM : ∀ (l : List ℕ) (c : Connection K), Post (l.forM fun n =>
      frame (if n = 0 then 1 else 9) ((if n + 1 = count then 4 else 0) ||| (if n = 0 ∧ endStream then 1 else 0)) id
        ((scratch.drop (n * p)).take p)) c
      (fun _ c' => c' = { c with output := c.output ++ l.map (blockFrame id scratch endStream p count) })
        fun _ _ => False := by
    intro l
    induction l with
    | nil =>
      intro c
      refine .pure ?_
      rw [map_nil, append_nil]
    | cons n l ih =>
      intro c
      have hl : ((scratch.drop (n * p)).take p).length ≤ 0xffffff := (length_take_le _ _).trans hp.2
      refine .bind (frame_ok hl hi ((ih _).mono (fun _ c' hc' => ?_) fun _ _ hf => hf))
      rw [hc', map_cons, append_assoc]
      rfl
  have he : scratch.length ≤ count * p ∧ 0 < count := by
    have ht := Nat.lt_mul_div_succ (max scratch.length 1 + p - 1) hp.1
    rw [← hc, Nat.mul_succ, Nat.mul_comm] at ht
    refine ⟨by omega, Nat.pos_of_ne_zero fun hz => ?_⟩
    rw [hz, Nat.zero_mul] at ht
    omega
  exact (hforM (range count) c).mono (fun _ c' hc' => ⟨_, hc', wholeBlock_blocks he.2 he.1⟩) fun _ _ hf => hf

/-- The connection has room for one more record, and a request without a body has no length but zero. -/
structure Fits (c : Connection K) (headers : List Header) (endStream : Bool) : Prop where
  room : c.Room
  length : endStream = true → ∀ n, contentLength headers = .ok (some n) → n = 0

/-- The checks that `open` makes before it changes anything. -/
structure Passes (c : Connection K) (headers : List Header) : Prop where
  live : c.role = .client ∧ c.draining = false ∧ c.failed = false
  peer : c.active < c.peerStreams
  valid : validateHeaders headers true false = .ok ()
  ids : c.nextId + 2 ≤ 0x7fffffff

/-- One record for `id` is new in `c'`, at most in the place of one that was over, and one header block for it is
written. -/
structure Opened (headers : List Header) (endStream : Bool) (c : Connection K) (id : ℕ) (c' : Connection K) : Prop where
  next : id = c.nextId ∧ c'.nextId = id + 2
  fresh : ∀ s ∈ c.streams, s.id ≠ id
  table : ∃ s others, c'.streams.Perm (s :: others) ∧ s.id = id ∧
    (c.streams.Perm others ∨ ∃ old, old.closed = true ∧ old.unreleased = 0 ∧ c.streams.Perm (old :: others))
  block : ∃ fs, c'.output = c.output ++ fs ∧ wholeBlock fs = some (id, endStream, (K.encode c.encoder headers).1)

lemma sendHeaders_fresh (hc : c.role = .client) (hg : c.failed = false)
    (hv : validateHeaders headers true false = .ok ()) (hd : id ≤ 0x7fffffff)
    (hr : 0 < c.peerFrame ∧ c.peerFrame ≤ 0xffffff)
    (hl : c.streams.Perm (Stream.new id c.initialSend c.recvInitial :: others)) (ho : ∀ s ∈ others, s.id ≠ id) :
    Post (sendHeaders id headers endStream) c
      (fun _ c' => (endStream = true → ∀ n, contentLength headers = .ok (some n) → n = 0) ∧ c'.nextId = c.nextId ∧
        (∃ s, c'.streams.Perm (s :: others) ∧ s.id = id) ∧
        ∃ fs, c'.output = c.output ++ fs ∧ wholeBlock fs = some (id, endStream, (K.encode c.encoder headers).1))
      fun _ c' => c'.nextId = c.nextId ∧ endStream = true ∧ ∃ n, contentLength headers = .ok (some n) ∧ n ≠ 0 := by
  obtain ⟨hs, _, hh⟩ := validated hv
  unfold sendHeaders
  refine .get (.refuse (fun ha => absurd hg (by simp [ha])) fun _ => ?_)
  cases hi : c.index id with
  | none => exact absurd rfl (not_mem_of_index hi _ (hl.mem_iff.mpr mem_cons_self))
  | some i =>
    have hw : c.streams[i] = Stream.new id c.initialSend c.recvInitial := by
      rcases mem_cons.mp (hl.mem_iff.mp (getElem_mem i.isLt)) with hq | hm
      · exact hq
      · exact absurd (index_some hi) (ho _ hm)
    have ht : (c.streams.eraseIdx i).Perm others := by
      have hp := (getElem_cons_eraseIdx_perm i.isLt).trans hl
      rw [← hw] at hp
      exact hp.cons_inv
    have hu : ∀ f : Stream → Stream, (∀ s, (f s).id = s.id) → ∃ s, (c.streams.modify i f).Perm (s :: others) ∧
      s.id = id := by
      intro f hf
      refine ⟨f c.streams[i], ?_, (hf _).trans (index_some hi)⟩
      rw [modify_eq_set_getElem?, getElem?_eq_getElem i.isLt]
      exact (set_perm_cons_eraseIdx i.isLt _).trans (ht.cons _)
    dsimp only
    rw [hw]
    simp only [Stream.new, hc, hs]
    refine .refuse nofun fun _ => .lift (fun e he => nomatch hv.symm.trans he) fun _ _ => ?_
    refine .refuse nofun fun _ => .refuse nofun fun _ => ?_
    refine .lift (fun e he => nomatch hh.symm.trans he) fun length' hk => ?_
    obtain rfl := Except.ok.inj (hh.symm.trans hk)
    refine .refuse (fun hb => ?_) fun hb => .put (.bind ?_)
    · simp only [Bool.and_eq_true, Option.any_eq_true, bne_iff_ne] at hb
      obtain ⟨hx, n, rfl, hn⟩ := hb
      exact ⟨rfl, hx, n, hh, hn⟩
    · refine (sendBlock_exact hd hr).mono (fun _ c₁ hc₁ => ?_) fun _ _ hf => hf.elim
      obtain ⟨fs, rfl, hy⟩ := hc₁
      refine .modify ⟨fun he n hn => ?_, rfl, hu _ fun _ => rfl, fs, rfl, hy⟩
      obtain rfl := Except.ok.inj (hh.symm.trans hn)
      simpa [he] using hb

lemma openStream_exact (tidy : c.life.Tidy) (odd : c.role = .client → c.nextId % 2 = 1) :
    Post (openStream headers endStream) c (fun id c' => c.Fits headers endStream ∧ Opened headers endStream c id c')
      fun _ c' => c' = c ∧ ¬ c.Passes headers ∨ c'.nextId = c.nextId + 2 ∧ c.Passes headers ∧
        ¬ c.Fits headers endStream := by
  unfold openStream
  refine .get (.refuse (fun hb => .inl ⟨rfl, fun hp => ?_⟩) fun hr => ?_)
  · simp [hp.live] at hb
  refine .refuse (fun hb => .inl ⟨rfl, fun hp => ?_⟩) fun ha => .lift
    (fun _ he => .inl ⟨rfl, fun hp => ?_⟩) fun _ hv => ?_
  · exact absurd hp.peer (not_lt.mpr (of_decide_eq_true hb))
  · cases hp.valid.symm.trans he
  refine .refuse (fun hb => .inl ⟨rfl, fun hp => ?_⟩) fun hm => .put (.bind ?_)
  · exact absurd hp.ids (not_le.mpr (of_decide_eq_true hb))
  simp only [Bool.or_eq_false_iff, bne_eq_false_iff_eq] at hr
  obtain ⟨⟨hc, hg⟩, hi⟩ := hr
  have pass : c.Passes headers :=
    ⟨⟨hc, hg, hi⟩, not_le.mp (of_decide_eq_false ha), hv, not_lt.mp (of_decide_eq_false hm)⟩
  have hf : ∀ s ∈ c.streams, s.id ≠ c.nextId := by
    intro s hs he
    have hg : c.seen s.id = true := tidy.known _ (mem_map_of_mem (f := Stream.life) hs)
    simp [he, seen, hc, odd hc] at hg
  refine addStream_post.mono (fun _ c₂ h => ?_) fun _ c₂ h => .inr ⟨by rw [h.1], pass, fun hk => h.2.2 hk.room⟩
  obtain ⟨room, l, others, rfl, hl, hp⟩ := h
  have ho : ∀ s ∈ others, s.id ≠ c.nextId := by
    intro s hs
    rcases hp with hp | ⟨_, -, -, hp⟩
    · exact hf s (hp.mem_iff.mpr hs)
    · exact hf s (hp.mem_iff.mpr (mem_cons_of_mem _ hs))
  have hd : c.nextId ≤ 0x7fffffff := by
    have := of_decide_eq_false hm
    omega
  have hq : Post (sendHeaders c.nextId headers endStream) _ _ _ :=
    sendHeaders_fresh (c := { c with nextId := c.nextId + 2, streams := l }) hc hi hv hd tidy.frame hl ho
  refine .bind (hq.mono (fun _ c₃ h => .pure ?_) fun _ c₃ h => .inr ?_)
  · obtain ⟨hk, hx, ⟨s, hs, ht⟩, fs, hu, hb⟩ := h
    exact ⟨⟨room, hk⟩, ⟨rfl, hx⟩, hf, ⟨s, others, hs, ht, hp⟩, fs, hu, hb⟩
  · obtain ⟨hx, hw, n, hn, hy⟩ := h
    exact ⟨hx, pass, fun hk => hy (hk.length hw n hn)⟩

end Connection

variable {K : Codec} {limits : Limits} {settings : Settings} {c₀ : Connection K}

theorem open_atomic (new : Connection.withSettings .client limits settings = .ok c₀) (calls : List Call)
    (headers : List Header)
    (endStream : Bool) :
    let c := (History.run c₀ calls).conn
    ((∀ e c', Connection.openStream headers endStream c = (.error e, c') → c' = c) ↔
      (c.Passes headers → c.Fits headers endStream)) ∧
    ∀ id c', Connection.openStream headers endStream c = (.ok id, c') →
      Connection.Opened headers endStream c id c' := by
  intro c
  have hl := History.living new calls
  have hp : Post (Connection.openStream headers endStream) c _ _ := Connection.openStream_exact hl.tidy hl.odd
  refine ⟨⟨fun ha pass => ?_, fun hk e c' hr => ?_⟩, fun id c' hr => ?_⟩
  · rcases hp.run (Prod.mk.eta (p := Connection.openStream headers endStream c)).symm with ⟨_, -, fits, -⟩ | ⟨e, he, hf⟩
    · exact fits
    · rcases hf with ⟨-, hn⟩ | ⟨hn, -⟩
      · exact absurd pass hn
      · have hs := (congrArg Connection.nextId (ha e _ (Prod.ext he rfl))).symm.trans hn
        omega
  · rcases hp.run hr with ⟨_, ho, -⟩ | ⟨_, -, ⟨he, -⟩ | ⟨-, pass, hn⟩⟩
    · cases ho
    · exact he
    · exact absurd (hk pass) hn
  · rcases hp.run hr with ⟨_, ho, -, hb⟩ | ⟨e, hc, -⟩
    · cases ho
      exact hb
    · cases hc

theorem open_atomic_plain :
    let c := (Connection.plain .client : Connection .hpack)
    (∀ e c', Connection.openStream [] true c = (.error e, c') → c' = c) ∧
      Connection.Opened requestHead true c 1 (Connection.openStream requestHead true c).2 := by
  intro c
  have ho : (Connection.openStream requestHead true c).1 = .ok 1 := by decide +kernel
  refine ⟨(open_atomic (Connection.withSettings_plain .client) [] [] true).1.2 fun hp => ?_,
    (open_atomic (Connection.withSettings_plain .client) [] requestHead true).2 1 _ (Prod.ext ho rfl)⟩
  exact absurd hp.valid (by decide +kernel)

/-- A request whose length contradicts END_STREAM is refused with its record made: the stream stays, and counts. -/
theorem refused_open_counts :
    let c := (.plain .client : Connection .hpack)
    let r := Connection.openStream (requestHead ++ [⟨"content-length", ascii "5"⟩]) true c
    r.1.toBool = false ∧ r.2.active = c.active + 1 ∧ r.2.nextId = c.nextId + 2 := by
  decide +kernel

end Turnloop.Http2
