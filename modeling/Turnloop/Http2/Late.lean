import Turnloop.Http2.Goaway

/-! Frames for a stream that this endpoint has ended. -/

namespace Turnloop.Http2

open Lib Lib.Program List Multiset

namespace Life

variable {L L' : Life} {ls ms : List Label} {id : ℕ}

def Gone (L : Life) (id : ℕ) : Prop := id ∈ L.seen ∧ ∀ a, (id, a) ∉ L.streams

def Label.ends : Label → Option ℕ
  | .told (.reset id) => some id
  | .told (.event (.unprocessed id)) => some id
  | .refused id _ => some id
  | .rejected id _ => some id
  | _ => none

lemma Gone.keep (h : L.Gone id) (he : L.seen ⊆ L'.seen) (hi : ∀ a, (id, a) ∈ L'.streams → ∃ b, (id, b) ∈ L.streams) :
    L'.Gone id := by
  refine ⟨he h.1, fun a ha => ?_⟩
  obtain ⟨b, hb⟩ := hi a ha
  exact h.2 b hb

lemma Gone.step (h : L.Gone id) (hs : Step L ms L') : L'.Gone id := by
  have hr : ∀ {p : ℕ × Status} {rest : Multiset (ℕ × Status)}, L.streams = p ::ₘ rest →
      ∀ x, (id, x) ∈ rest → ∃ y, (id, y) ∈ L.streams := fun entry x hx => ⟨x, entry ▸ Multiset.mem_cons_of_mem hx⟩
  have he : ∀ {i : ℕ} {a b : Status} {rest : Multiset (ℕ × Status)}, L.streams = (i, a) ::ₘ rest →
      ∀ x, (id, x) ∈ (i, b) ::ₘ rest → ∃ y, (id, y) ∈ L.streams := by
    intro i a b rest entry x hx
    rcases Multiset.mem_cons.mp hx with hq | hx
    · obtain ⟨rfl, -⟩ := Prod.mk.inj hq
      exact ⟨a, Tidy.here entry⟩
    · exact hr entry x hx
  have ha : ∀ {i : ℕ} {a : Status}, i ∉ L.seen → ∀ x, (id, x) ∈ (i, a) ::ₘ L.streams → ∃ y, (id, y) ∈ L.streams := by
    intro i a fresh x hx
    rcases Multiset.mem_cons.mp hx with hq | hx
    · obtain ⟨rfl, -⟩ := Prod.mk.inj hq
      exact (fresh h.1).elim
    · exact ⟨x, hx⟩
  cases hs with
  | touched b entry | delivered e entry | peerReset code entry | terminal entry => exact h.keep subset_rfl (he entry)
  | recycled entry | removed l entry => exact h.keep subset_rfl (hr entry)
  | saw s sub => exact ⟨sub h.1, h.2⟩
  | reserved s client zero bound fresh sub | accepted s server zero bound fresh sub =>
    exact h.keep ((Set.subset_insert _ _).trans sub) (ha fresh)
  | turned d s server bound fresh sub => exact ⟨sub (Set.mem_insert_of_mem _ h.1), h.2⟩
  | opened | disposed | continued | resized | resetGone | refused | unprocessed | noted | drained | goaway | shutdown
  | failing | broke =>
    exact h

lemma gone_of_ends (tidy : L.Tidy) (hs : Step L ms L') (hl : l ∈ ms) (he : l.ends = some id) : L'.Gone id := by
  cases hs with
  | @removed i a rest l' entry reset =>
    rw [List.mem_singleton] at hl
    subst hl
    have hi : i = id := by
      rcases reset with rfl | ⟨code, rfl⟩ <;> exact Option.some.inj he
    subst hi
    exact ⟨tidy.known _ (Tidy.here entry), fun x hx => (entry ▸ tidy.keyed).ne_of_mem hx rfl⟩
  | resetGone kn none =>
    rw [List.mem_singleton] at hl
    subst hl
    cases he
    exact ⟨kn, none⟩
  | refused code doomed | unprocessed doomed =>
    rw [List.mem_singleton] at hl
    subst hl
    cases he
    exact tidy.turned _ doomed nofun
  | delivered e entry still delivers =>
    rw [List.mem_singleton] at hl
    subst hl
    cases e with
    | unprocessed => cases delivers
    | _ => cases he
  | noted e quiet =>
    rw [List.mem_singleton] at hl
    subst hl
    cases e with
    | unprocessed => cases quiet
    | _ => cases he
  | opened | reserved | accepted | peerReset | drained | goaway | shutdown | failing | terminal =>
    rw [List.mem_singleton] at hl
    subst hl
    cases he
  | touched | recycled | saw | turned | disposed | continued | resized | broke => cases hl

lemma Gone.of_trace (tidy : L₀.Tidy) (h : Trace Step L₀ ls L) (hl : l ∈ ls) (he : l.ends = some id) : L.Gone id := by
  have hi : L.Tidy ∧ ∀ l ∈ ls, ∀ id, l.ends = some id → L.Gone id := by
    refine h.invariant (P := fun ls L => L.Tidy ∧ ∀ l ∈ ls, ∀ id, l.ends = some id → L.Gone id)
      (fun hg hs => ?_) ⟨tidy, nofun⟩
    refine ⟨hg.1.step hs, fun l hl id he => ?_⟩
    rcases mem_append.mp hl with hl | hl
    · exact (hg.2 l hl id he).step hs
    · exact gone_of_ends hg.1 hs hl he
  exact hi.2 l hl id he

end Life

variable {K : Codec} {c : Connection K} {id : ℕ}

/-- What may still arrive for a stream: one frame, or a header block, which nothing interrupts. -/
inductive Late where
  | single (f : Frame)
  | block (f : Frame) (more : List Frame)

def Late.frames : Late → List Frame
  | .single f => [f]
  | .block f more => f :: more

def Frame.fragment (f : Frame) : Result Bytes := (unpadded f).bind (Connection.prioritized f)

def headerBlock (f : Frame) (more : List Frame) : Bytes :=
  (match f.fragment with
    | .ok bytes => bytes
    | .error _ => []) ++ more.flatMap Frame.payload

def Late.decoded (d : K.Decoder) : Late → K.Decoder
  | .single _ => d
  | .block f more => (K.decode d (headerBlock f more)).2

structure Frame.Fits (c : Connection K) (id : ℕ) (f : Frame) : Prop where
  encodable : f.Encodable
  stream : f.stream = id
  size : f.payload.length ≤ c.limits.frameSize

def Late.Legal (c : Connection K) (id : ℕ) : Late → Prop
  | .single f => f.Fits c id ∧
      (f.kind = 0 ∧ f.payload.length ≤ c.recvWindow ∨ f.kind = 2 ∧ f.payload.length = 5 ∧
        u32be f.payload % 2 ^ 31 ≠ id ∨
        (f.kind = 3 ∨ f.kind = 8) ∧ f.payload.length = 4)
  | .block f more => (∀ g ∈ f :: more, g.Fits c id) ∧ f.kind = 1 ∧ (∀ g ∈ more, g.kind = 9) ∧
      (f :: more).map Frame.END_HEADERS = List.replicate more.length false ++ [true] ∧
      ∃ bytes, f.fragment = .ok bytes

/-- A header block that is read to its end: only a client reads one for a stream it has ended. -/
def Late.Held (c : Connection K) (d : K.Decoder) : Late → Prop
  | .single _ => True
  | .block f more => c.role = .client ∧ (headerBlock f more).length ≤ c.limits.headerBlock ∧
      more.length ≤ c.limits.continuations ∧ ∃ headers, (K.decode d (headerBlock f more)).1 = .ok headers

def Late.AllHeld (c : Connection K) : K.Decoder → List Late → Prop
  | _, [] => True
  | d, u :: us => u.Held c d ∧ AllHeld c (u.decoded d) us

namespace Connection

def receiveAll (rest : Bytes) : List Frame → M K Unit
  | [] => pure ()
  | f :: fs => do
    let _ ← receive (f.encode ++ (fs.flatMap Frame.encode ++ rest))
    receiveAll rest fs

def encodes (us : List Late) : Bytes := us.flatMap fun u => u.frames.flatMap Frame.encode

def receiveLate (rest : Bytes) : List Late → M K Unit
  | [] => pure ()
  | u :: us => do
    receiveAll (encodes us ++ rest) u.frames
    receiveLate rest us

def Legals (id : ℕ) (rest : Bytes) : Connection K → List Late → Prop
  | _, [] => True
  | c, u :: us => u.Legal c id ∧ Legals id rest (receiveAll (encodes us ++ rest) u.frames c).2 us

structure Awaits (id : ℕ) (c : Connection K) : Prop where
  live : c.failed = false
  preface : c.preface = true
  settled : c.settingsReceived = true
  none : c.index id = none
  seen : c.seen id = true

/-- The frames are dealt with, and `d` is the decoder after them. -/
structure Resumes (id : ℕ) (c : Connection K) (d : K.Decoder) (c' : Connection K) : Prop where
  awaits : Awaits id c'
  idle : c'.continuation = none
  role : c'.role = c.role
  limits : c'.limits = c.limits
  decoder : c'.decoder = d

lemma Awaits.nonzero (h : Awaits id c) : id ≠ 0 := by
  rintro rfl
  exact absurd h.seen (by simp [Connection.seen])

lemma Awaits.receive (rest : Bytes) {Q : Connection K → Prop} {E : Prop} (h : Awaits id c) (fits : f.Fits c id)
    (order : c.inOrder f = .ok ()) (hf : Post (receiveFrame f c.continuation) c (fun _ c' => Q c') fun _ _ => E) :
    Post (receive (f.encode ++ rest)) c (fun _ c' => Q c') fun _ _ => E := by
  have hd : decodeFrame (f.encode ++ rest) c.limits.frameSize = .ok (some f) := by
    rw [decodeFrame_encode fits.encodable, if_neg (Nat.not_lt.mpr fits.size)]
  unfold Connection.receive
  refine .get (.refuse (fun hb => ?_) fun _ => .tryCatch ?_)
  · cases h.live.symm.trans hb
  unfold receiveInner
  refine .get ?_
  rw [if_pos h.preface, hd]
  refine .lift nofun fun a ha => ?_
  cases ha
  dsimp only
  rw [order]
  refine .lift nofun fun _ _ => .bind (hf.mono (fun event c' hc' => .pure hc') fun _ _ he => ?_)
  exact .bind (.put (.get (frame_post (fun _ _ => .throw he) fun _ => he)))

lemma Awaits.single (h : Awaits id c) (idle : c.continuation = .none) (legal : (Late.single f).Legal c id) :
    Post (receiveAll rest [f]) c (fun _ => Resumes id c c.decoder) (fun _ _ => False) := by
  obtain ⟨fits, hi⟩ := legal
  have hc : ¬ (f.stream == 0) = true := by
    rw [fits.stream, beq_iff_eq]
    exact h.nonzero
  have hn : c.index f.stream = .none := fits.stream ▸ h.none
  have hf : ¬ (!c.seen f.stream) = true := by
    rw [fits.stream, h.seen]
    exact Bool.false_ne_true
  have hd : Resumes id c c.decoder c := ⟨h, idle, rfl, rfl, rfl⟩
  have ho : c.inOrder f = .ok () := by
    unfold inOrder
    rw [h.settled, idle]
    rcases hi with ⟨hk, -⟩ | ⟨hk, -⟩ | ⟨hk | hk, -⟩ <;> simp [hk]
  refine .bind ((h.receive (([] : List Frame).flatMap Frame.encode ++ rest) fits ho ?_).mono
    (fun _ c' hc' => .pure hc') fun _ _ he => he)
  unfold receiveFrame
  rcases hi with ⟨hk, hw⟩ | ⟨hk, hl, hg⟩ | ⟨hk | hk, hl⟩
  · rw [hk]
    unfold receiveData
    refine .refuse (fun hz => (hc hz).elim) fun _ => .get ?_
    rw [hn]
    refine .refuse (fun hs => (hf hs).elim) fun _ => .bind ?_
    unfold discardData
    refine .get (.refuse (fun hv => ?_) fun _ => ?_)
    · exact absurd (of_decide_eq_true hv) (not_lt.mpr hw)
    split_ifs
    · exact .pure hd
    · unfold frame
      refine .refuse (fun hb => ?_) fun _ => .modify (.pure ⟨{ h with }, idle, rfl, rfl, rfl⟩)
      simp [be32] at hb
  · rw [hk]
    unfold receivePriority
    refine .refuse (fun hz => (hc hz).elim) fun _ => .refuse (fun hb => ?_) fun _ =>
      Post.refuse (fun hb => ?_) fun _ => .pure hd
    · simp [hl] at hb
    · rw [beq_iff_eq, fits.stream] at hb
      exact (hg hb).elim
  · rw [hk]
    unfold receiveReset
    refine .refuse (fun hz => (hc hz).elim) fun _ => .refuse (fun hb => ?_) fun _ => .get ?_
    · simp [hl] at hb
    · rw [hn]
      exact .refuse (fun hs => (hf hs).elim) fun _ => .pure hd
  · rw [hk]
    unfold receiveWindowUpdate
    refine .refuse (fun hb => ?_) fun _ => .get ?_
    · simp [hl] at hb
    · dsimp only
      rw [if_neg fun hz => hc (beq_iff_eq.mpr hz), hn]
      exact .refuse (fun hs => (hf hs).elim) fun _ => .pure hd

lemma finishBlock_discard (hd : c.disposal = some .discard) : Post (finishBlock id e) c
    (fun _ c' => c' = { c with disposal := .none, decoder := (K.decode c.decoder c.block).2 } ∧
      ∃ headers, (K.decode c.decoder c.block).1 = .ok headers)
    fun _ _ => ¬ ∃ headers, (K.decode c.decoder c.block).1 = .ok headers := by
  unfold finishBlock
  refine .get ?_
  rw [hd]
  refine .put (.bind ?_)
  unfold decodeBlock Post
  dsimp only
  cases (K.decode c.decoder c.block).1 with
  | error => exact nofun
  | ok headers => exact ⟨rfl, headers, rfl⟩

lemma Awaits.continued (rest : Bytes) (h : Awaits id c) (under : c.continuation = some (id, e, n))
    (hd : c.disposal = some .discard) (hb : c.block = acc) (hs : acc.length ≤ c.limits.headerBlock) (fits : ∀ g ∈ more, g.Fits c id)
    (kinds : ∀ g ∈ more, g.kind = 9)
    (ends : more.map Frame.END_HEADERS = List.replicate k false ++ [true]) :
    let block := acc ++ more.flatMap Frame.payload
    let held := block.length ≤ c.limits.headerBlock ∧ n + more.length ≤ c.limits.continuations ∧
      ∃ headers, (K.decode c.decoder block).1 = .ok headers
    Post (receiveAll rest more) c (fun _ c' => held ∧ Resumes id c (K.decode c.decoder block).2 c')
      fun _ _ => ¬ held := by
  induction more generalizing c acc n k with
  | nil =>
    have hn := congrArg length ends
    simp at hn
  | cons g gs ih =>
    intro block held
    have hg : g.kind = 9 := kinds g mem_cons_self
    have hf := fits g mem_cons_self
    have ho : c.inOrder g = .ok () := by
      unfold inOrder
      rw [h.settled, under]
      simp [hg, hf.stream]
    have hw : block = (acc ++ g.payload) ++ gs.flatMap Frame.payload := by rw [append_assoc]; rfl
    have hl : block.length = acc.length + g.payload.length + (gs.flatMap Frame.payload).length := by
      rw [hw, length_append, length_append]
    refine .bind ((h.receive (gs.flatMap Frame.encode ++ rest) (E := ¬ held)
      (Q := fun c' => Post (receiveAll rest gs) c' _ fun _ _ => ¬ held) hf ho ?_).mono (fun _ c' hc' => hc')
        fun _ _ he => he)
    rw [under]
    unfold receiveFrame
    rw [hg]
    unfold receiveContinuation
    refine .get (.refuse (fun hv hh => ?_) fun hn => .bind ?_)
    · have hm := of_decide_eq_true hv
      have hc := hh.2.1
      rw [length_cons] at hc
      omega
    unfold appendBlock
    refine .get (.refuse (fun hv hh => ?_) fun hv => .modify ?_)
    · have hm := of_decide_eq_true hv
      have hc := hh.1
      rw [hb] at hm
      omega
    have hn := of_decide_eq_false hn
    have hv := of_decide_eq_false hv
    rw [hb] at hv
    cases k with
    | zero =>
      obtain ⟨ha, rfl⟩ : g.END_HEADERS = true ∧ gs = [] := by simpa using ends
      rw [if_pos ha]
      refine .put ?_
      have hq : c.block ++ g.payload = block := by rw [hw, hb]; simp
      refine (finishBlock_discard (c := { c with block := c.block ++ g.payload, continuation := .none }) hd).mono
        (fun _ c' hc' => ?_) fun _ _ he hh => he ?_
      · rw [hq] at hc'
        obtain ⟨rfl, hc'⟩ := hc'
        refine .pure ⟨⟨?_, ?_, hc'⟩, { h with }, rfl, rfl, rfl, rfl⟩
        · rw [hl, flatMap_nil, length_nil]
          omega
        · rw [length_singleton]
          omega
      · rw [hq]
        exact hh.2.2
    | succ k =>
      rw [List.map_cons, List.replicate_succ, List.cons_append, List.cons.injEq] at ends
      rw [if_neg (Bool.not_eq_true _ ▸ ends.1)]
      refine .put (.pure ?_)
      have ht : held = (((acc ++ g.payload) ++ gs.flatMap Frame.payload).length ≤ c.limits.headerBlock ∧
          n + 1 + gs.length ≤ c.limits.continuations ∧
            ∃ headers, (K.decode c.decoder ((acc ++ g.payload) ++ gs.flatMap Frame.payload)).1 = .ok headers) := by
        rw [← hw, Nat.add_right_comm]
        rfl
      rw [ht, hw]
      have hs : (acc ++ g.payload).length ≤ c.limits.headerBlock := by
        rw [length_append]
        omega
      refine (ih (c := { c with block := c.block ++ g.payload, continuation := some (id, e, n + 1) })
        { h with } rfl hd (congrArg (· ++ g.payload) hb) hs
        (fun g' hg' => ⟨(fits g' (mem_cons_of_mem _ hg')).encodable, (fits g' (mem_cons_of_mem _ hg')).stream,
          (fits g' (mem_cons_of_mem _ hg')).size⟩) (fun g' hg' => kinds g' (mem_cons_of_mem _ hg')) ends.2).mono
        (fun _ c' hc' => ⟨hc'.1, { hc'.2 with }⟩) fun _ _ he => he

lemma Awaits.openRemote (h : Awaits id c) : Post (openRemote id) { c with disposal := .none }
    (fun _ c' => c.role = .client ∧ c' = { c with disposal := some .discard }) fun _ _ => c.role ≠ .client := by
  have hs : Connection.seen { c with disposal := .none } id = true := h.seen
  unfold Connection.openRemote
  refine .get ?_
  split
  · rename_i hr
    rw [hs]
    exact .refuse nofun fun _ => .modify ⟨hr, rfl⟩
  · rename_i hr
    have hr : c.role = .server := hr
    refine .refuse (fun _ => by simp [hr]) fun hn => ?_
    -- a server has seen only even ids of its own and odd ones up to the highest
    unfold Connection.seen at hs
    rw [if_neg h.nonzero] at hs
    rcases Nat.mod_two_eq_zero_or_one id with hm | hm <;> simp_all

lemma Awaits.block (h : Awaits id c) (idle : c.continuation = .none) (legal : (Late.block f more).Legal c id) :
    Post (receiveAll rest (f :: more)) c
      (fun _ c' => (Late.block f more).Held c c.decoder ∧ Resumes id c (K.decode c.decoder (headerBlock f more)).2 c')
      fun _ _ => ¬ (Late.block f more).Held c c.decoder := by
  obtain ⟨fits, hk, ki, ends, bytes, hb⟩ := legal
  have hf := fits f List.mem_cons_self
  have hw : headerBlock f more = bytes ++ more.flatMap Frame.payload := by rw [headerBlock, hb]
  obtain ⟨pa, hn, hp⟩ : ∃ pa, unpadded f = .ok pa ∧ prioritized f pa = .ok bytes := by
    unfold Frame.fragment at hb
    cases hu : unpadded f with
    | error => rw [hu] at hb; cases hb
    | ok pa => exact ⟨pa, rfl, by rw [hu] at hb; exact hb⟩
  have ho : c.inOrder f = .ok () := by
    unfold inOrder
    rw [h.settled, idle]
    simp [hk]
  rw [Late.Held, hw]
  refine Post.bind ((h.receive (more.flatMap Frame.encode ++ rest)
    (Q := fun c' => Post (receiveAll rest more) c' _ fun _ _ => ¬ _)
    hf ho ?_).mono (fun _ c' hc' => hc') fun _ _ he => he)
  unfold receiveFrame
  rw [hk]
  unfold receiveHeaders
  refine Post.refuse (fun hz => ?_) fun _ => Post.put (Post.get (Post.when (fun hs => ?_) fun _ => Post.bind ?_))
  · rw [beq_iff_eq, hf.stream] at hz
    exact (h.nonzero hz).elim
  · have hm : { c with disposal := .none }.index f.stream = .none := hf.stream ▸ h.none
    rw [hm] at hs
    cases hs
  rw [hf.stream]
  refine h.openRemote.mono (fun _ c' hc' => ?_) fun _ _ he hh => he hh.1
  obtain ⟨client, rfl⟩ := hc'
  unfold startBlock
  rw [hn]
  refine Post.lift nofun fun a ha => ?_
  cases ha
  rw [hp]
  refine Post.lift nofun fun a ha => ?_
  cases ha
  refine Post.put (Post.bind ?_)
  unfold appendBlock
  refine Post.get (Post.refuse (fun hv hh => ?_) fun hv => Post.modify ?_)
  · have hg : bytes.length > c.limits.headerBlock - 0 := of_decide_eq_true hv
    have hl := hh.2.1
    rw [List.length_append] at hl
    omega
  have hv : ¬ bytes.length > c.limits.headerBlock - 0 := of_decide_eq_false hv
  cases more with
  | nil =>
    have hq : f.END_HEADERS = true := by simpa using ends
    rw [if_pos hq]
    refine (finishBlock_discard (c := { c with disposal := some .discard, block := [] ++ bytes }) rfl).mono
      (fun _ c' hc' => ?_) fun _ _ he hh => he ?_
    · obtain ⟨rfl, hd⟩ := hc'
      simp only [flatMap_nil, append_nil, nil_append, List.length_nil] at hd ⊢
      exact Post.pure ⟨⟨client, by omega, Nat.zero_le _, hd⟩, { h with }, idle, rfl, rfl, rfl⟩
    · simpa using hh.2.2.2
  | cons =>
    rw [List.length_cons, List.map_cons, List.replicate_succ, List.cons_append, List.cons.injEq] at ends
    rw [if_neg (Bool.not_eq_true _ ▸ ends.1)]
    refine Post.put (Post.pure ?_)
    have hc := Awaits.continued rest
      (c := { c with
              disposal := some .discard
              block := [] ++ bytes
              continuation := some (f.stream, f.END_STREAM, 0) })
      { h with } (by rw [hf.stream]) rfl rfl (by simpa using hv)
      (fun g' hg' => ⟨(fits g' (List.mem_cons_of_mem _ hg')).encodable, (fits g' (List.mem_cons_of_mem _ hg')).stream,
        (fits g' (List.mem_cons_of_mem _ hg')).size⟩) ki ends.2
    rw [Nat.zero_add] at hc
    exact hc.mono (fun _ c' hc' => ⟨⟨client, hc'.1⟩, { hc'.2 with }⟩) fun _ _ he hh => he hh.2

lemma Awaits.late (rest : Bytes) {u : Late} (h : Awaits id c) (idle : c.continuation = .none) (legal : u.Legal c id) :
    Post (receiveAll rest u.frames) c (fun _ c' => u.Held c c.decoder ∧ Resumes id c (u.decoded c.decoder) c')
      fun _ _ => ¬ u.Held c c.decoder := by
  cases u with
  | single => exact (h.single idle legal).mono (fun _ _ hr => ⟨trivial, hr⟩) fun _ _ he => he.elim
  | block => exact h.block idle legal

lemma allHeld_of_eq {c' : Connection K} (hr : c'.role = c.role) (hl : c'.limits = c.limits) :
    Late.AllHeld c' d us ↔ Late.AllHeld c d us := by
  induction us generalizing d with
  | nil => rfl
  | cons u us ih =>
    rw [Late.AllHeld, Late.AllHeld, ih]
    cases u with
    | single => rfl
    | block => rw [Late.Held, Late.Held, hr, hl]

lemma Awaits.receiveLate (h : Awaits id c) (idle : c.continuation = .none) (legal : Legals id rest c us) :
    Post (receiveLate rest us) c (fun _ c' => Late.AllHeld c c.decoder us ∧
      c'.decoder = us.foldl Late.decoded c.decoder)
      fun _ _ => ¬ Late.AllHeld c c.decoder us := by
  induction us generalizing c with
  | nil => exact .pure ⟨trivial, rfl⟩
  | cons u us ih =>
    have hu := h.late (encodes us ++ rest) idle legal.1
    refine .bind ?_
    have hl := legal.2
    unfold Post at hu ⊢
    rcases hr : receiveAll (encodes us ++ rest) u.frames c with ⟨r, c'⟩
    rw [hr] at hu hl
    cases r with
    | error => exact fun ha => hu ha.1
    | ok =>
      obtain ⟨hh, hr⟩ := hu
      have ht := ih hr.awaits hr.idle hl
      rw [allHeld_of_eq hr.role hr.limits, hr.decoder] at ht
      exact ht.mono (fun _ _ hd => ⟨⟨hh, hd.1⟩, hd.2⟩) fun _ _ he ha => he ha.2

end Connection

def EndedHere (c : Connection K) (calls : List Call) (id : ℕ) : Prop :=
  .reset id ∈ (⟨c, []⟩ : History K).notes calls ∨ .event (.unprocessed id) ∈ (⟨c, []⟩ : History K).notes calls ∨
    ∃ before call after f code, calls = before ++ call :: after ∧ call.hears (History.run c before).conn = some f ∧
      f.kind ≠ 3 ∧ .event (.reset id code) ∈ call.notes (History.run c before).conn

lemma History.Lived.ends (lived : History.Lived ⟨c, []⟩ calls ls) (ended : EndedHere c calls id) :
    ∃ l ∈ ls, l.ends = some id := by
  rcases ended with hn | hn | ⟨before, call, after, f, code, hc, hh, hk, hn⟩
  · obtain ⟨l, hl, hb⟩ := lived.mem_notes.mp hn
    refine ⟨l, hl, ?_⟩
    cases l <;> simp_all [Life.Label.note, Life.Label.ends]
  · obtain ⟨l, hl, hb⟩ := lived.mem_notes.mp hn
    refine ⟨l, hl, ?_⟩
    cases l <;> simp_all [Life.Label.note, Life.Label.ends]
  · obtain ⟨_, hu, hs, ht, -⟩ := lived.each before call after hc
    rw [show call.notes (History.run c before).conn = _ from ht.symm, List.mem_filterMap] at hn
    obtain ⟨l, hl, hb⟩ := hn
    refine ⟨l, hu hl, ?_⟩
    cases l with
    | told n =>
      -- the only Reset that is told as such answers RST_STREAM
      obtain rfl : n = .event (.reset id code) := by simpa [Life.Label.note] using hb
      have ho := hs _ hl
      cases call with
      | receive input =>
        obtain ⟨f', hf', hk'⟩ : ∃ f', (Call.receive input).hears (History.run c before).conn = some f' ∧
          f'.kind = 3 := ho
        cases hh.symm.trans hf'
        exact (hk hk').elim
      | _ => cases hh
    | refused id' code' | rejected id' code' =>
      obtain ⟨rfl, rfl⟩ : id' = id ∧ code' = code := by simpa [Life.Label.note] using hb
      rfl
    | accepted | reserved | goaway | announced => cases hb

theorem late_block_fails :
    (let calls : List Call := [.receive PREFACE, .receive (Frame.encode ⟨4, 0, 0, []⟩),
        .receive (Frame.encode ⟨1, 4, 1, requestBlock⟩), .reset 1 8,
        .receive (Frame.encode ⟨1, 5, 1, requestBlock⟩)];
      (History.run (.plain .server : Connection .hpack) calls).conn.failed = true) ∧
    (let calls : List Call := [.receive (Frame.encode ⟨4, 0, 0, []⟩), .openStream requestHead true,
        .receive (Frame.encode ⟨1, 1, 1, []⟩), .reset 1 8, .receive (Frame.encode ⟨9, 4, 1, requestBlock⟩)];
      (History.run (.plain .client : Connection .hpack) calls).conn.failed = true) := by
  decide +kernel

theorem late_frames_taken {role : Role} {limits : Limits} {settings : Settings}
    (new : Connection.withSettings role limits settings = .ok c) (calls : List Call)
    (live : (History.run c calls).conn.failed = false) (preface : (History.run c calls).conn.preface = true)
    (settled : (History.run c calls).conn.settingsReceived = true)
    (idle : (History.run c calls).conn.continuation = none)
    (id : ℕ) (ended : EndedHere c calls id) (rest : Bytes) (us : List Late)
    (legal : Connection.Legals id rest (History.run c calls).conn us) :
    (∃ c', Connection.receiveLate rest us (History.run c calls).conn = (.ok (), c') ∧
      c'.decoder = us.foldl Late.decoded (History.run c calls).conn.decoder) ↔
    Late.AllHeld (History.run c calls).conn (History.run c calls).conn.decoder us := by
  obtain ⟨_, lived⟩ := (History.living new []).lived calls
  obtain ⟨l, hl, he⟩ := lived.ends ended
  obtain ⟨hs, hn⟩ := Life.Gone.of_trace (History.living new []).tidy lived.trace hl he
  have ha : Connection.Awaits id (History.run c calls).conn := by
    refine ⟨live, preface, settled, ?_, hs⟩
    cases hi : (History.run c calls).conn.index id with
    | none => rfl
    | some i =>
      have hm : ((History.run c calls).conn.streams.get i).life ∈ (History.run c calls).conn.life.streams :=
        List.mem_map_of_mem (List.getElem_mem i.isLt)
      rw [Stream.life, Connection.index_some hi] at hm
      exact (hn _ hm).elim
  have hp := ha.receiveLate idle legal
  unfold Post at hp
  rcases hr : Connection.receiveLate rest us (History.run c calls).conn with ⟨r, c'⟩
  rw [hr] at hp
  cases r with
  | ok => exact ⟨fun _ => hp.1, fun _ => ⟨c', rfl, hp.2⟩⟩
  | error =>
    refine ⟨fun hc => ?_, fun h => (hp h).elim⟩
    obtain ⟨_, ho, -⟩ := hc
    cases ho

theorem late_frames_taken_client :
    let calls : List Call := [.receive (Frame.encode ⟨4, 0, 0, []⟩), .openStream requestHead true, .reset 1 8]
    let c : Connection .hpack := .plain .client
    let us : List Late := [.block ⟨1, 1, 1, [0x83]⟩ [⟨9, 4, 1, [0x86, 0x84]⟩], .single ⟨0, 1, 1, [7]⟩]
    ∃ c', Connection.receiveLate [] us (History.run c calls).conn = (.ok (), c') ∧
      c'.decoder = us.foldl Late.decoded (History.run c calls).conn.decoder := by
  intro calls c us
  have legal : Connection.Legals 1 [] (History.run c calls).conn us := by
    refine ⟨⟨?_, rfl, ?_, by decide +kernel, ⟨[0x83], by decide +kernel⟩⟩,
      ⟨⟨⟨by decide, by decide, by decide, by decide⟩, rfl, by decide +kernel⟩, .inl ⟨rfl, by decide +kernel⟩⟩, trivial⟩
    · intro g hg
      simp only [List.mem_cons, List.not_mem_nil, or_false] at hg
      rcases hg with rfl | rfl
      · exact ⟨⟨by decide, by decide, by decide, by decide⟩, rfl, by decide +kernel⟩
      · exact ⟨⟨by decide, by decide, by decide, by decide⟩, rfl, by decide +kernel⟩
    · simp
  exact (late_frames_taken (Connection.withSettings_plain .client) calls (by decide +kernel) (by decide +kernel)
    (by decide +kernel) (by decide +kernel) 1 (.inl (by decide +kernel)) [] us legal).2
    ⟨⟨by decide +kernel, by decide +kernel, by decide +kernel, ⟨requestHead, by decide +kernel⟩⟩, trivial, trivial⟩

end Turnloop.Http2
