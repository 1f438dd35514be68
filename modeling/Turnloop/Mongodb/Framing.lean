import Turnloop.Mongodb.Connection

/-! Frames of the wire protocol: the host feeds the decoder what it has not taken, and takes each whole frame. -/

namespace Turnloop.Mongodb.Decoder

open List

def feed (d : Decoder) (input : Bytes) : Except Error ℕ × Decoder :=
  match d.target with
  | .error e => (.error e, d)
  | .ok target =>
    if target > d.max then (.error tooLong, d)
    else
      let n := min input.length (target - d.bytes.length)
      match (d.extended input n).checkLength with
      | .error e => (.error e, d.extended input n)
      | .ok _ => (.ok n, d.extended input n)

def clear (d : Decoder) : Decoder := { d with bytes := [] }

/-- The host on one piece: the frames it takes, and the first error. -/
def pump (d : Decoder) (input : Bytes) : List Bytes × Decoder × Option Error :=
  match d.feed input with
  | (.error e, d) => ([], d, some e)
  | (.ok n, d) =>
    let frame := if d.complete then [d.bytes] else []
    let d := if d.complete then d.clear else d
    if _ : 0 < n ∧ n < input.length then (d.pump (input.drop n)).map (frame ++ ·) id else (frame, d, none)
termination_by input.length
decreasing_by simp; omega

def pumpAll (d : Decoder) : List Bytes → List Bytes × Decoder × Option Error
  | [] => ([], d, none)
  | piece :: pieces =>
    match d.pump piece with
    | (frames, d, none) => (d.pumpAll pieces).map (frames ++ ·) id
    | stopped => stopped

/-- The length a frame declares. -/
def declared (bytes : Bytes) : Except Error ℕ := Wire.length bytes 0 16

structure Framed (M : ℕ) (frame : Bytes) : Prop where
  own : Wire.i32At frame 0 = .ok frame.length
  least : 16 ≤ frame.length
  most : frame.length ≤ M

/-- An unfinished frame: its length is not known yet, or admits more bytes. -/
def Pending (M : ℕ) (bytes : Bytes) : Prop := bytes.length < 4 ∨ ∃ m, declared bytes = .ok m ∧ bytes.length < m ∧ m ≤ M

/-- The length that begins `bytes` is invalid or too large. -/
def Refused (M : ℕ) (bytes : Bytes) : Prop := 4 ≤ bytes.length ∧ ∀ m, declared bytes = .ok m → M < m

inductive Reached (M : ℕ) : Decoder → Prop
  | new : Reached M ⟨[], M⟩
  | feed (input : Bytes) : Reached M d → Reached M (d.feed input).2
  | clear : Reached M d → Reached M d.clear

lemma i32At_append (h : 4 ≤ b.length) (x : Bytes) : Wire.i32At (b ++ x) 0 = Wire.i32At b 0 := by
  match b, h with
  | _ :: _ :: _ :: _ :: _, _ => rfl

lemma declared_append (h : 4 ≤ b.length) (x : Bytes) : declared (b ++ x) = declared b := by
  simp only [declared, Wire.length, i32At_append h]

lemma Framed.declared_eq (h : Framed M f) : declared f = .ok f.length := by
  have := h.least
  simp [declared, Wire.length, h.own]
  omega

lemma Framed.complete (h : Framed M f) : complete ⟨f, M⟩ = true := by
  have := h.least
  simp [Decoder.complete, h.own]
  omega

lemma Pending.complete (h : Pending M b) : complete ⟨b, M⟩ = false := by
  rcases h with h4 | ⟨m, hm, hlt, -⟩
  · simp [Decoder.complete, h4]
  · unfold declared Wire.length at hm
    cases hn : Wire.i32At b 0 with
    | error => simp [hn] at hm
    | ok n =>
      simp only [hn] at hm
      split_ifs at hm
      cases hm
      simp [Decoder.complete, hn]
      omega

lemma Pending.not_refused (h : Pending M b) : ¬ Refused M b := by
  rintro ⟨h4, hbad⟩
  obtain ⟨m, hm, -, hle⟩ := h.resolve_left (by omega)
  exact absurd (hbad m hm) (by omega)

/-- What an unfinished frame waits for. -/
lemma Pending.target (hM : 4 ≤ M) (h : Pending M b) :
    ∃ t, target ⟨b, M⟩ = .ok t ∧ b.length < t ∧ t ≤ M ∧ (4 ≤ b.length ∨ t = 4) ∧
    (4 ≤ b.length → declared b = .ok t) := by
  by_cases h4 : b.length < 4
  · exact ⟨4, by simp [Decoder.target, h4], h4, hM, .inr rfl, by omega⟩
  · obtain ⟨m, hm, hlt, hle⟩ := h.resolve_left h4
    exact ⟨m, by rw [Decoder.target, if_neg h4]; exact hm, hlt, hle, .inl (by omega), fun _ => hm⟩

section
variable {x : Bytes} (ht : target ⟨b, M⟩ = .ok t) (hM : t ≤ M) (hn : n = min x.length (t - b.length))
    (hc : c = b ++ x.take n)
include ht hM hn hc

lemma feed_ok (h : Pending M c ∨ Framed M c) : feed ⟨b, M⟩ x = (.ok n, ⟨c, M⟩) := by
  subst hc
  have hcheck : checkLength ⟨b ++ x.take n, M⟩ = .ok () := by
    unfold checkLength
    split_ifs with h4
    · rfl
    · obtain ⟨m, hm, hle⟩ : ∃ m, declared (b ++ x.take n) = .ok m ∧ m ≤ M := by
        rcases h with h | h
        · obtain ⟨m, hm, -, hle⟩ := h.resolve_left h4
          exact ⟨m, hm, hle⟩
        · exact ⟨_, h.declared_eq, h.most⟩
      rw [declared] at hm
      simp [hm, hle]
  simp [feed, ht, not_lt.mpr hM, ← hn, extended, hcheck]

lemma feed_error (h : Refused M c) : ∃ e, feed ⟨b, M⟩ x = (.error e, ⟨c, M⟩) := by
  subst hc
  obtain ⟨e, he⟩ : ∃ e, checkLength ⟨b ++ x.take n, M⟩ = .error e := by
    unfold checkLength
    rw [if_neg (not_lt.mpr h.1)]
    split
    · exact ⟨_, rfl⟩
    · next m hm => exact ⟨_, by rw [if_pos (h.2 m hm)]⟩
  exact ⟨e, by simp [feed, ht, not_lt.mpr hM, ← hn, extended, he]⟩

end

/-- One call in the middle of the stream: the frame stays unfinished, or is whole, or its length is refused. -/
lemma feed_step (hM : 4 ≤ M) (hb : Pending M b) (hf : ∀ f ∈ frames, Framed M f) (hp : Pending M p ∨ Refused M p)
    (h : b ++ x ++ z = frames.flatten ++ p) :
    ∃ n ≤ x.length, (x ≠ [] → 0 < n) ∧
      (feed ⟨b, M⟩ x = (.ok n, ⟨b ++ x.take n, M⟩) ∧
        (Pending M (b ++ x.take n) ∨ ∃ fs, frames = (b ++ x.take n) :: fs) ∨
        frames = [] ∧ Refused M p ∧ ∃ e, feed ⟨b, M⟩ x = (.error e, ⟨p.take 4, M⟩)) := by
  obtain ⟨t, ht, hlt, hle, hfour, hknown⟩ := hb.target hM
  obtain ⟨n, hn⟩ : ∃ n, n = min x.length (t - b.length) := ⟨_, rfl⟩
  have hpos : x ≠ [] → 0 < n := by
    intro hx
    have := length_pos_of_ne_nil hx
    omega
  refine ⟨n, by omega, hpos, ?_⟩
  obtain ⟨c, hc⟩ : ∃ c, c = b ++ x.take n := ⟨_, rfl⟩
  have hlen : c.length ≤ t := by
    simp [hc]
    omega
  have hrest : c ++ (x.drop n ++ z) = frames.flatten ++ p := by
    rw [hc, ← h]
    simp [← append_assoc (x.take n)]
  rw [← hc]
  have waits (hpend : Pending M c) : feed ⟨b, M⟩ x = (.ok n, ⟨c, M⟩) ∧ (Pending M c ∨ ∃ fs, frames = c :: fs) :=
    ⟨feed_ok ht hle hn hc (.inl hpend), .inl hpend⟩
  by_cases h4 : c.length < 4
  · exact .inl (waits (.inl h4))
  replace h4 : 4 ≤ c.length := by omega
  have hword : 4 ≤ b.length → declared (frames.flatten ++ p) = .ok t := by
    intro hb4
    rw [← hrest, declared_append h4, hc, declared_append hb4, hknown hb4]
  cases frames with
  | nil =>
    obtain rfl : c ++ (x.drop n ++ z) = p := hrest
    rw [flatten_nil, nil_append, declared_append h4] at hword
    rcases hp with hp | hp
    · obtain ⟨m, hm, hpm, hmM⟩ := hp.resolve_left (by simp; omega)
      rw [declared_append h4] at hm
      rw [length_append] at hpm
      exact .inl (waits (.inr ⟨m, hm, by omega, hmM⟩))
    · have hbad : Refused M c := ⟨h4, fun m hm => hp.2 m (by rw [declared_append h4, hm])⟩
      rcases hfour with hb4 | rfl
      · exact absurd (hbad.2 t (hword hb4)) (by omega)
      · obtain ⟨e, he⟩ := feed_error ht hle hn hc hbad
        exact .inr ⟨rfl, hp, e, by rw [he, take_append_of_le_length h4, take_of_length_le hlen]⟩
  | cons f fs =>
    rw [forall_mem_cons] at hf
    have := hf.1.least
    rw [flatten_cons, append_assoc] at hrest hword
    rw [declared_append (by omega), hf.1.declared_eq] at hword
    have hcf : c.length ≤ f.length := by
      rcases hfour with hb4 | rfl
      · obtain rfl := Except.ok.inj (hword hb4)
        exact hlen
      · omega
    obtain ⟨w, rfl⟩ : c <+: f := prefix_of_prefix_length_le ⟨_, hrest⟩ ⟨_, rfl⟩ hcf
    cases w with
    | nil =>
      rw [append_nil] at hf ⊢
      exact .inl ⟨feed_ok ht hle hn hc (.inr hf.1), .inr ⟨fs, rfl⟩⟩
    | cons => exact .inl (waits (.inr ⟨_, by rw [← hf.1.declared_eq, declared_append h4], by simp, hf.1.most⟩))

/-- The host on one piece, `z` to come: it takes whole frames and keeps the unfinished one, or stops at a refused
length. -/
lemma pump_stream (hM : 4 ≤ M) (x b p z : Bytes) {frames : List Bytes} (hb : Pending M b)
    (hf : ∀ f ∈ frames, Framed M f)
    (hp : Pending M p ∨ Refused M p) (h : b ++ x ++ z = frames.flatten ++ p) :
    (∃ done left q, frames = done ++ left ∧ pump ⟨b, M⟩ x = (done, ⟨q, M⟩, none) ∧ Pending M q ∧
      q ++ z = left.flatten ++ p) ∨
      Refused M p ∧ ∃ e, pump ⟨b, M⟩ x = (frames, ⟨p.take 4, M⟩, some e) := by
  obtain ⟨n, hn, hpos, ⟨hfeed, hc⟩ | ⟨rfl, hbad, e, he⟩⟩ := feed_step hM hb hf hp h
  · have hrest : b ++ x.take n ++ (x.drop n ++ z) = frames.flatten ++ p := by
      rw [← h]
      simp [← append_assoc (x.take n)]
    -- what the call leaves in the buffer, and the frames still to come
    obtain ⟨frame, q, left, rfl, hdone, hq, hkept, hleft⟩ : ∃ frame q left, frames = frame ++ left ∧
        (if complete ⟨b ++ x.take n, M⟩ then [b ++ x.take n] else []) = frame ∧ Pending M q ∧
        (if complete ⟨b ++ x.take n, M⟩ then clear ⟨b ++ x.take n, M⟩ else ⟨b ++ x.take n, M⟩) = ⟨q, M⟩ ∧
        q ++ x.drop n ++ z = left.flatten ++ p := by
      rcases hc with hc | ⟨fs, rfl⟩
      · exact ⟨[], _, frames, rfl, by simp [hc.complete], hc, by simp [hc.complete], by rw [append_assoc, hrest]⟩
      · have := (hf _ mem_cons_self).complete
        exact ⟨[_], [], fs, rfl, by simp [this], .inl (by simp), by simp [this, clear], by simpa using hrest⟩
    rw [pump, hfeed]
    simp only [hdone, hkept]
    split_ifs with hmore
    · have := hmore.1
      rcases pump_stream hM (x.drop n) q p z hq (fun f hf' => hf f (by simp [hf'])) hp hleft with
        ⟨done, left, q', rfl, hpump, hq', hleft'⟩ | ⟨hbad, e, hpump⟩
      · exact .inl ⟨frame ++ done, left, q', by simp, by simp [hpump], hq', hleft'⟩
      · exact .inr ⟨hbad, e, by simp [hpump]⟩
    · have hall : x.drop n = [] := by
        rw [drop_eq_nil_iff]
        by_cases hx : x = []
        · simp [hx]
        · have := hpos hx
          omega
      exact .inl ⟨frame, left, q, rfl, rfl, hq, by simpa [hall] using hleft⟩
  · exact .inr ⟨hbad, e, by rw [pump, he]⟩
termination_by x.length
decreasing_by simp; omega

lemma pumpAll_stream (hM : 4 ≤ M) {pieces : List Bytes} (hb : Pending M b) (hf : ∀ f ∈ frames, Framed M f)
    (hp : Pending M p ∨ Refused M p) (h : b ++ pieces.flatten = frames.flatten ++ p) :
    Pending M p ∧ pumpAll ⟨b, M⟩ pieces = (frames, ⟨p, M⟩, none) ∨
      Refused M p ∧ ∃ e, pumpAll ⟨b, M⟩ pieces = (frames, ⟨p.take 4, M⟩, some e) := by
  induction pieces generalizing b frames with
  | nil =>
    rw [flatten_nil, append_nil] at h
    subst h
    cases frames with
    | nil => exact .inl ⟨hb, rfl⟩
    | cons f fs =>
      -- an unfinished frame does not contain a whole one
      have hfirst := hf f mem_cons_self
      have := hfirst.least
      rw [flatten_cons, append_assoc] at hb
      obtain ⟨m, hm, hlt, -⟩ := hb.resolve_left (by simp; omega)
      rw [declared_append (by omega), hfirst.declared_eq] at hm
      cases hm
      simp at hlt
  | cons x pieces ih =>
    rcases pump_stream hM x b p pieces.flatten hb hf hp (by simpa using h) with
      ⟨done, left, q, rfl, hpump, hq, hleft⟩ | ⟨hbad, e, hpump⟩
    · simp only [pumpAll, hpump]
      rcases ih hq (fun f hf' => hf f (by simp [hf'])) hleft with ⟨hp, hall⟩ | ⟨hbad, e, hall⟩
      · exact .inl ⟨hp, by simp [hall]⟩
      · exact .inr ⟨hbad, e, by simp [hall]⟩
    · exact .inr ⟨hbad, e, by simp [pumpAll, hpump]⟩

/-- A limit below four bytes refuses every call. -/
lemma pumpAll_tiny (hM : M < 4) (hne : pieces ≠ []) : ∃ e, pumpAll ⟨[], M⟩ pieces = ([], ⟨[], M⟩, some e) := by
  obtain ⟨x, pieces, rfl⟩ := exists_cons_of_ne_nil hne
  exact ⟨_, by simp [pumpAll, pump, feed, target, hM]; rfl⟩

lemma Reached.bounded (h : Reached M d) : d.max = M ∧ d.bytes.length ≤ M := by
  induction h with
  | new => simp
  | clear _ ih => exact ⟨ih.1, by simp [Decoder.clear]⟩
  | @feed d input _ ih =>
    obtain ⟨rfl, ih⟩ := ih
    unfold Decoder.feed
    split
    · exact ⟨rfl, ih⟩
    · next target _ =>
      split_ifs with hmax
      · exact ⟨rfl, ih⟩
      · have hlen : (d.extended input (min input.length (target - d.bytes.length))).bytes.length ≤ d.max := by
          simp [extended]
          omega
        dsimp only
        split <;> exact ⟨rfl, hlen⟩

theorem reassembles (M : ℕ) (frames pieces : List Bytes) (p : Bytes) (hf : ∀ f ∈ frames, Framed M f)
    (h : pieces.flatten = frames.flatten ++ p) :
    (p = [] → (pumpAll ⟨[], M⟩ pieces).1 = frames) ∧
      (4 ≤ M → Pending M p → pumpAll ⟨[], M⟩ pieces = (frames, ⟨p, M⟩, none)) ∧
      (Refused M p → ∃ d e, pumpAll ⟨[], M⟩ pieces = (frames, d, some e) ∧ d.bytes.length ≤ 4) ∧
      ∀ d, Reached M d → d.bytes.length ≤ M := by
  have hnew : Pending M [] := .inl (by simp)
  have hpending : 4 ≤ M → Pending M p → pumpAll ⟨[], M⟩ pieces = (frames, ⟨p, M⟩, none) := by
    intro hM hp
    rcases pumpAll_stream hM hnew hf (.inl hp) h with ⟨-, hall⟩ | ⟨hbad, -⟩
    · exact hall
    · exact absurd hbad hp.not_refused
  have htiny : M < 4 → frames = [] := by
    intro hM
    refine eq_nil_iff_forall_not_mem.mpr fun f hmem => ?_
    have := (hf f hmem).least
    have := (hf f hmem).most
    omega
  refine ⟨?_, hpending, ?_, fun d hd => hd.bounded.2⟩
  · rintro rfl
    rcases Nat.lt_or_ge M 4 with hM | hM
    · rw [htiny hM]
      rcases eq_or_ne pieces [] with rfl | hne
      · rfl
      · obtain ⟨e, he⟩ := pumpAll_tiny hM hne
        rw [he]
    · rw [hpending hM hnew]
  · intro hbad
    rcases Nat.lt_or_ge M 4 with hM | hM
    · have hne : pieces ≠ [] := by
        rintro rfl
        have := hbad.1
        simp_all
      obtain ⟨e, he⟩ := pumpAll_tiny hM hne
      exact ⟨_, e, by rw [he, htiny hM], by simp⟩
    · rcases pumpAll_stream hM hnew hf (.inr hbad) h with ⟨hp, -⟩ | ⟨-, e, hall⟩
      · exact absurd hbad hp.not_refused
      · exact ⟨_, e, hall, by simp⟩

theorem reassembles_split :
    let frame : Bytes := 16 :: 0 :: 0 :: 0 :: replicate 12 5
    (pumpAll ⟨[], 16⟩ [frame.take 2, frame.drop 2]).1 = [frame] ∧
      pumpAll ⟨[], 16⟩ [frame.take 2, frame.drop 2 ++ [7, 0]] = ([frame], ⟨[7, 0], 16⟩, none) ∧
      (∃ d e, pumpAll ⟨[], 16⟩ [frame.take 2, frame.drop 2 ++ [7, 0], [0, 0, 9]] = ([frame], d, some e) ∧
        d.bytes.length ≤ 4) ∧
      (feed ⟨[], 16⟩ frame).2.bytes.length ≤ 16 := by
  intro frame
  have hf : ∀ f ∈ [frame], Framed 16 f := forall_mem_singleton.mpr ⟨by simp [frame, Wire.i32At], by decide, by decide⟩
  refine ⟨(reassembles 16 [frame] _ [] hf rfl).1 rfl,
    (reassembles 16 [frame] _ [7, 0] hf rfl).2.1 (by decide) (.inl (by decide)),
    (reassembles 16 [frame] _ [7, 0, 0, 0, 9] hf rfl).2.2.1 ⟨by decide, fun m hm => ?_⟩,
    (reassembles 16 [] [] [] (by simp) rfl).2.2.2 _ (.feed frame .new)⟩
  simp [declared, Wire.length, Wire.i32At] at hm

end Turnloop.Mongodb.Decoder
