import Turnloop.Http2.Histories
import Turnloop.Http2.Offers

/-! The DATA sent is what the peer allows. -/

namespace Turnloop.Http2

open Lib List

section

variable {α β : Type} {w : β → ℕ}

lemma total_filter (h : ∀ b, p b = false → w b = 0) (l : List β) : total w (l.filter p) = total w l := by
  induction l with
  | nil => rfl
  | cons b l ih =>
    cases hb : p b with
    | true => rw [filter_cons_of_pos hb, total_cons, total_cons, ih]
    | false => rw [filter_cons_of_neg (by simp [hb]), total_cons, h b hb, ih, Nat.zero_add]

lemma total_flatMap (g : α → List β) (l : List α) : total w (l.flatMap g) = total (fun a => total w (g a)) l := by
  induction l with
  | nil => rfl
  | cons a l ih => rw [flatMap_cons, total_append, total_cons, ih]

lemma total_le_of_sublist (h : l.Sublist l') : total w l ≤ total w l' :=
  List.Sublist.sum_le_sum (h.map w) (fun _ _ => Nat.zero_le _)

lemma total_congr (h : ∀ b, v b = w b) (l : List β) : total v l = total w l := by rw [funext h]

end

def Frame.dataLength (f : Frame) : ℕ := if f.kind = 0 then f.payload.length else 0

def Frame.dataOn (id : ℕ) (f : Frame) : ℕ := if f.stream = id then f.dataLength else 0

def Frame.increment (id : ℕ) (f : Frame) : ℕ := if f.kind = 8 ∧ f.stream = id then u32be f.payload % 2 ^ 31 else 0

def Frame.settings (f : Frame) : List (UInt16 × UInt32) :=
  if f.kind = 4 ∧ !f.ACK then SettingsFrame.iter f.payload else []

def inForce (id : UInt16) (default : ℕ) (frames : List Frame) : ℕ :=
  (frames.flatMap Frame.settings).foldl (fun v e => if e.1 = id then e.2.toNat else v) default

def initialWindow (heard : List Frame) : ℕ := inForce Settings.INITIAL_WINDOW_SIZE 65535 heard

def maxFrameSize (heard : List Frame) : ℕ := inForce Settings.MAX_FRAME_SIZE 16384 heard

namespace Frame

lemma spoken_sentAll (f : Frame) : total Label.sentAll f.spoken = f.dataLength := by
  unfold spoken dataLength
  split_ifs <;> simp [Label.sentAll]

lemma spoken_sentOn (id : ℕ) (f : Frame) : total (Label.sentOn id) f.spoken = f.dataOn id := by
  unfold spoken dataOn dataLength
  split_ifs <;> simp_all [Label.sentOn]

lemma tellsSetting_grewOn {id : ℕ} (e : UInt16 × UInt32) : total (Label.grewOn id) (tellsSetting e) = 0 := by
  unfold tellsSetting
  split_ifs <;> rfl

lemma total_zero {α : Type} (l : List α) : total (fun _ => 0) l = 0 := by
  induction l with
  | nil => rfl
  | cons a l ih => rw [total_cons, ih]

lemma tells_grewOn {id : ℕ} (f : Frame) : total (Label.grewOn id) f.tells = f.increment id := by
  have hn : total (Label.grewOn id) ((SettingsFrame.iter f.payload).flatMap tellsSetting) = 0 := by
    rw [total_flatMap, total_congr tellsSetting_grewOn, total_zero]
  unfold tells increment
  split_ifs with h₀ h₁ h₂ h₃ h₄ h₅ <;> simp_all [Label.grewOn]

end Frame

def Label.value (id : UInt16) : Label → Option ℕ
  | .initial v => if id = Settings.INITIAL_WINDOW_SIZE then some v else none
  | .frameSize v => if id = Settings.MAX_FRAME_SIZE then some v else none
  | _ => none

def lastValue (id : UInt16) (default : ℕ) (ls : List Label) : ℕ := ls.foldl (fun v l => (l.value id).getD v) default

lemma lastValue_append (id : UInt16) (d : ℕ) (ls ms : List Label) :
    lastValue id d (ls ++ ms) = lastValue id (lastValue id d ls) ms := foldl_append

lemma lastValue_exact (id : UInt16) (d : ℕ) (ls : List Label) :
    lastValue id d (ls.filter Label.exact) = lastValue id d ls := by
  unfold lastValue
  rw [foldl_filter]
  congr 1
  funext v l
  cases l <;> simp [Label.exact, Label.value]

lemma lastValue_tellsSetting {id : UInt16}
    (h : id = Settings.INITIAL_WINDOW_SIZE ∨ id = Settings.MAX_FRAME_SIZE) (v : ℕ)
    (e : UInt16 × UInt32) : lastValue id v (tellsSetting e) = if e.1 = id then e.2.toNat else v := by
  have hn : Settings.INITIAL_WINDOW_SIZE ≠ Settings.MAX_FRAME_SIZE := by decide
  unfold tellsSetting lastValue
  rcases h with rfl | rfl
  · split_ifs with h₁ h₂ <;> simp_all [Label.value]
  · split_ifs with h₁ h₂ <;> simp_all [Label.value, hn.symm]

lemma lastValue_tells {id : UInt16} (h : id = Settings.INITIAL_WINDOW_SIZE ∨ id = Settings.MAX_FRAME_SIZE)
    (v : ℕ) (f : Frame) :
    lastValue id v f.tells = f.settings.foldl (fun v e => if e.1 = id then e.2.toNat else v) v := by
  have he : ∀ entries : List (UInt16 × UInt32),
      lastValue id v (entries.flatMap tellsSetting) =
        entries.foldl (fun v e => if e.1 = id then e.2.toNat else v) v := by
    intro entries
    induction entries generalizing v with
    | nil => rfl
    | cons e rest ih => rw [flatMap_cons, lastValue_append, lastValue_tellsSetting h, foldl_cons, ih]
  unfold Frame.tells Frame.settings
  split_ifs with h₀ h₁ h₂ h₃ h₄ h₅ <;> simp_all [lastValue, Label.value]

lemma lastValue_heard {id : UInt16} (h : id = Settings.INITIAL_WINDOW_SIZE ∨ id = Settings.MAX_FRAME_SIZE) (d : ℕ)
    (heard : List Frame) :
    lastValue id d (heard.flatMap Frame.tells) = inForce id d heard := by
  induction heard generalizing d with
  | nil => rfl
  | cons f heard ih =>
    rw [flatMap_cons, lastValue_append, lastValue_tells h, ih, inForce, inForce, flatMap_cons, foldl_append]

namespace Flow

variable {F G : Flow} {ls ms : List Label}

structure Informed (ls : List Label) (F : Flow) : Prop where
  initial : F.initialSend = lastValue Settings.INITIAL_WINDOW_SIZE 65535 ls
  frame : F.peerFrame = lastValue Settings.MAX_FRAME_SIZE 16384 ls

namespace Informed

lemma keep (h : Informed ls F) (hi : G.initialSend = F.initialSend) (hp : G.peerFrame = F.peerFrame)
    (ha : ∀ id, ∀ l ∈ ms, l.value id = none) : Informed (ls ++ ms) G := by
  have hn : ∀ id d, lastValue id d ms = d := by
    intro id d
    refine foldlRecOn (motive := fun v => v = d) ms _ rfl (fun v hv l hl => ?_)
    rw [ha id l hl]
    exact hv
  exact ⟨by rw [hi, lastValue_append, hn]; exact h.initial, by rw [hp, lastValue_append, hn]; exact h.frame⟩

lemma step (h : Informed ls F) (hs : Step F ms G) : Informed (ls ++ ms) G := by
  cases hs with
  | initial => exact ⟨by rw [lastValue_append]; rfl, by rw [lastValue_append]; exact h.frame⟩
  | frameSize => exact ⟨by rw [lastValue_append]; exact h.initial, by rw [lastValue_append]; rfl⟩
  | discarded id | released =>
    refine h.keep rfl rfl fun id l hl => ?_
    split_ifs at hl <;> simp at hl <;> rcases hl with rfl | rfl <;> rfl
  | _ => exact h.keep rfl rfl fun id l hl => by simp at hl <;> simp [hl, Label.value]

end Informed

lemma Step.sent {id : ℕ} (h : Step F [.sent id n] G) :
    F.failed = false ∧ n ≤ F.peerFrame ∧ ∃ a, (id, a) ∈ F.streams ∧ n ≤ a.send.toNat := by
  cases h with
  | data n live entry frame conn stream => exact ⟨live, frame, _, Tidy.here entry, stream⟩

end Flow

namespace History

variable {K : Codec} {c₀ : Connection K} {h : History K} {ls : List Label}

namespace Traced

variable (t : Traced c₀ h ls)
include t

lemma sentAll : total Label.sentAll ls = total Frame.dataLength h.conn.output := by
  rw [← total_filter (p := Label.said) (by rintro (_ | _) <;> simp [Label.said, Label.sentAll]), t.said, total_flatMap,
    total_congr Frame.spoken_sentAll]

lemma sentOn (id : ℕ) : total (Label.sentOn id) ls = total (Frame.dataOn id) h.conn.output := by
  rw [← total_filter (p := Label.said) (by rintro (_ | _) <;> simp [Label.said, Label.sentOn]), t.said, total_flatMap,
    total_congr (Frame.spoken_sentOn id)]

lemma grewOn_le (id : ℕ) : total (Label.grewOn id) ls ≤ total (Frame.increment id) h.heard := by
  rw [← total_filter (p := fun l => !l.said) (by rintro (_ | _) <;> simp [Label.said, Label.grewOn])]
  refine (total_le_of_sublist t.heard).trans_eq ?_
  rw [total_flatMap, total_congr Frame.tells_grewOn]

lemma value (hl : h.conn.failed = false) {id : UInt16}
    (hi : id = Settings.INITIAL_WINDOW_SIZE ∨ id = Settings.MAX_FRAME_SIZE) (d : ℕ) :
    lastValue id d ls = inForce id d h.heard := by
  rw [← lastValue_exact, t.exact hl, lastValue_exact, lastValue_heard hi]

end Traced

lemma start_informed (role : Role) (limits : Limits) :
    (Connection.start role limits : Connection K).flow.Informed [] := ⟨rfl, rfl⟩

lemma start_agreed (role : Role) (limits : Limits) :
    (Connection.start role limits : Connection K).flow.Agreed (limits, 65535) [] where
  count := le_rfl
  pending := rfl
  acked := rfl
  enforced := rfl
  valid _ he := absurd he not_mem_nil

end History

variable {K : Codec} {role : Role} {limits : Limits} {settings : Settings} {c : Connection K}

def Connection.Windowed (c : Connection K) : Prop :=
  c.sendWindow ≤ Flow.MAX ∧ c.recvWindow ≤ Flow.MAX ∧ c.initialSend ≤ Flow.MAX ∧ c.recvInitial ≤ Flow.MAX ∧
    ∀ s ∈ c.streams, s.sendWindow ≤ Flow.MAX ∧ s.recvWindow ≤ Flow.MAX

lemma windowed (new : Connection.withSettings role limits settings = .ok c) {calls : List Call} :
    (History.run c calls).conn.Windowed := by
  obtain ⟨_, t⟩ := History.traced new calls
  have he := t.path.rule Flow.Sending.step (History.start_sending role limits)
  have hr := t.path.rule Flow.Receiving.step (History.start_receiving role limits)
  have ha := t.path.rule Flow.Agreed.step (History.start_agreed role limits)
  have hf := (History.living new calls).full
  have hi := ha.recvInitial_le (show (65535 : ℤ) ≤ Flow.MAX by decide)
  have hw := hf.window
  refine ⟨he.cap, ?_, he.initial, hi, fun s hs => ?_⟩
  · have hc : (History.run c calls).conn.recvWindow = (History.run c calls).conn.flow.recv := rfl
    rw [hc, Flow.MAX]
    omega
  · have hm : s.entry ∈ (History.run c calls).conn.flow.streams := List.mem_map_of_mem hs
    have hb : s.recvWindow + s.unreleased ≤ (History.run c calls).conn.flow.recvInitial := hr.bound _ hm
    refine ⟨he.caps _ hm, ?_⟩
    omega

theorem data_within_windows (new : Connection.withSettings role limits settings = .ok c) (calls : List Call) :
    let h := History.run c calls
    total Frame.dataLength h.conn.output ≤ 65535 + total (Frame.increment 0) h.heard ∧
    h.conn.Windowed ∧
    ∀ call : Call, ∀ f ∈ (call.exec h.conn).output.drop h.conn.output.length, f.kind = 0 →
      f.payload.length ≤ maxFrameSize h.heard ∧
      (f.payload ≠ [] → total (Frame.dataOn f.stream) (call.exec h.conn).output ≤
        initialWindow h.heard + total (Frame.increment f.stream) h.heard) := by
  obtain ⟨_, t⟩ := History.traced new calls
  have he := t.path.rule Flow.Sending.step (History.start_sending role limits)
  have hi := t.path.rule Flow.Informed.step (History.start_informed role limits)
  rw [List.nil_append] at he hi
  refine ⟨?_, windowed new, fun call f hf hk => ?_⟩
  · have hc := he.conn
    have hl := he.floor
    have hg := t.grewOn_le 0
    rw [t.sentAll] at hc
    omega
  · -- only `send_data` writes DATA, and it writes one frame
    rcases ((History.living new calls).went call).flow with ⟨_, hears, -, -⟩ | ⟨-, _, _, ho, hp, -, -⟩
    · obtain ⟨_, _, -, -, ho, -, -, -, hn⟩ := hears
      rw [ho, List.drop_left] at hf
      have hd := List.all_eq_true.mp hn f hf
      simp [hk] at hd
    · rw [ho, List.drop_left, List.mem_singleton] at hf
      subst hf
      obtain ⟨live, frame, a, hm, stream⟩ := hp.sent
      have hr : (f.payload.length : ℤ) ≤ maxFrameSize (History.run c calls).heard := by
        rw [maxFrameSize, ← t.value live (.inr rfl), ← hi.frame]
        exact Int.ofNat_le.mpr frame
      refine ⟨by omega, fun hb => ?_⟩
      have hq : 0 < f.payload.length := List.length_pos_iff.mpr hb
      have hw := he.stream live _ hm
      have hg := t.grewOn_le f.stream
      rw [hi.initial, t.value live (.inl rfl), ← initialWindow, t.sentOn] at hw
      dsimp only at hw
      have hs : Frame.dataOn f.stream f = f.payload.length := by simp [Frame.dataOn, Frame.dataLength, hk]
      rw [ho, total_append, total_cons, total_nil, hs]
      omega

theorem data_within_windows_post :
    let h := History.run (Connection.plain .client : Connection .hpack)
      [.receive (Frame.encode ⟨4, 0, 0, []⟩), .openStream requestHead false]
    total Frame.dataLength ((Call.sendData 1 [104, 105] true).exec h.conn).output = 2 ∧
    2 ≤ initialWindow h.heard + total (Frame.increment 1) h.heard := by
  refine ⟨by decide +kernel, ?_⟩
  have hw := (data_within_windows (K := .hpack) (Connection.withSettings_plain .client)
    [.receive (Frame.encode ⟨4, 0, 0, []⟩), .openStream requestHead false]).2.2 (.sendData 1 [104, 105] true)
    ⟨0, 1, 1, [104, 105]⟩ (by decide +kernel) rfl
  have he : total (Frame.dataOn 1) ((Call.sendData 1 [104, 105] true).exec
      (History.run (Connection.plain .client : Connection .hpack)
        [.receive (Frame.encode ⟨4, 0, 0, []⟩), .openStream requestHead false]).conn).output = 2 := by decide +kernel
  exact he ▸ hw.2 (by decide)

end Turnloop.Http2
