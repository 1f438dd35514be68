import Turnloop.Http2.Windows

/-! Receive credit over whole histories. -/

namespace Turnloop.Http2

open Lib Lib.Program List Multiset

def Frame.credit (id : ℕ) (f : Frame) : ℕ := if f.kind = 8 ∧ f.stream = id then u32be f.payload else 0

namespace Frame

lemma spoken_creditedOn (id : ℕ) (f : Frame) : total (Label.creditedOn id) f.spoken = f.credit id := by
  unfold spoken credit
  split_ifs <;> simp_all [Label.creditedOn]

lemma tells_gotAll (f : Frame) : total Label.gotAll f.tells = f.dataLength := by
  have he : ∀ e, total Label.gotAll (tellsSetting e) = 0 := by
    intro e
    unfold tellsSetting
    split_ifs <;> rfl
  have hn : total Label.gotAll ((SettingsFrame.iter f.payload).flatMap tellsSetting) = 0 := by
    rw [total_flatMap, total_congr he, total_zero]
  unfold tells dataLength
  split_ifs <;> simp_all [Label.gotAll]

end Frame

namespace History.Traced

variable {K : Codec} {c₀ : Connection K} {h : History K} {ls : List Label}

lemma creditedOn (t : Traced c₀ h ls) (id : ℕ) :
    total (Label.creditedOn id) ls = total (Frame.credit id) h.conn.output := by
  rw [← total_filter (p := Label.said) (by rintro (_ | _) <;> simp [Label.said, Label.creditedOn]),
    t.said, total_flatMap,
    total_congr (Frame.spoken_creditedOn id)]

lemma gotAll (t : Traced c₀ h ls) (live : h.conn.failed = false) :
    total Label.gotAll ls = total Frame.dataLength h.heard := by
  have he : ∀ l : Label, l.exact = false → l.gotAll = 0 := by rintro (_ | _) <;> simp [Label.exact, Label.gotAll]
  rw [← total_filter he, t.exact live, total_filter he, total_flatMap, total_congr Frame.tells_gotAll]

end History.Traced

namespace Life

def Repaid (L : Life) : Prop := ∀ p ∈ L.streams, p.2.credited = true → p.2.remoteEnd = true ∧ p.2.unreleased = 0

variable {L L' : Life} {ls : List Label}

lemma Repaid.set (h : L.Repaid) {id : ℕ} (entry : L.streams = (id, a) ::ₘ rest)
    (hb : b.credited = true → b.remoteEnd = true ∧ b.unreleased = 0) :
    Repaid { L with streams := (id, b) ::ₘ rest } := by
  intro p hp
  rcases mem_cons.mp hp with rfl | hp
  · exact hb
  · exact h p (entry ▸ mem_cons_of_mem hp)

lemma Repaid.step (h : L.Repaid) (hs : Step L ls L') : L'.Repaid := by
  cases hs with
  | @touched id a rest b entry same credited held =>
    refine h.set entry fun hb => ?_
    obtain ⟨he, hn⟩ := h _ (Tidy.here entry) (credited ▸ hb)
    exact ⟨same.trans he, Nat.le_zero.mp (hn ▸ held he)⟩
  | recycled entry | removed l entry => exact fun p hp => h p (entry ▸ Multiset.mem_cons_of_mem hp)
  | reserved | accepted =>
    intro p hp
    rcases Multiset.mem_cons.mp hp with rfl | hp
    · exact nofun
    · exact h p hp
  | delivered e entry still delivers credited =>
    refine h.set entry fun hb => ?_
    cases still.symm.trans (h _ (Tidy.here entry) (credited ▸ hb)).1
  | peerReset code entry => exact h.set entry fun _ => ⟨rfl, rfl⟩
  | terminal entry => exact h.set entry fun hb => ⟨rfl, (h _ (Tidy.here entry) hb).2⟩
  | _ => exact h

end Life

namespace Connection

variable {K : Codec} {c : Connection K} {id : ℕ}

def unreleased (c : Connection K) : ℕ := (c.streams.map Stream.unreleased).sum

lemma held_flow (c : Connection K) : Flow.held c.flow.streams = c.unreleased := by
  simp only [Flow.held, flow, Multiset.map_coe, Multiset.sum_coe, List.map_map]
  rfl

def Clears (id : ℕ) (c c' : Connection K) : Prop :=
  c'.failed = c.failed ∧ ∀ s ∈ c'.streams, s.unreleased ≠ 0 → s ∈ c.streams ∧ s.id ≠ id

lemma mem_others (hnodup : (c.streams.map Stream.id).Nodup) (hi : i < c.streams.length)
    (hs : s ∈ c.streams.eraseIdx i) : s ∈ c.streams ∧ s.id ≠ c.streams[i].id := by
  refine ⟨List.mem_of_mem_eraseIdx hs, fun he => ?_⟩
  have hp := ((List.getElem_cons_eraseIdx_perm hi).map Stream.id).nodup_iff.mpr hnodup
  rw [List.map_cons, List.nodup_cons] at hp
  exact hp.1 (he ▸ List.mem_map_of_mem hs)

lemma mem_swapRemove (hi : i < l.length) (hs : s ∈ swapRemove l i) : s ∈ l.eraseIdx i := by
  have hn : l ≠ [] := ne_nil_of_length_pos (Nat.zero_lt_of_lt hi)
  have hl : l.getLast? = some (l.getLast hn) := getLast?_eq_some_getLast hn
  have hb : ((swapRemove l i : List Stream) : Multiset Stream) = (l.eraseIdx i : List Stream) := by
    simp only [swapRemove, hl]
    exact coe_dropLast_set hl hi
  have hm : s ∈ ((swapRemove l i : List Stream) : Multiset Stream) := hs
  rwa [hb] at hm

variable (hnodup : (c.streams.map Stream.id).Nodup)
include hnodup

lemma mem_modify (hi : i < c.streams.length) (hg : (g c.streams[i]).unreleased = 0) (hs : s ∈ c.streams.modify i g)
    (hh : s.unreleased ≠ 0) :
    s ∈ c.streams ∧ s.id ≠ c.streams[i].id := by
  have hp : (c.streams.modify i g).Perm (g c.streams[i] :: c.streams.eraseIdx i) := by
    rw [modify_eq_set_getElem?, getElem?_eq_getElem hi]
    exact set_perm_cons_eraseIdx hi _
  rcases mem_cons.mp (hp.mem_iff.mp hs) with rfl | hs
  · exact (hh hg).elim
  · exact mem_others hnodup hi hs

lemma reset_clears : Post (reset id code) c (fun _ c' => Clears id c c') (fun _ c' => Clears id c c') := by
  unfold reset
  refine .get ?_
  cases hi : c.index id with
  | none =>
    have hn : Clears id c c := ⟨rfl, fun s hs _ => ⟨hs, not_mem_of_index hi s hs⟩⟩
    exact .refuse (fun _ => hn) fun _ => frame_post (fun _ _ => hn) fun _ => hn
  | some i =>
    have hd := index_some hi
    -- the others stay where they are while the credit is given back
    have hc : Post (returnCredit i) c
        (fun _ c₁ => c₁.failed = c.failed ∧ c₁.streams.length = c.streams.length ∧
          c₁.streams.eraseIdx i = c.streams.eraseIdx i)
        (fun _ _ => False) := by
      unfold returnCredit
      refine .get ?_
      dsimp only
      split_ifs
      · exact .pure ⟨rfl, rfl, rfl⟩
      · refine .put (.put (frame_ok (by simp [be32]) (by simp) ⟨rfl, ?_, ?_⟩))
        · simp [update]
        · simp [update, eraseIdx_modify_of_eq]
    refine .bind (hc.mono (fun _ c₁ h => ?_) (fun _ _ h => h.elim))
    obtain ⟨hf, hl, he⟩ := h
    have hb : Clears id c { c₁ with streams := swapRemove c₁.streams i } := by
      refine ⟨hf, fun s hs _ => ?_⟩
      have hm := mem_swapRemove (by rw [hl]; exact i.isLt) hs
      rw [he] at hm
      obtain ⟨hs, hg⟩ := mem_others hnodup i.isLt hm
      exact ⟨hs, fun hq => hg (hq.trans hd.symm)⟩
    exact .put (frame_post (fun _ _ => hb) fun _ => hb)

lemma releaseCapacity_clears (repaid : c.life.Repaid)
    (ha : ∀ s ∈ c.streams, s.id = id → s.unreleased ≠ 0 → s.unreleased = n) :
    Post (releaseCapacity id n) c (fun _ c' => Clears id c c') (fun _ c' => Clears id c c') := by
  unfold releaseCapacity
  refine .get ?_
  cases hi : c.index id with
  | none =>
    have ho : Clears id c c := ⟨rfl, fun s hs _ => ⟨hs, not_mem_of_index hi s hs⟩⟩
    exact .refuse_last (fun _ => ho) (fun _ => ho)
  | some i =>
    have hd := index_some hi
    have hm : c.streams[i] ∈ c.streams := getElem_mem i.isLt
    -- a stream that holds nothing needs no release
    have he : c.streams[i].unreleased = 0 → Clears id c c := by
      refine fun hz => ⟨rfl, fun s hs hh => ⟨hs, fun hq => hh ?_⟩⟩
      have hp := (getElem_cons_eraseIdx_perm i.isLt).mem_iff.mpr hs
      rcases mem_cons.mp hp with rfl | hs
      · exact hz
      · exact ((mem_others hnodup i.isLt hs).2 (hq.trans hd.symm)).elim
    dsimp only
    split_ifs with hn
    · refine .pure (he ?_)
      by_contra hh
      have hb := ha _ hm hd hh
      rcases hn with hn | hn
      · omega
      · exact hh (repaid _ (mem_map_of_mem (f := Stream.life) hm) hn).2
    · refine .refuse (fun hr => he ?_) fun hl => ?_
      · by_contra hh
        have hb := ha _ hm hd hh
        simp only [gt_iff_lt, decide_eq_true_eq] at hr
        omega
      · simp only [gt_iff_lt, decide_eq_false_iff_not, not_lt] at hl
        rw [not_or] at hn
        have hb := ha _ hm hd (by omega)
        have hc : ∀ c' : Connection K, c'.failed = c.failed →
            c'.streams = c.streams.modify i
              (fun s => { s with unreleased := s.unreleased - n, recvWindow := s.recvWindow + n }) →
            Clears id c c' := by
          refine fun c' hf ht => ⟨hf, fun s hs hh => ?_⟩
          rw [ht] at hs
          have hz :
              ({ c.streams[i] with
                 unreleased := c.streams[i].unreleased - n
                 recvWindow := c.streams[i].recvWindow + n } : Stream).unreleased = 0 := by
            dsimp only
            omega
          obtain ⟨hs, hg⟩ := mem_modify hnodup i.isLt hz hs hh
          exact ⟨hs, fun hq => hg (hq.trans hd.symm)⟩
        refine .put (.put (.bind (frame_ok (by simp [be32]) (by simp) ?_)))
        refine .when_last (fun _ => hc _ rfl rfl) fun _ => ?_
        exact frame_post (fun _ _ => hc _ rfl rfl) fun _ => hc _ rfl rfl

end Connection

def Returns (s : Stream) (call : Call) : Prop :=
  call = .releaseCapacity s.id s.unreleased ∨ ∃ code, call = .reset s.id code

namespace History

variable {K : Codec} {h : History K}

lemma nodup_ids (l : Living h) : (h.conn.streams.map Stream.id).Nodup := by
  have hk : ((h.conn.streams.map Stream.life).map Prod.fst).Nodup := l.tidy.keyed
  rwa [List.map_map] at hk

lemma repaid_step (l : Living h) (repaid : h.conn.life.Repaid) (call : Call) : (h.step call).conn.life.Repaid := by
  obtain ⟨_, -, hr, -⟩ := (l.went call).lives
  exact hr.keeps (P := Life.Repaid) (fun h hs => h.step hs) repaid

lemma cleared (living : Living h) (repaid : h.conn.life.Repaid) {l : List Stream} (hr : l.Forall₂ Returns calls)
    (hnodup : (l.map Stream.id).Nodup) (hl : ∀ s ∈ h.conn.streams, s.unreleased ≠ 0 → s ∈ l) :
    (calls.foldl step h).conn.failed = h.conn.failed ∧ (calls.foldl step h).conn.unreleased = 0 := by
  induction hr generalizing h with
  | nil =>
    refine ⟨rfl, List.sum_eq_zero fun n hn => ?_⟩
    obtain ⟨s, hs, rfl⟩ := List.mem_map.mp hn
    by_contra hh
    exact List.not_mem_nil (hl s hs hh)
  | @cons s call l calls ht he ih =>
    rw [List.map_cons, List.nodup_cons] at hnodup
    have ha : ∀ s' ∈ h.conn.streams, s'.id = s.id → s'.unreleased ≠ 0 → s'.unreleased = s.unreleased := by
      intro s' hs' hi hh
      rcases List.mem_cons.mp (hl s' hs' hh) with rfl | hm
      · rfl
      · exact (hnodup.1 (hi ▸ List.mem_map_of_mem hm)).elim
    have hc : Connection.Clears s.id h.conn (h.step call).conn := by
      rcases ht with rfl | ⟨_, rfl⟩
      · exact Post.snd (Connection.releaseCapacity_clears (nodup_ids living) repaid ha)
      · exact Post.snd (Connection.reset_clears (nodup_ids living))
    obtain ⟨hf, ho⟩ := ih (living.step call) (repaid_step living repaid call) hnodup.2 fun s' hs' hh => by
      obtain ⟨hm, hb⟩ := hc.2 s' hs' hh
      refine (List.mem_cons.mp (hl s' hm hh)).resolve_left ?_
      rintro rfl
      exact hb rfl
    exact ⟨hf.trans hc.1, ho⟩

end History

variable {K : Codec} {role : Role} {limits : Limits} {settings : Settings} {c : Connection K}

lemma credit_kept (new : Connection.withSettings role limits settings = .ok c) {calls : List Call}
    (live : (History.run c calls).conn.failed = false) :
    (History.run c calls).conn.recvWindow + (History.run c calls).conn.unreleased = 65535 ∧
    total (Frame.credit 0) (History.run c calls).conn.output + (History.run c calls).conn.unreleased =
      total Frame.dataLength (History.run c calls).heard := by
  obtain ⟨ls, t⟩ := History.traced new calls
  have hf := (History.living new calls).full
  have hc : Flow.Conserved ([] ++ ls) (History.run c calls).conn.flow :=
    t.path.rule Flow.Conserved.step ⟨History.start_tidy role limits, rfl⟩
  rw [List.nil_append] at hc
  have hw := hf.window
  have hr := hc.credit
  rw [Connection.held_flow] at hw hr
  rw [t.creditedOn, t.gotAll live] at hr
  exact ⟨hw, hr⟩

theorem receive_credit_conserved (new : Connection.withSettings role limits settings = .ok c) (calls : List Call)
    (live : (History.run c calls).conn.failed = false) :
    let h := History.run c calls
    h.conn.recvWindow + h.conn.unreleased = 65535 ∧
    total (Frame.credit 0) h.conn.output + h.conn.unreleased = total Frame.dataLength h.heard ∧
    ∀ returns, h.conn.streams.Forall₂ Returns returns → let h' := History.run c (calls ++ returns)
      h'.conn.recvWindow = 65535 ∧ total (Frame.credit 0) h'.conn.output = total Frame.dataLength h'.heard := by
  obtain ⟨hw, hc⟩ := credit_kept new live
  refine ⟨hw, hc, fun returns hr => ?_⟩
  have hl := History.living new calls
  have hb : (History.run c calls).conn.life.Repaid := by
    obtain ⟨_, lived⟩ := (History.living new []).lived calls
    refine lived.trace.keeps (P := Life.Repaid) (fun h hs => h.step hs) ?_
    rw [show (History.run c []).conn.life =
      (Connection.start role limits : Connection K).life from History.new_life new]
    exact fun p hp => absurd hp (Multiset.notMem_zero p)
  obtain ⟨hv, hn⟩ := History.cleared hl hb hr (History.nodup_ids hl) fun s hs _ => hs
  rw [History.run, ← List.foldl_append, ← History.run] at hv hn
  obtain ⟨hw', hc'⟩ := credit_kept new (hv.trans live)
  rw [hn] at hw' hc'
  exact ⟨by simpa using hw', hc'⟩

theorem receive_credit_conserved_reset :
    let calls : List Call := [.receive PREFACE, .receive (Frame.encode ⟨4, 0, 0, []⟩),
      .receive (Frame.encode ⟨1, 4, 1, requestBlock⟩), .receive (Frame.encode ⟨0, 0, 1, [1, 2, 3]⟩)]
    let c : Connection .hpack := .plain .server
    (History.run c calls).conn.recvWindow = 65532 ∧
      (History.run c (calls ++ [Call.reset 1 8])).conn.recvWindow = 65535 := by
  intro calls c
  have hl : (History.run c calls).conn.failed = false := by decide +kernel
  refine ⟨by decide +kernel, ((receive_credit_conserved (Connection.withSettings_plain .server) calls hl).2.2 _ ?_).1⟩
  have hi : (History.run c calls).conn.streams.map Stream.id = [1] := by decide +kernel
  obtain ⟨s, l, hs, hd, hn⟩ := List.map_eq_cons_iff.mp hi
  rw [List.map_eq_nil_iff] at hn
  rw [hs, hn]
  exact .cons (.inr ⟨8, congrArg (Call.reset · 8) hd.symm⟩) .nil

end Turnloop.Http2
