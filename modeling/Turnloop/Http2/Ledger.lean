import Turnloop.Http2.Flow

/-! Flow control keeps: windows are the allowances less what was sent, receive credit is neither lost nor made. -/

namespace Turnloop.Http2.Flow

open Lib Label List Multiset

variable {F G : Flow} {ls ms : List Label}

structure Tidy (F : Flow) : Prop where
  keyed : Keyed F.streams
  known : ∀ p ∈ F.streams, p.1 ∈ F.seen
  nonzero : ∀ p ∈ F.streams, p.1 ≠ 0

lemma fst_shiftRecv {m : Multiset (ℕ × Credit)} : (m.map (shiftRecv delta)).map Prod.fst = m.map Prod.fst := by
  rw [Multiset.map_map]
  rfl

lemma fst_shiftSend {m : Multiset (ℕ × Credit)} : (m.map (shiftSend delta)).map Prod.fst = m.map Prod.fst := by
  rw [Multiset.map_map]
  rfl

lemma fst_unsent {m m' : Multiset (ℕ × Credit)} (h : m'.map unsent = m.map unsent) :
    m'.map Prod.fst = m.map Prod.fst := by
  have hm := congrArg (Multiset.map Prod.fst) h
  rwa [Multiset.map_map, Multiset.map_map] at hm

namespace Tidy

variable {rest : Multiset (ℕ × Credit)} {a : Credit} {id : ℕ}

lemma of_ids (h : F.Tidy) (hi : G.streams.map Prod.fst = F.streams.map Prod.fst) (he : F.seen ⊆ G.seen) : G.Tidy := by
  have hm : ∀ p ∈ G.streams, ∃ q ∈ F.streams, q.1 = p.1 := by
    intro p hp
    have hf := mem_map_of_mem Prod.fst hp
    rw [hi] at hf
    exact mem_map.mp hf
  refine ⟨?_, fun p hp => ?_, fun p hp => ?_⟩
  · rw [Keyed, hi]
    exact h.keyed
  · obtain ⟨q, hq, hd⟩ := hm p hp
    exact hd ▸ he (h.known q hq)
  · obtain ⟨q, hq, hd⟩ := hm p hp
    exact hd ▸ h.nonzero q hq

lemma set (h : F.Tidy) (entry : F.streams = (id, a) ::ₘ rest) (hs : G.streams = (id, b) ::ₘ rest)
    (he : G.seen = F.seen) : G.Tidy := by
  refine h.of_ids ?_ he.ge
  rw [hs, entry, Multiset.map_cons, Multiset.map_cons]

lemma step (h : F.Tidy) (hs : Step F ls G) : G.Tidy := by
  cases hs with
  | data n live entry | grewOn n entry | got n entry | released n entry | returned entry | ended entry =>
    exact h.set entry rfl rfl
  | saw s sub => exact h.of_ids rfl sub
  | opened s zero fresh sub =>
    refine ⟨Keyed.cons.mpr ⟨fun w hw => fresh (h.known _ hw), h.keyed⟩, fun p hp => ?_, fun p hp => ?_⟩
    · rcases mem_cons.mp hp with rfl | hp
      · exact sub (Set.mem_insert _ _)
      · exact sub (Set.mem_insert_of_mem _ (h.known p hp))
    · rcases mem_cons.mp hp with rfl | hp
      · exact zero
      · exact h.nonzero p hp
  | removed entry =>
    exact ⟨(entry ▸ h.keyed).tail, fun p hp => h.known p (entry ▸ mem_cons_of_mem hp),
      fun p hp => h.nonzero p (entry ▸ mem_cons_of_mem hp)⟩
  | grew | frameSize => exact { h with }
  | initial => exact h.of_ids fst_shiftSend subset_rfl
  | discarded => exact h
  | offered | acked => exact h.of_ids fst_shiftRecv subset_rfl
  | broke same => exact h.of_ids (fst_unsent same) subset_rfl

lemma mem_set (h : F.Tidy) (entry : F.streams = (id, a) ::ₘ rest)
    (hp : p ∈ (id, b) ::ₘ rest) : p = (id, b) ∨ p ∈ F.streams ∧ p.1 ≠ id := by
  rcases mem_cons.mp hp with hp | hp
  · exact .inl hp
  · refine .inr ⟨entry ▸ mem_cons_of_mem hp, ?_⟩
    exact (entry ▸ h.keyed).ne_of_mem hp

lemma here (entry : F.streams = (id, a) ::ₘ rest) : (id, a) ∈ F.streams := entry ▸ mem_cons_self _ _

end Tidy

structure Sending (ls : List Label) (F : Flow) : Prop where
  tidy : F.Tidy
  conn : F.send + total sentAll ls = 65535 + total (grewOn 0) ls
  floor : 0 ≤ F.send
  cap : F.send ≤ MAX
  initial : F.initialSend ≤ MAX
  idle : ∀ id ∉ F.seen, total (sentOn id) ls = 0
  caps : ∀ p ∈ F.streams, p.2.send ≤ MAX
  stream : F.failed = false → ∀ p ∈ F.streams, p.2.send + total (sentOn p.1) ls ≤ F.initialSend + total (grewOn p.1) ls

namespace Sending

lemma keep (h : Sending ls F) (tidy : G.Tidy) (he : ∀ id, total (sentOn id) ms = 0) (ha : total sentAll ms = 0)
    (hg : total (grewOn 0) ms = 0) (hb : F.seen ⊆ G.seen) (hn : G.send = F.send)
    (hi : G.initialSend = F.initialSend) (hc : G.failed = false → F.failed = false)
    (ht : ∀ p ∈ G.streams, ∃ q ∈ F.streams, q.1 = p.1 ∧ q.2.send = p.2.send) : Sending (ls ++ ms) G where
  tidy := tidy
  conn := by
    rw [total_append, total_append, ha, hg, hn]
    exact h.conn
  floor := hn ▸ h.floor
  cap := hn ▸ h.cap
  initial := hi ▸ h.initial
  idle id hid := by
    rw [total_append, he, h.idle id (fun hs => hid (hb hs))]
  caps p hp := by
    obtain ⟨q, hq, -, hm⟩ := ht p hp
    exact hm ▸ h.caps q hq
  stream hf p hp := by
    obtain ⟨q, hq, hid, hm⟩ := ht p hp
    have hs := h.stream (hc hf) q hq
    rw [total_append, he, total_append, hi, ← hid, ← hm]
    push_cast
    linarith

lemma step (h : Sending ls F) (hs : Step F ms G) : Sending (ls ++ ms) G := by
  have tidy := h.tidy.step hs
  have hk : ∀ p ∈ F.streams, ∃ q ∈ F.streams, q.1 = p.1 ∧ q.2.send = p.2.send := fun p hp => ⟨p, hp, rfl, rfl⟩
  have he : ∀ {id : ℕ} {a b : Credit} {rest : Multiset (ℕ × Credit)}, F.streams = (id, a) ::ₘ rest → a.send = b.send →
      ∀ p ∈ (id, b) ::ₘ rest, ∃ q ∈ F.streams, q.1 = p.1 ∧ q.2.send = p.2.send := by
    intro id a b rest entry hn p hp
    rcases h.tidy.mem_set entry hp with rfl | ⟨hp, -⟩
    · exact ⟨_, Tidy.here entry, rfl, hn⟩
    · exact hk p hp
  have hh : ∀ {delta : ℤ}, ∀ p ∈ F.streams.map (shiftRecv delta), ∃ q ∈ F.streams, q.1 = p.1 ∧ q.2.send = p.2.send := by
    intro delta p hp
    obtain ⟨q, hq, rfl⟩ := Multiset.mem_map.mp hp
    exact ⟨q, hq, rfl, rfl⟩
  cases hs with
  | @data id a rest n live entry frame conn stream =>
    have hc := h.conn
    have hl := h.floor
    have ha := h.cap
    have hb := h.stream live _ (Tidy.here entry)
    have hd := h.caps _ (Tidy.here entry)
    dsimp only at hb hd
    refine ⟨tidy, ?_, ?_, ?_, h.initial, fun i hi => ?_, fun p hp => ?_, fun hf p hp => ?_⟩
    · simp only [total_append, total_cons, total_nil, sentAll, grewOn]
      push_cast
      linarith
    · dsimp only
      omega
    · dsimp only
      omega
    · have hg : id ≠ i := by
        rintro rfl
        exact hi (h.tidy.known _ (Tidy.here entry))
      simp [sentOn, hg, h.idle i hi]
    · rcases h.tidy.mem_set entry hp with rfl | ⟨hp, -⟩
      · dsimp only
        omega
      · exact h.caps p hp
    · rcases h.tidy.mem_set entry hp with rfl | ⟨hp, hg⟩
      · simp only [total_append, total_cons, total_nil, sentOn, grewOn, if_true]
        push_cast
        linarith
      · simpa [sentOn, grewOn, hg.symm] using h.stream hf p hp
  | saw s sub => exact h.keep tidy (fun _ => rfl) rfl rfl sub rfl rfl id hk
  | @opened id s zero fresh sub =>
    refine ⟨tidy, ?_, h.floor, h.cap, h.initial, fun i hi => ?_, fun p hp => ?_, fun hf p hp => ?_⟩
    · rw [List.append_nil]
      exact h.conn
    · rw [List.append_nil]
      exact h.idle i (fun hs => hi (sub (Set.mem_insert_of_mem _ hs)))
    · rcases Multiset.mem_cons.mp hp with rfl | hp
      · exact h.initial
      · exact h.caps p hp
    · rw [List.append_nil]
      rcases Multiset.mem_cons.mp hp with rfl | hp
      · rw [h.idle id fresh]
        push_cast
        linarith
      · exact h.stream hf p hp
  | @removed id a rest entry =>
    exact h.keep tidy (fun _ => rfl) rfl rfl subset_rfl rfl rfl (fun hf => hf) fun p hp => hk p
      (entry ▸ Multiset.mem_cons_of_mem hp)
  | grew n max =>
    have hc := h.conn
    have hl := h.floor
    refine ⟨tidy, ?_, ?_, max, h.initial, fun i hi => ?_, h.caps, fun hf p hp => ?_⟩
    · simp only [total_append, total_cons, total_nil, sentAll, grewOn, if_true]
      push_cast
      linarith
    · dsimp only
      omega
    · simpa [sentOn] using h.idle i hi
    · have hs := h.stream hf p hp
      simp only [total_append, total_cons, total_nil, sentOn, grewOn]
      push_cast
      split_ifs <;> omega
  | @grewOn id a rest n entry max =>
    have hz := h.tidy.nonzero _ (Tidy.here entry)
    refine ⟨tidy, ?_, h.floor, h.cap, h.initial, fun i hi => ?_, fun p hp => ?_, fun hf p hp => ?_⟩
    · simpa [sentAll, Label.grewOn, hz] using h.conn
    · simpa [sentOn] using h.idle i hi
    · rcases h.tidy.mem_set entry hp with rfl | ⟨hp, -⟩
      · exact max
      · exact h.caps p hp
    · rcases h.tidy.mem_set entry hp with rfl | ⟨hp, hg⟩
      · have hb := h.stream hf _ (Tidy.here entry)
        simp only [total_append, total_cons, total_nil, sentOn, Label.grewOn, if_true] at hb ⊢
        push_cast
        linarith
      · simpa [sentOn, Label.grewOn, hg.symm] using h.stream hf p hp
  | initial v value max =>
    refine ⟨tidy, ?_, h.floor, h.cap, value, fun i hi => ?_, fun p hp => ?_, fun hf p hp => ?_⟩
    · simpa [sentAll, Label.grewOn] using h.conn
    · simpa [sentOn] using h.idle i hi
    · obtain ⟨q, hq, rfl⟩ := Multiset.mem_map.mp hp
      exact max q hq
    · obtain ⟨q, hq, rfl⟩ := Multiset.mem_map.mp hp
      have hs := h.stream hf q hq
      simp only [total_append, total_cons, total_nil, sentOn, Label.grewOn, shiftSend]
      push_cast
      linarith
  | frameSize => exact h.keep tidy (fun _ => rfl) rfl rfl subset_rfl rfl rfl id hk
  | got n entry | returned entry | ended entry =>
    exact h.keep tidy (fun _ => rfl) rfl rfl subset_rfl rfl rfl id (he entry rfl)
  | discarded =>
    refine h.keep tidy (fun _ => ?_) ?_ ?_ subset_rfl rfl rfl (fun hf => hf) hk <;> split_ifs <;> rfl
  | @released id a rest n entry =>
    refine h.keep tidy (fun _ => ?_) ?_ ?_ subset_rfl rfl rfl (fun hf => hf) (he entry rfl) <;> split_ifs <;> rfl
  | offered | acked => exact h.keep tidy (fun _ => rfl) rfl rfl subset_rfl rfl rfl id hh
  | broke same max =>
    refine ⟨tidy, ?_, h.floor, h.cap, h.initial, fun i hi => ?_, fun p hp => (max p hp).elim id (h.caps p), nofun⟩
    · rw [List.append_nil]
      exact h.conn
    · rw [List.append_nil]
      exact h.idle i hi

end Sending

end Turnloop.Http2.Flow
