import Turnloop.Http2.Ledger

/-! Receive credit: every byte of DATA is held for a stream or has been given back to the peer. -/

namespace Turnloop.Http2.Flow

open Lib Label

variable {F G : Flow} {ls ms : List Label}

def held (m : Multiset (ℕ × Credit)) : ℕ := (m.map (fun p => p.2.unreleased)).sum

@[simp] lemma held_cons (p : ℕ × Credit) (m : Multiset (ℕ × Credit)) : held (p ::ₘ m) = p.2.unreleased + held m := by
  simp [held]

@[simp] lemma held_shiftSend (m : Multiset (ℕ × Credit)) : held (m.map (shiftSend delta)) = held m := by
  rw [held, Multiset.map_map]
  rfl

@[simp] lemma held_shiftRecv (m : Multiset (ℕ × Credit)) : held (m.map (shiftRecv delta)) = held m := by
  rw [held, Multiset.map_map]
  rfl

lemma held_unsent (h : m'.map unsent = m.map unsent) : held m' = held m := by
  have hu := congrArg held h
  simpa only [held, Multiset.map_map] using! hu

structure Full (F : Flow) : Prop where
  window : F.recv + held F.streams = 65535
  floor : 0 ≤ F.recv

namespace Full

lemma keep (h : F.Full) (hr : G.recv = F.recv) (hh : held G.streams = held F.streams) : G.Full :=
  ⟨by rw [hr, hh, h.window], hr ▸ h.floor⟩

lemma step (h : F.Full) (hs : Step F ms G) : G.Full := by
  have hw := h.window
  have hf := h.floor
  cases hs with
  | data n live entry | grewOn n entry | ended entry => exact h.keep rfl (by simp [entry])
  | saw | grew | frameSize => exact h.keep rfl rfl
  | opened | initial => exact h.keep rfl (by simp)
  | removed entry fr => exact h.keep rfl (by simp [entry, fr])
  | got n entry conn stream =>
    rw [entry, held_cons] at hw
    refine ⟨?_, Int.sub_nonneg.mpr conn⟩
    simp only [held_cons]
    push_cast at hw ⊢
    linarith
  | discarded => exact h
  | released n entry hh silent =>
    rw [entry, held_cons] at hw
    refine ⟨?_, Int.add_nonneg hf (Int.natCast_nonneg n)⟩
    simp only [held_cons]
    push_cast [hh] at hw ⊢
    linarith
  | returned entry =>
    rw [entry, held_cons] at hw
    refine ⟨?_, Int.add_nonneg hf (Int.natCast_nonneg _)⟩
    simp only [held_cons]
    push_cast at hw ⊢
    linarith
  | offered | acked => exact h.keep rfl (by simp [enforce])
  | broke same => exact h.keep rfl (held_unsent same)

lemma unreleased_le (h : F.Full) (hp : p ∈ F.streams) : p.2.unreleased ≤ 65535 := by
  obtain ⟨_, hr⟩ := Multiset.exists_cons_of_mem hp
  have hw := h.window
  have hf := h.floor
  rw [hr, held_cons] at hw
  omega

end Full

structure Conserved (ls : List Label) (F : Flow) : Prop where
  tidy : F.Tidy
  credit : total (creditedOn 0) ls + held F.streams = total gotAll ls

namespace Conserved

lemma keep (h : Conserved ls F) (tidy : G.Tidy) (hc : total (creditedOn 0) ms = 0) (hg : total gotAll ms = 0)
    (hh : held G.streams = held F.streams) : Conserved (ls ++ ms) G where
  tidy := tidy
  credit := by
    rw [total_append, total_append, hc, hg, hh]
    exact h.credit

lemma step (h : Conserved ls F) (hs : Step F ms G) : Conserved (ls ++ ms) G := by
  have tidy := h.tidy.step hs
  have hc := h.credit
  cases hs with
  | data n live entry | grewOn n entry | ended entry => exact h.keep tidy rfl rfl (by simp [entry])
  | saw | grew | frameSize => exact h.keep tidy rfl rfl rfl
  | opened | initial => exact h.keep tidy rfl rfl (by simp)
  | removed entry fr => exact h.keep tidy rfl rfl (by simp [entry, fr])
  | got n entry conn stream =>
    rw [entry, held_cons] at hc
    dsimp only at hc
    refine ⟨tidy, ?_⟩
    simp only [total_append, total_cons, total_nil, creditedOn, gotAll, held_cons]
    omega
  | discarded id n known none conn =>
    refine ⟨tidy, ?_⟩
    rcases Nat.eq_zero_or_pos n with rfl | hn
    · simpa [creditedOn, gotAll] using hc
    · simp only [Nat.pos_iff_ne_zero.mp hn, if_false, total_append, total_cons, total_nil, creditedOn, gotAll, if_true]
      omega
  | @released id a rest n entry hh silent =>
    have hz := h.tidy.nonzero _ (Tidy.here entry)
    rw [entry, held_cons] at hc
    dsimp only at hc
    have he : total (creditedOn 0) (if silent = true then [] else [.credited id n]) = 0 := by
      split_ifs
      · rfl
      · simp [creditedOn, hz]
    have ho : total gotAll (if silent = true then [] else [.credited id n]) = 0 := by split_ifs <;> rfl
    refine ⟨tidy, ?_⟩
    simp only [total_append, total_cons, he, ho, creditedOn, gotAll, held_cons, if_true]
    omega
  | returned entry =>
    rw [entry, held_cons] at hc
    dsimp only at hc
    refine ⟨tidy, ?_⟩
    simp only [total_append, total_cons, total_nil, creditedOn, gotAll, held_cons, if_true]
    omega
  | offered | acked => exact h.keep tidy rfl rfl (by simp [enforce])
  | broke same => exact h.keep tidy rfl rfl (held_unsent same)

end Conserved

structure Receiving (ls : List Label) (F : Flow) : Prop where
  tidy : F.Tidy
  idle : ∀ id ∉ F.seen, id ≠ 0 → total (creditedOn id) ls ≤ total (gotOn id) ls
  stream : ∀ p ∈ F.streams, F.recvInitial + total (creditedOn p.1) ls ≤ p.2.recv + total (gotOn p.1) ls
  bound : ∀ p ∈ F.streams, p.2.recv + p.2.unreleased ≤ F.recvInitial

namespace Receiving

lemma keep (h : Receiving ls F) (tidy : G.Tidy) (hc : ∀ id ≠ 0, total (creditedOn id) ms = 0)
    (he : F.seen ⊆ G.seen) (hi : G.recvInitial = F.recvInitial)
    (ht : ∀ p ∈ G.streams, ∃ q ∈ F.streams, q.1 = p.1 ∧ q.2.recv = p.2.recv ∧ p.2.unreleased ≤ q.2.unreleased) :
    Receiving (ls ++ ms) G where
  tidy := tidy
  idle id hd hz := by
    rw [total_append, total_append, hc id hz]
    exact (h.idle id (fun hs => hd (he hs)) hz).trans (Nat.le_add_right _ _)
  stream p hp := by
    obtain ⟨q, hq, hd, hr, -⟩ := ht p hp
    have hs := h.stream q hq
    have hz := h.tidy.nonzero q hq
    rw [hd] at hs hz
    rw [total_append, total_append, hc p.1 hz, hi, ← hr]
    push_cast
    linarith
  bound p hp := by
    obtain ⟨q, hq, -, hr, _⟩ := ht p hp
    have hb := h.bound q hq
    rw [hi, ← hr]
    omega

lemma enforced (h : Receiving ls F) (tidy : G.enforce.Tidy) (he : G.seen = F.seen) (ht : G.streams = F.streams)
    (hn : G.recvInitial = F.recvInitial) (hc : ∀ id, total (creditedOn id) ms = 0)
    (hg : ∀ id, total (gotOn id) ms = 0) :
    Receiving (ls ++ ms) G.enforce := by
  refine ⟨tidy, fun i hi hz => ?_, fun p hp => ?_, fun p hp => ?_⟩
  · rw [total_append, total_append, hc, hg]
    exact h.idle i (he ▸ hi) hz
  · obtain ⟨q, hq, rfl⟩ := Multiset.mem_map.mp hp
    have hs := h.stream q (ht ▸ hq)
    rw [total_append, total_append, hc, hg]
    simp only [enforce, shiftRecv]
    push_cast
    linarith
  · obtain ⟨q, hq, rfl⟩ := Multiset.mem_map.mp hp
    have hb := h.bound q (ht ▸ hq)
    simp only [enforce, shiftRecv]
    linarith

lemma credited_release {b : Bool} (hi : i ≠ 0) :
    total (creditedOn i) (.credited 0 n :: if b then [] else [.credited j n]) ≤ if i = j then n else 0 := by
  cases b with
  | true => simp [creditedOn, hi.symm]
  | false =>
    simp only [Bool.false_eq_true, if_false, total_cons, total_nil, creditedOn, if_neg hi.symm, @eq_comm _ j]
    omega

lemma step (h : Receiving ls F) (hs : Step F ms G) : Receiving (ls ++ ms) G := by
  have tidy := h.tidy.step hs
  -- the streams after a step that leaves the receive window of the one it changes
  have hf : ∀ {id : ℕ} {a b : Credit} {rest : Multiset (ℕ × Credit)}, F.streams = (id, a) ::ₘ rest → a.recv = b.recv →
      b.unreleased ≤ a.unreleased → ∀ p ∈ (id, b) ::ₘ rest,
        ∃ q ∈ F.streams, q.1 = p.1 ∧ q.2.recv = p.2.recv ∧ p.2.unreleased ≤ q.2.unreleased := by
    intro id a b rest entry hr hl p hp
    rcases h.tidy.mem_set entry hp with rfl | ⟨hp, -⟩
    · exact ⟨_, Tidy.here entry, rfl, hr, hl⟩
    · exact ⟨p, hp, rfl, rfl, le_rfl⟩
  have hk : ∀ p ∈ F.streams, ∃ q ∈ F.streams, q.1 = p.1 ∧ q.2.recv = p.2.recv ∧ p.2.unreleased ≤ q.2.unreleased :=
    fun p hp => ⟨p, hp, rfl, rfl, le_rfl⟩
  cases hs with
  | data n live entry | grewOn n entry | ended entry =>
    exact h.keep tidy (fun _ _ => rfl) subset_rfl rfl (hf entry rfl le_rfl)
  | saw s sub => exact h.keep tidy (fun _ _ => rfl) sub rfl hk
  | @opened id s zero fresh sub =>
    refine ⟨tidy, fun i hi hz => ?_, fun p hp => ?_, fun p hp => ?_⟩
    · rw [List.append_nil]
      exact h.idle i (fun hs => hi (sub (Set.mem_insert_of_mem _ hs))) hz
    · rw [List.append_nil]
      rcases Multiset.mem_cons.mp hp with rfl | hp
      · have hg := h.idle id fresh zero
        dsimp only
        omega
      · exact h.stream p hp
    · rcases Multiset.mem_cons.mp hp with rfl | hp
      · simp
      · exact h.bound p hp
  | removed entry =>
    exact h.keep tidy (fun _ _ => rfl) subset_rfl rfl (fun p hp => hk p (entry ▸ Multiset.mem_cons_of_mem hp))
  | grew | frameSize => exact h.keep tidy (fun _ _ => rfl) subset_rfl rfl hk
  | initial =>
    refine h.keep tidy (fun _ _ => rfl) subset_rfl rfl (fun p hp => ?_)
    obtain ⟨q, hq, rfl⟩ := Multiset.mem_map.mp hp
    exact ⟨q, hq, rfl, rfl, le_rfl⟩
  | @got id a rest n entry conn stream =>
    refine ⟨tidy, fun i hi hz => ?_, fun p hp => ?_, fun p hp => ?_⟩
    · have hg := h.idle i hi hz
      simp only [total_append, total_cons, total_nil, creditedOn]
      omega
    · rcases h.tidy.mem_set entry hp with rfl | ⟨hp, hn⟩
      · have hs := h.stream _ (Tidy.here entry)
        simp only [total_append, total_cons, total_nil, creditedOn, gotOn, if_true] at hs ⊢
        push_cast
        linarith
      · simpa [creditedOn, gotOn, hn.symm] using h.stream p hp
    · rcases h.tidy.mem_set entry hp with rfl | ⟨hp, -⟩
      · have hb := h.bound _ (Tidy.here entry)
        push_cast
        linarith
      · exact h.bound p hp
  | discarded =>
    refine h.keep tidy (fun i hi => ?_) subset_rfl rfl hk
    split_ifs
    · rfl
    · simp [creditedOn, hi.symm]
  | @released id a rest n entry hh silent =>
    have hm := h.tidy.known _ (Tidy.here entry)
    have hx := fun i (hi : i ≠ 0) => credited_release (n := n) (b := silent) (j := id) hi
    have ho : ∀ i, total (gotOn i) (.credited 0 n :: if silent then [] else [.credited id n]) = 0 := by
      intro i
      split_ifs <;> rfl
    refine ⟨tidy, fun i hi hz => ?_, fun p hp => ?_, fun p hp => ?_⟩
    · have hn : i ≠ id := by
        rintro rfl
        exact hi hm
      have he := hx i hz
      rw [if_neg hn] at he
      rw [total_append, total_append, Nat.le_zero.mp he]
      exact (h.idle i hi hz).trans (Nat.le_add_right _ _)
    · rcases h.tidy.mem_set entry hp with rfl | ⟨hp, hn⟩
      · have hs := h.stream _ (Tidy.here entry)
        have he := hx id (h.tidy.nonzero _ (Tidy.here entry))
        rw [if_pos rfl] at he
        dsimp only at hs ⊢
        rw [total_append, total_append, ho]
        push_cast
        omega
      · have hs := h.stream p hp
        have he := hx p.1 (h.tidy.nonzero p hp)
        rw [if_neg hn] at he
        rw [total_append, total_append, ho, Nat.le_zero.mp he]
        simpa using hs
    · rcases h.tidy.mem_set entry hp with rfl | ⟨hp, -⟩
      · have hb := h.bound _ (Tidy.here entry)
        push_cast [hh]
        linarith
      · exact h.bound p hp
  | @returned id a rest entry =>
    exact h.keep tidy (fun i hi => by simp [creditedOn, hi.symm]) subset_rfl rfl (hf entry rfl (Nat.zero_le _))
  | offered entries =>
    exact h.enforced (G := { F with pending := F.pending ++ [entries] }) tidy rfl rfl rfl (fun _ => rfl) fun _ => rfl
  | @acked entries rest =>
    exact h.enforced (G := { F with pending := rest, acked := entries.foldl Connection.acknowledge F.acked })
      tidy rfl rfl rfl (fun _ => rfl) fun _ => rfl
  | broke same =>
    refine h.keep tidy (fun _ _ => rfl) subset_rfl rfl (fun p hp => ?_)
    have hp' := Multiset.mem_map_of_mem unsent hp
    rw [same] at hp'
    obtain ⟨q, hq, he⟩ := Multiset.mem_map.mp hp'
    obtain ⟨hd, hc⟩ := Prod.ext_iff.mp he
    have hr : (unsent q).2.recv = (unsent p).2.recv := congrArg Credit.recv hc
    have hu : (unsent q).2.unreleased = (unsent p).2.unreleased := congrArg Credit.unreleased hc
    exact ⟨q, hq, hd, hr, hu.ge⟩

end Receiving

end Turnloop.Http2.Flow
