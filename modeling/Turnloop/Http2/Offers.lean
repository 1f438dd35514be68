import Turnloop.Http2.Flow

/-! The SETTINGS of an endpoint, offered and acknowledged. -/

namespace Turnloop.Http2

open List

def settled (base : Limits × ℤ) (frames : List (List (UInt16 × UInt32))) : Limits × ℤ :=
  frames.foldl (fun acc entries => entries.foldl Connection.acknowledge acc) base

lemma settled_snoc (frames : List (List (UInt16 × UInt32))) (entries : List (UInt16 × UInt32)) :
    settled base (frames ++ [entries]) = entries.foldl Connection.acknowledge (settled base frames) := by
  rw [settled, foldl_append]
  rfl

def Label.offers (ls : List Label) : List (List (UInt16 × UInt32)) := ls.filterMap Label.offer

def Label.acks (ls : List Label) : ℕ := ls.countP Label.isAcked

namespace Flow

open Label

variable {F G : Flow} {ls ms : List Label} {base : Limits × ℤ}

structure Agreed (base : Limits × ℤ) (ls : List Label) (F : Flow) : Prop where
  count : acks ls ≤ (offers ls).length
  pending : F.pending = (offers ls).drop (acks ls)
  acked : F.acked = settled base ((offers ls).take (acks ls))
  enforced : (F.limits, F.recvInitial) = loosened F.acked F.pending
  valid : ∀ entries ∈ offers ls, entries.all Settings.valid

namespace Agreed

lemma keep (h : Agreed base ls F) (ho : offers ms = []) (ha : acks ms = 0) (hp : G.pending = F.pending)
    (hd : G.acked = F.acked) (he : (G.limits, G.recvInitial) = (F.limits, F.recvInitial)) :
    Agreed base (ls ++ ms) G := by
  have hm : offers (ls ++ ms) = offers ls := by rw [offers, filterMap_append, ← offers, ← offers, ho, append_nil]
  have hc : acks (ls ++ ms) = acks ls := by rw [acks, countP_append, ← acks, ← acks, ha, Nat.add_zero]
  constructor
  · rw [hm, hc]
    exact h.count
  · rw [hm, hc, hp]
    exact h.pending
  · rw [hm, hc, hd]
    exact h.acked
  · rw [hp, hd, he]
    exact h.enforced
  · rw [hm]
    exact h.valid

lemma step (h : Agreed base ls F) (hs : Step F ms G) : Agreed base (ls ++ ms) G := by
  have hc := h.count
  have hp := h.pending
  cases hs with
  | offered entries valid =>
    have ho : offers (ls ++ [Label.offered entries]) = offers ls ++ [entries] := by simp [offers, offer]
    have ha : acks (ls ++ [Label.offered entries]) = acks ls := by simp [acks, isAcked]
    constructor
    · rw [ho, ha, length_append]
      omega
    · rw [ho, ha, drop_append_of_le_length hc, ← hp]
      rfl
    · rw [ho, ha, take_append_of_le_length hc]
      exact h.acked
    · rfl
    · intro e he
      rw [ho] at he
      rcases mem_append.mp he with he | he
      · exact h.valid e he
      · exact mem_singleton.mp he ▸ valid
  | @acked entries rest first =>
    have ho : offers (ls ++ [Label.acked]) = offers ls := by simp [offers, offer]
    have ha : acks (ls ++ [Label.acked]) = acks ls + 1 := by simp [acks, isAcked]
    have hd : (offers ls).drop (acks ls) = entries :: rest := hp.symm.trans first
    have hl : acks ls < (offers ls).length := by
      by_contra hge
      rw [drop_eq_nil_of_le (by omega)] at hd
      cases hd
    have hn := drop_eq_getElem_cons hl
    rw [hd, cons.injEq] at hn
    constructor
    · rw [ho, ha]
      omega
    · rw [ho, ha]
      exact hn.2
    · rw [ho, ha, ← take_concat_get' _ _ hl, settled_snoc, ← hn.1, ← h.acked]
      rfl
    · rfl
    · rw [ho]
      exact h.valid
  | discarded | released => exact h.keep (by split_ifs <;> rfl) (by split_ifs <;> rfl) rfl rfl rfl
  | _ => exact h.keep rfl rfl rfl rfl rfl

end Agreed

end Flow

section

variable {acc : Limits × ℤ} {e : UInt16 × UInt32}

lemma valid_initial (h : Settings.valid e = true) (hi : e.1 = Settings.INITIAL_WINDOW_SIZE) :
    (e.2.toNat : ℤ) ≤ Flow.MAX := by
  unfold Settings.valid at h
  rw [hi, if_neg (by decide), if_neg (by decide), if_pos rfl] at h
  have hl : e.2.toNat ≤ 0x7fffffff := UInt32.le_iff_toNat_le.mp (of_decide_eq_true h)
  unfold Flow.MAX
  omega

lemma loosen_initial_le (h : Settings.valid e = true) (ha : acc.2 ≤ Flow.MAX) :
    (Connection.loosen acc e).2 ≤ Flow.MAX := by
  unfold Connection.loosen
  split_ifs with h₁ h₂
  · exact ha
  · exact max_le ha (valid_initial h h₂)
  all_goals exact ha

lemma acknowledge_initial_le (h : Settings.valid e = true) (ha : acc.2 ≤ Flow.MAX) :
    (Connection.acknowledge acc e).2 ≤ Flow.MAX := by
  unfold Connection.acknowledge
  split_ifs with h₁ h₂
  · exact ha
  · exact valid_initial h h₂
  all_goals exact ha

lemma foldl_frames {P : Limits × ℤ → Prop} {frames : List (List (UInt16 × UInt32))}
    (hf : ∀ entries ∈ frames, entries.all Settings.valid)
    (hp : ∀ acc e, Settings.valid e = true → P acc → P (g acc e)) (ha : P acc) :
    P (frames.foldl (fun acc entries => entries.foldl g acc) acc) := by
  refine foldlRecOn frames _ ha (fun acc ha entries hn => ?_)
  refine foldlRecOn entries _ ha (fun acc ha e he => ?_)
  exact hp acc e (all_eq_true.mp (hf entries hn) e he) ha

end

lemma Flow.Agreed.recvInitial_le {F : Flow} (h : F.Agreed base ls) (hb : base.2 ≤ Flow.MAX) :
    F.recvInitial ≤ Flow.MAX := by
  have ha : F.acked.2 ≤ Flow.MAX := by
    rw [h.acked]
    exact foldl_frames (P := fun acc => acc.2 ≤ Flow.MAX) (fun entries he => h.valid entries (mem_of_mem_take he))
      (fun acc e hv hc => acknowledge_initial_le hv hc) hb
  have hl : (Flow.loosened F.acked F.pending).2 ≤ Flow.MAX := by
    refine foldl_frames (P := fun acc => acc.2 ≤ Flow.MAX) (fun entries he => h.valid entries ?_)
      (fun acc e hv hc => loosen_initial_le hv hc) ha
    rw [h.pending] at he
    exact mem_of_mem_drop he
  rwa [← h.enforced] at hl

end Turnloop.Http2
