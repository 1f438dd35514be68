import Mathlib.Tactic

/-! Readers of a buffer that may end too early. -/

namespace Turnloop.Lib

open List

variable {α ε σ β γ : Type}

abbrev Reader (α ε σ β : Type) := List α → StateT σ (Except ε) β

structure Incremental (more : ε) (pos : σ → ℕ) (m : Reader α ε σ β) : Prop where
  settled : ∀ x y s, x <+: y → m x s ≠ .error more → m y s = m x s
  forward : ∀ x s b s', m x s = .ok (b, s') → pos s ≤ pos s'
  within : ∀ x s b s', pos s ≤ x.length → m x s = .ok (b, s') → pos s' ≤ x.length
  read : ∀ x s b s', m x s = .ok (b, s') → m (x.take (pos s')) s = .ok (b, s')

namespace Incremental

variable {more : ε} {pos : σ → ℕ} {m : Reader α ε σ β} {k : β → Reader α ε σ γ}

lemma bind_apply (p : StateT σ (Except ε) β) (q : β → StateT σ (Except ε) γ) (s : σ) : (p >>= q) s = match p s with
      | .ok r => q r.1 r.2
      | .error e => .error e := by
  change (StateT.bind p q) s = _
  unfold StateT.bind
  cases p s <;> rfl

lemma of_bind {p : StateT σ (Except ε) β} {q : β → StateT σ (Except ε) γ} {s s' : σ} {c : γ}
    (h : (p >>= q) s = .ok (c, s')) :
    ∃ b s₁, p s = .ok (b, s₁) ∧ q b s₁ = .ok (c, s') := by
  rw [bind_apply] at h
  cases hp : p s with
  | error => rw [hp] at h; cases h
  | ok r => exact ⟨r.1, r.2, rfl, by rw [hp] at h; exact h⟩

lemma still {p : StateT σ (Except ε) β} (h : ∀ s b s', p s = .ok (b, s') → pos s' = pos s) :
    Incremental more pos (fun _ : List α => p) where
  settled _ _ _ _ _ := rfl
  forward _ s b s' hp := (h s b s' hp).ge
  within _ s b s' hs hp := (h s b s' hp).le.trans hs
  read _ _ _ _ hp := hp

lemma pure (b : β) : Incremental more pos (fun _ : List α => (Pure.pure b : StateT σ (Except ε) β)) := by
  refine still fun s b' s' h => ?_
  obtain rfl : s = s' := congrArg Prod.snd (Except.ok.inj h)
  rfl

lemma throw (e : ε) : Incremental more pos (fun _ : List α => (MonadExcept.throw e : StateT σ (Except ε) β)) :=
  still fun _ _ _ h => nomatch h

lemma lift (r : Except ε β) : Incremental more pos (fun _ : List α => (liftM r : StateT σ (Except ε) β)) := by
  refine still fun s b s' h => ?_
  cases r with
  | error => cases h
  | ok =>
    obtain rfl : s = s' := congrArg Prod.snd (Except.ok.inj h)
    rfl

lemma of_tail {f : σ → List α → Except ε (β × σ)} (hm : ∀ x s, m x s = f s (x.drop (pos s)))
    (settled : ∀ s t u, f s t ≠ .error more → f s (t ++ u) = f s t)
    (read : ∀ s t b s', f s t = .ok (b, s') → ∃ n ≤ t.length, pos s' = pos s + n ∧ f s (t.take n) = .ok (b, s')) :
    Incremental more pos m where
  settled x y s hx hne := by
    obtain ⟨z, rfl⟩ := hx
    rw [hm] at hne
    rw [hm, hm, drop_append]
    exact settled _ _ _ hne
  forward x s b s' h := by
    obtain ⟨n, -, hp, -⟩ := read s _ b s' ((hm x s).symm.trans h)
    omega
  within x s b s' hs h := by
    obtain ⟨n, hn, hp, -⟩ := read s _ b s' ((hm x s).symm.trans h)
    rw [length_drop] at hn
    omega
  read x s b s' h := by
    obtain ⟨n, -, hp, hr⟩ := read s _ b s' ((hm x s).symm.trans h)
    rw [hm, hp, drop_take, Nat.add_sub_cancel_left]
    exact hr

lemma bind (hm : Incremental more pos m) (hk : ∀ b, Incremental more pos (k b)) :
    Incremental more pos (fun x => m x >>= fun b => k b x) where
  settled x y s hxy hne := by
    rw [bind_apply] at hne ⊢
    rw [bind_apply]
    cases hr : m x s with
    | error e =>
      have ho : e ≠ more := by
        rintro rfl
        rw [hr] at hne
        exact hne rfl
      rw [hm.settled x y s hxy (hr ▸ fun he => ho (Except.error.inj he)), hr]
    | ok r =>
      rw [hr] at hne
      rw [hm.settled x y s hxy (hr ▸ nofun), hr]
      exact (hk r.1).settled x y r.2 hxy hne
  forward x s c s' h := by
    obtain ⟨b, s₁, h₁, h₂⟩ := of_bind h
    exact (hm.forward x s b s₁ h₁).trans ((hk b).forward x s₁ c s' h₂)
  within x s c s' hs h := by
    obtain ⟨b, s₁, h₁, h₂⟩ := of_bind h
    exact (hk b).within x s₁ c s' (hm.within x s b s₁ hs h₁) h₂
  read x s c s' h := by
    obtain ⟨b, s₁, h₁, h₂⟩ := of_bind h
    have hl := (hk b).forward x s₁ c s' h₂
    -- what the first reader needed is a part of what both need
    have hf : m (x.take (pos s')) s = .ok (b, s₁) := by
      rw [hm.settled _ _ s (take_prefix_take_left hl) (by rw [hm.read x s b s₁ h₁]; nofun)]
      exact hm.read x s b s₁ h₁
    rw [bind_apply, hf]
    exact (hk b).read x s₁ c s' h₂

lemma ite {p : Prop} [Decidable p] {m' : Reader α ε σ β} (hm : p → Incremental more pos m)
    (hm' : ¬ p → Incremental more pos m') :
    Incremental more pos (fun x => if p then m x else m' x) := by
  by_cases hp : p
  · simpa only [if_pos hp] using hm hp
  · simpa only [if_neg hp] using hm' hp

lemma incomplete (hm : Incremental more pos m) {x z : List α} {s s' : σ} {b : β}
    (h : m x s = .ok (b, s')) (hz : z <+: x)
    (hs : pos s ≤ z.length) (hl : z.length < pos s') : m z s = .error more := by
  by_contra hne
  have he : m z s = .ok (b, s') := (hm.settled z x s hz hne).symm.trans h
  exact absurd (hm.within z s b s' hs he) (Nat.not_le.mpr hl)

lemma extend (hm : Incremental more pos m) {x y : List α} {s s' : σ} {b : β} (h : m x s = .ok (b, s'))
    (hy : x.take (pos s') <+: y) :
    m y s = .ok (b, s') := by
  have hr := hm.read x s b s' h
  rw [hm.settled _ y s hy (hr ▸ nofun), hr]

end Incremental

end Turnloop.Lib
