import Mathlib.Tactic

/-! Programs over a state that may stop with an error. -/

namespace Turnloop.Lib

abbrev Program (ε σ α : Type) := ExceptT ε (StateM σ) α

namespace Program

variable {ε σ α β : Type} {m : Program ε σ α} {k : α → Program ε σ β} {s : σ} {ok : α → σ → Prop} {err : ε → σ → Prop}
variable {ok' : β → σ → Prop} {b : Bool} {e : ε}

def refuse (b : Bool) (e : ε) : Program ε σ Unit := if b then throw e else pure ()

def when (b : Bool) (m : Program ε σ Unit) : Program ε σ Unit := if b then m else pure ()

def lift (r : Except ε α) : Program ε σ α := fun s => (r, s)

/-- A run from `s` that returns does so with `ok`, one that stops does so with `err`. -/
def Post (m : Program ε σ α) (s : σ) (ok : α → σ → Prop) (err : ε → σ → Prop) : Prop :=
  match m s with
  | (.ok a, s') => ok a s'
  | (.error e, s') => err e s'

abbrev Keeps (m : Program ε σ α) (s : σ) (inv : σ → Prop) : Prop := Post m s (fun _ => inv) (fun _ => inv)

lemma Post.mono (h : Post m s ok err) {ok' : α → σ → Prop} {err' : ε → σ → Prop}
    (ho : ∀ a s', ok a s' → ok' a s') (he : ∀ e s', err e s' → err' e s') : Post m s ok' err' := by
  unfold Post at h ⊢
  split at h
  · exact ho _ _ h
  · exact he _ _ h

lemma bind_apply (m : Program ε σ α) (k : α → Program ε σ β) (s : σ) : (m >>= k) s = match m s with
      | (.ok a, s') => k a s'
      | (.error e, s') => (.error e, s') := by
  simp only [ExceptT.bind, ExceptT.mk, Bind.bind, StateT.bind, ExceptT.bindCont, Pure.pure]
  rcases m s with ⟨r, s'⟩
  cases r <;> rfl

lemma get_apply (s : σ) : (get : Program ε σ σ) s = (.ok s, s) := rfl

lemma modify_apply (f : σ → σ) (s : σ) : (modify f : Program ε σ PUnit) s = (.ok ⟨⟩, f s) := rfl

lemma pure_apply (a : α) (s : σ) : (pure a : Program ε σ α) s = (.ok a, s) := rfl

lemma Post.bind (h : Post m s (fun a s' => Post (k a) s' ok' err) err) : Post (m >>= k) s ok' err := by
  unfold Post at h ⊢
  rw [bind_apply]
  rcases hm : m s with ⟨r, s'⟩
  rw [hm] at h
  cases r with
  | ok | error => exact h

lemma Post.pure {a : α} (h : ok a s) : Post (Pure.pure a : Program ε σ α) s ok err := h

lemma Post.throw (h : err e s) : Post (MonadExcept.throw e : Program ε σ α) s ok err := h

lemma Post.get {k : σ → Program ε σ β} (h : Post (k s) s ok' err) : Post (MonadState.get >>= k) s ok' err :=
  Post.bind h

lemma Post.put {f : σ → σ} {k : PUnit → Program ε σ β} (h : Post (k ⟨⟩) (f s) ok' err) :
    Post (modify f >>= k) s ok' err :=
  Post.bind h

lemma Post.modify {f : σ → σ} {ok : PUnit → σ → Prop} (h : ok ⟨⟩ (f s)) :
    Post (modify f : Program ε σ PUnit) s ok err := h

lemma Post.refuse_last {ok : Unit → σ → Prop} (he : b = true → err e s) (h : b = false → ok () s) :
    Post (refuse b e) s ok err := by
  cases b with
  | false => exact h rfl
  | true => exact he rfl

lemma Post.refuse {k : Unit → Program ε σ β} (he : b = true → err e s)
    (h : b = false → Post (k ()) s ok' err) : Post (refuse b e >>= k) s ok' err := by
  cases b with
  | false => exact Post.bind (h rfl)
  | true => exact Post.bind (he rfl)

lemma Post.when_last {m : Program ε σ Unit} {ok : Unit → σ → Prop} (hk : b = false → ok () s)
    (h : b = true → Post m s ok err) : Post (when b m) s ok err := by
  cases b with
  | false => exact hk rfl
  | true => exact h rfl

lemma Post.when {m : Program ε σ Unit} {k : Unit → Program ε σ β}
    (hk : b = false → Post (k ()) s ok' err) (h : b = true → Post (m >>= k) s ok' err) :
    Post (when b m >>= k) s ok' err := by
  cases b with
  | false => exact Post.bind (hk rfl)
  | true => exact h rfl

lemma Post.lift {r : Except ε α} {k : α → Program ε σ β} (he : ∀ e, r = .error e → err e s)
    (h : ∀ a, r = .ok a → Post (k a) s ok' err) : Post (lift r >>= k) s ok' err := by
  cases r with
  | ok a => exact Post.bind (h a rfl)
  | error e => exact Post.bind (he e rfl)

lemma Post.forM {f : α → Program ε σ PUnit} {inv : σ → Prop} {l : List α}
    (h : ∀ a ∈ l, ∀ s, inv s → Post (f a) s (fun _ => inv) err) (hs : inv s) :
    Post (l.forM f) s (fun _ => inv) err := by
  induction l generalizing s with
  | nil => exact hs
  | cons a l ih =>
    have hp := h a List.mem_cons_self s hs
    exact Post.bind (hp.mono (fun _ s' hs' => ih (fun b hb => h b (List.mem_cons_of_mem _ hb)) hs') (fun _ _ he => he))

lemma Post.tryCatch {h : ε → Program ε σ α} (hm : Post m s ok (fun e s' => Post (h e) s' ok err)) :
    Post (MonadExcept.tryCatch m h) s ok err := by
  have hr : (MonadExcept.tryCatch m h : Program ε σ α) s = match m s with
      | (.ok a, s') => (.ok a, s')
      | (.error e, s') => h e s' := by
    change (ExceptT.tryCatch m h).run s = _
    simp only [ExceptT.tryCatch, ExceptT.mk, ExceptT.run, Bind.bind, StateT.bind, Pure.pure]
    rcases m s with ⟨r, s'⟩
    cases r <;> rfl
  unfold Post at hm ⊢
  rw [hr]
  rcases hs : m s with ⟨r, s'⟩
  rw [hs] at hm
  cases r with
  | ok | error => exact hm

lemma Post.run (h : Post m s ok err) {r : Except ε α} {s' : σ} (hr : m s = (r, s')) :
    (∃ a, r = .ok a ∧ ok a s') ∨ ∃ e, r = .error e ∧ err e s' := by
  unfold Post at h
  rw [hr] at h
  cases r with
  | ok a => exact Or.inl ⟨a, rfl, h⟩
  | error e => exact Or.inr ⟨e, rfl, h⟩

lemma Post.snd {inv : σ → Prop} (h : Keeps m s inv) : inv (m s).2 := by
  unfold Keeps Post at h
  split at h <;> simp_all

end Program

end Turnloop.Lib
